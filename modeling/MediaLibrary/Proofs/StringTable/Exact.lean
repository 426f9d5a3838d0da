import MediaLibrary.Proofs.StringTable.Guarded
import MediaLibrary.Proofs.StringTable.Growth
import MediaLibrary.Proofs.StringTable.Removal
import MediaLibrary.Proofs.StringTable.Sorting
/-! Changing a string table with a check on every number that is stored and on every difference. A
number that does not fit into a word is a fault, where storing it would cut it off, and so is a
difference below zero. The header is written down number by number, as the change computes it. On
every table that can be opened these changes do what the changes without the checks do: no number is
cut off, and a difference is below zero only where a removal faults in any case. -/
namespace MediaLibrary

/-- The number `n` as it is stored, if it fits into a word. -/
def Word.exact {ε : Type} (n : Nat) : Except (Failure ε) Nat :=
  if n < Word.limit then .ok n else .error (.fault .overflow)

theorem Word.exact_eq {ε : Type} {n : Nat} (h : n < Word.limit) :
    Word.exact n = (.ok n : Except (Failure ε) Nat) := if_pos h

theorem Word.consult_exact {ε σ : Type} {n : Nat} (h : n < Word.limit) (s : σ) :
    consult (fun _ => Word.exact n) s = (.ok n s : EStateM.Result (Failure ε) σ Nat) :=
  Steps.consult_ok (Word.exact_eq h)

namespace StringTable.Exact

/-- A table and the header that is written for it. -/
structure Written where
  header : Header
  table : StringTable

/-- The bytes that are stored: the header as it was written, and the parts of the table. -/
def Written.encode (w : Written) : Image :=
  .ofBytes w.header.encode ++ w.table.strings ++ w.table.free ++ w.table.index

/-- The table with the header that it ought to have. -/
def Written.of (t : StringTable) : Written := ⟨t.header, t⟩

/-- The free bytes by the header: those between the strings and the index. -/
def freeOf (h : Header) : Except (Failure TableDamage) Nat := do
  Failure.difference (← Failure.difference h.indexOffset headerSize) h.stringBytes

def push (t : StringTable) (value : Bytes) : Except (Failure TableDamage) Written :=
  if t.hasRoomFor value then do
    let slot ← Failure.difference t.indexOffset slotSize
    let entry ← Word.exact t.strings.size
    let indexOffset ← Word.exact slot
    let stringBytes ← Word.exact (t.strings.size + (value.length + 1))
    let header : Header := { t.header with indexOffset, stringBytes }
    let free ← freeOf header
    .ok
      { header
        table := sort
          { strings := t.strings ++ .ofBytes (value ++ [0])
            free := t.free.slice (value.length + 1) free
            index := indexOf (entry :: t.slots) } }
  else .error (.refused .noRoom)

/-- What becomes of a slot when `size` bytes are taken out at `offset`. -/
def rebase (offset size slot : Nat) : Except (Failure TableDamage) Nat :=
  if slot ≤ offset then .ok slot else do Word.exact (← Failure.difference slot size)

def remove (t : StringTable) (value : Bytes) :
    Except (Failure TableDamage) (Option Written) := do
  match ← Failure.ofCheck id (t.search value) with
  | .absent _ => .ok none
  | .found n =>
    let offset := t.slotAt n
    let size := value.length + 1
    let kept ← Failure.difference t.strings.size size
    let slots ← t.slots.mapM (rebase offset size)
    let indexOffset ← Word.exact (t.indexOffset + slotSize)
    let stringBytes ← Word.exact kept
    .ok (some
      { header := { t.header with indexOffset, stringBytes }
        table :=
          { strings := t.strings.take offset ++ t.strings.drop (offset + size)
            free := .blank size ++ t.free ++ .blank slotSize
            index := indexOf (slots.eraseIdx n) } })

variable {σ : Type}

def grow (host : Host σ) (base quantum : Nat) : EStateM (Failure TableError) σ Unit := do
  let t ← consult (tableAt host base)
  if Word.limit ≤ t.length + quantum then throw (.refused .overflow)
  else
    (host.insertSpace (base + t.indexOffset) quantum).adaptExcept (Failure.map .grow)
    let length ← consult fun _ => Word.exact (t.length + quantum)
    let indexOffset ← consult fun _ => Word.exact (t.indexOffset + quantum)
    modify fun s => host.overlay s (base + lengthField.offset)
      (.ofBytes (Word.listToBytes [length, indexOffset]))

def growTimes (host : Host σ) (base quantum : Nat) : Nat → EStateM (Failure TableError) σ Unit
  | 0 => pure ()
  | n + 1 => do
    grow host base quantum
    growTimes host base quantum n

def pushAt (host : Host σ) (base : Nat) (value : Bytes) : EStateM (Failure TableError) σ Unit := do
  let t ← consult (tableAt host base)
  let pushed ← consult fun _ => (push t value).mapError (Failure.map .corrupt)
  modify fun s => host.overlay s base pushed.encode

def add (host : Host σ) (base : Nat) (value : Bytes) (quantum : Nat) :
    EStateM (Failure TableError) σ Unit := do
  let free ← consult (checkNew host base value quantum)
  growTimes host base quantum (growthSteps free (roomFor value.length) quantum)
  pushAt host base value

/-! The same without the checks. -/

section Tables

variable {t : StringTable} {value : Bytes}

theorem freeOf_header (t : StringTable) : freeOf t.header = .ok t.free.size := by
  have hheader : headerSize ≤ t.indexOffset := by
    unfold indexOffset
    omega
  have hstrings : t.strings.size ≤ t.indexOffset - headerSize := by
    unfold indexOffset
    omega
  have hfree : t.indexOffset - headerSize - t.strings.size = t.free.size := by
    unfold indexOffset
    omega
  rw [freeOf, header, Steps.query_ok (Failure.difference_eq hheader),
    Failure.difference_eq hstrings, hfree]

theorem header_of_push (ht : t.parts.Sized) {pushed : StringTable} (h : t.push value = .ok pushed) :
    pushed.header = { t.header with
      indexOffset := t.indexOffset - slotSize
      stringBytes := t.strings.size + (value.length + 1) } := by
  obtain ⟨hstrings, hfree, -⟩ := sizes_of_push h
  have hlength : pushed.length = t.length := by
    rw [← length_parts, (sized_push ht h).2, length_parts]
  have hindex : pushed.indexOffset = t.indexOffset - slotSize := by
    unfold indexOffset
    unfold roomFor at hfree
    omega
  rw [header, hlength, hindex, hstrings]
  rfl

theorem push_eq (h : t.parts.Sized) (value : Bytes) :
    push t value = (Failure.ofCheck id (t.push value)).map Written.of := by
  cases hpush : t.push value with
  | error damage =>
    unfold StringTable.push at hpush
    split at hpush
    case isTrue => cases hpush
    case isFalse hroom =>
      obtain rfl := Except.error.inj hpush
      rw [push, if_neg hroom]
      rfl
  | ok pushed =>
    have hheader := header_of_push h hpush
    obtain ⟨-, hfree, -⟩ := sizes_of_push hpush
    unfold StringTable.push at hpush
    split at hpush
    case isFalse => cases hpush
    case isTrue hroom =>
      have hrest := freeOf_header pushed
      rw [hheader, Nat.eq_sub_of_add_eq hfree] at hrest
      have hbelow : headerSize + t.strings.size + t.free.size < Word.limit := by
        have hlength := h.below
        rw [length_parts] at hlength
        exact Nat.lt_of_le_of_lt (Nat.le_add_right _ _) hlength
      have hslot : slotSize ≤ t.indexOffset := by
        unfold indexOffset
        unfold roomFor at hfree
        omega
      have hindex : t.indexOffset - slotSize < Word.limit :=
        Nat.lt_of_le_of_lt (Nat.sub_le _ _) hbelow
      have hstrings : t.strings.size + (value.length + 1) < Word.limit := by
        unfold roomFor at hfree
        omega
      rw [push, if_pos hroom, Steps.query_ok (Failure.difference_eq hslot),
        Steps.query_ok (Word.exact_eq (by omega)), Steps.query_ok (Word.exact_eq hindex),
        Steps.query_ok (Word.exact_eq hstrings)]
      refine (Steps.query_ok hrest).trans ?_
      rw [← hheader, ← Except.ok.inj hpush]
      rfl

end Tables
section Hosts

variable {host : Host σ} {base : Nat} {s : σ}

theorem sized_of_tableAt {t : StringTable} (h : tableAt host base s = .ok t) : t.parts.Sized :=
  (encode_of_decode (decode_of_decodeAt (Steps.ofCheck_eq_ok_iff.1 h))).1

theorem grow_eq (host : Host σ) (base quantum : Nat) :
    grow host base quantum = StringTable.grow host base quantum := by
  funext s
  refine Steps.consult_bind_congr fun t _ => ?_
  by_cases hbig : Word.limit ≤ t.length + quantum
  · rw [if_pos hbig, if_pos hbig]
  · have hlength : t.length + quantum < Word.limit := Nat.lt_of_not_le hbig
    have hindex : t.indexOffset + quantum < Word.limit :=
      Nat.lt_of_le_of_lt (Nat.add_le_add_right (Nat.le_add_right _ _) quantum) hlength
    rw [if_neg hbig, if_neg hbig]
    refine Steps.bind_congr_ok fun _ s' _ => ?_
    rw [Steps.bind_ok (Word.consult_exact hlength s'), Steps.bind_ok (Word.consult_exact hindex s')]

theorem growTimes_eq (host : Host σ) (base quantum n : Nat) :
    growTimes host base quantum n = StringTable.growTimes host base quantum n := by
  induction n with
  | zero => rfl
  | succ n ih => rw [growTimes, StringTable.growTimes, grow_eq, ih]

theorem pushAt_eq (host : Host σ) (base : Nat) (value : Bytes) :
    pushAt host base value = StringTable.pushAt host base value := by
  funext s
  refine Steps.consult_bind_congr fun t ht => ?_
  rw [push_eq (sized_of_tableAt ht)]
  cases t.push value <;> rfl

theorem add_eq (host : Host σ) (base : Nat) (value : Bytes) (quantum : Nat) :
    add host base value quantum = StringTable.add host base value quantum := by
  rw [add, StringTable.add, pushAt_eq]
  simp only [growTimes_eq]

end Hosts
end StringTable.Exact
end MediaLibrary
