import MediaLibrary.Proofs.StringTable.Encoding
/-! Reading a string table from its plain bytes, each access and each subtraction being checked. An
access that leaves the bytes is a fault, and so is a difference below zero. On the bytes of a table
whose header was accepted the readers answer what the table answers: no check fails, whatever the
strings and the slots are. -/
namespace MediaLibrary

/-- The bytes from `start` up to `stop`, which have to be there. -/
def Bytes.between {ε : Type} (bytes : Bytes) (start stop : Nat) : Except (Failure ε) Bytes :=
  if start ≤ stop ∧ stop ≤ bytes.length then .ok (Bytes.slice bytes start (stop - start))
  else .error (.fault .outOfBounds)

def Failure.difference {ε : Type} (first second : Nat) : Except (Failure ε) Nat :=
  if second ≤ first then .ok (first - second) else .error (.fault .overflow)

section Checks

variable {ε : Type}

theorem Bytes.between_eq {bytes : Bytes} {start stop : Nat} (hle : start ≤ stop)
    (hstop : stop ≤ bytes.length) :
    Bytes.between bytes start stop
      = (.ok (Bytes.slice bytes start (stop - start)) : Except (Failure ε) Bytes) :=
  if_pos ⟨hle, hstop⟩

theorem Bytes.between_middle (before piece after : Bytes) :
    Bytes.between (before ++ piece ++ after) before.length (before.length + piece.length)
      = (.ok piece : Except (Failure ε) Bytes) := by
  have hstop : before.length + piece.length ≤ (before ++ piece ++ after).length := by
    simp only [List.length_append]
    omega
  rw [Bytes.between_eq (Nat.le_add_right _ _) hstop, Nat.add_sub_cancel_left, Bytes.slice_middle]

theorem Bytes.between_idxOf {bytes : Bytes} (h : 0 ∈ bytes) :
    Bytes.between bytes 0 (bytes.idxOf 0)
      = (.ok (Bytes.untilZero bytes) : Except (Failure ε) Bytes) := by
  obtain ⟨hnone, rest, hsplit⟩ := Bytes.eq_untilZero_append h
  generalize hfirst : Bytes.untilZero bytes = first at hnone hsplit
  have hindex : bytes.idxOf 0 = first.length := by
    rw [hsplit, List.idxOf_append, if_neg hnone, List.idxOf_cons_self, Nat.zero_add]
  have hslice : Bytes.slice bytes 0 first.length = first := by
    rw [hsplit, Bytes.slice_length]
  rw [hindex, Bytes.between_eq (Nat.zero_le _) (by simp [hsplit]), Nat.sub_zero, hslice]

theorem Failure.difference_eq {first second : Nat} (h : second ≤ first) :
    Failure.difference first second = (.ok (first - second) : Except (Failure ε) Nat) :=
  if_pos h

end Checks

namespace StringTable.Guarded

/-- An answer, a refusal because of damage, or a fault. -/
abbrev Reading (α : Type) := Except (Failure TableDamage) α

def refuse {α : Type} (damage : TableDamage) : Reading α := .error (.refused damage)

/-! The numbers of the header, and what is computed from them. -/

def length (bytes : Bytes) : Reading Nat := Failure.inBounds (lengthField.get? bytes)

def indexOffset (bytes : Bytes) : Reading Nat := Failure.inBounds (indexOffsetField.get? bytes)

def stringBytes (bytes : Bytes) : Reading Nat := Failure.inBounds (stringBytesField.get? bytes)

def entries (bytes : Bytes) : Reading Nat := do
  return (← Failure.difference (← length bytes) (← indexOffset bytes)) / slotSize

def free (bytes : Bytes) : Reading Nat := do
  Failure.difference (← Failure.difference (← indexOffset bytes) headerSize) (← stringBytes bytes)

def isEmpty (bytes : Bytes) : Reading Bool := do
  return decide ((← entries bytes) = 0)

def hasRoomFor (bytes value : Bytes) : Reading Bool := do
  return decide (roomFor value.length ≤ (← free bytes))

structure Stats where
  length : Nat
  indexOffset : Nat
  stringBytes : Nat
  free : Nat
  entries : Nat
  deriving DecidableEq, Repr

def stats (bytes : Bytes) : Reading Stats := do
  return ⟨← length bytes, ← indexOffset bytes, ← stringBytes bytes, ← free bytes, ← entries bytes⟩

def describe (bytes : Bytes) : Reading String := do
  return s!"Bucket \x7b length: {← length bytes}, index_offs: {← indexOffset bytes}, str_bytes: {← stringBytes bytes}, "
    ++ s!"entries: {← entries bytes} \x7d"

/-- The bytes of the table at the start of `bytes`, if its header is consistent. -/
def view (bytes : Bytes) : Reading Bytes :=
  if bytes.length < headerSize then refuse (.headerTooShort bytes.length)
  else do
    let magic ← Failure.inBounds (magicField.get? bytes)
    if magic ≠ StringTable.magic then refuse (.badMagic magic)
    else
      let length ← length bytes
      let indexOffset ← indexOffset bytes
      let stringBytes ← stringBytes bytes
      if bytes.length < length then refuse (.lengthOverrun length bytes.length)
      else if length < indexOffset ∨ indexOffset < headerSize + stringBytes then
        refuse (.badIndexOffset indexOffset length stringBytes)
      else if (← Failure.difference length indexOffset) % slotSize ≠ 0 then refuse .raggedIndex
      else Bytes.between bytes 0 length

/-! The strings. -/

def slotAt (bytes : Bytes) (n : Nat) : Reading Nat := do
  Failure.inBounds ((WordField.mk ((← indexOffset bytes) + slotSize * n)).get? bytes)

def strings (bytes : Bytes) : Reading Bytes := do
  Bytes.between bytes headerSize (headerSize + (← stringBytes bytes))

/-- The string that begins at `offset` of the string area, which may be any number. -/
def resolve (bytes : Bytes) (offset : Nat) : Reading Bytes := do
  let area ← strings bytes
  if area.length ≤ offset then refuse (.offsetOutOfRange offset)
  else
    let tail := area.drop offset
    if 0 ∈ tail then Bytes.between tail 0 (tail.idxOf 0) else refuse (.unterminated offset)

def textAt (bytes : Bytes) (offset : Nat) : Reading String := do
  match Text.ofBytes? (← resolve bytes offset) with
  | some text => .ok text
  | none => refuse (.notUtf8 offset)

def textOf (bytes : Bytes) (n : Nat) : Reading String := do
  textAt bytes (← slotAt bytes n)

def ordinal (bytes : Bytes) (n : Nat) : Reading (Option String) := do
  if n < (← entries bytes) then return some (← textOf bytes n) else return none

def outcomes (bytes : Bytes) : Reading (List (Reading String)) := do
  return (List.range (← entries bytes)).map (textOf bytes)

/-- Reads the strings of the slots from the `n`-th to the last of `count`. -/
def textsFrom (bytes : Bytes) (count : Nat) (before : List String) (n : Nat) :
    Reading (List String) :=
  if n < count then
    match textOf bytes n with
    | .error e => .error e
    | .ok text => textsFrom bytes count (text :: before) (n + 1)
  else .ok before.reverse
termination_by count - n

def texts (bytes : Bytes) : Reading (List String) := do
  textsFrom bytes (← entries bytes) [] 0

/-- Binary search among the slots from `low` up to `high`; the difference is taken only where `low`
is less. -/
def searchBetween (bytes target : Bytes) (low high : Nat) : Reading Rank :=
  if low < high then
    let middle := low + (high - low) / 2
    match slotAt bytes middle >>= resolve bytes with
    | .error e => .error e
    | .ok probe =>
      if probe < target then searchBetween bytes target (middle + 1) high
      else if target < probe then searchBetween bytes target low middle
      else .ok (.found middle)
  else .ok (.absent low)
termination_by high - low

def find (bytes value : Bytes) : Reading (Option Nat) := do
  return (← searchBetween bytes value 0 (← entries bytes)).slot?

def checkOrderFrom (bytes : Bytes) (count : Nat) (before : Option Bytes) (n : Nat) :
    Reading Unit :=
  if n < count then
    match slotAt bytes n >>= resolve bytes with
    | .error e => .error e
    | .ok value =>
      if before.any (fun b => ¬ b < value) then refuse (.outOfOrder n)
      else checkOrderFrom bytes count (some value) (n + 1)
  else .ok ()
termination_by count - n

def checkOrder (bytes : Bytes) : Reading Unit := do
  checkOrderFrom bytes (← entries bytes) none 0

/-! What the readers answer on the bytes of a table. -/

section Fields

variable {p : Parts}

theorem get?_encode {f : WordField} (h : f.stop ≤ headerSize) :
    f.get? p.encode = f.get? p.header.encode := by
  rw [Parts.encode, List.append_assoc, List.append_assoc]
  exact WordField.get?_append_left h _

theorem length_eq (h : p.Sized) : length p.encode = .ok p.length := by
  rw [length, get?_encode (by decide)]
  exact congrArg Except.ok (Word.ofBytes_toBytes_of_lt h.below)

theorem indexOffset_eq (h : p.Sized) : indexOffset p.encode = .ok p.indexOffset := by
  have hbelow : p.indexOffset < Word.limit := Nat.lt_of_le_of_lt (Nat.le_add_right _ _) h.below
  rw [indexOffset, get?_encode (by decide)]
  exact congrArg Except.ok (Word.ofBytes_toBytes_of_lt hbelow)

theorem stringBytes_eq (h : p.Sized) : stringBytes p.encode = .ok p.strings.length := by
  have hbelow : p.strings.length < Word.limit := by
    have := h.below
    unfold Parts.length Parts.indexOffset at this
    omega
  rw [stringBytes, get?_encode (by decide)]
  exact congrArg Except.ok (Word.ofBytes_toBytes_of_lt hbelow)

theorem strings_eq (h : p.Sized) : strings p.encode = .ok p.strings := by
  rw [strings, Steps.query_ok (stringBytes_eq h), Parts.encode, List.append_assoc]
  exact Bytes.between_middle p.header.encode p.strings (p.free ++ p.index)

end Fields

section Readers

variable {t : StringTable}

theorem entries_eq (h : t.parts.Sized) : entries t.parts.encode = .ok t.entries := by
  have hle : t.parts.indexOffset ≤ t.parts.length := Nat.le_add_right _ _
  have hcount : t.parts.length - t.parts.indexOffset = t.parts.index.length :=
    Nat.add_sub_cancel_left _ _
  rw [entries, Steps.query_ok (length_eq h), Steps.query_ok (indexOffset_eq h),
    Steps.query_ok (Failure.difference_eq hle), hcount, StringTable.entries_eq]
  rfl

theorem free_eq (h : t.parts.Sized) : free t.parts.encode = .ok t.free.size := by
  have hheader : headerSize ≤ t.parts.indexOffset := by
    unfold Parts.indexOffset
    omega
  have hstrings : t.parts.strings.length ≤ t.parts.indexOffset - headerSize := by
    unfold Parts.indexOffset
    omega
  rw [free, Steps.query_ok (indexOffset_eq h), Steps.query_ok (Failure.difference_eq hheader),
    Steps.query_ok (stringBytes_eq h), Failure.difference_eq hstrings]
  simp only [Parts.indexOffset, parts, Image.length_toList]
  congr 1
  omega

theorem isEmpty_eq (h : t.parts.Sized) : isEmpty t.parts.encode = .ok t.isEmpty := by
  rw [isEmpty, Steps.query_ok (entries_eq h)]
  rfl

theorem hasRoomFor_eq (h : t.parts.Sized) (value : Bytes) :
    hasRoomFor t.parts.encode value = .ok (t.hasRoomFor value) := by
  rw [hasRoomFor, Steps.query_ok (free_eq h)]
  rfl

theorem stats_eq (h : t.parts.Sized) : stats t.parts.encode
    = .ok ⟨t.length, t.indexOffset, t.strings.size, t.free.size, t.entries⟩ := by
  rw [stats, Steps.query_ok (length_eq h), Steps.query_ok (indexOffset_eq h),
    Steps.query_ok (stringBytes_eq h), Steps.query_ok (free_eq h), Steps.query_ok (entries_eq h),
    length_parts, indexOffset_parts]
  simp only [parts, Image.length_toList]
  rfl

theorem describe_eq (h : t.parts.Sized) : describe t.parts.encode = .ok t.describe := by
  rw [describe, Steps.query_ok (length_eq h), Steps.query_ok (indexOffset_eq h),
    Steps.query_ok (stringBytes_eq h), Steps.query_ok (entries_eq h), length_parts,
    indexOffset_parts]
  simp only [parts, Image.length_toList]
  rfl

theorem slotAt_eq (h : t.parts.Sized) {n : Nat} (hn : n < t.entries) :
    slotAt t.parts.encode n = .ok (t.slotAt n) := by
  have hslot : slotSize * n + slotSize ≤ t.parts.index.length := by
    have := Nat.div_mul_le_self t.parts.index.length slotSize
    rw [← StringTable.entries_eq] at this
    unfold slotSize Word.size at *
    omega
  have hstop : (WordField.mk (t.parts.indexOffset + slotSize * n)).stop ≤ t.parts.encode.length := by
    rw [Parts.length_encode]
    simp only [WordField.stop, Parts.length, slotSize] at hslot ⊢
    omega
  have hstart : t.parts.indexOffset
      = (t.parts.header.encode ++ t.parts.strings ++ t.parts.free).length := by
    rw [List.length_append, List.length_append, Header.length_encode, Parts.indexOffset]
  rw [slotAt, Steps.query_ok (indexOffset_eq h), WordField.get?, if_pos hstop, hstart, Parts.encode,
    Bytes.slice_append_right, StringTable.slotAt_eq]
  rfl

theorem resolve_eq (h : t.parts.Sized) (offset : Nat) :
    resolve t.parts.encode offset = Failure.ofCheck id (t.resolve offset) := by
  rw [resolve, Steps.query_ok (strings_eq h), StringTable.resolve_eq]
  by_cases hin : t.parts.strings.length ≤ offset
  · rw [if_pos hin, if_pos hin]
    rfl
  rw [if_neg hin, if_neg hin]
  by_cases hends : 0 ∈ t.parts.strings.drop offset
  · simp only [if_pos hends]
    exact Bytes.between_idxOf hends
  · simp only [if_neg hends]
    rfl

theorem resolve_slot_eq (h : t.parts.Sized) {n : Nat} (hn : n < t.entries) :
    (slotAt t.parts.encode n >>= resolve t.parts.encode)
      = Failure.ofCheck id (t.resolve (t.slotAt n)) := by
  rw [Steps.query_ok (slotAt_eq h hn), resolve_eq h]

theorem textAt_eq (h : t.parts.Sized) (offset : Nat) :
    textAt t.parts.encode offset = Failure.ofCheck id (t.textAt offset) := by
  rw [textAt, resolve_eq h, StringTable.textAt]
  cases t.resolve offset with
  | error damage => rfl
  | ok value =>
    simp only [Failure.ofCheck, bind, Except.bind]
    cases Text.ofBytes? value <;> rfl

theorem textOf_eq (h : t.parts.Sized) {n : Nat} (hn : n < t.entries) :
    textOf t.parts.encode n = Failure.ofCheck id (t.textAt (t.slotAt n)) := by
  rw [textOf, Steps.query_ok (slotAt_eq h hn), textAt_eq h]

theorem ordinal_eq (h : t.parts.Sized) (n : Nat) :
    ordinal t.parts.encode n = Failure.ofCheck id (t.ordinal n) := by
  rw [ordinal, Steps.query_ok (entries_eq h), StringTable.ordinal]
  by_cases hn : n < t.entries
  · rw [if_pos hn, if_pos hn, textOf_eq h hn]
    cases t.textAt (t.slotAt n) <;> rfl
  · rw [if_neg hn, if_neg hn]
    rfl

theorem outcomes_eq (h : t.parts.Sized) :
    outcomes t.parts.encode = .ok (t.outcomes.map (Failure.ofCheck id)) := by
  have hread : (List.range t.entries).map (textOf t.parts.encode)
      = (List.range t.entries).map fun n => Failure.ofCheck id (t.textAt (t.slotAt n)) :=
    List.map_congr_left fun n hn => textOf_eq h (List.mem_range.1 hn)
  rw [outcomes, Steps.query_ok (entries_eq h), hread, StringTable.outcomes, slots, List.map_map,
    List.map_map]
  rfl

theorem textsFrom_eq (h : t.parts.Sized) (before : List String) (n : Nat) :
    textsFrom t.parts.encode t.entries before n = Failure.ofCheck id (t.textsFrom before n) := by
  fun_induction StringTable.textsFrom t before n with
  | case1 before n hn damage hread => 
    rw [textsFrom, if_pos hn, textOf_eq h hn, hread]
    rfl
  | case2 before n hn text hread ih =>
    rw [textsFrom, if_pos hn, textOf_eq h hn, hread]
    exact ih
  | case3 before n hn =>
    rw [textsFrom, if_neg hn]
    rfl

theorem texts_eq (h : t.parts.Sized) :
    texts t.parts.encode = Failure.ofCheck id t.texts := by
  rw [texts, Steps.query_ok (entries_eq h), textsFrom_eq h, StringTable.texts]

theorem resolve_middle_eq (h : t.parts.Sized) {low high : Nat} (hlt : low < high)
    (hhigh : high ≤ t.entries) :
    (slotAt t.parts.encode (low + (high - low) / 2) >>= resolve t.parts.encode)
      = Failure.ofCheck id (t.resolve (t.slotAt (low + (high - low) / 2))) :=
  resolve_slot_eq h (by omega)

theorem searchBetween_eq (h : t.parts.Sized) (target : Bytes) {low high : Nat}
    (hhigh : high ≤ t.entries) : searchBetween t.parts.encode target low high
      = Failure.ofCheck id (t.searchBetween target low high) := by
  fun_induction StringTable.searchBetween t target low high with
  | case1 low high hlt middle damage hread =>
    rw [searchBetween, if_pos hlt]
    simp only [middle] at hread
    simp only [resolve_middle_eq h hlt hhigh, hread, Failure.ofCheck]
  | case2 low high hlt middle probe hread hless ih =>
    rw [searchBetween, if_pos hlt]
    simp only [middle] at hread
    simp only [resolve_middle_eq h hlt hhigh, hread, Failure.ofCheck, if_pos hless]
    exact ih hhigh
  | case3 low high hlt middle probe hread hnot hless ih =>
    have hslot : middle < t.entries := by omega
    rw [searchBetween, if_pos hlt]
    simp only [middle] at hread
    simp only [resolve_middle_eq h hlt hhigh, hread, Failure.ofCheck, if_neg hnot, if_pos hless]
    exact ih (Nat.le_of_lt hslot)
  | case4 low high hlt middle probe hread hnot hnot' =>
    rw [searchBetween, if_pos hlt]
    simp only [middle] at hread
    simp only [resolve_middle_eq h hlt hhigh, hread, Failure.ofCheck, if_neg hnot, if_neg hnot',
      middle]
  | case5 low high hlt =>
    rw [searchBetween, if_neg hlt]
    rfl

theorem find_eq (h : t.parts.Sized) (value : Bytes) :
    find t.parts.encode value = Failure.ofCheck id (t.find value) := by
  rw [find, Steps.query_ok (entries_eq h), searchBetween_eq h value (Nat.le_refl _),
    StringTable.find, StringTable.search]
  cases t.searchBetween value 0 t.entries <;> rfl

theorem checkOrderFrom_eq (h : t.parts.Sized) (before : Option Bytes) (n : Nat) :
    checkOrderFrom t.parts.encode t.entries before n
      = Failure.ofCheck id (t.checkOrderFrom before n) := by
  fun_induction StringTable.checkOrderFrom t before n with
  | case1 before n hn damage hread =>
    rw [checkOrderFrom, if_pos hn, resolve_slot_eq h hn, hread]
    rfl
  | case2 before n hn value hread hany =>
    rw [checkOrderFrom, if_pos hn, resolve_slot_eq h hn, hread]
    simp only [Failure.ofCheck, if_pos hany]
    rfl
  | case3 before n hn value hread hany ih =>
    rw [checkOrderFrom, if_pos hn, resolve_slot_eq h hn, hread]
    simp only [Failure.ofCheck, if_neg hany]
    exact ih
  | case4 before n hn =>
    rw [checkOrderFrom, if_neg hn]
    rfl

theorem checkOrder_eq (h : t.parts.Sized) :
    checkOrder t.parts.encode = Failure.ofCheck id t.checkOrder := by
  rw [checkOrder, Steps.query_ok (entries_eq h), checkOrderFrom_eq h, StringTable.checkOrder]

end Readers

section View

variable {image : Image} {t : StringTable}

theorem between_of_decode (ht : decode image = .ok t) {n : Nat}
    (hlength : length image.toList = .ok n) :
    (Bytes.between image.toList 0 n : Reading Bytes) = .ok t.parts.encode := by
  obtain ⟨hsized, rest, hrest⟩ := encode_of_decode ht
  have hstop : lengthField.stop ≤ t.parts.encode.length := by
    rw [Parts.length_encode]
    exact Nat.le_trans (by decide) t.parts.headerSize_le_length
  have hread : length image.toList = .ok t.parts.length := by
    rw [hrest, length, WordField.get?_append_left hstop]
    exact length_eq hsized
  obtain rfl : n = t.parts.length := Except.ok.inj (hlength.symm.trans hread)
  have hbetween := Bytes.between_middle (ε := TableDamage) [] t.parts.encode rest
  rwa [Parts.length_encode, List.nil_append, List.length_nil, Nat.zero_add, ← hrest] at hbetween

theorem exists_header (h : headerSize ≤ image.toList.length) : ∃ header : Header,
    Header.decode? (image.read 0 headerSize) = some header ∧
    (Failure.inBounds (magicField.get? image.toList) : Reading Nat) = .ok header.magic ∧
    length image.toList = .ok header.length ∧
    indexOffset image.toList = .ok header.indexOffset ∧
    stringBytes image.toList = .ok header.stringBytes := by
  have hread : image.read 0 headerSize = image.toList.take headerSize := by
    rw [Image.toList_read, Bytes.slice, List.drop_zero]
  have hfield {f : WordField} (hf : f.stop ≤ headerSize) :
      ∃ n, f.get? image.toList = some n ∧ f.get? (image.read 0 headerSize) = some n := by
    obtain ⟨n, hn⟩ := WordField.exists_get? (Nat.le_trans hf h)
    exact ⟨n, hn, by rw [hread, WordField.get?_take hf, hn]⟩
  obtain ⟨m, hm, hm'⟩ := hfield (f := magicField) (by decide)
  obtain ⟨l, hl, hl'⟩ := hfield (f := lengthField) (by decide)
  obtain ⟨i, hi, hi'⟩ := hfield (f := indexOffsetField) (by decide)
  obtain ⟨s, hs, hs'⟩ := hfield (f := stringBytesField) (by decide)
  refine ⟨⟨m, l, i, s⟩, ?_, ?_, ?_, ?_, ?_⟩
  · rw [Header.decode?, hm', hl', hi', hs']
    rfl
  · rw [hm]
    rfl
  · rw [length, hl]
    rfl
  · rw [indexOffset, hi]
    rfl
  · rw [stringBytes, hs]
    rfl

/-- Whatever the bytes are, a table is opened or refused as it is decoded. -/
theorem view_eq (image : Image) :
    view image.toList = Failure.ofCheck id ((decode image).map fun t => t.parts.encode) := by
  by_cases hshort : image.toList.length < headerSize
  · have hnone : Header.decode? (image.read 0 headerSize) = none := by
      cases hheader : Header.decode? (image.read 0 headerSize) with
      | none => rfl
      | some header =>
        have hlen := Header.length_of_decode hheader
        rw [Image.toList_read, Bytes.length_slice] at hlen
        omega
    rw [view, if_pos hshort, decode, hnone, Image.length_toList]
    rfl
  obtain ⟨⟨m, l, i, s⟩, hheader, hmagic, hlength, hindex, hstrings⟩ :=
    exists_header (Nat.not_lt.1 hshort)
  rw [view, if_neg hshort, Steps.query_ok hmagic]
  by_cases hmagical : m ≠ StringTable.magic
  · rw [if_pos hmagical, decode, hheader]
    simp only [if_pos hmagical]
    rfl
  rw [if_neg hmagical, Steps.query_ok hlength, Steps.query_ok hindex,
    Steps.query_ok hstrings, Image.length_toList]
  by_cases hover : image.size < l
  · rw [if_pos hover, decode, hheader]
    simp only [if_neg hmagical, if_pos hover]
    rfl
  by_cases hbad : l < i ∨ i < headerSize + s
  · rw [if_neg hover, if_pos hbad, decode, hheader]
    simp only [if_neg hmagical, if_neg hover, if_pos hbad]
    rfl
  have hle : i ≤ l := by omega
  rw [if_neg hover, if_neg hbad, Steps.query_ok (Failure.difference_eq hle)]
  by_cases hragged : (l - i) % slotSize ≠ 0
  · rw [if_pos hragged, decode, hheader]
    simp only [if_neg hmagical, if_neg hover, if_neg hbad, if_pos hragged]
    rfl
  · have hdecode : decode image = .ok ⟨image.slice headerSize s,
        image.slice (headerSize + s) (i - (headerSize + s)), image.slice i (l - i)⟩ := by
      rw [decode, hheader]
      simp only [if_neg hmagical, if_neg hover, if_neg hbad, if_neg hragged]
    rw [if_neg hragged, between_of_decode hdecode hlength, hdecode]
    rfl

end View

/-- All readers answer on the bytes as the table does, and it never faults. -/
structure Answers (bytes : Bytes) (t : StringTable) : Prop where
  stats : stats bytes = .ok ⟨t.length, t.indexOffset, t.strings.size, t.free.size, t.entries⟩
  isEmpty : isEmpty bytes = .ok t.isEmpty
  hasRoomFor : ∀ value, hasRoomFor bytes value = .ok (t.hasRoomFor value)
  find : ∀ value, find bytes value = Failure.ofCheck id (t.find value)
  ordinal : ∀ n, ordinal bytes n = Failure.ofCheck id (t.ordinal n)
  outcomes : outcomes bytes = .ok (t.outcomes.map (Failure.ofCheck id))
  textAt : ∀ offset, textAt bytes offset = Failure.ofCheck id (t.textAt offset)
  checkOrder : checkOrder bytes = Failure.ofCheck id t.checkOrder
  describe : describe bytes = .ok t.describe

theorem answers_of_sized {t : StringTable} (h : t.parts.Sized) : Answers t.parts.encode t where
  stats := stats_eq h
  isEmpty := isEmpty_eq h
  hasRoomFor := hasRoomFor_eq h
  find := find_eq h
  ordinal := ordinal_eq h
  outcomes := outcomes_eq h
  textAt := textAt_eq h
  checkOrder := checkOrder_eq h
  describe := describe_eq h

end StringTable.Guarded
end MediaLibrary
