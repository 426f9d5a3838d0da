import Mathlib
import MediaLibrary.Proofs.Bytes.Splice
/-! Writing a field and reading it. Within the record a number and a name that fits are read back, and
nothing is written outside the field, so that a field apart from it reads what it did. A name is laid
over zero bytes, and is checked before the first byte is touched. -/
namespace MediaLibrary

namespace Bytes

theorem slice_overlay {bytes new : Bytes} {offset : Nat} (h : offset + new.length ≤ bytes.length) :
    slice (overlay bytes offset new) offset new.length = new := by
  have hstart : (bytes.take offset).length = offset := by
    rw [List.length_take]
    omega
  have hmiddle := slice_middle (bytes.take offset) new (bytes.drop (offset + new.length))
  rwa [hstart] at hmiddle

theorem overlay_slice (bytes : Bytes) {offset count : Nat} (h : offset + count ≤ bytes.length) :
    overlay bytes offset (slice bytes offset count) = bytes := by
  have hcount : (slice bytes offset count).length = count := by
    rw [length_slice]
    omega
  rw [overlay, hcount, ← take_add_slice, List.take_append_drop]

theorem slice_congr {bytes other : Bytes} {offset count : Nat}
    (h : ∀ i, offset ≤ i → i < offset + count → bytes[i]? = other[i]?) :
    slice bytes offset count = slice other offset count := by
  apply List.ext_getElem?
  intro i
  simp only [slice, List.getElem?_take, List.getElem?_drop]
  split
  · exact h _ (Nat.le_add_right _ _) (by omega)
  · rfl

theorem overlay_overlay_zeros {bytes new : Bytes} {offset width : Nat} (hnew : new.length ≤ width)
    (hfits : offset + width ≤ bytes.length) :
    overlay (overlay bytes offset (zeros width)) offset new
      = overlay bytes offset (new ++ zeros (width - new.length)) := by
  have hstart : (bytes.take offset).length = offset := by
    rw [List.length_take]
    omega
  have hwidth : (new ++ zeros (width - new.length)).length = width := by
    rw [List.length_append, length_zeros]
    omega
  have hzeros : overlay (zeros width) 0 new = new ++ zeros (width - new.length) := by
    simp [overlay, zeros]
  have hinside : 0 + new.length ≤ (zeros width).length := by
    rwa [length_zeros, Nat.zero_add]
  have hlay := overlay_append_right (bytes.take offset)
    (zeros width ++ bytes.drop (offset + width)) new 0
  rw [hstart, Nat.add_zero, overlay_append_left (bytes.drop (offset + width)) hinside, hzeros]
    at hlay
  rw [overlay.eq_def bytes offset (zeros width), length_zeros, List.append_assoc, hlay, overlay,
    hwidth]
  simp only [List.append_assoc]

/-- `written` differs from `record` between `start` and `stop` only. -/
structure Confined (start stop : Nat) (record written : Bytes) : Prop where
  length_eq : written.length = record.length
  outside : ∀ i, i < start ∨ stop ≤ i → written[i]? = record[i]?

theorem confined_overlay {record new : Bytes} {offset : Nat}
    (h : offset + new.length ≤ record.length) :
    Confined offset (offset + new.length) record (overlay record offset new) where
  length_eq := length_overlay h
  outside i hi := by
    rw [getElem?_overlay h, if_neg (by omega)]

theorem confined_middle (front piece after : Bytes) {new : Bytes} (h : new.length = piece.length) :
    Confined front.length (front.length + piece.length) (front ++ piece ++ after)
      (front ++ new ++ after) := by
  have hfits : front.length + new.length ≤ (front ++ piece ++ after).length := by
    rw [List.length_append, List.length_append, h]
    exact Nat.le_add_right _ _
  have hover := confined_overlay hfits
  rwa [overlay_middle _ _ _ _ h, h] at hover

end Bytes

namespace WordField

variable {f : WordField} {record : Bytes}

/-- No byte of the field lies from `start` up to `stop`. -/
def Avoids (f : WordField) (start stop : Nat) : Prop :=
  ∀ i, f.offset ≤ i → i < f.stop → i < start ∨ stop ≤ i

theorem get?_of_confined {start stop : Nat} {written : Bytes} (h : f.Avoids start stop)
    (hw : Bytes.Confined start stop record written) : f.get? written = f.get? record := by
  rw [get?, get?, hw.length_eq, Bytes.slice_congr fun i hle hlt => hw.outside i (h i hle hlt)]

theorem set?_eq (h : f.stop ≤ record.length) (n : Nat) :
    f.set? record n = some (Bytes.overlay record f.offset (Word.toBytes n)) := if_pos h

theorem get?_overlay (h : f.stop ≤ record.length) {n : Nat} (hn : n < Word.limit) :
    f.get? (Bytes.overlay record f.offset (Word.toBytes n)) = some n := by
  have hfits : f.offset + (Word.toBytes n).length ≤ record.length := h
  have hread := Bytes.slice_overlay hfits
  rw [Word.length_toBytes] at hread
  rw [get?, Bytes.length_overlay hfits, if_pos h, hread, Word.ofBytes_toBytes_of_lt hn]

theorem set?_of_get? {n : Nat} (hn : f.get? record = some n) :
    n < Word.limit ∧ f.set? record n = some record := by
  unfold get? at hn
  split at hn
  case isFalse => cases hn
  case isTrue h =>
    obtain rfl := Option.some.inj hn
    have hlen : (Bytes.slice record f.offset Word.size).length = Word.size := by
      rw [Bytes.length_slice]
      unfold stop at h
      omega
    refine ⟨Word.ofBytes_lt hlen, ?_⟩
    rw [set?_eq h, Word.toBytes_ofBytes hlen, Bytes.overlay_slice record h]

end WordField

theorem Word.getElem?_toBytes (n : Nat) {i : Nat} (hi : i < size) :
    (toBytes n)[i]? = some (UInt8.ofNat (n / 256 ^ (size - 1 - i))) := by
  match i, hi with
  | 0, _ | 1, _ | 2, _ | 3, _ => simp [toBytes, size]

namespace NameField

variable {f : NameField} {record name : Bytes}

/-- No byte of the field lies from `start` up to `stop`. A field without bytes avoids everything. -/
def Avoids (f : NameField) (start stop : Nat) : Prop :=
  ∀ i, f.offset ≤ i → i < f.stop → i < start ∨ stop ≤ i

theorem get?_of_confined {start stop : Nat} {written : Bytes} (h : f.Avoids start stop)
    (hw : Bytes.Confined start stop record written) : f.get? written = f.get? record := by
  rw [get?, get?, hw.length_eq, Bytes.slice_congr fun i hle hlt => hw.outside i (h i hle hlt)]

def lay (offset : Nat) (new : Bytes) : EStateM (Failure FieldError) Bytes Unit := fun record =>
  if offset + new.length ≤ record.length then .ok () (Bytes.overlay record offset new)
  else .error (.fault .outOfBounds) record

/-- Writes a name step by step: after the check the field is cleared, and then the name is laid at its
beginning. -/
def store (f : NameField) (name : Bytes) : EStateM (Failure FieldError) Bytes Unit := do
  consult fun _ => Failure.ofCheck id (f.check name)
  lay f.offset (Bytes.zeros f.width)
  lay f.offset name

def refusal (f : NameField) (name : Bytes) : FieldError :=
  if 0 ∈ name then .interiorNul else .tooLong name.length f.width

theorem check_eq_refusal (h : ¬ (0 ∉ name ∧ name.length < f.width)) :
    f.check name = .error (f.refusal name) := by
  by_cases hnul : 0 ∈ name
  · rw [check, if_pos hnul, refusal, if_pos hnul]
  · have hlong : f.width < name.length + 1 :=
      Nat.lt_succ_of_le (Nat.not_lt.1 fun hlen => h ⟨hnul, hlen⟩)
    rw [check, if_neg hnul, if_pos hlong, refusal, if_neg hnul]

theorem set_eq (h : f.stop ≤ record.length) (hname : f.check name = .ok ()) :
    f.set record name = .ok (Bytes.overlay record f.offset (f.padded name)) := by
  rw [set, Steps.query_ok (Steps.ofCheck_eq_ok_iff.2 hname), if_pos h]

theorem store_eq (h : f.stop ≤ record.length) (hname : f.check name = .ok ()) :
    f.store name record = .ok () (Bytes.overlay record f.offset (f.padded name)) := by
  obtain ⟨-, hlen⟩ := (check_eq_ok_iff f name).1 hname
  have hcheck : consult (fun _ => Failure.ofCheck id (f.check name)) record = .ok () record :=
    Steps.consult_ok (Steps.ofCheck_eq_ok_iff.2 hname)
  have hwide : f.offset + (Bytes.zeros f.width).length ≤ record.length := by
    rwa [Bytes.length_zeros]
  have hclear : lay f.offset (Bytes.zeros f.width) record
      = .ok () (Bytes.overlay record f.offset (Bytes.zeros f.width)) := if_pos hwide
  have hfits : f.offset + name.length
      ≤ (Bytes.overlay record f.offset (Bytes.zeros f.width)).length := by
    rw [Bytes.length_overlay hwide]
    unfold stop at h
    omega
  rw [store, Steps.bind_ok hcheck, Steps.bind_ok hclear, lay, if_pos hfits,
    Bytes.overlay_overlay_zeros (Nat.le_of_lt hlen) h, padded]

theorem set_refused (h : ¬ (0 ∉ name ∧ name.length < f.width)) (record : Bytes) :
    f.set record name = .error (.refused (f.refusal name)) ∧
      f.store name record = .error (.refused (f.refusal name)) record := by
  have hcheck : Failure.ofCheck id (f.check name) = .error (.refused (f.refusal name)) :=
    Steps.ofCheck_eq_error_iff.2 ⟨_, check_eq_refusal h, rfl⟩
  exact ⟨Steps.query_error hcheck, Steps.bind_error (Steps.consult_error hcheck)⟩

theorem get?_overlay (h : f.stop ≤ record.length) (hname : f.check name = .ok ()) :
    f.get? (Bytes.overlay record f.offset (f.padded name)) = some name := by
  obtain ⟨-, hlen⟩ := (check_eq_ok_iff f name).1 hname
  have hwidth := length_padded (Nat.le_of_lt hlen)
  have hfits : f.offset + (f.padded name).length ≤ record.length := by rwa [hwidth]
  have hread := Bytes.slice_overlay hfits
  rw [hwidth] at hread
  rw [get?, Bytes.length_overlay hfits, if_pos h, hread, untilZero_padded hname]

theorem holds?_of_get? (h : f.get? record = some name) (other : Bytes) :
    f.holds? record other = some (decide (other = name)) := by
  rw [holds?, h, Option.map_some, Option.some.injEq, Bool.eq_iff_iff, beq_iff_eq,
    decide_eq_true_eq, eq_comm]

end NameField

/-- Nothing is written but the bytes from `start` up to `stop`, so that a field with none of these
bytes reads what it did. -/
structure Bytes.LeavesOthers (start stop : Nat) (record written : Bytes) : Prop
    extends Bytes.Confined start stop record written where
  word : ∀ g : WordField, g.Avoids start stop → g.get? written = g.get? record
  name : ∀ g : NameField, g.Avoids start stop → g.get? written = g.get? record

theorem Bytes.Confined.leavesOthers {start stop : Nat} {record written : Bytes}
    (h : Confined start stop record written) : LeavesOthers start stop record written where
  toConfined := h
  word _ hg := WordField.get?_of_confined hg h
  name _ hg := NameField.get?_of_confined hg h

/-- What is stored in a field of the record is read from it, and changes nothing else. A number is
stored with its most significant byte first. A name is stored if it has no zero byte and is shorter
than its field; otherwise the record stays as it is. -/
theorem fields_read_back (record : Bytes) :
    (∀ f : WordField, f.stop ≤ record.length →
      (∀ n < Word.limit, ∃ written, f.set? record n = some written ∧ f.get? written = some n ∧
        (∀ i < Word.size, written[f.offset + i]?
          = some (UInt8.ofNat (n / 256 ^ (Word.size - 1 - i)))) ∧
        Bytes.LeavesOthers f.offset f.stop record written) ∧
      ∃ n < Word.limit, f.get? record = some n ∧ f.set? record n = some record) ∧
    ∀ f : NameField, f.stop ≤ record.length → ∀ name,
      (0 ∉ name ∧ name.length < f.width → ∃ written, f.set record name = .ok written ∧
        f.store name record = .ok () written ∧ f.get? written = some name ∧
        (∀ other, f.holds? written other = some (decide (other = name))) ∧
        Bytes.LeavesOthers f.offset f.stop record written) ∧
      (¬ (0 ∉ name ∧ name.length < f.width) →
        f.set record name
          = .error (.refused (if 0 ∈ name then .interiorNul else .tooLong name.length f.width)) ∧
        f.store name record
          = .error (.refused (if 0 ∈ name then .interiorNul else .tooLong name.length f.width))
            record) := by
  constructor
  · intro f hstop
    constructor
    · intro n hn
      have hfits : f.offset + (Word.toBytes n).length ≤ record.length := hstop
      refine ⟨_, WordField.set?_eq hstop n, WordField.get?_overlay hstop hn, ?_,
        (Bytes.confined_overlay hfits).leavesOthers⟩
      intro i hi
      rw [Bytes.getElem?_overlay hfits, if_pos ⟨Nat.le_add_right _ _, by simpa using hi⟩,
        Nat.add_sub_cancel_left, Word.getElem?_toBytes n hi]
    · obtain ⟨n, hn⟩ := WordField.exists_get? hstop
      obtain ⟨hbelow, hset⟩ := WordField.set?_of_get? hn
      exact ⟨n, hbelow, hn, hset⟩
  · intro f hstop name
    constructor
    · intro hname
      have hcheck := (NameField.check_eq_ok_iff f name).2 hname
      have hwidth := NameField.length_padded (Nat.le_of_lt hname.2)
      have hfits : f.offset + (f.padded name).length ≤ record.length := by rwa [hwidth]
      have hwritten := Bytes.confined_overlay hfits
      rw [hwidth] at hwritten
      have hget := NameField.get?_overlay hstop hcheck
      exact ⟨_, NameField.set_eq hstop hcheck, NameField.store_eq hstop hcheck, hget,
        NameField.holds?_of_get? hget, hwritten.leavesOthers⟩
    · intro hname
      exact NameField.set_refused hname record

/-- A number between a field without bytes and a name that is longer than the one written over it. -/
theorem fields_read_back_shorter :
    let record : Bytes := [255, 255, 255, 255, 255, 97, 98, 99, 0]
    (∃ written, (WordField.mk 1).set? record 258 = some written ∧
      written[3]? = some 1 ∧ (NameField.mk 2 0).get? written = (NameField.mk 2 0).get? record ∧
      (NameField.mk 5 4).get? written = (NameField.mk 5 4).get? record) ∧
    (∃ written, (NameField.mk 5 4).store [120] record = .ok () written ∧
      (NameField.mk 5 4).get? written = some [120]) ∧
    (NameField.mk 5 4).store [120, 121, 122, 122] record
      = .error (.refused (.tooLong 4 4)) record ∧
    (NameField.mk 2 0).store [] record = .error (.refused (.tooLong 0 0)) record := by
  intro record
  obtain ⟨hwords, hnames⟩ := fields_read_back record
  refine ⟨?_, ?_, ?_, ?_⟩
  · obtain ⟨written, hset, -, hbytes, hothers⟩ := (hwords ⟨1⟩ (by decide)).1 258 (by decide)
    refine ⟨written, hset, hbytes 2 (by decide), hothers.name ⟨2, 0⟩ ?_, hothers.name ⟨5, 4⟩ ?_⟩
    · intro i hle hlt
      exact absurd hlt (Nat.not_lt.2 hle)
    · intro i hle _
      exact Or.inr hle
  · obtain ⟨written, -, hstore, hget, -⟩ := (hnames ⟨5, 4⟩ (by decide) [120]).1 (by decide)
    exact ⟨written, hstore, hget⟩
  · exact ((hnames ⟨5, 4⟩ (by decide) [120, 121, 122, 122]).2 (by decide)).2
  · exact ((hnames ⟨2, 0⟩ (by decide) []).2 (by decide)).2

end MediaLibrary
