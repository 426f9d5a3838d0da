import MediaLibrary.Failure
import MediaLibrary.Bytes.Word
/-! The fields of a record: a stored number, and a name in a fixed width padded with zero bytes.
A name keeps at least one zero byte after it, so it is shorter than its field. -/
namespace MediaLibrary

/-- A stored number at a fixed offset. -/
structure WordField where
  offset : Nat
  deriving DecidableEq, Repr

/-- A zero-padded name at a fixed offset, in `width` bytes. -/
structure NameField where
  offset : Nat
  width : Nat
  deriving DecidableEq, Repr

inductive FieldError where
  | tooLong (length capacity : Nat)
  | interiorNul
  deriving DecidableEq, Repr

def FieldError.message : FieldError → String
  | .tooLong length capacity =>
    s!"value of {length} bytes does not fit in a {capacity}-byte field (NUL included)"
  | .interiorNul => "value contains an interior NUL byte"

namespace WordField

/-- The first offset past the field. -/
def stop (f : WordField) : Nat := f.offset + Word.size

def get? (f : WordField) (record : Bytes) : Option Nat :=
  if f.stop ≤ record.length then
    some (Word.ofBytes (Bytes.slice record f.offset Word.size))
  else none

def set? (f : WordField) (record : Bytes) (n : Nat) : Option Bytes :=
  if f.stop ≤ record.length then some (Bytes.overlay record f.offset (Word.toBytes n))
  else none

end WordField

namespace NameField

def stop (f : NameField) : Nat := f.offset + f.width

def capacity (f : NameField) : Nat := f.width - 1

/-- A name fits if it has no zero byte and leaves room for one. -/
def check (f : NameField) (name : Bytes) : Except FieldError Unit :=
  if 0 ∈ name then .error .interiorNul
  else if f.width < name.length + 1 then .error (.tooLong name.length f.width)
  else .ok ()

/-- What the field holds once `name` is written into it. -/
def padded (f : NameField) (name : Bytes) : Bytes :=
  name ++ Bytes.zeros (f.width - name.length)

/-- The bytes of the field before its first zero byte. -/
def get? (f : NameField) (record : Bytes) : Option Bytes :=
  if f.stop ≤ record.length then
    some (Bytes.untilZero (Bytes.slice record f.offset f.width))
  else none

def holds? (f : NameField) (record name : Bytes) : Option Bool :=
  (f.get? record).map (· == name)

/-- A name that does not fit is refused before the record is looked at. -/
def set (f : NameField) (record name : Bytes) : Except (Failure FieldError) Bytes := do
  Failure.ofCheck id (f.check name)
  if f.stop ≤ record.length then .ok (Bytes.overlay record f.offset (f.padded name))
  else .error (.fault .outOfBounds)

end NameField
end MediaLibrary
