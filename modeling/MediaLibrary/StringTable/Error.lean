import MediaLibrary.FileError
import MediaLibrary.Text.Numeral
/-! What can be wrong with a string table, and why an operation on one is refused. -/
namespace MediaLibrary

inductive TableDamage where
  | headerTooShort (size : Nat)
  | badMagic (magic : Nat)
  | lengthOverrun (length available : Nat)
  | badIndexOffset (indexOffset length stringBytes : Nat)
  | raggedIndex
  | offsetOutOfRange (offset : Nat)
  | unterminated (offset : Nat)
  | notUtf8 (offset : Nat)
  | outOfOrder (slot : Nat)
  | bufferTooSmall (available capacity : Nat)
  | baseOutOfRange (base : Nat)
  | noRoom
  | described (text : String)
  deriving DecidableEq, Repr

def TableDamage.message : TableDamage → String
  | .headerTooShort size => s!"{size} bytes is too small for a bucket header"
  | .badMagic magic => s!"bad magic {Text.hexWord magic}"
  | .lengthOverrun length available =>
    s!"length {length} overruns the {available} bytes available"
  | .badIndexOffset indexOffset length stringBytes =>
    s!"index_offs {indexOffset} inconsistent with length {length} and str_bytes {stringBytes}"
  | .raggedIndex => "index array is not a whole number of slots"
  | .offsetOutOfRange offset => s!"string offset {offset} out of range"
  | .unterminated offset => s!"string at {offset} is not terminated"
  | .notUtf8 offset => s!"string at {offset} is not valid UTF-8"
  | .outOfOrder slot => s!"index out of order at slot {slot}"
  | .bufferTooSmall available capacity =>
    s!"buffer of {available} bytes cannot hold a {capacity}-byte bucket"
  | .baseOutOfRange base => s!"bucket base {base} out of range"
  | .noRoom => "push without enough free space"
  | .described text => text

inductive TableError where
  | tooSmall (capacity : Nat)
  | duplicate
  | interiorNul
  | zeroQuantum
  | overflow
  | corrupt (damage : TableDamage)
  | grow (error : FileError)
  deriving DecidableEq, Repr

def TableError.message : TableError → String
  | .tooSmall capacity => s!"bucket capacity {capacity} is smaller than the 16-byte header"
  | .duplicate => "string already present in bucket"
  | .interiorNul => "string contains an interior NUL byte"
  | .zeroQuantum => "growth quantum must be non-zero"
  | .overflow => "bucket would exceed the 4 GiB addressing limit"
  | .corrupt damage => s!"corrupt bucket: {damage.message}"
  | .grow error => s!"failed to grow bucket: {error.message}"

end MediaLibrary
