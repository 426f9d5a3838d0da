/-! Numbers as text: reading decimal digits, and writing eight hexadecimal ones. -/
namespace MediaLibrary.Text

def digit? (c : Char) : Option Nat :=
  if c.isDigit then some (c.toNat - '0'.toNat) else none

/-- The number that decimal digits spell; anything else among them spells none. -/
def digits? (chars : List Char) : Option Nat :=
  chars.foldlM (fun n c => (digit? c).map (n * 10 + ·)) 0

/-- A decimal number below `limit`, with or without a plus sign. There has to be a digit. -/
def number? (limit : Nat) (chars : List Char) : Option Nat := do
  let digits := match chars with
    | '+' :: rest => rest
    | all => all
  if digits.isEmpty then none
  let n ← digits? digits
  if n < limit then some n else none

def flag? (chars : List Char) : Option Bool :=
  if chars = "true".toList then some true
  else if chars = "false".toList then some false
  else none

/-- `n` in hexadecimal after `0x`, with at least eight digits. -/
def hexWord (n : Nat) : String :=
  let digits := Nat.toDigits 16 n
  String.ofList ('0' :: 'x' :: (List.replicate (8 - digits.length) '0' ++ digits))

end MediaLibrary.Text
