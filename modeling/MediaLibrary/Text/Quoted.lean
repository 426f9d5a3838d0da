import MediaLibrary.Text.Unprintable
/-! Text between double quotes, for diagnostics. Quotes and backslashes are escaped, and so is
whatever would not show. -/
namespace MediaLibrary.Text

/-- `c` by its number, in hexadecimal between braces. -/
def escapedByNumber (c : Char) : List Char :=
  ['\\', 'u', '\x7b'] ++ Nat.toDigits 16 c.toNat ++ ['\x7d']

def escaped (c : Char) : List Char :=
  if c = '\x00' then ['\\', '0']
  else if c = '\t' then ['\\', 't']
  else if c = '\r' then ['\\', 'r']
  else if c = '\n' then ['\\', 'n']
  else if c = '\\' ∨ c = '"' then ['\\', c]
  else if isUnprintable c then escapedByNumber c
  else [c]

def quoted (text : String) : String :=
  String.ofList ('"' :: (text.toList.flatMap escaped ++ ['"']))

end MediaLibrary.Text
