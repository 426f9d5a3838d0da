/-! Cutting text at a delimiter. -/
namespace MediaLibrary.Text

def pieces (delimiter : Char) : List Char → List (List Char)
  | [] => [[]]
  | c :: rest =>
    if c = delimiter then [] :: pieces delimiter rest
    else match pieces delimiter rest with
      | [] => [[c]]
      | piece :: others => (c :: piece) :: others

/-- The pieces that are not empty: runs of delimiters count as one, at the ends as none. -/
def items (delimiter : Char) (text : String) : List String :=
  ((pieces delimiter text.toList).filter (· ≠ [])).map String.ofList

end MediaLibrary.Text
