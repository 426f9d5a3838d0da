/-! Refusals of the storage that files live in. -/
namespace MediaLibrary

inductive FileError where
  | notFound
  | alreadyExists
  | isADirectory
  | notADirectory
  | nameTooLong
  /-- A path with a NUL in it, which no file can have. -/
  | nulInPath
  | insertPastEnd (offset size : Nat)
  /-- A refusal in the words of whoever refused. -/
  | other (text : String)
  deriving DecidableEq, Repr

def FileError.message : FileError → String
  | .notFound => "No such file or directory (os error 2)"
  | .alreadyExists => "File exists (os error 17)"
  | .isADirectory => "Is a directory (os error 21)"
  | .notADirectory => "Not a directory (os error 20)"
  | .nameTooLong => "File name too long (os error 36)"
  | .nulInPath => "file name contained an unexpected NUL byte"
  | .insertPastEnd offset size => s!"insert offset {offset} past end ({size})"
  | .other text => text

end MediaLibrary
