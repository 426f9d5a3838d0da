import MediaLibrary.FileError
import MediaLibrary.Text.Pieces
/-! Directories, and the paths that lead through them. A path is walked from the directory that the
session is in, or from the root if a slash begins it. The walk is about directories alone: whether
there is a file at its end is for whoever asked. -/
namespace MediaLibrary

/-- A directory is told by the names on the way to it from the root, its own first. -/
abbrev Directory := List String

namespace Directory

def parent (directory : Directory) : Directory := directory.tail

/-- The directory and all that it lies in. -/
def lineage : Directory → List Directory
  | [] => [[]]
  | name :: parent => (name :: parent) :: lineage parent

end Directory

structure Place where
  directory : Directory
  name : String
  deriving DecidableEq, Repr

/-- The directories and the files that paths lead to. -/
structure Tree where
  /-- The directory that the session is in. -/
  home : Directory
  /-- What other directories there are, but for those that one of them lies in. -/
  others : List Directory
  /-- Where there are files, each place with the number of its file. -/
  names : List (Place × Nat)
  deriving DecidableEq, Repr

namespace Tree

def directories (tree : Tree) : List Directory :=
  (tree.home :: tree.others).flatMap Directory.lineage

/-- The directories right in another. -/
def within (tree : Tree) (directory : Directory) : List Directory :=
  (tree.directories.filter fun other : Directory => other ≠ [] ∧ other.parent = directory).eraseDups

end Tree

/-- What a path leads to. -/
inductive Target where
  | directory (directory : Directory)
  /-- A name in a directory. With a slash after it, only a directory will do. -/
  | entry (place : Place) (slashed : Bool)
  deriving DecidableEq, Repr

namespace Path

/-- The most bytes in a path. -/
def maxSize : Nat := 4095

/-- The most bytes in a name. -/
def maxName : Nat := 255

/-- The file at `place`, if there is one. -/
def look (names : List (Place × Nat)) (place : Place) : Except FileError (Option Nat) :=
  if maxName < place.name.utf8ByteSize then .error .nameTooLong
  else .ok (names.lookup place)

/-- Walks `steps` from `here`. What is not a directory can only be the last step. -/
def walk (tree : Tree) (slashed : Bool) :
    (here : Directory) → (steps : List String) → Except FileError Target
  | here, [] => .ok (.directory here)
  | here, step :: rest =>
    if step = "." then walk tree slashed here rest
    else if step = ".." then walk tree slashed here.parent rest
    else if step :: here ∈ tree.directories then walk tree slashed (step :: here) rest
    else if rest.isEmpty then .ok (.entry ⟨here, step⟩ slashed)
    else match look tree.names ⟨here, step⟩ with
      | .error e => .error e
      | .ok (some _) => .error .notADirectory
      | .ok none => .error .notFound

def resolve (tree : Tree) (path : String) : Except FileError Target :=
  let text := path.toList
  if '\x00' ∈ text then .error .nulInPath
  else if text = [] then .error .notFound
  else if maxSize < path.utf8ByteSize then .error .nameTooLong
  else walk tree (text.getLast? = some '/')
    (if text.head? = some '/' then [] else tree.home) (Text.items '/' path)

end Path
end MediaLibrary
