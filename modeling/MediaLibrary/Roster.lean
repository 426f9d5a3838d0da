import MediaLibrary.LibraryFile.Error
/-! The roster of open libraries, in the order of their entry. Names in it are distinct; a library
is told apart by its handle and may be entered under several names. -/
namespace MediaLibrary

/-- An open library: all handles made from one opening are the same. -/
abbrev Handle := Nat

structure RosterEntry where
  name : String
  mediaPrefix : String
  library : Handle
  deriving DecidableEq, Repr

structure OpenLibrary where
  name : String
  mediaPrefix : String
  deriving DecidableEq, Repr

def RosterEntry.openLibrary (e : RosterEntry) : OpenLibrary := ⟨e.name, e.mediaPrefix⟩

structure Roster where
  entries : List RosterEntry
  deriving DecidableEq, Repr

namespace Roster

def empty : Roster := ⟨[]⟩

def contains (r : Roster) (name : String) : Bool :=
  r.entries.any (·.name = name)

def find? (r : Roster) (name : String) : Option Handle :=
  (r.entries.find? (·.name = name)).map (·.library)

/-- The open libraries, in the order of their entry. -/
def openLibraries (r : Roster) : List OpenLibrary := r.entries.map RosterEntry.openLibrary

def register (r : Roster) (name mediaPrefix : String) (library : Handle) :
    Except LibraryError Roster :=
  if r.contains name then .error (.alreadyOpen name)
  else .ok ⟨r.entries ++ [⟨name, mediaPrefix, library⟩]⟩

def includes (r : Roster) (library : Handle) : Bool :=
  r.entries.any (·.library = library)

/-- Strikes out every entry of a library. -/
def unregister (r : Roster) (library : Handle) : Roster :=
  ⟨r.entries.filter (·.library ≠ library)⟩

end Roster
end MediaLibrary
