import MediaLibrary.FileError
/-! The operating system below the libraries. It may refuse what it is called for; which calls it
refuses is not known beforehand, so that every operation is given the answers it will meet. -/
namespace MediaLibrary

/-- What the system answers to a call of each kind, if one is made: it does what it is called for, or
it refuses. -/
structure Answers where
  opening : Option FileError := none
  lengthening : Option FileError := none
  shortening : Option FileError := none
  mapping : Option FileError := none
  flushing : Option FileError := none
  removing : Option FileError := none
  deriving DecidableEq, Repr

/-- The answers to come, one for each time that the system is turned to. When there are no more, it
does whatever it is called for. -/
structure System where
  pending : List Answers
  deriving DecidableEq, Repr

namespace System

def calm : System := ⟨[]⟩

def now (system : System) : Answers := system.pending.headD {}

def later (system : System) : System := ⟨system.pending.tail⟩

end System
end MediaLibrary
