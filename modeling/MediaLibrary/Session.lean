import MediaLibrary.Disk
import MediaLibrary.LibraryFile.Audit
import MediaLibrary.LibraryFile.Adding
import MediaLibrary.Roster
/-! Libraries that are opened, shared through their handles, and closed. An opened library is on the
roster until it is closed. A fault inside an operation leaves the library unusable: from then on its
lock is poisoned. -/
namespace MediaLibrary

inductive LibraryState where
  | opened (mapping : Mapping)
  | closed
  | poisoned
  deriving DecidableEq, Repr

structure Session where
  disk : Disk
  /-- The state of each library that was ever opened; a handle is a position here. -/
  libraries : List LibraryState
  roster : Roster
  deriving DecidableEq, Repr

/-- An operation on the libraries of a session. -/
abbrev Action (α : Type) := EStateM (Failure LibraryError) Session α

namespace Session

def empty : Session := ⟨.empty, [], .empty⟩

def state (s : Session) (h : Handle) : LibraryState := s.libraries.getD h .closed

def setState (s : Session) (h : Handle) (state : LibraryState) : Session :=
  { s with libraries := s.libraries.set h state }

def createFacing (system : System) (path name mediaPrefix : String) : Action Unit := fun s =>
  match Disk.makeLibrary path name mediaPrefix system.now s.disk with
  | .ok _ disk => .ok () { s with disk }
  | .error e disk => .error e { s with disk }

def create (path name mediaPrefix : String) : Action Unit :=
  createFacing .calm path name mediaPrefix

/-- Opens a library and enters it on the roster under the name in its header. -/
def openFacing (system : System) (path : String) (settings : Settings) : Action Handle := do
  let mapping ← consult fun s => s.disk.openLibrary path settings system
  let name ← consult fun s => mapping.ask s.disk LibraryFile.name
  let mediaPrefix ← consult fun s => mapping.ask s.disk LibraryFile.mediaPrefix
  let handle := (← get).libraries.length
  let roster ← consult fun s => Failure.ofCheck id (s.roster.register name mediaPrefix handle)
  modify fun s => { s with libraries := s.libraries ++ [.opened mapping], roster }
  return handle

def openWith (path : String) (settings : Settings) : Action Handle :=
  openFacing .calm path settings

def mappingOf (s : Session) (h : Handle) : Query Mapping :=
  match s.state h with
  | .opened mapping => .ok mapping
  | .closed => refuse .closed
  | .poisoned => refuse .lockPoisoned

/-- Strikes the library off the roster, and flushes and closes it. It is closed even if the system
refuses to flush it. -/
def closeFacing (system : System) (h : Handle) : Action Unit := do
  modify fun s => { s with roster := s.roster.unregister h }
  let mapping ← consult (mappingOf · h)
  modify (setState · h .closed)
  if mapping.mapped.isSome then consult fun _ => granted system.now.flushing

def close (h : Handle) : Action Unit := closeFacing .calm h

/-- A library whose lock is poisoned counts as closed. -/
def isClosed (s : Session) (h : Handle) : Bool :=
  match s.state h with
  | .opened _ => false
  | .closed | .poisoned => true

def change {α : Type} (h : Handle) (update : Update α) : Action α := fun s =>
  match s.mappingOf h with
  | .error e => .error e s
  | .ok mapping =>
    let (result, mapping, disk) := mapping.change s.disk update
    let s := { s with disk }
    match result with
    | .ok a => .ok a (s.setState h (.opened mapping))
    | .error (.refused e) => .error (.refused e) (s.setState h (.opened mapping))
    | .error (.fault f) => .error (.fault f) (s.setState h .poisoned)

def ask {α : Type} (h : Handle) (question : LibraryFile → Query α) : Action α := fun s =>
  match s.mappingOf h with
  | .error e => .error e s
  | .ok mapping =>
    match mapping.ask s.disk question with
    | .ok a => .ok a s
    | .error (.refused e) => .error (.refused e) s
    | .error (.fault f) => .error (.fault f) (s.setState h .poisoned)

def describe (s : Session) (h : Handle) : String :=
  match s.state h with
  | .opened mapping =>
    "Library \x7b path: " ++ Text.quoted mapping.path ++ ", state: \"open\" \x7d"
  | .closed => "Library \x7b state: \"closed\" \x7d"
  | .poisoned => "Library \x7b state: \"busy\" \x7d"

end Session
end MediaLibrary
