import MediaLibrary.Disk.Path
import MediaLibrary.LibraryFile.Basic
/-! The files that libraries live in. A file outlives its name while it is open, and whoever has
it open sees every change to it. A mapping ties an open library to its file. -/
namespace MediaLibrary

structure Disk extends Tree where
  /-- The contents of every file that there ever was, by number. -/
  files : List Image
  /-- By how much the file system lengthens a directory for each thing in it. -/
  entrySize : Nat
  deriving DecidableEq, Repr

namespace Disk

def empty : Disk where
  home := ["session", "tmp"]
  others := []
  names := []
  files := []
  entrySize := 20

def contents (disk : Disk) (number : Nat) : Image :=
  disk.files.getD number (.blank 0)

def setContents (disk : Disk) (number : Nat) (contents : Image) : Disk :=
  { disk with files := disk.files.set number contents }

def locate (disk : Disk) (path : String) : Except FileError (Place × Nat) := do
  match ← Path.resolve disk.toTree path with
  | .directory _ => .error .isADirectory
  | .entry place slashed =>
    match ← Path.look disk.names place with
    | none => .error .notFound
    | some number => if slashed then .error .notADirectory else .ok (place, number)

def find (disk : Disk) (path : String) : Except FileError Nat := do
  let (_, number) ← disk.locate path
  return number

/-- Whether `path` leads to a file or a directory. -/
def contains (disk : Disk) (path : String) : Bool :=
  match disk.find path with
  | .ok _ | .error .isADirectory => true
  | .error _ => false

/-- The length of a directory, which has entries for itself and for its parent too. -/
def directorySize (disk : Disk) (directory : Directory) : Nat :=
  let files := disk.names.countP (·.1.directory = directory)
  disk.entrySize * (2 + files + (disk.within directory).length)

/-- The length of what `path` leads to. -/
def size? (disk : Disk) (path : String) : Option Nat :=
  match Path.resolve disk.toTree path with
  | .ok (.directory directory) => some (disk.directorySize directory)
  | _ => (disk.find path).toOption.map fun number => (disk.contents number).size

/-- The place of a new file. There may be nothing at `path` yet. -/
def vacant (disk : Disk) (path : String) : Except FileError Place := do
  match ← Path.resolve disk.toTree path with
  | .directory _ => .error .alreadyExists
  | .entry _ true => .error .isADirectory
  | .entry place false =>
    match ← Path.look disk.names place with
    | some _ => .error .alreadyExists
    | none => .ok place

def add (disk : Disk) (place : Place) (contents : Image) : Disk :=
  { disk with
    names := disk.names ++ [(place, disk.files.length)]
    files := disk.files ++ [contents] }

/-- Makes a file, or replaces the contents of the one that is there. -/
def write (disk : Disk) (path : String) (contents : Image) : Except FileError Disk := do
  match ← Path.resolve disk.toTree path with
  | .directory _ | .entry _ true => .error .isADirectory
  | .entry place false =>
    match ← Path.look disk.names place with
    | some number => .ok (disk.setContents number contents)
    | none => .ok (disk.add place contents)

def patch (disk : Disk) (path : String) (offset : Nat) (bytes : Bytes) :
    Except FileError Disk := do
  let number ← disk.find path
  let before := disk.contents number
  let wide := before.resize (max before.size (offset + bytes.length))
  return disk.setContents number (wide.overlay offset (.ofBytes bytes))

def append (disk : Disk) (path : String) (bytes : Bytes) : Except FileError Disk := do
  let number ← disk.find path
  return disk.setContents number (disk.contents number ++ .ofBytes bytes)

/-- Takes the name away. The contents stay for those who have the file open. -/
def remove (disk : Disk) (path : String) : Except FileError Disk := do
  let (place, _) ← disk.locate path
  return { disk with names := disk.names.filter (·.1 ≠ place) }

end Disk

structure Mapping where
  path : String
  settings : Settings
  /-- The number of the file. -/
  file : Nat
  /-- The length of the mapping, as in `LibraryFile`. -/
  mapped : Option Nat
  deriving DecidableEq, Repr

namespace Mapping

def library (m : Mapping) (disk : Disk) : LibraryFile :=
  ⟨m.path, m.settings, disk.contents m.file, m.mapped, .calm⟩

def ask {α : Type} (m : Mapping) (disk : Disk) (question : LibraryFile → Query α) : Query α :=
  question (m.library disk)

/-- Changes the library and its file; a change that fails keeps what it has done so far. -/
def change {α : Type} (m : Mapping) (disk : Disk) (update : Update α) :
    Query α × Mapping × Disk :=
  let settle (lib : LibraryFile) : Mapping × Disk :=
    ({ m with mapped := lib.mapped }, disk.setContents m.file lib.contents)
  match update (m.library disk) with
  | .ok a lib => (.ok a, settle lib)
  | .error e lib => (.error e, settle lib)

end Mapping

namespace Disk

/-- Gives a new file the size and the fields of a library. -/
def format (number : Nat) (title mediaPrefix : String) (answers : Answers) :
    EStateM (Failure LibraryError) Disk Unit := do
  consult fun _ => granted answers.lengthening
  modify fun disk => disk.setContents number ((disk.contents number).resize LibraryHeader.size)
  consult fun _ => granted answers.mapping
  let bytes ← consult fun disk =>
    (LibraryFile.newHeader title mediaPrefix).write (disk.contents number).toList
  modify (·.setContents number (.ofBytes bytes))
  consult fun _ => granted answers.flushing

/-- Makes a library file with no playlists. The file is there, and empty, before it has a header; it
is taken away again if it cannot be given one. -/
def makeLibrary (path title mediaPrefix : String) (answers : Answers) :
    EStateM (Failure LibraryError) Disk Unit := do
  consult fun _ => LibraryFile.checkTexts title mediaPrefix
  let place ← consult fun disk => Failure.ofCheck .io (disk.vacant path)
  consult fun _ => granted answers.opening
  let number := (← get).files.length
  modify (·.add place (.blank 0))
  tryCatch (format number title mediaPrefix answers) fun e => do
    if answers.removing.isNone then modify fun disk => (disk.remove path).toOption.getD disk
    throw e

def openLibrary (disk : Disk) (path : String) (settings : Settings) (system : System := .calm) :
    Query Mapping := do
  Failure.ofCheck .settings settings.validate
  let number ← Failure.ofCheck .io (disk.find path)
  granted system.now.opening
  let lib ← LibraryFile.ofContents path settings (disk.contents number) system
  return ⟨path, settings, number, lib.mapped⟩

end Disk
end MediaLibrary
