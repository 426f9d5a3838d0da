import MediaLibrary.Bytes.Image
import MediaLibrary.LibraryFile.Error
import MediaLibrary.LibraryFile.Layout
import MediaLibrary.System
/-! An open library. Its file is seen through a mapping whose length was fixed when the library was
opened or last resized; the file itself may since have become longer or shorter. Questions are
answered from the mapped bytes alone, and an access past them is a fault. -/
namespace MediaLibrary

structure LibraryFile where
  path : String
  settings : Settings
  /-- What the file holds. -/
  contents : Image
  /-- The length of the mapping; there is none after a resize that broke off. -/
  mapped : Option Nat
  /-- What the system will answer to the operation at hand. -/
  system : System := .calm
  deriving DecidableEq, Repr

abbrev Query (α : Type) := Except (Failure LibraryError) α

/-- A change to an open library. One that fails keeps what it has done so far. -/
abbrev Update (α : Type) := EStateM (Failure LibraryError) LibraryFile α

def refuse {α : Type} (error : LibraryError) : Query α := .error (.refused error)

def Update.refuse {α : Type} (error : LibraryError) : Update α := throw (.refused error)

/-- What came of a call to the system. -/
def granted : Option FileError → Query Unit
  | none => .ok ()
  | some error => refuse (.io error)

/-- The answer of a check that finds damage. -/
def Query.ofCheck {α : Type} : Except Damage α → Query α :=
  Failure.ofCheck .corrupt

/-- The answer of a table that may be damaged. -/
def Query.ofTable {α : Type} : Except TableDamage α → Query α :=
  Failure.ofCheck (.corrupt <| .table ·)

/-- The header written field by field into the first bytes of a file. -/
def LibraryHeader.write (h : LibraryHeader) (file : Bytes) : Query Bytes := do
  let file ← Failure.inBounds (magicField.set? file h.magic)
  let file ← Failure.inBounds (mediaCountField.set? file h.mediaCount)
  let file ← Failure.inBounds (lengthField.set? file h.length)
  let file ← (nameField.set file h.name).mapError (Failure.map (.invalidField "library name"))
  (mediaPrefixField.set file h.mediaPrefix).mapError (Failure.map (.invalidField "media prefix"))

namespace LibraryFile

def checkTexts (name mediaPrefix : String) : Query Unit := do
  Failure.ofCheck (.invalidField "library name") (LibraryHeader.nameField.check (Text.bytes name))
  Failure.ofCheck (.invalidField "media prefix")
    (LibraryHeader.mediaPrefixField.check (Text.bytes mediaPrefix))

def newHeader (name mediaPrefix : String) : LibraryHeader where
  magic := LibraryHeader.magicNumber
  mediaCount := 0
  length := LibraryHeader.size
  name := Text.bytes name
  mediaPrefix := Text.bytes mediaPrefix

/-- The library before a system that answers so. -/
def facing (lib : LibraryFile) (system : System) : LibraryFile := { lib with system }

/-- The mapped bytes. The mapping shows zero bytes past the end of the file. -/
def view (lib : LibraryFile) : Query Image :=
  match lib.mapped with
  | none => refuse .unmapped
  | some size => .ok (lib.contents.resize size)

/-- Writes changed mapped bytes back. The file's length is not affected. -/
def withView (lib : LibraryFile) (view : Image) : LibraryFile :=
  { lib with contents := lib.contents.overlay 0 (view.take lib.contents.size) }

def changeView (change : Image → Query Image) : Update Unit := fun lib =>
  match lib.view >>= change with
  | .ok view => .ok () (lib.withView view)
  | .error e => .error e lib

/-- Lays `new` over the mapped bytes from `offset` on. -/
def put (offset : Nat) (new : Image) : Update Unit :=
  changeView fun view =>
    if offset + new.size ≤ view.size then .ok (view.overlay offset new)
    else .error (.fault .outOfBounds)

def word (lib : LibraryFile) (offset : Nat) : Query Nat := do
  Failure.inBounds ((WordField.mk 0).get? ((← lib.view).read offset Word.size))

def putWord (offset n : Nat) : Update Unit := put offset (.ofBytes (Word.toBytes n))

/-- The text in a field of the header, its ill-formed parts replaced. -/
def headerText (lib : LibraryFile) (f : NameField) : Query String := do
  let bytes ← Failure.inBounds
    ((NameField.mk 0 f.width).get? ((← lib.view).read f.offset f.width))
  return Text.lossy bytes

def length (lib : LibraryFile) : Query Nat := lib.word LibraryHeader.lengthField.offset

def mediaCount (lib : LibraryFile) : Query Nat := lib.word LibraryHeader.mediaCountField.offset

def name (lib : LibraryFile) : Query String := lib.headerText LibraryHeader.nameField

def mediaPrefix (lib : LibraryFile) : Query String :=
  lib.headerText LibraryHeader.mediaPrefixField

/-- Flushing has nothing to add to the contents; it only needs a mapping. -/
def sync (lib : LibraryFile) : Query Unit := do
  let _ ← lib.view
  granted lib.system.now.flushing

/-- The system is asked to flush the mapped bytes. -/
def flush : Update Unit := do
  let lib ← get
  modify fun lib => { lib with system := lib.system.later }
  consult fun _ => lib.sync

/-- A library from the contents of the file at `path`, mapped whole. -/
def ofContents (path : String) (settings : Settings) (contents : Image)
    (system : System := .calm) : Query LibraryFile := do
  if contents.size < LibraryHeader.size then refuse (.notALibrary path)
  else if Word.limit ≤ contents.size then refuse (.corrupt (.fileTooLarge contents.size))
  else
    granted system.now.mapping
    let lib : LibraryFile := ⟨path, settings, contents, some contents.size, .calm⟩
    let magic ← lib.word LibraryHeader.magicField.offset
    let length ← lib.length
    if magic ≠ LibraryHeader.magicNumber then refuse (.notALibrary path)
    else if length ≠ contents.size then
      refuse (.corrupt (.lengthNotSize length contents.size))
    else return lib

def describe (lib : LibraryFile) : String :=
  let mapped := match lib.mapped with
    | none => "None"
    | some size => s!"Some({size})"
  "Container \x7b path: " ++ Text.quoted lib.path ++ ", mapped_len: " ++ mapped
    ++ ", config: " ++ lib.settings.describe ++ " \x7d"

end LibraryFile

/-- The change before a system that answers so. -/
def Update.facing {α : Type} (update : Update α) (system : System) : Update α :=
  fun lib => update (lib.facing system)

end MediaLibrary
