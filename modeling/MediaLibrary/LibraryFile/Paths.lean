import MediaLibrary.LibraryFile.Lifecycle
/-! The paths in a playlist. They are the strings of the record's table, which grows by growing the
record: every later record moves up by as much. -/
namespace MediaLibrary.LibraryFile

def tableOf (lib : LibraryFile) (offset : Nat) : Query StringTable := do
  let p ← lib.playlistAt offset
  Query.ofTable (StringTable.decode (p.tableImage (← lib.view)))

/-- The position of `path` in ascending order, if it is there. -/
def findPath (lib : LibraryFile) (offset : Nat) (path : String) : Query (Option Nat) := do
  Query.ofTable ((← lib.tableOf offset).find (Text.bytes path))

def pathAt (lib : LibraryFile) (offset n : Nat) : Query (Option String) := do
  Query.ofTable ((← lib.tableOf offset).ordinal n)

def paths (lib : LibraryFile) (offset : Nat) : Query (List String) := do
  Query.ofTable ((← lib.tableOf offset).texts)

/-- The position of `path` in the playlist of that name. -/
def findPathIn (lib : LibraryFile) (playlist path : String) : Query (Option Nat) := do
  lib.findPath (← lib.named playlist).offset path

def pathIn (lib : LibraryFile) (playlist : String) (n : Nat) : Query (Option String) := do
  lib.pathAt (← lib.named playlist).offset n

def pathsIn (lib : LibraryFile) (playlist : String) : Query (List String) := do
  lib.paths (← lib.named playlist).offset

/-- The library as storage for the table of the record at `record`: space opened for the table is
added to the record's length. -/
def host (record : Nat) : StringTable.Host LibraryFile where
  image lib := match lib.view with
    | .ok view => view
    | .error _ => .blank 0
  overlay lib offset new := match lib.view with
    | .ok view => lib.withView (view.overlay offset new)
    | .error _ => lib
  insertSpace offset count := EStateM.adaptExcept (Failure.map LibraryError.toFileError) do
    insertSpace offset count
    let lengthOffset := record + PlaylistHeader.lengthField.offset
    let length ← consult (word · lengthOffset)
    if Word.limit ≤ length + count then Update.refuse .tooLarge
    else putWord lengthOffset (length + count)

/-- A table's refusal to store `path`, in the library's terms. -/
def refusalOf (path : String) : TableError → LibraryError
  | .duplicate => .pathExists path
  | error => .ofTable error

/-- The media count is the number of paths in the global playlist, so it changes if the record at
`offset` is that. -/
def refreshMediaCount (offset : Nat) : Update Unit := do
  let p ← consult (playlistAt · offset)
  let settings := (← get).settings
  if p.name = Text.bytes settings.globalPlaylist then putMediaCount p.count else pure ()

/-- Stores `path` in the playlist at `offset`. -/
def addPathAt (offset : Nat) (path : String) : Update Unit := do
  let p ← consult (playlistAt · offset)
  let quantum := (← get).settings.growthQuantum
  EStateM.adaptExcept (Failure.map (refusalOf path))
    (StringTable.add (host offset) p.tableOffset (Text.bytes path) quantum)
  let grown ← consult (playlistAt · offset)
  putWord (offset + PlaylistHeader.countField.offset) (min (grown.count + 1) (Word.limit - 1))
  refreshMediaCount offset

/-- Takes `path` out of the playlist at `offset`, and tells whether it was there. The record keeps
its length. -/
def removePathAt (offset : Nat) (path : String) : Update Bool := do
  let p ← consult (playlistAt · offset)
  let table ← consult (tableOf · offset)
  let removed ← consult fun _ => (table.remove (Text.bytes path)).mapError
    (Failure.map (.corrupt <| .table ·))
  match removed with
  | none => return false
  | some rest =>
    put p.tableOffset rest.encode
    putWord (offset + PlaylistHeader.countField.offset) (p.count - 1)
    refreshMediaCount offset
    return true

end MediaLibrary.LibraryFile
