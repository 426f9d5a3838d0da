import MediaLibrary.LibraryFile.Paths
/-! Adding a path to a named playlist. Unless the settings say otherwise, the path also goes to the
global playlist, which is started when it is first needed. -/
namespace MediaLibrary.LibraryFile

/-- Stores `path` in the playlist at `offset` unless it is there. -/
def ensurePathAt (offset : Nat) (path : String) : Update Unit := fun lib =>
  match addPathAt offset path lib with
  | .error (.refused (.pathExists _)) lib => .ok () lib
  | result => result

def addToGlobal (path : String) : Update Unit := do
  let globalPlaylist := (← get).settings.globalPlaylist
  let offset ← match ← consult (find · globalPlaylist) with
    | some p => pure p.offset
    | none => startPlaylist globalPlaylist
  ensurePathAt offset path

/-- Whether `path` can be added to the playlist of that name. -/
def checkNewPath (lib : LibraryFile) (playlist path : String) : Query Unit := do
  let target ← lib.named playlist
  if 0 ∈ Text.bytes path then refuse (.table .interiorNul)
  else if (← lib.findPath target.offset path).isSome then refuse (.pathExists path)
  else pure ()

/-- Adds `path` to the playlist of that name. What could refuse it is looked at before the global
playlist is touched; growing that may move the target, which is therefore looked up after it. -/
def addPath (playlist path : String) : Update Unit := do
  consult (checkNewPath · playlist path)
  let settings := (← get).settings
  if settings.copyToGlobal ∧ playlist ≠ settings.globalPlaylist then addToGlobal path
  else pure ()
  let target ← consult (named · playlist)
  addPathAt target.offset path

def removePath (playlist path : String) : Update Bool := do
  let p ← consult (named · playlist)
  removePathAt p.offset path

end MediaLibrary.LibraryFile
