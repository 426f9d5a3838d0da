import MediaLibrary.LibraryFile.Geometry
import MediaLibrary.LibraryFile.Playlist
/-! Starting and deleting playlists. A new record goes to the end of the library; the records behind
a deleted one move down. -/
namespace MediaLibrary.LibraryFile

def checkNewName (lib : LibraryFile) (name : String) : Query Unit := do
  if (← lib.find name).isSome then refuse (.playlistExists name)
  else if Text.bytes name = [] then refuse (.invalidArgument .emptyPlaylistName)
  else
    Failure.ofCheck (.invalidField "playlist name")
      (PlaylistHeader.nameField.check (Text.bytes name))

def appendRecord (name : Bytes) (quantum : Nat) : Update Nat := do
  let offset ← consult LibraryFile.length
  let length := PlaylistHeader.size + quantum
  if addressLimit ≤ length then throw (.fault .overflow)
  else if addressLimit ≤ offset + length then Update.refuse .tooLarge
  else
    expand (offset + length)
    put offset (.ofBytes (PlaylistHeader.encode ⟨PlaylistHeader.magicNumber, length, 0, name⟩))
    let table ← consult fun _ =>
      Failure.ofCheck LibraryError.ofTable (StringTable.format quantum quantum)
    put (offset + PlaylistHeader.size) (.ofBytes table.encode)
    return offset

/-- Appends an empty playlist and gives the offset of its record. -/
def startPlaylist (name : String) : Update Nat := do
  consult (checkNewName · name)
  let settings := (← get).settings
  let offset ← appendRecord (Text.bytes name) settings.growthQuantum
  if settings.syncOnCreate then flush
  return offset

def putMediaCount (count : Nat) : Update Unit :=
  putWord LibraryHeader.mediaCountField.offset count

def deletePlaylist (name : String) : Update Unit := do
  let p ← consult (named · name)
  excise p.offset (p.offset + p.length)
  let settings := (← get).settings
  if name = settings.globalPlaylist then putMediaCount 0 else pure ()

end MediaLibrary.LibraryFile
