import MediaLibrary.LibraryFile.Basic
/-! Changes of a library's size, and moves of bytes within it. The length in the header is taken for
the length of the library, and is the last thing that a resize writes. -/
namespace MediaLibrary.LibraryFile

/-- What the system answers to giving the file a new size. -/
def sizing (lib : LibraryFile) (size : Nat) : Option FileError :=
  if size < lib.contents.size then lib.system.now.shortening else lib.system.now.lengthening

/-- The library without its mapping, its file cut or lengthened unless the system refuses that. -/
def unmap (size : Nat) (lib : LibraryFile) : LibraryFile :=
  { lib with
    contents := if (lib.sizing size).isNone then lib.contents.resize size else lib.contents
    mapped := none
    system := lib.system.later }

/-- Gives the file a new size, maps all of it, and records the size. A file that the system leaves as
it is, is mapped again as it is; if it cannot be mapped, the library stays without a mapping. -/
def resize (size : Nat) : Update Unit := do
  if Word.limit ≤ size then Update.refuse .tooLarge
  else
    let lib ← get
    modify (unmap size)
    consult fun _ => granted lib.system.now.mapping
    match lib.sizing size with
    | some error =>
      modify fun lib => { lib with mapped := some lib.contents.size }
      Update.refuse (.io error)
    | none =>
      if size < LibraryHeader.lengthField.stop then throw (.fault .outOfBounds)
      else
        modify fun lib => { lib with mapped := some size }
        putWord LibraryHeader.lengthField.offset size

/-- Lengthens the library to `size` bytes. The new ones are zero. -/
def expand (size : Nat) : Update Unit := do
  let length ← consult LibraryFile.length
  if size ≤ length then Update.refuse (.invalidArgument (.expand size length))
  else resize size

def truncate (size : Nat) : Update Unit := do
  let length ← consult LibraryFile.length
  if size < LibraryHeader.size ∨ length < size then
    Update.refuse (.invalidArgument (.truncate size length))
  else if size = length then pure ()
  else resize size

/-- Copies the bytes from `start` up to `stop` to `target`; the two places may overlap. -/
def shift (start stop target : Nat) : Update Unit :=
  changeView fun view =>
    if start ≤ stop ∧ stop ≤ view.size ∧ target + (stop - start) ≤ view.size then
      .ok (view.overlay target (view.slice start (stop - start)))
    else refuse (.invalidArgument (.shift start stop target view.size))

def clear (offset count : Nat) : Update Unit := put offset (.blank count)

/-- Takes the bytes from `start` up to `stop` out of the library. -/
def excise (start stop : Nat) : Update Unit := do
  let length ← consult LibraryFile.length
  if start < LibraryHeader.size ∨ stop < start ∨ length < stop then
    Update.refuse (.invalidArgument (.excise start stop length))
  else if start = stop then pure ()
  else
    shift stop length start
    truncate (length - (stop - start))

/-- Opens a gap of `count` zero bytes at `offset`. -/
def insertSpace (offset count : Nat) : Update Unit := do
  let length ← consult LibraryFile.length
  if offset < LibraryHeader.size ∨ length < offset then
    Update.refuse (.invalidArgument (.insert offset length))
  else if count = 0 then pure ()
  else if addressLimit ≤ length + count then Update.refuse .tooLarge
  else
    expand (length + count)
    shift offset length (offset + count)
    clear offset count

end MediaLibrary.LibraryFile
