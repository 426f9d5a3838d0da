import MediaLibrary.LibraryFile.Playlist
/-! The full check of a library: the header agrees with the file, the records fill it, each table
fills its record and is in order, the counts are right, and no two playlists share a name. -/
namespace MediaLibrary

structure Audit where
  length : Nat
  playlists : Nat
  paths : Nat
  deriving DecidableEq, Repr

/-- What the records checked so far add up to. -/
structure Tally where
  covered : Nat
  playlists : Nat
  paths : Nat
  names : List Bytes
  /-- The path count of the global playlist, once it was met. -/
  globalCount : Option Nat
  deriving DecidableEq, Repr

namespace Tally

def empty : Tally := ⟨LibraryHeader.size, 0, 0, [], none⟩

def count (globalPlaylist : Bytes) (tally : Tally) (p : Playlist) : Tally where
  covered := tally.covered + p.length
  playlists := tally.playlists + 1
  paths := tally.paths + p.count
  names := p.name :: tally.names
  globalCount := if p.name = globalPlaylist then some p.count else tally.globalCount

/-- Checks a playlist, also against those before it, and counts it in. -/
def add (globalPlaylist : Bytes) (view : Image) (tally : Tally) (p : Playlist) :
    Except Damage Tally := do
  let table ← (StringTable.decode (p.tableImage view)).mapError .table
  if PlaylistHeader.size + table.length ≠ p.length then
    .error (.tableNotFilling table.length p.offset)
  else if p.count ≠ table.entries then
    .error (.miscounted p.offset p.count table.entries)
  else
    table.checkOrder.mapError .table
    if p.name ∈ tally.names then .error (.duplicateName p.name)
    else .ok (count globalPlaylist tally p)

/-- Checks all records of a walk and then that it came to the end of the file. -/
def ofWalk (globalPlaylist : Bytes) (view : Image) (walk : Walk) : Except Damage Tally := do
  let tally ← walk.playlists.foldlM (add globalPlaylist view) empty
  match walk.damage with
  | some damage => .error damage
  | none => .ok tally

end Tally

namespace LibraryFile

def checkTotals (lib : LibraryFile) (length : Nat) (tally : Tally) : Query Audit := do
  let mediaCount ← lib.mediaCount
  if tally.covered ≠ length then refuse (.corrupt (.uncovered tally.covered length))
  else if mediaCount ≠ tally.globalCount.getD 0 then
    refuse (.corrupt (.mediaMiscounted mediaCount lib.settings.globalPlaylist))
  else return ⟨length, tally.playlists, tally.paths⟩

def verify (lib : LibraryFile) : Query Audit := do
  let view ← lib.view
  let magic ← lib.word LibraryHeader.magicField.offset
  if magic ≠ LibraryHeader.magicNumber then refuse (.corrupt .badMagic)
  else
    let length ← lib.length
    if length ≠ view.size ∨ length ≠ lib.contents.size then
      refuse (.corrupt (.lengthsDisagree length view.size lib.contents.size))
    else
      let walk ← lib.walk
      let tally ← Query.ofCheck
        (Tally.ofWalk (Text.bytes lib.settings.globalPlaylist) view walk)
      lib.checkTotals length tally

end LibraryFile
end MediaLibrary
