import MediaLibrary.LibraryFile.Basic
/-! The playlists of a library, in file order. A playlist is addressed by the offset of its record.
Offsets are checked wherever they are used, so one that no longer points at a record is refused. -/
namespace MediaLibrary

/-- A record whose header is sound: it lies within the mapped bytes. -/
structure Playlist where
  offset : Nat
  length : Nat
  count : Nat
  name : Bytes
  deriving DecidableEq, Repr

structure PlaylistInfo where
  name : String
  count : Nat
  length : Nat
  deriving DecidableEq, Repr

namespace Playlist

def info (p : Playlist) : PlaylistInfo := ⟨Text.lossy p.name, p.count, p.length⟩

def tableOffset (p : Playlist) : Nat := p.offset + PlaylistHeader.size

/-- The part of the record behind its header. -/
def tableImage (p : Playlist) (view : Image) : Image :=
  view.slice p.tableOffset (p.length - PlaylistHeader.size)

/-- The playlist whose record begins `tail`, which is what `size` mapped bytes hold from `offset`
on. -/
def ofTail (size offset : Nat) (tail : Image) : Except Damage Playlist :=
  match PlaylistHeader.decode? (tail.read 0 PlaylistHeader.size) with
  | none => .error (.headerOverrun offset size)
  | some h =>
    if h.magic ≠ PlaylistHeader.magicNumber then .error (.badPlaylistMagic h.magic offset)
    else if h.length < PlaylistHeader.minRecord then .error (.playlistTooShort offset h.length)
    else if size - offset < h.length then .error (.playlistOverrun offset h.length)
    else .ok ⟨offset, h.length, h.count, h.name⟩

def readAt (view : Image) (offset : Nat) : Except Damage Playlist :=
  if offset < LibraryHeader.size then .error (.headerOverrun offset view.size)
  else ofTail view.size offset (view.drop offset)

theorem minRecord_le_of_ofTail {size offset : Nat} {tail : Image} {p : Playlist}
    (h : ofTail size offset tail = .ok p) : PlaylistHeader.minRecord ≤ p.length := by
  grind [ofTail]

theorem ofTail_congr {tail other : Image} (h : tail.toList = other.toList) (size offset : Nat) :
    ofTail size offset tail = ofTail size offset other := by
  simp [ofTail, h]

end Playlist

/-- The records met in file order, and the damage that ended the walk early, if any did. -/
structure Walk where
  playlists : List Playlist
  damage : Option Damage
  deriving DecidableEq, Repr

namespace Walk

def after (p : Playlist) (rest : Walk) : Walk := ⟨p :: rest.playlists, rest.damage⟩

/-- Walks the records of `tail`, which is what `size` mapped bytes hold from `offset` on. -/
def ofTail (size offset : Nat) (tail : Image) : Walk :=
  if h : offset < size then
    match sound : Playlist.ofTail size offset tail with
    | .error damage => ⟨[], some damage⟩
    | .ok p =>
      have : 0 < p.length := Nat.lt_of_lt_of_le (by decide) (Playlist.minRecord_le_of_ofTail sound)
      after p (ofTail size (offset + p.length) (tail.drop p.length))
  else ⟨[], none⟩
termination_by size - offset

def ofImage (view : Image) (offset : Nat) : Walk :=
  ofTail view.size offset (view.drop offset)

theorem ofTail_of_le {size offset : Nat} (h : size ≤ offset) (tail : Image) :
    ofTail size offset tail = ⟨[], none⟩ := by
  rw [ofTail, dif_neg (Nat.not_lt.2 h)]

theorem ofTail_of_error {size offset : Nat} {tail : Image} {damage : Damage} (h : offset < size)
    (unsound : Playlist.ofTail size offset tail = .error damage) :
    ofTail size offset tail = ⟨[], some damage⟩ := by
  rw [ofTail, dif_pos h]
  split <;> simp_all

theorem ofTail_of_ok {size offset : Nat} {tail : Image} {p : Playlist} (h : offset < size)
    (sound : Playlist.ofTail size offset tail = .ok p) :
    ofTail size offset tail
      = after p (ofTail size (offset + p.length) (tail.drop p.length)) := by
  rw [ofTail, dif_pos h]
  split <;> simp_all

theorem ofTail_congr {tail other : Image} (h : tail.toList = other.toList) (size offset : Nat) :
    ofTail size offset tail = ofTail size offset other := by
  fun_induction ofTail size offset tail generalizing other with
  | case1 offset tail hlt damage unsound =>
    rw [Playlist.ofTail_congr h] at unsound
    rw [ofTail_of_error hlt unsound]
  | case2 offset tail hlt p sound _ ih =>
    rw [Playlist.ofTail_congr h] at sound
    have hdrop : (tail.drop p.length).toList = (other.drop p.length).toList := by simp [h]
    rw [ofTail_of_ok hlt sound, ih hdrop]
  | case3 offset tail hlt => rw [ofTail_of_le (Nat.not_lt.1 hlt)]

theorem ofImage_of_ok {view : Image} {offset : Nat} {p : Playlist} (h : offset < view.size)
    (sound : Playlist.readAt view offset = .ok p) :
    ofImage view offset = after p (ofImage view (offset + p.length)) := by
  unfold Playlist.readAt at sound
  split at sound
  · cases sound
  · have hdrop : ((view.drop offset).drop p.length).toList
        = (view.drop (offset + p.length)).toList := by simp
    rw [ofImage, ofTail_of_ok h sound, ofImage, ofTail_congr hdrop]

end Walk

namespace LibraryFile

def walk (lib : LibraryFile) : Query Walk := do
  return Walk.ofImage (← lib.view) LibraryHeader.size

def playlistAt (lib : LibraryFile) (offset : Nat) : Query Playlist := do
  Query.ofCheck (Playlist.readAt (← lib.view) offset)

/-- The record after the one at `previous`, or the first. There is none at the end. -/
def next (lib : LibraryFile) (previous : Option Nat) : Query (Option Nat) := do
  let start ← match previous with
    | none => pure LibraryHeader.size
    | some offset => do pure (offset + (← lib.playlistAt offset).length)
  if (← lib.view).size ≤ start then return none
  else return some (← lib.playlistAt start).offset

/-- All playlists. One damaged record makes the question fail. -/
def playlists (lib : LibraryFile) : Query (List Playlist) := do
  let walk ← lib.walk
  match walk.damage with
  | some damage => refuse (.corrupt damage)
  | none => return walk.playlists

/-- The first playlist of that name, provided that no damaged record comes before it. -/
def find (lib : LibraryFile) (name : String) : Query (Option Playlist) := do
  let walk ← lib.walk
  match walk.playlists.find? (·.name = Text.bytes name), walk.damage with
  | some p, _ => return some p
  | none, some damage => refuse (.corrupt damage)
  | none, none => return none

/-- Like `find`, but there has to be such a playlist. -/
def named (lib : LibraryFile) (name : String) : Query Playlist := do
  match ← lib.find name with
  | some p => return p
  | none => refuse (.playlistNotFound name)

end LibraryFile
end MediaLibrary
