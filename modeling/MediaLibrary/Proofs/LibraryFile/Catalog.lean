import MediaLibrary.Proofs.LibraryFile.Hosting
import Mathlib.Data.List.Nodup
/-! What a library is about: named playlists with their paths, in the order in which they were
started and added. A catalog determines the bytes of the library that holds it, up to how long the
tables are. The questions to such a library are answered from the catalog. -/
namespace MediaLibrary.LibraryFile

open StringTable (Packable packed)

/-- A playlist with the length of its table. -/
structure Listing where
  name : String
  length : Nat
  paths : List String
  deriving DecidableEq, Repr

namespace Listing

def record (l : Listing) : Record where
  label := PlaylistHeader.nameField.padded (Text.bytes l.name)
  count := l.paths.length
  table := (packed l.length (l.paths.map Text.bytes)).encode

structure Sound (l : Listing) : Prop where
  named : l.name ≠ ""
  valid : PlaylistHeader.nameField.check (Text.bytes l.name) = .ok ()
  packable : Packable l.length (l.paths.map Text.bytes)

namespace Sound

variable {l : Listing}

theorem nodup (h : l.Sound) : l.paths.Nodup := Text.nodup_map_bytes.1 h.packable.nodup

theorem headerSize_le (h : l.Sound) : StringTable.headerSize ≤ l.length :=
  Nat.le_trans (Nat.le_add_right _ _) h.packable.room

theorem count_below (h : l.Sound) : l.paths.length < Word.limit := by
  simpa using h.packable.count_below

theorem record_sized (h : l.Sound) : l.record.Sized where
  label := NameField.length_padded (Nat.le_of_lt ((NameField.check_eq_ok_iff _ _).1 h.valid).2)
  counted := h.count_below
  table := by
    have := (packed l.length (l.paths.map Text.bytes)).headerSize_le_length
    simpa [record] using this

theorem record_name (h : l.Sound) : l.record.name = Text.bytes l.name :=
  NameField.untilZero_padded h.valid

theorem record_length (h : l.Sound) : l.record.length = PlaylistHeader.size + l.length := by
  have := h.packable.length_packed
  simp [Record.length, record, this]

theorem info_playlist (h : l.Sound) (offset : Nat) : (l.record.playlist offset).info
    = ⟨l.name, l.paths.length, PlaylistHeader.size + l.length⟩ := by
  simp only [Playlist.info, Record.playlist, h.record_name, h.record_length, Text.lossy_bytes]
  rfl

end Sound
end Listing

/-- How many paths the global playlist has. There are none in it while there is no such playlist. -/
def globalCount (globalPlaylist : String) (listings : List Listing) : Nat :=
  match listings.find? (·.name = globalPlaylist) with
  | some l => l.paths.length
  | none => 0

theorem globalCount_of_absent {globalPlaylist : String} {listings : List Listing}
    (h : globalPlaylist ∉ listings.map Listing.name) : globalCount globalPlaylist listings = 0 := by
  have hnone : listings.find? (·.name = globalPlaylist) = none := by
    rw [List.find?_eq_none]
    intro l hl
    simp only [decide_eq_true_eq]
    rintro rfl
    exact h (List.mem_map_of_mem hl)
  rw [globalCount, hnone]

theorem globalCount_split {globalPlaylist : String} {before after : List Listing} {l : Listing}
    (h : ((before ++ l :: after).map Listing.name).Nodup) :
    globalCount globalPlaylist (before ++ l :: after)
      = if l.name = globalPlaylist then l.paths.length
        else globalCount globalPlaylist (before ++ after) := by
  split
  · rename_i heq
    have hbefore : before.find? (·.name = globalPlaylist) = none := by
      rw [List.find?_eq_none]
      intro x hx
      rw [List.map_append, List.nodup_append] at h
      simpa [heq] using h.2.2 x.name (List.mem_map_of_mem hx) l.name (by simp)
    rw [globalCount, List.find?_append, hbefore, List.find?_cons, decide_eq_true heq]
    rfl
  · rename_i hne
    rw [globalCount, globalCount, List.find?_append, List.find?_append, List.find?_cons,
      decide_eq_false hne]

/-- The records that hold the listings. -/
def shelfOf (globalPlaylist : String) (fields : Bytes) (listings : List Listing) : Shelf :=
  ⟨globalCount globalPlaylist listings, fields, listings.map Listing.record⟩

@[simp] theorem fields_shelfOf (globalPlaylist : String) (fields : Bytes) (listings : List Listing) :
    (shelfOf globalPlaylist fields listings).volume.fields = fields := rfl

def placeAfter (before : List Listing) : Nat := offsetAfter (before.map Listing.record)

theorem length_bodyOf {listings : List Listing} (h : ∀ l ∈ listings, l.Sound) :
    (bodyOf (listings.map Listing.record)).length
      = (listings.map fun l => PlaylistHeader.size + l.length).sum := by
  induction listings with
  | nil => rfl
  | cons l rest ih =>
    have hl := h l List.mem_cons_self
    rw [List.map_cons, bodyOf_cons, List.length_append, hl.record_sized.length_encode,
      hl.record_length, ih fun l hl => h l (List.mem_cons_of_mem _ hl), List.map_cons, List.sum_cons]

/-- The library holds the listings and nothing else. -/
structure Lists (settings : Settings) (fields : Bytes) (listings : List Listing)
    (lib : LibraryFile) : Prop where
  stores : Stores settings (shelfOf settings.globalPlaylist fields listings) lib
  sound : ∀ l ∈ listings, l.Sound
  distinct : (listings.map Listing.name).Nodup

theorem exists_split {listings : List Listing} {name : String}
    (h : name ∈ listings.map Listing.name) :
    ∃ before l after, listings = before ++ l :: after ∧ l.name = name := by
  obtain ⟨l, hl, rfl⟩ := List.mem_map.1 h
  obtain ⟨before, after, rfl⟩ := List.append_of_mem hl
  exact ⟨before, l, after, rfl, rfl⟩

namespace Lists

variable {settings : Settings} {fields : Bytes} {listings before after : List Listing}
  {l : Listing} {lib : LibraryFile}

theorem names_eq (h : Lists settings fields listings lib) :
    (listings.map Listing.record).map Record.name
      = (listings.map Listing.name).map Text.bytes := by
  rw [List.map_map, List.map_map]
  exact List.map_congr_left fun l hl => (h.sound l hl).record_name

theorem find_absent (h : Lists settings fields listings lib) {name : String}
    (hname : name ∉ listings.map Listing.name) : lib.find name = .ok none := by
  refine h.stores.find_absent ?_
  show Text.bytes name ∉ (listings.map Listing.record).map Record.name
  rwa [h.names_eq, Text.mem_map_bytes]

theorem named_absent (h : Lists settings fields listings lib) {name : String}
    (hname : name ∉ listings.map Listing.name) :
    lib.named name = .error (.refused (.playlistNotFound name)) := by
  rw [named, Steps.query_ok (h.find_absent hname)]
  rfl

theorem soundAt (h : Lists settings fields (before ++ l :: after) lib) : l.Sound :=
  h.sound l (by simp)

theorem records_split (settings : Settings) (fields : Bytes) (before after : List Listing)
    (l : Listing) :
    (shelfOf settings.globalPlaylist fields (before ++ l :: after)).records
      = before.map Listing.record ++ l.record :: after.map Listing.record := by
  simp [shelfOf]

theorem find_present (h : Lists settings fields (before ++ l :: after) lib) :
    lib.find l.name = .ok (some (l.record.playlist (placeAfter before))) := by
  have hsound : ∀ x ∈ before, x.Sound := fun x hx => h.sound x (by simp [hx])
  have hbefore : Text.bytes l.name ∉ (before.map Listing.record).map Record.name := by
    have hnames : (before.map Listing.record).map Record.name
        = (before.map Listing.name).map Text.bytes := by
      rw [List.map_map, List.map_map]
      exact List.map_congr_left fun x hx => (hsound x hx).record_name
    rw [hnames, Text.mem_map_bytes]
    have hd := h.distinct
    rw [List.map_append, List.nodup_append] at hd
    exact fun hm => hd.2.2 _ hm l.name (by simp) rfl
  exact h.stores.find_present (records_split settings fields before after l) hbefore
    h.soundAt.record_name

theorem named_present (h : Lists settings fields (before ++ l :: after) lib) :
    lib.named l.name = .ok (l.record.playlist (placeAfter before)) := by
  rw [named, Steps.query_ok h.find_present]
  rfl

theorem playlistAt_eq (h : Lists settings fields (before ++ l :: after) lib) :
    lib.playlistAt (placeAfter before) = .ok (l.record.playlist (placeAfter before)) :=
  h.stores.playlistAt_eq (records_split settings fields before after l)

theorem length_eq (h : Lists settings fields (before ++ l :: after) lib) :
    (shelfOf settings.globalPlaylist fields (before ++ l :: after)).volume.length
      = placeAfter before + (PlaylistHeader.size + l.length)
        + (bodyOf (after.map Listing.record)).length := by
  rw [h.stores.length_split (records_split settings fields before after l), h.soundAt.record_length]
  rfl

/-! Questions. -/

theorem tableOf_eq (h : Lists settings fields (before ++ l :: after) lib) :
    ∃ t, lib.tableOf (placeAfter before) = .ok t ∧
      t.parts = packed l.length (l.paths.map Text.bytes) :=
  (h.stores.encloses (records_split settings fields before after l)).exists_tableOf
    h.soundAt.packable.sized rfl

theorem ordered_of_parts (h : l.Sound) {t : StringTable}
    (ht : t.parts = packed l.length (l.paths.map Text.bytes)) :
    t.Ordered ((Text.ascending l.paths).map Text.bytes) := by
  rw [Text.map_bytes_ascending h.nodup]
  exact h.packable.ordered ht

theorem findPath_eq (h : Lists settings fields (before ++ l :: after) lib) (path : String) :
    lib.findPath (placeAfter before) path = .ok ((Text.ascending l.paths).idxOf? path) := by
  obtain ⟨t, ht, hparts⟩ := h.tableOf_eq
  rw [findPath, Steps.query_ok ht, (ordered_of_parts h.soundAt hparts).find_text]
  rfl

theorem pathAt_eq (h : Lists settings fields (before ++ l :: after) lib) (n : Nat) :
    lib.pathAt (placeAfter before) n = .ok (Text.ascending l.paths)[n]? := by
  obtain ⟨t, ht, hparts⟩ := h.tableOf_eq
  rw [pathAt, Steps.query_ok ht, (ordered_of_parts h.soundAt hparts).ordinal_eq]
  rfl

theorem paths_eq (h : Lists settings fields (before ++ l :: after) lib) :
    lib.paths (placeAfter before) = .ok (Text.ascending l.paths) := by
  obtain ⟨t, ht, hparts⟩ := h.tableOf_eq
  rw [paths, Steps.query_ok ht, (ordered_of_parts h.soundAt hparts).texts_eq]
  rfl

theorem findPathIn_eq (h : Lists settings fields (before ++ l :: after) lib) (path : String) :
    lib.findPathIn l.name path = .ok ((Text.ascending l.paths).idxOf? path) := by
  rw [findPathIn, Steps.query_ok h.named_present]
  exact h.findPath_eq path

theorem pathIn_eq (h : Lists settings fields (before ++ l :: after) lib) (n : Nat) :
    lib.pathIn l.name n = .ok (Text.ascending l.paths)[n]? := by
  rw [pathIn, Steps.query_ok h.named_present]
  exact h.pathAt_eq n

theorem pathsIn_eq (h : Lists settings fields (before ++ l :: after) lib) :
    lib.pathsIn l.name = .ok (Text.ascending l.paths) := by
  rw [pathsIn, Steps.query_ok h.named_present]
  exact h.paths_eq

theorem mediaCount_eq (h : Lists settings fields listings lib) :
    lib.mediaCount = .ok (globalCount settings.globalPlaylist listings) :=
  h.stores.keeps.mediaCount_eq

theorem map_info_playlistsFrom {listings : List Listing} (h : ∀ l ∈ listings, l.Sound)
    (offset : Nat) :
    (playlistsFrom offset (listings.map Listing.record)).map Playlist.info
      = listings.map fun l => ⟨l.name, l.paths.length, PlaylistHeader.size + l.length⟩ := by
  induction listings generalizing offset with
  | nil => rfl
  | cons l rest ih =>
    rw [List.map_cons, playlistsFrom, List.map_cons, (h l List.mem_cons_self).info_playlist,
      ih (fun l hl => h l (List.mem_cons_of_mem _ hl)), List.map_cons]

theorem playlists_eq (h : Lists settings fields listings lib) : ∃ playlists,
    lib.playlists = .ok playlists ∧ playlists.map Playlist.info
      = listings.map fun l => ⟨l.name, l.paths.length, PlaylistHeader.size + l.length⟩ :=
  ⟨_, h.stores.playlists_eq, map_info_playlistsFrom h.sound _⟩

end Lists
end MediaLibrary.LibraryFile
