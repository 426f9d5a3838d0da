import MediaLibrary.Proofs.LibraryFile.Catalog
import MediaLibrary.Proofs.LibraryFile.Grammar
/-! The full check of a library that lists its playlists finds nothing wrong: the record of a listing
holds its paths in order, and the count in the header is that of the global playlist. -/
namespace MediaLibrary.LibraryFile

theorem Listing.Sound.holds {l : Listing} (h : l.Sound) :
    l.record.Holds (Bytes.ascending (l.paths.map Text.bytes)) where
  label := h.record_sized.label
  counted := by
    rw [Bytes.length_ascending, List.length_map]
    rfl
  table := h.packable.spells

theorem countIn_record {listings : List Listing} (h : ∀ l ∈ listings, l.Sound)
    (globalPlaylist : String) :
    countIn (Text.bytes globalPlaylist) (listings.map Listing.record)
      = globalCount globalPlaylist listings := by
  induction listings with
  | nil => rfl
  | cons l rest ih =>
    have hrest := ih fun l hl => h l (List.mem_cons_of_mem _ hl)
    unfold countIn globalCount at hrest ⊢
    rw [List.map_cons, List.find?_cons, List.find?_cons, (h l List.mem_cons_self).record_name]
    by_cases heq : l.name = globalPlaylist
    · simp [heq, Listing.record]
    · simp only [Text.bytes_inj, heq, decide_false]
      exact hrest

namespace Lists

variable {settings : Settings} {fields : Bytes} {listings : List Listing} {lib : LibraryFile}

theorem passes (h : Lists settings fields listings lib) :
    Passes settings (shelfOf settings.globalPlaylist fields listings) lib where
  stores := h.stores
  holds := by
    intro r hr
    obtain ⟨l, hl, rfl⟩ := List.mem_map.1 hr
    exact ⟨_, (h.sound l hl).holds⟩
  distinct := by
    show ((listings.map Listing.record).map Record.name).Nodup
    rw [h.names_eq]
    exact Text.nodup_map_bytes.2 h.distinct
  counted := (countIn_record h.sound _).symm

theorem verify_eq (h : Lists settings fields listings lib) :
    lib.verify = .ok
      { length := placeAfter listings
        playlists := listings.length
        paths := (listings.map (·.paths.length)).sum } := by
  refine (h.stores.verify_passes_iff _).2 ⟨h.passes, ?_⟩
  simp only [shelfOf, List.length_map, List.map_map]
  rfl

end Lists

def Tiles (stop : Nat) : (offset : Nat) → List Playlist → Prop
  | offset, [] => offset = stop
  | offset, p :: rest => p.offset = offset ∧ Tiles stop (offset + p.length) rest

/-- A library of `length` bytes in which nothing contradicts anything else. -/
structure Consistent (lib : LibraryFile) (length : Nat) (playlists : List Playlist) : Prop where
  recorded : lib.length = .ok length
  mapped : lib.mapped = some length
  stored : lib.contents.size = length
  walked : lib.walk = .ok ⟨playlists, none⟩
  tiled : Tiles length LibraryHeader.size playlists
  filled : ∀ p ∈ playlists, ∃ t values, lib.tableOf p.offset = .ok t ∧
    PlaylistHeader.size + t.length = p.length ∧ p.count = t.entries ∧ t.Ordered values
  distinct : (playlists.map Playlist.name).Nodup
  counted : lib.mediaCount = .ok
    (((playlists.find? (·.name = Text.bytes lib.settings.globalPlaylist)).map Playlist.count).getD 0)

theorem tiles_playlistsFrom {records : List Record} (h : ∀ r ∈ records, r.Sized) (offset : Nat) :
    Tiles (offset + (bodyOf records).length) offset (playlistsFrom offset records) := by
  induction records generalizing offset with
  | nil => rfl
  | cons r rest ih =>
    refine ⟨rfl, ?_⟩
    have hrest := ih (fun r hr => h r (List.mem_cons_of_mem _ hr)) (offset + r.length)
    rw [bodyOf_cons, List.length_append, (h r List.mem_cons_self).length_encode, ← Nat.add_assoc]
    exact hrest

theorem mem_playlistsFrom {listings : List Listing} (h : ∀ l ∈ listings, l.Sound) {p : Playlist}
    (hp : p ∈ playlistsFrom LibraryHeader.size (listings.map Listing.record)) :
    ∃ before l after, listings = before ++ l :: after ∧
      p = l.record.playlist (placeAfter before) := by
  have hsized : ∀ r ∈ listings.map Listing.record, r.Sized := by
    intro r hr
    obtain ⟨l, hl, rfl⟩ := List.mem_map.1 hr
    exact (h l hl).record_sized
  obtain ⟨before, r, after, hsplit, rfl⟩ := exists_of_mem_playlistsFrom hsized hp
  obtain ⟨before, rest, rfl, rfl, hrest⟩ := List.map_eq_append_iff.1 hsplit
  obtain ⟨l, after, rfl, rfl, -⟩ := List.map_eq_cons_iff.1 hrest
  exact ⟨before, l, after, rfl, rfl⟩

theorem find?_playlistsFrom (name : Bytes) (offset : Nat) (records : List Record) :
    ((playlistsFrom offset records).find? (·.name = name)).map Playlist.count
      = (records.find? (·.name = name)).map Record.count := by
  induction records generalizing offset with
  | nil => rfl
  | cons r rest ih =>
    rw [playlistsFrom, List.find?_cons, List.find?_cons, show (r.playlist offset).name = r.name from rfl]
    by_cases heq : r.name = name
    · simp [heq, Record.playlist]
    · simp only [heq, decide_false]
      exact ih _

theorem Lists.consistent {settings : Settings} {fields : Bytes} {listings : List Listing}
    {lib : LibraryFile} (h : Lists settings fields listings lib) :
    Consistent lib (placeAfter listings)
      (playlistsFrom LibraryHeader.size (listings.map Listing.record)) where
  recorded := h.stores.keeps.length_eq
  mapped := by
    rw [h.stores.keeps.holding.mapped_eq, h.stores.keeps.sized.length_encode]
    rfl
  stored := by
    rw [h.stores.keeps.holding.size_contents, h.stores.keeps.sized.length_encode]
    rfl
  walked := h.stores.walk_eq
  tiled := tiles_playlistsFrom h.stores.sized _
  filled := by
    intro p hp
    obtain ⟨before, l, after, rfl, rfl⟩ := mem_playlistsFrom h.sound hp
    obtain ⟨t, ht, hparts⟩ := h.tableOf_eq
    have hordered := h.soundAt.packable.ordered hparts
    refine ⟨t, _, ht, ?_, ?_, hordered⟩
    · rw [← StringTable.length_parts, hparts, h.soundAt.packable.length_packed]
      exact h.soundAt.record_length.symm
    · rw [hordered.entries_eq, Bytes.length_ascending, List.length_map]
      rfl
  distinct := by
    rw [map_name_playlistsFrom, h.names_eq]
    exact Text.nodup_map_bytes.2 h.distinct
  counted := by
    rw [h.mediaCount_eq, h.stores.keeps.holding.settings_eq, find?_playlistsFrom,
      ← countIn_record h.sound]
    rfl

end MediaLibrary.LibraryFile
