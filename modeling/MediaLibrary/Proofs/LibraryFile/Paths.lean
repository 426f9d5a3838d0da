import MediaLibrary.Proofs.LibraryFile.Lifecycle
/-! Adding a path to a listing and taking one out. The table is changed first, then the record's
count, and then the count in the header if the listing is the global playlist. An addition that is
refused for want of space may have lengthened the table, and has done nothing else. -/
namespace MediaLibrary.LibraryFile

open StringTable (Packable packed fitted filled roomFor headerSize)

/-- With `path` among the paths, in a table grown as far as that needs. -/
def Listing.add (quantum : Nat) (path : String) (l : Listing) : Listing :=
  if path ∈ l.paths then l
  else { l with
    length := fitted quantum l.length (filled ((l.paths ++ [path]).map Text.bytes))
    paths := l.paths ++ [path] }

def Listing.Full (path : String) (l : Listing) : Prop :=
  l.length - headerSize - filled (l.paths.map Text.bytes) < roomFor (Text.bytes path).length

namespace Listing

variable {l : Listing} {path : String}

instance (path : String) (l : Listing) : Decidable (l.Full path) :=
  inferInstanceAs (Decidable (_ < _))

theorem add_of_mem (h : path ∈ l.paths) (quantum : Nat) : l.add quantum path = l := if_pos h

theorem add_of_not_mem (h : path ∉ l.paths) (quantum : Nat) : l.add quantum path
    = ⟨l.name, fitted quantum l.length (filled ((l.paths ++ [path]).map Text.bytes)),
        l.paths ++ [path]⟩ := if_neg h

@[simp] theorem name_add (quantum : Nat) (path : String) (l : Listing) :
    (l.add quantum path).name = l.name := by
  unfold add
  split <;> rfl

@[simp] theorem mem_paths_add {quantum : Nat} {other : String} :
    other ∈ (l.add quantum path).paths ↔ other = path ∨ other ∈ l.paths := by
  by_cases hpath : path ∈ l.paths
  · rw [add_of_mem hpath]
    refine ⟨Or.inr, fun h => ?_⟩
    rcases h with rfl | h
    · exact hpath
    · exact h
  · rw [add_of_not_mem hpath]
    simp [or_comm]

end Listing

/-- The volume whose media count is that of the record, if this is the global playlist. -/
def Volume.recount (globalPlaylist : Bytes) (v : Volume) (r : Record) : Volume :=
  { v with mediaCount := if r.name = globalPlaylist then r.count else v.mediaCount }

/-- The shelf with another record in its place, and the count that goes with it. -/
def Shelf.withRecord (globalPlaylist : Bytes) (s : Shelf) (before : List Record) (r : Record)
    (after : List Record) : Shelf :=
  { s with
    mediaCount := if r.name = globalPlaylist then r.count else s.mediaCount
    records := before ++ r :: after }

namespace Encloses

variable {settings : Settings} {v : Volume} {before after : Bytes} {r : Record} {lib : LibraryFile}

theorem refreshMediaCount_ok (h : Encloses settings v before r after lib) :
    ∃ lib', refreshMediaCount (LibraryHeader.size + before.length) lib = .ok () lib' ∧
      Encloses settings (v.recount (Text.bytes settings.globalPlaylist) r) before r after lib' := by
  have hread : consult (playlistAt · (LibraryHeader.size + before.length)) lib = .ok _ lib :=
    Steps.consult_ok h.playlistAt_eq
  rw [refreshMediaCount, Steps.bind_ok hread, Steps.bind_get, h.keeps.holding.settings_eq,
    Volume.recount]
  by_cases hname : r.name = Text.bytes settings.globalPlaylist
  · obtain ⟨lib', hput, hlib'⟩ := h.keeps.putMediaCount_ok h.sized.counted
    refine ⟨lib', ?_, ?_, h.sized⟩
    · rw [if_pos (show (r.playlist (LibraryHeader.size + before.length)).name = _ from hname)]
      exact hput
    · rwa [if_pos hname]
  · refine ⟨lib, ?_, ?_⟩
    · rw [if_neg (show ¬ (r.playlist (LibraryHeader.size + before.length)).name = _ from hname)]
      rfl
    · rwa [if_neg hname]

/-- Once a record's table is written, its count is, and with it the count in the header. -/
theorem recount_ok (h : Encloses settings v before r after lib) {count : Nat}
    (hcount : count < Word.limit) :
    ∃ lib₁ lib₂, putWord (LibraryHeader.size + before.length + PlaylistHeader.countField.offset)
        count lib = .ok () lib₁ ∧
      refreshMediaCount (LibraryHeader.size + before.length) lib₁ = .ok () lib₂ ∧
      Encloses settings (v.recount (Text.bytes settings.globalPlaylist) { r with count }) before
        { r with count } after lib₂ := by
  obtain ⟨lib₁, hput, h₁⟩ := h.putCount_ok hcount
  obtain ⟨lib₂, hrefresh, h₂⟩ := h₁.refreshMediaCount_ok
  exact ⟨lib₁, lib₂, hput, hrefresh, h₂⟩

theorem addPathAt_of_stored (h : Encloses settings v before r after lib) {path : String}
    {table after' : Bytes} {lib₁ : LibraryFile}
    (hadd : StringTable.add (host (LibraryHeader.size + before.length))
      (LibraryHeader.size + before.length + PlaylistHeader.size) (Text.bytes path)
      settings.growthQuantum lib = .ok () lib₁)
    (h₁ : Encloses settings v before { r with table } after' lib₁) :
    ∃ r' lib', r' = { r with count := min (r.count + 1) (Word.limit - 1), table } ∧
      addPathAt (LibraryHeader.size + before.length) path lib = .ok () lib' ∧
      Encloses settings (v.recount (Text.bytes settings.globalPlaylist) r') before r' after'
        lib' := by
  have hread : consult (playlistAt · (LibraryHeader.size + before.length)) lib = .ok _ lib :=
    Steps.consult_ok h.playlistAt_eq
  have hgrown : consult (playlistAt · (LibraryHeader.size + before.length)) lib₁ = .ok _ lib₁ :=
    Steps.consult_ok h₁.playlistAt_eq
  have hcount : min (r.count + 1) (Word.limit - 1) < Word.limit := by
    have : 0 < Word.limit := by decide
    omega
  obtain ⟨lib₂, lib₃, hput, hrefresh, h₃⟩ := h₁.recount_ok hcount
  refine ⟨_, lib₃, rfl, ?_, h₃⟩
  rw [addPathAt, Steps.bind_ok hread, Steps.bind_get, h.keeps.holding.settings_eq]
  refine (Steps.bind_ok (Steps.adaptExcept_ok hadd)).trans ?_
  rw [Steps.bind_ok hgrown]
  exact (Steps.bind_ok hput).trans hrefresh

theorem addPathAt_of_refused (h : Encloses settings v before r after lib) {path : String}
    {e : Failure TableError} {lib₁ : LibraryFile}
    (hadd : StringTable.add (host (LibraryHeader.size + before.length))
      (LibraryHeader.size + before.length + PlaylistHeader.size) (Text.bytes path)
      settings.growthQuantum lib = .error e lib₁) :
    addPathAt (LibraryHeader.size + before.length) path lib
      = .error (e.map (refusalOf path)) lib₁ := by
  have hread : consult (playlistAt · (LibraryHeader.size + before.length)) lib = .ok _ lib :=
    Steps.consult_ok h.playlistAt_eq
  rw [addPathAt, Steps.bind_ok hread, Steps.bind_get, h.keeps.holding.settings_eq]
  exact Steps.bind_error (Steps.adaptExcept_error hadd)

theorem removePathAt_of_remove (h : Encloses settings v before r after lib) {path : String}
    {t rest : StringTable} (ht : lib.tableOf (LibraryHeader.size + before.length) = .ok t)
    (hremove : t.remove (Text.bytes path) = .ok (some rest))
    (hlength : rest.parts.length ≤ r.table.length) :
    ∃ r' lib', r' = { r with
        count := r.count - 1, table := Bytes.overlay r.table 0 rest.parts.encode } ∧
      removePathAt (LibraryHeader.size + before.length) path lib = .ok true lib' ∧
      Encloses settings (v.recount (Text.bytes settings.globalPlaylist) r') before r' after
        lib' := by
  have hread : consult (playlistAt · (LibraryHeader.size + before.length)) lib = .ok _ lib :=
    Steps.consult_ok h.playlistAt_eq
  have htable : consult (tableOf · (LibraryHeader.size + before.length)) lib = .ok t lib :=
    Steps.consult_ok ht
  have hremoved : consult (fun _ => (t.remove (Text.bytes path)).mapError
      (Failure.map fun damage => LibraryError.corrupt (.table damage))) lib = .ok (some rest) lib :=
    Steps.consult_ok (by rw [hremove]; rfl)
  obtain ⟨lib₁, hput, h₁⟩ := h.putTable_ok 0 rest.encode (by
    rwa [Nat.zero_add, ← Image.length_toList, StringTable.toList_encode,
      StringTable.Parts.length_encode])
  rw [StringTable.toList_encode] at h₁
  obtain ⟨lib₂, lib₃, hcount, hrefresh, h₃⟩ :=
    h₁.recount_ok (Nat.lt_of_le_of_lt (Nat.sub_le r.count 1) h.sized.counted)
  refine ⟨_, lib₃, rfl, ?_, h₃⟩
  rw [removePathAt, Steps.bind_ok hread, Steps.bind_ok htable, Steps.bind_ok hremoved]
  exact (Steps.bind_ok hput).trans ((Steps.bind_ok hcount).trans (Steps.bind_ok hrefresh))

theorem removePathAt_of_found (h : Encloses settings v before r after lib) {path : String}
    {t rest : StringTable} (ht : lib.tableOf (LibraryHeader.size + before.length) = .ok t)
    (hremove : t.remove (Text.bytes path) = .ok (some rest))
    (hlength : rest.parts.length = r.table.length) :
    ∃ r' lib', r' = { r with count := r.count - 1, table := rest.parts.encode } ∧
      removePathAt (LibraryHeader.size + before.length) path lib = .ok true lib' ∧
      Encloses settings (v.recount (Text.bytes settings.globalPlaylist) r') before r' after
        lib' := by
  have hsame : rest.parts.encode.length = r.table.length := by
    rw [StringTable.Parts.length_encode, hlength]
  have hremoved := h.removePathAt_of_remove ht hremove (Nat.le_of_eq hlength)
  rwa [Bytes.overlay_whole hsame] at hremoved

end Encloses

theorem removePathAt_of_absent {lib : LibraryFile} {offset : Nat} {p : Playlist} {path : String}
    {t : StringTable} (hp : lib.playlistAt offset = .ok p) (ht : lib.tableOf offset = .ok t)
    (hremove : t.remove (Text.bytes path) = .ok none) :
    removePathAt offset path lib = .ok false lib := by
  have hread : consult (playlistAt · offset) lib = .ok p lib := Steps.consult_ok hp
  have htable : consult (tableOf · offset) lib = .ok t lib := Steps.consult_ok ht
  have hremoved : consult (fun _ => (t.remove (Text.bytes path)).mapError
      (Failure.map fun damage => LibraryError.corrupt (.table damage))) lib = .ok none lib :=
    Steps.consult_ok (by rw [hremove]; rfl)
  rw [removePathAt, Steps.bind_ok hread, Steps.bind_ok htable, Steps.bind_ok hremoved]
  rfl

theorem Stores.withRecord {settings : Settings} {shelf : Shelf} {lib : LibraryFile}
    {before after : List Record} {r r' : Record} {globalPlaylist : Bytes}
    (hsized : ∀ r ∈ shelf.records, r.Sized) (hsplit : shelf.records = before ++ r :: after)
    (h : Encloses settings (shelf.volume.recount globalPlaylist r') (bodyOf before) r'
      (bodyOf after) lib) :
    Stores settings (shelf.withRecord globalPlaylist before r' after) lib :=
  @of_encloses settings
    { shelf with mediaCount := if r'.name = globalPlaylist then r'.count else shelf.mediaCount }
    lib before after r hsized hsplit r' h

theorem addPathAt_of_nul {lib : LibraryFile} {offset : Nat} {p : Playlist} {path : String}
    (hp : lib.playlistAt offset = .ok p) (hnul : 0 ∈ Text.bytes path) :
    addPathAt offset path lib = .error (.refused (.table .interiorNul)) lib := by
  have hread : consult (playlistAt · offset) lib = .ok p lib := Steps.consult_ok hp
  rw [addPathAt, Steps.bind_ok hread, Steps.bind_get]
  exact Steps.bind_error (Steps.adaptExcept_error (StringTable.add_of_nul hnul))

namespace Lists

variable {settings : Settings} {fields : Bytes} {listings before after : List Listing}
  {l : Listing} {lib : LibraryFile}

abbrev ShowsTable (settings : Settings) (fields : Bytes) (before : List Listing) (l : Listing)
    (after : List Listing) (lib : LibraryFile) (table : Bytes) : Prop :=
  Encloses settings (shelfOf settings.globalPlaylist fields (before ++ l :: after)).volume
    (bodyOf (before.map Listing.record)) { l.record with table }
    (bodyOf (after.map Listing.record)) lib

theorem shows_table (h : Lists settings fields (before ++ l :: after) lib) :
    ShowsTable settings fields before l after lib
      (packed l.length (l.paths.map Text.bytes)).encode :=
  h.stores.encloses (records_split settings fields before after l)

theorem replace_sound (h : Lists settings fields (before ++ l :: after) lib) {other : Listing}
    (hname : other.name = l.name) (hother : other.Sound) :
    (∀ x ∈ before ++ other :: after, x.Sound) ∧
      ((before ++ other :: after).map Listing.name).Nodup := by
  refine ⟨forall_replace h.sound hother, ?_⟩
  simpa [hname] using h.distinct

theorem of_recount (h : Lists settings fields (before ++ l :: after) lib) (other : Listing)
    (hname : other.name = l.name) (hother : other.Sound) {lib' : LibraryFile}
    (hlib' : Encloses settings
      ((shelfOf settings.globalPlaylist fields (before ++ l :: after)).volume.recount
        (Text.bytes settings.globalPlaylist) other.record)
      (bodyOf (before.map Listing.record)) other.record (bodyOf (after.map Listing.record)) lib') :
    Lists settings fields (before ++ other :: after) lib' := by
  have hstores := Stores.withRecord h.stores.sized (records_split settings fields before after l)
    hlib'
  obtain ⟨hsound, hdistinct⟩ := h.replace_sound hname hother
  refine of_stores hstores ?_ rfl (by simp [Shelf.withRecord]) hsound hdistinct
  rw [globalCount_split hdistinct]
  simp only [Shelf.withRecord, hother.record_name, Text.bytes_inj]
  by_cases hglobal : other.name = settings.globalPlaylist
  · rw [if_pos hglobal, if_pos hglobal]
    rfl
  · rw [if_neg hglobal, if_neg hglobal]
    show globalCount settings.globalPlaylist (before ++ l :: after) = _
    rw [globalCount_split h.distinct, if_neg (hname ▸ hglobal)]

theorem relength (h : Lists settings fields (before ++ l :: after) lib) {length : Nat}
    (hpack : Packable length (l.paths.map Text.bytes)) {lib' : LibraryFile}
    (hlib' : ShowsTable settings fields before l after lib'
      (packed length (l.paths.map Text.bytes)).encode) :
    Lists settings fields (before ++ { l with length } :: after) lib' := by
  have hsame : ({ l with length } : Listing).name = l.name := rfl
  obtain ⟨hsound, hdistinct⟩ := h.replace_sound hsame ⟨h.soundAt.named, h.soundAt.valid, hpack⟩
  have hstores := Stores.of_encloses h.stores.sized
    (records_split settings fields before after l) hlib'
  refine of_stores hstores ?_ rfl (by simp [Listing.record]) hsound hdistinct
  show globalCount settings.globalPlaylist (before ++ l :: after) = _
  rw [globalCount_split h.distinct, globalCount_split hdistinct]

/-! Adding. -/

theorem addPathAt_present (h : Lists settings fields (before ++ l :: after) lib)
    (hu : settings.Usable) {path : String} (hpath : path ∈ l.paths) :
    addPathAt (placeAfter before) path lib = .error (.refused (.pathExists path)) lib := by
  have hquantum : 0 < settings.growthQuantum := Nat.lt_of_lt_of_le (by decide) hu.quantum
  have hadd := (encloses_carries _ _ _ _ _).add_present h.soundAt.packable h.shows_table hquantum
    (Text.mem_map_bytes.2 hpath)
  exact h.shows_table.addPathAt_of_refused hadd

/-- A new path is listed last, or there is no space for it; that is only so if the table has no room
and has to grow. -/
theorem addPathAt_cases (h : Lists settings fields (before ++ l :: after) lib)
    (hu : settings.Usable) {path : String} (hpath : path ∉ l.paths)
    (hnul : 0 ∉ Text.bytes path) :
    (∃ lib', addPathAt (placeAfter before) path lib = .ok () lib' ∧
      Lists settings fields (before ++ l.add settings.growthQuantum path :: after) lib') ∨
    ∃ length e lib', addPathAt (placeAfter before) path lib = .error (.refused e) lib' ∧
      e.kind = .resource ∧
      l.Full path ∧ Lists settings fields (before ++ { l with length } :: after) lib' := by
  have hquantum : 0 < settings.growthQuantum := Nat.lt_of_lt_of_le (by decide) hu.quantum
  rcases (encloses_carries _ _ _ _ _).add_cases h.soundAt.packable h.shows_table hquantum
    (mt Text.mem_map_bytes.1 hpath) hnul rfl with
    ⟨lib₁, hadd, h₁, hpack⟩ | ⟨j, hj, e, lib₁, hadd, h₁, hpack, hrefuses⟩
  · refine Or.inl ?_
    rw [StringTable.fitted_concat h.soundAt.packable.room, ← List.map_singleton,
      ← List.map_append] at h₁ hpack
    rw [Listing.add_of_not_mem hpath]
    generalize fitted settings.growthQuantum l.length _ = length at h₁ hpack ⊢
    obtain ⟨r', lib', hrecord, hdone, h'⟩ := h.shows_table.addPathAt_of_stored hadd h₁
    have hcount : min (l.paths.length + 1) (Word.limit - 1) = (l.paths ++ [path]).length := by
      have hbelow := hpack.count_below
      simp only [List.length_map, List.length_append, List.length_cons, List.length_nil]
        at hbelow ⊢
      omega
    have hlisting : Listing.record ⟨l.name, length, l.paths ++ [path]⟩ =
        ⟨l.record.label, min (l.paths.length + 1) (Word.limit - 1),
          (packed length ((l.paths ++ [path]).map Text.bytes)).encode⟩ := by
      rw [hcount]
      rfl
    obtain rfl := hrecord.trans hlisting.symm
    exact ⟨lib', hdone, h.of_recount ⟨l.name, length, l.paths ++ [path]⟩ rfl
      ⟨h.soundAt.named, h.soundAt.valid, hpack⟩ h'⟩
  · refine Or.inr ⟨l.length + j * settings.growthQuantum, ?_⟩
    have hlists := h.relength hpack h₁
    have hrefused := h.shows_table.addPathAt_of_refused hadd
    have hfull := StringTable.lt_of_growthSteps (Nat.lt_of_le_of_lt (Nat.zero_le j) hj)
    rcases host_refuses (fun h => ⟨_, _, _, rfl, h⟩) hrefuses with rfl | rfl
    · exact ⟨_, lib₁, hrefused, rfl, hfull, hlists⟩
    · exact ⟨_, lib₁, hrefused, rfl, hfull, hlists⟩

/-! Removing. -/

theorem removePathAt_ok (h : Lists settings fields (before ++ l :: after) lib) (path : String) :
    ∃ lib', removePathAt (placeAfter before) path lib = .ok (decide (path ∈ l.paths)) lib' ∧
      Lists settings fields (before ++ { l with paths := l.paths.erase path } :: after) lib' := by
  obtain ⟨t, ht, hparts⟩ := h.tableOf_eq
  by_cases hpath : path ∈ l.paths
  · obtain ⟨rest, hremove, hrest⟩ :=
      StringTable.remove_packed h.soundAt.packable hparts (Text.mem_map_bytes.2 hpath)
    have hpack := h.soundAt.packable.erase (Text.bytes path)
    have hlength : rest.parts.length
        = (packed l.length (l.paths.map Text.bytes)).encode.length := by
      rw [hrest, StringTable.Parts.length_encode, h.soundAt.packable.length_packed,
        hpack.length_packed]
    obtain ⟨r', lib', hrecord, hdone, h'⟩ :=
      h.shows_table.removePathAt_of_found ht hremove hlength
    rw [← Text.map_bytes_erase] at hrest hpack
    have hlisting : Listing.record { l with paths := l.paths.erase path } =
        ⟨l.record.label, l.paths.length - 1, rest.parts.encode⟩ := by
      rw [hrest, ← List.length_erase_of_mem hpath]
      rfl
    obtain rfl := hrecord.trans hlisting.symm
    refine ⟨lib', ?_, h.of_recount { l with paths := l.paths.erase path } rfl
      ⟨h.soundAt.named, h.soundAt.valid, hpack⟩ h'⟩
    rw [decide_eq_true hpath]
    exact hdone
  · have hremove := StringTable.remove_packed_absent h.soundAt.packable hparts
      (mt Text.mem_map_bytes.1 hpath)
    refine ⟨lib, ?_, ?_⟩
    · rw [decide_eq_false hpath, removePathAt_of_absent h.playlistAt_eq ht hremove]
    · rwa [List.erase_of_not_mem hpath]

end Lists
end MediaLibrary.LibraryFile
