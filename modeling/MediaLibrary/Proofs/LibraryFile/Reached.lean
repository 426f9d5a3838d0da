import Mathlib
import MediaLibrary.Proofs.LibraryFile.Exact
import MediaLibrary.Proofs.LibraryFile.Upkeep
/-! Libraries that come from a new file by being opened under any settings, changed by deeds whose
handles are current, and opened again. Each of their tables is packed, and its record counts the
strings in it. Of the media count nothing is known, since other settings may name another global
playlist. This is enough for every change to be done or refused, and for what it stores to fit. -/
namespace MediaLibrary

open StringTable (Packable packed)

structure Record.Packs (r : Record) (length : Nat) (strings : List Bytes) : Prop where
  packable : Packable length strings
  table : r.table = (packed length strings).encode
  counted : r.count = strings.length

namespace LibraryFile

/-- The library's body is these records, and each has its table packed. -/
structure Tidy (settings : Settings) (shelf : Shelf) (lib : LibraryFile) : Prop where
  stores : Stores settings shelf lib
  packs : ∀ r ∈ shelf.records, ∃ length strings, r.Packs length strings

abbrev Tidied (settings : Settings) (lib : LibraryFile) : Prop :=
  ∃ shelf, Tidy settings shelf lib

/-- A change comes to an end in a library that satisfies `P`: it is done or refused, and does not
fault. -/
def Ends {α : Type} (P : LibraryFile → Prop) :
    EStateM.Result (Failure LibraryError) LibraryFile α → Prop
  | .ok _ lib => P lib
  | .error (.refused _) lib => P lib
  | .error (.fault _) _ => False

namespace Ends

variable {α : Type} {P : LibraryFile → Prop}

theorem left {x : Update α} {lib : LibraryFile} (h : Ends P (x lib)) : P (Steps.left x lib) := by
  unfold Steps.left
  cases hx : x lib with
  | ok a lib' =>
    rw [hx] at h
    exact h
  | error e lib' =>
    rw [hx] at h
    cases e with
    | refused e => exact h
    | fault f => exact h.elim

end Ends

section Changes

variable {settings : Settings} {shelf : Shelf} {lib : LibraryFile} {before after : List Record}
  {r : Record}

namespace Tidy

theorem tidied (h : Tidy settings shelf lib) : Tidied settings lib := ⟨shelf, h⟩

theorem replace (h : Tidy settings shelf lib) (hsplit : shelf.records = before ++ r :: after)
    {other : Shelf} {r' : Record} {lib' : LibraryFile} (hstores : Stores settings other lib')
    (hrecords : other.records = before ++ r' :: after) {length : Nat} {strings : List Bytes}
    (hr' : r'.Packs length strings) : Tidied settings lib' := by
  have hpacks := h.packs
  rw [hsplit] at hpacks
  refine ⟨other, hstores, ?_⟩
  rw [hrecords]
  exact forall_replace hpacks ⟨length, strings, hr'⟩

theorem exists_table (h : Tidy settings shelf lib) (hsplit : shelf.records = before ++ r :: after) :
    ∃ length strings t, r.Packs length strings ∧ lib.tableOf (offsetAfter before) = .ok t ∧
      t.parts = packed length strings := by
  obtain ⟨length, strings, hr⟩ := h.packs r (by simp [hsplit])
  obtain ⟨t, ht, hparts⟩ := (h.stores.encloses hsplit).exists_tableOf hr.packable.sized hr.table
  exact ⟨length, strings, t, hr, ht, hparts⟩

theorem exists_of_handle (h : Tidy settings shelf lib) {playlists : List Playlist} {p : Playlist}
    (hplaylists : lib.playlists = .ok playlists) (hp : p ∈ playlists) :
    ∃ before r after, shelf.records = before ++ r :: after ∧ p.offset = offsetAfter before := by
  obtain ⟨before, r, after, hsplit, rfl⟩ := h.stores.exists_of_mem_playlists hplaylists hp
  exact ⟨before, r, after, hsplit, rfl⟩

theorem startPlaylist_ends (h : Tidy settings shelf lib) (hu : settings.Usable) (name : String) :
    Ends (Tidied settings) (startPlaylist name lib) := by
  cases hcheck : lib.checkNewName name with
  | error e =>
    have hrefused : startPlaylist name lib = .error e lib :=
      Steps.bind_error (Steps.consult_error hcheck)
    rw [checkNewName_of_find (h.stores.find_eq name)] at hcheck
    obtain ⟨refusal, -, rfl⟩ := Steps.ofCheck_eq_error_iff.1 hcheck
    rw [hrefused]
    exact h.tidied
  | ok =>
    rcases Nat.lt_or_ge (shelf.volume.length + (PlaylistHeader.size + settings.growthQuantum))
      Word.limit with hfits | hbig
    · have hname :=
        Nat.le_of_lt ((NameField.check_eq_ok_iff _ _).1 (check_of_checkNewName hcheck)).2
      obtain ⟨lib', hstart, hlib'⟩ := h.stores.keeps.startPlaylist_ok hu hcheck hfits
      have hempty : (newRecord (Text.bytes name) settings.growthQuantum).Packs
          settings.growthQuantum [] :=
        ⟨StringTable.packable_nil hu.quantum (by omega),
          (StringTable.encode_packed_nil hu.quantum).symm, rfl⟩
      rw [hstart]
      refine ⟨_, Stores.of_appended h.stores.sized hname hlib', ?_⟩
      exact List.forall_mem_append.2 ⟨h.packs, List.forall_mem_singleton.2 ⟨_, _, hempty⟩⟩
    · rw [h.stores.keeps.startPlaylist_refused hu hcheck hbig]
      exact h.tidied

theorem deletePlaylist_ends (h : Tidy settings shelf lib) (name : String) :
    Ends (Tidied settings) (deletePlaylist name lib) := by
  have hfind := h.stores.find_eq name
  cases hfound : (playlistsFrom LibraryHeader.size shelf.records).find?
    (·.name = Text.bytes name) with
  | none =>
    rw [hfound] at hfind
    have hnamed : lib.named name = .error (.refused (.playlistNotFound name)) :=
      Steps.query_ok hfind
    have hrefused : deletePlaylist name lib = .error (.refused (.playlistNotFound name)) lib :=
      Steps.bind_error (Steps.consult_error hnamed)
    rw [hrefused]
    exact h.tidied
  | some p =>
    rw [hfound] at hfind
    obtain ⟨before, r, after, hsplit, rfl, hname, -⟩ := h.stores.exists_of_find hfind
    have hnamed : lib.named name = .ok (r.playlist (offsetAfter before)) := Steps.query_ok hfind
    obtain ⟨lib', hdelete, hstores⟩ := h.stores.deletePlaylist_ok hsplit hname hnamed
    have hpacks := h.packs
    rw [hsplit] at hpacks
    rw [hdelete]
    exact ⟨_, hstores, forall_remove hpacks⟩

theorem add_cases (h : Tidy settings shelf lib) (hu : settings.Usable)
    (hsplit : shelf.records = before ++ r :: after) (path : String) :
    ∃ length strings lib', Packable length strings ∧
      Encloses settings shelf.volume (bodyOf before)
        { r with table := (packed length strings).encode } (bodyOf after) lib' ∧
      let added := StringTable.add (host (offsetAfter before))
        (offsetAfter before + PlaylistHeader.size) (Text.bytes path) settings.growthQuantum lib
      (added = .ok () lib' ∧ strings.length = r.count + 1 ∨
        ∃ e, added = .error (.refused e) lib' ∧ strings.length = r.count) := by
  obtain ⟨length, strings, -, hr, -, -⟩ := h.exists_table hsplit
  have hsame : { r with table := (packed length strings).encode } = r := by rw [← hr.table]
  have hshown : Encloses settings shelf.volume (bodyOf before)
      { r with table := (packed length strings).encode } (bodyOf after) lib := by
    rw [hsame]
    exact h.stores.encloses hsplit
  have hquantum : 0 < settings.growthQuantum := Nat.lt_of_lt_of_le (by decide) hu.quantum
  by_cases hnul : 0 ∈ Text.bytes path
  · exact ⟨length, strings, lib, hr.packable, hshown,
      Or.inr ⟨_, StringTable.add_of_nul hnul, hr.counted.symm⟩⟩
  by_cases hpath : Text.bytes path ∈ strings
  · have hadd := (encloses_carries _ _ _ _ _).add_present hr.packable hshown hquantum hpath
    exact ⟨length, strings, lib, hr.packable, hshown, Or.inr ⟨_, hadd, hr.counted.symm⟩⟩
  rcases (encloses_carries _ _ _ _ _).add_cases hr.packable hshown hquantum hpath hnul rfl with
    ⟨lib', hadd, h', hpack⟩ | ⟨j, -, e, lib', hadd, h', hpack, hrefuses⟩
  · refine ⟨_, _, lib', hpack, h', Or.inl ⟨hadd, ?_⟩⟩
    rw [List.length_append, hr.counted]
    rfl
  · rcases host_refuses (fun h => ⟨_, _, _, rfl, h⟩) hrefuses with rfl | rfl
    · exact ⟨_, strings, lib', hpack, h', Or.inr ⟨_, hadd, hr.counted.symm⟩⟩
    · exact ⟨_, strings, lib', hpack, h', Or.inr ⟨_, hadd, hr.counted.symm⟩⟩

theorem addPathAt_ends (h : Tidy settings shelf lib) (hu : settings.Usable)
    (hsplit : shelf.records = before ++ r :: after) (path : String) :
    Ends (Tidied settings) (addPathAt (offsetAfter before) path lib) := by
  have hencloses := h.stores.encloses hsplit
  obtain ⟨length, strings, lib', hpack, h', ⟨hadd, hcount⟩ | ⟨e, hadd, hcount⟩⟩ :=
    h.add_cases hu hsplit path
  · obtain ⟨r', lib'', hrecord, hdone, h''⟩ := hencloses.addPathAt_of_stored hadd h'
    have hr' : r'.Packs length strings := by
      subst hrecord
      have hbelow := hpack.count_below
      exact ⟨hpack, rfl, show min (r.count + 1) (Word.limit - 1) = strings.length by omega⟩
    rw [offsetAfter, hdone]
    exact h.replace hsplit (Stores.withRecord h.stores.sized hsplit h'') rfl hr'
  · rw [offsetAfter, hencloses.addPathAt_of_refused hadd]
    exact h.replace hsplit (Stores.of_encloses h.stores.sized hsplit h') rfl
      ⟨hpack, rfl, hcount.symm⟩

theorem removePathAt_ends (h : Tidy settings shelf lib)
    (hsplit : shelf.records = before ++ r :: after) (path : String) :
    Ends (Tidied settings) (removePathAt (offsetAfter before) path lib) := by
  obtain ⟨length, strings, t, hr, ht, hparts⟩ := h.exists_table hsplit
  by_cases hpath : Text.bytes path ∈ strings
  · obtain ⟨rest, hremove, hrest⟩ := StringTable.remove_packed hr.packable hparts hpath
    have hpack := hr.packable.erase (Text.bytes path)
    have hlength : rest.parts.length = r.table.length := by
      rw [hrest, hr.table, StringTable.Parts.length_encode, hr.packable.length_packed,
        hpack.length_packed]
    obtain ⟨r', lib', hrecord, hdone, h'⟩ :=
      (h.stores.encloses hsplit).removePathAt_of_found ht hremove hlength
    have hr' : r'.Packs length (strings.erase (Text.bytes path)) := by
      subst hrecord
      refine ⟨hpack, congrArg StringTable.Parts.encode hrest, ?_⟩
      rw [List.length_erase_of_mem hpath, ← hr.counted]
    rw [offsetAfter, hdone]
    exact h.replace hsplit (Stores.withRecord h.stores.sized hsplit h') rfl hr'
  · have hremove := StringTable.remove_packed_absent hr.packable hparts hpath
    rw [removePathAt_of_absent (h.stores.playlistAt_eq hsplit) ht hremove]
    exact h.tidied

/-- One deed leaves a tidy library tidy, whatever came of it. -/
theorem run (h : Tidy settings shelf lib) (hu : settings.Usable) {d : Deed}
    (hcurrent : d.Current lib) : Tidied settings (d.run lib) := by
  cases d with
  | start name => exact (h.startPlaylist_ends hu name).left
  | delete name => exact (h.deletePlaylist_ends name).left
  | add handle path =>
    obtain ⟨playlists, p, hplaylists, hp, rfl⟩ := hcurrent handle rfl
    obtain ⟨before, r, after, hsplit, hoffset⟩ := h.exists_of_handle hplaylists hp
    rw [hoffset]
    exact (h.addPathAt_ends hu hsplit path).left
  | remove handle path =>
    obtain ⟨playlists, p, hplaylists, hp, rfl⟩ := hcurrent handle rfl
    obtain ⟨before, r, after, hsplit, hoffset⟩ := h.exists_of_handle hplaylists hp
    rw [hoffset]
    exact (h.removePathAt_ends hsplit path).left

/-! The changes with the checks. -/

end Tidy

theorem tidied_of_blank {title mediaPrefix : String} {contents : Image}
    (h : blank title mediaPrefix = .ok contents) {file : String} {lib : LibraryFile}
    (hopen : ofContents file settings contents = .ok lib) : Tidied settings lib := by
  have hlists := lists_of_blank h settings file
  obtain rfl := Except.ok.inj (hlists.stores.keeps.ofContents_eq.symm.trans hopen)
  exact ⟨_, hlists.stores, fun r hr => (List.not_mem_nil hr).elim⟩

theorem Tidy.reopen (h : Tidy settings shelf lib) {other : Settings} {file : String}
    {lib' : LibraryFile} (hopen : ofContents file other lib.contents = .ok lib') :
    Tidied other lib' := by
  obtain ⟨hcontents, v, hkeeps⟩ := keeps_of_ofContents hopen
  have hbytes : v.encode = shelf.volume.encode := by
    rw [← hkeeps.holding.contents_eq, hcontents, h.stores.keeps.holding.contents_eq]
  have hholding := hkeeps.holding
  rw [hbytes] at hholding
  exact ⟨shelf, ⟨⟨hholding, h.stores.keeps.sized⟩, h.stores.sized⟩, h.packs⟩

end Changes

/-- A new file is opened, and the library is changed any number of times by deeds that use current
handles, and opened again. All settings are valid, and the length of a new record is an address. -/
inductive Reached : LibraryFile → Prop
  | created {title mediaPrefix file : String} {contents : Image} {settings : Settings}
      {lib : LibraryFile} : blank title mediaPrefix = .ok contents →
      settings.validate = .ok () → settings.growthQuantum + 128 < 2 ^ 64 →
      ofContents file settings contents = .ok lib → Reached lib
  | changed {lib : LibraryFile} {d : Deed} : Reached lib → d.Current lib → Reached (d.run lib)
  | reopened {file : String} {settings : Settings} {lib lib' : LibraryFile} : Reached lib →
      settings.validate = .ok () → settings.growthQuantum + 128 < 2 ^ 64 →
      ofContents file settings lib.contents = .ok lib' → Reached lib'

theorem Reached.tidied {lib : LibraryFile} (h : Reached lib) :
    ∃ settings, settings.Usable ∧ Tidied settings lib := by
  induction h with
  | created hblank hvalid hquantum hopen =>
    exact ⟨_, Settings.usable_of_validate hvalid hquantum, tidied_of_blank hblank hopen⟩
  | changed _ hcurrent ih =>
    obtain ⟨settings, hu, shelf, htidy⟩ := ih
    exact ⟨settings, hu, htidy.run hu hcurrent⟩
  | reopened _ hvalid hquantum hopen ih =>
    obtain ⟨settings, -, shelf, htidy⟩ := ih
    exact ⟨_, Settings.usable_of_validate hvalid hquantum, htidy.reopen hopen⟩

end LibraryFile
end MediaLibrary
