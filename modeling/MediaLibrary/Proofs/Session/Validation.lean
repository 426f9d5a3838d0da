import MediaLibrary.Proofs.LibraryFile.Lifecycle
import MediaLibrary.Proofs.Session.Creation
/-! What valid settings are good for. Settings are checked when a library is opened, and the name of a
playlist when it is started; the two checks accept the same names. So the global playlist of valid
settings can be started in a new library. Only the growth step, which has no upper bound, can be too
large for that, and then the library refuses. -/
namespace MediaLibrary

open LibraryFile

/-- No settings with this global playlist are valid. -/
def Settings.Rejects (name : String) : Prop :=
  ∀ settings : Settings, settings.globalPlaylist = name → settings.validate ≠ .ok ()

/-- The names that no valid settings have are those that no playlist can have. -/
theorem Settings.rejects_iff {name : String} : Rejects name ↔ newName [] name ≠ .ok () := by
  constructor
  · intro h hname
    have hquantum : StringTable.headerSize ≤ Settings.default.growthQuantum := by decide
    exact h { Settings.default with globalPlaylist := name } rfl
      (validate_eq_ok_iff.2 ⟨hquantum, hname⟩)
  · rintro h settings rfl hvalid
    exact h (validate_eq_ok_iff.1 hvalid).2

namespace LibraryFile

theorem kind_of_newName {names : List String} {name : String} {e : LibraryError}
    (h : newName names name = .error e) : e.kind = .validation := by
  unfold newName at h
  split at h
  · obtain rfl := Except.error.inj h
    rfl
  split at h
  · obtain rfl := Except.error.inj h
    rfl
  split at h
  · obtain rfl := Except.error.inj h
    rfl
  split at h
  · obtain rfl := Except.error.inj h
    rfl
  · cases h

theorem startPlaylist_rejected {lib : LibraryFile} {audit : Audit} (h : lib.verify = .ok audit)
    {name : String} (hname : newName [] name ≠ .ok ()) :
    ∃ e, startPlaylist name lib = .error (.refused e) lib ∧ e.kind = .validation := by
  obtain ⟨shelf, hpasses⟩ := exists_passes_of_verify h
  have hcheck : lib.checkNewName name = _ := checkNewName_of_find (hpasses.stores.find_eq name)
  obtain ⟨e, hrefused, hkind⟩ : ∃ e, lib.checkNewName name = refuse e ∧ e.kind = .validation := by
    rw [hcheck]
    split
    · exact ⟨_, rfl, rfl⟩
    · cases hnew : newName [] name with
      | ok => exact absurd hnew hname
      | error e => exact ⟨e, rfl, kind_of_newName hnew⟩
  exact ⟨e, Steps.bind_error (Steps.consult_error hrefused), hkind⟩

end LibraryFile

/-- The record of the global playlist, if it is the first of a library and has no paths. -/
def Settings.firstRecord (settings : Settings) : Playlist where
  offset := 1024
  length := 128 + settings.growthQuantum
  count := 0
  name := Text.bytes settings.globalPlaylist

/-- The library holds the global playlist and nothing else, and is sound. -/
structure LibraryFile.StartedGlobal (settings : Settings) (lib : LibraryFile) : Prop where
  listed : lib.playlists = .ok [settings.firstRecord]
  record : lib.playlistAt 1024 = .ok settings.firstRecord
  named : lib.named settings.globalPlaylist = .ok settings.firstRecord
  info : settings.firstRecord.info
    = ⟨settings.globalPlaylist, 0, 128 + settings.growthQuantum⟩
  sound : lib.verify = .ok ⟨1024 + (128 + settings.growthQuantum), 1, 0⟩

theorem LibraryFile.Lists.startedGlobal {settings : Settings} {fields : Bytes} {lib : LibraryFile}
    (h : Lists settings fields [⟨settings.globalPlaylist, settings.growthQuantum, []⟩] lib) :
    StartedGlobal settings lib := by
  have hfirst : Lists settings fields
      ([] ++ ⟨settings.globalPlaylist, settings.growthQuantum, []⟩ :: []) lib := h
  have hsound : Listing.Sound ⟨settings.globalPlaylist, settings.growthQuantum, []⟩ :=
    h.sound _ List.mem_cons_self
  have hrecord : Record.playlist
      (Listing.record ⟨settings.globalPlaylist, settings.growthQuantum, []⟩) 1024
      = settings.firstRecord := by
    rw [Record.playlist, hsound.record_length, hsound.record_name]
    rfl
  have hplace : placeAfter [⟨settings.globalPlaylist, settings.growthQuantum, []⟩]
      = 1024 + (128 + settings.growthQuantum) := by
    rw [placeAfter, offsetAfter, length_bodyOf h.sound]
    rfl
  constructor
  · rw [← hrecord]
    exact h.stores.playlists_eq
  · rw [← hrecord]
    exact hfirst.playlistAt_eq
  · rw [← hrecord]
    exact hfirst.named_present
  · rw [← hrecord, hsound.info_playlist]
    rfl
  · rw [h.verify_eq, hplace]
    rfl

/-- What starting the global playlist in an open library comes to: it is started if the library stays
below 4 GiB with it; and if not, that is refused and the file stays as it was. -/
structure Mapping.StartsGlobal (m : Mapping) (disk : Disk) (settings : Settings) : Prop where
  started : 1024 + (128 + settings.growthQuantum) < 2 ^ 32 → ∃ m' after,
    m.change disk (startPlaylist settings.globalPlaylist) = (.ok 1024, m', after) ∧
    StartedGlobal settings (m'.library after)
  refused : 2 ^ 32 ≤ 1024 + (128 + settings.growthQuantum) →
    128 + settings.growthQuantum < 2 ^ 64 →
    m.change disk (startPlaylist settings.globalPlaylist) = (.error (.refused .tooLarge), m, disk)

theorem Mapping.startsGlobal {settings : Settings} (hvalid : settings.validate = .ok ())
    {m : Mapping} {disk : Disk} (hfile : m.file < disk.files.length) {fields : Bytes}
    (h : Lists settings fields [] (m.library disk)) : m.StartsGlobal disk settings := by
  have hname : newName (([] : List Listing).map Listing.name) settings.globalPlaylist = .ok () :=
    (Settings.validate_eq_ok_iff.1 hvalid).2
  have hsettings : m.settings = settings := h.stores.keeps.holding.settings_eq
  constructor
  · intro hsmall
    have hu := Settings.usable_of_validate hvalid (by omega)
    rcases h.startPlaylist_cases hu hname with ⟨lib, hstart, hlists⟩ | ⟨hbig, -⟩
    · refine ⟨_, _, change_ok hstart, Lists.startedGlobal (hlists.congr ?_ ?_ ?_ ?_)⟩
      · exact hsettings.trans hlists.stores.keeps.holding.settings_eq.symm
      · exact Disk.contents_setContents hfile
      · rfl
      · exact hlists.stores.keeps.holding.calm.symm
    · exact absurd hsmall (Nat.not_lt.2 hbig)
  · intro hbig haddress
    have hu := Settings.usable_of_validate hvalid (by omega)
    have hcheck : (m.library disk).checkNewName settings.globalPlaylist = .ok () := by
      rw [h.checkNewName_eq, hname]
      rfl
    have hrefused := h.stores.keeps.startPlaylist_refused hu hcheck hbig
    have hsame : disk.setContents m.file (m.library disk).contents = disk :=
      Disk.setContents_self disk m.file
    rw [change_error hrefused, hsame]
    rfl

/-- Settings that are valid let the global playlist be started in every library that was just made, as
far as there is room for its record; and a name that they cannot have is refused by every sound
library, whatever its own settings are. -/
theorem startPlaylist_of_validate :
    (∀ settings : Settings, settings.validate = .ok () →
      ∀ (disk made : Disk) (path title mediaPrefix : String) (answers : Answers),
        Disk.makeLibrary path title mediaPrefix answers disk = .ok () made →
        ∃ m, made.openLibrary path settings = .ok m ∧ m.StartsGlobal made settings) ∧
    (∀ name, Settings.Rejects name → ∀ (lib : LibraryFile) (audit : Audit), lib.verify = .ok audit →
      ∃ e, startPlaylist name lib = .error (.refused e) lib ∧ e.kind = .validation) := by
  constructor
  · intro settings hvalid disk made path title mediaPrefix answers hmade
    obtain ⟨m, hopen, hfile, -, hlists⟩ := Disk.opened_of_makeLibrary hmade hvalid
    exact ⟨m, hopen, Mapping.startsGlobal hvalid hfile hlists⟩
  · intro name hrejects lib audit hverify
    exact startPlaylist_rejected hverify (Settings.rejects_iff.1 hrejects)

theorem exists_made : ∃ made, Disk.makeLibrary "t.lib" "n" "/p" {} .empty = .ok () made :=
  Disk.exists_makeLibrary_iff.2 ⟨⟨⟨⟨["session", "tmp"], "t.lib"⟩, rfl, by decide⟩, rfl, by decide,
    by decide⟩, Answers.allowMaking_empty⟩

/-- The largest growth step with which the global playlist can be started, and a name that is
refused in the library that was made for it. -/
theorem startPlaylist_of_validate_largest :
    let settings := { Settings.default with growthQuantum := 4294966143 }
    settings.validate = .ok () ∧ Settings.Rejects "" ∧
    ∃ made m m' after, Disk.makeLibrary "t.lib" "n" "/p" {} .empty = .ok () made ∧
      made.openLibrary "t.lib" settings = .ok m ∧
      m.change made (startPlaylist settings.globalPlaylist) = (.ok 1024, m', after) ∧
      StartedGlobal settings (m'.library after) ∧
      ∃ e, startPlaylist "" (m'.library after) = .error (.refused e) (m'.library after) := by
  intro settings
  have hvalid : settings.validate = .ok () := rfl
  have hrejects : Settings.Rejects "" := Settings.rejects_iff.2 (by decide)
  obtain ⟨made, hmade⟩ := exists_made
  obtain ⟨m, hopen, hstarts⟩ :=
    startPlaylist_of_validate.1 settings hvalid .empty made "t.lib" "n" "/p" {} hmade
  obtain ⟨m', after, hchange, hstarted⟩ := hstarts.started (by decide)
  obtain ⟨e, hrefused, -⟩ := startPlaylist_of_validate.2 "" hrejects _ _ hstarted.sound
  exact ⟨hvalid, hrejects, made, m, m', after, hmade, hopen, hchange, hstarted, e, hrefused⟩

/-- One byte more is valid too, but then the library would be too large. -/
theorem startPlaylist_tooLarge :
    let settings := { Settings.default with growthQuantum := 4294966144 }
    settings.validate = .ok () ∧
    ∃ made m, Disk.makeLibrary "t.lib" "n" "/p" {} .empty = .ok () made ∧
      made.openLibrary "t.lib" settings = .ok m ∧
      m.change made (startPlaylist settings.globalPlaylist)
        = (.error (.refused .tooLarge), m, made) := by
  intro settings
  have hvalid : settings.validate = .ok () := rfl
  obtain ⟨made, hmade⟩ := exists_made
  obtain ⟨m, hopen, hfile, -, hlists⟩ := Disk.opened_of_makeLibrary hmade hvalid
  exact ⟨hvalid, made, m, hmade, hopen,
    (Mapping.startsGlobal hvalid hfile hlists).refused (by decide) (by decide)⟩

end MediaLibrary
