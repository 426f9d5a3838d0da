import MediaLibrary.Proofs.Session.GlobalPlaylist
/-! Opening a library under other settings than those it was used under. The media count in the file
is the number of paths in the global playlist of the old settings, and opening leaves it as it is. If
the global playlist of the new settings has as many paths, the library is served as if it had always
been used under them; otherwise the full check finds it miscounted. -/
namespace MediaLibrary

open LibraryFile

namespace LibraryFile

variable {settings : Settings} {fields : Bytes} {listings : List Listing} {lib : LibraryFile}

/-- The same file and mapping, looked at under other settings. -/
def under (other : Settings) (lib : LibraryFile) : LibraryFile := { lib with settings := other }

theorem Lists.stores_under (h : Lists settings fields listings lib) (other : Settings) :
    Stores other (shelfOf settings.globalPlaylist fields listings) (lib.under other) where
  keeps := ⟨⟨rfl, h.stores.keeps.holding.contents_eq, h.stores.keeps.holding.mapped_eq,
    h.stores.keeps.holding.calm⟩, h.stores.keeps.sized⟩
  sized := h.stores.sized

/-- The full check compares the count of the old global playlist with that of the new one. -/
theorem Lists.verify_under (h : Lists settings fields listings lib) (other : Settings) :
    (lib.under other).verify =
      if globalCount settings.globalPlaylist listings = globalCount other.globalPlaylist listings then
        .ok ⟨placeAfter listings, listings.length, (listings.map (·.paths.length)).sum⟩
      else refuse (.corrupt (.mediaMiscounted (globalCount settings.globalPlaylist listings)
        other.globalPlaylist)) := by
  rw [(h.stores_under other).verify_eq h.passes.holds h.passes.distinct, shelfOf,
    countIn_record h.sound, List.length_map, List.map_map]
  rfl

theorem Lists.under_of_agree (h : Lists settings fields listings lib) {other : Settings}
    (hagree : globalCount settings.globalPlaylist listings
      = globalCount other.globalPlaylist listings) :
    Lists other fields listings (lib.under other) where
  stores := by
    have hstores := h.stores_under other
    rw [shelfOf, hagree] at hstores
    exact hstores
  sound := h.sound
  distinct := h.distinct

end LibraryFile

namespace Desk

/-- The full check finds the library sound, and the media count is the number of paths in the global
playlist that the settings name. -/
def Checks (settings : Settings) (d : Desk) : Prop :=
  ∃ audit paths, d.Answers verify audit ∧ d.pathSet? settings.globalPlaylist = some paths ∧
    d.Answers LibraryFile.mediaCount paths.card

end Desk

section Reopen

variable {path : String} {settings other : Settings} {fields : Bytes} {file : Nat} {isOpen : Bool}
  {listings : List Listing} {d : Desk}

theorem Serves.checks (h : Serves path settings fields file true listings d) :
    d.Checks settings := by
  have hcount := h.shows.mediaCount
  rw [← Inventory.card_pathsOf] at hcount
  exact ⟨_, _, h.ask_ok h.lists.verify_eq, h.shows.pathSet?_eq _, hcount⟩

theorem pathSet?_under {lib : LibraryFile} (h : Lists settings fields listings lib)
    {mapping : Mapping} (hs : d.session.state d.handle = .opened mapping)
    (hlib : mapping.library d.session.disk = lib.under other) (playlist : String) :
    d.pathSet? playlist = some ((inventoryOf listings).pathsOf playlist) := by
  unfold Inventory.pathsOf
  cases hlookup : (inventoryOf listings).lookup playlist with
  | none =>
    have hnew := not_mem_of_lookup hlookup h.distinct
    have hmissing : pathsIn (lib.under other) playlist
        = .error (.refused (.playlistNotFound playlist)) := Steps.query_error (h.named_absent hnew)
    have hpaths : d.Refuses (pathsIn · playlist) (.playlistNotFound playlist) :=
      Session.ask_of_refused hs (hlib ▸ hmissing)
    rw [Desk.pathSet?, Desk.pathsOf_refusal hpaths]
    rfl
  | some paths =>
    obtain ⟨before, l, after, rfl, rfl, rfl⟩ := exists_listing h.distinct hlookup
    have hpresent : pathsIn (lib.under other) l.name = .ok (Text.ascending l.paths) := h.pathsIn_eq
    have hpaths : d.Answers (pathsIn · l.name) (Text.ascending l.paths) :=
      Session.ask_of_ok hs (hlib ▸ hpresent)
    rw [Desk.pathSet?, Desk.pathsOf_answer hpaths]
    exact congrArg some (List.toFinset_eq_of_perm _ _ (Text.ascending_perm l.paths))

/-- Wherever the file is found and the name is free, the library can be opened under any settings
that are valid. It is served under them if the numbers of paths agree. -/
theorem Serves.openWith_other (h : Serves path settings fields file isOpen listings d)
    (hvalid : other.validate = .ok ()) {s : Session} (hdisk : s.disk = d.session.disk)
    (hfree : s.roster.contains (nameIn fields) = false) :
    ∃ handle opened, Session.openWith path other s = .ok handle opened ∧
      opened.disk = s.disk ∧
      opened.state handle
        = .opened ⟨path, other, file, some (d.session.disk.contents file).size⟩ ∧
      (globalCount settings.globalPlaylist listings = globalCount other.globalPlaylist listings →
        Serves path other fields file true listings ⟨opened, handle⟩) := by
  have hfound : s.disk.find path = .ok file := by
    rw [hdisk]
    exact h.found
  have hnumbered : file < s.disk.files.length := by
    rw [hdisk]
    exact h.numbered
  have hlib : Desk.library ⟨s, 0⟩ path other file = (d.library path settings file).under other := by
    simp only [Desk.library, under, hdisk]
  have hstores := h.lists.stores_under other
  rw [← hlib] at hstores
  have hopen := openWith_eq hvalid hfound hstores.keeps
  rw [fields_shelfOf, if_neg (by simp [hfree])] at hopen
  refine ⟨_, _, hopen, rfl, ?_, ?_⟩
  · rw [← hdisk]
    exact s.state_enrolled_self _ fields
  · intro hagree
    exact serves_of_open hfound hnumbered (hlib ▸ h.lists.under_of_agree hagree) hfree

end Reopen

section Reached

variable {path title mediaPrefix : String} {settings other : Settings}
  {before made opened s : Session} {handle : Handle}

/-- A library that was used under some settings can be opened under others wherever its name is
free. Its media count is that of the old global playlist, so that the full check finds it sound if
the new one has as many paths and miscounted if not. If it is sound, no commands make it unsound. -/
theorem reopened_of_runAll
    (hcreate : Session.create path title mediaPrefix before = .ok () made)
    (hopen : Session.openWith path settings made = .ok handle opened)
    (hquantum : settings.growthQuantum + 128 < 2 ^ 64) (commands : List Command) {d : Desk}
    (hd : (Command.runAll path settings ⟨opened, handle⟩ commands).2 = d)
    (hvalid : other.validate = .ok ()) (hother : other.growthQuantum + 128 < 2 ^ 64)
    (hdisk : s.disk = d.session.disk) (hfree : s.roster.contains title = false) :
    ∃ again reopened had has, Session.openWith path other s = .ok again reopened ∧
      let d' : Desk := ⟨reopened, again⟩
      d'.pathSet? settings.globalPlaylist = some had ∧
      d'.pathSet? other.globalPlaylist = some has ∧
      d'.Answers LibraryFile.mediaCount had.card ∧
      (had.card ≠ has.card → d'.Refuses verify
        (.corrupt (.mediaMiscounted had.card other.globalPlaylist))) ∧
      (had.card = has.card → ∀ more : List Command,
        let d'' := (Command.runAll path other d' more).2
        if more.foldl Command.leavesOpen true then d''.Checks other
        else d''.session.state d''.handle = .closed) := by
  obtain ⟨-, hname, -⟩ := serves_of_create hcreate hopen
  obtain ⟨-, file, listings, hserves⟩ := serves_of_runAll hcreate hopen hquantum commands
  rw [hd] at hserves
  have hlists := hserves.lists
  have hfree' : s.roster.contains (nameIn (newFields title mediaPrefix)) = false := by rwa [hname]
  obtain ⟨again, reopened, hreopen, hsame, hstate, hagree⟩ :=
    hserves.openWith_other hvalid hdisk hfree'
  have hlib : Mapping.library ⟨path, other, file, some (d.session.disk.contents file).size⟩
      reopened.disk = (d.library path settings file).under other := by
    simp only [Mapping.library, Desk.library, under, hsame, hdisk]
  have hcounts (playlist : String) : ((inventoryOf listings).pathsOf playlist).card
      = globalCount playlist listings := by
    rw [Inventory.card_pathsOf, ← globalCount_eq_lookup hlists.sound hlists.distinct]
  refine ⟨again, reopened, _, _, hreopen, pathSet?_under hlists hstate hlib _,
    pathSet?_under hlists hstate hlib _, ?_, ?_, ?_⟩
  · rw [hcounts]
    exact Session.ask_of_ok hstate (hlib ▸ hlists.mediaCount_eq)
  · intro hne
    rw [hcounts, hcounts] at hne
    have hverify := hlists.verify_under other
    rw [if_neg hne] at hverify
    rw [hcounts]
    exact Session.ask_of_refused hstate (hlib ▸ hverify)
  · intro heq more
    rw [hcounts, hcounts] at heq
    have hu := Settings.usable_of_validate hvalid hother
    obtain ⟨listings', hfinal⟩ := (hagree heq).runAll hu hvalid more
    split
    · rename_i hleft
      rw [hleft] at hfinal
      exact hfinal.checks
    · rename_i hleft
      rw [Bool.not_eq_true] at hleft
      rw [hleft] at hfinal
      exact hfinal.state

/-- The same global playlist and another quantum. -/
theorem reopened_of_runAll_growing : ∃ made handle opened again reopened,
    Session.create "a" "music" "/m" .empty = .ok () made ∧
    Session.openWith "a" .default made = .ok handle opened ∧
    Session.openWith "a" { Settings.default with growthQuantum := 64 }
      ⟨opened.disk, [], .empty⟩ = .ok again reopened ∧
    (Command.runAll "a" { Settings.default with growthQuantum := 64 } ⟨reopened, again⟩
      [.start "x", .add "x" "p"]).2.Checks { Settings.default with growthQuantum := 64 } := by
  obtain ⟨made, handle, opened, hcreate, hopen⟩ := exists_fresh
  have hvalid : Settings.validate { Settings.default with growthQuantum := 64 } = .ok () := rfl
  have hdisk : (Session.mk opened.disk [] .empty).disk
      = (Command.runAll "a" .default ⟨opened, handle⟩ []).2.session.disk := rfl
  obtain ⟨again, reopened, had, has, hreopen, hhad, hhas, -, -, hchecks⟩ :=
    reopened_of_runAll hcreate hopen (by decide) [] rfl hvalid (by decide) hdisk rfl
  obtain rfl := Option.some.inj (hhad.symm.trans hhas)
  exact ⟨made, handle, opened, again, reopened, hcreate, hopen, hreopen,
    hchecks rfl [.start "x", .add "x" "p"]⟩

/-- One path in the old global playlist, and no playlist of the new name. -/
theorem reopened_miscounted : ∃ made handle opened d again reopened,
    Session.create "a" "music" "/m" .empty = .ok () made ∧
    Session.openWith "a" .default made = .ok handle opened ∧
    Command.runAll "a" .default ⟨opened, handle⟩ [.start ".global", .add ".global" "p", .close]
      = ([.ok .done, .ok .done, .ok .done], d) ∧
    Session.openWith "a" { Settings.default with globalPlaylist := "other" } d.session
      = .ok again reopened ∧
    Session.ask again verify reopened
      = .error (.refused (.corrupt (.mediaMiscounted 1 "other"))) reopened := by
  obtain ⟨made, handle, opened, first, second, file, length, hcreate, hopen, hfirst, hsecond,
    hserves⟩ := exists_added
  obtain ⟨session, hclose, hclosed⟩ := hserves.close_ok
  have hthird : Command.run "a" .default second .close
      = (.ok .done, { second with session }) := by
    rw [Command.run_close, Desk.act, hclose]
  have hvalid : Settings.validate { Settings.default with globalPlaylist := "other" } = .ok () :=
    rfl
  obtain ⟨again, reopened, hreopen, hsame, hstate, -⟩ :=
    hclosed.openWith_other hvalid rfl hclosed.entered
  have hverify := hclosed.lists.verify_under { Settings.default with globalPlaylist := "other" }
  refine ⟨made, handle, opened, _, again, reopened, hcreate, hopen, ?_, hreopen, ?_⟩
  · simp only [Command.runAll, Desk.runAll, hfirst, hsecond, hthird]
  · refine Session.ask_of_refused hstate (Eq.trans ?_ hverify)
    simp only [Mapping.library, Desk.library, under, hsame]

end Reached
end MediaLibrary
