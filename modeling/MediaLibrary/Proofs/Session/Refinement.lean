import MediaLibrary.Proofs.Session.Calls
/-! The answers of an open library are those that its inventory gives. Together with the outcomes of
commands this makes the inventory all that there is to know about a library while there is space:
nothing shows where records lie, how long tables are, or what once was in them. -/
namespace MediaLibrary

open LibraryFile

/-- The library at hand answers a question so, and nothing changes. -/
def Desk.Answers {α : Type} (d : Desk) (question : LibraryFile → Query α) (answer : α) : Prop :=
  Session.ask d.handle question d.session = .ok answer d.session

def Desk.Refuses {α : Type} (d : Desk) (question : LibraryFile → Query α) (e : LibraryError) :
    Prop :=
  Session.ask d.handle question d.session = .error (.refused e) d.session

/-- The library at hand answers as a library with these playlists should. -/
structure Shows (settings : Settings) (i : Inventory) (d : Desk) : Prop where
  playlists : ∃ playlists, d.Answers LibraryFile.playlists playlists ∧
    (playlists.map Playlist.info).map (fun info => (info.name, info.count))
      = i.map fun p => (p.1, p.2.card)
  mediaCount : d.Answers LibraryFile.mediaCount
    (((i.lookup settings.globalPlaylist).map Finset.card).getD 0)
  missing : ∀ playlist, i.lookup playlist = none → d.Answers (find · playlist) none ∧
    d.Refuses (pathsIn · playlist) (.playlistNotFound playlist) ∧
    (∀ path, d.Refuses (findPathIn · playlist path) (.playlistNotFound playlist)) ∧
    ∀ n, d.Refuses (pathIn · playlist n) (.playlistNotFound playlist)
  present : ∀ playlist paths, i.lookup playlist = some paths → ∃ p texts,
    d.Answers (find · playlist) (some p) ∧ p.info.name = playlist ∧ p.info.count = paths.card ∧
    texts.toFinset = paths ∧ Bytes.Ascending (texts.map Text.bytes) ∧
    d.Answers (pathsIn · playlist) texts ∧
    (∀ path, d.Answers (findPathIn · playlist path) (texts.idxOf? path)) ∧
    ∀ n, d.Answers (pathIn · playlist n) texts[n]?

theorem globalCount_eq_lookup {globalPlaylist : String} {listings : List Listing}
    (h : ∀ l ∈ listings, l.Sound) (hd : (listings.map Listing.name).Nodup) :
    globalCount globalPlaylist listings
      = (((inventoryOf listings).lookup globalPlaylist).map Finset.card).getD 0 := by
  cases hlookup : (inventoryOf listings).lookup globalPlaylist with
  | none => exact globalCount_of_absent (not_mem_of_lookup hlookup hd)
  | some paths =>
    obtain ⟨before, l, after, rfl, hname, rfl⟩ := exists_listing hd hlookup
    rw [globalCount_split hd, if_pos hname]
    exact (List.toFinset_card_of_nodup (h l (by simp)).nodup).symm

section Answers

variable {path : String} {settings : Settings} {fields : Bytes} {file : Nat}
  {listings : List Listing} {d : Desk}

theorem Serves.shows (h : Serves path settings fields file true listings d) :
    Shows settings (inventoryOf listings) d where
  playlists := by
    obtain ⟨playlists, hplaylists, hinfos⟩ := h.lists.playlists_eq
    refine ⟨playlists, h.ask_ok hplaylists, ?_⟩
    rw [hinfos, inventoryOf, List.map_map, List.map_map]
    apply List.map_congr_left
    intro l hl
    exact congrArg (l.name, ·) (List.toFinset_card_of_nodup (h.lists.sound l hl).nodup).symm
  mediaCount := by
    rw [← globalCount_eq_lookup h.lists.sound h.lists.distinct]
    exact h.ask_ok h.lists.mediaCount_eq
  missing := by
    intro playlist hlookup
    have hnew := not_mem_of_lookup hlookup h.lists.distinct
    have hnamed := h.lists.named_absent hnew
    exact ⟨h.ask_ok (h.lists.find_absent hnew), h.ask_refused (Steps.query_error hnamed),
      fun path => h.ask_refused (Steps.query_error hnamed),
      fun n => h.ask_refused (Steps.query_error hnamed)⟩
  present := by
    intro playlist paths hlookup
    obtain ⟨before, l, after, rfl, rfl, rfl⟩ := exists_listing h.lists.distinct hlookup
    have hsound := h.lists.soundAt
    have hperm := Text.ascending_perm l.paths
    refine ⟨_, Text.ascending l.paths, h.ask_ok h.lists.find_present, ?_, ?_, ?_, ?_,
      h.ask_ok h.lists.pathsIn_eq, fun path => h.ask_ok (h.lists.findPathIn_eq path),
      fun n => h.ask_ok (h.lists.pathIn_eq n)⟩
    · rw [hsound.info_playlist]
    · rw [hsound.info_playlist]
      exact (List.toFinset_card_of_nodup hsound.nodup).symm
    · exact List.toFinset_eq_of_perm _ _ hperm
    · exact Text.ascending_ascending hsound.nodup

end Answers

section Reached

variable {path title mediaPrefix : String} {settings : Settings} {before made opened : Session}
  {handle : Handle}

/-- While there is space and the system refuses nothing, a library that was made and opened does to
every command what it should, and shows the playlists that it should. -/
theorem runAll_refines (hcreate : Session.create path title mediaPrefix before = .ok () made)
    (hopen : Session.openWith path settings made = .ok handle opened)
    (hquantum : settings.growthQuantum + 128 < 2 ^ 64) (calls : List Call)
    (hspace : ∀ outcome ∈ (Call.runAll path settings ⟨opened, handle⟩ calls).1,
      outcome.lacksSpace = false) :
    let (outcomes, d) := Call.runAll path settings ⟨opened, handle⟩ calls
    let (expected, o) := Command.expectedAll settings title ⟨[], true⟩ (calls.map Call.command)
    outcomes = expected.map (Failure.ofCheck id) ∧
      if o.isOpen then Shows settings o.inventory d else d.session.state d.handle = .closed := by
  obtain ⟨hvalid, hname, file, hserves⟩ := serves_of_create hcreate hopen
  have hu := Settings.usable_of_validate hvalid hquantum
  have heq := Call.runAll_eq hspace
  rw [heq] at hspace ⊢
  have hrun := hserves.runAll_expected (o := ⟨[], true⟩) hu hvalid rfl _ hspace
  rw [hname] at hrun
  obtain ⟨houtcomes, listings, hfinal, hinv⟩ := hrun
  refine ⟨houtcomes, ?_⟩
  split
  · rename_i hopened
    rw [hopened] at hfinal
    exact hinv ▸ hfinal.shows
  · rename_i hclosed
    rw [Bool.not_eq_true] at hclosed
    rw [hclosed] at hfinal
    exact hfinal.state

theorem Command.expectedAll_copying : expectedAll .default "music" ⟨[], true⟩
    ((copyingCommands.map (⟨·, .calm⟩)).map Call.command) = ([.ok .done, .ok .done,
      .ok (.removed true), .ok .done, .ok .done, .ok .done], ⟨[(".global", {"p"})], true⟩) := rfl

theorem runAll_refines_copying : ∃ made handle opened d,
    Session.create "a" "music" "/m" .empty = .ok () made ∧
    Session.openWith "a" .default made = .ok handle opened ∧
    Call.runAll "a" .default ⟨opened, handle⟩ (copyingCommands.map (⟨·, .calm⟩))
      = ([.ok .done, .ok .done, .ok (.removed true), .ok .done, .ok .done, .ok .done], d) ∧
    Shows .default [(".global", {"p"})] d := by
  obtain ⟨made, handle, opened, d, hcreate, hopen, hcopying⟩ := exists_copying
  have hrun := (Call.runAll_calm "a" .default ⟨opened, handle⟩ copyingCommands).trans hcopying
  have hspace : ∀ outcome ∈ (Call.runAll "a" .default ⟨opened, handle⟩
      (copyingCommands.map (⟨·, .calm⟩))).1, outcome.lacksSpace = false := by
    simp [hrun, Outcome.lacksSpace]
  have hrefines := runAll_refines hcreate hopen (by decide) _ hspace
  rw [hrun, Command.expectedAll_copying] at hrefines
  exact ⟨made, handle, opened, d, hcreate, hopen, hrun, hrefines.2⟩

end Reached
end MediaLibrary
