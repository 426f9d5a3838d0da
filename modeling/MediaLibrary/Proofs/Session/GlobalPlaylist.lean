import MediaLibrary.Proofs.Session.Refinement
/-! The global playlist over a whole run. While paths are copied to it and no command takes anything
out of it, it holds every path that any command added to any playlist, whatever became of the path
there, and no other. The media count is the number of those paths. -/
namespace MediaLibrary

open LibraryFile

namespace Desk

def pathsOf (d : Desk) (playlist : String) : Except (Failure LibraryError) (List String) :=
  match Session.ask d.handle (pathsIn · playlist) d.session with
  | .ok texts _ => .ok texts
  | .error e _ => .error e

/-- The set of paths in a playlist, where one that is missing has none. There is no set if the
library cannot tell. -/
def pathSet? (d : Desk) (playlist : String) : Option (Finset String) :=
  match d.pathsOf playlist with
  | .ok texts => some texts.toFinset
  | .error (.refused (.playlistNotFound _)) => some ∅
  | .error _ => none

theorem pathsOf_answer {d : Desk} {playlist : String} {texts : List String}
    (h : d.Answers (pathsIn · playlist) texts) : d.pathsOf playlist = .ok texts := by
  rw [pathsOf, h]

theorem pathsOf_refusal {d : Desk} {playlist : String} {e : LibraryError}
    (h : d.Refuses (pathsIn · playlist) e) : d.pathsOf playlist = .error (.refused e) := by
  rw [pathsOf, h]

end Desk

theorem Shows.pathSet?_eq {settings : Settings} {i : Inventory} {d : Desk} (h : Shows settings i d)
    (playlist : String) : d.pathSet? playlist = some ((i.lookup playlist).getD ∅) := by
  cases hi : i.lookup playlist with
  | none =>
    obtain ⟨-, hpaths, -⟩ := h.missing playlist hi
    rw [Desk.pathSet?, Desk.pathsOf_refusal hpaths]
    rfl
  | some paths =>
    obtain ⟨-, texts, -, -, -, hset, -, hpaths, -⟩ := h.present playlist paths hi
    rw [Desk.pathSet?, Desk.pathsOf_answer hpaths]
    exact congrArg some hset

namespace Command

/-- The command takes nothing out of the global playlist. -/
def SparesGlobal (settings : Settings) : Command → Prop
  | .delete playlist | .remove playlist _ => playlist ≠ settings.globalPlaylist
  | _ => True

/-- The paths that a command adds, which it does if it is done. -/
def addedBy {ε : Type} : Command → Except ε Reply → Finset String
  | .add _ path, .ok _ => {path}
  | _, _ => ∅

def added {ε : Type} : List Command → List (Except ε Reply) → Finset String
  | c :: commands, outcome :: outcomes => c.addedBy outcome ∪ added commands outcomes
  | _, _ => ∅

theorem addedBy_error {ε : Type} (c : Command) (e : ε) :
    c.addedBy (.error e : Except ε Reply) = ∅ := by
  cases c <;> rfl

theorem added_ofCheck (commands : List Command) (expected : List (Except LibraryError Reply)) :
    added commands (expected.map (Failure.ofCheck id)) = added commands expected := by
  induction commands generalizing expected with
  | nil => rfl
  | cons c rest ih =>
    cases expected with
    | nil => rfl
    | cons outcome outcomes =>
      have hfirst : c.addedBy (Failure.ofCheck id outcome) = c.addedBy outcome := by
        cases c <;> cases outcome <;> rfl
      rw [List.map_cons, added, added, hfirst, ih]

end Command

/-- The global playlist holds the paths that were collected, and no playlist holds another. -/
structure Collects (settings : Settings) (i : Inventory) (collected : Finset String) : Prop where
  global : i.pathsOf settings.globalPlaylist = collected
  within : ∀ playlist, i.pathsOf playlist ⊆ collected

namespace Collects

variable {settings : Settings} {i j : Inventory} {o : Outline} {c : Command}
  {had : Finset String} {playlist path : String}

theorem start (h : Collects settings i had) (hstart : i.start playlist = .ok j) :
    Collects settings j had where
  global := (Inventory.pathsOf_start hstart _).trans h.global
  within := by
    intro other
    rw [Inventory.pathsOf_start hstart]
    exact h.within other

theorem delete (h : Collects settings i had) (hother : playlist ≠ settings.globalPlaylist)
    (hdelete : i.delete playlist = .ok j) : Collects settings j had where
  global := by
    rw [Inventory.pathsOf_delete hdelete, if_neg (Ne.symm hother)]
    exact h.global
  within := by
    intro other
    rw [Inventory.pathsOf_delete hdelete]
    split
    · exact Finset.empty_subset had
    · exact h.within other

theorem remove (h : Collects settings i had) (hother : playlist ≠ settings.globalPlaylist)
    {present : Bool} (hremove : i.remove playlist path = .ok (present, j)) :
    Collects settings j had where
  global := by
    rw [Inventory.pathsOf_remove hremove, if_neg (Ne.symm hother)]
    exact h.global
  within := by
    intro other
    rw [Inventory.pathsOf_remove hremove]
    split
    · exact (Finset.erase_subset _ _).trans (h.within other)
    · exact h.within other

theorem add (h : Collects settings i had) (hcopy : settings.copyToGlobal = true)
    (hadd : i.add settings playlist path = .ok j) : Collects settings j (insert path had) where
  global := by
    rw [Inventory.pathsOf_add hcopy hadd, if_pos (Or.inr rfl), h.global]
  within := by
    intro other
    rw [Inventory.pathsOf_add hcopy hadd]
    split
    · exact Finset.insert_subset_insert path (h.within other)
    · exact (h.within other).trans (Finset.subset_insert path had)

theorem attempt (h : Collects settings o.inventory had)
    {change : Except LibraryError (Reply × Inventory)}
    (hchange : ∀ reply inventory, change = .ok (reply, inventory) →
      Collects settings inventory (had ∪ c.addedBy (.ok reply : Except LibraryError Reply))) :
    Collects settings (o.attempt change).2.inventory (had ∪ c.addedBy (o.attempt change).1) := by
  unfold Outline.attempt
  split
  · cases hc : change with
    | ok done => exact hchange done.1 done.2 hc
    | error e =>
      rw [c.addedBy_error, Finset.union_empty]
      exact h
  · rw [c.addedBy_error, Finset.union_empty]
    exact h

/-- What a command is expected to do collects the path that it adds, if it is an addition. -/
theorem expected (h : Collects settings o.inventory had) (hcopy : settings.copyToGlobal = true)
    (hspares : c.SparesGlobal settings) (name : String) :
    Collects settings (c.expected settings name o).2.inventory
      (had ∪ c.addedBy (c.expected settings name o).1) := by
  cases c with
  | start playlist =>
    refine h.attempt fun reply inventory hchange => ?_
    obtain ⟨j, hstart, hdone⟩ := Steps.query_eq_ok_iff.1 hchange
    cases hdone
    simpa [Command.addedBy] using h.start hstart
  | delete playlist =>
    refine h.attempt fun reply inventory hchange => ?_
    obtain ⟨j, hdelete, hdone⟩ := Steps.query_eq_ok_iff.1 hchange
    cases hdone
    simpa [Command.addedBy] using h.delete hspares hdelete
  | add playlist path =>
    refine h.attempt fun reply inventory hchange => ?_
    obtain ⟨j, hadd, hdone⟩ := Steps.query_eq_ok_iff.1 hchange
    cases hdone
    simpa [Command.addedBy, Finset.union_comm] using h.add hcopy hadd
  | remove playlist path =>
    refine h.attempt fun reply inventory hchange => ?_
    obtain ⟨⟨present, j⟩, hremove, hdone⟩ := Steps.query_eq_ok_iff.1 hchange
    cases hdone
    simpa [Command.addedBy] using h.remove hspares hremove
  | ask question =>
    refine h.attempt fun reply inventory hchange => ?_
    obtain ⟨-, -, hdone⟩ := Steps.query_eq_ok_iff.1 hchange
    cases hdone
    simpa [Command.addedBy] using h
  | close =>
    cases hopen : o.isOpen <;> simpa [Command.expected, hopen, Command.addedBy] using h
  | reopen =>
    cases hopen : o.isOpen <;> simpa [Command.expected, hopen, Command.addedBy] using h

theorem expectedAll (h : Collects settings o.inventory had) (hcopy : settings.copyToGlobal = true)
    (name : String) {commands : List Command}
    (hspares : ∀ c ∈ commands, c.SparesGlobal settings) :
    Collects settings (Command.expectedAll settings name o commands).2.inventory
      (had ∪ Command.added commands (Command.expectedAll settings name o commands).1) := by
  induction commands generalizing o had with
  | nil => simpa [Command.expectedAll, Command.added] using h
  | cons c rest ih =>
    have hfirst := h.expected hcopy (hspares c List.mem_cons_self) name
    have hrest := ih hfirst fun c hc => hspares c (List.mem_cons_of_mem _ hc)
    rw [Finset.union_assoc] at hrest
    exact hrest

end Collects

theorem Command.isOpen_expectedAll (settings : Settings) (name : String) (o : Outline)
    (commands : List Command) :
    (Command.expectedAll settings name o commands).2.isOpen
      = commands.foldl Command.leavesOpen o.isOpen := by
  induction commands generalizing o with
  | nil => rfl
  | cons c rest ih =>
    rw [List.foldl_cons, ← Command.isOpen_expected settings name o c]
    exact ih _

theorem exists_added : ∃ made handle opened first second file length,
    Session.create "a" "music" "/m" .empty = .ok () made ∧
    Session.openWith "a" .default made = .ok handle opened ∧
    Command.run "a" .default ⟨opened, handle⟩ (.start ".global") = (.ok .done, first) ∧
    Command.run "a" .default first (.add ".global" "p") = (.ok .done, second) ∧
    Serves "a" .default (newFields "music" "/m") file true [⟨".global", length, ["p"]⟩] second := by
  obtain ⟨made, handle, opened, first, file, hcreate, hopen, hstart, hserves⟩ :=
    exists_started (show newName [] ".global" = .ok () from rfl)
  have hu : Settings.default.Usable := Settings.usable_of_validate rfl (by decide)
  obtain ⟨second, hadd, hserves'⟩ :=
    hserves.run_add_of_room hu ".global" "p" (by decide) (by decide) (by decide)
  exact ⟨made, handle, opened, first, second, file, _, hcreate, hopen, hstart, hadd, hserves'⟩

section Reached

variable {path title mediaPrefix : String} {settings : Settings} {before made opened : Session}
  {handle : Handle}

/-- While there is space and the system refuses nothing, the global playlist of a library has all
paths that were added to any of its playlists since it was made, and no others; the media count is
their number. Only a deletion of that playlist, or a removal from it, may not be among the commands. -/
theorem global_of_runAll (hcreate : Session.create path title mediaPrefix before = .ok () made)
    (hopen : Session.openWith path settings made = .ok handle opened)
    (hquantum : settings.growthQuantum + 128 < 2 ^ 64) (hcopy : settings.copyToGlobal = true)
    {calls : List Call} {commands : List Command} (hcommands : calls.map Call.command = commands)
    (hspares : ∀ c ∈ commands, c.SparesGlobal settings) {outcomes : List Outcome} {d : Desk}
    (hrun : Call.runAll path settings ⟨opened, handle⟩ calls = (outcomes, d))
    (hspace : ∀ outcome ∈ outcomes, outcome.lacksSpace = false)
    (hleft : commands.foldl Command.leavesOpen true = true) :
    d.pathSet? settings.globalPlaylist = some (Command.added commands outcomes) ∧
    (∀ playlist, ∃ paths, d.pathSet? playlist = some paths ∧
      paths ⊆ Command.added commands outcomes) ∧
    d.Answers LibraryFile.mediaCount (Command.added commands outcomes).card := by
  obtain ⟨hvalid, hname, file, hserves⟩ := serves_of_create hcreate hopen
  have hu := Settings.usable_of_validate hvalid hquantum
  rw [Call.runAll_eq (by rwa [hrun]), hcommands] at hrun
  have hdone := hserves.runAll_expected (o := ⟨[], true⟩) hu hvalid rfl commands (by rwa [hrun])
  rw [hrun, hname, Command.isOpen_expectedAll, hleft] at hdone
  obtain ⟨houtcomes, listings, hfinal, hinv⟩ := hdone
  have hshows := hfinal.shows
  rw [hinv] at hshows
  have hempty : Collects settings [] ∅ := ⟨rfl, fun _ => Finset.Subset.refl _⟩
  have hcollects := hempty.expectedAll (o := ⟨[], true⟩) hcopy title hspares
  rw [Finset.empty_union, ← Command.added_ofCheck, ← houtcomes] at hcollects
  refine ⟨?_, fun playlist => ⟨_, hshows.pathSet?_eq playlist, hcollects.within playlist⟩, ?_⟩
  · rw [← hcollects.global]
    exact hshows.pathSet?_eq _
  · rw [← hcollects.global, Inventory.card_pathsOf]
    exact hshows.mediaCount

/-- A path that is copied, then removed from where it was, and that playlist deleted. -/
theorem global_of_runAll_copied : ∃ made handle opened d,
    Session.create "a" "music" "/m" .empty = .ok () made ∧
    Session.openWith "a" .default made = .ok handle opened ∧
    Call.runAll "a" .default ⟨opened, handle⟩ (copyingCommands.map (⟨·, .calm⟩))
      = ([.ok .done, .ok .done, .ok (.removed true), .ok .done, .ok .done, .ok .done], d) ∧
    d.pathSet? ".global" = some {"p"} ∧ d.Answers LibraryFile.mediaCount 1 := by
  obtain ⟨made, handle, opened, d, hcreate, hopen, hcopying⟩ := exists_copying
  have hrun := (Call.runAll_calm "a" .default ⟨opened, handle⟩ copyingCommands).trans hcopying
  have hcommands : (copyingCommands.map (⟨·, .calm⟩)).map Call.command = copyingCommands := rfl
  have hspares : ∀ c ∈ copyingCommands, Command.SparesGlobal .default c := by
    simp [copyingCommands, Command.SparesGlobal, Settings.default]
  obtain ⟨hpaths, -, hcount⟩ :=
    global_of_runAll hcreate hopen (by decide) rfl hcommands hspares hrun (by decide) rfl
  exact ⟨made, handle, opened, d, hcreate, hopen, hrun, hpaths, hcount⟩

end Reached
end MediaLibrary
