import MediaLibrary.Proofs.LibraryFile.Lapses
import MediaLibrary.Proofs.Session.Runs
/-! Commands before systems that may refuse what they are called for. A command goes as it would before
a calm system, or ends with an error of its own system. What the system refuses to lengthen, to map or
to flush damages no library: its file lists playlists, or is not opened again. -/
namespace MediaLibrary

open LibraryFile

/-- A command, and what the system has in store for it. -/
structure Call where
  command : Command
  system : System := .calm
  deriving DecidableEq, Repr

namespace Call

def run (path : String) (settings : Settings) (d : Desk) (call : Call) : Outcome × Desk :=
  call.command.runFacing call.system path settings d

def runAll (path : String) (settings : Settings) (d : Desk) (calls : List Call) :
    List Outcome × Desk :=
  d.runAll (run path settings) calls

/-- A deletion ended with an error of a system that refuses to shorten files. -/
def Overran (calls : List Call) (outcomes : List Outcome) : Prop :=
  ∃ call outcome, (call, outcome) ∈ calls.zip outcomes ∧ (∃ name, call.command = .delete name) ∧
    (∃ answers ∈ call.system.pending, answers.shortening.isSome) ∧
    ∃ e, outcome = .error (.refused (.io e))

end Call

/-! A command goes as before a calm system, or ends with an error of its own. -/

section Cases

variable {α : Type} {system : System} {lib : LibraryFile} {s : Session} {h : Handle}

theorem Question.ask_facing (question : Question) (hcalm : lib.system = .calm) (system : System) :
    question.ask (lib.facing system) = question.ask lib ∨
      ∃ e, question.ask (lib.facing system) = .error (.refused (.io e)) := by
  cases question with
  | sync =>
    have hview : (lib.facing system).view = lib.view := rfl
    simp only [Question.ask, LibraryFile.sync, hview]
    cases lib.view with
    | error e => exact Or.inl rfl
    | ok view =>
      have hnow : lib.system.now.flushing = none := by
        rw [hcalm]
        rfl
      cases hflushing : (lib.facing system).system.now.flushing with
      | none => exact Or.inl (by rw [hnow])
      | some e => exact Or.inr ⟨e, rfl⟩
  | _ => exact Or.inl rfl

namespace Session

theorem change_cases {update : Update α}
    (htracks : ∀ lib, Tracks system.pending .io (fun _ => True) update lib) :
    change h (update.facing system) s = change h update s ∨
      ∃ e s', change h (update.facing system) s = .error (.refused (.io e)) s' := by
  cases hm : s.mappingOf h with
  | error f => exact Or.inl ((change_of_unopened hm _).trans (change_of_unopened hm _).symm)
  | ok m =>
    have hs := mappingOf_eq_ok_iff.1 hm
    rw [change_eq hs update, change_eq hs (update.facing system), Update.facing]
    have hfollows := htracks (m.library s.disk) rfl system (List.Subset.refl _)
    generalize update ((m.library s.disk).facing system) = actual at hfollows ⊢
    generalize update (m.library s.disk) = result at hfollows ⊢
    cases hfollows with
    | done => exact Or.inl rfl
    | @failed f => cases f <;> exact Or.inl rfl
    | stopped error => exact Or.inr ⟨error, _, rfl⟩

theorem ask_cases (question : Question) (system : System) :
    ask h (fun lib => question.ask (lib.facing system)) s = ask h question.ask s ∨
      ∃ e, ask h (fun lib => question.ask (lib.facing system)) s = .error (.refused (.io e)) s := by
  cases hm : s.mappingOf h with
  | error f => exact Or.inl ((ask_of_unopened hm _).trans (ask_of_unopened hm _).symm)
  | ok m =>
    rcases question.ask_facing (show (m.library s.disk).system = .calm from rfl) system with hsame | ⟨e, hrefused⟩
    · rw [ask, ask, hm]
      simp only [Mapping.ask, hsame]
      exact Or.inl trivial
    · exact Or.inr ⟨e, ask_of_refused (mappingOf_eq_ok_iff.1 hm) hrefused⟩

theorem closeFacing_cases : closeFacing system h s = close h s ∨
    ∃ e s', closeFacing system h s = .error (.refused (.io e)) s' ∧ close h s = .ok () s' := by
  cases hm : s.mappingOf h with
  | error f => exact Or.inl ((closeFacing_error hm _).trans (closeFacing_error hm _).symm)
  | ok m =>
    have hs := mappingOf_eq_ok_iff.1 hm
    rcases closeFacing_outcome hs system with hdone | ⟨e, -, hrefused⟩
    · exact Or.inl (hdone.trans (close_opened hs).symm)
    · exact Or.inr ⟨e, _, hrefused, close_opened hs⟩

end Session

theorem Desk.act_congr {d : Desk} {first second : Action α} {reply : α → Reply}
    (h : first d.session = second d.session ∨
      ∃ e s', first d.session = .error (.refused (.io e)) s') :
    d.act first reply = d.act second reply ∨
      ∃ e, (d.act first reply).1 = .error (.refused (.io e)) := by
  rcases h with hsame | ⟨e, s', hrefused⟩
  · rw [Desk.act, Desk.act, hsame]
    exact Or.inl rfl
  · rw [Desk.act, hrefused]
    exact Or.inr ⟨e, rfl⟩

theorem Command.runFacing_cases (system : System) (path : String) (settings : Settings) (d : Desk)
    (c : Command) : c.runFacing system path settings d = c.run path settings d ∨
      ∃ e, (c.runFacing system path settings d).1 = .error (.refused (.io e)) := by
  cases c with
  | start name => exact Desk.act_congr (Session.change_cases fun _ => Tracks.startPlaylist_any name)
  | delete name => exact Desk.act_congr (Session.change_cases fun _ => Tracks.deletePlaylist_any name)
  | add playlist path =>
    exact Desk.act_congr (Session.change_cases fun _ => Tracks.addPath_any playlist path)
  | remove playlist path => exact Desk.act_congr (Session.change_cases fun _ => Tracks.removePath)
  | ask question =>
    exact Desk.act_congr ((Session.ask_cases question system).imp_right fun ⟨e, h⟩ => ⟨e, _, h⟩)
  | close =>
    exact Desk.act_congr (Session.closeFacing_cases.imp_right fun ⟨e, s', h, _⟩ => ⟨e, s', h⟩)
  | reopen =>
    rcases openFacing_cases system path settings d.session with hsame | ⟨e, -, hrefused⟩
    · refine Or.inl ?_
      rw [run_reopen, ← hsame]
      rfl
    · refine Or.inr ⟨e, ?_⟩
      simp only [runFacing, hrefused]

theorem Call.runAll_calm (path : String) (settings : Settings) (d : Desk) (commands : List Command) :
    runAll path settings d (commands.map (⟨·, .calm⟩)) = Command.runAll path settings d commands := by
  rw [runAll, Command.runAll]
  induction commands generalizing d with
  | nil => rfl
  | cons c rest ih =>
    have hstep : run path settings d ⟨c, .calm⟩ = Command.run path settings d c := rfl
    simp only [List.map_cons, Desk.runAll, hstep, ih]

/-- Where no system refuses anything, or nothing that matters, calls are commands. -/
theorem Call.runAll_eq {path : String} {settings : Settings} {d : Desk} {calls : List Call}
    (hspace : ∀ outcome ∈ (runAll path settings d calls).1, outcome.lacksSpace = false) :
    runAll path settings d calls = Command.runAll path settings d (calls.map Call.command) := by
  induction calls generalizing d with
  | nil => rfl
  | cons call rest ih =>
    have hfirst : (call.run path settings d).1.lacksSpace = false := hspace _ List.mem_cons_self
    have hrest := ih (d := (call.run path settings d).2) fun outcome ho =>
      hspace outcome (List.mem_cons_of_mem _ ho)
    rcases call.command.runFacing_cases call.system path settings d with hsame | ⟨e, hrefused⟩
    · have hstep : call.run path settings d = call.command.run path settings d := hsame
      rw [hstep] at hrest
      simp only [runAll, Command.runAll, Desk.runAll, List.map_cons, hstep] at hrest ⊢
      rw [hrest]
    · rw [Call.run, hrefused] at hfirst
      cases hfirst

end Cases

/-! A library without a mapping. -/

section Unmapped

variable {α : Type} {lib : LibraryFile} {s : Session} {h : Handle} {m : Mapping}

theorem LibraryFile.verify_unmapped (h : lib.mapped = none) :
    lib.verify = .error (.refused .unmapped) := Steps.query_error (view_unmapped h)

theorem Question.ask_unmapped (h : lib.mapped = none) (question : Question) :
    question.ask lib = .error (.refused .unmapped) := by
  have hview := view_unmapped h
  have hnamed (name : String) := named_unmapped h name
  cases question with
  | name | mediaPrefix => exact Steps.query_error (Steps.query_error hview)
  | mediaCount | length => exact Steps.query_error (word_unmapped h _)
  | playlists | findPlaylist => exact Steps.query_error (Steps.query_error (walk_unmapped h))
  | findPath playlist | pathAt playlist | paths playlist =>
    exact Steps.query_error (Steps.query_error (hnamed playlist))
  | verify => exact Steps.query_error (verify_unmapped h)
  | sync => exact Steps.query_error hview

theorem Desk.act_snd (d : Desk) (action : Action α) (reply : α → Reply) :
    (d.act action reply).2 = { d with session := Steps.left action d.session } := by
  rw [Desk.act, Steps.left]
  cases action d.session <;> rfl

theorem Session.change_unmapped (hs : s.state h = .opened m) {update : Update α} (system : System)
    (hupdate : update ((m.library s.disk).facing system)
      = .error (.refused .unmapped) ((m.library s.disk).facing system)) :
    change h (update.facing system) s = .error (.refused .unmapped) s := by
  have hfacing : update.facing system (m.library s.disk)
      = .error (.refused .unmapped) ((m.library s.disk).facing system) := hupdate
  exact (change_of_refused hs hfacing).trans (congrArg _ (settled_self hs))

theorem Command.runFacing_snd {path : String} {settings : Settings} {d : Desk} {system : System}
    {c : Command} (hclose : c ≠ .close) (hreopen : c ≠ .reopen)
    (hchange : ∀ {α : Type} (update : Update α),
      (∀ lib, lib.mapped = none → update lib = .error (.refused .unmapped) lib) →
      Steps.left (Session.change d.handle (update.facing system)) d.session = d.session)
    (hask : ∀ question : Question, Steps.left
      (Session.ask d.handle fun lib => question.ask (lib.facing system)) d.session = d.session) :
    (c.runFacing system path settings d).2 = d := by
  cases c with
  | start name =>
    rw [runFacing, Desk.act_snd, hchange _ fun _ hlib => startPlaylist_unmapped hlib name]
  | delete name =>
    rw [runFacing, Desk.act_snd, hchange _ fun _ hlib => deletePlaylist_unmapped hlib name]
  | add playlist path =>
    rw [runFacing, Desk.act_snd, hchange _ fun _ hlib => addPath_unmapped hlib playlist path]
  | remove playlist path =>
    rw [runFacing, Desk.act_snd, hchange _ fun _ hlib => removePath_unmapped hlib playlist path]
  | ask question => rw [runFacing, Desk.act_snd, hask question]
  | close => exact absurd rfl hclose
  | reopen => exact absurd rfl hreopen

theorem Command.runFacing_unopened {path : String} {settings : Settings} {d : Desk} {system : System}
    {f : Failure LibraryError} (hm : d.session.mappingOf d.handle = .error f) {c : Command}
    (hclose : c ≠ .close) (hreopen : c ≠ .reopen) : (c.runFacing system path settings d).2 = d :=
  runFacing_snd hclose hreopen
    (fun _ _ => Steps.left_error (Session.change_of_unopened hm _))
    fun _ => Steps.left_error (Session.ask_of_unopened hm _)

theorem Command.runFacing_unmapped {path : String} {settings : Settings} {d : Desk} {system : System}
    (hs : d.session.state d.handle = .opened m) (hm : m.mapped = none) {c : Command}
    (hclose : c ≠ .close) (hreopen : c ≠ .reopen) : (c.runFacing system path settings d).2 = d := by
  refine runFacing_snd hclose hreopen (fun update hupdate => ?_) fun question => ?_
  · exact Steps.left_error (Session.change_unmapped hs system
      (hupdate ((m.library d.session.disk).facing system) hm))
  · have hlib : ((m.library d.session.disk).facing system).mapped = none := hm
    have hask : (fun lib : LibraryFile => question.ask (lib.facing system))
        (m.library d.session.disk) = .error (.refused .unmapped) := question.ask_unmapped hlib
    exact Steps.left_error (Session.ask_of_refused hs hask)

end Unmapped

/-! Closing and opening again. -/

section Reopen

variable {path : String} {settings : Settings} {d : Desk} {system : System} {m : Mapping}

theorem Command.runFacing_close_opened (hs : d.session.state d.handle = .opened m) :
    (Command.close.runFacing system path settings d).2 = { d with session :=
      { d.session with roster := d.session.roster.unregister d.handle }.setState d.handle .closed } := by
  rw [runFacing, Desk.act_snd]
  rcases Session.closeFacing_outcome hs system with hdone | ⟨e, -, hrefused⟩
  · rw [Steps.left_ok hdone]
  · rw [Steps.left_error hrefused]

theorem Command.runFacing_close_unopened {f : Failure LibraryError}
    (hm : d.session.mappingOf d.handle = .error f) :
    (Command.close.runFacing system path settings d).2 = { d with session :=
      { d.session with roster := d.session.roster.unregister d.handle } } := by
  rw [runFacing, Desk.act_snd, Steps.left_error (Session.closeFacing_error hm system)]

theorem Command.runFacing_reopen_error {e : Failure LibraryError}
    (h : Session.openFacing system path settings d.session = .error e d.session) :
    (Command.reopen.runFacing system path settings d).2 = d := by
  simp only [runFacing, h]

theorem openFacing_entered (system : System) {fields : Bytes} {file : Nat} {listings : List Listing} {state : LibraryState}
    (hvalid : settings.validate = .ok ()) (h : Seated path fields file true state d)
    (hlists : Lists settings fields listings (d.library path settings file)) :
    ∃ e, Session.openFacing system path settings d.session = .error e d.session := by
  rcases openFacing_cases system path settings d.session with hsame | ⟨e, -, hrefused⟩
  · have hopen := openWith_eq hvalid h.found hlists.stores.keeps
    exact ⟨_, (hsame.trans hopen).trans (if_pos h.entered)⟩
  · exact ⟨_, hrefused⟩

theorem openFacing_unfit (system : System) (settings : Settings) {file : Nat} (hfound : d.session.disk.find path = .ok file)
    (hunfit : Unfit (d.session.disk.contents file)) :
    ∃ e, Session.openFacing system path settings d.session = .error e d.session := by
  cases hopen : d.session.disk.openLibrary path settings system with
  | error e => exact ⟨e, openFacing_of_error hopen⟩
  | ok m =>
    obtain ⟨_, -, hopen⟩ := Steps.query_eq_ok_iff.1 hopen
    obtain ⟨number, hnumber, hopen⟩ := Steps.query_eq_ok_iff.1 hopen
    obtain ⟨_, -, hopen⟩ := Steps.query_eq_ok_iff.1 hopen
    obtain ⟨lib, hlib, -⟩ := Steps.query_eq_ok_iff.1 hopen
    obtain rfl := Except.ok.inj (hfound.symm.trans (Steps.ofCheck_eq_ok_iff.1 hnumber))
    rcases ofContents_cases path settings (d.session.disk.contents file) system with
      hsame | ⟨e, -, hrefused⟩
    · exact absurd (hsame.symm.trans hlib) (hunfit path settings lib)
    · rw [hrefused] at hlib
      cases hlib

end Reopen

/-! What a call leaves. -/

/-- Where calls can lead. Beside a library that is served, there may be one that is open without a
mapping, and one whose file is not opened again; that is so only if the system has refused a mapping.
`isOpen` is whether the library would be open before calm systems. -/
inductive Tended (pending : List Answers) (path : String) (settings : Settings) (fields : Bytes)
    (file : Nat) (isOpen : Bool) : Desk → Prop
  | served {actual : Bool} {listings : List Listing} {d : Desk}
      (serves : Serves path settings fields file actual listings d)
      (agrees : actual = isOpen ∨
        ∃ answers ∈ pending, answers.opening.isSome ∨ answers.mapping.isSome) :
      Tended pending path settings fields file isOpen d
  | stranded {d : Desk}
      (seated : Seated path fields file true (.opened ⟨path, settings, file, none⟩) d)
      (unmapped : ∃ answers ∈ pending, answers.mapping.isSome)
      (contents : (∃ listings, Lists settings fields listings (d.library path settings file)) ∨
        Unfit (d.session.disk.contents file)) :
      Tended pending path settings fields file isOpen d
  | lost {d : Desk} (seated : Seated path fields file false .closed d)
      (unmapped : ∃ answers ∈ pending, answers.mapping.isSome)
      (unfit : Unfit (d.session.disk.contents file)) :
      Tended pending path settings fields file isOpen d

section Step

variable {pending : List Answers} {path : String} {settings : Settings} {fields : Bytes}
  {file : Nat} {isOpen : Bool} {listings : List Listing} {d : Desk} {lib : LibraryFile}
  {system : System} {α : Type} {update : Update α} {reply : α → Reply}
  {expected : Except LibraryError (Reply × Inventory)}

theorem survives_of_meets (h : Lists settings fields listings lib)
    (hmeets : Meets settings fields lib update reply expected)
    (htracks : Tracks system.pending .io (Survives system.pending settings fields) update lib) :
    ∃ left, Survives system.pending settings fields left ∧
      ((∃ a, update.facing system lib = .ok a left) ∨
        ∃ e, update.facing system lib = .error (.refused e) left) := by
  have hfollows := htracks h.calm system (List.Subset.refl _)
  rw [Update.facing]
  rcases hmeets with ⟨e, -, hupdate⟩ |
    ⟨listings', lib', hlists, ⟨a, hupdate, -⟩ | ⟨e, hupdate, -⟩⟩
  all_goals
    rw [hupdate] at hfollows
    generalize update (lib.facing system) = actual at hfollows ⊢
  · cases hfollows with
    | failed => exact ⟨_, h.survives _, Or.inr ⟨_, rfl⟩⟩
    | stopped error hleft => exact ⟨_, hleft, Or.inr ⟨_, rfl⟩⟩
  · cases hfollows with
    | done => exact ⟨_, hlists.survives _, Or.inl ⟨_, rfl⟩⟩
    | stopped error hleft => exact ⟨_, hleft, Or.inr ⟨_, rfl⟩⟩
  · cases hfollows with
    | failed => exact ⟨_, hlists.survives _, Or.inr ⟨_, rfl⟩⟩
    | stopped error hleft => exact ⟨_, hleft, Or.inr ⟨_, rfl⟩⟩

namespace Serves

theorem tended_of_survives (h : Serves path settings fields file true listings d)
    (hagrees : true = isOpen ∨
      ∃ answers ∈ pending, answers.opening.isSome ∨ answers.mapping.isSome)
    {left : LibraryFile} (hleft : Survives pending settings fields left) :
    Tended pending path settings fields file isOpen
      { d with session := changed d path settings file left } := by
  rcases hleft with ⟨listings', hlists⟩ | ⟨hnone, hunmapped, hfile⟩
  · have hserves := h.changed_serves hlists
    exact .served hserves hagrees
  · obtain ⟨hseated, hcontents⟩ := h.toSeated.settled rfl left
    rw [hnone] at hseated
    refine .stranded hseated hunmapped (hfile.imp ?_ fun hunfit => hcontents.symm ▸ hunfit)
    rintro ⟨listings', hlists⟩
    refine ⟨listings', hlists.congr hlists.stores.keeps.holding.settings_eq.symm hcontents ?_ rfl⟩
    exact congrArg (fun contents : Image => some contents.size) hcontents

theorem tended_change (h : Serves path settings fields file true listings d)
    (hrest : system.pending ⊆ pending)
    (hagrees : true = isOpen ∨
      ∃ answers ∈ pending, answers.opening.isSome ∨ answers.mapping.isSome)
    (hmeets : Meets settings fields (d.library path settings file) update reply expected)
    (htracks : Tracks system.pending .io (Survives system.pending settings fields) update
      (d.library path settings file)) :
    Tended pending path settings fields file isOpen
      (d.act (Session.change d.handle (update.facing system)) reply).2 := by
  obtain ⟨left, hleft, ⟨a, hdone⟩ | ⟨e, hrefused⟩⟩ := survives_of_meets h.lists hmeets htracks
  · rw [Desk.act, Session.change_of_ok h.opened hdone]
    exact h.tended_of_survives hagrees (hleft.mono hrest)
  · rw [Desk.act, Session.change_of_refused h.opened hrefused]
    exact h.tended_of_survives hagrees (hleft.mono hrest)

theorem left_ask (h : Serves path settings fields file true listings d) (question : Question) :
    Steps.left (Session.ask d.handle fun lib => question.ask (lib.facing system)) d.session
      = d.session := by
  rcases Session.ask_cases (h := d.handle) (s := d.session) question system with
    hsame | ⟨e, hrefused⟩
  · rw [Steps.left, hsame]
    have hask := question.ask_eq h.lists
    cases hcheck : question.check (inventoryOf listings) with
    | ok =>
      rw [hcheck] at hask
      rw [h.ask_ok hask]
    | error e =>
      rw [hcheck] at hask
      rw [h.ask_refused hask]
  · exact Steps.left_error hrefused

theorem tended_of_other (h : Serves path settings fields file true listings d)
    (hu : settings.Usable) (hrest : system.pending ⊆ pending)
    (hagrees : true = isOpen ∨
      ∃ answers ∈ pending, answers.opening.isSome ∨ answers.mapping.isSome) {c : Command}
    (hshortens : ∀ name, c = .delete name → ∀ answers ∈ system.pending, answers.shortening = none)
    (hclose : c ≠ .close) (hreopen : c ≠ .reopen) :
    Tended pending path settings fields file isOpen (c.runFacing system path settings d).2 := by
  cases c with
  | start name =>
    refine h.tended_change hrest hagrees (startPlaylist_meets h.lists hu name) ?_
    have hlapsed : Tracks system.pending .io (Lapsed system.pending settings fields fun _ => True)
        (startPlaylist name) (d.library path settings file) :=
      h.lists.startPlaylist_lapsed hu trivial trivial
    exact hlapsed.mono fun _ hleft => hleft.survives
  | delete name =>
    exact h.tended_change hrest hagrees (deletePlaylist_meets h.lists name)
      (h.lists.deletePlaylist_survives name (hshortens name rfl))
  | add playlist new =>
    refine h.tended_change hrest hagrees (addPath_meets h.lists hu playlist new) ?_
    exact (h.lists.addPath_lapsed hu playlist new).mono fun _ hleft => hleft.survives
  | remove playlist new =>
    exact h.tended_change hrest hagrees (removePath_meets h.lists playlist new) Tracks.removePath
  | ask question =>
    have hsame : (Command.runFacing system path settings d (.ask question)).2 = d := by
      rw [Command.runFacing, Desk.act_snd, h.left_ask]
    rw [hsame]
    exact .served h hagrees
  | close => exact absurd rfl hclose
  | reopen => exact absurd rfl hreopen

theorem tended_reopen {actual : Bool} (h : Serves path settings fields file actual listings d)
    (hvalid : settings.validate = .ok ()) (hrest : system.pending ⊆ pending) :
    Tended pending path settings fields file true
      (Command.reopen.runFacing system path settings d).2 := by
  cases actual with
  | true =>
    obtain ⟨e, hrefused⟩ := openFacing_entered system hvalid h.toSeated h.lists
    rw [Command.runFacing_reopen_error hrefused]
    exact .served h (Or.inl rfl)
  | false =>
    obtain ⟨handle, session, hreopen, hserves⟩ := h.reopen_ok hvalid
    rcases openFacing_cases system path settings d.session with hsame | ⟨e, hanswer, hrefused⟩
    · have hdone : (Command.reopen.runFacing system path settings d).2 = ⟨session, handle⟩ := by
        simp only [Command.runFacing, hsame, hreopen]
      rw [hdone]
      exact .served hserves (Or.inl rfl)
    · rw [Command.runFacing_reopen_error hrefused]
      refine .served h (Or.inr ?_)
      rcases hanswer with hopening | hmapping
      · exact ⟨_, hrest (now_mem Answers.opening rfl hopening),
          Or.inl (Option.isSome_of_mem hopening)⟩
      · exact ⟨_, hrest (now_mem Answers.mapping rfl hmapping),
          Or.inr (Option.isSome_of_mem hmapping)⟩

end Serves

theorem Command.leavesOpen_other {c : Command} (hclose : c ≠ .close) (hreopen : c ≠ .reopen) :
    c.leavesOpen isOpen = isOpen := by
  cases c <;> first | rfl | exact absurd rfl hclose | exact absurd rfl hreopen

namespace Tended

theorem close (h : Tended pending path settings fields file isOpen d) :
    Tended pending path settings fields file false
      (Command.close.runFacing system path settings d).2 := by
  cases h with
  | @served actual _ _ hserves _ =>
    cases actual with
    | true =>
      rw [Command.runFacing_close_opened hserves.opened]
      exact .served ⟨hserves.toSeated.closed, hserves.lists⟩ (Or.inl rfl)
    | false =>
      rw [Command.runFacing_close_unopened hserves.mappingOf_closed]
      exact .served ⟨hserves.toSeated.struck, hserves.lists⟩ (Or.inl rfl)
  | stranded hseated hunmapped hcontents =>
    rw [Command.runFacing_close_opened hseated.state]
    rcases hcontents with ⟨listings, hlists⟩ | hunfit
    · exact .served ⟨hseated.closed, hlists⟩ (Or.inl rfl)
    · exact .lost hseated.closed hunmapped hunfit
  | lost hseated hunmapped hunfit =>
    rw [Command.runFacing_close_unopened (Session.mappingOf_of_closed hseated.state)]
    exact .lost hseated.struck hunmapped hunfit

theorem reopen (h : Tended pending path settings fields file isOpen d)
    (hvalid : settings.validate = .ok ()) (hrest : system.pending ⊆ pending) :
    Tended pending path settings fields file true
      (Command.reopen.runFacing system path settings d).2 := by
  cases h with
  | served hserves => exact hserves.tended_reopen hvalid hrest
  | stranded hseated hunmapped hcontents =>
    have hrefused : ∃ e, Session.openFacing system path settings d.session = .error e d.session := by
      rcases hcontents with ⟨listings, hlists⟩ | hunfit
      · exact openFacing_entered system hvalid hseated hlists
      · exact openFacing_unfit system settings hseated.found hunfit
    obtain ⟨e, he⟩ := hrefused
    rw [Command.runFacing_reopen_error he]
    exact .stranded hseated hunmapped hcontents
  | lost hseated hunmapped hunfit =>
    obtain ⟨e, he⟩ := openFacing_unfit system settings hseated.found hunfit
    rw [Command.runFacing_reopen_error he]
    exact .lost hseated hunmapped hunfit

theorem other (h : Tended pending path settings fields file isOpen d) (hu : settings.Usable)
    (hrest : system.pending ⊆ pending) {c : Command}
    (hshortens : ∀ name, c = .delete name → ∀ answers ∈ system.pending, answers.shortening = none)
    (hclose : c ≠ .close) (hreopen : c ≠ .reopen) :
    Tended pending path settings fields file isOpen (c.runFacing system path settings d).2 := by
  cases h with
  | @served actual _ _ hserves hagrees =>
    cases actual with
    | true => exact hserves.tended_of_other hu hrest hagrees hshortens hclose hreopen
    | false =>
      rw [Command.runFacing_unopened hserves.mappingOf_closed hclose hreopen]
      exact .served hserves hagrees
  | stranded hseated hunmapped hcontents =>
    rw [Command.runFacing_unmapped hseated.state rfl hclose hreopen]
    exact .stranded hseated hunmapped hcontents
  | lost hseated hunmapped hunfit =>
    rw [Command.runFacing_unopened (Session.mappingOf_of_closed hseated.state) hclose hreopen]
    exact .lost hseated hunmapped hunfit

end Tended

theorem Tended.run (hu : settings.Usable) (hvalid : settings.validate = .ok ())
    (h : Tended pending path settings fields file isOpen d) (call : Call)
    (hrest : call.system.pending ⊆ pending)
    (hshortens : ∀ name, call.command = .delete name →
      ∀ answers ∈ call.system.pending, answers.shortening = none) :
    Tended pending path settings fields file (call.command.leavesOpen isOpen)
      (call.run path settings d).2 := by
  obtain ⟨c, system⟩ := call
  rw [Call.run]
  rcases eq_or_ne c .close with rfl | hclose
  · exact h.close
  rcases eq_or_ne c .reopen with rfl | hreopen
  · exact h.reopen hvalid hrest
  rw [Command.leavesOpen_other hclose hreopen]
  exact h.other hu hrest hshortens hclose hreopen

/-- The library is tended by a deletion too that was refused nothing, or only what does not matter. -/
theorem Tended.run_of_outcome (hu : settings.Usable) (hvalid : settings.validate = .ok ())
    (h : Tended pending path settings fields file isOpen d) (call : Call)
    (hrest : call.system.pending ⊆ pending)
    (houtcome : ∀ name, call.command = .delete name →
      (∃ answers ∈ call.system.pending, answers.shortening.isSome) →
      ∀ e, (call.run path settings d).1 ≠ .error (.refused (.io e))) :
    Tended pending path settings fields file (call.command.leavesOpen isOpen)
      (call.run path settings d).2 := by
  by_cases hshortens : ∃ answers ∈ call.system.pending, answers.shortening.isSome
  · rcases call.command.runFacing_cases call.system path settings d with hsame | ⟨e, hrefused⟩
    · have hcalm := h.run hu hvalid ⟨call.command, .calm⟩ (List.nil_subset pending)
        fun _ _ _ hmem => absurd hmem List.not_mem_nil
      rw [Call.run, hsame]
      exact hcalm
    · refine h.run hu hvalid call hrest fun name hname => ?_
      exact absurd hrefused (houtcome name hname hshortens e)
  · refine h.run hu hvalid call hrest fun name _ answers hanswers => ?_
    by_contra hsome
    exact hshortens ⟨answers, hanswers, Option.isSome_iff_ne_none.2 hsome⟩

theorem Tended.runAll (hu : settings.Usable) (hvalid : settings.validate = .ok ())
    (h : Tended pending path settings fields file isOpen d) {calls : List Call}
    (hrest : ∀ call ∈ calls, call.system.pending ⊆ pending)
    (hshortens : ¬ Call.Overran calls (Call.runAll path settings d calls).1) :
    Tended pending path settings fields file ((calls.map Call.command).foldl Command.leavesOpen isOpen)
      (Call.runAll path settings d calls).2 := by
  induction calls generalizing isOpen d with
  | nil => exact h
  | cons call rest ih =>
    have hfirst := h.run_of_outcome hu hvalid call (hrest call List.mem_cons_self)
      fun name hname hanswers e hrefused => hshortens
        ⟨call, _, List.mem_cons_self, ⟨name, hname⟩, hanswers, e, hrefused⟩
    refine ih hfirst (fun other hother => hrest other (List.mem_cons_of_mem _ hother)) ?_
    rintro ⟨other, outcome, hmem, hdelete⟩
    exact hshortens ⟨other, outcome, List.mem_cons_of_mem _ hmem, hdelete⟩

end Step

section Reached

variable {path title mediaPrefix : String} {settings : Settings} {before made opened : Session}
  {handle : Handle}

end Reached
end MediaLibrary
