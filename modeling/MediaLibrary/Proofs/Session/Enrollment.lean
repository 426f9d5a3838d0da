import MediaLibrary.Proofs.LibraryFile.Lapses
import MediaLibrary.Proofs.Session.Opening
/-! The roster and the libraries that are open, over any sequence of operations on any files, sound or
damaged, before any system. Whatever is done to a library, the name in its header stays, so that the
name it was entered under is its own for as long as it is open. A library that was closed stays closed
under its handle, whatever is opened later. -/
namespace MediaLibrary

open LibraryFile

/-- The name in the header of the library's file, which is there even if it is not mapped. -/
def Mapping.headerName (m : Mapping) (disk : Disk) : Query String := (m.library disk).whole.name

/-- A change of a library's playlists, by their names. -/
inductive Edit where
  | start (name : String)
  | delete (name : String)
  | add (playlist path : String)
  | remove (playlist path : String)
  deriving DecidableEq, Repr

def Edit.update : Edit → Update Unit
  | .start name => do let _ ← startPlaylist name
  | .delete name => deletePlaylist name
  | .add playlist path => addPath playlist path
  | .remove playlist path => do let _ ← removePath playlist path

theorem Edit.update_upheld {pending : List Answers} {settings : Settings} {fields : Bytes}
    {lib : LibraryFile} (h : Upheld pending settings fields lib) (edit : Edit) :
    Upheld pending settings fields (Steps.left edit.update lib) := by
  cases edit with
  | start name =>
    refine h.left_of_tracks (.bind (Headed.startPlaylist name) fun _ => .pure ())
      (fun _ hheaded => ?_) fun _ hlib => ?_
    · exact .bind (hheaded.upheld_startPlaylist name) fun _ _ _ => .pure ()
    · exact Steps.bind_error (startPlaylist_unmapped hlib name)
  | delete name =>
    exact h.left_of_tracks (Headed.deletePlaylist name) (fun _ hheaded =>
      hheaded.upheld_deletePlaylist name) fun _ hlib => deletePlaylist_unmapped hlib name
  | add playlist path =>
    exact h.left_of_tracks (Headed.addPath playlist path) (fun _ hheaded =>
      hheaded.upheld_addPath playlist path) fun _ hlib => addPath_unmapped hlib playlist path
  | remove playlist path =>
    refine h.left_of_tracks (.bind (Headed.removePath playlist path) fun _ => .pure ())
      (fun _ _ => .bind Tracks.removePath fun _ _ _ => .pure ()) fun _ hlib => ?_
    exact Steps.bind_error (removePath_unmapped hlib playlist path)

/-- What can be done in a session. All clones of a handle are the handle, so that making one does
nothing. -/
inductive Act where
  | create (path title mediaPrefix : String)
  | openWith (path : String) (settings : Settings)
  | close (h : Handle)
  | change (h : Handle) (edit : Edit)
  | ask (h : Handle) (question : LibraryFile → Query Unit)

def Act.run (system : System) : Act → Action Unit
  | .create path title mediaPrefix => Session.createFacing system path title mediaPrefix
  | .openWith path settings => do let _ ← Session.openFacing system path settings
  | .close h => Session.closeFacing system h
  | .change h edit => Session.change h (edit.update.facing system)
  | .ask h question => Session.ask h fun lib => question (lib.facing system)

/-- Where acts lead from `start`, each being done or refused, before systems that have some of these
answers in store. A fault ends the run. -/
inductive Runs (pending : List Answers) (start : Session) : Session → Prop
  | refl : Runs pending start start
  | act {s : Session} (h : Runs pending start s) (act : Act) {system : System}
      (rest : system.pending ⊆ pending) (sound : ∀ f s', act.run system s ≠ .error (.fault f) s') :
      Runs pending start (Steps.left (act.run system) s)

section Runs

variable {pending : List Answers} {start s s' : Session}

theorem Runs.ok (h : Runs pending start s) (act : Act) {system : System}
    (rest : system.pending ⊆ pending) (hrun : act.run system s = .ok () s') :
    Runs pending start s' := by
  have hsound : ∀ f t, act.run system s ≠ .error (.fault f) t := by
    intro f t
    rw [hrun]
    exact nofun
  have hnext := h.act act rest hsound
  rwa [Steps.left_ok hrun] at hnext

theorem Runs.refused (h : Runs pending start s) (act : Act) {system : System}
    (rest : system.pending ⊆ pending) {e : LibraryError}
    (hrun : act.run system s = .error (.refused e) s') : Runs pending start s' := by
  have hsound : ∀ f t, act.run system s ≠ .error (.fault f) t := by
    intro f t
    rw [hrun]
    exact nofun
  have hnext := h.act act rest hsound
  rwa [Steps.left_error hrun] at hnext

theorem Runs.trans (h : Runs pending start s) (hrest : Runs pending s s') :
    Runs pending start s' := by
  induction hrest with
  | refl => exact h
  | act _ act rest sound ih => exact ih.act act rest sound

end Runs

section Files

variable {pending : List Answers} {disk disk' : Disk} {m : Mapping} {settings : Settings}
  {fields : Bytes}

theorem numbered_of_upheld (h : Upheld pending settings fields (m.library disk)) :
    m.file < disk.files.length := by
  by_contra hmissing
  have hsize := h.size_le
  have hempty : disk.contents m.file = .blank 0 := by
    simp [Disk.contents, List.getElem?_eq_none (Nat.not_lt.1 hmissing)]
  have hblank : (m.library disk).contents.size = 0 := by
    rw [Mapping.library, hempty, Image.size_blank]
  rw [hblank] at hsize
  cases hsize

theorem upheld_of_contents (h : Upheld pending settings fields (m.library disk))
    (hcontents : disk'.contents m.file = disk.contents m.file) :
    Upheld pending settings fields (m.library disk') := by
  rwa [Mapping.library, hcontents]

end Files

/-! What each operation leaves of a session. -/

namespace Session

variable {s : Session} {h h' : Handle} {m : Mapping}

theorem left_change {α : Type} {update : Update α} (hs : s.state h = .opened m)
    (sound : ∀ f s', change h update s ≠ .error (.fault f) s') :
    Steps.left (change h update) s
      = s.settled h m (Steps.left update (m.library s.disk)) := by
  cases hupdate : update (m.library s.disk) with
  | ok a lib => rw [Steps.left_ok hupdate, Steps.left_ok (change_of_ok hs hupdate)]
  | error e lib =>
    cases e with
    | refused e => rw [Steps.left_error hupdate, Steps.left_error (change_of_refused hs hupdate)]
    | fault f =>
      refine absurd ?_ (sound f
        ({ s with disk := s.disk.setContents m.file lib.contents }.setState h .poisoned))
      rw [change_eq hs, hupdate]

theorem left_ask {α : Type} {question : LibraryFile → Query α}
    (sound : ∀ f s', ask h question s ≠ .error (.fault f) s') :
    Steps.left (ask h question) s = s := by
  cases hm : s.mappingOf h with
  | error e => rw [Steps.left, ask, hm]
  | ok m =>
    cases hanswer : m.ask s.disk question with
    | ok a =>
      rw [Steps.left, ask, hm]
      simp only [hanswer]
    | error e =>
      cases e with
      | refused e =>
        rw [Steps.left, ask, hm]
        simp only [hanswer]
      | fault f =>
        refine absurd ?_ (sound f (s.setState h .poisoned))
        rw [ask, hm]
        simp only [hanswer]

theorem left_createFacing (system : System) (path title mediaPrefix : String) : ∃ disk,
    Steps.left (createFacing system path title mediaPrefix) s = { s with disk } ∧
    ∀ number, number < s.disk.files.length → disk.contents number = s.disk.contents number := by
  cases hmake : Disk.makeLibrary path title mediaPrefix system.now s.disk with
  | ok _ disk =>
    refine ⟨disk, ?_, (Disk.gained_of_makeLibrary hmake).kept⟩
    rw [Steps.left, createFacing, hmake]
  | error e disk =>
    obtain ⟨-, hundone, -⟩ := Disk.undone_of_makeLibrary hmake
    refine ⟨disk, ?_, hundone.kept⟩
    rw [Steps.left, createFacing, hmake]

theorem exists_of_openLibrary {disk : Disk} {path : String} {settings : Settings} {system : System}
    (hopen : disk.openLibrary path settings system = .ok m) :
    ∃ v, Keeps m.settings v (m.library disk) := by
  rcases Disk.openLibrary_cases disk path settings system with hsame | ⟨e, -, hrefused⟩
  · rw [hsame] at hopen
    obtain ⟨_, -, hopen⟩ := Steps.query_eq_ok_iff.1 hopen
    obtain ⟨number, -, hopen⟩ := Steps.query_eq_ok_iff.1 hopen
    obtain ⟨_, -, hopen⟩ := Steps.query_eq_ok_iff.1 hopen
    obtain ⟨lib, hlib, hopen⟩ := Steps.query_eq_ok_iff.1 hopen
    obtain rfl := Except.ok.inj hopen
    obtain ⟨hcontents, v, hv⟩ := keeps_of_ofContents hlib
    exact ⟨v, hv.holding.congr hv.holding.settings_eq.symm hcontents.symm rfl hv.holding.calm.symm,
      hv.sized⟩
  · rw [hrefused] at hopen
    cases hopen

theorem openFacing_of_openLibrary {path : String} {settings : Settings} {system : System}
    (hopen : s.disk.openLibrary path settings system = .ok m) : ∃ fields,
      Headed m.settings fields (m.library s.disk) ∧
      openFacing system path settings s = if s.roster.contains (nameIn fields) then
          .error (.refused (.alreadyOpen (nameIn fields))) s
        else .ok s.libraries.length (s.enrolled m fields) := by
  obtain ⟨v, hv⟩ := exists_of_openLibrary hopen
  exact ⟨v.fields, ⟨v, hv, rfl⟩, openFacing_eq hopen hv⟩

/-- What an act can do to a session. -/
inductive Moves (pending : List Answers) (s : Session) : Session → Prop
  | stay : Moves pending s s
  | make (disk : Disk) (hdisk : ∀ number, number < s.disk.files.length →
      disk.contents number = s.disk.contents number) : Moves pending s { s with disk }
  | enroll (m : Mapping) (fields : Bytes) (hheaded : Headed m.settings fields (m.library s.disk))
      (hfree : s.roster.contains (nameIn fields) = false) : Moves pending s (s.enrolled m fields)
  | close (h : Handle) (m : Mapping) (hs : s.state h = .opened m) :
      Moves pending s ({ s with roster := s.roster.unregister h }.setState h .closed)
  | strike (h : Handle) (hs : ∀ m, s.state h ≠ .opened m) :
      Moves pending s { s with roster := s.roster.unregister h }
  | settle (h : Handle) (m : Mapping) (lib : LibraryFile) (hs : s.state h = .opened m)
      (hlib : ∀ fields, Upheld pending m.settings fields (m.library s.disk) →
        Upheld pending m.settings fields lib) : Moves pending s (s.settled h m lib)

variable {pending : List Answers} {system : System}

theorem moves_openWith (path : String) (settings : Settings) :
    Moves pending s (Steps.left ((Act.openWith path settings).run system) s) := by
  cases hopen : s.disk.openLibrary path settings system with
  | error e =>
    have hrun : (Act.openWith path settings).run system s = .error e s :=
      Steps.bind_error (openFacing_of_error hopen)
    rw [Steps.left_error hrun]
    exact .stay
  | ok m =>
    obtain ⟨fields, hheaded, hopened⟩ := openFacing_of_openLibrary hopen
    by_cases htaken : s.roster.contains (nameIn fields) = true
    · rw [if_pos htaken] at hopened
      have hrun : (Act.openWith path settings).run system s
          = .error (.refused (.alreadyOpen (nameIn fields))) s := Steps.bind_error hopened
      rw [Steps.left_error hrun]
      exact .stay
    · rw [if_neg htaken] at hopened
      have hrun : (Act.openWith path settings).run system s = .ok () (s.enrolled m fields) :=
        Steps.bind_ok hopened
      rw [Steps.left_ok hrun]
      exact .enroll m fields hheaded (Bool.eq_false_of_not_eq_true htaken)

theorem moves_close (h : Handle) : Moves pending s (Steps.left ((Act.close h).run system) s) := by
  cases hm : s.mappingOf h with
  | ok m =>
    have hs := mappingOf_eq_ok_iff.1 hm
    have hrun : Steps.left ((Act.close h).run system) s
        = { s with roster := s.roster.unregister h }.setState h .closed := by
      rw [Steps.left, Act.run, closeFacing_opened hs]
      cases (if m.mapped.isSome then system.now.flushing else none) <;> rfl
    rw [hrun]
    exact .close h m hs
  | error e =>
    have hrun : Steps.left ((Act.close h).run system) s = _ :=
      Steps.left_error (closeFacing_error hm system)
    rw [hrun]
    refine .strike h fun m hs => ?_
    cases hm.symm.trans (mappingOf_eq_ok_iff.2 hs)

theorem moves_of_run (act : Act) (hrest : system.pending ⊆ pending)
    (sound : ∀ f s', act.run system s ≠ .error (.fault f) s') :
    Moves pending s (Steps.left (act.run system) s) := by
  cases act with
  | create path title mediaPrefix =>
    obtain ⟨disk, hleft, hdisk⟩ := left_createFacing (s := s) system path title mediaPrefix
    have hrun : Steps.left ((Act.create path title mediaPrefix).run system) s = { s with disk } :=
      hleft
    rw [hrun]
    exact .make disk hdisk
  | openWith path settings => exact moves_openWith path settings
  | close h => exact moves_close h
  | change h edit =>
    cases hm : s.mappingOf h with
    | ok m =>
      have hs := mappingOf_eq_ok_iff.1 hm
      have hrun : Steps.left ((Act.change h edit).run system) s = _ :=
        left_change hs sound
      rw [hrun]
      exact .settle h m _ hs fun _ hupheld => edit.update_upheld (hupheld.facing hrest)
    | error e =>
      have hrefused : (Act.change h edit).run system s = .error e s := change_of_unopened hm _
      rw [Steps.left_error hrefused]
      exact .stay
  | ask h question =>
    have hrun : Steps.left ((Act.ask h question).run system) s = s := left_ask sound
    rw [hrun]
    exact .stay

/-- A library that was closed is not opened again under its handle. -/
theorem Moves.closed {s' : Session} (hmoves : Moves pending s s') (hlt : h < s.libraries.length)
    (hs : s.state h = .closed) : h < s'.libraries.length ∧ s'.state h = .closed := by
  cases hmoves with
  | stay => exact ⟨hlt, hs⟩
  | make disk hdisk => exact ⟨hlt, hs⟩
  | enroll m fields hheaded hfree =>
    constructor
    · rw [enrolled, List.length_append]
      exact Nat.lt_add_right _ hlt
    · exact (s.state_enrolled_ne m fields (Nat.ne_of_lt hlt)).trans hs
  | close k m hk =>
    have hne : h ≠ k := by
      rintro rfl
      cases hs.symm.trans hk
    constructor
    · simpa [setState] using hlt
    · exact (state_setState_ne hne _).trans hs
  | strike k hk => exact ⟨hlt, hs⟩
  | settle k m lib hk hlib =>
    have hne : h ≠ k := by
      rintro rfl
      cases hs.symm.trans hk
    constructor
    · simpa [settled, setState] using hlt
    · exact (state_setState_ne hne _).trans hs

end Session

/-- The roster agrees with the libraries: the open ones are on it, each once and under the name in its
header, and no two under one name. -/
structure Accounted (pending : List Answers) (s : Session) : Prop where
  sound : ∀ e ∈ s.roster.entries, ∃ m fields, s.state e.library = .opened m ∧
    Upheld pending m.settings fields (m.library s.disk) ∧ nameIn fields = e.name
  complete : ∀ h m, s.state h = .opened m → ∃ e ∈ s.roster.entries, e.library = h
  unpoisoned : ∀ h, s.state h ≠ .poisoned
  names : (s.roster.entries.map RosterEntry.name).Nodup
  libraries : (s.roster.entries.map RosterEntry.library).Nodup

namespace Accounted

variable {pending : List Answers} {s : Session} {h h' : Handle} {m m' : Mapping}

theorem initial (disk : Disk) : Accounted pending ⟨disk, [], .empty⟩ where
  sound := by simp [Roster.empty]
  complete := by simp [Session.state]
  unpoisoned := by simp [Session.state]
  names := List.nodup_nil
  libraries := List.nodup_nil

theorem exists_entry (hc : Accounted pending s) (hs : s.state h = .opened m) :
    ∃ e ∈ s.roster.entries, e.library = h ∧ ∃ fields,
      Upheld pending m.settings fields (m.library s.disk) ∧ nameIn fields = e.name := by
  obtain ⟨e, he, rfl⟩ := hc.complete h m hs
  obtain ⟨m', fields, hs', hupheld, hname⟩ := hc.sound e he
  obtain rfl := LibraryState.opened.inj (hs.symm.trans hs')
  exact ⟨e, he, rfl, fields, hupheld, hname⟩

theorem headerName_eq (hc : Accounted pending s) (hs : s.state h = .opened m) :
    ∃ e ∈ s.roster.entries, e.library = h ∧ m.headerName s.disk = .ok e.name := by
  obtain ⟨e, he, hlibrary, fields, hupheld, hname⟩ := hc.exists_entry hs
  exact ⟨e, he, hlibrary, hname ▸ hupheld.whole_name_eq⟩

theorem name_ne (hc : Accounted pending s) (hs : s.state h = .opened m)
    (hs' : s.state h' = .opened m') (hne : h ≠ h') : ∃ name name',
      m.headerName s.disk = .ok name ∧ m'.headerName s.disk = .ok name' ∧ name ≠ name' := by
  obtain ⟨e, he, rfl, hname⟩ := hc.headerName_eq hs
  obtain ⟨e', he', rfl, hname'⟩ := hc.headerName_eq hs'
  refine ⟨_, _, hname, hname', fun heq => hne ?_⟩
  rw [List.inj_on_of_nodup_map hc.names he he' heq]

/-- Two open libraries have different files: of one file they would tell one name. -/
theorem file_ne (hc : Accounted pending s) (hs : s.state h = .opened m)
    (hs' : s.state h' = .opened m') (hne : h ≠ h') : m.file ≠ m'.file := by
  intro hfile
  have hsame : m.headerName s.disk = m'.headerName s.disk := by
    simp only [Mapping.headerName, Mapping.library, hfile]
    rfl
  obtain ⟨name, name', hname, hname', hdiffer⟩ := hc.name_ne hs hs' hne
  exact hdiffer (Except.ok.inj (hname.symm.trans (hsame.trans hname')))

theorem absent_of_not_opened (hc : Accounted pending s) (hs : ∀ m, s.state h ≠ .opened m) :
    ∀ e ∈ s.roster.entries, e.library ≠ h := by
  rintro e he rfl
  obtain ⟨m, -, hopened, -⟩ := hc.sound e he
  exact hs m hopened

theorem of_upheld {s' : Session} (hc : Accounted pending s) (hroster : s'.roster = s.roster)
    (hforth : ∀ h m, s.state h = .opened m → ∃ m', s'.state h = .opened m' ∧
      ∀ fields, Upheld pending m.settings fields (m.library s.disk) →
        Upheld pending m'.settings fields (m'.library s'.disk))
    (hback : ∀ h, (∀ m, s.state h ≠ .opened m) → s'.state h = s.state h) : Accounted pending s' where
  sound := by
    intro e he
    rw [hroster] at he
    obtain ⟨m, fields, hs, hupheld, hname⟩ := hc.sound e he
    obtain ⟨m', hs', hkept⟩ := hforth _ m hs
    exact ⟨m', fields, hs', hkept fields hupheld, hname⟩
  complete := by
    intro h m hs'
    rw [hroster]
    by_cases hopen : ∃ m, s.state h = .opened m
    · obtain ⟨m, hs⟩ := hopen
      exact hc.complete h m hs
    · rw [not_exists] at hopen
      exact hc.complete h m ((hback h hopen).symm.trans hs')
  unpoisoned := by
    intro h hs'
    by_cases hopen : ∃ m, s.state h = .opened m
    · obtain ⟨m, hs⟩ := hopen
      obtain ⟨m', hopened, -⟩ := hforth h m hs
      cases hs'.symm.trans hopened
    · rw [not_exists] at hopen
      exact hc.unpoisoned h ((hback h hopen).symm.trans hs')
  names := hroster ▸ hc.names
  libraries := hroster ▸ hc.libraries

theorem create (hc : Accounted pending s) {disk : Disk} (hdisk : ∀ number, number < s.disk.files.length →
    disk.contents number = s.disk.contents number) : Accounted pending { s with disk } := by
  refine hc.of_upheld rfl ?_ (fun _ _ => rfl)
  intro h m hs
  refine ⟨m, hs, fun fields hupheld => ?_⟩
  exact upheld_of_contents hupheld (hdisk _ (numbered_of_upheld hupheld))

theorem settled (hc : Accounted pending s) (hs : s.state h = .opened m) {lib : LibraryFile}
    (hlib : ∀ fields, Upheld pending m.settings fields (m.library s.disk) →
      Upheld pending m.settings fields lib) : Accounted pending (s.settled h m lib) := by
  have hlt := Session.lt_of_opened hs
  refine hc.of_upheld rfl ?_ ?_
  · intro k mk hk
    by_cases hkh : k = h
    · subst hkh
      obtain rfl := LibraryState.opened.inj (hs.symm.trans hk)
      refine ⟨_, Session.state_setState (s := { s with disk := _ }) hlt _, ?_⟩
      intro fields hupheld
      have hcontents : (s.disk.setContents m.file lib.contents).contents m.file = lib.contents :=
        Disk.contents_setContents (numbered_of_upheld hupheld)
      exact (hlib fields hupheld).congr hcontents rfl rfl (List.nil_subset _)
    · refine ⟨mk, (Session.state_setState_ne hkh _).trans hk, fun fields hupheld => ?_⟩
      exact upheld_of_contents hupheld (Disk.contents_setContents_ne (hc.file_ne hk hs hkh) _)
  · intro k hk
    have hkh : k ≠ h := by
      rintro rfl
      exact hk m hs
    exact Session.state_setState_ne hkh _

theorem closed (hc : Accounted pending s) (hs : s.state h = .opened m) :
    Accounted pending ({ s with roster := s.roster.unregister h }.setState h .closed) := by
  have hlt := Session.lt_of_opened hs
  have hself := Session.state_setState (s := { s with roster := s.roster.unregister h }) hlt .closed
  have hothers {k : Handle} (hk : k ≠ h) :
      ({ s with roster := s.roster.unregister h }.setState h .closed).state k = s.state k :=
    Session.state_setState_ne hk _
  have hsub : (s.roster.unregister h).entries.Sublist s.roster.entries := List.filter_sublist
  refine ⟨?_, ?_, ?_, hc.names.sublist (hsub.map _), hc.libraries.sublist (hsub.map _)⟩
  · intro e he
    obtain ⟨hmem, hne⟩ := Roster.mem_unregister.1 he
    obtain ⟨m', fields, hs', hupheld, hname⟩ := hc.sound e hmem
    exact ⟨m', fields, (hothers hne).trans hs', hupheld, hname⟩
  · intro k mk hk
    have hkh : k ≠ h := by
      rintro rfl
      cases hself.symm.trans hk
    rw [hothers hkh] at hk
    obtain ⟨e, he, rfl⟩ := hc.complete k mk hk
    exact ⟨e, Roster.mem_unregister.2 ⟨he, hkh⟩, rfl⟩
  · intro k hk
    by_cases hkh : k = h
    · subst hkh
      cases hself.symm.trans hk
    · exact hc.unpoisoned k ((hothers hkh).symm.trans hk)

theorem enrolled (hc : Accounted pending s) {fields : Bytes}
    (hheaded : Headed m.settings fields (m.library s.disk))
    (hfree : s.roster.contains (nameIn fields) = false) : Accounted pending (s.enrolled m fields) := by
  have hself := s.state_enrolled_self m fields
  have hothers {k : Handle} (hk : k ≠ s.libraries.length) :
      (s.enrolled m fields).state k = s.state k := s.state_enrolled_ne m fields hk
  have hbelow {e : RosterEntry} (he : e ∈ s.roster.entries) : e.library ≠ s.libraries.length := by
    obtain ⟨m', -, hs', -⟩ := hc.sound e he
    exact Nat.ne_of_lt (Session.lt_of_opened hs')
  refine ⟨?_, ?_, ?_, ?_, ?_⟩
  · intro e he
    rcases List.mem_append.1 he with he | he
    · obtain ⟨m', fields', hs', hheaded', hname⟩ := hc.sound e he
      exact ⟨m', fields', (hothers (hbelow he)).trans hs', hheaded', hname⟩
    · obtain rfl := List.mem_singleton.1 he
      exact ⟨m, fields, hself, hheaded.upheld, rfl⟩
  · intro k mk hk
    by_cases hkl : k = s.libraries.length
    · subst hkl
      exact ⟨_, List.mem_append_right _ (List.mem_singleton_self _), rfl⟩
    · rw [hothers hkl] at hk
      obtain ⟨e, he, rfl⟩ := hc.complete k mk hk
      exact ⟨e, List.mem_append_left _ he, rfl⟩
  · intro k hk
    by_cases hkl : k = s.libraries.length
    · subst hkl
      cases hself.symm.trans hk
    · exact hc.unpoisoned k ((hothers hkl).symm.trans hk)
  · have hnew : nameIn fields ∉ s.roster.entries.map RosterEntry.name := by
      simpa [Roster.contains] using hfree
    simpa [Session.enrolled, List.nodup_append] using ⟨hc.names, by simpa using hnew⟩
  · have hnew : s.libraries.length ∉ s.roster.entries.map RosterEntry.library := by
      intro hmem
      obtain ⟨e, he, heq⟩ := List.mem_map.1 hmem
      exact hbelow he heq
    simpa [Session.enrolled, List.nodup_append] using ⟨hc.libraries, by simpa using hnew⟩

/-- No move brings the roster apart from the libraries. -/
theorem moves {s' : Session} (hc : Accounted pending s) (hmoves : Session.Moves pending s s') : Accounted pending s' := by
  cases hmoves with
  | stay => exact hc
  | make disk hdisk => exact hc.create hdisk
  | enroll m fields hheaded hfree => exact hc.enrolled hheaded hfree
  | close h m hs => exact hc.closed hs
  | strike h hs =>
    rw [Roster.unregister_of_absent (hc.absent_of_not_opened hs)]
    exact hc
  | settle h m lib hs hlib => exact hc.settled hs hlib

end Accounted

section Run

variable {pending : List Answers} {disk : Disk} {s : Session} {h : Handle}

theorem Runs.accounted (hrun : Runs pending ⟨disk, [], .empty⟩ s) : Accounted pending s := by
  induction hrun with
  | refl => exact .initial disk
  | act _ act rest sound ih => exact ih.moves (Session.moves_of_run act rest sound)

theorem Runs.closed {s' : Session} (hrun : Runs pending s s') (hlt : h < s.libraries.length)
    (hs : s.state h = .closed) : h < s'.libraries.length ∧ s'.state h = .closed := by
  induction hrun with
  | refl => exact ⟨hlt, hs⟩
  | act _ act rest sound ih => exact (Session.moves_of_run act rest sound).closed ih.1 ih.2

/-- What the roster of a session tells, and what opening and closing do before any system. The name of
an open library is that in its header; it is not told if the library could not be mapped. -/
structure Orderly (pending : List Answers) (s : Session) : Prop where
  included : ∀ h, s.roster.includes h = true ↔ ∃ m, s.state h = .opened m
  contains : ∀ name, s.roster.contains name = true ↔
    ∃ h m, s.state h = .opened m ∧ m.headerName s.disk = .ok name
  told : ∀ h m, s.state h = .opened m → m.ask s.disk LibraryFile.name = m.headerName s.disk ∨
    m.mapped = none ∧ ∃ answers ∈ pending, answers.mapping.isSome
  apart : ∀ h h' m m', s.state h = .opened m → s.state h' = .opened m' → h ≠ h' →
    m.file ≠ m'.file ∧ ∃ name name', m.headerName s.disk = .ok name ∧
      m'.headerName s.disk = .ok name' ∧ name ≠ name'
  alreadyOpen : ∀ system path settings name s',
    Session.openFacing system path settings s = .error (.refused (.alreadyOpen name)) s' ↔
      s' = s ∧ s.roster.contains name = true ∧ ∃ m,
        s.disk.openLibrary path settings system = .ok m ∧
        m.ask s.disk LibraryFile.name = .ok name
  closes : ∀ system h m, s.state h = .opened m → ∃ before e after s',
    s.roster.entries = before ++ e :: after ∧ e.library = h ∧ m.headerName s.disk = .ok e.name ∧
      (Session.closeFacing system h s = .ok () s' ∨ ∃ refusal, system.now.flushing = some refusal ∧
        Session.closeFacing system h s = .error (.refused (.io refusal)) s') ∧
      s'.roster.entries = before ++ after ∧ s'.disk = s.disk ∧ s'.state h = .closed ∧
      ∀ h', h' ≠ h → s'.state h' = s.state h'

/-- A closed library refuses whatever is asked of it, and nothing comes of that. -/
structure Shut (s : Session) (h : Handle) : Prop where
  state : s.state h = .closed
  close : ∀ system, Session.closeFacing system h s = .error (.refused .closed) s
  change : ∀ {α : Type} (update : Update α),
    Session.change h update s = .error (.refused .closed) s
  ask : ∀ {α : Type} (question : LibraryFile → Query α),
    Session.ask h question s = .error (.refused .closed) s

theorem Accounted.shut (hc : Accounted pending s) (hs : s.state h = .closed) : Shut s h where
  state := hs
  close := by
    intro system
    have hstrike := Session.closeFacing_error (Session.mappingOf_of_closed hs) system
    rwa [Roster.unregister_of_absent (hc.absent_of_not_opened (by simp [hs]))] at hstrike
  change := fun update => Session.change_of_unopened (Session.mappingOf_of_closed hs) update
  ask := fun question => Session.ask_of_unopened (Session.mappingOf_of_closed hs) question

theorem openLibrary_ne_alreadyOpen (disk : Disk) (path : String) (settings : Settings)
    (system : System) (name : String) :
    disk.openLibrary path settings system ≠ .error (.refused (.alreadyOpen name)) := by
  intro h
  rcases Disk.openLibrary_cases disk path settings system with hsame | ⟨e, -, hrefused⟩
  swap
  · rw [hrefused] at h
    cases h
  rw [hsame] at h
  rcases Steps.query_eq_error_iff.1 h with hvalid | ⟨_, -, h⟩
  · obtain ⟨e, -, heq⟩ := Steps.ofCheck_eq_error_iff.1 hvalid
    cases heq
  rcases Steps.query_eq_error_iff.1 h with hfound | ⟨number, -, h⟩
  · obtain ⟨e, -, heq⟩ := Steps.ofCheck_eq_error_iff.1 hfound
    cases heq
  rcases Steps.query_eq_error_iff.1 h with hgranted | ⟨_, -, h⟩
  · cases hgranted
  rcases Steps.query_eq_error_iff.1 h with hlib | ⟨lib, -, h⟩
  · rcases ofContents_error hlib with heq | ⟨damage, heq⟩ | ⟨e, heq⟩ <;> cases heq
  · cases h

theorem openFacing_alreadyOpen_iff {system : System} {path : String} {settings : Settings}
    {name : String} {s s' : Session} :
    Session.openFacing system path settings s = .error (.refused (.alreadyOpen name)) s' ↔
      s' = s ∧ s.roster.contains name = true ∧ ∃ m,
        s.disk.openLibrary path settings system = .ok m ∧
        m.ask s.disk LibraryFile.name = .ok name := by
  cases hopen : s.disk.openLibrary path settings system with
  | error e =>
    rw [openFacing_of_error hopen]
    constructor
    · intro herror
      obtain ⟨rfl, -⟩ := EStateM.Result.error.inj herror
      exact absurd hopen (openLibrary_ne_alreadyOpen _ _ _ _ _)
    · rintro ⟨-, -, m, hm, -⟩
      cases hm
  | ok m =>
    obtain ⟨fields, hheaded, hopened⟩ := Session.openFacing_of_openLibrary hopen
    rw [hopened]
    have hname : m.ask s.disk LibraryFile.name = .ok (nameIn fields) := hheaded.name_eq
    constructor
    · intro herror
      split at herror
      · rename_i htaken
        obtain ⟨heq, rfl⟩ := EStateM.Result.error.inj herror
        obtain rfl := LibraryError.alreadyOpen.inj (Failure.refused.inj heq)
        exact ⟨rfl, htaken, m, rfl, hname⟩
      · cases herror
    · rintro ⟨rfl, htaken, m', hm', hname'⟩
      obtain rfl := Except.ok.inj hm'
      obtain rfl := Except.ok.inj (hname.symm.trans hname')
      rw [if_pos htaken]

theorem Accounted.orderly (hc : Accounted pending s) : Orderly pending s where
  included := by
    intro h
    constructor
    · intro hincluded
      obtain ⟨e, he, heq⟩ := List.any_eq_true.1 hincluded
      obtain ⟨m, -, hs, -⟩ := hc.sound e he
      rw [decide_eq_true_eq] at heq
      exact ⟨m, heq ▸ hs⟩
    · rintro ⟨m, hs⟩
      obtain ⟨e, he, heq⟩ := hc.complete h m hs
      exact List.any_eq_true.2 ⟨e, he, decide_eq_true heq⟩
  contains := by
    intro name
    constructor
    · intro hcontains
      obtain ⟨e, he, heq⟩ := List.any_eq_true.1 hcontains
      obtain ⟨m, fields, hs, hupheld, hname⟩ := hc.sound e he
      rw [decide_eq_true_eq] at heq
      exact ⟨_, m, hs, heq ▸ hname ▸ hupheld.whole_name_eq⟩
    · rintro ⟨h, m, hs, hname⟩
      obtain ⟨e, he, -, hname'⟩ := hc.headerName_eq hs
      exact List.any_eq_true.2
        ⟨e, he, decide_eq_true (Except.ok.inj (hname'.symm.trans hname))⟩
  told := by
    intro h m hs
    obtain ⟨-, -, -, fields, hupheld, -⟩ := hc.exists_entry hs
    exact hupheld.name_eq.imp_left fun hname => hname.trans hupheld.whole_name_eq.symm
  apart := fun h h' m m' hs hs' hne => ⟨hc.file_ne hs hs' hne, hc.name_ne hs hs' hne⟩
  alreadyOpen := fun _ _ _ _ _ => openFacing_alreadyOpen_iff
  closes := by
    intro system h m hs
    obtain ⟨e, he, rfl, hname⟩ := hc.headerName_eq hs
    obtain ⟨before, after, hsplit⟩ := List.append_of_mem he
    have hlt := Session.lt_of_opened hs
    exact ⟨before, e, after, _, hsplit, rfl, hname, Session.closeFacing_outcome hs system,
      Roster.entries_unregister hc.libraries hsplit, rfl,
      Session.state_setState (s := { s with roster := _ }) hlt .closed, fun h' hne =>
        Session.state_setState_ne hne _⟩

/-- After any acts in a session before any systems, beginning without open libraries and with any
files, the roster tells which libraries are open; these have names and files of their own. A library
that is closed then, or at any time later, refuses everything from then on, under all clones of its
handle. -/
theorem orderly_of_runs (hrun : Runs pending ⟨disk, [], .empty⟩ s) : Orderly pending s ∧
    ∀ h < s.libraries.length, (∀ m, s.state h ≠ .opened m) → ∀ s', Runs pending s s' → Shut s' h := by
  have hc := hrun.accounted
  refine ⟨hc.orderly, fun h hlt hs s' hrest => ?_⟩
  have hclosed : s.state h = .closed := by
    cases hstate : s.state h with
    | opened m => exact absurd hstate (hs m)
    | closed => rfl
    | poisoned => exact absurd hstate (hc.unpoisoned h)
  obtain ⟨-, hstill⟩ := hrest.closed hlt hclosed
  exact (hrun.trans hrest).accounted.shut hstill

/-- A library is opened, closed without being flushed, and opened again: its first handle stays
closed, and while it is open under the second it cannot be opened once more. -/
theorem orderly_of_runs_reopened : ∃ first second s,
    Runs [{ flushing := some .notFound }] .empty s ∧ Shut s first ∧
    s.roster.includes second = true ∧
    Session.openWith "a" .default s = .error (.refused (.alreadyOpen "music")) s := by
  obtain ⟨made, first, opened, hcreate, hopen⟩ := exists_fresh
  obtain ⟨hvalid, hname, file, hserves⟩ := serves_of_create hcreate hopen
  obtain ⟨closed, hclose, hclosed⟩ := hserves.close_ok
  obtain ⟨second, reopened, hreopen, hserved⟩ := hclosed.reopen_ok hvalid
  have hcalm : System.calm.pending ⊆ [{ flushing := some FileError.notFound }] := List.nil_subset _
  have hmade : Runs [{ flushing := some .notFound }] .empty made :=
    Runs.refl.ok (.create "a" "music" "/m") hcalm hcreate
  have hopened : Runs [{ flushing := some .notFound }] .empty opened :=
    hmade.ok (.openWith "a" .default) hcalm (Steps.bind_ok hopen)
  have heq := (EStateM.Result.ok.inj ((Session.close_opened hserves.opened).symm.trans hclose)).2
  have hrun : Runs [{ flushing := some .notFound }] .empty closed := by
    have hclosed : (Act.close first).run ⟨[{ flushing := some .notFound }]⟩ opened
        = .error (.refused (.io .notFound)) closed := by
      rw [← heq]
      exact Session.closeFacing_opened hserves.opened _
    exact hopened.refused (.close first) (List.Subset.refl _) hclosed
  have hrest : Runs [{ flushing := some .notFound }] closed reopened :=
    Runs.refl.ok (.openWith "a" .default) hcalm (Steps.bind_ok hreopen)
  have hlt : first < closed.libraries.length := by
    rw [← heq]
    simpa [Session.setState] using Session.lt_of_opened hserves.opened
  have hstate : closed.state first = .closed := hclosed.state
  obtain ⟨-, hshut⟩ := orderly_of_runs hrun
  obtain ⟨horderly, -⟩ := orderly_of_runs (hrun.trans hrest)
  refine ⟨first, second, reopened, hrun.trans hrest, ?_, ?_, ?_⟩
  · exact hshut first hlt (by simp [hstate]) reopened hrest
  · exact (horderly.included second).2 ⟨_, hserved.opened⟩
  · have hagain := hserved.reopen_opened hvalid
    rwa [hname] at hagain

end Run
end MediaLibrary
