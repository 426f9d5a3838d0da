import MediaLibrary.Proofs.Session.Creation
import MediaLibrary.Proofs.Session.Serving
/-! Opening and closing a library. Closing strikes its name off the roster, so that it can be opened
again; while the name is on the roster it cannot. A library that was just made and opened has no
playlists. -/
namespace MediaLibrary

open LibraryFile

variable {path : String} {settings : Settings} {fields : Bytes} {file : Nat}
  {listings : List Listing} {d : Desk}

namespace Session

variable {s : Session} {h : Handle} {m : Mapping}

theorem closeFacing_opened (hs : s.state h = .opened m) (system : System) :
    closeFacing system h s
      = match if m.mapped.isSome then system.now.flushing else none with
        | none => .ok () ({ s with roster := s.roster.unregister h }.setState h .closed)
        | some e => .error (.refused (.io e))
          ({ s with roster := s.roster.unregister h }.setState h .closed) := by
  have hmapping : consult (mappingOf · h) { s with roster := s.roster.unregister h }
      = .ok m { s with roster := s.roster.unregister h } :=
    Steps.consult_ok (mappingOf_opened hs)
  refine (Steps.bind_ok rfl).trans ((Steps.bind_ok hmapping).trans ?_)
  rw [Steps.bind_modify]
  cases m.mapped with
  | none => rfl
  | some size => cases system.now.flushing <;> rfl

theorem close_opened (hs : s.state h = .opened m) : close h s
    = .ok () ({ s with roster := s.roster.unregister h }.setState h .closed) := by
  rw [close, closeFacing_opened hs]
  cases m.mapped <;> rfl

theorem closeFacing_outcome (hs : s.state h = .opened m) (system : System) :
    closeFacing system h s
        = .ok () ({ s with roster := s.roster.unregister h }.setState h .closed) ∨
      ∃ e, system.now.flushing = some e ∧ closeFacing system h s = .error (.refused (.io e))
        ({ s with roster := s.roster.unregister h }.setState h .closed) := by
  rw [closeFacing_opened hs]
  cases m.mapped with
  | none => exact Or.inl rfl
  | some size =>
    cases hflushing : system.now.flushing with
    | none => exact Or.inl rfl
    | some e => exact Or.inr ⟨e, rfl, rfl⟩

theorem closeFacing_error {e : Failure LibraryError} (hs : s.mappingOf h = .error e)
    (system : System) :
    closeFacing system h s = .error e { s with roster := s.roster.unregister h } := by
  have hmapping : consult (mappingOf · h) { s with roster := s.roster.unregister h }
      = .error e { s with roster := s.roster.unregister h } := Steps.consult_error hs
  exact (Steps.bind_ok rfl).trans (Steps.bind_error hmapping)

end Session

namespace Seated

variable {m : Mapping}

theorem closed (h : Seated path fields file true (.opened m) d) :
    Seated path fields file false .closed { d with session :=
      { d.session with roster := d.session.roster.unregister d.handle }.setState d.handle .closed } :=
  ⟨h.found, h.numbered, Session.state_setState (s := { d.session with
      roster := d.session.roster.unregister d.handle }) (Session.lt_of_opened h.state) .closed,
    Roster.contains_unregister h.own, fun e he => h.own e (Roster.mem_unregister.1 he).1⟩

theorem struck (h : Seated path fields file false .closed d) :
    Seated path fields file false .closed { d with session :=
      { d.session with roster := d.session.roster.unregister d.handle } } :=
  ⟨h.found, h.numbered, h.state, Roster.contains_unregister h.own,
    fun e he => h.own e (Roster.mem_unregister.1 he).1⟩

end Seated

namespace Serves

theorem close_ok (h : Serves path settings fields file true listings d) :
    ∃ session, Session.close d.handle d.session = .ok () session ∧
      Serves path settings fields file false listings { d with session } :=
  ⟨_, Session.close_opened h.opened, h.toSeated.closed, h.lists⟩

theorem close_closed (h : Serves path settings fields file false listings d) :
    ∃ session, Session.close d.handle d.session = .error (.refused .closed) session ∧
      Serves path settings fields file false listings { d with session } :=
  ⟨_, Session.closeFacing_error h.mappingOf_closed .calm, h.toSeated.struck, h.lists⟩

end Serves

/-! Opening. -/

section Open

variable {s : Session} {system : System}

theorem openWith_invalid {e : SettingsError} (h : settings.validate = .error e) :
    Session.openWith path settings s = .error (.refused (.settings e)) s := by
  refine Steps.bind_error (Steps.consult_error ?_)
  rw [Disk.openLibrary, h]
  rfl

def Session.enrolled (s : Session) (m : Mapping) (fields : Bytes) : Session :=
  { s with
    libraries := s.libraries ++ [.opened m]
    roster := ⟨s.roster.entries ++ [⟨nameIn fields, mediaPrefixIn fields, s.libraries.length⟩]⟩ }

theorem Session.state_enrolled_self (s : Session) (m : Mapping) (fields : Bytes) :
    (s.enrolled m fields).state s.libraries.length = .opened m := by
  simp [Session.state, enrolled]

theorem Session.state_enrolled_ne (s : Session) (m : Mapping) (fields : Bytes) {h : Handle}
    (hne : h ≠ s.libraries.length) :
    (s.enrolled m fields).state h = s.state h := by
  rcases Nat.lt_or_gt_of_ne hne with hlt | hgt
  · simp [Session.state, enrolled, List.getElem?_append_left hlt]
  · have hlong : (s.libraries ++ [LibraryState.opened m]).length ≤ h := by
      rw [List.length_append]
      exact hgt
    simp [Session.state, enrolled, List.getElem?_eq_none hlong, List.getElem?_eq_none (Nat.le_of_lt hgt)]

theorem openFacing_eq {m : Mapping} {v : Volume} (hopen : s.disk.openLibrary path settings system = .ok m)
    (hkeeps : Keeps m.settings v (m.library s.disk)) :
    Session.openFacing system path settings s =
      if s.roster.contains (nameIn v.fields) then
        .error (.refused (.alreadyOpen (nameIn v.fields))) s
      else .ok s.libraries.length (s.enrolled m v.fields) := by
  have hmapping : consult (fun s : Session => s.disk.openLibrary path settings system) s = .ok m s :=
    Steps.consult_ok hopen
  have hname : consult (fun t : Session => m.ask t.disk LibraryFile.name) s
      = .ok (nameIn v.fields) s := Steps.consult_ok hkeeps.name_eq
  have hprefix : consult (fun t : Session => m.ask t.disk LibraryFile.mediaPrefix) s
      = .ok (mediaPrefixIn v.fields) s := Steps.consult_ok hkeeps.mediaPrefix_eq
  rw [Session.openFacing, Steps.bind_ok hmapping, Steps.bind_ok hname, Steps.bind_ok hprefix,
    Steps.bind_get]
  split
  · rename_i htaken
    refine Steps.bind_error (Steps.consult_error ?_)
    rw [Roster.register, if_pos htaken]
    rfl
  · rename_i hfree
    refine (Steps.bind_ok (Steps.consult_ok (a := ⟨s.roster.entries
      ++ [⟨nameIn v.fields, mediaPrefixIn v.fields, s.libraries.length⟩]⟩) ?_)).trans rfl
    rw [Roster.register, if_neg hfree]
    rfl

theorem openFacing_of_error {e : Failure LibraryError}
    (hopen : s.disk.openLibrary path settings system = .error e) :
    Session.openFacing system path settings s = .error e s :=
  Steps.bind_error (Steps.consult_error hopen)

/-- A library is opened before any system as it is before a calm one, or the system refuses. -/
theorem openFacing_cases (system : System) (path : String) (settings : Settings) (s : Session) :
    Session.openFacing system path settings s = Session.openWith path settings s ∨
      ∃ e, (system.now.opening = some e ∨ system.now.mapping = some e) ∧
        Session.openFacing system path settings s = .error (.refused (.io e)) s := by
  rcases Disk.openLibrary_cases s.disk path settings system with hsame | ⟨e, hanswer, hrefused⟩
  · left
    cases hopen : s.disk.openLibrary path settings with
    | error e => exact (openFacing_of_error (hsame.trans hopen)).trans (openFacing_of_error hopen).symm
    | ok m =>
      have hmapping : consult (fun s : Session => s.disk.openLibrary path settings system) s
          = .ok m s := Steps.consult_ok (hsame.trans hopen)
      have hcalm : consult (fun s : Session => s.disk.openLibrary path settings) s = .ok m s :=
        Steps.consult_ok hopen
      rw [Session.openWith, Session.openFacing, Session.openFacing, Steps.bind_ok hmapping,
        Steps.bind_ok hcalm]
  · exact Or.inr ⟨e, hanswer, openFacing_of_error hrefused⟩

theorem openWith_eq (hvalid : settings.validate = .ok ()) (hfound : s.disk.find path = .ok file)
    {v : Volume} (hkeeps : Keeps settings v (Desk.library ⟨s, 0⟩ path settings file)) :
    Session.openWith path settings s =
      if s.roster.contains (nameIn v.fields) then
        .error (.refused (.alreadyOpen (nameIn v.fields))) s
      else .ok s.libraries.length
        (s.enrolled ⟨path, settings, file, some (s.disk.contents file).size⟩ v.fields) :=
  openFacing_eq (Disk.openLibrary_eq hvalid hfound hkeeps) hkeeps

theorem serves_of_open (hfound : s.disk.find path = .ok file)
    (hnumbered : file < s.disk.files.length)
    (hlists : Lists settings fields listings (Desk.library ⟨s, 0⟩ path settings file))
    (hfree : s.roster.contains (nameIn fields) = false) :
    Serves path settings fields file true listings
      ⟨s.enrolled ⟨path, settings, file, some (s.disk.contents file).size⟩ fields,
        s.libraries.length⟩ where
  lists := hlists
  found := hfound
  numbered := hnumbered
  state := s.state_enrolled_self _ fields
  entered := by simp [Session.enrolled, Roster.contains]
  own := by
    intro e he hname
    rcases List.mem_append.1 he with he | he
    · exact absurd hname (Roster.contains_eq_false.1 hfree e he)
    · rw [List.mem_singleton.1 he]

end Open

namespace Serves

theorem reopen_ok (h : Serves path settings fields file false listings d)
    (hvalid : settings.validate = .ok ()) :
    ∃ handle session, Session.openWith path settings d.session = .ok handle session ∧
      Serves path settings fields file true listings ⟨session, handle⟩ := by
  have hopen := openWith_eq hvalid h.found h.lists.stores.keeps
  rw [if_neg (by simp [h.entered])] at hopen
  exact ⟨_, _, hopen, serves_of_open h.found h.numbered h.lists h.entered⟩

theorem reopen_opened (h : Serves path settings fields file true listings d)
    (hvalid : settings.validate = .ok ()) :
    Session.openWith path settings d.session
      = .error (.refused (.alreadyOpen (nameIn fields))) d.session := by
  exact (openWith_eq hvalid h.found h.lists.stores.keeps).trans (if_pos h.entered)

end Serves

theorem create_eq_ok {title mediaPrefix : String} {before made : Session}
    (h : Session.create path title mediaPrefix before = .ok () made) :
    ∃ disk, Disk.makeLibrary path title mediaPrefix {} before.disk = .ok () disk ∧
      made = { before with disk } := by
  rw [Session.create, Session.createFacing] at h
  split at h
  · rename_i disk hdisk
    exact ⟨disk, hdisk, (EStateM.Result.ok.inj h).2.symm⟩
  · cases h

section Create

variable {title mediaPrefix : String} {before made opened : Session} {handle : Handle}

theorem lists_of_create (h : Session.create path title mediaPrefix before = .ok () made) :
    made.roster = before.roster ∧ nameIn (newFields title mediaPrefix) = title ∧
      ∃ file, made.disk.find path = .ok file ∧ file < made.disk.files.length ∧
        ∀ settings, Lists settings (newFields title mediaPrefix) []
          (Desk.library ⟨made, 0⟩ path settings file) := by
  obtain ⟨disk, hdisk, rfl⟩ := create_eq_ok h
  obtain ⟨-, place, contents, hblank, hleads, hnone, rfl⟩ := Disk.makeLibrary_eq_ok_iff.1 hdisk
  have hfound := Disk.find_add hleads hnone contents
  refine ⟨rfl, nameIn_newFields (blank_eq hblank).1 mediaPrefix, _, hfound, ?_, ?_⟩
  · rw [Disk.add, List.length_append]
    exact Nat.lt_succ_self _
  · intro settings
    have hlists := lists_of_blank hblank settings path
    rwa [← Disk.contents_add before.disk place contents] at hlists

theorem exists_open_of_create (hcreate : Session.create path title mediaPrefix before = .ok () made)
    (hvalid : settings.validate = .ok ()) (hfree : before.roster.contains title = false) :
    ∃ handle opened, Session.openWith path settings made = .ok handle opened := by
  obtain ⟨hroster, hname, file, hfound, -, hlists⟩ := lists_of_create hcreate
  have hopen := openWith_eq hvalid hfound (hlists settings).stores.keeps
  rw [hroster] at hopen
  exact ⟨_, _, hopen.trans (if_neg (by simp [hname, hfree]))⟩

theorem exists_fresh : ∃ made handle opened,
    Session.create "a" "music" "/m" .empty = .ok () made ∧
    Session.openWith "a" .default made = .ok handle opened := by
  have hleads : Disk.empty.Leads "a" ⟨["session", "tmp"], "a"⟩ := ⟨rfl, by decide⟩
  have haccepts : Disk.empty.Accepts "a" "music" "/m" := ⟨⟨_, hleads⟩, rfl, by decide, by decide⟩
  obtain ⟨disk, hdisk⟩ := Disk.exists_makeLibrary_iff.2 ⟨haccepts, Answers.allowMaking_empty⟩
  have hcreate : Session.create "a" "music" "/m" .empty = .ok () { Session.empty with disk } := by
    rw [Session.create, Session.createFacing]
    have hcalm : Disk.makeLibrary "a" "music" "/m" System.calm.now Session.empty.disk
        = .ok () disk := hdisk
    rw [hcalm]
  have hdefault : Settings.default.validate = .ok () := rfl
  obtain ⟨handle, opened, hopen⟩ := exists_open_of_create hcreate hdefault rfl
  exact ⟨_, handle, opened, hcreate, hopen⟩

/-- A library that was made and then opened is served, and its settings are valid. -/
theorem serves_of_create (hcreate : Session.create path title mediaPrefix before = .ok () made)
    (hopen : Session.openWith path settings made = .ok handle opened) :
    settings.validate = .ok () ∧ nameIn (newFields title mediaPrefix) = title ∧
      ∃ file, Serves path settings (newFields title mediaPrefix) file true [] ⟨opened, handle⟩ := by
  obtain ⟨-, hname, file, hfound, hnumbered, hlists⟩ := lists_of_create hcreate
  cases hvalid : settings.validate with
  | error e =>
    rw [openWith_invalid hvalid] at hopen
    cases hopen
  | ok =>
    rw [openWith_eq hvalid hfound (hlists settings).stores.keeps] at hopen
    split at hopen
    · cases hopen
    · rename_i hfree
      obtain ⟨rfl, rfl⟩ := EStateM.Result.ok.inj hopen
      exact ⟨rfl, hname, file,
        serves_of_open hfound hnumbered (hlists settings) (by simpa using hfree)⟩

end Create

end MediaLibrary
