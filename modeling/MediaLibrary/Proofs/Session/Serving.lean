import MediaLibrary.Proofs.Disk
import MediaLibrary.Proofs.LibraryFile.Adding
import MediaLibrary.Proofs.LibraryFile.Audit
import MediaLibrary.Proofs.LibraryFile.Opening
import MediaLibrary.Proofs.Roster
import MediaLibrary.Session
/-! One library in a session, whatever else there is in it. Its file lists its playlists, open or
closed; while it is open its handle leads to the file and its name on the roster is its own. -/
namespace MediaLibrary

open LibraryFile

/-- A session, and the handle under which a library was last opened in it. -/
structure Desk where
  session : Session
  handle : Handle
  deriving DecidableEq, Repr

def Desk.library (d : Desk) (path : String) (settings : Settings) (file : Nat) : LibraryFile :=
  ⟨path, settings, d.session.disk.contents file, some (d.session.disk.contents file).size, .calm⟩

def stateOf (lib : LibraryFile) (file : Nat) : Bool → LibraryState
  | true => .opened ⟨lib.path, lib.settings, file, lib.mapped⟩
  | false => .closed

/-- The file at `path` is there. The library in it is in this state, and it is on the roster, under
the name in the header, exactly if it is open. -/
structure Seated (path : String) (fields : Bytes) (file : Nat) (isOpen : Bool) (state : LibraryState)
    (d : Desk) : Prop where
  found : d.session.disk.find path = .ok file
  numbered : file < d.session.disk.files.length
  state : d.session.state d.handle = state
  entered : d.session.roster.contains (nameIn fields) = isOpen
  own : ∀ e ∈ d.session.roster.entries, e.name = nameIn fields → e.library = d.handle

/-- The file at `path` lists the playlists, and the library in it is open or closed. -/
structure Serves (path : String) (settings : Settings) (fields : Bytes) (file : Nat)
    (isOpen : Bool) (listings : List Listing) (d : Desk) : Prop
    extends Seated path fields file isOpen (stateOf (d.library path settings file) file isOpen) d where
  lists : Lists settings fields listings (d.library path settings file)

/-! States and the roster. -/

namespace Session

theorem state_setState {s : Session} {h : Handle} (hlt : h < s.libraries.length)
    (state : LibraryState) : (s.setState h state).state h = state := by
  simp [Session.state, setState, hlt]

theorem state_setState_ne {s : Session} {h h' : Handle} (hne : h' ≠ h) (state : LibraryState) :
    (s.setState h state).state h' = s.state h' := by
  simp [Session.state, setState, List.getElem?_set_ne hne.symm]

theorem setState_self {s : Session} {h : Handle} {mapping : Mapping}
    (hs : s.state h = .opened mapping) : s.setState h (.opened mapping) = s := by
  have hlt : h < s.libraries.length := by
    by_contra hge
    simp [Session.state, hge] at hs
  have hget : s.libraries[h] = .opened mapping := by
    simpa [Session.state, hlt] using hs
  have hset : s.libraries.set h (.opened mapping) = s.libraries := by
    rw [← hget, List.set_getElem_self]
  rw [setState, hset]

theorem lt_of_opened {s : Session} {h : Handle} {mapping : Mapping}
    (hs : s.state h = .opened mapping) : h < s.libraries.length := by
  by_contra hge
  simp [Session.state, hge] at hs

section Mapping

variable {s : Session} {h : Handle} {m : Mapping}

theorem mappingOf_opened (hs : s.state h = .opened m) : s.mappingOf h = .ok m := by
  rw [mappingOf, hs]

theorem mappingOf_eq_ok_iff : s.mappingOf h = .ok m ↔ s.state h = .opened m := by
  rw [mappingOf]
  cases s.state h <;> simp [refuse]

theorem mappingOf_of_closed (hs : s.state h = .closed) :
    s.mappingOf h = .error (.refused .closed) := by
  rw [mappingOf, hs]
  rfl

end Mapping

/-! Changes of a library that is open, and questions to it, whatever its file holds. -/

section Change

variable {α : Type} {s : Session} {h : Handle} {m : Mapping} {update : Update α} {lib : LibraryFile}

/-- The session in which a library has become `lib`. -/
def settled (s : Session) (h : Handle) (m : Mapping) (lib : LibraryFile) : Session :=
  { s with disk := s.disk.setContents m.file lib.contents }.setState h
    (.opened { m with mapped := lib.mapped })

/-- A change that faults leaves the library unusable. -/
theorem change_eq (hs : s.state h = .opened m) (update : Update α) : change h update s
    = match update (m.library s.disk) with
      | .ok a lib => .ok a (s.settled h m lib)
      | .error (.refused e) lib => .error (.refused e) (s.settled h m lib)
      | .error (.fault f) lib => .error (.fault f)
        ({ s with disk := s.disk.setContents m.file lib.contents }.setState h .poisoned) := by
  rw [change, mappingOf_opened hs]
  simp only [Mapping.change]
  cases update (m.library s.disk) with
  | ok a lib => rfl
  | error e lib => cases e <;> rfl

theorem change_of_ok (hs : s.state h = .opened m) {a : α}
    (hupdate : update (m.library s.disk) = .ok a lib) :
    change h update s = .ok a (s.settled h m lib) := by
  rw [change_eq hs, hupdate]

theorem change_of_refused (hs : s.state h = .opened m) {e : LibraryError}
    (hupdate : update (m.library s.disk) = .error (.refused e) lib) :
    change h update s = .error (.refused e) (s.settled h m lib) := by
  rw [change_eq hs, hupdate]

theorem change_of_unopened {f : Failure LibraryError} (hs : s.mappingOf h = .error f)
    (update : Update α) : change h update s = .error f s := by
  rw [change, hs]

theorem settled_self (hs : s.state h = .opened m) : s.settled h m (m.library s.disk) = s := by
  have hdisk : s.disk.setContents m.file (m.library s.disk).contents = s.disk :=
    Disk.setContents_self _ _
  rw [settled, hdisk]
  exact setState_self hs

end Change

section Ask

variable {α : Type} {s : Session} {h : Handle} {mapping : Mapping}
  {question : LibraryFile → Query α}

theorem ask_of_ok (hs : s.state h = .opened mapping) {a : α}
    (hask : question (mapping.library s.disk) = .ok a) : ask h question s = .ok a s := by
  have hmapping : mapping.ask s.disk question = .ok a := hask
  rw [ask, mappingOf, hs]
  simp only [hmapping]

theorem ask_of_refused (hs : s.state h = .opened mapping) {e : LibraryError}
    (hask : question (mapping.library s.disk) = .error (.refused e)) :
    ask h question s = .error (.refused e) s := by
  have hmapping : mapping.ask s.disk question = .error (.refused e) := hask
  rw [ask, mappingOf, hs]
  simp only [hmapping]

theorem ask_of_unopened {f : Failure LibraryError} (hs : s.mappingOf h = .error f)
    (question : LibraryFile → Query α) : ask h question s = .error f s := by
  rw [ask, hs]

end Ask
end Session

namespace Seated

variable {path : String} {fields : Bytes} {file : Nat} {m : Mapping} {d : Desk}

theorem settled (h : Seated path fields file true (.opened m) d) (hfile : m.file = file)
    (lib : LibraryFile) :
    Seated path fields file true (.opened { m with mapped := lib.mapped })
        { d with session := d.session.settled d.handle m lib } ∧
      (d.session.settled d.handle m lib).disk.contents file = lib.contents := by
  subst hfile
  refine ⟨⟨h.found, ?_, ?_, h.entered, h.own⟩, Disk.contents_setContents h.numbered⟩
  · rw [Session.settled, Session.setState, Disk.length_files_setContents]
    exact h.numbered
  · exact Session.state_setState (s := { d.session with disk := _ }) (Session.lt_of_opened h.state) _

end Seated

namespace Serves

variable {path : String} {settings : Settings} {fields : Bytes} {file : Nat} {isOpen : Bool}
  {listings : List Listing} {d : Desk} {α : Type}

theorem opened (h : Serves path settings fields file true listings d) :
    d.session.state d.handle
      = .opened ⟨path, settings, file, some (d.session.disk.contents file).size⟩ :=
  h.state

theorem mappingOf_closed (h : Serves path settings fields file false listings d) :
    d.session.mappingOf d.handle = .error (.refused .closed) := by
  rw [Session.mappingOf, h.state]
  rfl

/-! Operations on the open library. -/

/-- The session after a change to the library. -/
def changed (d : Desk) (path : String) (settings : Settings) (file : Nat) (lib : LibraryFile) :
    Session :=
  d.session.settled d.handle ⟨path, settings, file, some (d.session.disk.contents file).size⟩ lib

theorem changed_serves (h : Serves path settings fields file true listings d)
    {listings' : List Listing} {lib : LibraryFile} (hlib : Lists settings fields listings' lib) :
    Serves path settings fields file true listings'
      { d with session := changed d path settings file lib } := by
  obtain ⟨hseated, hcontents⟩ := h.toSeated.settled rfl lib
  have hholding := hlib.stores.keeps.holding
  have hmapped : lib.mapped = some ((changed d path settings file lib).disk.contents file).size := by
    rw [hholding.mapped_eq, ← hholding.size_contents, ← hcontents]
    rfl
  refine ⟨?_, hlib.congr hholding.settings_eq.symm hcontents hmapped.symm hholding.calm.symm⟩
  rw [hmapped] at hseated
  exact hseated

theorem changed_self (h : Serves path settings fields file true listings d) :
    changed d path settings file (d.library path settings file) = d.session :=
  Session.settled_self h.opened

theorem change_ok (h : Serves path settings fields file true listings d) {update : Update α} {a : α}
    {lib : LibraryFile} (hupdate : update (d.library path settings file) = .ok a lib) :
    Session.change d.handle update d.session = .ok a (changed d path settings file lib) :=
  Session.change_of_ok h.opened hupdate

theorem change_refused (h : Serves path settings fields file true listings d) {update : Update α}
    {e : LibraryError} {lib : LibraryFile}
    (hupdate : update (d.library path settings file) = .error (.refused e) lib) :
    Session.change d.handle update d.session
      = .error (.refused e) (changed d path settings file lib) :=
  Session.change_of_refused h.opened hupdate

theorem change_closed (h : Serves path settings fields file false listings d) (update : Update α) :
    Session.change d.handle update d.session = .error (.refused .closed) d.session :=
  Session.change_of_unopened h.mappingOf_closed update

theorem ask_ok (h : Serves path settings fields file true listings d)
    {question : LibraryFile → Query α} {a : α}
    (hask : question (d.library path settings file) = .ok a) :
    Session.ask d.handle question d.session = .ok a d.session :=
  Session.ask_of_ok h.opened hask

theorem ask_refused (h : Serves path settings fields file true listings d)
    {question : LibraryFile → Query α} {e : LibraryError}
    (hask : question (d.library path settings file) = .error (.refused e)) :
    Session.ask d.handle question d.session = .error (.refused e) d.session :=
  Session.ask_of_refused h.opened hask

theorem ask_closed (h : Serves path settings fields file false listings d)
    (question : LibraryFile → Query α) :
    Session.ask d.handle question d.session = .error (.refused .closed) d.session :=
  Session.ask_of_unopened h.mappingOf_closed question

end Serves
end MediaLibrary
