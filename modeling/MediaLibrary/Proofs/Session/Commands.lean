import MediaLibrary.Proofs.Session.Opening
/-! Commands to one library of a session, and what they are expected to do to an outline of it: its
inventory and whether it is open. A command does what is expected, or there is no space for it. -/
namespace MediaLibrary

open LibraryFile

/-- A question whose answer changes nothing. -/
inductive Question where
  | name
  | mediaPrefix
  | mediaCount
  | length
  | playlists
  | findPlaylist (playlist : String)
  | findPath (playlist path : String)
  | pathAt (playlist : String) (n : Nat)
  | paths (playlist : String)
  | verify
  | sync
  deriving DecidableEq, Repr

namespace Question

def ask (lib : LibraryFile) : Question → Query Unit
  | .name => do let _ ← lib.name
  | .mediaPrefix => do let _ ← lib.mediaPrefix
  | .mediaCount => do let _ ← lib.mediaCount
  | .length => do let _ ← lib.length
  | .playlists => do let _ ← lib.playlists
  | .findPlaylist playlist => do let _ ← lib.find playlist
  | .findPath playlist path => do let _ ← lib.findPathIn playlist path
  | .pathAt playlist n => do let _ ← lib.pathIn playlist n
  | .paths playlist => do let _ ← lib.pathsIn playlist
  | .verify => do let _ ← lib.verify
  | .sync => lib.sync

/-- The playlist that there has to be for an answer. -/
def playlist? : Question → Option String
  | .findPath playlist _ | .pathAt playlist _ | .paths playlist => some playlist
  | _ => none

def check (i : Inventory) (question : Question) : Except LibraryError Unit :=
  match question.playlist? with
  | none => .ok ()
  | some playlist => if playlist ∈ i.names then .ok () else .error (.playlistNotFound playlist)

end Question

inductive Command where
  | start (name : String)
  | delete (name : String)
  | add (playlist path : String)
  | remove (playlist path : String)
  | ask (question : Question)
  | close
  | reopen
  deriving DecidableEq, Repr

inductive Reply where
  | done
  /-- Whether the path was there. -/
  | removed (present : Bool)
  deriving DecidableEq, Repr

abbrev Outcome := Except (Failure LibraryError) Reply

/-- The outcome is a refusal for want of space, or another one of storage. -/
def Outcome.lacksSpace : Outcome → Bool
  | .error (.refused e) => e.kind = .resource
  | _ => false

def Desk.act {α : Type} (d : Desk) (action : Action α) (reply : α → Reply) : Outcome × Desk :=
  match action d.session with
  | .ok a session => (.ok (reply a), { d with session })
  | .error e session => (.error e, { d with session })

/-- Carries a command out before a system that answers so. The library is opened from the same path
and under the same settings every time, and each time under another handle. -/
def Command.runFacing (system : System) (path : String) (settings : Settings) (d : Desk) :
    Command → Outcome × Desk
  | .start name =>
    d.act (Session.change d.handle ((startPlaylist name).facing system)) fun _ => .done
  | .delete name =>
    d.act (Session.change d.handle ((deletePlaylist name).facing system)) fun _ => .done
  | .add playlist path =>
    d.act (Session.change d.handle ((addPath playlist path).facing system)) fun _ => .done
  | .remove playlist path =>
    d.act (Session.change d.handle ((removePath playlist path).facing system)) .removed
  | .ask question =>
    d.act (Session.ask d.handle fun lib => question.ask (lib.facing system)) fun _ => .done
  | .close => d.act (Session.closeFacing system d.handle) fun _ => .done
  | .reopen =>
    match Session.openFacing system path settings d.session with
    | .ok handle session => (.ok .done, ⟨session, handle⟩)
    | .error e session => (.error e, { d with session })

def Command.run (path : String) (settings : Settings) (d : Desk) (c : Command) : Outcome × Desk :=
  c.runFacing .calm path settings d

/-- What there is to know about a library, whatever its file looks like. -/
structure Outline where
  inventory : Inventory
  isOpen : Bool

/-- Does something to the inventory of an open library. -/
def Outline.attempt (o : Outline) (change : Except LibraryError (Reply × Inventory)) :
    Except LibraryError Reply × Outline :=
  if o.isOpen then
    match change with
    | .ok (reply, inventory) => (.ok reply, { o with inventory })
    | .error e => (.error e, o)
  else (.error .closed, o)

/-- What a command to a library of that name should do. -/
def Command.expected (settings : Settings) (name : String) (o : Outline) :
    Command → Except LibraryError Reply × Outline
  | .start playlist => o.attempt do return (.done, ← o.inventory.start playlist)
  | .delete playlist => o.attempt do return (.done, ← o.inventory.delete playlist)
  | .add playlist path => o.attempt do return (.done, ← o.inventory.add settings playlist path)
  | .remove playlist path => o.attempt do
    let (present, inventory) ← o.inventory.remove playlist path
    return (.removed present, inventory)
  | .ask question => o.attempt do
    question.check o.inventory
    return (.done, o.inventory)
  | .close =>
    if o.isOpen then (.ok .done, { o with isOpen := false }) else (.error .closed, o)
  | .reopen =>
    if o.isOpen then (.error (.alreadyOpen name), o) else (.ok .done, { o with isOpen := true })

/-- Whether the library is open after the command. -/
def Command.leavesOpen (isOpen : Bool) : Command → Bool
  | .close => false
  | .reopen => true
  | _ => isOpen

namespace Outline

variable {o : Outline} {change : Except LibraryError (Reply × Inventory)}

theorem attempt_closed (h : o.isOpen = false) : o.attempt change = (.error .closed, o) := by
  simp [attempt, h]

theorem attempt_ok (h : o.isOpen = true) {reply : Reply} {inventory : Inventory} :
    o.attempt (.ok (reply, inventory)) = (.ok reply, { o with inventory }) := by
  simp [attempt, h]

theorem attempt_error (h : o.isOpen = true) {e : LibraryError} :
    o.attempt (.error e) = (.error e, o) := by
  simp [attempt, h]

theorem isOpen_attempt (o : Outline) (change : Except LibraryError (Reply × Inventory)) :
    (o.attempt change).2.isOpen = o.isOpen := by
  unfold attempt
  split
  · split <;> rfl
  · rfl

end Outline

theorem Command.isOpen_expected (settings : Settings) (name : String) (o : Outline) (c : Command) :
    (c.expected settings name o).2.isOpen = c.leavesOpen o.isOpen := by
  cases c with
  | close =>
    cases hopen : o.isOpen <;> simp [expected, leavesOpen, hopen]
  | reopen =>
    cases hopen : o.isOpen <;> simp [expected, leavesOpen, hopen]
  | _ => exact o.isOpen_attempt _

/-! Changes of an open library. -/

section Changes

variable {settings : Settings} {fields : Bytes} {listings : List Listing} {lib : LibraryFile}
  {α : Type}

/-- What a change of the library has to do for its outcome to be the expected one. -/
def Meets (settings : Settings) (fields : Bytes) (lib : LibraryFile) (update : Update α)
    (reply : α → Reply) (change : Except LibraryError (Reply × Inventory)) : Prop :=
  (∃ e, change = .error e ∧ update lib = .error (.refused e) lib) ∨
  ∃ listings' lib', Lists settings fields listings' lib' ∧
    ((∃ a, update lib = .ok a lib' ∧ change = .ok (reply a, inventoryOf listings')) ∨
    ∃ e, update lib = .error (.refused e) lib' ∧ e.kind = .resource)

theorem startPlaylist_meets (h : Lists settings fields listings lib)
    (hu : settings.Usable) (name : String) :
    Meets settings fields lib (startPlaylist name) (fun _ => .done)
      (do return (.done, ← (inventoryOf listings).start name)) := by
  cases hname : newName (listings.map Listing.name) name with
  | error e =>
    refine Or.inl ⟨e, ?_, h.startPlaylist_refused hname⟩
    rw [Inventory.start, names_inventoryOf, hname]
    rfl
  | ok =>
    rcases h.startPlaylist_cases hu hname with ⟨lib', hstart, hlists⟩ | ⟨-, hstart⟩
    · refine Or.inr ⟨_, lib', hlists, Or.inl ⟨_, hstart, ?_⟩⟩
      rw [Inventory.start, names_inventoryOf, hname]
      simp [inventoryOf]
    · exact Or.inr ⟨listings, lib, h, Or.inr ⟨_, hstart, rfl⟩⟩

theorem deletePlaylist_meets (h : Lists settings fields listings lib)
    (name : String) : Meets settings fields lib (deletePlaylist name) (fun _ => .done)
      (do return (.done, ← (inventoryOf listings).delete name)) := by
  by_cases hm : name ∈ listings.map Listing.name
  · obtain ⟨before, l, after, rfl, rfl⟩ := exists_split hm
    obtain ⟨lib', hdelete, hlists⟩ := h.deletePlaylist_ok
    refine Or.inr ⟨_, lib', hlists, Or.inl ⟨(), hdelete, ?_⟩⟩
    rw [inventoryOf_delete h.distinct]
    rfl
  · refine Or.inl ⟨.playlistNotFound name, ?_,
      Steps.bind_error (Steps.consult_error (h.named_absent hm))⟩
    rw [Inventory.delete, if_neg (by rwa [names_inventoryOf])]
    rfl

theorem addPath_meets (h : Lists settings fields listings lib)
    (hu : settings.Usable) (playlist path : String) :
    Meets settings fields lib (addPath playlist path) (fun _ => .done)
      (do return (.done, ← (inventoryOf listings).add settings playlist path)) := by
  cases hcheck : (inventoryOf listings).checkPath playlist path with
  | error e =>
    refine Or.inl ⟨e, ?_, h.addPath_refused hcheck⟩
    rw [Inventory.add, hcheck]
    rfl
  | ok =>
    obtain ⟨listings', lib', hlists, ⟨hadd, hinv⟩ | ⟨e, hadd, hkind, -⟩⟩ := h.addPath_cases hu hcheck
    · refine Or.inr ⟨listings', lib', hlists, Or.inl ⟨(), hadd, ?_⟩⟩
      rw [Inventory.add, hcheck, hinv]
      rfl
    · exact Or.inr ⟨listings', lib', hlists, Or.inr ⟨e, hadd, hkind⟩⟩

theorem removePath_meets (h : Lists settings fields listings lib)
    (playlist path : String) :
    Meets settings fields lib (removePath playlist path) .removed (do
      let (present, inventory) ← (inventoryOf listings).remove playlist path
      return (.removed present, inventory)) := by
  by_cases hm : playlist ∈ listings.map Listing.name
  · obtain ⟨before, l, after, rfl, rfl⟩ := exists_split hm
    obtain ⟨listings', lib', hlists, hremove, hinv⟩ := h.removePath_ok path
    refine Or.inr ⟨listings', lib', hlists, Or.inl ⟨_, hremove, ?_⟩⟩
    rw [Inventory.remove, lookup_inventoryOf h.distinct, hinv]
    simp only [List.mem_toFinset]
    rfl
  · refine Or.inl ⟨.playlistNotFound playlist, ?_, h.removePath_absent hm path⟩
    rw [Inventory.remove, Inventory.lookup_eq_none (by rwa [names_inventoryOf])]
    rfl

end Changes

/-! Questions. -/

section Questions

variable {settings : Settings} {fields : Bytes} {listings : List Listing} {lib : LibraryFile}
  {α : Type}

theorem ask_about (playlist : String) {answer : Query α}
    (absent : playlist ∉ listings.map Listing.name →
      answer = .error (.refused (.playlistNotFound playlist)))
    (present : ∀ before l after, listings = before ++ l :: after → l.name = playlist →
      ∃ a, answer = .ok a) :
    (do let _ ← answer) = Failure.ofCheck id
      (if playlist ∈ (inventoryOf listings).names then .ok ()
        else .error (.playlistNotFound playlist)) := by
  rw [names_inventoryOf]
  by_cases hm : playlist ∈ listings.map Listing.name
  · obtain ⟨before, l, after, hsplit, hname⟩ := exists_split hm
    obtain ⟨a, ha⟩ := present before l after hsplit hname
    rw [if_pos hm, Steps.query_ok ha]
    rfl
  · rw [if_neg hm, Steps.query_error (absent hm)]
    rfl

theorem Question.ask_eq (h : Lists settings fields listings lib) (question : Question) :
    question.ask lib = Failure.ofCheck id (question.check (inventoryOf listings)) := by
  cases question with
  | name => exact Steps.query_ok h.stores.keeps.name_eq
  | mediaPrefix => exact Steps.query_ok h.stores.keeps.mediaPrefix_eq
  | mediaCount => exact Steps.query_ok h.mediaCount_eq
  | length => exact Steps.query_ok h.stores.keeps.length_eq
  | playlists => exact Steps.query_ok h.stores.playlists_eq
  | findPlaylist playlist => exact Steps.query_ok (h.stores.find_eq playlist)
  | findPath playlist path =>
    refine ask_about playlist (fun hm => Steps.query_error (h.named_absent hm)) ?_
    rintro before l after rfl rfl
    exact ⟨_, h.findPathIn_eq path⟩
  | pathAt playlist n =>
    refine ask_about playlist (fun hm => Steps.query_error (h.named_absent hm)) ?_
    rintro before l after rfl rfl
    exact ⟨_, h.pathIn_eq n⟩
  | paths playlist =>
    refine ask_about playlist (fun hm => Steps.query_error (h.named_absent hm)) ?_
    rintro before l after rfl rfl
    exact ⟨_, h.pathsIn_eq⟩
  | verify => exact Steps.query_ok h.verify_eq
  | sync => exact h.stores.keeps.holding.sync_ok

end Questions

/-! One command. -/

section Step

variable {path : String} {settings : Settings} {fields : Bytes} {file : Nat}
  {listings : List Listing} {d : Desk} {o : Outline} {α : Type}

/-- What came of a command: the library is served as expected, or there was no space. -/
def Carried (path : String) (settings : Settings) (fields : Bytes) (file : Nat)
    (expected : Except LibraryError Reply × Outline) (run : Outcome × Desk) : Prop :=
  ∃ listings, Serves path settings fields file expected.2.isOpen listings run.2 ∧
    ((run.1 = Failure.ofCheck id expected.1 ∧ inventoryOf listings = expected.2.inventory) ∨
    run.1.lacksSpace = true)

theorem change_carried (h : Serves path settings fields file o.isOpen listings d)
    (hinv : inventoryOf listings = o.inventory) {update : Update α} {reply : α → Reply}
    {change : Except LibraryError (Reply × Inventory)}
    (hmeets : Meets settings fields (d.library path settings file) update reply change) :
    Carried path settings fields file (o.attempt change)
      (d.act (Session.change d.handle update) reply) := by
  cases hopen : o.isOpen with
  | false =>
    rw [hopen] at h
    rw [Outline.attempt_closed hopen, Desk.act, h.change_closed update]
    exact ⟨listings, hopen ▸ h, Or.inl ⟨rfl, hinv⟩⟩
  | true =>
    rw [hopen] at h
    rcases hmeets with ⟨e, rfl, hupdate⟩ | ⟨listings', lib', hlists, hdone⟩
    · rw [Outline.attempt_error hopen, Desk.act, h.change_refused hupdate, h.changed_self]
      exact ⟨listings, hopen ▸ h, Or.inl ⟨rfl, hinv⟩⟩
    · have hserves := h.changed_serves hlists
      rcases hdone with ⟨a, hupdate, rfl⟩ | ⟨e, hupdate, hkind⟩
      · rw [Outline.attempt_ok hopen, Desk.act, h.change_ok hupdate]
        exact ⟨listings', hopen ▸ hserves, Or.inl ⟨rfl, rfl⟩⟩
      · rw [Desk.act, h.change_refused hupdate]
        refine ⟨listings', ?_, Or.inr (by simpa [Outcome.lacksSpace] using hkind)⟩
        rw [o.isOpen_attempt, hopen]
        exact hserves

theorem ask_carried (h : Serves path settings fields file o.isOpen listings d)
    (hinv : inventoryOf listings = o.inventory) (question : Question) :
    Carried path settings fields file
      (o.attempt do
        question.check o.inventory
        return (.done, o.inventory))
      (d.act (Session.ask d.handle question.ask) fun _ => .done) := by
  cases hopen : o.isOpen with
  | false =>
    rw [hopen] at h
    rw [Outline.attempt_closed hopen, Desk.act, h.ask_closed]
    exact ⟨listings, hopen ▸ h, Or.inl ⟨rfl, hinv⟩⟩
  | true =>
    rw [hopen] at h
    have hask := question.ask_eq h.lists
    rw [hinv] at hask
    cases hcheck : question.check o.inventory with
    | error e =>
      rw [hcheck] at hask
      rw [Steps.query_error rfl, Outline.attempt_error hopen, Desk.act, h.ask_refused hask]
      exact ⟨listings, hopen ▸ h, Or.inl ⟨rfl, hinv⟩⟩
    | ok =>
      rw [hcheck] at hask
      have hdone : (do
          let _ ← Except.ok (ε := LibraryError) ()
          return (Reply.done, o.inventory)) = .ok (.done, o.inventory) := rfl
      rw [hdone, Outline.attempt_ok hopen, Desk.act, h.ask_ok hask]
      exact ⟨listings, hopen ▸ h, Or.inl ⟨rfl, hinv⟩⟩

section Calm

variable (path : String) (settings : Settings) (d : Desk)

theorem Command.run_start (name : String) : Command.run path settings d (.start name)
    = d.act (Session.change d.handle (startPlaylist name)) fun _ => .done := rfl

theorem Command.run_add (playlist new : String) : Command.run path settings d (.add playlist new)
    = d.act (Session.change d.handle (addPath playlist new)) fun _ => .done := rfl

theorem Command.run_close : Command.run path settings d .close
    = d.act (Session.close d.handle) fun _ => .done := rfl

theorem Command.run_reopen : Command.run path settings d .reopen
    = match Session.openWith path settings d.session with
      | .ok handle session => (.ok .done, ⟨session, handle⟩)
      | .error e session => (.error e, { d with session }) := rfl

end Calm

/-- A command does what is expected of it, or there is no space for it. -/
theorem Command.run_carried (hu : settings.Usable) (hvalid : settings.validate = .ok ())
    (h : Serves path settings fields file o.isOpen listings d)
    (hinv : inventoryOf listings = o.inventory) (c : Command) :
    Carried path settings fields file (c.expected settings (nameIn fields) o)
      (c.run path settings d) := by
  cases c with
  | start name =>
    refine change_carried h hinv ?_
    rw [← hinv]
    exact startPlaylist_meets h.lists hu name
  | delete name =>
    refine change_carried h hinv ?_
    rw [← hinv]
    exact deletePlaylist_meets h.lists name
  | add playlist path =>
    refine change_carried h hinv ?_
    rw [← hinv]
    exact addPath_meets h.lists hu playlist path
  | remove playlist path =>
    refine change_carried h hinv ?_
    rw [← hinv]
    exact removePath_meets h.lists playlist path
  | ask question => exact ask_carried h hinv question
  | close =>
    cases hopen : o.isOpen with
    | false =>
      rw [hopen] at h
      obtain ⟨session, hclose, hserves⟩ := h.close_closed
      rw [run_close, Desk.act, hclose, expected, if_neg (by simp [hopen])]
      exact ⟨listings, by rwa [hopen], Or.inl ⟨rfl, hinv⟩⟩
    | true =>
      rw [hopen] at h
      obtain ⟨session, hclose, hserves⟩ := h.close_ok
      rw [run_close, Desk.act, hclose, expected, if_pos hopen]
      exact ⟨listings, hserves, Or.inl ⟨rfl, hinv⟩⟩
  | reopen =>
    cases hopen : o.isOpen with
    | false =>
      rw [hopen] at h
      obtain ⟨handle, session, hreopen, hserves⟩ := h.reopen_ok hvalid
      rw [run_reopen, hreopen, expected, if_neg (by simp [hopen])]
      exact ⟨listings, hserves, Or.inl ⟨rfl, hinv⟩⟩
    | true =>
      rw [hopen] at h
      rw [run_reopen, h.reopen_opened hvalid, expected, if_pos hopen]
      exact ⟨listings, by rwa [hopen], Or.inl ⟨rfl, hinv⟩⟩

namespace Serves

theorem run_add (hu : settings.Usable) (h : Serves path settings fields file true listings d)
    {playlist new : String} (hcheck : (inventoryOf listings).checkPath playlist new = .ok ()) :
    (∃ d', Command.run path settings d (.add playlist new) = (.ok .done, d') ∧
      Serves path settings fields file true (addTo settings playlist new listings) d') ∨
    (Command.run path settings d (.add playlist new)).1.lacksSpace = true ∧
      Cramped settings new listings := by
  rcases h.lists.addPath_addTo_cases hu hcheck with
    ⟨lib', hadd, hlists⟩ | ⟨listings', e, lib', hadd, hkind, hcramped, -, -⟩
  · refine Or.inl ⟨_, ?_, h.changed_serves hlists⟩
    rw [Command.run_add, Desk.act, h.change_ok hadd]
  · refine Or.inr ⟨?_, hcramped⟩
    rw [Command.run_add, Desk.act, h.change_refused hadd]
    simpa [Outcome.lacksSpace] using hkind

theorem run_add_of_room (hu : settings.Usable)
    (h : Serves path settings fields file true listings d) (playlist new : String)
    (hcheck : (inventoryOf listings).checkPath playlist new = .ok ())
    (hroom : ∀ l ∈ withGlobal settings listings, ¬ l.Full new)
    (hsmall : LibraryHeader.size + (listings.map fun l => PlaylistHeader.size + l.length).sum
      + (PlaylistHeader.size + settings.growthQuantum) < Word.limit) :
    ∃ d', Command.run path settings d (.add playlist new) = (.ok .done, d') ∧
      Serves path settings fields file true (addTo settings playlist new listings) d' := by
  rcases h.run_add hu hcheck with hdone | ⟨-, ⟨l, hl, hfull⟩ | hbig⟩
  · exact hdone
  · exact absurd hfull (hroom l hl)
  · rw [placeAfter, offsetAfter, length_bodyOf h.lists.sound] at hbig
    exact absurd hsmall (Nat.not_lt.2 hbig)

theorem run_remove (h : Serves path settings fields file true listings d) {playlist : String}
    (hm : playlist ∈ listings.map Listing.name) (old : String)
    (hold : ∀ l ∈ listings, l.name = playlist → old ∈ l.paths) : ∃ d' listings',
      Command.run path settings d (.remove playlist old) = (.ok (.removed true), d') ∧
      Serves path settings fields file true listings' d' ∧
      listings'.map Listing.name = listings.map Listing.name := by
  obtain ⟨before, l, after, rfl, rfl⟩ := exists_split hm
  obtain ⟨listings', lib', hlists, hremove, hinv⟩ := h.lists.removePath_ok old
  rw [decide_eq_true (hold l (by simp) rfl)] at hremove
  have hrun : Command.run path settings d (.remove l.name old)
      = d.act (Session.change d.handle (removePath l.name old)) .removed := rfl
  refine ⟨_, listings', ?_, h.changed_serves hlists, ?_⟩
  · rw [hrun, Desk.act, h.change_ok hremove]
  · rw [← names_inventoryOf, hinv, Inventory.names_revise, names_inventoryOf]

theorem run_delete (h : Serves path settings fields file true listings d) {playlist : String}
    (hm : playlist ∈ listings.map Listing.name) : ∃ d' listings',
      Command.run path settings d (.delete playlist) = (.ok .done, d') ∧
      Serves path settings fields file true listings' d' := by
  obtain ⟨before, l, after, rfl, rfl⟩ := exists_split hm
  obtain ⟨lib', hdelete, hlists⟩ := h.lists.deletePlaylist_ok
  have hrun : Command.run path settings d (.delete l.name)
      = d.act (Session.change d.handle (deletePlaylist l.name)) fun _ => .done := rfl
  refine ⟨_, _, ?_, h.changed_serves hlists⟩
  rw [hrun, Desk.act, h.change_ok hdelete]

end Serves
end Step

theorem exists_started {name : String} (hname : newName [] name = .ok ()) :
    ∃ made handle opened started file, Session.create "a" "music" "/m" .empty = .ok () made ∧
      Session.openWith "a" .default made = .ok handle opened ∧
      Command.run "a" .default ⟨opened, handle⟩ (.start name) = (.ok .done, started) ∧
      Serves "a" .default (newFields "music" "/m") file true
        [⟨name, Settings.default.growthQuantum, []⟩] started := by
  obtain ⟨made, handle, opened, hcreate, hopen⟩ := exists_fresh
  obtain ⟨hvalid, -, file, hserves⟩ := serves_of_create hcreate hopen
  have hu := Settings.usable_of_validate hvalid (by decide)
  rcases hserves.lists.startPlaylist_cases hu hname with ⟨lib, hstart, hlists⟩ | ⟨hbig, -⟩
  · refine ⟨made, handle, opened, _, file, hcreate, hopen, ?_, hserves.changed_serves hlists⟩
    rw [Command.run_start, Desk.act, hserves.change_ok hstart]
  · exact absurd hbig (by decide)

end MediaLibrary
