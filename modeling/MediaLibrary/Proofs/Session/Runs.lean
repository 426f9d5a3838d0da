import MediaLibrary.Proofs.Session.Commands
/-! Commands one after another. A library that was made, opened and given commands is served from
then on, whatever came of them, so that a full check of it finds nothing wrong. While there is space,
all comes out as expected. -/
namespace MediaLibrary

open LibraryFile

/-- Takes steps one after another, and tells what came of each. -/
def Desk.runAll {γ : Type} (step : Desk → γ → Outcome × Desk) (d : Desk) :
    List γ → List Outcome × Desk
  | [] => ([], d)
  | c :: rest =>
    let (outcome, d) := step d c
    let (outcomes, d) := d.runAll step rest
    (outcome :: outcomes, d)

namespace Command

def runAll (path : String) (settings : Settings) (d : Desk) (commands : List Command) :
    List Outcome × Desk :=
  d.runAll (run path settings) commands

def expectedAll (settings : Settings) (name : String) (o : Outline) :
    List Command → List (Except LibraryError Reply) × Outline
  | [] => ([], o)
  | c :: rest =>
    let (outcome, o) := c.expected settings name o
    let (outcomes, o) := expectedAll settings name o rest
    (outcome :: outcomes, o)

end Command

section Run

variable {path : String} {settings : Settings} {fields : Bytes} {file : Nat}
  {listings : List Listing} {d : Desk}

/-- Nothing that commands can do stops the library from being served. -/
theorem Serves.runAll (hu : settings.Usable) (hvalid : settings.validate = .ok ()) {isOpen : Bool}
    (h : Serves path settings fields file isOpen listings d) (commands : List Command) :
    ∃ listings', Serves path settings fields file (commands.foldl Command.leavesOpen isOpen)
      listings' (Command.runAll path settings d commands).2 := by
  induction commands generalizing isOpen listings d with
  | nil => exact ⟨listings, h⟩
  | cons c rest ih =>
    obtain ⟨listings', hserves, -⟩ :=
      Command.run_carried (o := ⟨inventoryOf listings, isOpen⟩) hu hvalid h rfl c
    rw [Command.isOpen_expected] at hserves
    exact ih hserves

/-- While there is space, every command does what is expected after those before it. -/
theorem Serves.runAll_expected (hu : settings.Usable) (hvalid : settings.validate = .ok ())
    {o : Outline} (h : Serves path settings fields file o.isOpen listings d)
    (hinv : inventoryOf listings = o.inventory) (commands : List Command)
    (hspace : ∀ outcome ∈ (Command.runAll path settings d commands).1,
      outcome.lacksSpace = false) :
    (Command.runAll path settings d commands).1
        = (Command.expectedAll settings (nameIn fields) o commands).1.map (Failure.ofCheck id) ∧
      ∃ listings', Serves path settings fields file
          (Command.expectedAll settings (nameIn fields) o commands).2.isOpen listings'
          (Command.runAll path settings d commands).2 ∧
        inventoryOf listings'
          = (Command.expectedAll settings (nameIn fields) o commands).2.inventory := by
  induction commands generalizing listings d o with
  | nil => exact ⟨rfl, listings, h, hinv⟩
  | cons c rest ih =>
    obtain ⟨listings', hserves, ⟨hdone, hinv'⟩ | hlacks⟩ := Command.run_carried hu hvalid h hinv c
    · obtain ⟨houtcomes, hfinal⟩ := ih hserves hinv' fun outcome ho =>
        hspace outcome (List.mem_cons_of_mem _ ho)
      exact ⟨congrArg₂ List.cons hdone houtcomes, hfinal⟩
    · have hfree : (c.run path settings d).1.lacksSpace = false := hspace _ List.mem_cons_self
      rw [hfree] at hlacks
      cases hlacks

end Run

section Reached

variable {path title mediaPrefix : String} {settings : Settings} {before made opened : Session}
  {handle : Handle}

theorem serves_of_runAll (hcreate : Session.create path title mediaPrefix before = .ok () made)
    (hopen : Session.openWith path settings made = .ok handle opened)
    (hquantum : settings.growthQuantum + 128 < 2 ^ 64) (commands : List Command) :
    settings.Usable ∧ ∃ file listings, Serves path settings (newFields title mediaPrefix) file
      (commands.foldl Command.leavesOpen true) listings
      (Command.runAll path settings ⟨opened, handle⟩ commands).2 := by
  obtain ⟨hvalid, -, file, hserves⟩ := serves_of_create hcreate hopen
  have hu := Settings.usable_of_validate hvalid hquantum
  obtain ⟨listings, hfinal⟩ := hserves.runAll hu hvalid commands
  exact ⟨hu, file, listings, hfinal⟩

end Reached

/-- Commands among which a path is copied to the global playlist, and the playlist that it was meant
for is emptied and deleted before the library is closed and opened again. -/
def copyingCommands : List Command :=
  [.start "x", .add "x" "p", .remove "x" "p", .delete "x", .close, .reopen]

theorem exists_copying : ∃ made handle opened d, Session.create "a" "music" "/m" .empty = .ok () made ∧
    Session.openWith "a" .default made = .ok handle opened ∧
    Command.runAll "a" .default ⟨opened, handle⟩ copyingCommands = ([.ok .done, .ok .done,
      .ok (.removed true), .ok .done, .ok .done, .ok .done], d) := by
  obtain ⟨made, handle, opened, started, file, hcreate, hopen, hstart, hserves⟩ :=
    exists_started (show newName [] "x" = .ok () from rfl)
  have hu : Settings.default.Usable := Settings.usable_of_validate rfl (by decide)
  obtain ⟨added, hadd, hserves⟩ :=
    hserves.run_add_of_room hu "x" "p" (by decide) (by decide) (by decide)
  have hnames : "x" ∈ (addTo .default "x" "p"
      [⟨"x", Settings.default.growthQuantum, []⟩]).map Listing.name := by decide
  have hpaths : ∀ l ∈ addTo .default "x" "p" [⟨"x", Settings.default.growthQuantum, []⟩],
      l.name = "x" → "p" ∈ l.paths := by decide
  obtain ⟨removed, _, hremove, hserves, hsame⟩ := hserves.run_remove hnames "p" hpaths
  obtain ⟨deleted, _, hdelete, hserves⟩ := hserves.run_delete (hsame ▸ hnames)
  obtain ⟨closed, hclose, hserves⟩ := hserves.close_ok
  obtain ⟨handle', reopened, hreopen, -⟩ := hserves.reopen_ok rfl
  refine ⟨made, handle, opened, ⟨reopened, handle'⟩, hcreate, hopen, ?_⟩
  simp only [copyingCommands, Command.runAll, Desk.runAll, hstart, hadd, hremove, hdelete,
    Command.run_close, Command.run_reopen, Desk.act, hclose, hreopen]

end MediaLibrary
