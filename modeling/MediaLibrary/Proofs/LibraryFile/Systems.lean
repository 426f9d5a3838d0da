import MediaLibrary.LibraryFile.Adding
import MediaLibrary.Proofs.LibraryFile.Geometry
/-! Operations before a system that may refuse what it is called for. They go as they would before a
calm one, up to the call that is refused. There they stop with the system's own error, and what is
left is the library as it was before that call, or one whose mapping is gone. -/
namespace MediaLibrary.LibraryFile

variable {ε δ α β : Type} {pending : List Answers} {wrap : FileError → ε}
  {Left : LibraryFile → Prop} {lib : LibraryFile}

theorem facing_calm (h : lib.system = .calm) : lib.facing .calm = lib := by
  obtain ⟨path, settings, contents, mapped, system⟩ := lib
  cases h
  rfl

theorem now_mem {system : System} (kind : Answers → Option FileError) {error : FileError}
    (hkind : kind {} = none) (h : kind system.now = some error) : system.now ∈ system.pending := by
  obtain ⟨pending⟩ := system
  cases pending with
  | nil =>
    rw [show System.now ⟨[]⟩ = {} from rfl, hkind] at h
    cases h
  | cons answers rest => exact List.mem_cons_self

/-- What came of an operation, next to what comes of it before a calm system. Either it is the same,
or the operation stopped with an error of the system and what is left is described by `Left`. -/
inductive Follows (pending : List Answers) (wrap : FileError → ε) (Left : LibraryFile → Prop) :
    EStateM.Result (Failure ε) LibraryFile α → EStateM.Result (Failure ε) LibraryFile α → Prop
  | done {a : α} {lib : LibraryFile} {later : System} (calm : lib.system = .calm)
      (rest : later.pending ⊆ pending) :
      Follows pending wrap Left (.ok a lib) (.ok a (lib.facing later))
  | failed {e : Failure ε} {lib : LibraryFile} {later : System} (calm : lib.system = .calm)
      (rest : later.pending ⊆ pending) :
      Follows pending wrap Left (.error e lib) (.error e (lib.facing later))
  | stopped {result : EStateM.Result (Failure ε) LibraryFile α} (error : FileError)
      {left : LibraryFile} (h : Left left) :
      Follows pending wrap Left result (.error (.refused (wrap error)) left)

/-- Whichever of the answers the system has in store, the operation follows the calm one. -/
def Tracks (pending : List Answers) (wrap : FileError → ε) (Left : LibraryFile → Prop)
    (x : EStateM (Failure ε) LibraryFile α) (lib : LibraryFile) : Prop :=
  lib.system = .calm → ∀ system : System, system.pending ⊆ pending →
    Follows pending wrap Left (x lib) (x (lib.facing system))

/-- How a change of size to `size` bytes breaks off. The file was not given that size and is mapped
as it is, or it could not be mapped. -/
inductive Halted (pending : List Answers) (size : Nat) (lib : LibraryFile) : LibraryFile → Prop
  | kept {later : System} (rest : later.pending ⊆ pending)
      (unsized : ∃ answers ∈ pending, ((lib.facing ⟨[answers]⟩).sizing size).isSome) :
      Halted pending size lib ({ lib with mapped := some lib.contents.size }.facing later)
  | stranded {later : System} (rest : later.pending ⊆ pending)
      (unsized : ∃ answers ∈ pending, ((lib.facing ⟨[answers]⟩).sizing size).isSome)
      (unmapped : ∃ answers ∈ pending, answers.mapping.isSome) :
      Halted pending size lib ({ lib with mapped := none }.facing later)
  | resized {later : System} (rest : later.pending ⊆ pending)
      (unmapped : ∃ answers ∈ pending, answers.mapping.isSome) :
      Halted pending size lib
        ({ lib with contents := lib.contents.resize size, mapped := none }.facing later)

theorem now_mem_of_sizing {system : System} {size : Nat} {error : FileError}
    (h : (lib.facing system).sizing size = some error) : system.now ∈ system.pending := by
  rw [sizing] at h
  split at h
  · exact now_mem Answers.shortening rfl h
  · exact now_mem Answers.lengthening rfl h

theorem unmap_refused {system : System} {size : Nat} {error : FileError}
    (h : (lib.facing system).sizing size = some error) :
    unmap size (lib.facing system) = { lib with mapped := none }.facing system.later := by
  rw [unmap, h]
  rfl

theorem unmap_granted {system : System} {size : Nat} (h : (lib.facing system).sizing size = none) :
    unmap size (lib.facing system)
      = { lib with contents := lib.contents.resize size, mapped := none }.facing system.later := by
  rw [unmap, h]
  rfl

/-- How a library comes not to be lengthened. -/
def Unlengthened (pending : List Answers) (lib left : LibraryFile) : Prop :=
  ∃ length size, lib.length = .ok length ∧ length < size ∧ size < Word.limit ∧
    Halted pending size lib left

/-- How a library comes not to be shortened. -/
def Unshortened (pending : List Answers) (lib left : LibraryFile) : Prop :=
  ∃ length size, lib.length = .ok length ∧ LibraryHeader.size ≤ size ∧ size < length ∧
    Halted pending size lib left

theorem Halted.refused {size : Nat} {left : LibraryFile} (h : Halted pending size lib left) :
    ∃ answers ∈ pending, answers ≠ {} := by
  cases h with
  | kept _ hunsized | stranded _ hunsized _ =>
    obtain ⟨answers, hanswers, hsizing⟩ := hunsized
    refine ⟨answers, hanswers, ?_⟩
    rintro rfl
    rw [sizing] at hsizing
    split at hsizing <;> cases hsizing
  | resized _ hunmapped =>
    obtain ⟨answers, hanswers, hmapping⟩ := hunmapped
    refine ⟨answers, hanswers, ?_⟩
    rintro rfl
    cases hmapping

theorem Unlengthened.refused {left : LibraryFile} (h : Unlengthened pending lib left) :
    ∃ answers ∈ pending, answers ≠ {} := by
  obtain ⟨_, _, -, -, -, hhalted⟩ := h
  exact hhalted.refused

/-- The system is turned to even if there is nothing that it could flush. -/
theorem flush_error {e : Failure LibraryError} (h : lib.view = .error e) :
    flush lib = .error e (lib.facing lib.system.later) := by
  have hsync : lib.sync = .error e := Steps.query_error h
  rw [flush, Steps.bind_get, Steps.bind_modify]
  exact Steps.consult_error hsync

theorem flush_of_view {view : Image} (h : lib.view = .ok view) :
    flush lib = consult (fun _ => granted lib.system.now.flushing) (lib.facing lib.system.later) := by
  have hsync : lib.sync = granted lib.system.now.flushing := Steps.query_ok h
  rw [flush, Steps.bind_get, Steps.bind_modify, hsync]
  rfl

namespace Tracks

section Combinators

theorem of_eq {x y : EStateM (Failure ε) LibraryFile α} (hx : Tracks pending wrap Left x lib)
    (h : ∀ system, y (lib.facing system) = x (lib.facing system)) :
    Tracks pending wrap Left y lib := by
  intro hcalm system hsystem
  have hsame := h .calm
  rw [facing_calm hcalm] at hsame
  rw [hsame, h system]
  exact hx hcalm system hsystem

theorem mono {Left' : LibraryFile → Prop} {x : EStateM (Failure ε) LibraryFile α}
    (hx : Tracks pending wrap Left x lib) (h : ∀ left, Left left → Left' left) :
    Tracks pending wrap Left' x lib := by
  intro hcalm system hsystem
  have hfollows := hx hcalm system hsystem
  generalize x (lib.facing system) = actual at hfollows ⊢
  generalize x lib = result at hfollows ⊢
  cases hfollows with
  | done hmid hrest => exact .done hmid hrest
  | failed hmid hrest => exact .failed hmid hrest
  | stopped error hleft => exact .stopped error (h _ hleft)

theorem pure (a : α) : Tracks pending wrap Left (pure a : EStateM _ LibraryFile α) lib :=
  fun hcalm _ hsystem => .done hcalm hsystem

theorem throw (e : Failure ε) :
    Tracks pending wrap Left (throw e : EStateM _ LibraryFile α) lib :=
  fun hcalm _ hsystem => .failed hcalm hsystem

theorem consult {question : LibraryFile → Except (Failure ε) α}
    (h : ∀ system, question (lib.facing system) = question lib) :
    Tracks pending wrap Left (MediaLibrary.consult question) lib := by
  intro hcalm system hsystem
  cases hq : question lib with
  | error e =>
    rw [Steps.consult_error hq, Steps.consult_error ((h system).trans hq)]
    exact .failed hcalm hsystem
  | ok a =>
    rw [Steps.consult_ok hq, Steps.consult_ok ((h system).trans hq)]
    exact .done hcalm hsystem

theorem modifies {change : LibraryFile → LibraryFile}
    (hcalm : lib.system = .calm → (change lib).system = .calm)
    (h : ∀ system, change (lib.facing system) = (change lib).facing system) :
    Tracks pending wrap Left (modify change) lib := by
  intro hlib system hsystem
  rw [Steps.modify_eq, Steps.modify_eq, h system]
  exact .done (hcalm hlib) hsystem

theorem bind {x : EStateM (Failure ε) LibraryFile α} {f : α → EStateM (Failure ε) LibraryFile β}
    (hx : Tracks pending wrap Left x lib)
    (hf : ∀ a mid, x lib = .ok a mid → Tracks pending wrap Left (f a) mid) :
    Tracks pending wrap Left (x >>= f) lib := by
  intro hcalm system hsystem
  have hfollows := hx hcalm system hsystem
  generalize hact : x (lib.facing system) = actual at hfollows
  generalize hres : x lib = result at hfollows
  cases hfollows with
  | done hmid hrest =>
    rw [Steps.bind_ok hres, Steps.bind_ok hact]
    exact hf _ _ hres hmid _ hrest
  | failed hmid hrest =>
    rw [Steps.bind_error hres, Steps.bind_error hact]
    exact .failed hmid hrest
  | stopped error hleft =>
    rw [Steps.bind_error hact]
    exact .stopped error hleft

theorem consult_bind {question : LibraryFile → Except (Failure ε) α}
    {f : α → EStateM (Failure ε) LibraryFile β}
    (h : ∀ system, question (lib.facing system) = question lib)
    (hf : ∀ a, question lib = .ok a → Tracks pending wrap Left (f a) lib) :
    Tracks pending wrap Left (MediaLibrary.consult question >>= f) lib := by
  refine bind (consult h) fun a mid hmid => ?_
  obtain ⟨hq, rfl⟩ := Steps.consult_eq_ok_iff.1 hmid
  exact hf a hq

theorem get_bind {f : LibraryFile → EStateM (Failure ε) LibraryFile α}
    (h : ∀ system, f (lib.facing system) = f lib) (hf : Tracks pending wrap Left (f lib) lib) :
    Tracks pending wrap Left (get >>= f) lib := by
  refine of_eq hf fun system => ?_
  rw [Steps.bind_get, h system]

theorem ite {c : Prop} [Decidable c] {x y : EStateM (Failure ε) LibraryFile α}
    (hx : c → Tracks pending wrap Left x lib) (hy : ¬ c → Tracks pending wrap Left y lib) :
    Tracks pending wrap Left (if c then x else y) lib := by
  split
  · exact hx ‹_›
  · exact hy ‹_›

theorem adaptExcept {x : EStateM (Failure ε) LibraryFile α} (h : Tracks pending wrap Left x lib)
    (f : ε → δ) :
    Tracks pending (f ∘ wrap) Left (EStateM.adaptExcept (Failure.map f) x) lib := by
  intro hcalm system hsystem
  have hfollows := h hcalm system hsystem
  generalize hact : x (lib.facing system) = actual at hfollows
  generalize hres : x lib = result at hfollows
  cases hfollows with
  | done hmid hrest =>
    rw [Steps.adaptExcept_ok hres, Steps.adaptExcept_ok hact]
    exact .done hmid hrest
  | failed hmid hrest =>
    rw [Steps.adaptExcept_error hres, Steps.adaptExcept_error hact]
    exact .failed hmid hrest
  | stopped error hleft =>
    rw [Steps.adaptExcept_error hact]
    exact .stopped error hleft

end Combinators

/-! Changes of the library's size. -/

section Geometry

theorem changeView (change : Image → Query Image) :
    Tracks pending .io Left (LibraryFile.changeView change) lib := by
  intro hcalm system hsystem
  have hview : (lib.facing system).view = lib.view := rfl
  rw [LibraryFile.changeView, LibraryFile.changeView, hview]
  cases lib.view >>= change with
  | ok view => exact .done hcalm hsystem
  | error e => exact .failed hcalm hsystem

theorem put (offset : Nat) (new : Image) :
    Tracks pending .io Left (LibraryFile.put offset new) lib := changeView _

theorem putWord (offset n : Nat) : Tracks pending .io Left (LibraryFile.putWord offset n) lib :=
  changeView _

theorem resize {size : Nat} (h : ∀ left, Halted pending size lib left → Left left) :
    Tracks pending .io Left (LibraryFile.resize size) lib := by
  intro hcalm system hsystem
  rcases Nat.lt_or_ge size Word.limit with hsmall | hbig
  · have hlater : system.later.pending ⊆ pending := fun answers hanswers =>
      hsystem (List.mem_of_mem_tail hanswers)
    have hunsized {error : FileError} (hsizing : (lib.facing system).sizing size = some error) :
        ∃ answers ∈ pending, ((lib.facing ⟨[answers]⟩).sizing size).isSome :=
      ⟨system.now, hsystem (now_mem_of_sizing hsizing), Option.isSome_of_mem hsizing⟩
    rw [resize_eq (lib.facing system) hsmall]
    cases hmapping : (lib.facing system).system.now.mapping with
    | some error =>
      have hunmapped : ∃ answers ∈ pending, answers.mapping.isSome :=
        ⟨system.now, hsystem (now_mem Answers.mapping rfl hmapping),
          Option.isSome_of_mem hmapping⟩
      cases hsizing : (lib.facing system).sizing size with
      | some other =>
        rw [unmap_refused hsizing]
        exact .stopped error (h _ (.stranded hlater (hunsized hsizing) hunmapped))
      | none =>
        rw [unmap_granted hsizing]
        exact .stopped error (h _ (.resized hlater hunmapped))
    | none =>
      cases hsizing : (lib.facing system).sizing size with
      | some error =>
        rw [unmap_refused hsizing]
        exact .stopped error (h _ (.kept hlater (hunsized hsizing)))
      | none =>
        have hcalmed : lib.system.now.mapping = none := by
          rw [hcalm]
          rfl
        have hput : Tracks pending .io Left
            (LibraryFile.putWord LibraryHeader.lengthField.offset size)
            { lib with contents := lib.contents.resize size, mapped := some size } := putWord _ _
        rw [resize_eq lib hsmall, sizing_calm hcalm, unmap_calm hcalm, hcalmed,
          unmap_granted hsizing]
        simp only
        split
        · exact .failed hcalm hlater
        · exact hput hcalm _ hlater
  · rw [resize_refused hbig, resize_refused hbig]
    exact .failed hcalm hsystem

theorem expand {size : Nat} (h : ∀ left, Unlengthened pending lib left → Left left) :
    Tracks pending .io Left (LibraryFile.expand size) lib := by
  refine consult_bind (fun _ => rfl) fun length hlength => ite (fun _ => throw _) fun hlong => ?_
  rcases Nat.lt_or_ge size Word.limit with hsmall | hbig
  · exact resize fun left hleft =>
      h left ⟨length, size, hlength, Nat.lt_of_not_le hlong, hsmall, hleft⟩
  · refine of_eq (x := Update.refuse .tooLarge) (throw _) fun system => ?_
    rw [resize_refused hbig]
    rfl

theorem truncate {size : Nat} (h : ∀ left, Unshortened pending lib left → Left left) :
    Tracks pending .io Left (LibraryFile.truncate size) lib := by
  refine consult_bind (fun _ => rfl) fun length hlength =>
    ite (fun _ => throw _) fun hrange => ite (fun _ => pure _) fun hother => ?_
  exact resize fun left hleft => h left ⟨length, size, hlength, by omega, by omega, hleft⟩

theorem insertSpace {offset count : Nat} (h : ∀ left, Unlengthened pending lib left → Left left) :
    Tracks pending .io Left (LibraryFile.insertSpace offset count) lib := by
  refine consult_bind (fun _ => rfl) fun length _ => ite (fun _ => throw _) fun _ =>
    ite (fun _ => pure _) fun _ => ite (fun _ => throw _) fun _ => ?_
  exact bind (expand h) fun _ _ _ => bind (changeView _) fun _ _ _ => put _ _

/-- The bytes have been moved when the library is to be shortened. -/
theorem excise {start stop : Nat} (h : ∀ length mid left, LibraryHeader.size ≤ start →
      LibraryFile.shift stop length start lib = .ok () mid →
      Unshortened pending mid left → Left left) :
    Tracks pending .io Left (LibraryFile.excise start stop) lib := by
  refine consult_bind (fun _ => rfl) fun length _ => ite (fun _ => throw _) fun hrange =>
    ite (fun _ => pure _) fun _ => bind (changeView _) fun _ mid hmid => ?_
  exact truncate fun left hleft => h length mid left (by omega) hmid hleft

theorem flush (h : ∀ later : System, later.pending ⊆ pending → LibraryFile.flush lib = .ok () lib →
      Left (lib.facing later)) :
    Tracks pending .io Left LibraryFile.flush lib := by
  intro hcalm system hsystem
  have hlater : system.later.pending ⊆ pending := fun answers hanswers =>
    hsystem (List.mem_of_mem_tail hanswers)
  have hsame : lib.facing lib.system.later = lib := by
    rw [hcalm]
    exact facing_calm hcalm
  have hview : (lib.facing system).view = lib.view := rfl
  cases hlib : lib.view with
  | error e =>
    have hcalmed := flush_error hlib
    rw [hsame] at hcalmed
    rw [hcalmed, flush_error (hview.trans hlib)]
    exact .failed hcalm hlater
  | ok view =>
    have hcalmed : LibraryFile.flush lib = .ok () lib := by
      rw [flush_of_view hlib, hsame, hcalm]
      rfl
    rw [hcalmed, flush_of_view (hview.trans hlib)]
    cases (lib.facing system).system.now.flushing with
    | none => exact .done hcalm hlater
    | some error => exact .stopped error (h _ hlater hcalmed)

theorem appendRecord {name : Bytes} {quantum : Nat} (h : ∀ left, Unlengthened pending lib left → Left left) :
    Tracks pending .io Left (LibraryFile.appendRecord name quantum) lib := by
  refine consult_bind (fun _ => rfl) fun offset _ => ite (fun _ => throw _) fun _ =>
    ite (fun _ => throw _) fun _ => ?_
  exact bind (expand h) fun _ _ _ => bind (put _ _) fun _ _ _ =>
    consult_bind (fun _ => rfl) fun _ _ => bind (put _ _) fun _ _ _ => pure _

theorem startPlaylist {name : String} (h : ∀ left, Unlengthened pending lib left → Left left)
    (hflush : ∀ offset mid (later : System), LibraryFile.startPlaylist name lib = .ok offset mid →
      later.pending ⊆ pending → Left (mid.facing later)) :
    Tracks pending .io Left (LibraryFile.startPlaylist name) lib := by
  refine consult_bind (fun _ => rfl) fun _ hcheck => get_bind (fun _ => rfl) ?_
  refine bind (appendRecord h) fun offset mid happend => ite (fun hsync => ?_) fun _ => pure _
  refine bind (flush fun later hlater hflushed => hflush offset mid later ?_ hlater) fun _ _ _ =>
    pure _
  have hconsult : MediaLibrary.consult (checkNewName · name) lib = .ok () lib :=
    Steps.consult_ok hcheck
  rw [LibraryFile.startPlaylist, Steps.bind_ok hconsult, Steps.bind_get]
  refine (Steps.bind_ok happend).trans ?_
  rw [if_pos hsync]
  exact Steps.bind_ok hflushed

theorem putMediaCount (count : Nat) :
    Tracks pending .io Left (LibraryFile.putMediaCount count) lib := putWord _ _

end Geometry

/-! Changes of the paths in a playlist. -/

section Paths

variable {offset base quantum : Nat} {value : Bytes} {path : String}

theorem insertSpace_host {place count : Nat} (h : ∀ left, Unlengthened pending lib left → Left left) :
    Tracks pending id Left ((host offset).insertSpace place count) lib := by
  refine adaptExcept (bind (insertSpace h) fun _ _ _ => ?_) LibraryError.toFileError
  exact consult_bind (fun _ => rfl) fun length _ => ite (fun _ => throw _) fun _ => putWord _ _

theorem overlay_host (system : System) (place : Nat) (new : Image) :
    (host offset).overlay (lib.facing system) place new
      = ((host offset).overlay lib place new).facing system := by
  have hview : (lib.facing system).view = lib.view := rfl
  simp only [host, hview]
  cases lib.view <;> rfl

theorem overlay_host_calm (h : lib.system = .calm) (place : Nat) (new : Image) :
    ((host offset).overlay lib place new).system = .calm := by
  simp only [host]
  cases lib.view <;> exact h

theorem modify_host (place : Nat) (new : Image) :
    Tracks pending wrap Left (modify fun lib => (host offset).overlay lib place new) lib :=
  modifies (overlay_host_calm · place new) (overlay_host · place new)

theorem grow (h : ∀ left, Unlengthened pending lib left → Left left) :
    Tracks pending .grow Left (StringTable.grow (host offset) base quantum) lib := by
  refine consult_bind (fun _ => rfl) fun t _ => ite (fun _ => throw _) fun _ => ?_
  exact bind (adaptExcept (insertSpace_host h) TableError.grow) fun _ _ _ => modify_host _ _

theorem growTimes {n : Nat} (h : ∀ j mid left,
      StringTable.growTimes (host offset) base quantum j lib = .ok () mid →
      Unlengthened pending mid left → Left left) :
    Tracks pending .grow Left (StringTable.growTimes (host offset) base quantum n) lib := by
  induction n generalizing lib with
  | zero => exact pure _
  | succ n ih =>
    refine bind (grow fun left hleft => h 0 lib left rfl hleft) fun _ between hgrown => ?_
    refine ih fun j mid left hmid hleft => h (j + 1) mid left ?_ hleft
    exact (Steps.bind_ok hgrown).trans hmid

theorem add (h : ∀ j mid left,
      StringTable.growTimes (host offset) base quantum j lib = .ok () mid →
      Unlengthened pending mid left → Left left) :
    Tracks pending .grow Left (StringTable.add (host offset) base value quantum) lib := by
  refine consult_bind (fun _ => rfl) fun _ _ => bind (growTimes h) fun _ _ _ => ?_
  exact consult_bind (fun _ => rfl) fun _ _ => consult_bind (fun _ => rfl) fun _ _ =>
    modify_host _ _

theorem refreshMediaCount : Tracks pending .io Left (LibraryFile.refreshMediaCount offset) lib :=
  consult_bind (fun _ => rfl) fun _ _ => get_bind (fun _ => rfl)
    (ite (fun _ => putMediaCount _) fun _ => pure _)

theorem addPathAt (h : ∀ p j mid left, lib.playlistAt offset = .ok p →
      StringTable.growTimes (host offset) p.tableOffset lib.settings.growthQuantum j lib
        = .ok () mid →
      Unlengthened pending mid left → Left left) :
    Tracks pending .io Left (LibraryFile.addPathAt offset path) lib := by
  refine consult_bind (fun _ => rfl) fun p hp => get_bind (fun _ => rfl) ?_
  refine bind (adaptExcept (add (h p · · · hp)) (refusalOf path)) fun _ _ _ => ?_
  exact consult_bind (fun _ => rfl) fun _ _ => bind (putWord _ _) fun _ _ _ => refreshMediaCount

theorem removePathAt : Tracks pending .io Left (LibraryFile.removePathAt offset path) lib := by
  refine consult_bind (fun _ => rfl) fun p _ => consult_bind (fun _ => rfl) fun _ _ =>
    consult_bind (fun _ => rfl) fun removed _ => ?_
  cases removed with
  | none => exact pure _
  | some rest =>
    exact bind (put _ _) fun _ _ _ => bind (putWord _ _) fun _ _ _ =>
      bind refreshMediaCount fun _ _ _ => pure _

theorem ensurePathAt (h : Tracks pending .io Left (LibraryFile.addPathAt offset path) lib) :
    Tracks pending .io Left (LibraryFile.ensurePathAt offset path) lib := by
  intro hcalm system hsystem
  have hfollows := h hcalm system hsystem
  rw [LibraryFile.ensurePathAt, LibraryFile.ensurePathAt]
  generalize LibraryFile.addPathAt offset path (lib.facing system) = actual at hfollows ⊢
  generalize LibraryFile.addPathAt offset path lib = result at hfollows ⊢
  cases hfollows with
  | done hmid hrest => exact .done hmid hrest
  | @failed e _ _ hmid hrest =>
    cases e with
    | fault => exact .failed hmid hrest
    | refused e =>
      cases e with
      | pathExists => exact .done hmid hrest
      | _ => exact .failed hmid hrest
  | stopped error hleft => exact .stopped error hleft

theorem addToGlobal
    (hstart : Tracks pending .io Left
      (LibraryFile.startPlaylist lib.settings.globalPlaylist) lib)
    (hfound : ∀ p, lib.find lib.settings.globalPlaylist = .ok (some p) →
      Tracks pending .io Left (LibraryFile.addPathAt p.offset path) lib)
    (hstarted : ∀ offset mid,
      LibraryFile.startPlaylist lib.settings.globalPlaylist lib = .ok offset mid →
      Tracks pending .io Left (LibraryFile.addPathAt offset path) mid) :
    Tracks pending .io Left (LibraryFile.addToGlobal path) lib := by
  refine get_bind (fun _ => rfl) (consult_bind (fun _ => rfl) fun found hfind => ?_)
  cases found with
  | some p => exact ensurePathAt (hfound p hfind)
  | none => exact bind hstart fun offset mid hmid => ensurePathAt (hstarted offset mid hmid)

theorem addPath {playlist : String}
    (hglobal : lib.checkNewPath playlist path = .ok () →
      (lib.settings.copyToGlobal ∧ playlist ≠ lib.settings.globalPlaylist) →
      Tracks pending .io Left (LibraryFile.addToGlobal path) lib)
    (hadd : lib.checkNewPath playlist path = .ok () → ∀ mid target,
      (mid = lib ∨ (lib.settings.copyToGlobal ∧ playlist ≠ lib.settings.globalPlaylist) ∧
        LibraryFile.addToGlobal path lib = .ok () mid) → mid.named playlist = .ok target →
      Tracks pending .io Left (LibraryFile.addPathAt target.offset path) mid) :
    Tracks pending .io Left (LibraryFile.addPath playlist path) lib := by
  refine consult_bind (fun _ => rfl) fun _ hcheck => get_bind (fun _ => rfl)
    (ite (fun hcopy => bind (hglobal hcheck hcopy) fun _ mid hmid => ?_) fun _ => ?_)
  · exact consult_bind (fun _ => rfl) fun target => hadd hcheck mid target (.inr ⟨hcopy, hmid⟩)
  · exact consult_bind (fun _ => rfl) fun target => hadd hcheck lib target (.inl rfl)

theorem removePath {playlist : String} :
    Tracks pending .io Left (LibraryFile.removePath playlist path) lib :=
  consult_bind (fun _ => rfl) fun _ _ => removePathAt

end Paths

theorem deletePlaylist {name : String} (h : ∀ p length mid left, lib.named name = .ok p → LibraryHeader.size ≤ p.offset →
      LibraryFile.shift (p.offset + p.length) length p.offset lib = .ok () mid →
      Unshortened pending mid left → Left left) :
    Tracks pending .io Left (LibraryFile.deletePlaylist name) lib := by
  refine consult_bind (fun _ => rfl) fun p hp => bind (excise fun length mid left =>
    h p length mid left hp) fun _ _ _ => ?_
  exact get_bind (fun _ => rfl) (ite (fun _ => putMediaCount 0) fun _ => pure _)

/-! Whatever is left when they stop. -/

section Any

theorem addPathAt_any (offset : Nat) (path : String) :
    Tracks pending .io (fun _ => True) (LibraryFile.addPathAt offset path) lib :=
  addPathAt fun _ _ _ _ _ _ _ => trivial

theorem startPlaylist_any (name : String) :
    Tracks pending .io (fun _ => True) (LibraryFile.startPlaylist name) lib :=
  startPlaylist (fun _ _ => trivial) fun _ _ _ _ _ => trivial

theorem addPath_any (playlist path : String) :
    Tracks pending .io (fun _ => True) (LibraryFile.addPath playlist path) lib :=
  addPath (fun _ _ => addToGlobal (startPlaylist_any _) (fun _ _ => addPathAt_any _ path)
    fun _ _ _ => addPathAt_any _ path) fun _ _ _ _ _ => addPathAt_any _ path

theorem deletePlaylist_any (name : String) :
    Tracks pending .io (fun _ => True) (LibraryFile.deletePlaylist name) lib :=
  deletePlaylist fun _ _ _ _ _ _ _ _ => trivial

end Any

/-! An operation before the system that the library faces, and before a calm one. -/

section Calm

variable {x : EStateM (Failure ε) LibraryFile α} {lib' : LibraryFile} {a : α} {e : Failure ε}

theorem of_ok (h : Tracks pending wrap Left x (lib.facing .calm))
    (hrest : lib.system.pending ⊆ pending) (hx : x (lib.facing .calm) = .ok a lib') :
    (∃ later : System, later.pending ⊆ pending ∧ x lib = .ok a (lib'.facing later)) ∨
      ∃ error left, x lib = .error (.refused (wrap error)) left ∧ Left left := by
  have hfollows := h rfl lib.system hrest
  have hactual : (lib.facing .calm).facing lib.system = lib := rfl
  rw [hx, hactual] at hfollows
  generalize x lib = actual at hfollows ⊢
  cases hfollows with
  | done _ hlater => exact Or.inl ⟨_, hlater, rfl⟩
  | stopped error hleft => exact Or.inr ⟨error, _, rfl, hleft⟩

theorem of_error (h : Tracks pending wrap Left x (lib.facing .calm))
    (hrest : lib.system.pending ⊆ pending) (hx : x (lib.facing .calm) = .error e lib') :
    (∃ later : System, later.pending ⊆ pending ∧ x lib = .error e (lib'.facing later)) ∨
      ∃ error left, x lib = .error (.refused (wrap error)) left ∧ Left left := by
  have hfollows := h rfl lib.system hrest
  have hactual : (lib.facing .calm).facing lib.system = lib := rfl
  rw [hx, hactual] at hfollows
  generalize x lib = actual at hfollows ⊢
  cases hfollows with
  | failed _ hlater => exact Or.inl ⟨_, hlater, rfl⟩
  | stopped error hleft => exact Or.inr ⟨error, _, rfl, hleft⟩

/-- An operation that never stops goes before any system as it does before a calm one. -/
theorem ok_of_calm (h : Tracks lib.system.pending wrap (fun _ => False) x (lib.facing .calm))
    (hx : x (lib.facing .calm) = .ok a lib') :
    ∃ later : System, x lib = .ok a (lib'.facing later) := by
  rcases h.of_ok (List.Subset.refl _) hx with ⟨later, -, hdone⟩ | ⟨_, _, -, hnever⟩
  · exact ⟨later, hdone⟩
  · exact hnever.elim

/-- What is done before some system is done before a calm one. -/
theorem calm_of_ok (h : Tracks lib.system.pending wrap Left x (lib.facing .calm))
    (hx : x lib = .ok a lib') : x (lib.facing .calm) = .ok a (lib'.facing .calm) := by
  have hfollows := h rfl lib.system (List.Subset.refl _)
  have hactual : x ((lib.facing .calm).facing lib.system) = .ok a lib' := hx
  rw [hactual] at hfollows
  generalize x (lib.facing .calm) = result at hfollows ⊢
  cases hfollows with
  | @done _ mid _ hmid _ => exact congrArg _ (facing_calm hmid).symm

end Calm
end Tracks
end MediaLibrary.LibraryFile
