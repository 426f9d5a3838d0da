import Mathlib
import MediaLibrary.Proofs.StringTable.Growth
/-! Growth that breaks off. Storage may refuse a gap at any growth step; the steps taken before stay,
and the table answers as it did. Storage that refused once may yet open a gap later. However often an
addition breaks off and is tried again, the bytes that it leaves in the end are those that it would
have left at once. -/
namespace MediaLibrary.StringTable

variable {σ : Type}

/-- Storage that does what it says: it lays bytes over others, and opens gaps of zero bytes or keeps
its bytes. What else there is to it may change at any time, and with it whether it refuses. -/
structure Host.Dependable (host : Host σ) : Prop where
  overlay : ∀ {s : σ} {offset : Nat} {new : Image}, offset + new.size ≤ (host.image s).size →
    (host.image (host.overlay s offset new)).toList
      = Bytes.overlay (host.image s).toList offset new.toList
  opened : ∀ {s s' : σ} {offset count : Nat}, offset ≤ (host.image s).size →
    host.insertSpace offset count s = .ok () s' →
    (host.image s').toList = (host.image s).toList.take offset ++ Bytes.zeros count
      ++ (host.image s).toList.drop offset
  refused : ∀ {s s' : σ} {offset count : Nat} {f : Failure FileError},
    host.insertSpace offset count s = .error f s' →
    (host.image s').toList = (host.image s).toList

/-! Tables with the same bytes, in whatever way they are held, and tables that differ in their free
bytes. -/

section Alike

variable {t t' : StringTable}

theorem sort_congr (h : t'.parts = t.parts) : t'.sort.parts = t.sort.parts := by
  have hsorted : t'.sortSlots t'.slots = t.sortSlots t.slots := by
    rw [sortSlots, sortSlots, sortKey_congr (congrArg Parts.strings h),
      slots_congr (congrArg Parts.index h)]
  have hstrings : t'.strings.toList = t.strings.toList := congrArg Parts.strings h
  have hfree : t'.free.toList = t.free.toList := congrArg Parts.free h
  exact Parts.ext hstrings hfree (congrArg (fun slots => (indexOf slots).toList) hsorted)

theorem push_congr {pushed : StringTable} {value : Bytes} (h : t'.parts = t.parts)
    (hpush : t.push value = .ok pushed) :
    ∃ pushed', t'.push value = .ok pushed' ∧ pushed'.parts = pushed.parts := by
  have hstrings : t'.strings.toList = t.strings.toList := congrArg Parts.strings h
  have hfree : t'.free.toList = t.free.toList := congrArg Parts.free h
  have hstart : t'.strings.size = t.strings.size := by
    simpa using congrArg List.length hstrings
  have hspace : t'.free.size = t.free.size := by simpa using congrArg List.length hfree
  have hroom : t'.hasRoomFor value = t.hasRoomFor value := by
    rw [hasRoomFor, hasRoomFor, hspace]
  rw [push] at hpush ⊢
  rw [hroom]
  by_cases hfits : t.hasRoomFor value
  · rw [if_pos hfits] at hpush ⊢
    obtain rfl := Except.ok.inj hpush
    refine ⟨_, rfl, sort_congr ?_⟩
    simp only [parts, Image.toList_append, Image.toList_slice, hstrings, hfree, hspace, hstart,
      slots_congr (congrArg Parts.index h)]
  · rw [if_neg hfits] at hpush
    cases hpush

variable (hstrings : t'.parts.strings = t.parts.strings) (hindex : t'.parts.index = t.parts.index)

include hstrings in
theorem textAt_congr : t'.textAt = t.textAt := by
  funext offset
  rw [textAt, textAt, resolve_congr hstrings]

include hstrings hindex

theorem ordinal_congr : t'.ordinal = t.ordinal := by
  funext n
  rw [ordinal, ordinal, entries_congr hindex, slotAt_congr hindex, textAt_congr hstrings]

theorem outcomes_congr : t'.outcomes = t.outcomes := by
  rw [outcomes, outcomes, slots_congr hindex, textAt_congr hstrings]

end Alike

def widen (t : StringTable) (count : Nat) : StringTable :=
  { t with free := t.free ++ .blank count }

@[simp] theorem parts_widen (t : StringTable) (count : Nat) :
    (t.widen count).parts = t.parts.widen count := by
  simp [widen, parts, Parts.widen]

@[simp] theorem size_free_widen (t : StringTable) (count : Nat) :
    (t.widen count).free.size = t.free.size + count := by
  simp [widen]

/-! One table in dependable storage. -/

section Table

variable {host : Host σ} {before after : Bytes} {s s' : σ} {p : Parts} {quantum : Nat}
  {e : Failure TableError}

/-- In the storage `s`, `bytes` lie between `before` and `after`. -/
def Host.Frames (host : Host σ) (before after : Bytes) (s : σ) (bytes : Bytes) : Prop :=
  (host.image s).toList = before ++ bytes ++ after

theorem Host.Frames.size_image {bytes : Bytes} (h : host.Frames before after s bytes) :
    (host.image s).size = before.length + bytes.length + after.length := by
  rw [← Image.length_toList, h, List.length_append, List.length_append]

theorem Host.Dependable.exposes (h : host.Dependable) (before after : Bytes) :
    host.Exposes before.length (host.Frames before after) where
  image hs := ⟨before, after, hs, rfl⟩
  overlay {s bytes offset new} hs hfits := by
    have hinside : before.length + offset + new.size ≤ (host.image s).size := by
      rw [hs.size_image]
      omega
    show (host.image _).toList = _
    rw [h.overlay hinside, hs, List.append_assoc, Bytes.overlay_append_right,
      Bytes.overlay_append_left _ (by simpa using hfits), List.append_assoc]

/-- Why a growth step fails: the table would be too long, or the storage refused a gap. -/
def GrowthRefused (e : Failure TableError) : Prop :=
  e = .refused .overflow ∨ ∃ f : Failure FileError, e = f.map .grow

theorem Host.Dependable.grow_ok (h : host.Dependable) (hp : p.Sized)
    (hs : host.Frames before after s p.encode)
    (hgrow : grow host before.length quantum s = .ok () s') :
    (p.widen quantum).Sized ∧ host.Frames before after s' (p.widen quantum).encode := by
  have hexposes := h.exposes before after
  have hle : p.indexOffset ≤ p.encode.length := by
    rw [Parts.length_encode]
    exact Nat.le_add_right _ _
  have hinside : before.length + p.indexOffset ≤ (host.image s).size := by
    rw [hs.size_image]
    omega
  rw [hexposes.grow_eq hp hs] at hgrow
  by_cases hbig : Word.limit ≤ p.length + quantum
  · rw [if_pos hbig] at hgrow
    cases hgrow
  · rw [if_neg hbig] at hgrow
    cases hins : host.insertSpace (before.length + p.indexOffset) quantum s with
    | error f s₁ =>
      rw [hins] at hgrow
      cases hgrow
    | ok _ s₁ =>
      rw [hins] at hgrow
      obtain rfl := (EStateM.Result.ok.inj hgrow).2
      refine ⟨hp.widen (Nat.lt_of_not_le hbig), hexposes.widened ?_⟩
      rw [Host.Frames, h.opened hinside hins, hs, Bytes.gap_middle hle]

theorem Host.Dependable.grow_error (h : host.Dependable) (hp : p.Sized)
    (hs : host.Frames before after s p.encode)
    (hgrow : grow host before.length quantum s = .error e s') :
    GrowthRefused e ∧ host.Frames before after s' p.encode := by
  rw [(h.exposes before after).grow_eq hp hs] at hgrow
  by_cases hbig : Word.limit ≤ p.length + quantum
  · rw [if_pos hbig] at hgrow
    obtain ⟨rfl, rfl⟩ := EStateM.Result.error.inj hgrow
    exact ⟨Or.inl rfl, hs⟩
  · rw [if_neg hbig] at hgrow
    cases hins : host.insertSpace (before.length + p.indexOffset) quantum s with
    | error f s₁ =>
      rw [hins] at hgrow
      obtain ⟨rfl, rfl⟩ := EStateM.Result.error.inj hgrow
      exact ⟨Or.inr ⟨f, rfl⟩, (h.refused hins).trans hs⟩
    | ok _ s₁ =>
      rw [hins] at hgrow
      cases hgrow

theorem Host.Dependable.growTimes_ok (h : host.Dependable) (n : Nat) (hp : p.Sized)
    (hs : host.Frames before after s p.encode)
    (hgrow : growTimes host before.length quantum n s = .ok () s') :
    (p.widen (n * quantum)).Sized ∧
      host.Frames before after s' (p.widen (n * quantum)).encode := by
  induction n generalizing s p with
  | zero =>
    obtain rfl := (EStateM.Result.ok.inj hgrow).2
    simpa using ⟨hp, hs⟩
  | succ n ih =>
    obtain ⟨_, s₁, hfirst, hrest⟩ := Steps.bind_eq_ok_iff.1 hgrow
    obtain ⟨hp₁, hs₁⟩ := h.grow_ok hp hs hfirst
    have hdone := ih hp₁ hs₁ hrest
    rwa [Parts.widen_widen, Nat.add_comm, ← Nat.succ_mul] at hdone

end Table

/-! Adding a string. -/

section Adding

variable {host : Host σ} {before after : Bytes} {s s' : σ} {t : StringTable} {value : Bytes}
  {quantum : Nat} {e : Failure TableError}

/-- In the storage `s` lies a table in order, and `value` is not in it. -/
structure Host.Lacks (host : Host σ) (before after : Bytes) (t : StringTable) (value : Bytes)
    (s : σ) : Prop where
  bytes : host.Frames before after s t.parts.encode
  sized : t.parts.Sized
  absent : ∃ values, t.Ordered values ∧ value ∉ values

def stepsFor (t : StringTable) (value : Bytes) (quantum : Nat) : Nat :=
  growthSteps t.free.size (roomFor value.length) quantum

namespace Host.Lacks

theorem widened (h : host.Lacks before after t value s) {count : Nat}
    (hsized : (t.parts.widen count).Sized)
    (hs : host.Frames before after s' (t.parts.widen count).encode) :
    host.Lacks before after (t.widen count) value s' := by
  obtain ⟨values, hordered, hnew⟩ := h.absent
  rw [← parts_widen] at hsized hs
  refine ⟨hs, hsized, values, hordered.congr ?_ ?_, hnew⟩
  · rw [parts_widen, Parts.widen]
  · rw [parts_widen, Parts.widen]

theorem add_eq (hhost : host.Dependable) (h : host.Lacks before after t value s) (hnul : 0 ∉ value)
    (hq : 0 < quantum) : add host before.length value quantum s =
      (growTimes host before.length quantum (t.stepsFor value quantum) >>= fun _ =>
        pushAt host before.length value) s := by
  obtain ⟨values, hordered, hnew⟩ := h.absent
  have hparts : ∀ t' : StringTable, t'.parts = t.parts → t'.Ordered values :=
    fun t' ht' => hordered.of_parts ht'
  rw [(hhost.exposes before after).add_new h.sized h.bytes hparts hnew hnul hq, length_free_parts,
    stepsFor]

theorem pushAt_ok (hhost : host.Dependable) (h : host.Lacks before after t value s)
    (hroom : roomFor value.length ≤ t.free.size) :
    ∃ pushed s', t.push value = .ok pushed ∧ pushAt host before.length value s = .ok () s' ∧
      host.Frames before after s' pushed.parts.encode := by
  have hpush : t.push value = .ok _ := if_pos (by simpa [hasRoomFor] using hroom)
  obtain ⟨-, hlength⟩ := sized_push h.sized hpush
  obtain ⟨s', hpushed, hs'⟩ := (hhost.exposes before after).pushAt_eq h.sized h.bytes hlength
    fun t' hparts => push_congr hparts hpush
  exact ⟨_, s', hpush, hpushed, hs'⟩

theorem pushAt_wide (hhost : host.Dependable) (h : host.Lacks before after t value s)
    (hq : 0 < quantum) {s₁ : σ}
    (hgrow : growTimes host before.length quantum (t.stepsFor value quantum) s = .ok () s₁) :
    ∃ pushed s', (t.widen (t.stepsFor value quantum * quantum)).push value = .ok pushed ∧
      pushAt host before.length value s₁ = .ok () s' ∧
      host.Frames before after s' pushed.parts.encode := by
  obtain ⟨hsized, hs₁⟩ := hhost.growTimes_ok _ h.sized h.bytes hgrow
  refine (h.widened hsized hs₁).pushAt_ok hhost ?_
  rw [size_free_widen]
  exact le_growthSteps hq t.free.size (roomFor value.length)

theorem add_ok (hhost : host.Dependable) (h : host.Lacks before after t value s) (hnul : 0 ∉ value)
    (hq : 0 < quantum) (hadd : add host before.length value quantum s = .ok () s') :
    ∃ pushed, (t.widen (t.stepsFor value quantum * quantum)).push value = .ok pushed ∧
      host.Frames before after s' pushed.parts.encode := by
  rw [h.add_eq hhost hnul hq] at hadd
  obtain ⟨_, s₁, hgrow, hpushed⟩ := Steps.bind_eq_ok_iff.1 hadd
  obtain ⟨pushed, s₂, hpush, hstored, hs₂⟩ := h.pushAt_wide hhost hq hgrow
  obtain rfl := (EStateM.Result.ok.inj (hpushed.symm.trans hstored)).2
  exact ⟨pushed, hpush, hs₂⟩

theorem add_error (hhost : host.Dependable) (h : host.Lacks before after t value s)
    (hnul : 0 ∉ value) (hq : 0 < quantum)
    (hadd : add host before.length value quantum s = .error e s') :
    ∃ j < t.stepsFor value quantum, ∃ between,
      growTimes host before.length quantum j s = .ok () between ∧
      grow host before.length quantum between = .error e s' ∧ GrowthRefused e ∧
      host.Lacks before after (t.widen (j * quantum)) value s' := by
  rw [h.add_eq hhost hnul hq] at hadd
  cases hgrow : growTimes host before.length quantum (t.stepsFor value quantum) s with
  | ok _ s₁ =>
    obtain ⟨pushed, s₂, -, hstored, -⟩ := h.pushAt_wide hhost hq hgrow
    rw [Steps.bind_ok hgrow, hstored] at hadd
    cases hadd
  | error f s₁ =>
    rw [Steps.bind_error hgrow] at hadd
    obtain ⟨rfl, rfl⟩ := EStateM.Result.error.inj hadd
    obtain ⟨j, hj, between, hsteps, hlast⟩ := exists_step_of_error hgrow
    obtain ⟨hsized, hbetween⟩ := hhost.growTimes_ok j h.sized h.bytes hsteps
    obtain ⟨hrefused, hs₁⟩ := hhost.grow_error hsized hbetween hlast
    exact ⟨j, hj, between, hsteps, hlast, hrefused, h.widened hsized hs₁⟩

end Host.Lacks

/-- Additions of `value` that fail, and one that does not. Between them the bytes stay as they are;
whatever else makes the storage refuse a gap may change. -/
inductive Retried (host : Host σ) (base : Nat) (value : Bytes) (quantum : Nat) : σ → σ → Prop where
  | done {s s' : σ} (hadd : add host base value quantum s = .ok () s') :
    Retried host base value quantum s s'
  | again {s broken next s' : σ} {e : Failure TableError}
    (hadd : add host base value quantum s = .error e broken)
    (hsame : (host.image next).toList = (host.image broken).toList)
    (hrest : Retried host base value quantum next s') : Retried host base value quantum s s'

/-- However often it broke off, the string is stored in the table with all steps taken. -/
theorem Retried.stored (hhost : host.Dependable) (hnul : 0 ∉ value) (hq : 0 < quantum)
    (hrun : Retried host before.length value quantum s s')
    (h : host.Lacks before after t value s) :
    ∃ pushed, (t.widen (t.stepsFor value quantum * quantum)).push value = .ok pushed ∧
      host.Frames before after s' pushed.parts.encode := by
  -- on the attempts, from any table that earlier ones may have left
  induction hrun generalizing t with
  | done hadd => exact h.add_ok hhost hnul hq hadd
  | again hadd hsame _ ih =>
    obtain ⟨j, hj, -, -, -, -, hleft⟩ := h.add_error hhost hnul hq hadd
    obtain ⟨pushed, hpush, hs'⟩ := ih ⟨hsame.trans hleft.bytes, hleft.sized, hleft.absent⟩
    have hsteps : (t.widen (j * quantum)).stepsFor value quantum
        = t.stepsFor value quantum - j := by
      rw [stepsFor, size_free_widen, growthSteps_add hq, stepsFor]
    have hwide : (t.widen (t.stepsFor value quantum * quantum)).parts
        = ((t.widen (j * quantum)).widen
          ((t.widen (j * quantum)).stepsFor value quantum * quantum)).parts := by
      rw [hsteps, parts_widen, parts_widen, parts_widen, Parts.widen_widen, ← Nat.add_mul,
        Nat.add_sub_cancel' (Nat.le_of_lt hj)]
    obtain ⟨pushed', hpush', hparts⟩ := push_congr hwide hpush
    exact ⟨pushed', hpush', hparts ▸ hs'⟩

/-- What `count` more free bytes in the table `t` at `base` change: the bytes around it stay, and the
table is read with the same strings behind the same slots, so that it answers as it did. -/
structure Lengthened (base : Nat) (t : StringTable) (count : Nat) (image image' : Image) : Prop where
  before : image'.toList.take base = image.toList.take base
  after : image'.toList.drop (base + t.length + count) = image.toList.drop (base + t.length)
  table : ∃ t', decodeAt image' base = .ok t' ∧ t'.length = t.length + count ∧
    t'.strings.toList = t.strings.toList ∧ t'.slots = t.slots ∧ t'.checkOrder = .ok () ∧
    (∀ value, t'.find value = t.find value) ∧ (∀ n, t'.ordinal n = t.ordinal n) ∧
    t'.outcomes = t.outcomes

theorem Host.Lacks.of_decodeAt {base : Nat} (hopen : decodeAt (host.image s) base = .ok t)
    (hvalid : t.checkOrder = .ok ()) (habsent : t.find value = .ok none) :
    ∃ before after, before.length = base ∧ host.Lacks before after t value s := by
  obtain ⟨values, hordered⟩ := checkOrder_eq_ok_iff.1 hvalid
  have hbase : base ≤ (host.image s).size := by
    by_contra hbig
    rw [decodeAt, if_pos (Nat.lt_of_not_le hbig)] at hopen
    cases hopen
  obtain ⟨hsized, after, hbytes⟩ := encode_of_decode (decode_of_decodeAt hopen)
  refine ⟨(host.image s).toList.take base, after, ?_, ?_, hsized, values, hordered, ?_⟩
  · rw [List.length_take, Image.length_toList, Nat.min_eq_left hbase]
  · rw [Host.Frames, List.append_assoc, ← hbytes, Image.toList_drop, List.take_append_drop]
  · intro hmem
    rw [find, hordered.search_eq, rankOf_of_mem hmem] at habsent
    cases habsent

theorem Host.Lacks.lengthened (hhost : host.Dependable) (h : host.Lacks before after t value s)
    {count : Nat} (h' : host.Lacks before after (t.widen count) value s') :
    Lengthened before.length t count (host.image s) (host.image s') := by
  have hbytes : (host.image s).toList = _ := h.bytes
  have hbytes' : (host.image s').toList = _ := h'.bytes
  have hlength : (before ++ t.parts.encode).length = before.length + t.length := by
    rw [List.length_append, Parts.length_encode, length_parts]
  have hlength' : (before ++ (t.widen count).parts.encode).length
      = before.length + t.length + count := by
    rw [List.length_append, Parts.length_encode, parts_widen, Parts.length_widen, length_parts,
      Nat.add_assoc]
  constructor
  · rw [hbytes, hbytes', List.append_assoc, List.append_assoc, List.take_left, List.take_left]
  · rw [hbytes, hbytes', ← hlength', ← hlength, List.drop_left, List.drop_left]
  · obtain ⟨t', ht', hparts⟩ := (hhost.exposes before after).tableAt_eq h'.sized h'.bytes
    rw [parts_widen] at hparts
    have hstrings : t'.parts.strings = t.parts.strings := by rw [hparts, Parts.widen]
    have hindex : t'.parts.index = t.parts.index := by rw [hparts, Parts.widen]
    obtain ⟨values, hordered, -⟩ := h.absent
    have hordered' := hordered.congr hstrings hindex
    refine ⟨t', Steps.ofCheck_eq_ok_iff.1 ht', ?_, hstrings, slots_congr hindex,
      hordered'.checkOrder_eq, ?_, ?_, outcomes_congr hstrings hindex⟩
    · rw [← length_parts, hparts, Parts.length_widen, length_parts]
    · intro other
      rw [hordered'.find_eq, hordered.find_eq]
    · intro n
      rw [ordinal_congr hstrings hindex]

/-- An addition for which storage refuses a gap has taken some growth steps and has changed nothing
else. If it is tried again until it succeeds, the bytes are those that an addition leaves that
succeeds at once, in whatever storage. -/
theorem add_resumed {τ : Type} {other : Host τ} {u : τ} {base : Nat} (hhost : host.Dependable)
    (hother : other.Dependable) (hsame : (other.image u).toList = (host.image s).toList)
    (hopen : decodeAt (host.image s) base = .ok t) (hvalid : t.checkOrder = .ok ())
    (habsent : t.find value = .ok none) (hnul : 0 ∉ value) (hq : 0 < quantum) :
    (∀ e s', add host base value quantum s = .error e s' → GrowthRefused e ∧
      ∃ j between, growTimes host base quantum j s = .ok () between ∧
        grow host base quantum between = .error e s' ∧
        Lengthened base t (j * quantum) (host.image s) (host.image s')) ∧
    ∀ s' u', Retried host base value quantum s s' → add other base value quantum u = .ok () u' →
      (other.image u').toList = (host.image s').toList := by
  obtain ⟨before, after, rfl, hlacks⟩ := Host.Lacks.of_decodeAt hopen hvalid habsent
  constructor
  · intro e s' hadd
    obtain ⟨j, -, between, hsteps, hlast, hrefused, hleft⟩ := hlacks.add_error hhost hnul hq hadd
    exact ⟨hrefused, j, between, hsteps, hlast, hlacks.lengthened hhost hleft⟩
  · intro s' u' hretried hadd
    have hlacks' : other.Lacks before after t value u :=
      ⟨hsame.trans hlacks.bytes, hlacks.sized, hlacks.absent⟩
    obtain ⟨pushed, hpush, hs'⟩ := hretried.stored hhost hnul hq hlacks
    obtain ⟨pushed', hpush', hu'⟩ := hlacks'.add_ok hother hnul hq hadd
    obtain rfl := Except.ok.inj (hpush.symm.trans hpush')
    exact hu'.trans hs'.symm

end Adding

/-! Storage that refuses as it is told. -/

theorem Host.memory_dependable : Host.memory.Dependable where
  overlay _ := Image.toList_overlay _ _ _
  opened {image image' offset count} hoffset hins := by
    simp only [Host.memory] at hins
    split at hins
    · cases hins
    · split at hins
      · cases hins
      · obtain rfl := (EStateM.Result.ok.inj hins).2
        simp [Host.memory]
  refused {image image' offset count f} hins := by
    simp only [Host.memory] at hins
    split at hins
    · rw [(EStateM.Result.error.inj hins).2]
    · split at hins
      · rw [(EStateM.Result.error.inj hins).2]
      · cases hins

/-- Memory that refuses the requests for space that it is told to refuse. -/
def Host.hesitant : Host (Image × List Bool) where
  image := Prod.fst
  overlay s offset new := (s.1.overlay offset new, s.2)
  insertSpace offset count := fun s =>
    match s.2 with
    | true :: told => .error (.refused (.other "host full")) (s.1, told)
    | told =>
      match Host.memory.insertSpace offset count s.1 with
      | .ok a image => .ok a (image, told.drop 1)
      | .error f image => .error f (image, told.drop 1)

theorem Host.hesitant_dependable : Host.hesitant.Dependable where
  overlay _ := Image.toList_overlay _ _ _
  opened {s s' offset count} hoffset hins := by
    simp only [Host.hesitant] at hins
    split at hins
    · cases hins
    · split at hins
      · rename_i hmemory
        obtain rfl := (EStateM.Result.ok.inj hins).2
        exact Host.memory_dependable.opened hoffset hmemory
      · cases hins
  refused {s s' offset count f} hins := by
    simp only [Host.hesitant] at hins
    split at hins
    · rw [← (EStateM.Result.error.inj hins).2]
      rfl
    · split at hins
      · cases hins
      · rename_i hmemory
        rw [← (EStateM.Result.error.inj hins).2]
        exact Host.memory_dependable.refused hmemory

theorem add_resumed_hesitant : ∃ image t broken final plain,
    decodeAt image 4 = .ok t ∧
    add Host.hesitant 4 (Text.bytes "b") 1 (image, [false, true]) = .error
      (.refused (.grow (.other "host full"))) broken ∧
    Lengthened 4 t 1 image broken.1 ∧
    Retried Host.hesitant 4 (Text.bytes "b") 1 (image, [false, true]) final ∧
    add Host.memory 4 (Text.bytes "b") 1 image = .ok () plain ∧
    plain.toList = final.1.toList := by
  let image : Image := (Image.blank 40).overlay 4 (.ofBytes (Header.mk magic 20 20 0).encode)
  have hopen : decodeAt image 4 = .ok ⟨⟨[]⟩, ⟨[.zeros 4]⟩, ⟨[]⟩⟩ := by cbv
  have hbroken : add Host.hesitant 4 (Text.bytes "b") 1 (image, [false, true]) = .error
      (.refused (.grow (.other "host full")))
      (⟨[.zeros 4, .stored #[18, 52, 67, 33, 0, 0, 0, 21, 0, 0, 0, 21, 0, 0, 0, 0], .zeros 21]⟩,
        []) := by cbv
  have hlast : add Host.hesitant 4 (Text.bytes "b") 1
      (⟨[.zeros 4, .stored #[18, 52, 67, 33, 0, 0, 0, 21, 0, 0, 0, 21, 0, 0, 0, 0], .zeros 21]⟩,
        []) = .ok ()
      (⟨[.zeros 4, .stored #[18, 52, 67, 33, 0, 0, 0, 22, 0, 0, 0, 18, 0, 0, 0, 2, 98, 0, 0, 0, 0, 0],
        .zeros 16]⟩, []) := by cbv
  have hplain : add Host.memory 4 (Text.bytes "b") 1 image = .ok ()
      ⟨[.zeros 4, .stored #[18, 52, 67, 33, 0, 0, 0, 22, 0, 0, 0, 18, 0, 0, 0, 2, 98, 0, 0, 0, 0, 0],
        .zeros 16]⟩ := by cbv
  have hretried := Retried.again hbroken rfl (Retried.done hlast)
  have habsent : StringTable.find ⟨⟨[]⟩, ⟨[.zeros 4]⟩, ⟨[]⟩⟩ (Text.bytes "b") = .ok none := by cbv
  obtain ⟨hleft, hfinal⟩ := add_resumed (s := (image, [false, true])) (u := image)
    Host.hesitant_dependable Host.memory_dependable rfl hopen (by cbv) habsent (by decide)
    Nat.one_pos
  obtain ⟨-, j, -, -, -, hlength⟩ := hleft _ _ hbroken
  obtain ⟨t', ht', hsize, -⟩ := hlength.table
  obtain rfl := Except.ok.inj ht'
  obtain rfl : j = 1 := by
    have hlong : 21 = 20 + j * 1 := hsize
    omega
  exact ⟨image, _, _, _, _, hopen, hbroken, hlength, hretried, hplain, hfinal _ _ hretried hplain⟩

end MediaLibrary.StringTable
