import MediaLibrary.Proofs.StringTable.Resumption
/-! How far a table grows. An addition looks for room, takes a growth step if there is none, and looks
again, until there is room or a step fails. In storage that refuses nothing the number of steps is
known beforehand, from the free bytes, the string and the length of the step alone: the least that
makes enough room, or as many as the greatest length allows. -/
namespace MediaLibrary.StringTable

variable {σ : Type}

/-! The rounds as they are taken. -/

/-- The search for room from one storage on, with its result. In each round the table is read anew. -/
inductive Rounds (host : Host σ) (base : Nat) (value : Bytes) (quantum : Nat) :
    σ → EStateM.Result (Failure TableError) σ Unit → Prop where
  | damaged {s : σ} {e : Failure TableError} (hread : tableAt host base s = .error e) :
    Rounds host base value quantum s (.error e s)
  | enough {s : σ} {t : StringTable} (hread : tableAt host base s = .ok t)
    (hroom : t.hasRoomFor value = true) : Rounds host base value quantum s (.ok () s)
  | failed {s s' : σ} {t : StringTable} {e : Failure TableError}
    (hread : tableAt host base s = .ok t) (hroom : t.hasRoomFor value = false)
    (hgrow : grow host base quantum s = .error e s') :
    Rounds host base value quantum s (.error e s')
  | grown {s next : σ} {t : StringTable} {r : EStateM.Result (Failure TableError) σ Unit}
    (hread : tableAt host base s = .ok t) (hroom : t.hasRoomFor value = false)
    (hgrow : grow host base quantum s = .ok () next)
    (hrest : Rounds host base value quantum next r) : Rounds host base value quantum s r

section Rounds

variable {host : Host σ} {base quantum : Nat} {value : Bytes} {s : σ}
  {r r' : EStateM.Result (Failure TableError) σ Unit}

/-- The rounds have one result at most. -/
theorem Rounds.unique (h : Rounds host base value quantum s r)
    (h' : Rounds host base value quantum s r') : r = r' := by
  induction h with
  | damaged hread => cases h' <;> simp_all
  | enough hread hroom => cases h' <;> simp_all
  | failed hread hroom hgrow => cases h' <;> simp_all
  | grown hread hroom hgrow _ ih => cases h' <;> simp_all

variable {before after : Bytes} {t : StringTable}

theorem size_free_congr {t' : StringTable} (h : t'.parts = t.parts) :
    t'.free.size = t.free.size := by
  simpa [parts] using congrArg (fun p => p.free.length) h

theorem Host.Lacks.rounds (hhost : host.Dependable) (h : host.Lacks before after t value s)
    (hq : 0 < quantum) : Rounds host before.length value quantum s
      (growTimes host before.length quantum (t.stepsFor value quantum) s) := by
  -- on the steps still to take, from any storage and any table in it
  generalize hsteps : t.stepsFor value quantum = n
  induction n generalizing s t with
  | zero =>
    obtain ⟨t', hread, hparts⟩ := (hhost.exposes before after).tableAt_eq h.sized h.bytes
    have hroom := le_growthSteps hq t.free.size (roomFor value.length)
    rw [stepsFor] at hsteps
    rw [hsteps, Nat.zero_mul, Nat.add_zero] at hroom
    refine Rounds.enough hread ?_
    rw [hasRoomFor, size_free_congr hparts]
    exact decide_eq_true hroom
  | succ n ih =>
    obtain ⟨t', hread, hparts⟩ := (hhost.exposes before after).tableAt_eq h.sized h.bytes
    have hroom : t'.hasRoomFor value = false := by
      have hlt : t.free.size < roomFor value.length := by
        apply lt_of_growthSteps
        rw [← stepsFor, hsteps]
        exact Nat.succ_pos n
      rw [hasRoomFor, size_free_congr hparts]
      exact decide_eq_false (Nat.not_le.2 hlt)
    rw [growTimes]
    cases hgrow : grow host before.length quantum s with
    | error e s' =>
      rw [Steps.bind_error hgrow]
      exact Rounds.failed hread hroom hgrow
    | ok _ next =>
      rw [Steps.bind_ok hgrow]
      obtain ⟨hsized, hbytes⟩ := hhost.grow_ok h.sized h.bytes hgrow
      refine Rounds.grown hread hroom hgrow (ih (h.widened hsized hbytes) ?_)
      have htaken := growthSteps_add hq t.free.size (roomFor value.length) 1
      rw [stepsFor] at hsteps
      rw [Nat.one_mul, hsteps] at htaken
      rw [stepsFor, size_free_widen, htaken, Nat.add_sub_cancel]

end Rounds

/-! Storage that notes what is asked of it. -/

/-- The storage and, besides, every request for space, as offset and count, in order. -/
def Host.noting (host : Host σ) : Host (σ × List (Nat × Nat)) where
  image s := host.image s.1
  overlay s offset new := (host.overlay s.1 offset new, s.2)
  insertSpace offset count := fun s =>
    match host.insertSpace offset count s.1 with
    | .ok a s' => .ok a (s', s.2 ++ [(offset, count)])
    | .error f s' => .error f (s', s.2 ++ [(offset, count)])

/-- The requests of `n` growth steps, the first of them at `offset`. -/
def requests (offset quantum n : Nat) : List (Nat × Nat) :=
  (List.range n).map fun i => (offset + i * quantum, quantum)

theorem requests_succ (offset quantum n : Nat) :
    requests offset quantum (n + 1) = (offset, quantum) :: requests (offset + quantum) quantum n := by
  rw [requests, List.range_succ_eq_map, List.map_cons, List.map_map, requests]
  congr 1
  · rw [Nat.zero_mul, Nat.add_zero]
  · apply List.map_congr_left
    intro i _
    rw [Function.comp_apply, Nat.succ_eq_add_one, Nat.add_one_mul]
    congr 1
    omega

/-- Apart from the notes, `x` does what `y` does. -/
def Unnoted {ε α : Type} (x : EStateM ε (σ × List (Nat × Nat)) α) (y : EStateM ε σ α) : Prop :=
  ∀ s, y s.1 = match x s with
    | .ok a s' => .ok a s'.1
    | .error e s' => .error e s'.1

namespace Unnoted

variable {ε δ α β : Type} {x : EStateM ε (σ × List (Nat × Nat)) α} {y : EStateM ε σ α}

theorem consult {question : σ × List (Nat × Nat) → Except ε α} {question' : σ → Except ε α}
    (h : ∀ s, question s = question' s.1) : Unnoted (consult question) (consult question') := by
  intro s
  rw [MediaLibrary.consult, MediaLibrary.consult, h]
  cases question' s.1 <;> rfl

theorem bind {f : α → EStateM ε (σ × List (Nat × Nat)) β} {g : α → EStateM ε σ β}
    (h : Unnoted x y) (hrest : ∀ a, Unnoted (f a) (g a)) : Unnoted (x >>= f) (y >>= g) := by
  intro s
  have hfirst := h s
  cases hx : x s with
  | error e s' =>
    rw [hx] at hfirst
    rw [Steps.bind_error hx, Steps.bind_error hfirst]
  | ok a s' =>
    rw [hx] at hfirst
    rw [Steps.bind_ok hx, Steps.bind_ok hfirst, hrest a s']

theorem adaptExcept (h : Unnoted x y) (f : ε → δ) :
    Unnoted (EStateM.adaptExcept f x) (EStateM.adaptExcept f y) := by
  intro s
  have hfirst := h s
  cases hx : x s with
  | error e s' =>
    rw [hx] at hfirst
    rw [Steps.adaptExcept_error hx, Steps.adaptExcept_error hfirst]
  | ok a s' =>
    rw [hx] at hfirst
    rw [Steps.adaptExcept_ok hx, Steps.adaptExcept_ok hfirst]

variable (host : Host σ)

theorem insertSpace (offset count : Nat) :
    Unnoted (host.noting.insertSpace offset count) (host.insertSpace offset count) := by
  intro s
  simp only [Host.noting]
  cases host.insertSpace offset count s.1 <;> rfl

theorem grow (base quantum : Nat) :
    Unnoted (grow host.noting base quantum) (grow host base quantum) := by
  refine bind (consult fun _ => rfl) fun t => ?_
  split
  · exact fun _ => rfl
  · exact bind ((insertSpace host _ _).adaptExcept _) fun _ _ => rfl

theorem growTimes (base quantum n : Nat) :
    Unnoted (growTimes host.noting base quantum n) (growTimes host base quantum n) := by
  induction n with
  | zero => exact fun _ => rfl
  | succ n ih => exact bind (grow host base quantum) fun _ => ih

theorem pushAt (base : Nat) (value : Bytes) :
    Unnoted (pushAt host.noting base value) (pushAt host base value) :=
  bind (consult fun _ => rfl) fun _ => bind (consult fun _ => rfl) fun _ _ => rfl

theorem add (base : Nat) (value : Bytes) (quantum : Nat) :
    Unnoted (add host.noting base value quantum) (add host base value quantum) :=
  bind (consult fun _ => rfl) fun _ =>
    bind (growTimes host base quantum _) fun _ => pushAt host base value

end Unnoted

/-! Growth in storage that refuses nothing. -/

/-- The storage opens every gap that leaves it with fewer than `room` bytes. -/
def Host.Willing (host : Host σ) (room : Nat) : Prop :=
  ∀ (s : σ) (offset count : Nat), offset ≤ (host.image s).size →
    (host.image s).size + count < room → ∃ s', host.insertSpace offset count s = .ok () s'

section Willing

variable {host : Host σ} {room : Nat} {before after : Bytes} {s : σ} {p : Parts} {quantum : Nat}

theorem Host.Dependable.noting (h : host.Dependable) : host.noting.Dependable where
  overlay hfits := h.overlay hfits
  opened {s s' offset count} hoffset hins := by
    simp only [Host.noting] at hins
    split at hins
    · rename_i hopened
      obtain rfl := (EStateM.Result.ok.inj hins).2
      exact h.opened hoffset hopened
    · cases hins
  refused {s s' offset count f} hins := by
    simp only [Host.noting] at hins
    split at hins
    · cases hins
    · rename_i hrefused
      obtain rfl := (EStateM.Result.error.inj hins).2
      exact h.refused hrefused

theorem Host.Willing.grow_noting (hwilling : host.Willing room) (calls : List (Nat × Nat))
    (hhost : host.Dependable) (hp : p.Sized) (hs : host.Frames before after s p.encode)
    (hshort : p.length + quantum < Word.limit)
    (hroom : (host.image s).size + quantum < room) :
    ∃ s', grow host.noting before.length quantum (s, calls)
      = .ok () (s', calls ++ [(before.length + p.indexOffset, quantum)]) := by
  have hinside : before.length + p.indexOffset ≤ (host.image s).size := by
    rw [hs.size_image, Parts.length_encode, Parts.length]
    omega
  obtain ⟨s', hins⟩ := hwilling s (before.length + p.indexOffset) quantum hinside hroom
  have hnoted : host.noting.insertSpace (before.length + p.indexOffset) quantum (s, calls)
      = .ok () (s', calls ++ [(before.length + p.indexOffset, quantum)]) := by
    simp only [Host.noting, hins]
  have hs' : host.noting.Frames before after (s, calls) p.encode := hs
  rw [(hhost.noting.exposes before after).grow_eq hp hs', if_neg (Nat.not_le.2 hshort), hnoted]
  exact ⟨_, rfl⟩

theorem Host.Willing.growTimes_noting (hwilling : host.Willing room) (calls : List (Nat × Nat))
    (hhost : host.Dependable) (n : Nat) (hp : p.Sized) (hs : host.Frames before after s p.encode)
    (hshort : p.length + n * quantum < Word.limit)
    (hroom : (host.image s).size + n * quantum < room) :
    ∃ s', growTimes host.noting before.length quantum n (s, calls)
      = .ok () (s', calls ++ requests (before.length + p.indexOffset) quantum n) := by
  induction n generalizing s p calls with
  | zero => exact ⟨s, by rw [requests, List.range_zero, List.map_nil, List.append_nil]; rfl⟩
  | succ n ih =>
    rw [Nat.succ_mul] at hshort hroom
    obtain ⟨s₁, hgrow⟩ := hwilling.grow_noting calls hhost hp hs
      (Nat.lt_of_le_of_lt (Nat.add_le_add_left (Nat.le_add_left _ _) _) hshort)
      (Nat.lt_of_le_of_lt (Nat.add_le_add_left (Nat.le_add_left _ _) _) hroom)
    have hs' : host.noting.Frames before after (s, calls) p.encode := hs
    obtain ⟨hp₁, hs₁⟩ := hhost.noting.grow_ok hp hs' hgrow
    have hs₁ : host.Frames before after s₁ (p.widen quantum).encode := hs₁
    have hoffset : (p.widen quantum).indexOffset = p.indexOffset + quantum := by
      simp [Parts.widen, Parts.indexOffset]
      omega
    obtain ⟨s₂, hrest⟩ := ih (calls ++ [(before.length + p.indexOffset, quantum)]) hp₁ hs₁
      (by rw [Parts.length_widen]; omega)
      (by
        rw [hs₁.size_image, Parts.length_encode, Parts.length_widen]
        rw [hs.size_image, Parts.length_encode] at hroom
        omega)
    refine ⟨s₂, ?_⟩
    rw [growTimes, Steps.bind_ok hgrow, hrest, hoffset, requests_succ, ← Nat.add_assoc,
      List.append_assoc, List.singleton_append]

theorem growTimes_of_step {base n j : Nat} {s' between : σ} {e : Failure TableError} (hj : j < n)
    (hsteps : growTimes host base quantum j s = .ok () between)
    (hgrow : grow host base quantum between = .error e s') :
    growTimes host base quantum n s = .error e s' := by
  induction j generalizing s n with
  | zero =>
    obtain ⟨m, rfl⟩ := Nat.exists_eq_succ_of_ne_zero (Nat.ne_of_gt hj)
    obtain rfl := (EStateM.Result.ok.inj hsteps).2
    exact Steps.bind_error hgrow
  | succ j ih =>
    obtain ⟨m, rfl⟩ := Nat.exists_eq_succ_of_ne_zero (Nat.ne_of_gt (Nat.zero_lt_of_lt hj))
    obtain ⟨_, next, hfirst, hrest⟩ := Steps.bind_eq_ok_iff.1 hsteps
    rw [growTimes, Steps.bind_ok hfirst]
    exact ih (Nat.lt_of_succ_lt_succ hj) hrest

theorem notes_of_pushAt {base : Nat} {value : Bytes} {s s' : σ × List (Nat × Nat)}
    (h : pushAt host.noting base value s = .ok () s') : s'.2 = s.2 := by
  obtain ⟨t, _, hread, hrest⟩ := Steps.bind_eq_ok_iff.1 h
  obtain ⟨-, rfl⟩ := Steps.consult_eq_ok_iff.1 hread
  obtain ⟨pushed, _, hcheck, hlast⟩ := Steps.bind_eq_ok_iff.1 hrest
  obtain ⟨-, rfl⟩ := Steps.consult_eq_ok_iff.1 hcheck
  obtain rfl := (EStateM.Result.ok.inj hlast).2
  rfl

end Willing

/-- The computed number of growth steps is the least that is enough. -/
theorem isLeast_stepsFor (t : StringTable) (value : Bytes) {quantum : Nat} (hq : 0 < quantum) :
    IsLeast {k | value.length + 5 ≤ t.free.size + k * quantum} (t.stepsFor value quantum) := by
  have hneed : value.length + 5 = roomFor value.length := rfl
  constructor
  · show value.length + 5 ≤ _
    rw [hneed]
    exact le_growthSteps hq _ _
  · intro k hk
    have henough := growthSteps_of_le (hneed ▸ hk) quantum
    rw [growthSteps_add hq] at henough
    exact Nat.le_of_sub_eq_zero henough

/-- The bytes in front of a table of `length` bytes at `base` stay, and those behind it are moved up
by `count`. -/
structure Around (base length count : Nat) (image image' : Image) : Prop where
  before : image'.toList.take base = image.toList.take base
  after : image'.toList.drop (base + length + count) = image.toList.drop (base + length)

theorem around_of_frames {host : Host σ} {before after bytes bytes' : Bytes} {s s' : σ} {count : Nat}
    (h : host.Frames before after s bytes) (h' : host.Frames before after s' bytes')
    (hlength : bytes'.length = bytes.length + count) :
    Around before.length bytes.length count (host.image s) (host.image s') := by
  have himage : (host.image s).toList = before ++ bytes ++ after := h
  have himage' : (host.image s').toList = before ++ bytes' ++ after := h'
  have hstop : before.length + bytes.length + count = (before ++ bytes').length := by
    rw [List.length_append, hlength, Nat.add_assoc]
  constructor
  · rw [himage, himage', List.append_assoc, List.append_assoc, List.take_left, List.take_left]
  · rw [himage, himage', hstop, List.drop_left, ← List.length_append, List.drop_left]

section ClosedForm

variable {host : Host σ} {room base quantum : Nat} {s : σ} {t : StringTable} {value : Bytes}
  {before after : Bytes}

namespace Host.Lacks

theorem noting (h : host.Lacks before after t value s) (calls : List (Nat × Nat)) :
    host.noting.Lacks before after t value (s, calls) := ⟨h.bytes, h.sized, h.absent⟩

/-- Where all steps leave the table short enough, the string is stored after one request for each. -/
theorem add_noted (hhost : host.Dependable) (hwilling : host.Willing room)
    (h : host.Lacks before after t value s) (hnul : 0 ∉ value) (hq : 0 < quantum)
    (hshort : t.length + t.stepsFor value quantum * quantum < Word.limit)
    (hroom : (host.image s).size + Word.limit ≤ room) : ∃ (s' : σ) (pushed : StringTable),
      add host.noting before.length value quantum (s, []) = .ok ()
        (s', requests (before.length + t.indexOffset) quantum (t.stepsFor value quantum)) ∧
      host.Frames before after s' pushed.parts.encode ∧ pushed.parts.Sized ∧
      pushed.length = t.length + t.stepsFor value quantum * quantum ∧
      pushed.free.size
        = t.free.size + t.stepsFor value quantum * quantum - roomFor value.length := by
  rw [← length_parts] at hshort
  obtain ⟨s₁, hgrow⟩ := hwilling.growTimes_noting [] hhost _ h.sized h.bytes hshort (by omega)
  rw [List.nil_append, indexOffset_parts] at hgrow
  have hnoted := h.noting []
  obtain ⟨pushed, ⟨s', calls⟩, hpush, hstored, hs'⟩ := hnoted.pushAt_wide hhost.noting hq hgrow
  obtain rfl : calls = _ := notes_of_pushAt hstored
  obtain ⟨hwide, -⟩ := hhost.noting.growTimes_ok _ hnoted.sized hnoted.bytes hgrow
  rw [← parts_widen] at hwide
  obtain ⟨hsized, hlength⟩ := sized_push hwide hpush
  obtain ⟨-, hfree, -⟩ := sizes_of_push hpush
  refine ⟨s', pushed, ?_, hs', hsized, ?_, ?_⟩
  · rw [hnoted.add_eq hhost.noting hnul hq, Steps.bind_ok hgrow, hstored]
  · rw [← length_parts, hlength, parts_widen, Parts.length_widen, length_parts]
  · rw [size_free_widen] at hfree
    omega

/-- Where some step would leave the table too long, those before it are taken, one request for each,
and the addition ends there. -/
theorem add_overflow (hhost : host.Dependable) (hwilling : host.Willing room)
    (h : host.Lacks before after t value s) (hnul : 0 ∉ value) (hq : 0 < quantum) {j : Nat}
    (hj : j < t.stepsFor value quantum) (hshort : t.length + j * quantum < Word.limit)
    (hlong : Word.limit ≤ t.length + j * quantum + quantum)
    (hroom : (host.image s).size + Word.limit ≤ room) : ∃ s' : σ,
      add host.noting before.length value quantum (s, []) = .error (.refused .overflow)
        (s', requests (before.length + t.indexOffset) quantum j) ∧
      host.Lacks before after (t.widen (j * quantum)) value s' := by
  rw [← length_parts] at hshort hlong
  obtain ⟨s₁, hgrow⟩ := hwilling.growTimes_noting [] hhost j h.sized h.bytes hshort (by omega)
  rw [List.nil_append, indexOffset_parts] at hgrow
  have hnoted := h.noting []
  obtain ⟨hsized, hs₁⟩ := hhost.noting.growTimes_ok j hnoted.sized hnoted.bytes hgrow
  have hstep : grow host.noting before.length quantum
      (s₁, requests (before.length + t.indexOffset) quantum j) = .error (.refused .overflow)
      (s₁, requests (before.length + t.indexOffset) quantum j) := by
    rw [(hhost.noting.exposes before after).grow_eq hsized hs₁, Parts.length_widen, if_pos hlong]
  refine ⟨s₁, ?_, h.widened hsized hs₁⟩
  rw [hnoted.add_eq hhost.noting hnul hq]
  exact Steps.bind_error (growTimes_of_step hj hgrow hstep)

end Host.Lacks

/-- Adding a new string to a table that passes the checks, in storage that refuses no gap while it has
fewer than `room` bytes. The rounds come to an end. With `k` the least number of growth steps that
make room, the addition succeeds if none is needed or the table stays short enough, after just as
many requests; else it ends in an overflow, after as many as the greatest length allows. Around the
table nothing changes. -/
theorem add_closed_form (hhost : host.Dependable) (hwilling : host.Willing room)
    (hopen : decodeAt (host.image s) base = .ok t) (hvalid : t.checkOrder = .ok ())
    (habsent : ∀ slot ∈ t.slots, t.resolve slot ≠ .ok value) (hnul : 0 ∉ value) (hq : 0 < quantum)
    (hroom : (host.image s).size + 2 ^ 32 ≤ room) :
    ∃ k, IsLeast {k | value.length + 5 ≤ t.free.size + k * quantum} k ∧
      (∀ r, Rounds host base value quantum s r ↔ r = growTimes host base quantum k s) ∧
      add host base value quantum s
        = (growTimes host base quantum k >>= fun _ => pushAt host base value) s ∧
      (k = 0 ∨ t.length + k * quantum ≤ 2 ^ 32 - 1 → ∃ s' t',
        add host base value quantum s = .ok () s' ∧
        add host.noting base value quantum (s, [])
          = .ok () (s', requests (base + t.indexOffset) quantum k) ∧
        decodeAt (host.image s') base = .ok t' ∧ t'.length = t.length + k * quantum ∧
        t'.free.size = t.free.size + k * quantum - value.length - 5 ∧
        Around base t.length (k * quantum) (host.image s) (host.image s')) ∧
      (¬ (k = 0 ∨ t.length + k * quantum ≤ 2 ^ 32 - 1) → ∃ s' j,
        j = (2 ^ 32 - 1 - t.length) / quantum ∧
        add host base value quantum s = .error (.refused .overflow) s' ∧
        add host.noting base value quantum (s, [])
          = .error (.refused .overflow) (s', requests (base + t.indexOffset) quantum j) ∧
        Lengthened base t (j * quantum) (host.image s) (host.image s')) := by
  obtain ⟨values, hordered⟩ := checkOrder_eq_ok_iff.1 hvalid
  obtain ⟨before, after, rfl, hlacks⟩ :=
    Host.Lacks.of_decodeAt hopen hvalid (hordered.find_eq_none_iff.2 habsent)
  have hlength : t.parts.encode.length = t.length := by rw [Parts.length_encode, length_parts]
  refine ⟨t.stepsFor value quantum, isLeast_stepsFor t value hq, ?_, hlacks.add_eq hhost hnul hq,
    ?_, ?_⟩
  · intro r
    have hrounds := hlacks.rounds hhost hq
    constructor
    · intro h
      exact h.unique hrounds
    · rintro rfl
      exact hrounds
  · intro hfits
    have hshort : t.length + t.stepsFor value quantum * quantum < Word.limit := by
      have hbelow := hlacks.sized.below
      rw [length_parts] at hbelow
      unfold Word.limit at hbelow ⊢
      rcases hfits with hnone | hfits
      · rw [hnone]
        omega
      · omega
    obtain ⟨s', pushed, hadd, hs', hsized, hpushed, hfree⟩ :=
      hlacks.add_noted hhost hwilling hnul hq hshort hroom
    have hplain := Unnoted.add host before.length value quantum (s, [])
    rw [hadd] at hplain
    obtain ⟨t', hread, hparts⟩ := (hhost.exposes before after).tableAt_eq hsized hs'
    have hlength' : t'.length = pushed.length := by rw [← length_parts, hparts, length_parts]
    refine ⟨s', t', hplain, hadd, Steps.ofCheck_eq_ok_iff.1 hread, hlength'.trans hpushed, ?_, ?_⟩
    · rw [size_free_congr hparts, hfree, Nat.sub_sub]
      rfl
    · rw [← hlength]
      refine around_of_frames hlacks.bytes hs' ?_
      rw [hlength, Parts.length_encode, length_parts, hpushed]
  · intro hlong
    obtain ⟨hsome, hlong⟩ := not_or.1 hlong
    have hbelow := hlacks.sized.below
    rw [length_parts] at hbelow
    have hlow := Nat.div_mul_le_self (2 ^ 32 - 1 - t.length) quantum
    have hhigh := (Nat.div_lt_iff_lt_mul hq).1
      (Nat.lt_succ_self ((2 ^ 32 - 1 - t.length) / quantum))
    generalize (2 ^ 32 - 1 - t.length) / quantum = j at hlow hhigh
    have hj : j < t.stepsFor value quantum := by
      by_contra hle
      have hmul := Nat.mul_le_mul_right quantum (Nat.not_lt.1 hle)
      unfold Word.limit at hbelow
      omega
    rw [Nat.succ_mul] at hhigh
    obtain ⟨s', hadd, hleft⟩ := hlacks.add_overflow hhost hwilling hnul hq hj
      (by unfold Word.limit at hbelow ⊢; omega) (by unfold Word.limit; omega) hroom
    have hplain := Unnoted.add host before.length value quantum (s, [])
    rw [hadd] at hplain
    exact ⟨s', j, rfl, hplain, hadd, hlacks.lengthened hhost hleft⟩

end ClosedForm

theorem Host.memory_willing : Host.memory.Willing memoryLimit := by
  intro image offset count hoffset hroom
  refine ⟨image.take offset ++ .blank count ++ image.drop offset, ?_⟩
  simp only [Host.memory, id] at hroom hoffset ⊢
  rw [if_neg (Nat.not_lt.2 hoffset), if_neg (Nat.not_le.2 hroom)]

/-- A full table near the limit: two steps of five bytes would be too many, and one of seven makes it
as long as it may be. -/
theorem add_closed_form_limit : ∃ (image broken image' : Image) (t t' : StringTable),
    decodeAt image 4 = .ok t ∧ t.length = 2 ^ 32 - 8 ∧ t.free.size = 0 ∧
    add Host.memory 4 (Text.bytes "b") 5 image = .error (.refused .overflow) broken ∧
    Lengthened 4 t 5 image broken ∧
    add Host.memory 4 (Text.bytes "b") 7 image = .ok () image' ∧
    decodeAt image' 4 = .ok t' ∧ t'.length = 2 ^ 32 - 1 ∧ t'.free.size = 1 := by
  let image : Image := .blank 4
    ++ .ofBytes (Header.mk magic 4294967288 4294967288 4294967272).encode ++ .blank 4294967272
  let t : StringTable := ⟨⟨[.zeros 4294967272]⟩, ⟨[]⟩, ⟨[]⟩⟩
  have hopen : decodeAt image 4 = .ok t := by cbv
  have hfree : t.free.size = 0 := by cbv
  have hlength : t.length = 2 ^ 32 - 8 := by cbv
  have hvalid : t.checkOrder = .ok () := by cbv
  have habsent : ∀ slot ∈ t.slots, t.resolve slot ≠ .ok (Text.bytes "b") := by
    have hslots : t.slots = [] := by cbv
    rw [hslots]
    intro slot hslot
    cases hslot
  have hsize : image.size + 2 ^ 32 ≤ Host.memoryLimit := by
    have himage : image.size = 4294967292 := by cbv
    rw [himage]
    decide
  have hfive : 0 < 5 := by decide
  have hseven : 0 < 7 := by decide
  obtain ⟨k, hleast, -, -, -, hlong⟩ := add_closed_form Host.memory_dependable
    Host.memory_willing hopen hvalid habsent (by decide) hfive hsize
  obtain ⟨n, hleast', -, -, hshort, -⟩ := add_closed_form Host.memory_dependable
    Host.memory_willing hopen hvalid habsent (by decide) hseven hsize
  have hk : 6 ≤ t.free.size + k * 5 := hleast.1
  have hone : n ≤ 1 := hleast'.2 (show 6 ≤ t.free.size + 1 * 7 by omega)
  have hn : 6 ≤ t.free.size + n * 7 := hleast'.1
  rw [hfree] at hk hn
  obtain rfl : n = 1 := by omega
  obtain ⟨broken, j, hj, hadd, -, hleft⟩ := hlong (by omega)
  rw [hlength] at hj
  obtain rfl : j = 1 := hj
  obtain ⟨image', t', hstored, -, hopen', hlength', hfree', -⟩ := hshort (Or.inr (by omega))
  rw [hlength] at hlength'
  rw [hfree] at hfree'
  exact ⟨image, broken, image', t, t', hopen, hlength, hfree, hadd, hleft, hstored, hopen',
    hlength', hfree'⟩

end MediaLibrary.StringTable
