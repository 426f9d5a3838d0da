import MediaLibrary.Failure
/-! Running operations on a state one step at a time: what the first step of a sequence gave is
handed to the rest. -/
namespace MediaLibrary

variable {ε δ σ α β : Type}

namespace Steps

theorem bind_ok {x : EStateM ε σ α} {f : α → EStateM ε σ β} {s s' : σ} {a : α}
    (h : x s = .ok a s') : (x >>= f) s = f a s' := by
  show EStateM.bind x f s = f a s'
  rw [EStateM.bind, h]

theorem bind_error {x : EStateM ε σ α} {f : α → EStateM ε σ β} {s s' : σ} {e : ε}
    (h : x s = .error e s') : (x >>= f) s = .error e s' := by
  show EStateM.bind x f s = .error e s'
  rw [EStateM.bind, h]

theorem bind_get {f : σ → EStateM ε σ β} (s : σ) : (get >>= f) s = f s s := rfl

theorem modify_eq (change : σ → σ) (s : σ) :
    (modify change : EStateM ε σ PUnit) s = .ok ⟨⟩ (change s) := rfl

theorem bind_modify {f : PUnit → EStateM ε σ β} (change : σ → σ) (s : σ) :
    (modify change >>= f) s = f ⟨⟩ (change s) := rfl

theorem tryCatch_ok {x : EStateM ε σ α} {handle : ε → EStateM ε σ α} {s s' : σ} {a : α}
    (h : x s = .ok a s') : tryCatch x handle s = .ok a s' := by
  show EStateM.tryCatch x handle s = .ok a s'
  delta EStateM.tryCatch
  simp only [h]

theorem tryCatch_error {x : EStateM ε σ α} {handle : ε → EStateM ε σ α} {s s' : σ} {e : ε}
    (h : x s = .error e s') : tryCatch x handle s = handle e s' := by
  show EStateM.tryCatch x handle s = handle e s'
  delta EStateM.tryCatch
  simp only [h]
  rfl

theorem consult_ok {question : σ → Except ε α} {s : σ} {a : α} (h : question s = .ok a) :
    consult question s = .ok a s := by
  rw [consult, h]

theorem consult_error {question : σ → Except ε α} {s : σ} {e : ε} (h : question s = .error e) :
    consult question s = .error e s := by
  rw [consult, h]

theorem adaptExcept_ok {x : EStateM ε σ α} {f : ε → δ} {s s' : σ} {a : α} (h : x s = .ok a s') :
    EStateM.adaptExcept f x s = .ok a s' := by
  rw [EStateM.adaptExcept, h]

theorem adaptExcept_error {x : EStateM ε σ α} {f : ε → δ} {s s' : σ} {e : ε}
    (h : x s = .error e s') : EStateM.adaptExcept f x s = .error (f e) s' := by
  rw [EStateM.adaptExcept, h]

theorem bind_eq_ok_iff {x : EStateM ε σ α} {f : α → EStateM ε σ β} {s s' : σ} {b : β} :
    (x >>= f) s = .ok b s' ↔ ∃ a between, x s = .ok a between ∧ f a between = .ok b s' := by
  constructor
  · intro h
    cases hx : x s with
    | error e between =>
      rw [bind_error hx] at h
      cases h
    | ok a between => exact ⟨a, between, rfl, (bind_ok hx).symm.trans h⟩
  · rintro ⟨a, between, hx, hf⟩
    exact (bind_ok hx).trans hf

theorem bind_congr_ok {x : EStateM ε σ α} {f g : α → EStateM ε σ β} {s : σ}
    (h : ∀ a s', x s = .ok a s' → f a s' = g a s') : (x >>= f) s = (x >>= g) s := by
  cases hx : x s with
  | error e s' => rw [bind_error hx, bind_error hx]
  | ok a s' => rw [bind_ok hx, bind_ok hx, h a s' hx]

theorem consult_bind_congr {question : σ → Except ε α} {f g : α → EStateM ε σ β} {s : σ}
    (h : ∀ a, question s = .ok a → f a s = g a s) :
    (consult question >>= f) s = (consult question >>= g) s := by
  cases hq : question s with
  | error e => rw [bind_error (consult_error hq), bind_error (consult_error hq)]
  | ok a => rw [bind_ok (consult_ok hq), bind_ok (consult_ok hq), h a hq]

theorem consult_eq_ok_iff {question : σ → Except ε α} {s s' : σ} {a : α} :
    consult question s = .ok a s' ↔ question s = .ok a ∧ s' = s := by
  constructor
  · intro h
    cases hq : question s with
    | error e =>
      rw [consult_error hq] at h
      cases h
    | ok b =>
      rw [consult_ok hq] at h
      cases h
      exact ⟨rfl, rfl⟩
  · rintro ⟨hq, rfl⟩
    exact consult_ok hq

theorem adaptExcept_eq_ok_iff {x : EStateM ε σ α} {f : ε → δ} {s s' : σ} {a : α} :
    EStateM.adaptExcept f x s = .ok a s' ↔ x s = .ok a s' := by
  constructor
  · intro h
    cases hx : x s with
    | error e between =>
      rw [adaptExcept_error hx] at h
      cases h
    | ok b between =>
      rw [adaptExcept_ok hx] at h
      cases h
      rfl
  · exact adaptExcept_ok

theorem exists_of_run' {x : EStateM ε σ α} {s : σ} {a : α} (h : x.run' s = some a) :
    ∃ s', x s = .ok a s' := by
  have hrun : (match x s with
    | .ok b _ => some b
    | .error _ _ => none) = some a := h
  cases hx : x s with
  | error e s' =>
    rw [hx] at hrun
    cases hrun
  | ok b s' =>
    rw [hx] at hrun
    cases hrun
    exact ⟨s', rfl⟩

def left (x : EStateM ε σ α) (s : σ) : σ :=
  match x s with
  | .ok _ s' => s'
  | .error _ s' => s'

theorem left_ok {x : EStateM ε σ α} {s s' : σ} {a : α} (h : x s = .ok a s') : left x s = s' := by
  rw [left, h]

theorem left_error {x : EStateM ε σ α} {s s' : σ} {e : ε} (h : x s = .error e s') :
    left x s = s' := by
  rw [left, h]

/-- `P` holds afterwards if it held before, whether `x` is done or breaks off. -/
def Preserves (P : σ → Prop) (x : EStateM ε σ α) : Prop := ∀ s, P s → P (left x s)

namespace Preserves

variable {P : σ → Prop}

theorem pure (a : α) : Preserves P (pure a : EStateM ε σ α) := fun _ h => h

theorem throw (e : ε) : Preserves P (throw e : EStateM ε σ α) := fun _ h => h

theorem modify {f : σ → σ} (h : ∀ s, P s → P (f s)) :
    Preserves P (modify f : EStateM ε σ PUnit) := h

theorem consult (question : σ → Except ε α) : Preserves P (consult question) := by
  intro s h
  cases hq : question s with
  | error e => rwa [left_error (consult_error hq)]
  | ok a => rwa [left_ok (consult_ok hq)]

theorem adaptExcept {x : EStateM ε σ α} (h : Preserves P x) (f : ε → δ) :
    Preserves P (EStateM.adaptExcept f x) := by
  intro s hs
  have hleft := h s hs
  cases hx : x s with
  | error e s' =>
    rw [left_error hx] at hleft
    rwa [left_error (adaptExcept_error hx)]
  | ok a s' =>
    rw [left_ok hx] at hleft
    rwa [left_ok (adaptExcept_ok hx)]

theorem bind {x : EStateM ε σ α} {f : α → EStateM ε σ β} (hx : Preserves P x)
    (hf : ∀ a, Preserves P (f a)) : Preserves P (x >>= f) := by
  intro s hs
  have hleft := hx s hs
  cases h : x s with
  | error e s' =>
    rw [left_error h] at hleft
    rwa [left_error (bind_error h)]
  | ok a s' =>
    rw [left_ok h] at hleft
    rw [left, bind_ok h]
    exact hf a s' hleft

theorem ite {c : Prop} [Decidable c] {x y : EStateM ε σ α} (hx : c → Preserves P x)
    (hy : ¬ c → Preserves P y) : Preserves P (if c then x else y) := by
  split
  · exact hx ‹_›
  · exact hy ‹_›

theorem throw_or {c : Prop} [Decidable c] {e : ε} {y : EStateM ε σ α}
    (hy : ¬ c → Preserves P y) :
    Preserves P (if c then MonadExcept.throw e else y) := ite (fun _ => throw e) hy

theorem pure_or {c : Prop} [Decidable c] {a : α} {y : EStateM ε σ α}
    (hy : ¬ c → Preserves P y) : Preserves P (if c then Pure.pure a else y) :=
  ite (fun _ => pure a) hy

theorem or_pure {c : Prop} [Decidable c] {a : α} {x : EStateM ε σ α}
    (hx : c → Preserves P x) : Preserves P (if c then x else Pure.pure a) :=
  ite hx fun _ => pure a

theorem get_bind {f : σ → EStateM ε σ β} (hf : ∀ s, Preserves P (f s)) :
    Preserves P (get >>= f) := fun s hs => hf s s hs

theorem consult_bind {question : σ → Except ε α} {f : α → EStateM ε σ β}
    (hf : ∀ s a, P s → question s = .ok a → Preserves P (f a)) :
    Preserves P (MediaLibrary.consult question >>= f) := by
  intro s hs
  cases hq : question s with
  | error e => rwa [left_error (bind_error (consult_error hq))]
  | ok a =>
    rw [left, bind_ok (consult_ok hq)]
    exact hf s a hs hq s hs

end Preserves

theorem query_ok {x : Except ε α} {f : α → Except ε β} {a : α} (h : x = .ok a) :
    (x >>= f) = f a := by
  rw [h]
  rfl

theorem query_error {x : Except ε α} {f : α → Except ε β} {e : ε} (h : x = .error e) :
    (x >>= f) = .error e := by
  rw [h]
  rfl

theorem query_eq_ok_iff {x : Except ε α} {f : α → Except ε β} {b : β} :
    (x >>= f) = .ok b ↔ ∃ a, x = .ok a ∧ f a = .ok b := by
  cases x with
  | error e => exact ⟨fun h => (nomatch h), fun ⟨_, h, _⟩ => (nomatch h)⟩
  | ok a => exact ⟨fun h => ⟨a, rfl, h⟩, fun ⟨_, h, hf⟩ => (Except.ok.inj h) ▸ hf⟩

theorem query_eq_error_iff {x : Except ε α} {f : α → Except ε β} {e : ε} :
    (x >>= f) = .error e ↔ x = .error e ∨ ∃ a, x = .ok a ∧ f a = .error e := by
  cases x with
  | error e' =>
    constructor
    · exact fun h => Or.inl (congrArg _ (Except.error.inj h))
    · rintro (h | ⟨_, h, -⟩)
      · cases h
        rfl
      · cases h
  | ok a =>
    constructor
    · exact fun h => Or.inr ⟨a, rfl, h⟩
    · rintro (h | ⟨_, h, hf⟩)
      · cases h
      · cases h
        exact hf

theorem mapError_eq_ok_iff {x : Except ε α} {f : ε → δ} {a : α} :
    x.mapError f = .ok a ↔ x = .ok a := by
  cases x with
  | error e => exact ⟨fun h => (nomatch h), fun h => (nomatch h)⟩
  | ok b => exact ⟨fun h => congrArg _ (Except.ok.inj h), fun h => congrArg _ (Except.ok.inj h)⟩

theorem ofCheck_eq_ok_iff {x : Except δ α} {f : δ → ε} {a : α} :
    Failure.ofCheck f x = .ok a ↔ x = .ok a := by
  cases x <;> simp [Failure.ofCheck]

theorem ofCheck_eq_error_iff {x : Except δ α} {f : δ → ε} {e : Failure ε} :
    Failure.ofCheck f x = .error e ↔ ∃ d, x = .error d ∧ e = .refused (f d) := by
  cases x <;> simp [Failure.ofCheck, eq_comm]

end Steps
end MediaLibrary
