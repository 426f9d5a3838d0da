import MediaLibrary.Bytes.Basic
/-! The order of byte strings, byte by byte from the first. Strings are put in ascending order in one
way only, and the rank of a string is the number of those before it. -/
namespace MediaLibrary.Bytes

theorem lt_irrefl (a : Bytes) : ¬ a < a := List.lt_irrefl a

theorem lt_asymm {a b : Bytes} (h : a < b) : ¬ b < a :=
  fun k => lt_irrefl a (List.lt_trans h k)

theorem eq_of_not_lt {a b : Bytes} (h : ¬ a < b) (k : ¬ b < a) : a = b :=
  List.le_antisymm (List.not_lt.1 k) (List.not_lt.1 h)

theorem not_lt_trans {a b c : Bytes} (h : ¬ b < a) (k : ¬ c < b) : ¬ c < a := by
  rw [List.not_lt] at *
  exact List.le_trans h k

/-- In strictly ascending order, so that no string stands twice. -/
abbrev Ascending (values : List Bytes) : Prop := values.Pairwise (· < ·)

/-- The number of strings before `target`. -/
def rank (values : List Bytes) (target : Bytes) : Nat := values.countP (· < target)

def ascending (values : List Bytes) : List Bytes :=
  values.mergeSort fun first second => ¬ second < first

theorem rank_perm {first second : List Bytes} (h : first.Perm second) (target : Bytes) :
    rank first target = rank second target := h.countP_eq _

theorem Ascending.getElem_lt {values : List Bytes} (h : Ascending values) {i j : Nat}
    (hij : i < j) (hj : j < values.length) : values[i] < values[j] :=
  List.pairwise_iff_getElem.1 h i j (Nat.lt_trans hij hj) hj hij

theorem Ascending.nodup {values : List Bytes} (h : Ascending values) : values.Nodup := by
  refine List.Pairwise.imp ?_ h
  rintro a _ hlt rfl
  exact lt_irrefl a hlt

theorem rank_of_split {values : List Bytes} {target : Bytes} {n : Nat} (hn : n ≤ values.length)
    (below : ∀ i (h : i < values.length), i < n → values[i] < target)
    (above : ∀ i (h : i < values.length), n ≤ i → ¬ values[i] < target) :
    rank values target = n := by
  have first : (values.take n).countP (· < target) = (values.take n).length := by
    rw [List.countP_eq_length]
    intro value hv
    obtain ⟨i, hi, rfl⟩ := List.mem_iff_getElem.1 hv
    rw [List.length_take] at hi
    simpa using below i (by omega) (by omega)
  have second : (values.drop n).countP (· < target) = 0 := by
    rw [List.countP_eq_zero]
    intro value hv
    obtain ⟨i, hi, rfl⟩ := List.mem_iff_getElem.1 hv
    rw [List.length_drop] at hi
    simpa using above (n + i) (by omega) (by omega)
  calc rank values target
      = (values.take n ++ values.drop n).countP (· < target) := by
        rw [List.take_append_drop, rank]
    _ = n := by
        rw [List.countP_append, first, second, List.length_take]
        omega

theorem Ascending.rank_getElem {values : List Bytes} (h : Ascending values) {n : Nat}
    (hn : n < values.length) : rank values values[n] = n := by
  refine rank_of_split (Nat.le_of_lt hn) (fun i _ hi => h.getElem_lt hi hn) fun i hi hle => ?_
  rcases Nat.lt_or_eq_of_le hle with hlt | rfl
  · exact lt_asymm (h.getElem_lt hlt hi)
  · exact lt_irrefl _

theorem Ascending.rank_lt_of_mem {values : List Bytes} (h : Ascending values) {target : Bytes}
    (hm : target ∈ values) : ∃ hr : rank values target < values.length,
      values[rank values target] = target := by
  obtain ⟨n, hn, rfl⟩ := List.mem_iff_getElem.1 hm
  have := h.rank_getElem hn
  exact ⟨by omega, by simp only [this]⟩

theorem Ascending.eq_of_perm {first second : List Bytes} (hf : Ascending first)
    (hs : Ascending second) (h : first.Perm second) : first = second :=
  h.eq_of_pairwise (fun _ _ _ _ hab hba => absurd hba (lt_asymm hab)) hf hs

theorem ascending_perm (values : List Bytes) : (ascending values).Perm values :=
  List.mergeSort_perm _ _

@[simp] theorem mem_ascending {values : List Bytes} {value : Bytes} :
    value ∈ ascending values ↔ value ∈ values := (ascending_perm values).mem_iff

@[simp] theorem length_ascending (values : List Bytes) :
    (ascending values).length = values.length := (ascending_perm values).length_eq

@[simp] theorem rank_ascending (values : List Bytes) (target : Bytes) :
    rank (ascending values) target = rank values target := rank_perm (ascending_perm values) target

theorem pairwise_mergeSort_key {α : Type} (key : α → Bytes) (items : List α) :
    (items.mergeSort fun first second => ¬ key second < key first).Pairwise
      fun first second => ¬ key second < key first := by
  let le (a b : α) : Bool := ¬ key b < key a
  have trans : ∀ a b c, le a b → le b c → le a c := by
    intro a b c hab hbc
    simp only [le, decide_eq_true_eq] at hab hbc ⊢
    exact not_lt_trans hab hbc
  have total : ∀ a b, le a b || le b a := by
    intro a b
    simp only [le, Bool.or_eq_true, decide_eq_true_eq]
    by_cases hab : key b < key a
    · exact Or.inr (lt_asymm hab)
    · exact Or.inl hab
  simpa [le] using List.pairwise_mergeSort trans total items

theorem ascending_of_nodup {values : List Bytes} (h : values.Pairwise fun a b => ¬ b < a)
    (distinct : values.Nodup) : Ascending values := by
  refine (h.and distinct).imp ?_
  rintro a b ⟨hba, hne⟩
  by_cases hab : a < b
  · exact hab
  · exact absurd (eq_of_not_lt hab hba) hne

theorem ascending_ascending {values : List Bytes} (h : values.Nodup) :
    Ascending (ascending values) :=
  ascending_of_nodup (pairwise_mergeSort_key id values) ((ascending_perm values).nodup_iff.2 h)

theorem Ascending.eraseIdx_rank {values : List Bytes} (h : Ascending values) {value : Bytes}
    (hm : value ∈ values) : values.eraseIdx (rank values value) = values.erase value := by
  obtain ⟨hr, hget⟩ := h.rank_lt_of_mem hm
  have hidx := h.nodup.idxOf_getElem _ hr
  rw [hget] at hidx
  exact (List.erase_eq_eraseIdx_of_idxOf hidx).symm

theorem ascending_eraseIdx {values : List Bytes} (h : values.Nodup) {value : Bytes}
    (hm : value ∈ values) :
    (ascending values).eraseIdx (rank values value) = ascending (values.erase value) := by
  have ha := ascending_ascending h
  have herase := ha.eraseIdx_rank (mem_ascending.2 hm)
  have hsub : Ascending ((ascending values).erase value) := ha.sublist List.erase_sublist
  rw [rank_ascending] at herase
  rw [herase]
  exact hsub.eq_of_perm (ascending_ascending (h.erase value))
    (((ascending_perm values).erase value).trans (ascending_perm _).symm)

theorem Ascending.split_rank {values : List Bytes} (h : Ascending values) {value : Bytes}
    (hnew : value ∉ values) : (∀ a ∈ values.take (rank values value), a < value) ∧
      ∀ b ∈ values.drop (rank values value), value < b := by
  induction values with
  | nil => simp
  | cons first rest ih =>
    obtain ⟨habove, hrest⟩ := List.pairwise_cons.1 h
    obtain ⟨hfirst, hnew⟩ := not_or.1 (mt List.mem_cons.2 hnew)
    by_cases hlt : first < value
    · obtain ⟨hbelow, hgreater⟩ := ih hrest hnew
      have hrank : rank (first :: rest) value = rank rest value + 1 := by simp [rank, hlt]
      rw [hrank, List.take_succ_cons, List.drop_succ_cons]
      refine ⟨?_, hgreater⟩
      intro a ha
      rcases List.mem_cons.1 ha with rfl | ha
      · exact hlt
      · exact hbelow a ha
    · have hgreater : ∀ b ∈ first :: rest, value < b := by
        have hhead : value < first := by
          refine Classical.byContradiction fun hnot => ?_
          exact hfirst (eq_of_not_lt hnot hlt)
        intro b hb
        rcases List.mem_cons.1 hb with rfl | hb
        · exact hhead
        · exact List.lt_trans hhead (habove b hb)
      have hrank : rank (first :: rest) value = 0 := by
        rw [rank, List.countP_eq_zero]
        intro b hb
        simpa using lt_asymm (hgreater b hb)
      rw [hrank, List.take_zero, List.drop_zero]
      exact ⟨fun a ha => absurd ha List.not_mem_nil, hgreater⟩

theorem Ascending.ascending_cons {values : List Bytes} (h : Ascending values) {value : Bytes}
    (hnew : value ∉ values) : ascending (value :: values)
      = values.take (rank values value) ++ value :: values.drop (rank values value) := by
  obtain ⟨hbelow, habove⟩ := h.split_rank hnew
  have hinserted : Ascending
      (values.take (rank values value) ++ value :: values.drop (rank values value)) := by
    refine List.pairwise_append.2 ⟨h.sublist (List.take_sublist _ _),
      List.pairwise_cons.2 ⟨habove, h.sublist (List.drop_sublist _ _)⟩, ?_⟩
    intro a ha b hb
    rcases List.mem_cons.1 hb with rfl | hb
    · exact hbelow a ha
    · exact List.lt_trans (hbelow a ha) (habove b hb)
  have hnodup : (value :: values).Nodup := List.nodup_cons.2 ⟨hnew, h.nodup⟩
  refine (ascending_ascending hnodup).eq_of_perm hinserted ((ascending_perm _).trans ?_)
  have hmiddle := @List.perm_middle _ value (values.take (rank values value))
    (values.drop (rank values value))
  rw [List.take_append_drop] at hmiddle
  exact hmiddle.symm

end MediaLibrary.Bytes
