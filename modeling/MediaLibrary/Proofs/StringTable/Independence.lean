import MediaLibrary.Proofs.StringTable.History
import MediaLibrary.Proofs.StringTable.Probing
import MediaLibrary.Proofs.StringTable.Removal
import MediaLibrary.Proofs.StringTable.Resumption
/-! What becomes of a table does not depend on the storage that it lies in. A new string is stored in
the table with all its growth steps taken, or a step is refused; which it is, only the storage knows.
In memory that holds nothing but the table, a step is refused only if the table would be too long. -/
namespace MediaLibrary.StringTable

/-! A table with a string more or less has a slot more or less. -/

section Counting

variable {t rest pushed : StringTable} {value : Bytes}

theorem entries_of_push (h : t.push value = .ok pushed) : pushed.entries = t.entries + 1 := by
  obtain ⟨-, -, hindex⟩ := sizes_of_push h
  rw [entries, hindex]
  exact Nat.mul_div_cancel_left _ (by decide)

theorem entries_below (h : t.parts.Sized) : t.entries < Word.limit := by
  have hbelow := h.below
  have hle : t.entries ≤ t.parts.index.length := by
    rw [entries_eq]
    exact Nat.div_le_self _ _
  unfold Parts.length at hbelow
  omega

theorem entries_widen (t : StringTable) (count : Nat) : (t.widen count).entries = t.entries := rfl

theorem index_of_remove (h : t.remove value = .ok (some rest)) :
    ∃ slots, rest.index = indexOf slots ∧ slots.length = t.entries - 1 := by
  obtain ⟨rank, hfound, h⟩ := Steps.query_eq_ok_iff.1 h
  cases rank with
  | absent n => cases h
  | found n =>
    have hn := (resolve_of_searchBetween (Steps.ofCheck_eq_ok_iff.1 hfound)).1
    cases hmoved : t.slots.mapM (rebase (t.slotAt n) (value.length + 1)) with
    | none =>
      simp only [eraseSlot, hmoved] at h
      cases h
    | some slots =>
      simp only [eraseSlot, hmoved] at h
      obtain rfl := Option.some.inj (Except.ok.inj h)
      have hslots : slots.length = t.entries := by rw [length_of_mapM hmoved, length_slots]
      exact ⟨_, rfl, by rw [List.length_eraseIdx, if_pos (hslots ▸ hn), hslots]⟩

theorem entries_of_remove (h : t.remove value = .ok (some rest)) :
    rest.entries = t.entries - 1 := by
  obtain ⟨slots, hindex, hslots⟩ := index_of_remove h
  rw [entries, hindex, size_indexOf, hslots]
  exact Nat.mul_div_cancel_left _ (by decide)

theorem sized_of_remove (ht : t.parts.Sized) (h : t.remove value = .ok (some rest)) :
    rest.parts.Sized := by
  obtain ⟨slots, hindex, -⟩ := index_of_remove h
  refine ⟨?_, length_of_remove ht h ▸ ht.below⟩
  show rest.index.toList.length % slotSize = 0
  rw [Image.length_toList, hindex, size_indexOf, Nat.mul_mod_right]

end Counting

/-! Tables with the same bytes. -/

section Alike

variable {t t' : StringTable} (h : t'.parts = t.parts)

include h

theorem search_congr : t'.search = t.search := by
  funext target
  rw [search, search, entries_congr (congrArg Parts.index h)]
  apply searchBetween_congr
  intro n _
  rw [resolve_congr (congrArg Parts.strings h), slotAt_congr (congrArg Parts.index h)]

theorem eraseSlot_congr (n offset size : Nat) :
    (t'.eraseSlot n offset size).map parts = (t.eraseSlot n offset size).map parts := by
  have hstrings : t'.strings.toList = t.strings.toList := congrArg Parts.strings h
  have hfree : t'.free.toList = t.free.toList := congrArg Parts.free h
  rw [eraseSlot, eraseSlot, slots_congr (congrArg Parts.index h)]
  cases t.slots.mapM (rebase offset size) with
  | none => rfl
  | some slots => simp [Except.map, parts, hstrings, hfree]

theorem remove_congr (value : Bytes) :
    (t'.remove value).map (Option.map parts) = (t.remove value).map (Option.map parts) := by
  rw [remove, remove, search_congr h, slotAt_congr (congrArg Parts.index h)]
  cases t.search value with
  | error damage => rfl
  | ok rank =>
    cases rank with
    | absent n => rfl
    | found n =>
      have herase := eraseSlot_congr h n (t.slotAt n) (value.length + 1)
      have hfound : Failure.ofCheck id (.ok (Rank.found n) : Except TableDamage Rank)
          = .ok (.found n) := rfl
      simp only [Steps.query_ok hfound]
      generalize t'.eraseSlot n (t.slotAt n) (value.length + 1) = left' at herase
      generalize t.eraseSlot n (t.slotAt n) (value.length + 1) = left at herase
      cases left' with
      | error f' =>
        cases left with
        | error f => rw [Except.error.inj herase]
        | ok rest => cases herase
      | ok rest' =>
        cases left with
        | error f => cases herase
        | ok rest => exact congrArg (Except.ok ∘ some) (Except.ok.inj herase)

/-- In either of two tables with the same bytes a removal fails, misses the string, or finds it. -/
theorem remove_cases (value : Bytes) :
    (∃ e, t.remove value = .error e ∧ t'.remove value = .error e) ∨
    (t.remove value = .ok none ∧ t'.remove value = .ok none) ∨
    ∃ rest rest', t.remove value = .ok (some rest) ∧ t'.remove value = .ok (some rest') ∧
      rest'.parts = rest.parts := by
  have hsame := remove_congr h value
  cases hleft : t.remove value with
  | error e =>
    cases hleft' : t'.remove value with
    | error e' =>
      rw [hleft, hleft'] at hsame
      obtain rfl := Except.error.inj hsame
      exact Or.inl ⟨e', rfl, rfl⟩
    | ok left' =>
      rw [hleft, hleft'] at hsame
      cases hsame
  | ok left =>
    cases hleft' : t'.remove value with
    | error e' =>
      rw [hleft, hleft'] at hsame
      cases hsame
    | ok left' =>
      rw [hleft, hleft'] at hsame
      have hsame := Except.ok.inj hsame
      cases left with
      | none =>
        obtain rfl := Option.map_eq_none_iff.1 hsame
        exact Or.inr (Or.inl ⟨rfl, rfl⟩)
      | some rest =>
        obtain ⟨rest', rfl, hparts⟩ := Option.map_eq_some_iff.1 hsame
        exact Or.inr (Or.inr ⟨rest, rest', rfl, rfl, hparts⟩)

end Alike

theorem removeAt_of_failed {image : Image} {base : Nat} {t : StringTable} {value : Bytes}
    {e : Failure TableDamage} (hopen : openAt image base = .ok t)
    (hremove : t.remove value = .error e) :
    removeAt image base value = .error (e.map .corrupt) := by
  rw [removeAt, Steps.query_ok hopen, hremove]
  rfl

/-! A new string. -/

section Adding

variable {σ : Type} {host : Host σ} {base : Nat} {shows : σ → Bytes → Prop} {s : σ}
  {t : StringTable} {values : List Bytes} {value : Bytes} {quantum : Nat}

theorem Host.Carries.add_new_cases (h : host.Carries base shows) (hsized : t.parts.Sized)
    (hs : shows s t.parts.encode) (hordered : t.Ordered values) (hnew : value ∉ values)
    (hnul : 0 ∉ value) (hq : 0 < quantum) :
    (∃ pushed s', (t.widen (t.stepsFor value quantum * quantum)).push value = .ok pushed ∧
      pushed.parts.Sized ∧ pushed.length = t.length + t.stepsFor value quantum * quantum ∧
      add host base value quantum s = .ok () s' ∧ shows s' pushed.parts.encode) ∨
    ∃ j < t.stepsFor value quantum, ∃ e s', add host base value quantum s = .error e s' ∧
      grow host base quantum s' = .error e s' ∧
      shows s' (t.parts.widen (j * quantum)).encode ∧ (t.parts.widen (j * quantum)).Sized := by
  have hparts : ∀ t' : StringTable, t'.parts = t.parts → t'.Ordered values :=
    fun t' ht' => hordered.of_parts ht'
  rw [h.add_new hsized hs hparts hnew hnul hq, length_free_parts]
  rcases h.growTimes_cases quantum (t.stepsFor value quantum) hsized hs with
    ⟨s₁, hgrow, hs₁, hsized₁⟩ | ⟨j, hj, e, s₁, hgrow, hs₁, hsized₁, hlast, -⟩
  · have hroom : roomFor value.length ≤ t.free.size + t.stepsFor value quantum * quantum :=
      le_growthSteps hq t.free.size (roomFor value.length)
    rw [← parts_widen] at hs₁ hsized₁
    have hpush : (t.widen (t.stepsFor value quantum * quantum)).push value = .ok _ :=
      if_pos (by simpa [hasRoomFor] using hroom)
    obtain ⟨hsized₂, hlength⟩ := sized_push hsized₁ hpush
    obtain ⟨s₂, hpushed, hs₂⟩ := h.pushAt_eq hsized₁ hs₁ hlength
      fun other hother => push_congr hother hpush
    rw [parts_widen, Parts.length_widen, length_parts, length_parts] at hlength
    exact Or.inl ⟨_, s₂, hpush, hsized₂, hlength, (Steps.bind_ok hgrow).trans hpushed, hs₂⟩
  · exact Or.inr ⟨j, hj, e, s₁, Steps.bind_error hgrow, hlast, hs₁, hsized₁⟩

theorem Host.Exposes.grow_refused (h : host.Exposes base shows) {p : Parts} (hsized : p.Sized)
    (hs : shows s p.encode) {e : Failure TableError}
    (hgrow : grow host base quantum s = .error e s) :
    Word.limit ≤ p.length + quantum ∧ e = .refused .overflow ∨
    p.length + quantum < Word.limit ∧ ∃ f s',
      host.insertSpace (base + p.indexOffset) quantum s = .error f s' ∧ e = f.map .grow := by
  rw [h.grow_eq hsized hs] at hgrow
  by_cases hbig : Word.limit ≤ p.length + quantum
  · rw [if_pos hbig] at hgrow
    exact Or.inl ⟨hbig, (EStateM.Result.error.inj hgrow).1.symm⟩
  · rw [if_neg hbig] at hgrow
    cases hins : host.insertSpace (base + p.indexOffset) quantum s with
    | ok _ s' =>
      rw [hins] at hgrow
      cases hgrow
    | error f s' =>
      rw [hins] at hgrow
      exact Or.inr ⟨Nat.lt_of_not_le hbig, f, s', rfl, (EStateM.Result.error.inj hgrow).1.symm⟩

end Adding

/-! Memory that holds a table and nothing else. -/

section Memory

variable {image : Image} {t : StringTable} {values : List Bytes} {value : Bytes} {quantum : Nat}

theorem carries_alone : Host.memory.Carries 0 fun image bytes => image.toList = bytes := by
  simpa using memory_carries [] []

theorem memory_grow_refused {p : Parts} (hsized : p.Sized) (himage : image.toList = p.encode)
    {e : Failure TableError} (hgrow : grow Host.memory 0 quantum image = .error e image) :
    Word.limit ≤ p.length + quantum ∧ e = .refused .overflow := by
  rcases carries_alone.grow_refused hsized himage hgrow with hlong | ⟨hshort, f, image', hins, -⟩
  · exact hlong
  · have hsize : image.size = p.length := by
      rw [← Image.length_toList, himage, Parts.length_encode]
    have hoffset : 0 + p.indexOffset ≤ image.size := by
      rw [hsize, Nat.zero_add]
      exact Nat.le_add_right _ _
    have hmemory : image.size + quantum < Host.memoryLimit := by
      unfold Word.limit at hshort
      unfold Host.memoryLimit
      omega
    simp only [Host.memory, if_neg (Nat.not_lt.2 hoffset), if_neg (Nat.not_le.2 hmemory)] at hins
    cases hins

theorem memory_add_new_cases (hsized : t.parts.Sized) (himage : image.toList = t.parts.encode)
    (hordered : t.Ordered values) (hnew : value ∉ values) (hnul : 0 ∉ value) (hq : 0 < quantum) :
    (∃ pushed image', (t.widen (t.stepsFor value quantum * quantum)).push value = .ok pushed ∧
      pushed.parts.Sized ∧ pushed.length = t.length + t.stepsFor value quantum * quantum ∧
      add Host.memory 0 value quantum image = .ok () image' ∧
      image'.toList = pushed.parts.encode) ∨
    Word.limit ≤ t.length + t.stepsFor value quantum * quantum ∧
      ∃ image', add Host.memory 0 value quantum image = .error (.refused .overflow) image' := by
  rcases carries_alone.add_new_cases hsized himage hordered hnew hnul hq with
    hstored | ⟨j, hj, e, image', hadd, hlast, himage', hsized'⟩
  · exact Or.inl hstored
  · obtain ⟨hlong, rfl⟩ := memory_grow_refused hsized' himage' hlast
    have hsteps : (j + 1) * quantum ≤ t.stepsFor value quantum * quantum :=
      Nat.mul_le_mul_right quantum hj
    rw [Parts.length_widen, length_parts] at hlong
    rw [Nat.succ_mul] at hsteps
    exact Or.inr ⟨by omega, image', hadd⟩

end Memory
end MediaLibrary.StringTable
