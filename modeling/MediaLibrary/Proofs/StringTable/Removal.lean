import MediaLibrary.Proofs.StringTable.Packed
/-! Removing a string from a table whose history is not known. The check of a table lets slots point
into the middle of other strings, and then taking out the bytes of one string takes them out of
another. A string that ends alone shares its bytes with no other: it is removed, and the others stay
in their order. -/
namespace MediaLibrary.StringTable

open Bytes (rank)

variable {t : StringTable} {values : List Bytes} {value : Bytes}

namespace StandsAt

variable {area other : Bytes} {offset place : Nat}

theorem getElem?_eq (h : StandsAt area offset value) (i : Nat) (hi : i ≤ value.length) :
    area[offset + i]? = if i < value.length then value[i]? else some 0 := by
  obtain ⟨-, rest, hrest⟩ := h
  have hget := congrArg (·[i]?) hrest
  simp only [List.getElem?_drop] at hget
  rw [hget]
  split
  · rename_i hlt
    rw [List.getElem?_append_left hlt]
  · rename_i hle
    obtain rfl : i = value.length := by omega
    simp

theorem end_le (h : StandsAt area offset value) (ho : StandsAt area place other)
    (hle : offset ≤ place + other.length) (hlt : place + other.length < offset + value.length) :
    False := by
  have hend := ho.getElem?_eq other.length (Nat.le_refl _)
  obtain ⟨i, hi⟩ := Nat.exists_eq_add_of_le hle
  have hinside := h.getElem?_eq i (by omega)
  rw [if_neg (Nat.lt_irrefl _), hi, hinside, if_pos (by omega)] at hend
  exact h.1 (List.mem_of_getElem? hend)

theorem apart (h : StandsAt area offset value) (ho : StandsAt area place other)
    (hne : offset + value.length ≠ place + other.length) :
    place + other.length < offset ∨ offset + value.length < place := by
  rcases Nat.lt_or_ge (place + other.length) offset with hbefore | hle
  · exact Or.inl hbefore
  rcases Nat.lt_or_ge (offset + value.length) place with hafter | hle'
  · exact Or.inr hafter
  rcases Nat.lt_or_gt_of_ne hne with hlt | hlt
  · exact absurd (ho.end_le h hle' hlt) id
  · exact absurd (h.end_le ho hle hlt) id

theorem unique (h : StandsAt area offset value) (ho : StandsAt area offset other) :
    value = other := by
  rw [← h.untilZero_eq, ho.untilZero_eq]

theorem excise (h : StandsAt area place other) {start stop : Nat} (hlt : start < stop)
    (hstop : stop ≤ area.length) (hapart : place + other.length < start ∨ stop ≤ place) :
    StandsAt (area.take start ++ area.drop stop)
      (if place ≤ start then place else place - (stop - start)) other := by
  obtain ⟨hnul, rest, hrest⟩ := h
  have hstart : (area.take start).length = start := by
    rw [List.length_take]
    omega
  refine ⟨hnul, ?_⟩
  rcases hapart with hbefore | hafter
  · obtain ⟨count, hcount⟩ : ∃ count, start - place = other.length + (count + 1) :=
      ⟨start - place - other.length - 1, by omega⟩
    refine ⟨rest.take count ++ area.drop stop, ?_⟩
    rw [if_pos (by omega), List.drop_append_of_le_length (by omega), List.drop_take, hrest, hcount,
      List.take_length_add_append, List.take_succ_cons]
    simp
  · have hplace : place - (stop - start) = (area.take start).length + (place - stop) := by omega
    refine ⟨rest, ?_⟩
    rw [if_neg (by omega), hplace, List.drop_length_add_append, List.drop_drop, ← hrest]
    congr 1
    omega

end StandsAt

/-- No other slot leads to a string that ends with the zero byte that ends `value`. -/
def EndsAlone (t : StringTable) (value : Bytes) : Prop :=
  ∀ slot ∈ t.slots, ∀ other ∈ t.slots, ∀ word, t.resolve slot = .ok value →
    t.resolve other = .ok word → slot + value.length = other + word.length → other = slot

theorem startOf_end_ne {strings : List Bytes} (h : strings.Nodup) {x : Bytes} (hv : value ∈ strings)
    (hx : x ∈ strings) (hne : x ≠ value) :
    startOf strings value + value.length ≠ startOf strings x + x.length := by
  obtain ⟨before, after, rfl, hb⟩ := List.eq_append_cons_of_mem hv
  rw [startOf_of_split hb]
  rcases List.mem_append.1 hx with hx | hx
  · have hlt := startOf_lt hx
    rw [startOf_append hx]
    omega
  · rcases List.mem_cons.1 hx with rfl | hx
    · exact absurd rfl hne
    · have hlt := startOf_after h hx
      omega

theorem Packable.endsAlone {length : Nat} {strings : List Bytes} (h : Packable length strings)
    (ht : t.parts = packed length strings) : t.EndsAlone value := by
  intro slot hslot other hother word hvalue hword hend
  have harea : t.parts.strings = area strings := congrArg Parts.strings ht
  have hplaces : ∀ slot ∈ t.slots, ∀ word, t.resolve slot = .ok word →
      word ∈ strings ∧ slot = startOf strings word := by
    intro slot hslot word hword
    rw [slots_of_packed h ht] at hslot
    obtain ⟨x, hx, rfl⟩ := List.mem_map.1 hslot
    have hx := Bytes.mem_ascending.1 hx
    rw [resolve_eq_ok_iff, harea] at hword
    obtain rfl := hword.unique (standsAt_startOf hx (h.nul_free x hx))
    exact ⟨hx, rfl⟩
  obtain ⟨hv, rfl⟩ := hplaces slot hslot value hvalue
  obtain ⟨hx, rfl⟩ := hplaces other hother word hword
  by_cases heq : word = value
  · rw [heq]
  · exact absurd hend (startOf_end_ne h.nodup hv hx heq)

theorem EndsAlone.apart (h : t.EndsAlone value) {start slot : Nat} {other : Bytes}
    (hstart : start ∈ t.slots) (hvalue : t.resolve start = .ok value) (hslot : slot ∈ t.slots)
    (hother : t.resolve slot = .ok other) :
    slot = start ∨ slot + other.length < start ∨ start + value.length < slot := by
  by_cases hend : start + value.length = slot + other.length
  · exact Or.inl (h start hstart slot hslot other hvalue hother hend)
  · exact Or.inr (((resolve_eq_ok_iff t _ _).1 hvalue).apart
      ((resolve_eq_ok_iff t _ _).1 hother) hend)

/-- Every other string still stands once the bytes of one that ends alone are taken out. -/
theorem EndsAlone.standsAt_excise (halone : t.EndsAlone value) {start slot : Nat}
    {other : Bytes} (hs : start ∈ t.slots) (hv : t.resolve start = .ok value)
    (hslot : slot ∈ t.slots) (hother : t.resolve slot = .ok other) (hne : other ≠ value) :
    StandsAt (t.parts.strings.take start ++ t.parts.strings.drop (start + (value.length + 1)))
      (if slot ≤ start then slot else slot - (value.length + 1)) other := by
  have hstand := (resolve_eq_ok_iff t _ _).1 hv
  have hstands := (resolve_eq_ok_iff t _ _).1 hother
  have hinside := hstand.lt
  rcases halone.apart hs hv hslot hother with rfl | hapart
  · exact absurd (hstands.unique hstand) hne
  · have hstays := hstands.excise (show start < start + (value.length + 1) by omega) (by omega)
      (by omega)
    rwa [Nat.add_sub_cancel_left] at hstays

theorem length_of_mapM {α β : Type} {f : α → Option β} {xs : List α} {ys : List β}
    (h : xs.mapM f = some ys) : ys.length = xs.length := by
  induction xs generalizing ys with
  | nil =>
    cases h
    rfl
  | cons x rest ih =>
    rw [List.mapM_cons] at h
    cases hx : f x with
    | none =>
      rw [hx] at h
      cases h
    | some y =>
      cases hrest : rest.mapM f with
      | none =>
        rw [hx, hrest] at h
        cases h
      | some ys' =>
        rw [hx, hrest] at h
        obtain rfl := Option.some.inj h
        rw [List.length_cons, List.length_cons, ih hrest]

/-- A search that finds a string has read it behind the slot that it tells, whatever the order of the
slots. -/
theorem resolve_of_searchBetween {low high n : Nat}
    (h : t.searchBetween value low high = .ok (.found n)) :
    n < high ∧ t.resolve (t.slotAt n) = .ok value := by
  fun_induction searchBetween t value low high with
  | case1 low high hlt middle damage hres => cases h
  | case2 low high hlt middle probe hres hprobe ih => exact ih h
  | case3 low high hlt middle probe hres hnot hprobe ih =>
    obtain ⟨hn, hvalue⟩ := ih h
    exact ⟨by omega, hvalue⟩
  | case4 low high hlt middle probe hres hnot hnot' =>
    obtain rfl : middle = n := Rank.found.inj (Except.ok.inj h)
    obtain rfl := Bytes.eq_of_not_lt hnot hnot'
    exact ⟨by omega, hres⟩
  | case5 low high hlt => cases h

/-- What is left of a table is as long as the table was, whatever its slots point into: the bytes of
the string and of its slot become free bytes. -/
theorem length_of_remove (hsized : t.parts.Sized) {rest : StringTable}
    (hremove : t.remove value = .ok (some rest)) : rest.parts.length = t.parts.length := by
  obtain ⟨rank, hfound, hremove⟩ := Steps.query_eq_ok_iff.1 hremove
  cases rank with
  | absent n => cases hremove
  | found n =>
    obtain ⟨hn, hvalue⟩ := resolve_of_searchBetween (Steps.ofCheck_eq_ok_iff.1 hfound)
    have hinside := ((resolve_eq_ok_iff t _ _).1 hvalue).lt
    cases hmoved : t.slots.mapM (rebase (t.slotAt n) (value.length + 1)) with
    | none =>
      simp only [eraseSlot, hmoved] at hremove
      cases hremove
    | some slots =>
      simp only [eraseSlot, hmoved] at hremove
      obtain rfl := Option.some.inj (Except.ok.inj hremove)
      have hslots := length_of_mapM hmoved
      have hindex := congrArg List.length (index_eq hsized.whole)
      have hcount : n < t.slots.length := by rwa [length_slots]
      rw [Word.length_listToBytes] at hindex
      simp only [parts] at hinside hindex
      simp only [parts, Parts.length, Parts.indexOffset, indexOf, Image.toList_append,
        Image.toList_take, Image.toList_drop, Image.toList_blank, Image.toList_ofBytes,
        List.length_append, List.length_take, List.length_drop, Bytes.length_zeros,
        Word.length_listToBytes, List.length_eraseIdx, hindex, if_pos hcount, hslots, slotSize]
      unfold Word.size
      omega

namespace Ordered

theorem resolve_rank (h : t.Ordered values) (hm : value ∈ values) :
    t.slotAt (rank values value) ∈ t.slots ∧
      t.resolve (t.slotAt (rank values value)) = .ok value := by
  obtain ⟨hr, hget⟩ := h.ascending.rank_lt_of_mem hm
  have hslot : t.slots[rank values value]? = some (t.slotAt (rank values value)) := by
    rw [getElem?_slots, h.entries_eq, if_pos hr]
  exact ⟨List.mem_of_getElem? hslot, by rw [h.resolve_slotAt hr, hget]⟩

theorem resolves_eraseIdx (h : t.Ordered values) (hm : value ∈ values) :
    (t.slots.eraseIdx (rank values value)).map t.resolve = (values.erase value).map .ok := by
  rw [← List.eraseIdx_map, h.resolves, List.eraseIdx_map, h.ascending.eraseIdx_rank hm]

theorem slots_apart (h : t.Ordered values) (halone : t.EndsAlone value) {start : Nat}
    (hs : start ∈ t.slots) (hv : t.resolve start = .ok value) :
    ∀ slot ∈ t.slots, slot ≤ start ∨ value.length + 1 ≤ slot := by
  intro slot hslot
  obtain ⟨other, -, hother⟩ := h.exists_resolve hslot
  rcases halone.apart hs hv hslot hother with rfl | hbefore | hafter <;> omega

theorem of_excise (h : t.Ordered values) (hbelow : t.parts.length < Word.limit)
    (halone : t.EndsAlone value) (hm : value ∈ values) {start : Nat}
    (hstart : t.slotAt (rank values value) = start) {t' : StringTable}
    (hstrings : t'.parts.strings
      = t.parts.strings.take start ++ t.parts.strings.drop (start + (value.length + 1)))
    (hindex : t'.parts.index = Word.listToBytes ((t.slots.map fun slot =>
      if slot ≤ start then slot else slot - (value.length + 1)).eraseIdx (rank values value))) :
    t'.Ordered (values.erase value) := by
  obtain ⟨hs, hv⟩ := h.resolve_rank hm
  rw [hstart] at hs hv
  have hslots := slots_of_index hindex fun slot hslot => by
    obtain ⟨old, hold, rfl⟩ := List.mem_map.1 (List.mem_of_mem_eraseIdx hslot)
    obtain ⟨other, -, hother⟩ := h.exists_resolve hold
    have hlt := ((resolve_eq_ok_iff t _ _).1 hother).lt
    unfold Parts.length Parts.indexOffset at hbelow
    split <;> omega
  have hleft := h.resolves_eraseIdx hm
  refine ⟨?_, h.ascending.sublist List.erase_sublist⟩
  rw [hslots, List.eraseIdx_map, List.map_map, ← hleft]
  apply List.map_congr_left
  intro slot hslot
  have hmem : t.resolve slot ∈ (values.erase value).map Except.ok :=
    hleft ▸ List.mem_map_of_mem hslot
  obtain ⟨other, hother, hresolve⟩ := List.mem_map.1 hmem
  have hne := ((h.ascending.nodup.mem_erase_iff).1 hother).1
  rw [← hresolve, Function.comp_apply, resolve_eq_ok_iff, hstrings]
  exact halone.standsAt_excise hs hv (List.mem_of_mem_eraseIdx hslot) hresolve.symm hne

theorem remove_ok (h : t.Ordered values) (hsized : t.parts.Sized) (halone : t.EndsAlone value)
    (hm : value ∈ values) :
    ∃ rest, t.remove value = .ok (some rest) ∧ rest.parts.length = t.parts.length ∧
      rest.parts.Sized ∧ rest.Ordered (values.erase value) := by
  obtain ⟨hs, hv⟩ := h.resolve_rank hm
  obtain ⟨rest, herase, hrest⟩ := eraseSlot_eq (h.slots_apart halone hs hv) (rank values value)
  have hsearch : t.search value = .ok (.found (rank values value)) := by
    rw [h.search_eq, rankOf_of_mem hm]
  have hremove := remove_of_found hsearch herase
  have hlength := length_of_remove hsized hremove
  refine ⟨rest, hremove, hlength, ⟨?_, hlength ▸ hsized.below⟩, ?_⟩
  · rw [hrest, Word.length_listToBytes]
    exact Nat.mul_mod_right _ _
  · exact h.of_excise hsized.below halone hm rfl (congrArg Parts.strings hrest)
      (congrArg Parts.index hrest)

end Ordered

/-- Removing from a table that passes the checks, of a string that ends alone: it tells whether the
string was there, and the table that is left passes the checks and has the other strings in their
order. -/
theorem removeAt_checked {image : Image} {base : Nat} (hopen : openAt image base = .ok t)
    (hcheck : t.checkOrder = .ok ()) (halone : t.EndsAlone value) :
    ∃ (values : List Bytes) (image' : Image) (t' : StringTable),
      t.slots.map t.resolve = values.map .ok ∧
      removeAt image base value = .ok (decide (value ∈ values), image') ∧
      openAt image' base = .ok t' ∧ t'.checkOrder = .ok () ∧
      t'.slots.map t'.resolve = (values.erase value).map .ok := by
  obtain ⟨values, hordered⟩ := checkOrder_eq_ok_iff.1 hcheck
  by_cases hm : value ∈ values
  · obtain ⟨hsized, before, after, hbytes, rfl⟩ := encode_of_openAt hopen
    obtain ⟨rest, hremove, hlen, hsized', hrest⟩ := hordered.remove_ok hsized halone hm
    obtain ⟨image', hremoved, hbytes'⟩ := removeAt_of_remove hopen hremove hlen hbytes
    obtain ⟨t', ht', hparts⟩ := openAt_of_encode hsized' hbytes'
    have hordered' := hrest.congr (congrArg Parts.strings hparts) (congrArg Parts.index hparts)
    exact ⟨values, image', t', hordered.resolves, by rw [hremoved, decide_eq_true hm], ht',
      hordered'.checkOrder_eq, hordered'.resolves⟩
  · have hremove := hordered.remove_absent hm
    refine ⟨values, image, t, hordered.resolves, ?_, hopen, hcheck, ?_⟩
    · rw [removeAt_of_absent hopen hremove, decide_eq_false hm]
    · rw [List.erase_of_not_mem hm]
      exact hordered.resolves

end MediaLibrary.StringTable
