import MediaLibrary.Proofs.Steps
import MediaLibrary.Proofs.Bytes.Order
import MediaLibrary.Proofs.StringTable.Encoding
import MediaLibrary.Proofs.Text
/-! String tables whose slots are in order. Whatever the slots point at, if they can be followed and
the strings ascend, then the binary search answers as a look at every string would, and the strings
are read in ascending order. -/
namespace MediaLibrary.StringTable

open Bytes (Ascending rank)

/-- The slots can be followed, in ascending order of `values`. -/
structure Ordered (t : StringTable) (values : List Bytes) : Prop where
  resolves : t.slots.map t.resolve = values.map .ok
  ascending : Ascending values

variable {t : StringTable} {values : List Bytes}

theorem Ordered.entries_eq (h : t.Ordered values) : t.entries = values.length := by
  simpa using congrArg List.length h.resolves

theorem Ordered.resolve_slotAt (h : t.Ordered values) {n : Nat} (hn : n < values.length) :
    t.resolve (t.slotAt n) = .ok values[n] := by
  have hslot : t.slots[n]? = some (t.slotAt n) := by
    rw [getElem?_slots, h.entries_eq, if_pos hn]
  have := congrArg (·[n]?) h.resolves
  simpa [hslot, hn] using this

theorem Ordered.congr (h : t.Ordered values) {t' : StringTable}
    (hstrings : t'.parts.strings = t.parts.strings) (hindex : t'.parts.index = t.parts.index) :
    t'.Ordered values :=
  ⟨by rw [slots_congr hindex, resolve_congr hstrings, h.resolves], h.ascending⟩

theorem Ordered.of_parts (h : t.Ordered values) {t' : StringTable} (hparts : t'.parts = t.parts) :
    t'.Ordered values :=
  h.congr (congrArg Parts.strings hparts) (congrArg Parts.index hparts)

/-- The strings before `low` are below `target`, and those from `high` on above it. -/
structure Between (values : List Bytes) (target : Bytes) (low high : Nat) : Prop where
  le : low ≤ high
  inside : high ≤ values.length
  below : ∀ i (h : i < values.length), i < low → values[i] < target
  above : ∀ i (h : i < values.length), high ≤ i → target < values[i]

theorem Between.raise {target : Bytes} {low high middle : Nat} (h : Between values target low high)
    (ha : Ascending values) (hm : middle < high) (hlen : middle < values.length)
    (hlt : values[middle] < target) : Between values target (middle + 1) high := by
  refine ⟨hm, h.inside, fun i hi hle => ?_, h.above⟩
  rcases Nat.lt_or_eq_of_le (Nat.le_of_lt_succ hle) with hi' | rfl
  · exact List.lt_trans (ha.getElem_lt hi' hlen) hlt
  · exact hlt

theorem Between.lower {target : Bytes} {low high middle : Nat} (h : Between values target low high)
    (ha : Ascending values) (hm : low ≤ middle) (hlen : middle < values.length)
    (hlt : target < values[middle]) : Between values target low middle := by
  refine ⟨hm, Nat.le_of_lt hlen, h.below, fun i hi hle => ?_⟩
  rcases Nat.lt_or_eq_of_le hle with hi' | rfl
  · exact List.lt_trans hlt (ha.getElem_lt hi' hi)
  · exact hlt

theorem Between.absent {target : Bytes} {low : Nat} (h : Between values target low low) :
    target ∉ values ∧ rank values target = low := by
  refine ⟨fun hm => ?_, Bytes.rank_of_split h.inside h.below
    fun i hi hle => Bytes.lt_asymm (h.above i hi hle)⟩
  obtain ⟨i, hi, rfl⟩ := List.mem_iff_getElem.1 hm
  rcases Nat.lt_or_ge i low with hlt | hle
  · exact Bytes.lt_irrefl _ (h.below i hi hlt)
  · exact Bytes.lt_irrefl _ (h.above i hi hle)

def rankOf (values : List Bytes) (target : Bytes) : Rank :=
  if values.contains target then .found (rank values target) else .absent (rank values target)

theorem rankOf_of_mem {target : Bytes} (h : target ∈ values) :
    rankOf values target = .found (rank values target) :=
  if_pos (List.contains_iff_mem.2 h)

theorem rankOf_of_not_mem {target : Bytes} (h : target ∉ values) :
    rankOf values target = .absent (rank values target) :=
  if_neg (mt List.contains_iff_mem.1 h)

theorem Ordered.searchBetween_eq (h : t.Ordered values) {target : Bytes} {low high : Nat}
    (hb : Between values target low high) :
    t.searchBetween target low high = .ok (rankOf values target) := by
  fun_induction searchBetween t target low high with
  | case1 low high hlt middle damage hres =>
    have hm : middle < values.length := by
      have := hb.inside
      omega
    rw [h.resolve_slotAt hm] at hres
    cases hres
  | case2 low high hlt middle probe hres hprobe ih =>
    have hm : middle < values.length := by
      have := hb.inside
      omega
    rw [h.resolve_slotAt hm] at hres
    cases hres
    exact ih (hb.raise h.ascending (by omega) hm hprobe)
  | case3 low high hlt middle probe hres hnot hprobe ih =>
    have hm : middle < values.length := by
      have := hb.inside
      omega
    rw [h.resolve_slotAt hm] at hres
    cases hres
    exact ih (hb.lower h.ascending (by omega) hm hprobe)
  | case4 low high hlt middle probe hres hnot hnot' =>
    have hm : middle < values.length := by
      have := hb.inside
      omega
    rw [h.resolve_slotAt hm] at hres
    cases hres
    have heq : values[middle] = target := Bytes.eq_of_not_lt hnot hnot'
    have hmem : target ∈ values := heq ▸ List.getElem_mem hm
    rw [rankOf_of_mem hmem, ← heq, h.ascending.rank_getElem hm]
  | case5 low high hlt =>
    have hle := hb.le
    obtain rfl : low = high := by omega
    obtain ⟨hnot, hrank⟩ := hb.absent
    rw [rankOf_of_not_mem hnot, hrank]

theorem Ordered.search_eq (h : t.Ordered values) (target : Bytes) :
    t.search target = .ok (rankOf values target) := by
  apply h.searchBetween_eq
  rw [h.entries_eq]
  exact ⟨Nat.zero_le _, Nat.le_refl _, fun i _ hi => absurd hi (Nat.not_lt_zero i),
    fun i hi hle => absurd hi (Nat.not_lt.2 hle)⟩

theorem Ordered.find_eq (h : t.Ordered values) (value : Bytes) :
    t.find value = .ok (if value ∈ values then some (rank values value) else none) := by
  rw [find, h.search_eq]
  by_cases hm : value ∈ values
  · rw [rankOf_of_mem hm, if_pos hm]
    rfl
  · rw [rankOf_of_not_mem hm, if_neg hm]
    rfl

theorem Ordered.exists_resolve (h : t.Ordered values) {slot : Nat} (hs : slot ∈ t.slots) :
    ∃ value ∈ values, t.resolve slot = .ok value := by
  have hmem : t.resolve slot ∈ values.map Except.ok := h.resolves ▸ List.mem_map_of_mem hs
  obtain ⟨value, hv, heq⟩ := List.mem_map.1 hmem
  exact ⟨value, hv, heq.symm⟩

theorem Ordered.mem_iff (h : t.Ordered values) {value : Bytes} :
    value ∈ values ↔ ∃ slot ∈ t.slots, t.resolve slot = .ok value := by
  have hmap : value ∈ values ↔ Except.ok value ∈ t.slots.map t.resolve := by
    rw [h.resolves]
    simp
  rw [hmap, List.mem_map]

theorem Ordered.find_eq_none_iff (h : t.Ordered values) {value : Bytes} :
    t.find value = .ok none ↔ ∀ slot ∈ t.slots, t.resolve slot ≠ .ok value := by
  have hnone : t.find value = .ok none ↔ value ∉ values := by
    rw [h.find_eq]
    by_cases hmem : value ∈ values <;> simp [hmem]
  rw [hnone, h.mem_iff]
  simp

theorem Ordered.remove_absent (h : t.Ordered values) {value : Bytes} (hm : value ∉ values) :
    t.remove value = .ok none := by
  rw [remove, h.search_eq, rankOf_of_not_mem hm]
  rfl

theorem Ordered.checkOrderFrom_eq (h : t.Ordered values) (before : Option Bytes) (n : Nat)
    (hb : ∀ b ∈ before, ∀ i (hi : i < values.length), n ≤ i → b < values[i]) :
    t.checkOrderFrom before n = .ok () := by
  fun_induction checkOrderFrom t before n with
  | case1 before n hlt damage hres =>
    rw [h.entries_eq] at hlt
    rw [h.resolve_slotAt hlt] at hres
    cases hres
  | case2 before n hlt value hres hany =>
    rw [h.entries_eq] at hlt
    rw [h.resolve_slotAt hlt] at hres
    cases hres
    cases before with
    | none => simp at hany
    | some b => exact absurd (hb b rfl n hlt (Nat.le_refl n)) (by simpa using hany)
  | case3 before n hlt value hres hany ih =>
    rw [h.entries_eq] at hlt
    rw [h.resolve_slotAt hlt] at hres
    cases hres
    apply ih
    intro b hmem i hi hle
    cases Option.mem_some.1 hmem
    exact h.ascending.getElem_lt hle hi
  | case4 => rfl

theorem Ordered.checkOrder_eq (h : t.Ordered values) : t.checkOrder = .ok () :=
  h.checkOrderFrom_eq none 0 (by simp)

theorem map_resolve_eq_iff (t : StringTable) (slots : List Nat) (values : List Bytes) :
    slots.map t.resolve = values.map .ok ↔
      List.Forall₂ (StandsAt t.parts.strings) slots values := by
  induction slots generalizing values with
  | nil => cases values <;> simp
  | cons slot rest ih => cases values <;> simp [ih, resolve_eq_ok_iff]

/-- What the check lets through is in order: from the `n`-th slot on there are strings, in ascending
order and above the one in front of them. -/
theorem exists_of_checkOrderFrom {before : Option Bytes} {n : Nat}
    (h : t.checkOrderFrom before n = .ok ()) :
    ∃ values, (t.slots.drop n).map t.resolve = values.map .ok ∧ Ascending values ∧
      ∀ b ∈ before, ∀ value ∈ values, b < value := by
  fun_induction checkOrderFrom t before n with
  | case1 before n hlt damage hres => cases h
  | case2 before n hlt value hres hany => cases h
  | case3 before n hlt value hres hany ih =>
    obtain ⟨values, hvalues, hascending, habove⟩ := ih h
    have hn : n < t.slots.length := by rwa [length_slots]
    have hslot : t.slots[n] = t.slotAt n := by simp [slots]
    have hhead : ∀ x ∈ values, value < x := habove value rfl
    refine ⟨value :: values, ?_, List.pairwise_cons.2 ⟨hhead, hascending⟩, ?_⟩
    · rw [List.drop_eq_getElem_cons hn, List.map_cons, hslot, hres, hvalues, List.map_cons]
    · intro b hb x hx
      have hlt : b < value := by
        cases Option.mem_def.1 hb
        simpa using hany
      rcases List.mem_cons.1 hx with rfl | hx
      · exact hlt
      · exact List.lt_trans hlt (hhead x hx)
  | case4 before n hlt =>
    refine ⟨[], ?_, List.Pairwise.nil, by simp⟩
    rw [List.drop_eq_nil_of_le (by rw [length_slots]; omega)]
    rfl

/-- The check passes exactly the tables that are in order. -/
theorem checkOrder_eq_ok_iff : t.checkOrder = .ok () ↔ ∃ values, t.Ordered values := by
  constructor
  · intro h
    obtain ⟨values, hvalues, hascending, -⟩ := exists_of_checkOrderFrom h
    exact ⟨values, by simpa using hvalues, hascending⟩
  · rintro ⟨values, h⟩
    exact h.checkOrder_eq

theorem lt_of_standsAt {area : Bytes} {slots : List Nat}
    (h : List.Forall₂ (StandsAt area) slots values) {slot : Nat} (hs : slot ∈ slots) :
    slot < area.length := by
  induction h with
  | nil => cases hs
  | cons hfirst _ ih =>
    rcases List.mem_cons.1 hs with rfl | hs
    · exact Nat.lt_of_le_of_lt (Nat.le_add_right _ _) hfirst.lt
    · exact ih hs

/-- The bytes are a whole table, whose slots point at the strings `values` in ascending order. Where
in the string area they stand is left open. -/
def Spells (bytes : Bytes) (values : List Bytes) : Prop :=
  (∃ (p : Parts) (slots : List Nat), bytes = p.encode ∧ p.index = Word.listToBytes slots ∧
    List.Forall₂ (StandsAt p.strings) slots values) ∧ Ascending values

theorem Ordered.spells (h : t.Ordered values) (hsized : t.parts.Sized) :
    Spells t.parts.encode values :=
  ⟨⟨t.parts, t.slots, rfl, index_eq hsized.whole,
    (map_resolve_eq_iff t t.slots values).1 h.resolves⟩, h.ascending⟩

/-- The checks on the bytes of a table come to this: it takes them all up and is in order. -/
theorem spells_iff {image : Image} (hbelow : image.size < Word.limit) (values : List Bytes) :
    Spells image.toList values ↔
      ∃ t, decode image = .ok t ∧ t.length = image.size ∧ t.Ordered values := by
  constructor
  · rintro ⟨⟨p, slots, hbytes, hindex, hstand⟩, hascending⟩
    have hlen : p.length = image.size := by
      rw [← Image.length_toList, hbytes, Parts.length_encode]
    have hsized : p.Sized := by
      constructor
      · rw [hindex, Word.length_listToBytes]
        exact Nat.mul_mod_right _ _
      · rwa [hlen]
    obtain ⟨t, ht, rfl⟩ := decode_of_encode hsized (hbytes.trans (List.append_nil _).symm)
    have hslot : ∀ slot ∈ slots, slot < Word.limit := by
      intro slot hs
      have hlt := lt_of_standsAt hstand hs
      unfold Parts.length Parts.indexOffset at hlen
      omega
    refine ⟨t, ht, by rw [← length_parts, hlen], ?_, hascending⟩
    rw [slots_of_index hindex hslot, map_resolve_eq_iff]
    exact hstand
  · rintro ⟨t, ht, hlen, hordered⟩
    obtain ⟨hsized, hbytes⟩ := encode_of_decode_whole ht hlen
    exact hbytes ▸ hordered.spells hsized

/-! Strings that need not be text. The check does not look at that, and the readers do. -/

theorem Ordered.textAt_cases (h : t.Ordered values) {n : Nat} (hn : n < values.length) :
    (∃ text, Text.bytes text = values[n] ∧ t.textAt (t.slotAt n) = .ok text) ∨
    (∀ text, Text.bytes text ≠ values[n]) ∧
      t.textAt (t.slotAt n) = .error (.notUtf8 (t.slotAt n)) := by
  rw [textAt, Steps.query_ok (h.resolve_slotAt hn)]
  cases htext : Text.ofBytes? values[n] with
  | some text => exact Or.inl ⟨text, Text.ofBytes?_eq_some_iff.1 htext, rfl⟩
  | none =>
    refine Or.inr ⟨?_, rfl⟩
    intro text heq
    rw [Text.ofBytes?_eq_some_iff.2 heq] at htext
    cases htext

theorem Ordered.ordinal_cases (h : t.Ordered values) (n : Nat) :
    (values.length ≤ n ∧ t.ordinal n = .ok none) ∨
    (∃ text, values[n]? = some (Text.bytes text) ∧ t.ordinal n = .ok (some text)) ∨
    (n < values.length ∧ (∀ text, values[n]? ≠ some (Text.bytes text)) ∧
      t.ordinal n = .error (.notUtf8 (t.slotAt n))) := by
  rw [ordinal, h.entries_eq]
  by_cases hn : n < values.length
  · rw [if_pos hn, List.getElem?_eq_getElem hn]
    rcases h.textAt_cases hn with ⟨text, hvalue, htext⟩ | ⟨hvalue, htext⟩
    · exact Or.inr (Or.inl ⟨text, by rw [hvalue], by rw [htext]; rfl⟩)
    · refine Or.inr (Or.inr ⟨hn, ?_, by rw [htext]; rfl⟩)
      intro text heq
      exact hvalue text (Option.some.inj heq).symm
  · rw [if_neg hn]
    exact Or.inl ⟨Nat.le_of_not_lt hn, rfl⟩

theorem Ordered.textsFrom_cases (h : t.Ordered values) (before : List String) (n : Nat) :
    (∃ texts, texts.map Text.bytes = values.drop n ∧
      t.textsFrom before n = .ok (before.reverse ++ texts)) ∨
    ∃ slot, (∃ value ∈ values, ∀ text, Text.bytes text ≠ value) ∧
      t.textsFrom before n = .error (.notUtf8 slot) := by
  fun_induction textsFrom t before n with
  | case1 before n hlt damage hres =>
    rw [h.entries_eq] at hlt
    rcases h.textAt_cases hlt with ⟨text, -, htext⟩ | ⟨hvalue, htext⟩
    · rw [htext] at hres
      cases hres
    · rw [htext] at hres
      cases hres
      exact Or.inr ⟨_, ⟨_, List.getElem_mem hlt, hvalue⟩, rfl⟩
  | case2 before n hlt text hres ih =>
    rw [h.entries_eq] at hlt
    rcases h.textAt_cases hlt with ⟨_, hvalue, htext⟩ | ⟨-, htext⟩
    · rw [htext] at hres
      cases hres
      rcases ih with ⟨texts, hrest, hread⟩ | hfail
      · refine Or.inl ⟨text :: texts, ?_, ?_⟩
        · rw [List.map_cons, hvalue, hrest, List.drop_eq_getElem_cons hlt]
        · rw [hread]
          simp
      · exact Or.inr hfail
    · rw [htext] at hres
      cases hres
  | case3 before n hlt =>
    rw [h.entries_eq] at hlt
    refine Or.inl ⟨[], ?_, by simp⟩
    rw [List.drop_eq_nil_of_le (Nat.le_of_not_lt hlt), List.map_nil]

/-! Text. Strings that were stored as text are read as text. -/

variable {texts : List String}

theorem Ordered.textAt_slotAt (h : t.Ordered (texts.map Text.bytes)) {n : Nat}
    (hn : n < texts.length) : t.textAt (t.slotAt n) = .ok texts[n] := by
  have hres := h.resolve_slotAt (n := n) (by simpa using hn)
  simp only [List.getElem_map] at hres
  rw [textAt, Steps.query_ok hres, Text.ofBytes?_bytes]

theorem Ordered.ordinal_eq (h : t.Ordered (texts.map Text.bytes)) (n : Nat) :
    t.ordinal n = .ok texts[n]? := by
  have he : t.entries = texts.length := by simpa using h.entries_eq
  rw [ordinal, he]
  split
  · rename_i hn
    rw [h.textAt_slotAt hn, List.getElem?_eq_getElem hn]
    rfl
  · rename_i hn
    rw [List.getElem?_eq_none (Nat.le_of_not_lt hn)]

theorem Ordered.find_text (h : t.Ordered (texts.map Text.bytes)) (text : String) :
    t.find (Text.bytes text) = .ok (texts.idxOf? text) := by
  rw [h.find_eq]
  by_cases hm : text ∈ texts
  · obtain ⟨n, hn, rfl⟩ := List.mem_iff_getElem.1 hm
    have hrank := h.ascending.rank_getElem (n := n) (by simpa using hn)
    rw [List.getElem_map] at hrank
    have hnodup : texts.Nodup := Text.nodup_map_bytes.1 h.ascending.nodup
    rw [if_pos (Text.mem_map_bytes.2 hm), hrank, eq_comm, Except.ok.injEq, List.idxOf?_eq_some_iff]
    refine ⟨hn, rfl, fun j hj heq => ?_⟩
    exact absurd ((hnodup.getElem_inj_iff).1 heq) (Nat.ne_of_lt hj)
  · rw [if_neg (mt Text.mem_map_bytes.1 hm), List.idxOf?_eq_none_iff.2 hm]

theorem Ordered.outcomes_eq (h : t.Ordered (texts.map Text.bytes)) :
    t.outcomes = texts.map .ok := by
  have he : t.entries = texts.length := by simpa using h.entries_eq
  apply List.ext_getElem
  · simp [outcomes, he]
  · intro n _ hn
    simp only [List.length_map] at hn
    simpa [outcomes, slots] using h.textAt_slotAt hn

theorem Ordered.texts_eq (h : t.Ordered (texts.map Text.bytes)) : t.texts = .ok texts := by
  rcases h.textsFrom_cases [] 0 with ⟨read, hread, htexts⟩ | ⟨slot, ⟨value, hvalue, hno⟩, -⟩
  · rw [List.drop_zero] at hread
    obtain rfl := List.map_injective_iff.2 (fun _ _ => Text.bytes_injective) hread
    exact htexts
  · obtain ⟨text, -, rfl⟩ := List.mem_map.1 hvalue
    exact absurd rfl (hno text)

end MediaLibrary.StringTable
