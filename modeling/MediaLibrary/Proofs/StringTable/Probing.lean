import MediaLibrary.Proofs.StringTable.Order
import MediaLibrary.Proofs.StringTable.Guarded
/-! The binary search and the linear one. On a table in order, whatever its slots point at, the search
finds what a look at one slot after the other finds, and where it finds nothing it has counted the
strings that are smaller. It looks at few slots, all of them in the index, and at nothing else. -/
namespace MediaLibrary.StringTable

open Bytes (rank)

/-- The first slot that leads to `target`, looking at one after the other. -/
def scan (t : StringTable) (target : Bytes) : Option Nat :=
  t.slots.findIdx? fun slot => t.resolve slot = .ok target

def smaller (t : StringTable) (target : Bytes) : Nat :=
  t.slots.countP fun slot => (t.resolve slot).toOption.any (· < target)

/-- The slots that the search from `low` up to `high` looks at, one after the other. -/
def probesBetween (t : StringTable) (target : Bytes) (low high : Nat) : List Nat :=
  if low < high then
    let middle := low + (high - low) / 2
    match t.resolve (t.slotAt middle) with
    | .error _ => [middle]
    | .ok probe =>
      if probe < target then middle :: probesBetween t target (middle + 1) high
      else if target < probe then middle :: probesBetween t target low middle
      else [middle]
  else []
termination_by high - low

def probes (t : StringTable) (target : Bytes) : List Nat := t.probesBetween target 0 t.entries

variable {t t' : StringTable} {target : Bytes} {values : List Bytes}

theorem mem_probesBetween {low high n : Nat} (h : n ∈ t.probesBetween target low high) :
    low ≤ n ∧ n < high := by
  fun_induction probesBetween t target low high with
  | case1 low high hlt middle damage hread =>
    obtain rfl := List.mem_singleton.1 h
    omega
  | case2 low high hlt middle probe hread hless ih =>
    rcases List.mem_cons.1 h with rfl | h
    · omega
    · have := ih h
      omega
  | case3 low high hlt middle probe hread hnot hless ih =>
    rcases List.mem_cons.1 h with rfl | h
    · omega
    · have := ih h
      omega
  | case4 low high hlt middle probe hread hnot hnot' =>
    obtain rfl := List.mem_singleton.1 h
    omega
  | case5 low high hlt => cases h

theorem one_le_of_lt_pow {low high k : Nat} (h : high - low < 2 ^ k) (hlt : low < high) :
    1 ≤ k := by
  rcases Nat.eq_zero_or_pos k with rfl | hpos
  · rw [Nat.pow_zero] at h
    omega
  · exact hpos

/-- Each look leaves less than half of the slots: `k` looks are enough for fewer than `2 ^ k`. -/
theorem length_probesBetween_le (t : StringTable) (target : Bytes) {low high : Nat} (k : Nat)
    (h : high - low < 2 ^ k) : (t.probesBetween target low high).length ≤ k := by
  fun_induction probesBetween t target low high generalizing k with
  | case1 low high hlt middle damage hread => exact one_le_of_lt_pow h hlt
  | case2 low high hlt middle probe hread hless ih =>
    obtain ⟨k, rfl⟩ := Nat.exists_eq_succ_of_ne_zero (Nat.ne_of_gt (one_le_of_lt_pow h hlt))
    rw [Nat.pow_succ] at h
    exact Nat.succ_le_succ (ih k (by omega))
  | case3 low high hlt middle probe hread hnot hless ih =>
    obtain ⟨k, rfl⟩ := Nat.exists_eq_succ_of_ne_zero (Nat.ne_of_gt (one_le_of_lt_pow h hlt))
    rw [Nat.pow_succ] at h
    exact Nat.succ_le_succ (ih k (by omega))
  | case4 low high hlt middle probe hread hnot hnot' => exact one_le_of_lt_pow h hlt
  | case5 low high hlt => exact Nat.zero_le k

/-- The answer comes from the slots that are looked at and from no others. -/
theorem searchBetween_congr {low high : Nat}
    (h : ∀ n ∈ t.probesBetween target low high,
      t'.resolve (t'.slotAt n) = t.resolve (t.slotAt n)) :
    t'.searchBetween target low high = t.searchBetween target low high := by
  fun_induction probesBetween t target low high with
  | case1 low high hlt middle damage hread =>
    have hsame := h middle List.mem_cons_self
    rw [hread] at hsame
    rw [searchBetween, searchBetween, if_pos hlt, if_pos hlt]
    simp only [middle] at hread hsame
    simp only [hread, hsame]
  | case2 low high hlt middle probe hread hless ih =>
    have hsame := h middle List.mem_cons_self
    have hrest := ih fun n hn => h n (List.mem_cons_of_mem _ hn)
    rw [hread] at hsame
    rw [searchBetween, if_pos hlt, searchBetween.eq_def t, if_pos hlt]
    simp only [middle] at hread hsame hrest
    simp only [hread, hsame, if_pos hless]
    exact hrest
  | case3 low high hlt middle probe hread hnot hless ih =>
    have hsame := h middle List.mem_cons_self
    have hrest := ih fun n hn => h n (List.mem_cons_of_mem _ hn)
    rw [hread] at hsame
    rw [searchBetween, if_pos hlt, searchBetween.eq_def t, if_pos hlt]
    simp only [middle] at hread hsame hrest
    simp only [hread, hsame, if_neg hnot, if_pos hless]
    exact hrest
  | case4 low high hlt middle probe hread hnot hnot' =>
    have hsame := h middle List.mem_cons_self
    rw [hread] at hsame
    rw [searchBetween, searchBetween, if_pos hlt, if_pos hlt]
    simp only [middle] at hread hsame
    simp only [hread, hsame, if_neg hnot, if_neg hnot']
  | case5 low high hlt => rw [searchBetween, searchBetween, if_neg hlt, if_neg hlt]

namespace Ordered

theorem getElem?_eq_some_iff (h : t.Ordered values) {n : Nat} :
    values[n]? = some target ↔ ∃ slot, t.slots[n]? = some slot ∧ t.resolve slot = .ok target := by
  have hget := congrArg (·[n]?) h.resolves
  simp only [List.getElem?_map] at hget
  cases hslot : t.slots[n]? <;> cases hvalue : values[n]? <;> simp_all

theorem scan_eq (h : t.Ordered values) (target : Bytes) :
    t.scan target = if target ∈ values then some (rank values target) else none := by
  have hscan : t.scan target = values.idxOf? target := by
    have hmap : t.scan target = (t.slots.map t.resolve).findIdx? (· = .ok target) := by
      rw [scan, List.findIdx?_map]
      rfl
    rw [hmap, h.resolves, List.findIdx?_map, List.idxOf?]
    congr 1
    funext value
    rw [Function.comp_apply, Bool.eq_iff_iff, decide_eq_true_eq, beq_iff_eq, Except.ok.injEq]
  rw [hscan]
  by_cases hmem : target ∈ values
  · obtain ⟨hrank, hget⟩ := h.ascending.rank_lt_of_mem hmem
    rw [if_pos hmem, List.idxOf?_eq_some_iff]
    refine ⟨hrank, hget, ?_⟩
    intro n hn heq
    have hlt := h.ascending.getElem_lt hn hrank
    rw [heq, hget] at hlt
    exact Bytes.lt_irrefl _ hlt
  · rw [if_neg hmem, List.idxOf?_eq_none_iff.2 hmem]

theorem find_eq_some_iff (h : t.Ordered values) {n : Nat} :
    t.find target = .ok (some n) ↔ values[n]? = some target := by
  rw [h.find_eq]
  constructor
  · intro hfind
    split at hfind
    · rename_i hmem
      obtain ⟨hrank, hget⟩ := h.ascending.rank_lt_of_mem hmem
      obtain rfl := Option.some.inj (Except.ok.inj hfind)
      rw [List.getElem?_eq_getElem hrank, hget]
    · cases hfind
  · intro hget
    obtain ⟨hn, rfl⟩ := List.getElem?_eq_some_iff.1 hget
    rw [if_pos (List.getElem_mem hn), h.ascending.rank_getElem hn]

theorem smaller_eq (h : t.Ordered values) (target : Bytes) :
    t.smaller target = rank values target := by
  have hcount : t.smaller target
      = (t.slots.map t.resolve).countP fun r => r.toOption.any (· < target) := by
    rw [smaller, List.countP_map]
    rfl
  rw [hcount, h.resolves, List.countP_map, rank]
  rfl

end Ordered

/-- The search of a table that passes the checks, in whatever order its strings stand: it agrees with
the linear scan, a miss tells how many strings are smaller, and it looks at no more slots than can be
halved, all of them in the index. On the plain bytes, with every access checked, it answers too. -/
theorem find_eq_scan {image : Image} {base : Nat} (hopen : openAt image base = .ok t)
    (hvalid : t.checkOrder = .ok ()) (target : Bytes) :
    t.find target = .ok (t.scan target) ∧
    (∀ n, t.find target = .ok (some n) ↔
      ∃ slot, t.slots[n]? = some slot ∧ t.resolve slot = .ok target) ∧
    (t.find target = .ok none ↔ ∀ slot ∈ t.slots, t.resolve slot ≠ .ok target) ∧
    (t.find target = .ok none → t.search target = .ok (.absent (t.smaller target))) ∧
    (t.probes target).length ≤ Nat.log2 t.entries + 1 ∧
    (∀ n ∈ t.probes target, n < t.entries) ∧
    (∀ t' : StringTable, t'.entries = t.entries →
      (∀ n ∈ t.probes target, t'.resolve (t'.slotAt n) = t.resolve (t.slotAt n)) →
      t'.search target = t.search target) ∧
    (Guarded.view (image.toList.drop base) >>= fun bytes => Guarded.find bytes target)
      = .ok (t.scan target) := by
  obtain ⟨values, h⟩ := checkOrder_eq_ok_iff.1 hvalid
  have hfind : t.find target = .ok (t.scan target) := by rw [h.find_eq, h.scan_eq]
  refine ⟨hfind, ?_, h.find_eq_none_iff, ?_, ?_, ?_, ?_, ?_⟩
  · intro n
    rw [h.find_eq_some_iff, h.getElem?_eq_some_iff]
  · intro hmiss
    have hmem : target ∉ values := by
      rw [h.mem_iff, not_exists]
      simpa using h.find_eq_none_iff.1 hmiss
    rw [h.search_eq, rankOf_of_not_mem hmem, h.smaller_eq]
  · apply length_probesBetween_le
    rw [Nat.sub_zero]
    exact Nat.lt_log2_self
  · intro n hn
    exact (mem_probesBetween hn).2
  · intro t' hentries hsame
    rw [search, hentries]
    exact searchBetween_congr hsame
  · obtain ⟨hsized, -⟩ := encode_of_openAt hopen
    obtain ⟨-, hdecode⟩ := decode_of_openAt hopen
    rw [← Image.toList_drop, Guarded.view_eq, hdecode]
    show Guarded.find t.parts.encode target = _
    rw [Guarded.find_eq hsized, hfind]
    rfl

/-- Slots may point into one string: of `ab` and its zero byte, at all three places. -/
theorem find_eq_scan_tails : ∃ (image : Image) (t : StringTable),
    openAt image 4 = .ok t ∧ t.checkOrder = .ok () ∧ t.slots = [2, 0, 1] ∧
    t.find (Text.bytes "b") = .ok (some 2) ∧ t.search (Text.bytes "aba") = .ok (.absent 2) ∧
    t.smaller (Text.bytes "aba") = 2 ∧ (t.probes (Text.bytes "aba")).length ≤ 2 := by
  let image : Image := .blank 4 ++ .ofBytes (Header.mk magic 31 19 3).encode ++
    .ofBytes [97, 98, 0] ++ indexOf [2, 0, 1]
  let t : StringTable :=
    ⟨⟨[.stored #[97, 98, 0]]⟩, ⟨[]⟩, ⟨[.stored #[0, 0, 0, 2, 0, 0, 0, 0, 0, 0, 0, 1]]⟩⟩
  have hopen : openAt image 4 = .ok t := by cbv
  have hvalid : t.checkOrder = .ok () := by cbv
  have hb : Text.bytes "b" = [98] := rfl
  have haba : Text.bytes "aba" = [97, 98, 97] := rfl
  have hsmaller : t.smaller (Text.bytes "aba") = 2 := by
    rw [haba]
    cbv
  have hscan : t.scan (Text.bytes "b") = some 2 := by
    rw [hb]
    cbv
  have hmiss : t.scan (Text.bytes "aba") = none := by
    rw [haba]
    cbv
  obtain ⟨hhit, -⟩ := find_eq_scan hopen hvalid (Text.bytes "b")
  obtain ⟨hfind, -, -, habsent, hlength, -⟩ := find_eq_scan hopen hvalid (Text.bytes "aba")
  rw [hscan] at hhit
  rw [hmiss] at hfind
  have hsearch := habsent hfind
  have hbound : Nat.log2 t.entries + 1 = 2 := by cbv
  rw [hsmaller] at hsearch
  rw [hbound] at hlength
  exact ⟨image, t, hopen, hvalid, by cbv, hhit, hsearch, hsmaller, hlength⟩

end MediaLibrary.StringTable
