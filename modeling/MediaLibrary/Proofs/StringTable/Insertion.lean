import MediaLibrary.Proofs.StringTable.Resumption
import MediaLibrary.Proofs.StringTable.Sorting
/-! Adding to a table whose history is not known. The new string is laid behind the others, and then
all slots are sorted anew, by a reader that knows no damage. On a table in order the two readers
agree, so that what is left is what an insertion would leave at the place where the search missed
the string; and every slot that there was leads where it led. -/
namespace MediaLibrary.StringTable

open Bytes (ascending Ascending rank)

variable {σ : Type} {t pushed : StringTable} {values : List Bytes} {value : Bytes}

theorem StandsAt.append {area : Bytes} {offset : Nat} (h : StandsAt area offset value)
    (more : Bytes) : StandsAt (area ++ more) offset value := by
  have hlt := h.lt
  obtain ⟨hnul, rest, hrest⟩ := h
  refine ⟨hnul, rest ++ more, ?_⟩
  rw [List.drop_append_of_le_length (by omega), hrest]
  simp

theorem standsAt_concat (area : Bytes) (hnul : 0 ∉ value) :
    StandsAt (area ++ (value ++ [0])) area.length value :=
  ⟨hnul, [], by simp⟩

/-- The table with `value` behind the other strings, under a slot in front of the others. -/
def concat (t : StringTable) (value : Bytes) : StringTable where
  strings := t.strings ++ .ofBytes (value ++ [0])
  free := t.free.slice (value.length + 1) (t.free.size - roomFor value.length)
  index := indexOf (t.strings.size :: t.slots)

theorem eq_sort_of_push (h : t.push value = .ok pushed) : pushed = (t.concat value).sort := by
  unfold push at h
  split at h
  · exact (Except.ok.inj h).symm
  · cases h

namespace Ordered

/-- A new string is stored under a new slot, and sorting its slot in is inserting it at its rank. -/
theorem push (h : t.Ordered values) (hbelow : t.parts.length < Word.limit) (hnew : value ∉ values)
    (hnul : 0 ∉ value) (hpush : t.push value = .ok pushed) :
    pushed.slots.Perm (t.strings.size :: t.slots) ∧
    (∀ slot ∈ t.slots, pushed.resolve slot = t.resolve slot) ∧
    pushed.Ordered
      (values.take (rank values value) ++ value :: values.drop (rank values value)) := by
  have hold := (map_resolve_eq_iff t t.slots values).1 h.resolves
  have hstart : t.strings.size = t.parts.strings.length := by simp [parts]
  have hstrings : (t.concat value).parts.strings = t.parts.strings ++ (value ++ [0]) := by
    simp [concat, parts]
  have hbelow' : ∀ slot ∈ t.strings.size :: t.slots, slot < Word.limit := by
    unfold Parts.length Parts.indexOffset at hbelow
    intro slot hslot
    rcases List.mem_cons.1 hslot with rfl | hslot
    · omega
    · have := lt_of_standsAt hold hslot
      omega
  have hslots : (t.concat value).slots = t.strings.size :: t.slots := by
    refine slots_of_index ?_ hbelow'
    simp [concat, parts, indexOf]
  have hstand : List.Forall₂ (StandsAt (t.concat value).parts.strings) (t.concat value).slots
      (value :: values) := by
    rw [hslots, hstrings, hstart]
    exact List.Forall₂.cons (standsAt_concat _ hnul) (hold.imp fun _ _ hs => hs.append _)
  obtain rfl := eq_sort_of_push hpush
  have hsorts : (t.concat value).Sorts (t.concat value).sort := by
    apply sorts_sort
    simp [concat, parts, indexOf, Word.length_listToBytes, slotSize]
  have hordered :=
    hsorts.ordered_of_standsAt hstand (List.nodup_cons.2 ⟨hnew, h.ascending.nodup⟩)
  rw [h.ascending.ascending_cons hnew] at hordered
  refine ⟨hslots ▸ hsorts.perm, ?_, hordered⟩
  intro slot hslot
  obtain ⟨other, -, hother⟩ := h.exists_resolve hslot
  have hstill := ((resolve_eq_ok_iff t slot other).1 hother).append (value ++ [0])
  rw [hother]
  refine (resolve_eq_ok_iff _ _ _).2 ?_
  show StandsAt (t.concat value).parts.strings slot other
  rwa [hstrings]

end Ordered

/-- Adding a new string to a table that passes the checks, whatever its slots point into, in storage
that opens the gaps that are needed. The string is stored, the table passes the checks again, every
slot that it had leads where it led, and the strings are those that there were with the new one at
the place where the search missed it. -/
theorem add_inserts {host : Host σ} (hhost : host.Dependable) {s grown : σ} {base quantum : Nat}
    (hopen : decodeAt (host.image s) base = .ok t) (hvalid : t.checkOrder = .ok ())
    (habsent : ∀ slot ∈ t.slots, t.resolve slot ≠ .ok value) (hnul : 0 ∉ value)
    (hq : 0 < quantum)
    (hgrow : growTimes host base quantum (t.stepsFor value quantum) s = .ok () grown) :
    ∃ (s' : σ) (t' : StringTable) (values : List Bytes) (n : Nat),
      add host base value quantum s = .ok () s' ∧
      decodeAt (host.image s') base = .ok t' ∧ t'.checkOrder = .ok () ∧
      (∀ slot ∈ t.slots, slot ∈ t'.slots ∧ t'.resolve slot = t.resolve slot) ∧
      t.slots.map t.resolve = values.map .ok ∧ t.search value = .ok (.absent n) ∧
      t'.slots.map t'.resolve = (values.take n ++ value :: values.drop n).map .ok := by
  obtain ⟨values, hordered⟩ := checkOrder_eq_ok_iff.1 hvalid
  have hfind := hordered.find_eq_none_iff.2 habsent
  have hnew : value ∉ values := by
    rw [hordered.mem_iff, not_exists]
    simpa using habsent
  obtain ⟨before, after, rfl, hlacks⟩ := Host.Lacks.of_decodeAt hopen hvalid hfind
  obtain ⟨hsized, -⟩ := hhost.growTimes_ok _ hlacks.sized hlacks.bytes hgrow
  obtain ⟨pushed, s', hpush, hstored, hs'⟩ := hlacks.pushAt_wide hhost hq hgrow
  rw [← parts_widen] at hsized
  generalize hwide : t.widen (t.stepsFor value quantum * quantum) = wide at hpush hsized
  have hstrings : wide.parts.strings = t.parts.strings := by rw [← hwide, parts_widen, Parts.widen]
  have hindex : wide.parts.index = t.parts.index := by rw [← hwide, parts_widen, Parts.widen]
  obtain ⟨hperm, hkept, hinserted⟩ :=
    (hordered.congr hstrings hindex).push hsized.below hnew hnul hpush
  rw [slots_congr hindex] at hperm hkept
  rw [resolve_congr hstrings] at hkept
  obtain ⟨hsized', -⟩ := sized_push hsized hpush
  obtain ⟨t', ht', hparts⟩ := (hhost.exposes before after).tableAt_eq hsized' hs'
  have hstrings' := congrArg Parts.strings hparts
  have hindex' := congrArg Parts.index hparts
  have hinserted' := hinserted.congr hstrings' hindex'
  refine ⟨s', t', values, rank values value, ?_, Steps.ofCheck_eq_ok_iff.1 ht',
    hinserted'.checkOrder_eq, ?_, hordered.resolves, ?_, hinserted'.resolves⟩
  · rw [hlacks.add_eq hhost hnul hq, Steps.bind_ok hgrow, hstored]
  · intro slot hslot
    rw [slots_congr hindex', resolve_congr hstrings']
    exact ⟨hperm.mem_iff.2 (List.mem_cons_of_mem _ hslot), hkept slot hslot⟩
  · rw [hordered.search_eq, rankOf_of_not_mem hnew]

/-- Adding `aba` between `ab` and `b`, which share their bytes, to a table that is full. -/
theorem add_inserts_tails : ∃ (image image' : Image) (t t' : StringTable),
    decodeAt image 4 = .ok t ∧ t.slots.map t.resolve = [[], [97, 98], [98]].map .ok ∧
    add Host.memory 4 (Text.bytes "aba") 3 image = .ok () image' ∧
    decodeAt image' 4 = .ok t' ∧ t'.checkOrder = .ok () ∧
    t'.slots.map t'.resolve = [[], [97, 98], [97, 98, 97], [98]].map .ok := by
  let image : Image := .blank 4 ++ .ofBytes (Header.mk magic 31 19 3).encode ++
    .ofBytes [97, 98, 0] ++ indexOf [2, 0, 1]
  let t : StringTable :=
    ⟨⟨[.stored #[97, 98, 0]]⟩, ⟨[]⟩, ⟨[.stored #[0, 0, 0, 2, 0, 0, 0, 0, 0, 0, 0, 1]]⟩⟩
  have hopen : decodeAt image 4 = .ok t := by cbv
  have hvalid : t.checkOrder = .ok () := by cbv
  have hvalues : t.slots.map t.resolve = [[], [97, 98], [98]].map .ok := by cbv
  have hmiss : t.search (Text.bytes "aba") = .ok (.absent 2) := by cbv
  have habsent : ∀ slot ∈ t.slots, t.resolve slot ≠ .ok (Text.bytes "aba") := by
    obtain ⟨values, hordered⟩ := checkOrder_eq_ok_iff.1 hvalid
    rw [← hordered.find_eq_none_iff, find, hmiss]
    rfl
  have hgrow : growTimes Host.memory 4 3 (t.stepsFor (Text.bytes "aba") 3) image = .ok ()
      ⟨[.zeros 4, .stored #[18, 52, 67, 33, 0, 0, 0, 40, 0, 0, 0, 28, 0, 0, 0, 3, 97, 98, 0],
        .zeros 9, .stored #[0, 0, 0, 2, 0, 0, 0, 0, 0, 0, 0, 1]]⟩ := by cbv
  obtain ⟨image', t', values, n, hadd, hopen', hvalid', -, hread, hsearch, hinserted⟩ :=
    add_inserts Host.memory_dependable hopen hvalid habsent (by decide) (by decide) hgrow
  have hinjective : Function.Injective (Except.ok : Bytes → Except TableDamage Bytes) :=
    fun _ _ => Except.ok.inj
  obtain rfl := List.map_injective_iff.2 hinjective (hread.symm.trans hvalues)
  obtain rfl := Rank.absent.inj (Except.ok.inj (hsearch.symm.trans hmiss))
  exact ⟨image, image', t, t', hopen, hvalues, hadd, hopen', hvalid', hinserted⟩

end MediaLibrary.StringTable
