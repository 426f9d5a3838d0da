import MediaLibrary.Proofs.Bytes.Field
import MediaLibrary.Proofs.StringTable.Packed
/-! Sorting the slots of a table, whatever they point at. Sorting knows no damage: past the area it
finds an empty string, and one that does not end goes on to the end of the area. The check is
strict. Where a slot can be followed the two see the same string, so that sorting repairs exactly the
tables whose slots lead to different strings. The order of slots with equal strings is left open, as
are the ways to sort. -/
namespace MediaLibrary.StringTable

open Bytes (Ascending ascending)

/-- `sorted` is `t` with its slots in ascending order of what sorting sees. -/
structure Sorts (t sorted : StringTable) : Prop where
  strings : sorted.parts.strings = t.parts.strings
  free : sorted.parts.free = t.parts.free
  size : sorted.parts.index.length = t.parts.index.length
  perm : sorted.slots.Perm t.slots
  ordered : sorted.slots.Pairwise fun first second => ¬ t.sortKey second < t.sortKey first

/-- Every slot leads to a string that ends in the area, and no two lead to the same one. -/
def LeadsApart (t : StringTable) : Prop :=
  ∃ values, List.Forall₂ (StandsAt t.parts.strings) t.slots values ∧ values.Nodup

variable {t t' sorted : StringTable}

theorem slot_lt (h : t.parts.index.length % slotSize = 0) {slot : Nat} (hs : slot ∈ t.slots) :
    slot < Word.limit := by
  obtain ⟨n, hn, rfl⟩ := List.mem_map.1 hs
  rw [List.mem_range, entries_eq] at hn
  rw [slotAt_eq]
  apply Word.ofBytes_lt
  rw [Bytes.length_slice]
  unfold slotSize Word.size at *
  omega

theorem slots_sort (h : t.parts.index.length % slotSize = 0) :
    t.sort.slots = t.sortSlots t.slots := by
  apply slots_of_index
  · simp [sort, parts, indexOf]
  · intro slot hslot
    exact slot_lt h ((t.sortSlots_perm t.slots).mem_iff.1 hslot)

theorem sorts_sort (h : t.parts.index.length % slotSize = 0) : t.Sorts t.sort where
  strings := rfl
  free := rfl
  size := by
    have hslots : slotSize * t.entries = t.parts.index.length := by
      rw [entries_eq, Nat.mul_div_cancel' (Nat.dvd_of_mod_eq_zero h)]
    rw [← hslots]
    simp [sort, parts, indexOf, Word.length_listToBytes, slotSize]
  perm := slots_sort h ▸ t.sortSlots_perm t.slots
  ordered := slots_sort h ▸ t.pairwise_sortSlots t.slots

theorem resolve_of_standsAt {slot : Nat} {value : Bytes} (h : StandsAt t.parts.strings slot value) :
    t.sortKey slot = value ∧ t.resolve slot = .ok value :=
  ⟨by rw [sortKey_eq, h.untilZero_eq], (resolve_eq_ok_iff t slot value).2 h⟩

theorem resolve_eq_sortKey {slot : Nat} (h : ∃ value, StandsAt t.parts.strings slot value) :
    t.resolve slot = .ok (t.sortKey slot) := by
  obtain ⟨value, hvalue⟩ := h
  obtain ⟨hkey, hresolve⟩ := resolve_of_standsAt hvalue
  rw [hkey, hresolve]

theorem map_sortKey_eq {slots : List Nat} {values : List Bytes}
    (h : List.Forall₂ (StandsAt t.parts.strings) slots values) : slots.map t.sortKey = values := by
  rw [← List.forall₂_eq_eq_eq, List.forall₂_map_left_iff]
  exact h.imp fun slot value hs => (resolve_of_standsAt hs).1

theorem standsAt_of_mem {area : Bytes} {slots : List Nat} {values : List Bytes}
    (h : List.Forall₂ (StandsAt area) slots values) :
    ∀ slot ∈ slots, ∃ value, StandsAt area slot value := by
  induction h with
  | nil => simp
  | cons hfirst _ ih => exact List.forall_mem_cons.2 ⟨⟨_, hfirst⟩, ih⟩

theorem leadsApart_iff : t.LeadsApart ↔
    (∀ slot ∈ t.slots, ∃ value, StandsAt t.parts.strings slot value)
      ∧ (t.slots.map t.sortKey).Nodup := by
  constructor
  · rintro ⟨values, hstand, hnodup⟩
    exact ⟨standsAt_of_mem hstand, (map_sortKey_eq hstand).symm ▸ hnodup⟩
  · rintro ⟨hstand, hnodup⟩
    refine ⟨_, (map_resolve_eq_iff t t.slots _).1 ?_, hnodup⟩
    rw [List.map_map]
    exact List.map_congr_left fun slot hslot => resolve_eq_sortKey (hstand slot hslot)

namespace Sorts

theorem sortKey_eq (h : t.Sorts sorted) : sorted.sortKey = t.sortKey := sortKey_congr h.strings

theorem keys_perm (h : t.Sorts sorted) :
    (sorted.slots.map sorted.sortKey).Perm (t.slots.map t.sortKey) :=
  h.sortKey_eq ▸ h.perm.map t.sortKey

theorem of_parts (h : t.Sorts sorted) (hparts : t'.parts = sorted.parts) : t.Sorts t' where
  strings := by rw [hparts, h.strings]
  free := by rw [hparts, h.free]
  size := by rw [hparts, h.size]
  perm := slots_congr (congrArg Parts.index hparts) ▸ h.perm
  ordered := slots_congr (congrArg Parts.index hparts) ▸ h.ordered

theorem keys_ascending (h : t.Sorts sorted) (hdistinct : (t.slots.map t.sortKey).Nodup) :
    Ascending (sorted.slots.map sorted.sortKey) := by
  refine Bytes.ascending_of_nodup (List.pairwise_map.2 ?_) (h.keys_perm.nodup_iff.2 hdistinct)
  rw [h.sortKey_eq]
  exact h.ordered

theorem ordered_of_standsAt (h : t.Sorts sorted) {values : List Bytes}
    (hstand : List.Forall₂ (StandsAt t.parts.strings) t.slots values) (hnodup : values.Nodup) :
    sorted.Ordered (ascending values) := by
  have hkeys := map_sortKey_eq hstand
  have hperm := h.keys_perm
  rw [hkeys] at hperm
  have hsorted : sorted.slots.map sorted.sortKey = ascending values :=
    (h.keys_ascending (hkeys.symm ▸ hnodup)).eq_of_perm (Bytes.ascending_ascending hnodup)
      (hperm.trans (Bytes.ascending_perm values).symm)
  refine ⟨?_, Bytes.ascending_ascending hnodup⟩
  rw [← hsorted, List.map_map]
  refine List.map_congr_left fun slot hslot => resolve_eq_sortKey ?_
  rw [h.strings]
  exact standsAt_of_mem hstand slot (h.perm.mem_iff.1 hslot)

theorem leadsApart_iff (h : t.Sorts sorted) : sorted.LeadsApart ↔ t.LeadsApart := by
  rw [StringTable.leadsApart_iff, StringTable.leadsApart_iff, h.strings, h.keys_perm.nodup_iff]
  exact and_congr_left fun _ => forall_congr' fun slot => by rw [h.perm.mem_iff]

theorem checkOrder_eq_ok_iff (h : t.Sorts sorted) : sorted.checkOrder = .ok () ↔ t.LeadsApart := by
  rw [StringTable.checkOrder_eq_ok_iff]
  constructor
  · rintro ⟨values, hordered⟩
    exact h.leadsApart_iff.1
      ⟨values, (map_resolve_eq_iff _ _ _).1 hordered.resolves, hordered.ascending.nodup⟩
  · rintro ⟨values, hstand, hnodup⟩
    exact ⟨_, h.ordered_of_standsAt hstand hnodup⟩

/-- There is one order of slots whose strings differ, however they were ordered before. -/
theorem slots_eq {u sorted' : StringTable} (h : t.Sorts sorted) (h' : u.Sorts sorted')
    (hdistinct : (t.slots.map t.sortKey).Nodup) (hstrings : u.parts.strings = t.parts.strings)
    (hslots : u.slots.Perm t.slots) : sorted'.slots = sorted.slots := by
  have hkeys : u.sortKey = t.sortKey := sortKey_congr hstrings
  have hordered := hkeys ▸ h'.ordered
  have hperm : sorted'.slots.Perm t.slots := h'.perm.trans hslots
  refine List.Perm.eq_of_pairwise ?_ hordered h.ordered (hperm.trans h.perm.symm)
  intro first second hfirst hsecond hle hge
  exact List.inj_on_of_nodup_map hdistinct (hperm.mem_iff.1 hfirst) (h.perm.mem_iff.1 hsecond)
    (Bytes.eq_of_not_lt hge hle)

theorem parts_eq (h : t.Sorts sorted) (h' : sorted.Sorts t')
    (hwhole : t.parts.index.length % slotSize = 0)
    (hdistinct : (t.slots.map t.sortKey).Nodup) : t'.parts = sorted.parts := by
  have hslots := h.slots_eq h' hdistinct h.strings h.perm
  refine Parts.ext h'.strings h'.free ?_
  rw [index_eq (by rw [h'.size, h.size, hwhole]), index_eq (by rw [h.size, hwhole]), hslots]

theorem confined (h : t.Sorts sorted) (before after : Bytes) :
    Bytes.Confined (before.length + t.indexOffset) (before.length + t.length)
      (before ++ t.parts.encode ++ after) (before ++ sorted.parts.encode ++ after) := by
  have hheader : sorted.parts.header = t.parts.header := by
    unfold Parts.header Parts.length Parts.indexOffset
    rw [h.strings, h.free, h.size]
  let front := before ++ (t.parts.header.encode ++ t.parts.strings ++ t.parts.free)
  have hbytes : before ++ t.parts.encode ++ after = front ++ t.parts.index ++ after := by
    simp only [front, Parts.encode, List.append_assoc]
  have hbytes' : before ++ sorted.parts.encode ++ after = front ++ sorted.parts.index ++ after := by
    simp only [front, Parts.encode, hheader, h.strings, h.free, List.append_assoc]
  have hstart : front.length = before.length + t.indexOffset := by
    simp [front, Header.length_encode, ← indexOffset_parts, Parts.indexOffset, Nat.add_assoc]
  have hstop : front.length + t.parts.index.length = before.length + t.length := by
    rw [hstart, ← length_parts, Parts.length, indexOffset_parts, Nat.add_assoc]
  rw [hbytes, hbytes', ← hstart, ← hstop]
  exact Bytes.confined_middle front t.parts.index after h.size

end Sorts

theorem sortAt_of_openAt {image : Image} {base : Nat} (h : openAt image base = .ok t) :
    ∃ image' t', sortAt image base = .ok image' ∧ openAt image' base = .ok t' ∧ t.Sorts t' ∧
      t'.parts = t.sort.parts ∧ ∃ before after, before.length = base ∧
        image.toList = before ++ t.parts.encode ++ after ∧
        image'.toList = before ++ t'.parts.encode ++ after := by
  obtain ⟨hsized, before, after, himage, rfl⟩ := encode_of_openAt h
  have hsorts := sorts_sort hsized.whole
  have hlen : t.sort.parts.length = t.parts.length := by
    unfold Parts.length Parts.indexOffset
    rw [hsorts.strings, hsorts.free, hsorts.size]
  have hsame : t.sort.parts.encode.length = t.parts.encode.length := by
    rw [Parts.length_encode, Parts.length_encode, hlen]
  have himage' : (image.overlay before.length t.sort.encode).toList
      = before ++ t.sort.parts.encode ++ after := by
    rw [Image.toList_overlay, himage, toList_encode, Bytes.overlay_middle _ _ _ _ hsame]
  have hsized' : t.sort.parts.Sized :=
    ⟨by rw [hsorts.size, hsized.whole], by rw [hlen]; exact hsized.below⟩
  obtain ⟨t', hopen', hparts⟩ := openAt_of_encode hsized' himage'
  refine ⟨_, t', Steps.query_ok h, hopen', hsorts.of_parts hparts, hparts, before, after, rfl,
    himage, ?_⟩
  rw [hparts, himage']

/-- Sorting any table that can be opened, whatever its slots hold. It changes bytes of the index
alone, and leaves the slots that there were in the order of what sorting sees. After it the check
passes if and only if every slot leads to a string that ends in the area and no two lead to the
same. If what sorting sees differs from slot to slot, then tables with the same strings and the same
set of slots come out with the same slots, and sorting again changes nothing. -/
theorem sortAt_settles {image : Image} {base : Nat} (h : openAt image base = .ok t) :
    (∃ image' t', sortAt image base = .ok image' ∧ openAt image' base = .ok t' ∧ t.Sorts t' ∧
      Bytes.Confined (base + t.indexOffset) (base + t.length) image.toList image'.toList)
    ∧ (∀ sorted, t.Sorts sorted → (sorted.checkOrder = .ok () ↔ t.LeadsApart))
    ∧ ((t.slots.map t.sortKey).Nodup →
      (∀ sorted (u sorted' : StringTable), t.Sorts sorted → u.parts.strings = t.parts.strings →
        (u.slots.map u.sortKey).Nodup → (∀ slot, slot ∈ u.slots ↔ slot ∈ t.slots) →
        u.Sorts sorted' → sorted'.slots = sorted.slots)
      ∧ (∀ sorted again, t.Sorts sorted → sorted.Sorts again → again.parts = sorted.parts)
      ∧ ∀ image', sortAt image base = .ok image' →
        ∃ image'', sortAt image' base = .ok image'' ∧ image''.toList = image'.toList) := by
  have hwhole := (encode_of_openAt h).1.whole
  obtain ⟨image', t', hsort, hopen', hsorts, -, before, after, hbase, hbytes, hbytes'⟩ :=
    sortAt_of_openAt h
  refine ⟨⟨image', t', hsort, hopen', hsorts, ?_⟩, fun _ hs => hs.checkOrder_eq_ok_iff,
    fun hdistinct => ⟨?_, fun _ _ hs ha => hs.parts_eq ha hwhole hdistinct, ?_⟩⟩
  · rw [hbytes, hbytes', ← hbase]
    exact hsorts.confined before after
  · intro sorted u sorted' hs hstrings hdistinct' hmem hs'
    refine hs.slots_eq hs' hdistinct hstrings ?_
    exact (List.perm_ext_iff_of_nodup (.of_map _ hdistinct') (.of_map _ hdistinct)).2 hmem
  · intro image₁ hsort₁
    obtain rfl := Except.ok.inj (hsort₁.symm.trans hsort)
    obtain ⟨image'', t'', hsort', -, hsorts', -, before', after', hbase', hsame, hagain⟩ :=
      sortAt_of_openAt hopen'
    refine ⟨image'', hsort', ?_⟩
    rw [hagain, hsorts.parts_eq hsorts' hwhole hdistinct, ← hsame]

/-- The slots of `b` and `ab`, of which one is the end of the other, in the wrong order. -/
theorem sortAt_settles_overlapping : ∃ (image image' : Image) (t t' : StringTable),
    openAt image 4 = .ok t ∧ t.checkOrder = .error (.outOfOrder 1) ∧
    sortAt image 4 = .ok image' ∧ openAt image' 4 = .ok t' ∧ t'.checkOrder = .ok () ∧
    t'.slots.Perm [1, 0] := by
  let image : Image := .blank 4 ++ .ofBytes (Header.mk magic 27 19 3).encode ++
    .ofBytes [97, 98, 0] ++ indexOf [1, 0]
  let t : StringTable :=
    ⟨⟨[.stored #[97, 98, 0]]⟩, ⟨[]⟩, ⟨[.stored #[0, 0, 0, 1, 0, 0, 0, 0]]⟩⟩
  have hopen : openAt image 4 = .ok t := by cbv
  have hcheck : t.checkOrder = .error (.outOfOrder 1) := by cbv
  have hslots : t.slots = [1, 0] := by cbv
  have hstrings : t.parts.strings = [97, 98, 0] := by cbv
  have hapart : t.LeadsApart := by
    refine ⟨[[98], [97, 98]], ?_, by decide⟩
    rw [hslots, hstrings]
    exact .cons ⟨by decide, [], rfl⟩ (.cons ⟨by decide, [], rfl⟩ .nil)
  obtain ⟨⟨image', t', hsort, hopen', hsorts, -⟩, hrepairs, -⟩ := sortAt_settles hopen
  exact ⟨image, image', t, t', hopen, hcheck, hsort, hopen', (hrepairs t' hsorts).2 hapart,
    hslots ▸ hsorts.perm⟩

end MediaLibrary.StringTable
