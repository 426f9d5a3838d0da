import MediaLibrary.Proofs.StringTable.Order
import Mathlib.Data.List.InsertIdx
/-! The packed table: the strings in the order of their arrival with nothing between them, then zero
bytes only, then the slots in ascending order of their strings. Its bytes depend on its length and
its strings alone. Storing and removing a string leads from the packed table of some strings to that
of one more or one fewer. -/
namespace MediaLibrary.StringTable

open Bytes (ascending Ascending rank)

/-- The strings one after the other, each with its zero byte. -/
def area (strings : List Bytes) : Bytes := strings.flatMap (· ++ [0])

/-- Where `value` begins among the strings. -/
def startOf (strings : List Bytes) (value : Bytes) : Nat :=
  (area (strings.takeWhile (· ≠ value))).length

def filled (strings : List Bytes) : Nat := (area strings).length + slotSize * strings.length

def packed (length : Nat) (strings : List Bytes) : Parts where
  strings := area strings
  free := Bytes.zeros (length - headerSize - filled strings)
  index := Word.listToBytes ((ascending strings).map (startOf strings))

structure Packable (length : Nat) (strings : List Bytes) : Prop where
  nodup : strings.Nodup
  nul_free : ∀ value ∈ strings, 0 ∉ value
  room : headerSize + filled strings ≤ length
  below : length < Word.limit

@[simp] theorem area_nil : area [] = [] := rfl

@[simp] theorem area_cons (value : Bytes) (rest : List Bytes) :
    area (value :: rest) = value ++ 0 :: area rest := by
  simp [area]

@[simp] theorem area_append (first second : List Bytes) :
    area (first ++ second) = area first ++ area second := by
  simp [area]

theorem filled_concat (strings : List Bytes) (value : Bytes) :
    filled (strings ++ [value]) = filled strings + roomFor value.length := by
  simp only [filled, area_append, area_cons, area_nil, List.length_append, List.length_cons,
    List.length_nil, roomFor, Nat.mul_add]
  omega

theorem filled_perm {first second : List Bytes} (h : first.Perm second) :
    filled first = filled second := by
  unfold filled area
  rw [(h.flatMap_right _).length_eq, h.length_eq]

theorem startOf_of_split {before : List Bytes} {value : Bytes} (h : value ∉ before)
    (after : List Bytes) : startOf (before ++ value :: after) value = (area before).length := by
  have hall : ∀ x ∈ before, decide (x ≠ value) = true := by
    intro x hx
    simp only [decide_eq_true_eq]
    rintro rfl
    exact h hx
  rw [startOf, List.takeWhile_append_of_pos hall]
  simp

theorem startOf_append {strings : List Bytes} {value : Bytes} (h : value ∈ strings)
    (more : List Bytes) : startOf (strings ++ more) value = startOf strings value := by
  obtain ⟨before, after, rfl, hb⟩ := List.eq_append_cons_of_mem h
  rw [List.append_assoc, List.cons_append, startOf_of_split hb, startOf_of_split hb]

theorem startOf_concat {strings : List Bytes} {value : Bytes} (h : value ∉ strings) :
    startOf (strings ++ [value]) value = (area strings).length := startOf_of_split h []

theorem drop_startOf {strings : List Bytes} {value : Bytes} (h : value ∈ strings) :
    ∃ rest, (area strings).drop (startOf strings value) = value ++ 0 :: rest := by
  obtain ⟨before, after, rfl, hb⟩ := List.eq_append_cons_of_mem h
  exact ⟨area after, by rw [startOf_of_split hb]; simp⟩

theorem standsAt_startOf {strings : List Bytes} {value : Bytes} (h : value ∈ strings)
    (hnul : 0 ∉ value) : StandsAt (area strings) (startOf strings value) value :=
  ⟨hnul, drop_startOf h⟩

theorem startOf_lt {strings : List Bytes} {value : Bytes} (h : value ∈ strings) :
    startOf strings value + value.length < (area strings).length := by
  obtain ⟨rest, hrest⟩ := drop_startOf h
  have := congrArg List.length hrest
  simp only [List.length_drop, List.length_append, List.length_cons] at this
  omega

namespace Packable

variable {length : Nat} {strings : List Bytes}

theorem length_packed (h : Packable length strings) : (packed length strings).length = length := by
  have := h.room
  simp only [packed, Parts.length, Parts.indexOffset, Bytes.length_zeros, Word.length_listToBytes,
    List.length_map, Bytes.length_ascending]
  simp only [filled, slotSize] at this ⊢
  omega

theorem sized (h : Packable length strings) : (packed length strings).Sized where
  whole := by simp [packed, Word.length_listToBytes, slotSize]
  below := by
    rw [h.length_packed]
    exact h.below

theorem startOf_below (h : Packable length strings) {value : Bytes} (hm : value ∈ strings) :
    startOf strings value < Word.limit := by
  have hr := h.room
  have hb := h.below
  have := startOf_lt hm
  unfold filled at hr
  omega

theorem count_below (h : Packable length strings) : strings.length < Word.limit := by
  have hroom := h.room
  have hbelow := h.below
  simp only [filled, slotSize, Word.size] at hroom
  omega

theorem erase (h : Packable length strings) (value : Bytes) :
    Packable length (strings.erase value) where
  nodup := h.nodup.erase value
  nul_free := fun x hx => h.nul_free x (List.mem_of_mem_erase hx)
  room := by
    have hr := h.room
    by_cases hm : value ∈ strings
    · obtain ⟨before, after, rfl, hb⟩ := List.eq_append_cons_of_mem hm
      rw [List.erase_append_right _ hb, List.erase_cons_head]
      simp only [filled, area_append, area_cons, List.length_append, List.length_cons] at hr ⊢
      have : slotSize * (before.length + after.length)
          ≤ slotSize * (before.length + (after.length + 1)) := Nat.mul_le_mul_left _ (by omega)
      omega
    · rwa [List.erase_of_not_mem hm]
  below := h.below

theorem widen (h : Packable length strings) {count : Nat} (hc : length + count < Word.limit) :
    Packable (length + count) strings :=
  ⟨h.nodup, h.nul_free, Nat.le_trans h.room (Nat.le_add_right _ _), hc⟩

theorem packed_widen (h : Packable length strings) (count : Nat) :
    (packed length strings).widen count = packed (length + count) strings := by
  have hr := h.room
  have : length + count - headerSize - filled strings
      = length - headerSize - filled strings + count := by omega
  simp only [Parts.widen, packed, this, Bytes.zeros_add]

theorem concat (h : Packable length strings) {value : Bytes} (hnew : value ∉ strings)
    (hnul : 0 ∉ value) (hroom : headerSize + filled strings + roomFor value.length ≤ length) :
    Packable length (strings ++ [value]) where
  nodup := by
    rw [List.nodup_append]
    refine ⟨h.nodup, by simp, ?_⟩
    rintro a ha b hb rfl
    exact hnew (List.mem_singleton.1 hb ▸ ha)
  nul_free := by
    intro x hx
    rcases List.mem_append.1 hx with hx | hx
    · exact h.nul_free x hx
    · exact List.mem_singleton.1 hx ▸ hnul
  room := by
    rw [filled_concat]
    omega
  below := h.below

end Packable

theorem packable_nil {length : Nat} (hroom : headerSize ≤ length) (hbelow : length < Word.limit) :
    Packable length [] :=
  ⟨List.nodup_nil, by simp, by simpa [filled] using hroom, hbelow⟩

theorem encode_packed_nil {length : Nat} (hroom : headerSize ≤ length) :
    (packed length []).encode
      = (Header.mk magic length length 0).encode ++ Bytes.zeros (length - headerSize) := by
  have hlen : headerSize + (length - headerSize) = length := by omega
  simp [packed, Parts.encode, Parts.header, Parts.length, Parts.indexOffset, filled, ascending,
    Word.listToBytes, hlen]

theorem slots_of_packed {length : Nat} {strings : List Bytes} (h : Packable length strings)
    {t : StringTable} (ht : t.parts = packed length strings) :
    t.slots = (ascending strings).map (startOf strings) := by
  apply slots_of_index (by rw [ht]; rfl)
  intro slot hs
  obtain ⟨value, hv, rfl⟩ := List.mem_map.1 hs
  exact h.startOf_below (Bytes.mem_ascending.1 hv)

theorem Packable.ordered {length : Nat} {strings : List Bytes} (h : Packable length strings)
    {t : StringTable} (ht : t.parts = packed length strings) :
    t.Ordered (ascending strings) := by
  refine ⟨?_, Bytes.ascending_ascending h.nodup⟩
  rw [slots_of_packed h ht, List.map_map]
  apply List.map_congr_left
  intro value hv
  have hm := Bytes.mem_ascending.1 hv
  have harea : t.parts.strings = area strings := congrArg Parts.strings ht
  rw [Function.comp_apply, resolve_eq_ok_iff, harea]
  exact standsAt_startOf hm (h.nul_free value hm)

theorem Packable.spells {length : Nat} {strings : List Bytes} (h : Packable length strings) :
    Spells (packed length strings).encode (ascending strings) := by
  refine ⟨⟨_, (ascending strings).map (startOf strings), rfl, rfl, ?_⟩,
    Bytes.ascending_ascending h.nodup⟩
  rw [List.forall₂_map_left_iff, List.forall₂_same]
  intro value hv
  have hm := Bytes.mem_ascending.1 hv
  exact standsAt_startOf hm (h.nul_free value hm)

theorem size_free_of_packed {length : Nat} {strings : List Bytes} {t : StringTable}
    (ht : t.parts = packed length strings) :
    t.free.size = length - headerSize - filled strings := by
  have : t.free.toList.length = _ := congrArg (fun p => p.free.length) ht
  simpa [packed] using this

theorem sortSlots_perm (t : StringTable) (slots : List Nat) : (t.sortSlots slots).Perm slots := by
  have hperm := (List.mergeSort_perm (slots.map fun slot => (t.sortKey slot, slot))
    fun first second => ¬ second.1 < first.1).map Prod.snd
  simpa [sortSlots, Function.comp_def] using hperm

@[simp] theorem length_sortSlots (t : StringTable) (slots : List Nat) :
    (t.sortSlots slots).length = slots.length := by
  simp [sortSlots]

theorem pairwise_sortSlots (t : StringTable) (slots : List Nat) :
    (t.sortSlots slots).Pairwise fun first second => ¬ t.sortKey second < t.sortKey first := by
  let keyed := slots.map fun slot => (t.sortKey slot, slot)
  let sorted := keyed.mergeSort fun first second => ¬ second.1 < first.1
  have hkey : ∀ pair ∈ sorted, pair.1 = t.sortKey pair.2 := by
    intro pair hpair
    obtain ⟨slot, -, rfl⟩ := List.mem_map.1 ((List.mergeSort_perm _ _).mem_iff.1 hpair)
    rfl
  have hsorted : sorted.Pairwise fun first second => ¬ second.1 < first.1 :=
    Bytes.pairwise_mergeSort_key Prod.fst keyed
  show (sorted.map Prod.snd).Pairwise _
  refine List.pairwise_map.2 (hsorted.imp_of_mem ?_)
  intro first second hfirst hsecond h
  rwa [← hkey first hfirst, ← hkey second hsecond]

theorem map_sortKey_sortSlots {t : StringTable} {slots : List Nat}
    (h : (slots.map t.sortKey).Nodup) :
    (t.sortSlots slots).map t.sortKey = ascending (slots.map t.sortKey) := by
  have weak : ((t.sortSlots slots).map t.sortKey).Pairwise fun a b => ¬ b < a :=
    List.pairwise_map.2 (t.pairwise_sortSlots slots)
  have hsame := (t.sortSlots_perm slots).map t.sortKey
  have strict := Bytes.ascending_of_nodup weak (hsame.nodup_iff.2 h)
  exact strict.eq_of_perm (Bytes.ascending_ascending h)
    (hsame.trans (Bytes.ascending_perm _).symm)

theorem sortSlots_eq {t : StringTable} {slots : List Nat} {values : List Bytes}
    {place : Bytes → Nat} (h : (slots.map t.sortKey).Perm values) (hv : values.Nodup)
    (hp : ∀ slot ∈ slots, place (t.sortKey slot) = slot) :
    t.sortSlots slots = (ascending values).map place := by
  have hkeys := h.nodup_iff.2 hv
  have hvalues : ascending (slots.map t.sortKey) = ascending values :=
    (Bytes.ascending_ascending hkeys).eq_of_perm (Bytes.ascending_ascending hv)
      ((Bytes.ascending_perm _).trans (h.trans (Bytes.ascending_perm values).symm))
  calc t.sortSlots slots
      = (t.sortSlots slots).map (place ∘ t.sortKey) := by
        refine ((List.map_congr_left fun slot hslot => ?_).trans (List.map_id _)).symm
        exact hp slot ((t.sortSlots_perm slots).mem_iff.1 hslot)
    _ = (ascending values).map place := by
        rw [← List.map_map, map_sortKey_sortSlots hkeys, hvalues]

theorem sort_packed {length : Nat} {strings values : List Bytes} {t : StringTable}
    (h : Packable length strings) (hperm : values.Perm strings)
    (hstrings : t.strings.toList = area strings)
    (hfree : t.free.toList = Bytes.zeros (length - headerSize - filled strings))
    (hindex : t.index.toList = Word.listToBytes (values.map (startOf strings))) :
    t.sort.parts = packed length strings := by
  have hmem : ∀ x ∈ values, x ∈ strings := fun x hx => hperm.mem_iff.1 hx
  have hread : t.slots = values.map (startOf strings) := by
    apply slots_of_index hindex
    intro slot hs
    obtain ⟨x, hx, rfl⟩ := List.mem_map.1 hs
    exact h.startOf_below (hmem x hx)
  have hkey : ∀ x ∈ values, t.sortKey (startOf strings x) = x := by
    intro x hx
    have harea : t.parts.strings = area strings := hstrings
    rw [sortKey_eq, harea]
    exact (standsAt_startOf (hmem x hx) (h.nul_free x (hmem x hx))).untilZero_eq
  have hkeys : t.slots.map t.sortKey = values := by
    rw [hread, List.map_map]
    exact (List.map_congr_left hkey).trans (List.map_id _)
  have hsorted : t.sortSlots t.slots = (ascending strings).map (startOf strings) := by
    apply sortSlots_eq (by rwa [hkeys]) h.nodup
    intro slot hs
    rw [hread] at hs
    obtain ⟨x, hx, rfl⟩ := List.mem_map.1 hs
    rw [hkey x hx]
  refine Parts.ext hstrings hfree ?_
  show (indexOf (t.sortSlots t.slots)).toList = _
  rw [hsorted, indexOf, Image.toList_ofBytes]
  rfl

theorem push_packed {length : Nat} {strings : List Bytes} {t : StringTable} {value : Bytes}
    (h : Packable length (strings ++ [value])) (ht : t.parts = packed length strings) :
    ∃ pushed, t.push value = .ok pushed ∧ pushed.parts = packed length (strings ++ [value]) := by
  have hroom := h.room
  rw [filled_concat] at hroom
  have hfree := size_free_of_packed ht
  have hnew : value ∉ strings := by
    intro hm
    have := List.nodup_append.1 h.nodup
    exact this.2.2 value hm value (List.mem_singleton_self value) rfl
  have hold : Packable length strings := by
    have := h.erase value
    rwa [List.erase_append_right _ hnew, List.erase_cons_head, List.append_nil] at this
  have hstrings : t.strings.toList = area strings := congrArg Parts.strings ht
  have hzeros : t.free.toList = Bytes.zeros (length - headerSize - filled strings) :=
    congrArg Parts.free ht
  have hfits : t.hasRoomFor value = true := by
    simp only [hasRoomFor, hfree, decide_eq_true_eq]
    omega
  have hperm : (value :: ascending strings).Perm (strings ++ [value]) :=
    ((Bytes.ascending_perm strings).cons value).trans
      (List.perm_append_singleton value strings).symm
  have hslots : t.strings.size :: t.slots
      = (value :: ascending strings).map (startOf (strings ++ [value])) := by
    rw [slots_of_packed hold ht, List.map_cons, startOf_concat hnew, ← hstrings,
      Image.length_toList]
    congr 1
    apply List.map_congr_left
    intro x hx
    rw [startOf_append (Bytes.mem_ascending.1 hx)]
  rw [push, if_pos hfits]
  refine ⟨_, rfl, sort_packed h hperm ?_ ?_ ?_⟩
  · simp [hstrings]
  · have hleft : length - headerSize - filled (strings ++ [value])
        = t.free.size - roomFor value.length := by
      rw [filled_concat, hfree]
      omega
    rw [Image.toList_slice, hzeros, Bytes.slice_zeros, hleft, hfree]
    congr 1
    unfold roomFor
    omega
  · rw [hslots, indexOf, Image.toList_ofBytes]

theorem startOf_after {before after : List Bytes} {value x : Bytes}
    (h : (before ++ value :: after).Nodup) (hx : x ∈ after) :
    startOf (before ++ value :: after) x
      = startOf (before ++ after) x + (value.length + 1) ∧
    (area before).length ≤ startOf (before ++ after) x := by
  obtain ⟨inner, outer, rfl, hinner⟩ := List.eq_append_cons_of_mem hx
  have hbefore : x ∉ before := fun hm =>
    (List.nodup_append.1 h).2.2 x hm x (List.mem_cons_of_mem _ hx) rfl
  have hvalue : x ≠ value := by
    rintro rfl
    exact (List.nodup_cons.1 (List.nodup_append.1 h).2.1).1 hx
  have hlong : x ∉ before ++ value :: inner := by simp [hbefore, hvalue, hinner]
  have hshort : x ∉ before ++ inner := by simp [hbefore, hinner]
  have long : before ++ value :: (inner ++ x :: outer)
      = (before ++ value :: inner) ++ x :: outer := by simp
  have short : before ++ (inner ++ x :: outer) = (before ++ inner) ++ x :: outer := by simp
  rw [long, short, startOf_of_split hlong, startOf_of_split hshort]
  simp only [area_append, area_cons, List.length_append, List.length_cons]
  omega

theorem startOf_before {before : List Bytes} {x : Bytes} (hx : x ∈ before) (value : Bytes)
    (after : List Bytes) :
    startOf (before ++ value :: after) x = startOf (before ++ after) x ∧
    startOf (before ++ after) x < (area before).length := by
  have := startOf_lt hx
  rw [startOf_append hx, startOf_append hx]
  omega

theorem rebased_startOf {before after : List Bytes} {value x : Bytes}
    (h : (before ++ value :: after).Nodup) (hx : x ∈ before ++ after) :
    (if startOf (before ++ value :: after) x ≤ (area before).length
      then startOf (before ++ value :: after) x
      else startOf (before ++ value :: after) x - (value.length + 1))
      = startOf (before ++ after) x := by
  rcases List.mem_append.1 hx with hb | ha
  · obtain ⟨hsame, hlt⟩ := startOf_before hb value after
    rw [if_pos (by omega), hsame]
  · obtain ⟨hmoved, hle⟩ := startOf_after h ha
    rw [if_neg (by omega), hmoved, Nat.add_sub_cancel]

theorem mapM_rebase {offset size : Nat} {slots : List Nat}
    (h : ∀ slot ∈ slots, slot ≤ offset ∨ size ≤ slot) :
    slots.mapM (rebase offset size)
      = some (slots.map fun slot => if slot ≤ offset then slot else slot - size) := by
  induction slots with
  | nil => rfl
  | cons slot rest ih =>
    have hs : rebase offset size slot
        = some (if slot ≤ offset then slot else slot - size) := by
      unfold rebase
      rcases h slot List.mem_cons_self with hle | hle
      · rw [if_pos hle, if_pos hle]
      · split
        · rfl
        · rw [if_neg (Nat.not_lt.2 hle)]
    rw [List.mapM_cons, hs, ih fun s hm => h s (List.mem_cons_of_mem _ hm)]
    rfl

theorem eraseSlot_eq {t : StringTable} {offset size : Nat}
    (h : ∀ slot ∈ t.slots, slot ≤ offset ∨ size ≤ slot) (n : Nat) :
    ∃ rest, t.eraseSlot n offset size = .ok rest ∧ rest.parts =
      { strings := t.parts.strings.take offset ++ t.parts.strings.drop (offset + size)
        free := Bytes.zeros size ++ t.parts.free ++ Bytes.zeros slotSize
        index := Word.listToBytes
          ((t.slots.map fun slot => if slot ≤ offset then slot else slot - size).eraseIdx n) } := by
  rw [eraseSlot, mapM_rebase h]
  refine ⟨_, rfl, Parts.ext ?_ ?_ ?_⟩
  · simp [parts]
  · simp [parts]
  · simp [parts, indexOf]

theorem remove_of_found {t rest : StringTable} {value : Bytes} {n : Nat}
    (hsearch : t.search value = .ok (.found n))
    (herase : t.eraseSlot n (t.slotAt n) (value.length + 1) = .ok rest) :
    t.remove value = .ok (some rest) := by
  have hfound : Failure.ofCheck id (t.search value) = .ok (.found n) := by
    rw [hsearch]
    rfl
  rw [remove, Steps.query_ok hfound]
  simp only [herase]

section Erase

variable {length : Nat} {strings before after : List Bytes} {t : StringTable} {value : Bytes}

theorem slotAt_rank (h : Packable length strings) (ht : t.parts = packed length strings)
    (hm : value ∈ strings) : t.slotAt (rank strings value) = startOf strings value := by
  have hordered := h.ordered ht
  obtain ⟨hr, hget⟩ := hordered.ascending.rank_lt_of_mem (Bytes.mem_ascending.2 hm)
  rw [Bytes.rank_ascending] at hr
  simp only [Bytes.rank_ascending] at hget
  have hsome : t.slots[rank strings value]? = some (t.slotAt (rank strings value)) := by
    rw [getElem?_slots, hordered.entries_eq, if_pos hr]
  rw [slots_of_packed h ht, List.getElem?_map, List.getElem?_eq_getElem hr, hget] at hsome
  exact (Option.some.inj hsome).symm

theorem slots_apart (h : Packable length (before ++ value :: after))
    (ht : t.parts = packed length (before ++ value :: after)) (hb : value ∉ before) :
    ∀ slot ∈ t.slots, slot ≤ (area before).length ∨ value.length + 1 ≤ slot := by
  intro slot hs
  rw [slots_of_packed h ht] at hs
  obtain ⟨x, hx, rfl⟩ := List.mem_map.1 hs
  rcases List.mem_append.1 (Bytes.mem_ascending.1 hx) with hx | hx
  · have := startOf_before hx value after
    omega
  · rcases List.mem_cons.1 hx with rfl | hx
    · rw [startOf_of_split hb]
      exact Or.inl (Nat.le_refl _)
    · have := startOf_after h.nodup hx
      omega

/-- What follows the string that is taken out moves up, and its bytes become free ones. -/
theorem eraseSlot_packed (h : Packable length (before ++ value :: after))
    (ht : t.parts = packed length (before ++ value :: after)) (hb : value ∉ before) :
    ∃ rest, t.eraseSlot (rank (before ++ value :: after) value) (area before).length
        (value.length + 1) = .ok rest ∧
      rest.parts = packed length (before ++ after) := by
  obtain ⟨rest, herase, hrest⟩ :=
    eraseSlot_eq (slots_apart h ht hb) (rank (before ++ value :: after) value)
  refine ⟨rest, herase, hrest.trans (Parts.ext ?_ ?_ ?_)⟩
  · have hstrings : t.parts.strings = area (before ++ value :: after) :=
      congrArg Parts.strings ht
    have hsplit : area (before ++ value :: after) = area before ++ (value ++ [0]) ++ area after := by
      simp
    have hdrop : (area before).length + (value.length + 1)
        = (area before ++ (value ++ [0])).length := by simp
    show t.parts.strings.take _ ++ t.parts.strings.drop _ = area (before ++ after)
    rw [hstrings, hsplit, hdrop, List.drop_left, List.append_assoc, List.take_left, area_append]
  · have hroom := h.room
    have hfree : t.parts.free = Bytes.zeros
        (length - headerSize - filled (before ++ value :: after)) := congrArg Parts.free ht
    have hfilled : filled (before ++ value :: after)
        = filled (before ++ after) + (value.length + 1) + slotSize := by
      simp only [filled, area_append, area_cons, List.length_append, List.length_cons,
        Nat.mul_add]
      omega
    have hcount : length - headerSize - filled (before ++ after) = (value.length + 1)
        + (length - headerSize - filled (before ++ value :: after)) + slotSize := by
      omega
    show Bytes.zeros (value.length + 1) ++ t.parts.free ++ Bytes.zeros slotSize
      = Bytes.zeros (length - headerSize - filled (before ++ after))
    simp only [hfree, hcount, Bytes.zeros_add]
  · have hmem : value ∈ before ++ value :: after := by simp
    have herase := Bytes.ascending_eraseIdx h.nodup hmem
    rw [List.erase_append_right _ hb, List.erase_cons_head] at herase
    show Word.listToBytes _
      = Word.listToBytes ((ascending (before ++ after)).map (startOf (before ++ after)))
    rw [List.eraseIdx_map, slots_of_packed h ht, List.eraseIdx_map, herase, List.map_map]
    congr 1
    apply List.map_congr_left
    intro x hx
    exact rebased_startOf h.nodup (Bytes.mem_ascending.1 hx)

theorem remove_packed (h : Packable length strings) (ht : t.parts = packed length strings)
    (hm : value ∈ strings) :
    ∃ rest, t.remove value = .ok (some rest) ∧ rest.parts = packed length (strings.erase value) := by
  have hsearch : t.search value = .ok (.found (rank strings value)) := by
    rw [(h.ordered ht).search_eq, rankOf_of_mem (Bytes.mem_ascending.2 hm), Bytes.rank_ascending]
  have hslot := slotAt_rank h ht hm
  obtain ⟨before, after, rfl, hb⟩ := List.eq_append_cons_of_mem hm
  rw [startOf_of_split hb] at hslot
  obtain ⟨rest, herase, hparts⟩ := eraseSlot_packed h ht hb
  rw [List.erase_append_right _ hb, List.erase_cons_head]
  exact ⟨rest, remove_of_found hsearch (hslot ▸ herase), hparts⟩

theorem remove_packed_absent (h : Packable length strings) (ht : t.parts = packed length strings)
    (hm : value ∉ strings) : t.remove value = .ok none :=
  (h.ordered ht).remove_absent (mt Bytes.mem_ascending.1 hm)

end Erase
end MediaLibrary.StringTable
