import MediaLibrary.Bytes.Field
import MediaLibrary.Proofs.Steps
/-! Slices and overlays of byte strings that are given as pieces one after the other. A slice that
begins with a piece is that piece, and an overlay of a piece's size replaces it. Fields that are written
one behind the other are laid down as a whole. -/
namespace MediaLibrary

namespace Bytes

@[simp] theorem length_zeros (count : Nat) : (zeros count).length = count := by
  simp [zeros]

theorem zeros_add (first second : Nat) :
    zeros (first + second) = zeros first ++ zeros second := by
  simp [zeros, List.replicate_append_replicate]

theorem slice_zeros (size offset count : Nat) :
    slice (zeros size) offset count = zeros (min count (size - offset)) := by
  simp [slice, zeros]

theorem slice_append_right (before after : Bytes) (offset count : Nat) :
    slice (before ++ after) (before.length + offset) count = slice after offset count := by
  rw [slice, List.drop_length_add_append, slice]

theorem slice_append_left {before : Bytes} (after : Bytes) {offset count : Nat}
    (h : offset + count ≤ before.length) :
    slice (before ++ after) offset count = slice before offset count := by
  have hz : count - (before.length - offset) = 0 := by omega
  have hd : offset - before.length = 0 := by omega
  simp [slice, List.drop_append, List.take_append, hz, hd]

theorem slice_take {offset count limit : Nat} (h : offset + count ≤ limit) (bytes : Bytes) :
    slice (bytes.take limit) offset count = slice bytes offset count := by
  rw [slice, List.drop_take, List.take_take, Nat.min_eq_left (by omega), slice]

theorem slice_to_end (bytes : Bytes) (offset : Nat) :
    slice bytes offset (bytes.length - offset) = bytes.drop offset :=
  List.take_of_length_le (Nat.le_of_eq List.length_drop)

theorem slice_length (piece after : Bytes) : slice (piece ++ after) 0 piece.length = piece := by
  simp [slice]

theorem slice_middle (before piece after : Bytes) :
    slice (before ++ piece ++ after) before.length piece.length = piece := by
  rw [List.append_assoc]
  exact (slice_append_right before (piece ++ after) 0 piece.length).trans
    (slice_length piece after)

theorem take_add_slice (bytes : Bytes) (offset count : Nat) :
    bytes.take (offset + count) = bytes.take offset ++ slice bytes offset count := List.take_add

theorem overlay_append_right (before after new : Bytes) (offset : Nat) :
    overlay (before ++ after) (before.length + offset) new = before ++ overlay after offset new := by
  rw [overlay, Nat.add_assoc, List.take_length_add_append, List.drop_length_add_append, overlay]
  simp only [List.append_assoc]

theorem overlay_append_left {before new : Bytes} (after : Bytes) {offset : Nat}
    (h : offset + new.length ≤ before.length) :
    overlay (before ++ after) offset new = overlay before offset new ++ after := by
  have ht : offset - before.length = 0 := by omega
  have hd : offset + new.length - before.length = 0 := by omega
  simp [overlay, List.take_append, List.drop_append, ht, hd]

theorem overlay_middle (before piece after new : Bytes) (h : new.length = piece.length) :
    overlay (before ++ piece ++ after) before.length new = before ++ new ++ after := by
  simp [overlay, h, List.drop_append]

theorem overlay_whole {bytes new : Bytes} (h : new.length = bytes.length) :
    overlay bytes 0 new = new := by
  simp [overlay, h]

theorem overlay_overlay {bytes : Bytes} {offset : Nat} (h : offset ≤ bytes.length)
    (first second : Bytes) :
    overlay (overlay bytes offset first) (offset + first.length) second
      = overlay bytes offset (first ++ second) := by
  have hlead : (bytes.take offset ++ first).length = offset + first.length := by
    rw [List.length_append, List.length_take, Nat.min_eq_left h]
  have hsecond := overlay_append_right (bytes.take offset ++ first)
    (bytes.drop (offset + first.length)) second 0
  rw [hlead, Nat.add_zero] at hsecond
  rw [overlay.eq_def bytes offset first, hsecond]
  simp [overlay, List.drop_drop, Nat.add_assoc]

theorem le_length_overlay (bytes : Bytes) (offset : Nat) (new : Bytes) :
    bytes.length ≤ (overlay bytes offset new).length := by
  simp only [overlay, List.length_append, List.length_take, List.length_drop]
  omega

theorem gap_middle {piece : Bytes} {offset : Nat} (h : offset ≤ piece.length)
    (before after gap : Bytes) :
    (before ++ piece ++ after).take (before.length + offset) ++ gap
        ++ (before ++ piece ++ after).drop (before.length + offset)
      = before ++ (piece.take offset ++ gap ++ piece.drop offset) ++ after := by
  have hz : offset - piece.length = 0 := by omega
  rw [List.append_assoc before piece after, List.take_length_add_append,
    List.drop_length_add_append, List.take_append, List.drop_append, hz]
  simp

theorem eq_untilZero_append {bytes : Bytes} (h : 0 ∈ bytes) :
    0 ∉ untilZero bytes ∧ ∃ rest, bytes = untilZero bytes ++ 0 :: rest := by
  obtain ⟨before, after, rfl, hbefore⟩ := List.eq_append_cons_of_mem h
  have huntil : untilZero (before ++ 0 :: after) = before := by
    rw [untilZero_append_of_not_mem hbefore]
    simp [untilZero]
  rw [huntil]
  exact ⟨hbefore, after, rfl⟩

/-- Moving the end of a string to where a piece begins, and cutting off as much, takes the piece
out. -/
theorem take_overlay_drop {bytes : Bytes} {start stop : Nat} (hle : start ≤ stop)
    (hstop : stop ≤ bytes.length) :
    (overlay bytes start (bytes.drop stop)).take (bytes.length - (stop - start))
      = bytes.take start ++ bytes.drop stop := by
  rw [overlay]
  refine List.take_left' ?_
  simp only [List.length_append, List.length_take, List.length_drop]
  omega

/-- Moving the end of a lengthened string by as much, and clearing where it was, opens a gap. -/
theorem overlay_gap {bytes : Bytes} {offset : Nat} (h : offset ≤ bytes.length) (more : Bytes) :
    overlay (overlay (bytes ++ more) (offset + more.length) (bytes.drop offset)) offset
      (zeros more.length) = bytes.take offset ++ zeros more.length ++ bytes.drop offset := by
  have hrest : (bytes ++ more).drop (offset + more.length + (bytes.drop offset).length) = [] := by
    rw [List.drop_eq_nil_iff, List.length_append, List.length_drop]
    omega
  have hmoved : overlay (bytes ++ more) (offset + more.length) (bytes.drop offset)
      = bytes.take offset ++ slice (bytes ++ more) offset more.length ++ bytes.drop offset := by
    rw [overlay, hrest, List.append_nil, List.take_add, List.take_append_of_le_length h, slice]
  have hgap : (zeros more.length).length = (slice (bytes ++ more) offset more.length).length := by
    rw [length_zeros, length_slice, List.length_append]
    omega
  have hstart : (bytes.take offset).length = offset := by
    rw [List.length_take, Nat.min_eq_left h]
  have hcleared := overlay_middle (bytes.take offset)
    (slice (bytes ++ more) offset more.length) (bytes.drop offset) (zeros more.length) hgap
  rw [hstart] at hcleared
  rw [hmoved, hcleared]

theorem getElem?_overlay {bytes new : Bytes} {offset : Nat}
    (h : offset + new.length ≤ bytes.length) (i : Nat) :
    (overlay bytes offset new)[i]?
      = if offset ≤ i ∧ i < offset + new.length then new[i - offset]? else bytes[i]? := by
  have hstart : (bytes.take offset).length = offset := by
    rw [List.length_take]
    omega
  rw [overlay, List.append_assoc]
  rcases Nat.lt_or_ge i offset with hbefore | hfrom
  · rw [List.getElem?_append_left (by omega), List.getElem?_take_of_lt hbefore, if_neg (by omega)]
  rw [List.getElem?_append_right (by omega), hstart]
  rcases Nat.lt_or_ge i (offset + new.length) with hinside | hbehind
  · rw [List.getElem?_append_left (by omega), if_pos ⟨hfrom, hinside⟩]
  · rw [List.getElem?_append_right (by omega), List.getElem?_drop, if_neg (by omega)]
    congr 1
    omega

end Bytes

namespace Word

theorem ofBytes_toBytes_of_lt {n : Nat} (h : n < limit) : ofBytes (toBytes n) = n := by
  rw [ofBytes_toBytes, Nat.mod_eq_of_lt h]

theorem ofBytes_slice {n : Nat} (h : n < limit) (before after : Bytes) :
    ofBytes (Bytes.slice (before ++ toBytes n ++ after) before.length size) = n := by
  rw [← length_toBytes n, Bytes.slice_middle, ofBytes_toBytes_of_lt h]

theorem toBytes_ofBytes {bytes : Bytes} (h : bytes.length = size) :
    toBytes (ofBytes bytes) = bytes := by
  match bytes, h with
  | [a, b, c, d], _ =>
    have ha := a.toNat_lt
    have hb := b.toNat_lt
    have hc := c.toNat_lt
    have hd := d.toNat_lt
    simp only [toBytes, ofBytes, List.foldl, List.cons.injEq, and_true, ← UInt8.toNat_inj,
      UInt8.toNat_ofNat']
    refine ⟨?_, ?_, ?_, ?_⟩ <;> omega

theorem ofBytes_lt {bytes : Bytes} (h : bytes.length = size) : ofBytes bytes < limit := by
  have := ofBytes_toBytes (ofBytes bytes)
  rw [toBytes_ofBytes h] at this
  rw [this]
  exact Nat.mod_lt _ (by decide)

theorem toBytes_inj {m n : Nat} (hm : m < limit) (hn : n < limit) (h : toBytes m = toBytes n) :
    m = n := by
  rw [← ofBytes_toBytes_of_lt hm, h, ofBytes_toBytes_of_lt hn]

theorem exists_listToBytes {bytes : Bytes} (count : Nat) (h : size * count ≤ bytes.length) :
    ∃ numbers rest, bytes = listToBytes numbers ++ rest ∧ numbers.length = count ∧
      ∀ n ∈ numbers, n < limit := by
  induction count generalizing bytes with
  | zero => exact ⟨[], bytes, rfl, rfl, by simp⟩
  | succ count ih =>
    have hfirst : (bytes.take size).length = size := by
      rw [List.length_take]
      rw [Nat.mul_succ] at h
      omega
    have hrest : size * count ≤ (bytes.drop size).length := by
      rw [List.length_drop]
      rw [Nat.mul_succ] at h
      omega
    obtain ⟨numbers, rest, hrest, hlen, hbelow⟩ := ih hrest
    refine ⟨ofBytes (bytes.take size) :: numbers, rest, ?_, by rw [List.length_cons, hlen], ?_⟩
    · rw [listToBytes, List.flatMap_cons, toBytes_ofBytes hfirst, List.append_assoc]
      exact (List.take_append_drop size bytes).symm.trans (congrArg _ hrest)
    · intro n hn
      rcases List.mem_cons.1 hn with rfl | hn
      · exact ofBytes_lt hfirst
      · exact hbelow n hn

theorem exists_numbers_field {bytes : Bytes} (width : Nat) (h : size * 3 + width ≤ bytes.length) :
    ∃ first second third field rest,
      bytes = listToBytes [first, second, third] ++ field ++ rest ∧ first < limit ∧
      second < limit ∧ third < limit ∧ field.length = width := by
  obtain ⟨numbers, rest, rfl, hnumbers, hbelow⟩ :=
    exists_listToBytes 3 (Nat.le_trans (Nat.le_add_right _ width) h)
  match numbers, hnumbers with
  | [first, second, third], _ =>
    have hlong : width ≤ rest.length := by
      rw [List.length_append, length_listToBytes] at h
      exact Nat.le_of_add_le_add_left h
    refine ⟨first, second, third, rest.take width, rest.drop width, ?_, hbelow _ (by simp),
      hbelow _ (by simp), hbelow _ (by simp), ?_⟩
    · rw [List.append_assoc, List.take_append_drop]
    · rw [List.length_take, Nat.min_eq_left hlong]

end Word

namespace WordField

theorem get?_of_split (before after : Bytes) {n : Nat} (hn : n < Word.limit) :
    (WordField.mk before.length).get? (before ++ Word.toBytes n ++ after) = some n := by
  have hstop : (WordField.mk before.length).stop ≤ (before ++ Word.toBytes n ++ after).length := by
    simp only [WordField.stop, List.length_append, Word.length_toBytes]
    omega
  rw [WordField.get?, if_pos hstop, Word.ofBytes_slice hn]

theorem get?_take {f : WordField} {count : Nat} (h : f.stop ≤ count) (bytes : Bytes) :
    f.get? (bytes.take count) = f.get? bytes := by
  by_cases hstop : f.stop ≤ bytes.length
  · have htake : f.stop ≤ (bytes.take count).length := by
      rw [List.length_take]
      omega
    rw [get?, get?, if_pos htake, if_pos hstop, Bytes.slice_take h]
  · have htake : ¬ f.stop ≤ (bytes.take count).length := by
      rw [List.length_take]
      omega
    rw [get?, get?, if_neg htake, if_neg hstop]

theorem get?_append_left {f : WordField} {front : Bytes} (h : f.stop ≤ front.length)
    (back : Bytes) : f.get? (front ++ back) = f.get? front := by
  rw [← get?_take h, List.take_left]

theorem exists_get? {f : WordField} {bytes : Bytes} (h : f.stop ≤ bytes.length) :
    ∃ n, f.get? bytes = some n := ⟨_, if_pos h⟩

theorem set?_overlay {f : WordField} {record new : Bytes} (hoffset : f.offset = new.length)
    (hstop : f.stop ≤ record.length) (n : Nat) : f.set? (Bytes.overlay record 0 new) n
      = some (Bytes.overlay record 0 (new ++ Word.toBytes n)) := by
  have hfits : 0 + new.length ≤ record.length := by
    unfold WordField.stop at hstop
    omega
  rw [WordField.set?, if_pos (by rwa [Bytes.length_overlay hfits]), hoffset,
    ← Bytes.overlay_overlay (Nat.zero_le _), Nat.zero_add]

theorem set?_three {ε α : Type} {record : Bytes} (hlong : Word.size * 3 ≤ record.length)
    (first second third : Nat) (rest : Bytes → Except (Failure ε) α) :
    (do
      let record ← Failure.inBounds ((WordField.mk 0).set? record first)
      let record ← Failure.inBounds ((WordField.mk 4).set? record second)
      let record ← Failure.inBounds ((WordField.mk 8).set? record third)
      rest record)
      = rest (Bytes.overlay record 0 (Word.listToBytes [first, second, third])) := by
  have hstop {stop : Nat} (h : stop ≤ Word.size * 3) : stop ≤ record.length := Nat.le_trans h hlong
  have hfirst : (WordField.mk 0).set? record first
      = some (Bytes.overlay record 0 (Word.toBytes first)) := if_pos (hstop (by decide))
  have hsecond := set?_overlay (f := ⟨4⟩) (rfl : _ = (Word.toBytes first).length)
    (hstop (by decide)) second
  have hthird := set?_overlay (f := ⟨8⟩)
    (rfl : _ = (Word.toBytes first ++ Word.toBytes second).length) (hstop (by decide)) third
  rw [hfirst]
  refine (Steps.query_ok rfl).trans ?_
  rw [hsecond]
  refine (Steps.query_ok rfl).trans ?_
  rw [hthird]
  rfl

end WordField

namespace NameField

theorem get?_take {f : NameField} {count : Nat} (h : f.stop ≤ count) (bytes : Bytes) :
    f.get? (bytes.take count) = f.get? bytes := by
  by_cases hstop : f.stop ≤ bytes.length
  · have htake : f.stop ≤ (bytes.take count).length := by
      rw [List.length_take]
      omega
    rw [get?, get?, if_pos htake, if_pos hstop, Bytes.slice_take h]
  · have htake : ¬ f.stop ≤ (bytes.take count).length := by
      rw [List.length_take]
      omega
    rw [get?, get?, if_neg htake, if_neg hstop]

theorem exists_get? {f : NameField} {bytes : Bytes} (h : f.stop ≤ bytes.length) :
    ∃ name, f.get? bytes = some name := ⟨_, if_pos h⟩

theorem length_padded {f : NameField} {name : Bytes} (h : name.length ≤ f.width) :
    (f.padded name).length = f.width := by
  simp [padded, h]

theorem check_eq_ok_iff (f : NameField) (name : Bytes) :
    f.check name = .ok () ↔ 0 ∉ name ∧ name.length < f.width := by
  unfold check
  split
  · simp [*]
  · split <;> simp [*] <;> omega

theorem untilZero_padded {f : NameField} {name : Bytes} (h : f.check name = .ok ()) :
    Bytes.untilZero (f.padded name) = name := by
  obtain ⟨hnul, hlen⟩ := (check_eq_ok_iff f name).1 h
  obtain ⟨n, hn⟩ : ∃ n, f.width - name.length = n + 1 := ⟨f.width - name.length - 1, by omega⟩
  rw [padded, Bytes.untilZero_append_of_not_mem hnul]
  simp [hn, Bytes.zeros, Bytes.untilZero, List.replicate_succ]

theorem set_overlay {f : NameField} {record new name : Bytes} (hoffset : f.offset = new.length)
    (hstop : f.stop ≤ record.length) (hname : f.check name = .ok ()) :
    f.set (Bytes.overlay record 0 new) name
      = .ok (Bytes.overlay record 0 (new ++ f.padded name)) := by
  have hfits : 0 + new.length ≤ record.length := by
    unfold NameField.stop at hstop
    omega
  have hcheck : Failure.ofCheck id (f.check name) = .ok () := Steps.ofCheck_eq_ok_iff.2 hname
  rw [NameField.set, Steps.query_ok hcheck, if_pos (by rwa [Bytes.length_overlay hfits]), hoffset,
    ← Bytes.overlay_overlay (Nat.zero_le _), Nat.zero_add]

end NameField
end MediaLibrary
