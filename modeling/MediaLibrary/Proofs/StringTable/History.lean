import Mathlib
import MediaLibrary.Proofs.StringTable.Growth
/-! The history of a table in memory. A table starts empty, in bytes that were zero, and has strings
added and removed. Whatever the history, its bytes are those of the layout of the strings that are
left: the order of arrival is kept, and nothing else is remembered. -/
namespace MediaLibrary.StringTable

open Bytes (ascending Ascending rank)

/-- The bytes of a table of `length` bytes with `strings` in the order of their arrival. -/
def layout (length : Nat) (strings : List Bytes) : Bytes :=
  Word.listToBytes [magic, length, length - slotSize * strings.length, (area strings).length]
    ++ area strings
    ++ Bytes.zeros (length - headerSize - filled strings)
    ++ Word.listToBytes ((ascending strings).map (startOf strings))

theorem Packable.encode_packed {length : Nat} {strings : List Bytes}
    (h : Packable length strings) : (packed length strings).encode = layout length strings := by
  have hlen := h.length_packed
  have hroom := h.room
  have hoff : (packed length strings).indexOffset = length - slotSize * strings.length := by
    simp only [Parts.indexOffset, packed, Bytes.length_zeros]
    unfold filled at hroom ⊢
    omega
  rw [Parts.encode, Parts.header, hlen, hoff]
  rfl

/-- A change to the table that begins at some offset of an image. -/
inductive Edit where
  | add (value : String) (quantum : Nat)
  | remove (value : String)
  deriving DecidableEq, Repr

namespace Edit

def apply (base : Nat) (image : Image) : Edit → Except (Failure TableError) Image
  | .add value quantum =>
    match StringTable.add Host.memory base (Text.bytes value) quantum image with
    | .ok _ image => .ok image
    | .error e _ => .error e
  | .remove value => (removeAt image base (Text.bytes value)).map Prod.snd

def keep (live : List String) : Edit → List String
  | .add value _ => live ++ [value]
  | .remove value => live.erase value

end Edit

/-- The strings that a history leaves, in the order of their arrival. -/
def survivors (history : List Edit) : List String := history.foldl Edit.keep []

/-- In memory, the table of some strings stands between `before` and `after`. -/
structure Stands (before after : Bytes) (image : Image) (length : Nat) (live : List String) :
    Prop where
  bytes : image.toList = before ++ (packed length (live.map Text.bytes)).encode ++ after
  packable : Packable length (live.map Text.bytes)

theorem memory_carries (before after : Bytes) :
    Host.memory.Carries before.length fun image bytes =>
      image.toList = before ++ bytes ++ after where
  image h := ⟨before, after, h, rfl⟩
  overlay {image bytes offset new} h hfits := by
    show (Image.overlay image (before.length + offset) new).toList = _
    rw [Image.toList_overlay, h, List.append_assoc, Bytes.overlay_append_right,
      Bytes.overlay_append_left _ (by simpa using hfits), List.append_assoc]
  insertSpace {image bytes offset} count h hle := by
    have hsize : image.size = before.length + bytes.length + after.length := by
      simp [← Image.length_toList, h, Nat.add_assoc]
    by_cases hbig : Host.memoryLimit ≤ image.size + count
    · refine Or.inr ⟨.fault .overflow, ?_⟩
      show (if image.size < before.length + offset then _ else _) = _
      rw [if_neg (by omega), if_pos hbig]
    · refine Or.inl ⟨image.take (before.length + offset) ++ .blank count
        ++ image.drop (before.length + offset), ?_, ?_⟩
      · show (if image.size < before.length + offset then _ else _) = _
        rw [if_neg (by omega), if_neg hbig]
      · simp only [Image.toList_append, Image.toList_take, Image.toList_drop, Image.toList_blank, h]
        exact Bytes.gap_middle hle before after _

variable {before after : Bytes} {image : Image} {length : Nat} {live : List String}

theorem Stands.openAt_eq (h : Stands before after image length live) :
    ∃ t, openAt image before.length = .ok t ∧ t.parts = packed length (live.map Text.bytes) :=
  openAt_of_encode h.packable.sized h.bytes

theorem Stands.removeAt_eq (h : Stands before after image length live) (value : String) :
    ∃ image', removeAt image before.length (Text.bytes value) = .ok (decide (value ∈ live), image') ∧
      Stands before after image' length (live.erase value) := by
  obtain ⟨t, ht, hparts⟩ := h.openAt_eq
  by_cases hm : value ∈ live
  · obtain ⟨rest, hrest, hparts'⟩ :=
      remove_packed h.packable hparts (Text.mem_map_bytes.2 hm)
    have hpack := h.packable.erase (Text.bytes value)
    have hlen : rest.parts.length = t.parts.length := by
      rw [hparts', hparts, h.packable.length_packed, hpack.length_packed]
    obtain ⟨image', hremove, hbytes⟩ := removeAt_of_remove ht hrest hlen (hparts ▸ h.bytes)
    rw [hparts', ← Text.map_bytes_erase] at hbytes
    rw [← Text.map_bytes_erase] at hpack
    refine ⟨image', ?_, hbytes, hpack⟩
    rw [hremove, decide_eq_true hm]
  · have habsent := remove_packed_absent h.packable hparts (mt Text.mem_map_bytes.1 hm)
    refine ⟨image, ?_, ?_⟩
    · rw [removeAt_of_absent ht habsent, decide_eq_false hm]
    · rwa [List.erase_of_not_mem hm]

theorem Stands.add_ok (h : Stands before after image length live) {value : String}
    {quantum : Nat} {image' : Image}
    (hadd : StringTable.add Host.memory before.length (Text.bytes value) quantum image
      = .ok () image') :
    value ∉ live ∧ ∃ length', length ≤ length' ∧ Stands before after image' length' (live ++ [value]) := by
  have hcarry := memory_carries before after
  have hnul : 0 ∉ Text.bytes value := by
    intro hnul
    rw [add_of_nul hnul] at hadd
    cases hadd
  have hq : 0 < quantum := by
    apply Nat.pos_of_ne_zero
    intro hq
    rw [hq, add_of_zero_quantum hnul] at hadd
    cases hadd
  have hnew : value ∉ live := by
    intro hm
    rw [hcarry.add_present h.packable h.bytes hq (Text.mem_map_bytes.2 hm)] at hadd
    cases hadd
  refine ⟨hnew, ?_⟩
  rcases hcarry.add_cases h.packable h.bytes hq (mt Text.mem_map_bytes.1 hnew) hnul rfl with
    ⟨image'', hadd', hbytes, hpack⟩ | ⟨j, hj, e, image'', hadd', hrest⟩
  · rw [hadd] at hadd'
    cases hadd'
    rw [← List.map_singleton, ← List.map_append] at hbytes hpack
    exact ⟨_, Nat.le_add_right _ _, hbytes, hpack⟩
  · rw [hadd] at hadd'
    cases hadd'

theorem Stands.size_eq (h : Stands before after image length live) :
    image.size = before.length + length + after.length := by
  have hlen := h.packable.length_packed
  simp only [← Image.length_toList, h.bytes, List.length_append, Parts.length_encode, hlen]

/-- One change to a table that stands leaves one that stands. -/
theorem Stands.apply_eq (h : Stands before after image length live) {edit : Edit} {image' : Image}
    (happly : edit.apply before.length image = .ok image') :
    ∃ length', Stands before after image' length' (edit.keep live) := by
  cases edit with
  | add value quantum =>
    simp only [Edit.apply] at happly
    split at happly
    · rename_i image'' hadd
      obtain rfl := Except.ok.inj happly
      obtain ⟨-, length', -, hstands⟩ := h.add_ok hadd
      exact ⟨length', hstands⟩
    · cases happly
  | remove value =>
    obtain ⟨image'', hremove, hstands⟩ := h.removeAt_eq value
    simp only [Edit.apply, hremove, Except.map] at happly
    obtain rfl := Except.ok.inj happly
    exact ⟨length, hstands⟩

theorem Stands.history_eq (h : Stands before after image length live) (history : List Edit)
    {image' : Image} (hrun : history.foldlM (Edit.apply before.length) image = .ok image') :
    ∃ length', Stands before after image' length' (history.foldl Edit.keep live) := by
  induction history generalizing image length live with
  | nil =>
    cases hrun
    exact ⟨length, h⟩
  | cons edit rest ih =>
    rw [List.foldlM_cons] at hrun
    cases happly : edit.apply before.length image with
    | error e =>
      rw [Steps.query_error happly] at hrun
      cases hrun
    | ok next =>
      rw [Steps.query_ok happly] at hrun
      obtain ⟨length', hnext⟩ := h.apply_eq happly
      exact ih hnext hrun

theorem formatAt_stands {image formatted : Image} {base capacity : Nat} {header : Header}
    (hformat : formatAt image base capacity = .ok (header, formatted))
    (zeroed : Bytes.slice image.toList base capacity = Bytes.zeros capacity) :
    (image.toList.take base).length = base ∧
    Stands (image.toList.take base) (image.toList.drop (base + capacity)) formatted capacity [] := by
  unfold formatAt at hformat
  split at hformat
  · cases hformat
  rename_i hbase
  unfold format at hformat
  split at hformat
  · cases hformat
  split at hformat
  · cases hformat
  split at hformat
  · cases hformat
  rename_i hsmall hspan hbig
  cases hformat
  have hlen : (image.toList.take base).length = base := by
    rw [List.length_take, Image.length_toList]
    omega
  have hpack : Packable capacity [] := packable_nil (by omega) (by omega)
  refine ⟨hlen, ?_, hpack⟩
  have hsplit : image.toList = image.toList.take base
      ++ (Bytes.zeros headerSize ++ (Bytes.zeros (capacity - headerSize)
        ++ image.toList.drop (base + capacity))) := by
    have hcap : capacity = headerSize + (capacity - headerSize) := by omega
    rw [← List.append_assoc (Bytes.zeros headerSize), ← Bytes.zeros_add, ← hcap, ← zeroed,
      Bytes.slice, ← List.drop_drop, List.take_append_drop, List.take_append_drop]
  show (Image.overlay image base _).toList = _
  rw [Image.toList_overlay, Image.toList_ofBytes]
  have hover := Bytes.overlay_middle (image.toList.take base) (Bytes.zeros headerSize)
    (Bytes.zeros (capacity - headerSize) ++ image.toList.drop (base + capacity))
    (Header.mk magic capacity capacity 0).encode (by rw [Header.length_encode, Bytes.length_zeros])
  rw [hlen, List.append_assoc, ← hsplit] at hover
  rw [hover, List.map_nil, encode_packed_nil (by omega)]
  simp only [List.append_assoc]

theorem Stands.answers (h : Stands before after image length live) :
    ∃ t, openAt image before.length = .ok t ∧ t.length = length ∧
      (∀ value, t.find (Text.bytes value) = .ok ((Text.ascending live).idxOf? value)) ∧
      (∀ n, t.ordinal n = .ok (Text.ascending live)[n]?) ∧
      t.outcomes = (Text.ascending live).map .ok := by
  obtain ⟨t, ht, hparts⟩ := h.openAt_eq
  have hordered := h.packable.ordered hparts
  rw [← Text.map_bytes_ascending (Text.nodup_map_bytes.1 h.packable.nodup)] at hordered
  refine ⟨t, ht, ?_, hordered.find_text, hordered.ordinal_eq, hordered.outcomes_eq⟩
  rw [← length_parts, hparts, h.packable.length_packed]

theorem Stands.add_remove (h : Stands before after image length live) {value : String}
    {quantum : Nat} {image' : Image}
    (hadd : StringTable.add Host.memory before.length (Text.bytes value) quantum image
      = .ok () image') (hsize : image'.size = image.size) :
    ∃ image'', removeAt image' before.length (Text.bytes value) = .ok (true, image'') ∧
      image''.toList = image.toList := by
  obtain ⟨hnew, length', -, hstands⟩ := h.add_ok hadd
  obtain ⟨image'', hremove, hback⟩ := hstands.removeAt_eq value
  have hlen : length' = length := by
    have := h.size_eq
    have := hstands.size_eq
    omega
  have hlive : (live ++ [value]).erase value = live := by
    rw [List.erase_append_right _ hnew, List.erase_cons_head, List.append_nil]
  rw [decide_eq_true (by simp)] at hremove
  rw [hlen, hlive] at hback
  exact ⟨image'', hremove, hback.bytes.trans h.bytes.symm⟩

/-- The image's bytes with `table` in place of the `capacity` bytes from `base` on. -/
def replaced (image : Image) (base capacity : Nat) (table : Bytes) : Bytes :=
  image.toList.take base ++ table ++ image.toList.drop (base + capacity)

/-- After any history of additions and removals, the bytes of a table are those of the strings that
are left, and so are its answers. -/
theorem history_layout {image formatted final : Image} {base capacity : Nat} {header : Header}
    {history : List Edit} (hformat : formatAt image base capacity = .ok (header, formatted))
    (zeroed : Bytes.slice image.toList base capacity = Bytes.zeros capacity)
    (hrun : history.foldlM (Edit.apply base) formatted = .ok final) :
    ∃ length,
      final.toList = replaced image base capacity
        (layout length ((survivors history).map Text.bytes)) ∧
      Ascending (ascending ((survivors history).map Text.bytes)) ∧
      (∃ t, openAt final base = .ok t ∧ t.length = length ∧
        (∀ value, t.find (Text.bytes value)
          = .ok ((Text.ascending (survivors history)).idxOf? value)) ∧
        (∀ n, t.ordinal n = .ok (Text.ascending (survivors history))[n]?) ∧
        t.outcomes = (Text.ascending (survivors history)).map .ok) ∧
      (∀ value, ∃ rest,
        removeAt final base (Text.bytes value)
          = .ok (decide (value ∈ survivors history), rest) ∧
        rest.toList = replaced image base capacity
          (layout length (((survivors history).erase value).map Text.bytes))) ∧
      ∀ value quantum more,
        StringTable.add Host.memory base (Text.bytes value) quantum final = .ok () more →
        more.size = final.size →
        ∃ rest, removeAt more base (Text.bytes value) = .ok (true, rest) ∧
          rest.toList = final.toList := by
  obtain ⟨hbase, hfresh⟩ := formatAt_stands hformat zeroed
  unfold replaced
  generalize image.toList.take base = before at *
  generalize image.toList.drop (base + capacity) = after at *
  subst hbase
  obtain ⟨length, hstands⟩ := hfresh.history_eq history hrun
  rw [← survivors] at hstands
  refine ⟨length, ?_, Bytes.ascending_ascending hstands.packable.nodup, hstands.answers, ?_, ?_⟩
  · rw [hstands.bytes, hstands.packable.encode_packed]
  · intro value
    obtain ⟨rest, hremove, hrest⟩ := hstands.removeAt_eq value
    refine ⟨rest, hremove, ?_⟩
    rw [hrest.bytes, hrest.packable.encode_packed]
  · intro value quantum more hadd hsize
    exact hstands.add_remove hadd hsize

theorem history_layout_growing : ∃ final length,
    [Edit.add "b" 16, .add "a" 7, .remove "b"].foldlM (Edit.apply 4)
      ((Image.blank 40).overlay 4 (.ofBytes (Header.mk magic 20 20 0).encode)) = .ok final ∧
    final.toList = replaced (.blank 40) 4 20 (layout length [Text.bytes "a"]) := by
  have hformat : formatAt (.blank 40) 4 20 = .ok (⟨magic, 20, 20, 0⟩,
      (Image.blank 40).overlay 4 (.ofBytes (Header.mk magic 20 20 0).encode)) := rfl
  have hrun : [Edit.add "b" 16, .add "a" 7, .remove "b"].foldlM (Edit.apply 4)
      ((Image.blank 40).overlay 4 (.ofBytes (Header.mk magic 20 20 0).encode)) = .ok ⟨[.zeros 4,
        .stored #[18, 52, 67, 33, 0, 0, 0, 36, 0, 0, 0, 32, 0, 0, 0, 2, 97, 0],
        .zeros 14, .stored #[0, 0, 0, 0], .zeros 16]⟩ := by cbv
  obtain ⟨length, hbytes, -⟩ := history_layout hformat (by decide) hrun
  exact ⟨_, length, hrun, hbytes⟩

end MediaLibrary.StringTable
