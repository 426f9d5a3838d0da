import MediaLibrary.Proofs.Bytes.Splice
import MediaLibrary.Proofs.Steps
import MediaLibrary.StringTable.Embedded
/-! String tables as plain bytes. A table is read through images, which hold the same bytes in more
than one way; its parts are those bytes, and everything a table answers depends on them alone. What
`encode` writes, `decode` reads back, wherever it lies in a larger image. -/
namespace MediaLibrary.StringTable

theorem Header.length_encode (h : Header) : h.encode.length = headerSize := rfl

theorem Header.decode_encode {h : Header} (hm : h.magic < Word.limit) (hl : h.length < Word.limit)
    (hi : h.indexOffset < Word.limit) (hs : h.stringBytes < Word.limit) :
    Header.decode? h.encode = some h := by
  have key : Header.decode? h.encode = some
      ⟨Word.ofBytes (Word.toBytes h.magic), Word.ofBytes (Word.toBytes h.length),
        Word.ofBytes (Word.toBytes h.indexOffset), Word.ofBytes (Word.toBytes h.stringBytes)⟩ := rfl
  rw [key, Word.ofBytes_toBytes_of_lt hm, Word.ofBytes_toBytes_of_lt hl,
    Word.ofBytes_toBytes_of_lt hi, Word.ofBytes_toBytes_of_lt hs]

theorem Header.length_of_decode {bytes : Bytes} {h : Header}
    (hd : Header.decode? bytes = some h) : headerSize ≤ bytes.length := by
  rcases Nat.lt_or_ge bytes.length headerSize with hshort | hlong
  · have hlast : stringBytesField.get? bytes = none := if_neg (Nat.not_le.2 hshort)
    rw [Header.decode?, hlast] at hd
    cases hm : magicField.get? bytes <;> cases hl : lengthField.get? bytes <;>
      cases hi : indexOffsetField.get? bytes <;> simp [hm, hl, hi] at hd
  · exact hlong

theorem Header.encode_of_decode {bytes : Bytes} {h : Header}
    (hd : Header.decode? (bytes.take headerSize) = some h) :
    h.length < Word.limit ∧ bytes.take headerSize = h.encode := by
  have hlen : (bytes.take headerSize).length = headerSize :=
    Nat.le_antisymm (List.length_take_le _ _) (Header.length_of_decode hd)
  generalize bytes.take headerSize = head at hd hlen
  obtain ⟨numbers, rest, rfl, hnumbers, hbelow⟩ := Word.exists_listToBytes 4 (Nat.le_of_eq hlen.symm)
  have hrest : rest = [] := by
    rw [List.length_append, Word.length_listToBytes, hnumbers] at hlen
    exact List.eq_nil_of_length_eq_zero (Nat.add_left_cancel hlen)
  match numbers, hnumbers with
  | [m, l, i, s], _ =>
    have hm : m < Word.limit := hbelow m (by simp)
    have hl : l < Word.limit := hbelow l (by simp)
    have hi : i < Word.limit := hbelow i (by simp)
    have hs : s < Word.limit := hbelow s (by simp)
    have hread := @Header.decode_encode ⟨m, l, i, s⟩ hm hl hi hs
    rw [hrest, List.append_nil] at hd ⊢
    obtain rfl := Option.some.inj (hread.symm.trans hd)
    exact ⟨hl, rfl⟩

/-- The bytes of a table behind its header. -/
@[ext]
structure Parts where
  strings : Bytes
  free : Bytes
  index : Bytes
  deriving DecidableEq, Repr

namespace Parts

def indexOffset (p : Parts) : Nat := headerSize + p.strings.length + p.free.length

def length (p : Parts) : Nat := p.indexOffset + p.index.length

def header (p : Parts) : Header := ⟨magic, p.length, p.indexOffset, p.strings.length⟩

def encode (p : Parts) : Bytes := p.header.encode ++ p.strings ++ p.free ++ p.index

structure Sized (p : Parts) : Prop where
  whole : p.index.length % slotSize = 0
  below : p.length < Word.limit

def widen (p : Parts) (count : Nat) : Parts := { p with free := p.free ++ Bytes.zeros count }

@[simp] theorem length_encode (p : Parts) : p.encode.length = p.length := by
  simp only [encode, List.length_append, Header.length_encode, length, indexOffset]

@[simp] theorem length_widen (p : Parts) (count : Nat) :
    (p.widen count).length = p.length + count := by
  simp [widen, length, indexOffset]
  omega

@[simp] theorem widen_zero (p : Parts) : p.widen 0 = p := by simp [widen, Bytes.zeros]

theorem widen_widen (p : Parts) (first second : Nat) :
    (p.widen first).widen second = p.widen (first + second) := by
  simp [widen, Bytes.zeros_add]

theorem Sized.widen {p : Parts} (h : p.Sized) {count : Nat} (hc : p.length + count < Word.limit) :
    (p.widen count).Sized :=
  ⟨h.whole, by rwa [length_widen]⟩

theorem headerSize_le_length (p : Parts) : headerSize ≤ p.length := by
  unfold length indexOffset
  omega

end Parts

def parts (t : StringTable) : Parts := ⟨t.strings.toList, t.free.toList, t.index.toList⟩

theorem length_parts (t : StringTable) : t.parts.length = t.length := by
  simp [parts, Parts.length, Parts.indexOffset, length, indexOffset]

theorem length_free_parts (t : StringTable) : t.parts.free.length = t.free.size :=
  Image.length_toList _

theorem indexOffset_parts (t : StringTable) : t.parts.indexOffset = t.indexOffset := by
  simp [parts, Parts.indexOffset, indexOffset]

@[simp] theorem toList_encode (t : StringTable) : t.encode.toList = t.parts.encode := by
  have strings : t.parts.strings.length = t.strings.size := by simp [parts]
  have hh : t.parts.header = t.header := by
    rw [Parts.header, length_parts, indexOffset_parts, strings, header]
  rw [Parts.encode, hh]
  simp [encode, parts]

theorem decode_header_of_encode {image : Image} {p : Parts} {rest : Bytes} (hp : p.Sized)
    (h : image.toList = p.encode ++ rest) :
    Header.decode? (image.read 0 headerSize) = some p.header := by
  have hlen := hp.below
  have hread : image.read 0 headerSize = p.header.encode := by
    rw [Image.toList_read, h, Parts.encode]
    simp only [List.append_assoc]
    exact Bytes.slice_length p.header.encode _
  rw [hread, Header.decode_encode] <;>
    simp only [Parts.header, magic, Word.limit, Parts.length, Parts.indexOffset] at hlen ⊢ <;>
    omega

theorem decode_of_encode {image : Image} {p : Parts} {rest : Bytes} (hp : p.Sized)
    (h : image.toList = p.encode ++ rest) : ∃ t, decode image = .ok t ∧ t.parts = p := by
  have hsize : image.size = p.length + rest.length := by simp [← Image.length_toList, h]
  have hfree : p.indexOffset - (headerSize + p.strings.length) = p.free.length := by
    unfold Parts.indexOffset
    omega
  have hindex : p.length - p.indexOffset = p.index.length := by
    unfold Parts.length
    omega
  let t : StringTable :=
    { strings := image.slice headerSize p.strings.length
      free := image.slice (headerSize + p.strings.length) p.free.length
      index := image.slice p.indexOffset p.index.length }
  have strings : t.strings.toList = p.strings := by
    rw [Image.toList_slice, h, Parts.encode, List.append_assoc, List.append_assoc]
    exact Bytes.slice_middle p.header.encode p.strings _
  have free : t.free.toList = p.free := by
    rw [Image.toList_slice, h, Parts.encode, List.append_assoc]
    have := Bytes.slice_middle (p.header.encode ++ p.strings) p.free (p.index ++ rest)
    rwa [List.length_append, Header.length_encode] at this
  have index : t.index.toList = p.index := by
    rw [Image.toList_slice, h, Parts.encode]
    have := Bytes.slice_middle (p.header.encode ++ p.strings ++ p.free) p.index rest
    rwa [List.length_append, List.length_append, Header.length_encode] at this
  refine ⟨t, ?_, by rw [parts, strings, free, index]⟩
  have magical : ¬ p.header.magic ≠ magic := not_not_intro rfl
  have fits : ¬ image.size < p.header.length := by
    show ¬ image.size < p.length
    omega
  have consistent : ¬ (p.header.length < p.header.indexOffset
      ∨ p.header.indexOffset < headerSize + p.header.stringBytes) := by
    show ¬ (p.length < p.indexOffset ∨ p.indexOffset < headerSize + p.strings.length)
    unfold Parts.length Parts.indexOffset
    omega
  have whole : ¬ (p.header.length - p.header.indexOffset) % slotSize ≠ 0 := by
    show ¬ (p.length - p.indexOffset) % slotSize ≠ 0
    rw [hindex]
    exact not_not_intro hp.whole
  unfold decode
  rw [decode_header_of_encode hp h]
  simp only [if_neg magical, if_neg fits, if_neg consistent, if_neg whole]
  simp only [Parts.header, hfree, hindex, t]

/-- Whatever is read as a table begins with the bytes that the table is written as. -/
theorem encode_of_decode {image : Image} {t : StringTable} (h : decode image = .ok t) :
    t.parts.Sized ∧ ∃ rest, image.toList = t.parts.encode ++ rest := by
  unfold decode at h
  split at h
  · cases h
  · rename_i header hheader
    rw [Image.toList_read, Bytes.slice, List.drop_zero] at hheader
    obtain ⟨hbelow, hhead⟩ := Header.encode_of_decode hheader
    split at h
    · cases h
    split at h
    · cases h
    split at h
    · cases h
    split at h
    · cases h
    rename_i hmagic hfits hconsistent hwhole
    obtain rfl := Except.ok.inj h
    obtain ⟨magic, length, indexOffset, stringBytes⟩ := header
    simp only at hmagic hfits hconsistent hwhole hbelow hhead ⊢
    have hsize : image.toList.length = image.size := Image.length_toList image
    generalize hfree : indexOffset - (headerSize + stringBytes) = free
    generalize hindex : length - indexOffset = index at hwhole
    obtain rfl : indexOffset = headerSize + stringBytes + free := by omega
    obtain rfl : length = headerSize + stringBytes + free + index := by omega
    obtain rfl : magic = StringTable.magic := Classical.byContradiction hmagic
    have hstrings : (Bytes.slice image.toList headerSize stringBytes).length = stringBytes := by
      rw [Bytes.length_slice]
      omega
    have hspare : (Bytes.slice image.toList (headerSize + stringBytes) free).length = free := by
      rw [Bytes.length_slice]
      omega
    have hslots : (Bytes.slice image.toList (headerSize + stringBytes + free) index).length
        = index := by
      rw [Bytes.length_slice]
      omega
    simp only [parts, Image.toList_slice]
    refine ⟨⟨?_, ?_⟩, image.toList.drop (headerSize + stringBytes + free + index), ?_⟩
    · rw [hslots]
      exact Classical.byContradiction hwhole
    · simpa only [Parts.length, Parts.indexOffset, hstrings, hspare, hslots] using hbelow
    · simp only [Parts.encode, Parts.header, Parts.length, Parts.indexOffset, hstrings, hspare,
        hslots]
      rw [← hhead, ← Bytes.take_add_slice, ← Bytes.take_add_slice, ← Bytes.take_add_slice,
        List.take_append_drop]

theorem encode_of_decode_whole {image : Image} {t : StringTable} (h : decode image = .ok t)
    (hlen : t.length = image.size) : t.parts.Sized ∧ image.toList = t.parts.encode := by
  obtain ⟨hsized, rest, hbytes⟩ := encode_of_decode h
  have hsum := congrArg List.length hbytes
  rw [Image.length_toList, List.length_append, Parts.length_encode, length_parts] at hsum
  have hrest : rest = [] := List.eq_nil_of_length_eq_zero (by omega)
  rw [hrest, List.append_nil] at hbytes
  exact ⟨hsized, hbytes⟩

theorem length_le_of_decode {image : Image} {t : StringTable} (h : decode image = .ok t) :
    t.length ≤ image.size := by
  obtain ⟨-, rest, hbytes⟩ := encode_of_decode h
  rw [← Image.length_toList, hbytes, List.length_append, Parts.length_encode, length_parts]
  exact Nat.le_add_right _ _

/-- A table that is read from an image is read from the start of it too, or ends behind that. -/
theorem decode_of_longer {long short : Image} {rest : Bytes} {t : StringTable}
    (hlong : decode long = .ok t) (hfront : long.toList = short.toList ++ rest)
    (hsize : headerSize ≤ short.size) :
    (∃ t', decode short = .ok t') ∨
      short.size < t.length ∧ decode short = .error (.lengthOverrun t.length short.size) := by
  obtain ⟨hsized, others, hbytes⟩ := encode_of_decode hlong
  have hlength : t.parts.encode.length = t.length := by
    rw [Parts.length_encode, length_parts]
  by_cases hfits : t.length ≤ short.size
  · have hshort : short.toList
        = t.parts.encode ++ others.take (short.size - t.parts.encode.length) := by
      rw [← List.take_left' (Image.length_toList short), ← hfront, hbytes, List.take_append,
        List.take_of_length_le (hlength ▸ hfits)]
    obtain ⟨t', ht', -⟩ := decode_of_encode hsized hshort
    exact Or.inl ⟨t', ht'⟩
  · have hread : short.read 0 headerSize = long.read 0 headerSize := by
      rw [Image.toList_read, Image.toList_read, hfront, Bytes.slice_append_left]
      rwa [Nat.zero_add, Image.length_toList]
    have hheader := decode_header_of_encode hsized hbytes
    have hover : short.size < t.parts.header.length := by
      rw [Parts.header, length_parts]
      exact Nat.not_le.1 hfits
    refine Or.inr ⟨Nat.not_le.1 hfits, ?_⟩
    rw [decode, hread, hheader]
    simp only [if_pos hover]
    rw [if_neg (by simp [Parts.header]), Parts.header, length_parts]

/-! Tables inside a larger image. -/

section Embedded

variable {image : Image} {before after : Bytes} {base : Nat} {t rest : StringTable} {p : Parts}

theorem openAt_of_encode (hp : p.Sized) (h : image.toList = before ++ p.encode ++ after) :
    ∃ t, openAt image before.length = .ok t ∧ t.parts = p := by
  have hdrop : (image.drop before.length).toList = p.encode ++ after := by
    rw [Image.toList_drop, h, List.append_assoc, List.drop_left]
  have hsize : ¬ image.size < before.length := by
    simp only [← Image.length_toList, h, List.length_append]
    omega
  obtain ⟨t, ht, hparts⟩ := decode_of_encode hp hdrop
  exact ⟨t, by rw [openAt, if_neg hsize, ht]; rfl, hparts⟩

theorem decode_of_openAt (h : openAt image base = .ok t) :
    base ≤ image.size ∧ decode (image.drop base) = .ok t := by
  unfold openAt at h
  split at h
  · cases h
  · rename_i hsize
    exact ⟨Nat.not_lt.1 hsize, Steps.ofCheck_eq_ok_iff.1 h⟩

theorem encode_of_openAt (h : openAt image base = .ok t) :
    t.parts.Sized ∧ ∃ before after, image.toList = before ++ t.parts.encode ++ after ∧
      before.length = base := by
  obtain ⟨hsize, hdecode⟩ := decode_of_openAt h
  obtain ⟨hsized, after, hafter⟩ := encode_of_decode hdecode
  refine ⟨hsized, image.toList.take base, after, ?_, ?_⟩
  · rw [List.append_assoc, ← hafter, Image.toList_drop, List.take_append_drop]
  · rw [List.length_take, Image.length_toList]
    omega

theorem removeAt_of_remove (hopen : openAt image before.length = .ok t) {value : Bytes}
    (hremove : t.remove value = .ok (some rest)) (hlen : rest.parts.length = t.parts.length)
    (h : image.toList = before ++ t.parts.encode ++ after) :
    ∃ image', removeAt image before.length value = .ok (true, image') ∧
      image'.toList = before ++ rest.parts.encode ++ after := by
  have hsame : rest.parts.encode.length = t.parts.encode.length := by
    rw [Parts.length_encode, Parts.length_encode, hlen]
  refine ⟨image.overlay before.length rest.encode, ?_, ?_⟩
  · rw [removeAt, Steps.query_ok hopen, hremove]
    rfl
  · rw [Image.toList_overlay, h, toList_encode, Bytes.overlay_middle _ _ _ _ hsame]

theorem removeAt_of_absent (hopen : openAt image base = .ok t) {value : Bytes}
    (hremove : t.remove value = .ok none) : removeAt image base value = .ok (false, image) := by
  rw [removeAt, Steps.query_ok hopen, hremove]
  rfl

end Embedded

/-! What a table answers, in terms of its bytes. -/

theorem entries_eq (t : StringTable) : t.entries = t.parts.index.length / slotSize := by
  simp [entries, parts]

theorem slotAt_eq (t : StringTable) (n : Nat) :
    t.slotAt n = Word.ofBytes (Bytes.slice t.parts.index (slotSize * n) slotSize) := by
  simp [slotAt, parts]

theorem resolve_eq (t : StringTable) (offset : Nat) :
    t.resolve offset =
      if t.parts.strings.length ≤ offset then .error (.offsetOutOfRange offset)
      else if 0 ∈ t.parts.strings.drop offset then
        .ok (Bytes.untilZero (t.parts.strings.drop offset))
      else .error (.unterminated offset) := by
  unfold resolve
  rw [Image.upToZero?_eq]
  simp only [parts, Image.length_toList]
  split
  · rfl
  · by_cases h : 0 ∈ t.strings.toList.drop offset <;> simp only [h, if_true, if_false]

/-- In a string area, `value` begins at `offset` and ends before the next zero byte. -/
def StandsAt (area : Bytes) (offset : Nat) (value : Bytes) : Prop :=
  0 ∉ value ∧ ∃ rest, area.drop offset = value ++ 0 :: rest

theorem StandsAt.untilZero_eq {area value : Bytes} {offset : Nat} (h : StandsAt area offset value) :
    Bytes.untilZero (area.drop offset) = value := by
  obtain ⟨hnul, rest, hrest⟩ := h
  rw [hrest, Bytes.untilZero_append_of_not_mem hnul]
  simp [Bytes.untilZero]

theorem StandsAt.lt {area value : Bytes} {offset : Nat} (h : StandsAt area offset value) :
    offset + value.length < area.length := by
  obtain ⟨-, rest, hrest⟩ := h
  have := congrArg List.length hrest
  simp only [List.length_drop, List.length_append, List.length_cons] at this
  omega

theorem resolve_eq_ok_iff (t : StringTable) (offset : Nat) (value : Bytes) :
    t.resolve offset = .ok value ↔ StandsAt t.parts.strings offset value := by
  rw [resolve_eq]
  constructor
  · intro h
    split at h
    · cases h
    split at h
    · rename_i hin hmem
      obtain rfl := Except.ok.inj h
      exact Bytes.eq_untilZero_append hmem
    · cases h
  · intro h
    have hlt := h.lt
    have hmem : 0 ∈ t.parts.strings.drop offset := by
      obtain ⟨-, rest, hrest⟩ := h
      simp [hrest]
    rw [if_neg (by omega), if_pos hmem, h.untilZero_eq]

theorem sortKey_eq (t : StringTable) (offset : Nat) :
    t.sortKey offset = Bytes.untilZero (t.parts.strings.drop offset) := by
  unfold sortKey
  rw [Image.upToZero?_eq]
  simp only [parts]
  split
  · rfl
  · rename_i h
    have := Bytes.untilZero_append_of_not_mem h []
    simpa [Bytes.untilZero] using this.symm

theorem slots_of_index {t : StringTable} {slots : List Nat}
    (h : t.parts.index = Word.listToBytes slots) (below : ∀ slot ∈ slots, slot < Word.limit) :
    t.slots = slots := by
  have hentries : t.entries = slots.length := by
    rw [entries_eq, h, Word.length_listToBytes]
    simp [slotSize, Word.size]
  apply List.ext_getElem?
  intro n
  rw [getElem?_slots, hentries, slotAt_eq, h]
  by_cases hn : n < slots.length
  · rw [if_pos hn, List.getElem?_eq_getElem hn, slotSize, Word.slice_listToBytes hn,
      Word.ofBytes_toBytes_of_lt (below _ (List.getElem_mem hn))]
  · rw [if_neg hn, List.getElem?_eq_none (Nat.le_of_not_lt hn)]

section Congruence

variable {t t' : StringTable}

theorem entries_congr (h : t'.parts.index = t.parts.index) : t'.entries = t.entries := by
  rw [entries_eq, entries_eq, h]

theorem slotAt_congr (h : t'.parts.index = t.parts.index) : t'.slotAt = t.slotAt := by
  funext n
  rw [slotAt_eq, slotAt_eq, h]

theorem slots_congr (h : t'.parts.index = t.parts.index) : t'.slots = t.slots := by
  rw [slots, slots, entries_congr h, slotAt_congr h]

theorem resolve_congr (h : t'.parts.strings = t.parts.strings) : t'.resolve = t.resolve := by
  funext offset
  rw [resolve_eq, resolve_eq, h]

theorem sortKey_congr (h : t'.parts.strings = t.parts.strings) : t'.sortKey = t.sortKey := by
  funext offset
  rw [sortKey_eq, sortKey_eq, h]

end Congruence

theorem index_eq {t : StringTable} (h : t.parts.index.length % slotSize = 0) :
    t.parts.index = Word.listToBytes t.slots := by
  obtain ⟨slots, rest, hindex, hlen, hbelow⟩ :=
    Word.exists_listToBytes (t.parts.index.length / slotSize) (Nat.mul_div_le _ slotSize)
  have hrest : rest.length = 0 := by
    have hsum := congrArg List.length hindex
    have hdiv := Nat.div_add_mod t.parts.index.length slotSize
    rw [List.length_append, Word.length_listToBytes, hlen] at hsum
    unfold slotSize at *
    omega
  rw [List.eq_nil_of_length_eq_zero hrest, List.append_nil] at hindex
  rw [slots_of_index hindex hbelow]
  exact hindex

end MediaLibrary.StringTable
