import MediaLibrary.Proofs.LibraryFile.Records
import MediaLibrary.Proofs.StringTable.Growth
/-! A library as storage for the table of one of its records. The table can be changed and lengthened
in its place: the records behind it move, their bytes stay the same, and so do those before it. A gap
is refused only if the library would become too large.

The storage does not end where the record does. What is written, and a gap, may lie behind the record,
which then ends elsewhere among the same bytes. -/
namespace MediaLibrary

namespace Record

theorem overlay_count (r : Record) (n : Nat) :
    Bytes.overlay r.header PlaylistHeader.countField.offset (Word.toBytes n)
      = header { r with count := n } := by
  have := Bytes.overlay_middle
    (Word.toBytes PlaylistHeader.magicNumber ++ Word.toBytes r.length) (Word.toBytes r.count)
    r.label (Word.toBytes n) rfl
  simpa [header, Word.listToBytes, PlaylistHeader.countField, Word.size, length] using this

theorem overlay_length (r : Record) (table : Bytes) :
    Bytes.overlay r.header PlaylistHeader.lengthField.offset
      (Word.toBytes (PlaylistHeader.size + table.length)) = header { r with table } := by
  have := Bytes.overlay_middle (Word.toBytes PlaylistHeader.magicNumber) (Word.toBytes r.length)
    (Word.toBytes r.count ++ r.label) (Word.toBytes (PlaylistHeader.size + table.length)) rfl
  simpa [header, Word.listToBytes, PlaylistHeader.lengthField, Word.size, length] using this

theorem header_congr {r : Record} {table : Bytes} (h : table.length = r.table.length) :
    header { r with table } = r.header := by
  rw [header, header, length, length, h]

theorem Sized.setCount {r : Record} (h : r.Sized) {n : Nat} (hn : n < Word.limit) :
    Sized { r with count := n } := ⟨h.label, hn, h.table⟩

theorem Sized.setTable {r : Record} (h : r.Sized) {table : Bytes}
    (ht : StringTable.headerSize ≤ table.length) : Sized { r with table } :=
  ⟨h.label, h.counted, ht⟩

end Record

namespace LibraryFile

theorem body_gap {offset : Nat} {bytes : Bytes} (h : offset ≤ bytes.length) (before gap : Bytes)
    (r : Record) :
    (before ++ (r.header ++ bytes)).take (before.length + (r.header.length + offset)) ++ gap
        ++ (before ++ (r.header ++ bytes)).drop (before.length + (r.header.length + offset))
      = before ++ (r.header ++ (bytes.take offset ++ gap ++ bytes.drop offset)) := by
  have hgap := Bytes.gap_middle h (before ++ r.header) [] gap
  rw [List.length_append, Nat.add_assoc] at hgap
  simpa using hgap

namespace Encloses

variable {settings : Settings} {v : Volume} {before after : Bytes} {r : Record} {lib : LibraryFile}

theorem putCount_ok (h : Encloses settings v before r after lib) {n : Nat} (hn : n < Word.limit) :
    ∃ lib', putWord (LibraryHeader.size + before.length + PlaylistHeader.countField.offset) n lib
        = .ok () lib' ∧
      Encloses settings v before { r with count := n } after lib' := by
  have hfits : PlaylistHeader.countField.offset + (Word.toBytes n).length ≤ r.header.length := by
    rw [h.sized.length_header, Word.length_toBytes]
    decide
  obtain ⟨lib', hput, hlib'⟩ := h.keeps.put_ok (before.length + PlaylistHeader.countField.offset)
    (.ofBytes (Word.toBytes n)) (by
      simp only [Record.encode, Image.size_ofBytes, List.length_append]
      omega)
  refine ⟨lib', ?_, ?_, h.sized.setCount hn⟩
  · rw [putWord, Nat.add_assoc]
    exact hput
  · rw [Image.toList_ofBytes, r.encode_append, Bytes.overlay_append_right,
      Bytes.overlay_append_left _ hfits, r.overlay_count] at hlib'
    rw [Record.encode_append]
    exact hlib'

theorem exists_of_header {bytes : Bytes} (hr : r.Sized) (hlong : r.table.length ≤ bytes.length)
    (h : Keeps settings { v with body := before ++ (r.header ++ bytes) } lib) :
    ∃ table after, table ++ after = bytes ∧ table.length = r.table.length ∧
      Encloses settings v before { r with table } after lib := by
  have htable : (bytes.take r.table.length).length = r.table.length := by
    rw [List.length_take, Nat.min_eq_left hlong]
  refine ⟨bytes.take r.table.length, bytes.drop r.table.length, List.take_append_drop _ _, htable, ?_,
    hr.setTable (htable.symm ▸ hr.table)⟩
  rwa [Record.encode_append, Record.header_congr htable, List.take_append_drop]

theorem putTail_ok (h : Encloses settings v before r after lib) (offset : Nat) (new : Image)
    (hfits : offset + new.size ≤ (r.table ++ after).length) :
    ∃ lib' table after', put (LibraryHeader.size + before.length + PlaylistHeader.size + offset) new
        lib = .ok () lib' ∧
      table ++ after' = Bytes.overlay (r.table ++ after) offset new.toList ∧
      table.length = r.table.length ∧
      Encloses settings v before { r with table } after' lib' := by
  have hinside : offset + new.toList.length ≤ (r.table ++ after).length := by simpa using hfits
  obtain ⟨lib', hput, hlib'⟩ := h.keeps.put_ok (before.length + (r.header.length + offset)) new (by
    rw [r.encode_append]
    simp only [List.length_append] at hfits ⊢
    omega)
  rw [r.encode_append, Bytes.overlay_append_right, Bytes.overlay_append_right] at hlib'
  have hlong : r.table.length ≤ (Bytes.overlay (r.table ++ after) offset new.toList).length := by
    rw [Bytes.length_overlay hinside, List.length_append]
    exact Nat.le_add_right _ _
  obtain ⟨table, after', hbytes, htable, h'⟩ := exists_of_header (v := v) h.sized hlong hlib'
  refine ⟨lib', table, after', ?_, hbytes, htable, h'⟩
  rw [Nat.add_assoc, Nat.add_assoc, ← h.sized.length_header]
  exact hput

theorem putTable_ok (h : Encloses settings v before r after lib) (offset : Nat) (new : Image)
    (hfits : offset + new.size ≤ r.table.length) :
    ∃ lib', put (LibraryHeader.size + before.length + PlaylistHeader.size + offset) new lib
        = .ok () lib' ∧
      Encloses settings v before { r with table := Bytes.overlay r.table offset new.toList } after
        lib' := by
  have hinside : offset + new.toList.length ≤ r.table.length := by simpa using hfits
  obtain ⟨lib', table, after', hput, hbytes, htable, h'⟩ :=
    h.putTail_ok offset new (Nat.le_trans hfits (by simp))
  rw [Bytes.overlay_append_left _ hinside] at hbytes
  obtain ⟨rfl, rfl⟩ := List.append_inj hbytes (htable.trans (Bytes.length_overlay hinside).symm)
  exact ⟨lib', hput, h'⟩

theorem word_length {bytes : Bytes} (hbelow : r.length < Word.limit)
    (h : Keeps settings { v with body := before ++ (r.header ++ bytes) } lib) :
    lib.word (LibraryHeader.size + before.length + PlaylistHeader.lengthField.offset)
      = .ok r.length := by
  have := h.word_body (before ++ Word.toBytes PlaylistHeader.magicNumber)
    (Word.toBytes r.count ++ r.label ++ bytes) hbelow (by simp [Record.header, Word.listToBytes])
  rwa [List.length_append, ← Nat.add_assoc] at this

theorem putLength_ok {bytes : Bytes} {count : Nat} (hr : r.Sized)
    (hlong : r.table.length + count ≤ bytes.length)
    (h : Keeps settings { v with body := before ++ (r.header ++ bytes) } lib) :
    ∃ lib' table after, putWord
        (LibraryHeader.size + before.length + PlaylistHeader.lengthField.offset) (r.length + count)
        lib = .ok () lib' ∧
      table ++ after = bytes ∧ table.length = r.table.length + count ∧
      Encloses settings v before { r with table } after lib' := by
  have htable : (bytes.take (r.table.length + count)).length = r.table.length + count := by
    rw [List.length_take, Nat.min_eq_left hlong]
  have hlength : PlaylistHeader.size + (bytes.take (r.table.length + count)).length
      = r.length + count := by
    rw [htable, ← Nat.add_assoc]
    rfl
  have hfits : PlaylistHeader.lengthField.offset + (Word.toBytes (r.length + count)).length
      ≤ r.header.length := by
    rw [hr.length_header, Word.length_toBytes]
    decide
  obtain ⟨lib', hput, hlib'⟩ := h.put_ok (before.length + PlaylistHeader.lengthField.offset)
    (.ofBytes (Word.toBytes (r.length + count))) (by
      rw [Image.size_ofBytes, List.length_append, List.length_append]
      omega)
  rw [Image.toList_ofBytes, Bytes.overlay_append_right, Bytes.overlay_append_left _ hfits, ← hlength,
    r.overlay_length] at hlib'
  refine ⟨lib', _, _, ?_, List.take_append_drop _ _, htable, ?_,
    hr.setTable (htable.symm ▸ Nat.le_trans hr.table (Nat.le_add_right _ _))⟩
  · rw [putWord, Nat.add_assoc]
    exact hput
  · rwa [Record.encode_append, List.take_append_drop]

/-- A gap behind the header of a record lengthens the record, or the library would become too large. -/
theorem insertSpace_tail (h : Encloses settings v before r after lib) {offset : Nat}
    (hoffset : offset ≤ (r.table ++ after).length) (count : Nat) :
    (∃ lib' table after', (host (LibraryHeader.size + before.length)).insertSpace
        (LibraryHeader.size + before.length + PlaylistHeader.size + offset) count lib
        = .ok () lib' ∧
      table ++ after' = (r.table ++ after).take offset ++ Bytes.zeros count
        ++ (r.table ++ after).drop offset ∧
      table.length = r.table.length + count ∧
      Encloses settings v before { r with table } after' lib') ∨
    Word.limit ≤ Volume.length { v with body := before ++ (r.encode ++ after) } + count ∧
      (host (LibraryHeader.size + before.length)).insertSpace
        (LibraryHeader.size + before.length + PlaylistHeader.size + offset) count lib
        = .error (.refused (.other LibraryError.tooLarge.message)) lib := by
  have hat : LibraryHeader.size + before.length + PlaylistHeader.size + offset
      = LibraryHeader.size + (before.length + (r.header.length + offset)) := by
    rw [h.sized.length_header]
    omega
  have hinside : before.length + (r.header.length + offset)
      ≤ (before ++ (r.encode ++ after)).length := by
    rw [r.encode_append]
    simp only [List.length_append] at hoffset ⊢
    omega
  have hlength := h.length_eq
  rcases Nat.lt_or_ge
      (Volume.length { v with body := before ++ (r.encode ++ after) } + count) Word.limit with
    hsmall | hbig
  · refine Or.inl ?_
    obtain ⟨lib₁, hins, h₁⟩ := h.keeps.insertSpace_ok hinside hsmall
    rw [r.encode_append, body_gap hoffset] at h₁
    have hlonger : r.table.length + count ≤ ((r.table ++ after).take offset ++ Bytes.zeros count
        ++ (r.table ++ after).drop offset).length := by
      simp only [List.length_append, List.length_take, List.length_drop, Bytes.length_zeros]
      rw [List.length_append] at hoffset
      omega
    have hword : consult (word · (LibraryHeader.size + before.length
        + PlaylistHeader.lengthField.offset)) lib₁ = .ok r.length lib₁ :=
      Steps.consult_ok (word_length h.record_below h₁)
    obtain ⟨lib₂, table, after', hput, hbytes, htable, h₂⟩ :=
      putLength_ok (v := v) h.sized hlonger h₁
    refine ⟨lib₂, table, after', Steps.adaptExcept_ok ?_, hbytes, htable, h₂⟩
    rw [hat, Steps.bind_ok hins, Steps.bind_ok hword, if_neg (by omega)]
    exact hput
  · have hins := h.keeps.insertSpace_refused hinside hbig
    rw [← hat] at hins
    exact Or.inr ⟨hbig, Steps.adaptExcept_error (Steps.bind_error hins)⟩

theorem insertSpace_cases (h : Encloses settings v before r after lib) {offset : Nat}
    (hoffset : offset ≤ r.table.length) (count : Nat) :
    (∃ lib', (host (LibraryHeader.size + before.length)).insertSpace
        (LibraryHeader.size + before.length + PlaylistHeader.size + offset) count lib
        = .ok () lib' ∧
      Encloses settings v before
        { r with table := r.table.take offset ++ Bytes.zeros count ++ r.table.drop offset } after
        lib') ∨
    (host (LibraryHeader.size + before.length)).insertSpace
        (LibraryHeader.size + before.length + PlaylistHeader.size + offset) count lib
        = .error (.refused (.other LibraryError.tooLarge.message)) lib := by
  have hbehind : offset ≤ (r.table ++ after).length := Nat.le_trans hoffset (by simp)
  rcases h.insertSpace_tail hbehind count with
    ⟨lib', table, after', hins, hbytes, htable, h'⟩ | ⟨-, hrefused⟩
  · rw [List.take_append_of_le_length hoffset, List.drop_append_of_le_length hoffset,
      ← List.append_assoc] at hbytes
    have hgap : table.length
        = (r.table.take offset ++ Bytes.zeros count ++ r.table.drop offset).length := by
      simp only [htable, List.length_append, List.length_take, List.length_drop,
        Bytes.length_zeros]
      omega
    obtain ⟨rfl, rfl⟩ := List.append_inj hbytes hgap
    exact Or.inl ⟨lib', hins, h'⟩
  · exact Or.inr hrefused

end Encloses

theorem host_image {lib : LibraryFile} {view : Image} (h : lib.view = .ok view) (record : Nat) :
    (host record).image lib = view := by
  simp only [host, h]

theorem host_overlay {lib lib' : LibraryFile} {offset : Nat} {new : Image}
    (h : put offset new lib = .ok () lib') (record : Nat) :
    (host record).overlay lib offset new = lib' := by
  rw [put, changeView] at h
  cases hview : lib.view with
  | error e =>
    rw [hview] at h
    cases h
  | ok view =>
    rw [hview, Steps.query_ok rfl] at h
    by_cases hfits : offset + new.size ≤ view.size
    · rw [if_pos hfits] at h
      simp only [host, hview]
      exact (EStateM.Result.ok.inj h).2
    · rw [if_neg hfits] at h
      cases h

theorem Encloses.exists_tableOf {settings : Settings} {v : Volume} {before after : Bytes} {r : Record}
    {lib : LibraryFile} (h : Encloses settings v before r after lib) {p : StringTable.Parts}
    (hp : p.Sized) (htable : r.table = p.encode) :
    ∃ t, lib.tableOf (LibraryHeader.size + before.length) = .ok t ∧ t.parts = p := by
  obtain ⟨view, hview, -⟩ := h.view_eq
  have himage : ((r.playlist (LibraryHeader.size + before.length)).tableImage view).toList
      = p.encode ++ [] := by
    rw [h.tableImage_eq hview, htable, List.append_nil]
  obtain ⟨t, ht, hparts⟩ := StringTable.decode_of_encode hp himage
  refine ⟨t, ?_, hparts⟩
  rw [h.tableOf_eq hview, ht]
  rfl

theorem encloses_carries (settings : Settings) (v : Volume) (before : Bytes) (r : Record)
    (after : Bytes) :
    (host (LibraryHeader.size + before.length)).Carries
      (LibraryHeader.size + before.length + PlaylistHeader.size)
      (fun lib table => Encloses settings v before { r with table } after lib) where
  image {lib table} h := by
    obtain ⟨view, hview, -, hbytes⟩ := h.view_eq
    refine ⟨_, _, (congrArg Image.toList (host_image hview _)).trans hbytes, ?_⟩
    simp only [List.length_append, h.keeps.sized.length_header, h.sized.length_header]
  overlay {lib table offset new} h hfits := by
    obtain ⟨lib', hput, hlib'⟩ := h.putTable_ok offset new hfits
    rw [host_overlay hput]
    exact hlib'
  insertSpace {lib table offset} count h hoffset := by
    rcases h.insertSpace_cases hoffset count with ⟨lib', hins, hlib'⟩ | hins
    · exact Or.inl ⟨lib', hins, hlib'⟩
    · exact Or.inr ⟨_, hins⟩

/-- Behind the header of a record stand `bytes`, up to the end of the file. The first of them are the
record's table. -/
def Tail (settings : Settings) (v : Volume) (before : Bytes) (r : Record) (lib : LibraryFile)
    (bytes : Bytes) : Prop :=
  ∃ table after, table ++ after = bytes ∧ Encloses settings v before { r with table } after lib

theorem Tail.image_eq {settings : Settings} {v : Volume} {before : Bytes} {r : Record}
    {lib : LibraryFile} {bytes : Bytes} (h : Tail settings v before r lib bytes) :
    ∃ lead, ((host (LibraryHeader.size + before.length)).image lib).toList = lead ++ bytes ∧
      lead.length = LibraryHeader.size + before.length + PlaylistHeader.size := by
  obtain ⟨table, after, rfl, h⟩ := h
  obtain ⟨view, hview, -, hbytes⟩ := h.view_eq
  rw [List.append_assoc] at hbytes
  refine ⟨_, (congrArg Image.toList (host_image hview _)).trans hbytes, ?_⟩
  simp only [List.length_append, h.keeps.sized.length_header, h.sized.length_header]

theorem tail_carries (settings : Settings) (v : Volume) (before : Bytes) (r : Record) :
    (host (LibraryHeader.size + before.length)).Carries
      (LibraryHeader.size + before.length + PlaylistHeader.size) (Tail settings v before r) where
  image {lib bytes} h := by
    obtain ⟨lead, himage, hlead⟩ := h.image_eq
    exact ⟨lead, [], himage.trans (List.append_nil _).symm, hlead⟩
  overlay {lib bytes offset new} h hfits := by
    obtain ⟨table, after, rfl, h⟩ := h
    obtain ⟨lib', table', after', hput, hbytes, -, h'⟩ := h.putTail_ok offset new hfits
    rw [host_overlay hput]
    exact ⟨table', after', hbytes, h'⟩
  insertSpace {lib bytes offset} count h hoffset := by
    obtain ⟨table, after, rfl, h⟩ := h
    rcases h.insertSpace_tail hoffset count with
      ⟨lib', table', after', hins, hbytes, -, h'⟩ | ⟨-, hrefused⟩
    · exact Or.inl ⟨lib', hins, table', after', hbytes, h'⟩
    · exact Or.inr ⟨_, hrefused⟩

theorem Tail.exists_parts {settings : Settings} {v : Volume} {before : Bytes} {r : Record}
    {lib : LibraryFile} {bytes : Bytes} (h : Tail settings v before r lib bytes) {t : StringTable}
    (ht : StringTable.tableAt (host (LibraryHeader.size + before.length))
      (LibraryHeader.size + before.length + PlaylistHeader.size) lib = .ok t) :
    t.parts.Sized ∧ ∃ rest, bytes = t.parts.encode ++ rest := by
  obtain ⟨lead, himage, hlead⟩ := h.image_eq
  have hdecode := StringTable.decode_of_decodeAt (Steps.ofCheck_eq_ok_iff.1 ht)
  obtain ⟨hsized, rest, hrest⟩ := StringTable.encode_of_decode hdecode
  rw [Image.toList_drop, himage, ← hlead, List.drop_left] at hrest
  exact ⟨hsized, rest, hrest⟩

/-- A growing table is refused for want of space only, wherever in the tail it ends. -/
theorem host_refuses {settings : Settings} {v : Volume} {before : Bytes} {r : Record}
    {shows : LibraryFile → Bytes → Prop}
    (htail : ∀ {lib bytes}, shows lib bytes → ∃ more, Tail settings v before r lib (bytes ++ more))
    {lib : LibraryFile} {quantum : Nat} {e : Failure TableError}
    (h : (host (LibraryHeader.size + before.length)).Refuses
      (LibraryHeader.size + before.length + PlaylistHeader.size) shows quantum lib e) :
    e = .refused .overflow ∨
    e = .refused (.grow (.other LibraryError.tooLarge.message)) := by
  rcases h with rfl | ⟨bytes, offset, f, hshows, hoffset, hins, rfl⟩
  · exact Or.inl rfl
  · refine Or.inr ?_
    obtain ⟨more, table, after, hbytes, hencloses⟩ := htail hshows
    have hinside : offset ≤ (table ++ after).length := by
      rw [hbytes, List.length_append]
      exact Nat.le_add_right_of_le hoffset
    rcases hencloses.insertSpace_tail hinside quantum with ⟨lib', _, _, hok, -⟩ | ⟨-, hrefused⟩
    · rw [hins] at hok
      cases hok
    · rw [hins] at hrefused
      rw [(EStateM.Result.error.inj hrefused).1]
      rfl

end LibraryFile
end MediaLibrary
