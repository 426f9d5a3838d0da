import MediaLibrary.Proofs.LibraryFile.Removal
/-! Reading the playlists of a library that passes the full check, however its file came about. The
check does not ask whether the stored strings are text, and the readers do. So each string can be
read that is text, and the others are told as damage. -/
namespace MediaLibrary.LibraryFile

/-- What the readers answer for a playlist whose table holds the strings `values`. -/
structure ReadAs (lib : LibraryFile) (p : Playlist) (values : List Bytes) : Prop where
  stored : ∃ t, lib.tableOf p.offset = .ok t ∧ t.slots.map t.resolve = values.map .ok
  counted : p.count = values.length
  ascending : Bytes.Ascending values
  paths_ok : ∀ texts, lib.paths p.offset = .ok texts ↔ texts.map Text.bytes = values
  paths_error : ∀ e, lib.paths p.offset = .error e →
    ∃ slot, e = .refused (.corrupt (.table (.notUtf8 slot)))
  pathAt_none : ∀ n, lib.pathAt p.offset n = .ok none ↔ p.count ≤ n
  pathAt_some : ∀ n text, lib.pathAt p.offset n = .ok (some text) ↔
    values[n]? = some (Text.bytes text)
  pathAt_error : ∀ n e, lib.pathAt p.offset n = .error e →
    ∃ slot, e = .refused (.corrupt (.table (.notUtf8 slot)))
  findPath : ∀ n text, lib.pathAt p.offset n = .ok (some text) →
    lib.findPath p.offset text = .ok (some n)

section Readers

variable {lib : LibraryFile} {p : Playlist} {t : StringTable} {values : List Bytes}

theorem paths_cases (ht : lib.tableOf p.offset = .ok t) (h : t.Ordered values) :
    (∃ texts, texts.map Text.bytes = values ∧ lib.paths p.offset = .ok texts) ∨
    ∃ slot, (∃ value ∈ values, ∀ text, Text.bytes text ≠ value) ∧
      lib.paths p.offset = .error (.refused (.corrupt (.table (.notUtf8 slot)))) := by
  rw [paths, Steps.query_ok ht, StringTable.texts]
  rcases h.textsFrom_cases [] 0 with ⟨texts, hvalues, hread⟩ | ⟨slot, hvalue, hread⟩
  · exact Or.inl ⟨texts, hvalues, by rw [hread]; rfl⟩
  · exact Or.inr ⟨slot, hvalue, by rw [hread]; rfl⟩

theorem pathAt_cases (ht : lib.tableOf p.offset = .ok t) (h : t.Ordered values) (n : Nat) :
    (values.length ≤ n ∧ lib.pathAt p.offset n = .ok none) ∨
    (∃ text, values[n]? = some (Text.bytes text) ∧ lib.pathAt p.offset n = .ok (some text)) ∨
    ∃ slot, (n < values.length ∧ ∀ text, values[n]? ≠ some (Text.bytes text)) ∧
      lib.pathAt p.offset n = .error (.refused (.corrupt (.table (.notUtf8 slot)))) := by
  rw [pathAt, Steps.query_ok ht]
  rcases h.ordinal_cases n with ⟨hn, hread⟩ | ⟨text, hvalue, hread⟩ | ⟨hn, hno, hread⟩
  · exact Or.inl ⟨hn, by rw [hread]; rfl⟩
  · exact Or.inr (Or.inl ⟨text, hvalue, by rw [hread]; rfl⟩)
  · exact Or.inr (Or.inr ⟨_, ⟨hn, hno⟩, by rw [hread]; rfl⟩)

theorem findPath_eq (ht : lib.tableOf p.offset = .ok t) (h : t.Ordered values) {n : Nat}
    {text : String} (hvalue : values[n]? = some (Text.bytes text)) :
    lib.findPath p.offset text = .ok (some n) := by
  obtain ⟨hn, hget⟩ := List.getElem?_eq_some_iff.1 hvalue
  rw [findPath, Steps.query_ok ht, h.find_eq, ← hget, if_pos (List.getElem_mem hn),
    h.ascending.rank_getElem hn]
  rfl

theorem readAs_of_ordered (ht : lib.tableOf p.offset = .ok t) (h : t.Ordered values)
    (hcount : p.count = values.length) : ReadAs lib p values where
  stored := ⟨t, ht, h.resolves⟩
  counted := hcount
  ascending := h.ascending
  paths_ok := by
    intro texts
    constructor
    · intro hok
      rcases paths_cases ht h with ⟨read, hvalues, hread⟩ | ⟨slot, -, hread⟩
      · obtain rfl := Except.ok.inj (hread.symm.trans hok)
        exact hvalues
      · rw [hread] at hok
        cases hok
    · rintro rfl
      rw [paths, Steps.query_ok ht, h.texts_eq]
      rfl
  paths_error := by
    intro e herror
    rcases paths_cases ht h with ⟨read, -, hread⟩ | ⟨slot, -, hread⟩
    · rw [hread] at herror
      cases herror
    · exact ⟨slot, (Except.error.inj (hread.symm.trans herror)).symm⟩
  pathAt_none := by
    intro n
    rw [hcount]
    rcases pathAt_cases ht h n with ⟨hn, hread⟩ | ⟨text, hvalue, hread⟩ | ⟨slot, ⟨hn, -⟩, hread⟩
    · exact ⟨fun _ => hn, fun _ => hread⟩
    · obtain ⟨hn, -⟩ := List.getElem?_eq_some_iff.1 hvalue
      simp [hread, hn]
    · simp [hread, hn]
  pathAt_some := by
    intro n text
    rcases pathAt_cases ht h n with ⟨hn, hread⟩ | ⟨text', hvalue, hread⟩ | ⟨slot, ⟨-, hno⟩, hread⟩
    · simp [hread, List.getElem?_eq_none hn]
    · simp [hread, hvalue]
    · simp [hread, hno text]
  pathAt_error := by
    intro n e herror
    rcases pathAt_cases ht h n with ⟨-, hread⟩ | ⟨text, -, hread⟩ | ⟨slot, -, hread⟩
    · rw [hread] at herror
      cases herror
    · rw [hread] at herror
      cases herror
    · exact ⟨slot, (Except.error.inj (hread.symm.trans herror)).symm⟩
  findPath := by
    intro n text hread
    rcases pathAt_cases ht h n with ⟨-, h'⟩ | ⟨text', hvalue, h'⟩ | ⟨slot, -, h'⟩
    · rw [h'] at hread
      cases hread
    · rw [h'] at hread
      cases hread
      exact findPath_eq ht h hvalue
    · rw [h'] at hread
      cases hread

end Readers

def oneByteLibrary (byte : UInt8) : LibraryFile where
  path := "m"
  settings := .default
  contents := .ofBytes (Word.listToBytes [LibraryHeader.magicNumber, 0, 1174]) ++ .blank 1012
    ++ .ofBytes (Word.listToBytes [PlaylistHeader.magicNumber, 150, 1] ++ [97]) ++ .blank 115
    ++ .ofBytes (StringTable.Header.encode ⟨StringTable.magic, 22, 18, 2⟩ ++ [byte, 0]
      ++ Word.toBytes 0)
  mapped := some 1174

set_option maxRecDepth 4000 in
/-- A library passes the full check although a string in it is not text; it is not read. -/
theorem verify_not_text :
    ofContents "m" .default (oneByteLibrary 0xff).contents = .ok (oneByteLibrary 0xff) ∧
    (oneByteLibrary 0xff).verify = .ok ⟨1174, 1, 1⟩ ∧
    (oneByteLibrary 0xff).playlists = .ok [⟨1024, 150, 1, [97]⟩] ∧
    (oneByteLibrary 0xff).paths 1024 = refuse (.corrupt (.table (.notUtf8 0))) ∧
    (oneByteLibrary 0xff).pathAt 1024 0 = refuse (.corrupt (.table (.notUtf8 0))) := by
  refine ⟨?_, ?_, ?_, ?_, ?_⟩ <;> cbv

/-- In any file that is opened and passes the full check, each playlist has as many strings as it
counts, in strictly ascending order. They are read as paths if all of them are text, and one by one
where they are; a path that was read is found at its position. -/
theorem readAs_of_verify {file : String} {settings : Settings} {contents : Image}
    {lib : LibraryFile} {audit : Audit} (hopen : ofContents file settings contents = .ok lib)
    (hverify : lib.verify = .ok audit) :
    ∃ playlists, lib.playlists = .ok playlists ∧
      ∀ p ∈ playlists, ∃ values, ReadAs lib p values := by
  obtain ⟨-, v, hkeeps⟩ := keeps_of_ofContents hopen
  have hsize : LibraryHeader.size ≤ v.encode.length := by
    rw [hkeeps.sized.length_encode]
    exact Nat.le_add_right _ _
  obtain ⟨-, shelf, hpasses, -⟩ := passes_of_verify hkeeps.holding.mapped_eq hsize hverify
  refine ⟨_, hpasses.stores.playlists_eq, fun p hp => ?_⟩
  obtain ⟨before, r, after, hsplit, rfl⟩ := exists_of_mem_playlistsFrom hpasses.stores.sized hp
  obtain ⟨values, hholds⟩ := hpasses.holds r (by simp [hsplit])
  obtain ⟨t, ht, -, -, hordered⟩ := hpasses.stores.exists_table hsplit hholds
  exact ⟨values, readAs_of_ordered ht hordered hholds.counted⟩

set_option maxRecDepth 4000 in
/-- The only path of a library is read, and found where it was read. -/
theorem readAs_of_verify_text :
    (oneByteLibrary 98).verify = .ok ⟨1174, 1, 1⟩ ∧
    ∃ p values, (oneByteLibrary 98).playlists = .ok [p] ∧ ReadAs (oneByteLibrary 98) p values ∧
      (oneByteLibrary 98).findPath p.offset "b" = .ok (some 0) := by
  have hopen : ofContents "m" .default (oneByteLibrary 98).contents = .ok (oneByteLibrary 98) := by
    cbv
  have hverify : (oneByteLibrary 98).verify = .ok ⟨1174, 1, 1⟩ := by cbv
  have hfirst : (oneByteLibrary 98).playlists = .ok [⟨1024, 150, 1, [97]⟩] := by cbv
  have hpath : (oneByteLibrary 98).pathAt 1024 0 = .ok (some "b") := by cbv
  obtain ⟨playlists, hplaylists, hreads⟩ := readAs_of_verify hopen hverify
  obtain rfl := Except.ok.inj (hfirst.symm.trans hplaylists)
  obtain ⟨values, hread⟩ := hreads _ List.mem_cons_self
  exact ⟨hverify, _, values, hfirst, hread, hread.findPath 0 "b" hpath⟩

end MediaLibrary.LibraryFile
