import Mathlib
import MediaLibrary.Proofs.LibraryFile.Parsing
import MediaLibrary.Proofs.LibraryFile.Paths
/-! Adding to a record of a file whose history is not known. Readers see a table within its record,
while an addition sees it within the rest of the file. Where the table ends in its record the two
agree, and an addition changes nothing outside the record but two numbers in the header, and moves
what lies behind it. Where the table would end behind its record, but within the file, they do not. -/
namespace MediaLibrary

/-- The bytes before `start` and from `stop` on are still there, the latter `growth` places higher. The
media count and the length in the header are left out. -/
structure ConfinedTo (start stop growth : Nat) (old new : Bytes) : Prop where
  length : new.length = old.length + growth
  before : ∀ i < start,
    i < LibraryHeader.mediaCountField.offset ∨ LibraryHeader.lengthField.stop ≤ i →
    new[i]? = old[i]?
  after : ∀ i, stop ≤ i → new[i + growth]? = old[i]?

theorem ConfinedTo.of_split {magic numbers numbers' kept middle middle' rest : Bytes}
    (hmagic : magic.length = LibraryHeader.mediaCountField.offset)
    (hnumbers : (magic ++ numbers).length = LibraryHeader.lengthField.stop)
    (hsame : numbers'.length = numbers.length) {growth : Nat}
    (hgrowth : middle'.length = middle.length + growth) :
    ConfinedTo (magic ++ numbers ++ kept).length (magic ++ numbers ++ kept ++ middle).length growth
      (magic ++ numbers ++ kept ++ middle ++ rest)
      (magic ++ numbers' ++ kept ++ middle' ++ rest) := by
  have hlen : (magic ++ numbers' ++ kept).length = (magic ++ numbers ++ kept).length := by
    simp [hsame]
  refine ⟨?_, fun i hi hkept => ?_, fun i hi => ?_⟩
  · simp [hsame, hgrowth]
    omega
  · have hold : i < (magic ++ numbers ++ kept ++ middle).length := by
      simp only [List.length_append] at hi ⊢
      omega
    have hnew : i < (magic ++ numbers' ++ kept ++ middle').length := by
      simp only [List.length_append] at hi ⊢
      omega
    rw [List.getElem?_append_left hnew, List.getElem?_append_left (hlen ▸ hi),
      List.getElem?_append_left hold, List.getElem?_append_left hi]
    rcases hkept with hlow | hhigh
    · rw [List.append_assoc, List.append_assoc, List.getElem?_append_left (hmagic ▸ hlow),
        List.getElem?_append_left (hmagic ▸ hlow)]
    · have hfirst : (magic ++ numbers).length ≤ i := hnumbers ▸ hhigh
      have hsecond : (magic ++ numbers').length ≤ i := by
        simp only [List.length_append] at hfirst ⊢
        omega
      rw [List.getElem?_append_right hfirst, List.getElem?_append_right hsecond]
      simp [hsame]
  · have hnew : (magic ++ numbers' ++ kept ++ middle').length ≤ i + growth := by
      simp only [List.length_append] at hi ⊢
      omega
    rw [List.getElem?_append_right hnew, List.getElem?_append_right hi]
    congr 1
    simp only [List.length_append] at hi ⊢
    omega

namespace LibraryFile

namespace Encloses

variable {settings : Settings} {v v' : Volume} {before after : Bytes} {r r' : Record}
  {lib lib' : LibraryFile} {path : String}

theorem confinedTo (h : Encloses settings v before r after lib)
    (h' : Encloses settings v' before r' after lib') (hfields : v'.fields = v.fields) {growth : Nat}
    (hgrowth : r'.length = r.length + growth) :
    ConfinedTo (LibraryHeader.size + before.length)
      (LibraryHeader.size + before.length + r.length) growth lib.contents.toList
      lib'.contents.toList := by
  have hsplit : ∀ {v : Volume} {r : Record} {lib : LibraryFile},
      Encloses settings v before r after lib → lib.contents.toList
        = Word.toBytes LibraryHeader.magicNumber
          ++ Word.listToBytes [v.mediaCount,
            Volume.length { v with body := before ++ (r.encode ++ after) }]
          ++ (v.fields ++ before) ++ r.encode ++ after := by
    intro v r lib h
    rw [h.keeps.holding.contents_eq, Volume.encode, Volume.header]
    simp [Word.listToBytes]
  have hnumbers : ∀ count length, (Word.toBytes LibraryHeader.magicNumber
      ++ Word.listToBytes [count, length]).length = LibraryHeader.lengthField.stop :=
    fun _ _ => rfl
  have hfits : v.fields.length
      = LibraryHeader.nameField.width + LibraryHeader.mediaPrefixField.width := h.keeps.sized.fields
  have hstart : LibraryHeader.size + before.length = (Word.toBytes LibraryHeader.magicNumber
      ++ Word.listToBytes [v.mediaCount,
        Volume.length { v with body := before ++ (r.encode ++ after) }]
      ++ (v.fields ++ before)).length := by
    rw [List.length_append, hnumbers, List.length_append, hfits, ← Nat.add_assoc]
    rfl
  rw [hsplit h, hsplit h', hfields, hstart, ← h.sized.length_encode, ← List.length_append]
  refine ConfinedTo.of_split (Word.length_toBytes _) (hnumbers _ _) ?_ ?_
  · rfl
  · rw [h.sized.length_encode, h'.sized.length_encode, hgrowth]

/-- An addition that is done has lengthened the record by whole growth steps, and changed nothing
around it but the media count. -/
theorem addPathAt_ok (h : Encloses settings v before r after lib) {p : StringTable.Parts}
    {rest : Bytes} (hp : p.Sized) (htable : r.table = p.encode ++ rest)
    (hadd : addPathAt (LibraryHeader.size + before.length) path lib = .ok () lib') :
    ∃ (n : Nat) (r' : Record), r'.length = r.length + n * settings.growthQuantum ∧
      r'.label = r.label ∧
      Encloses settings (v.recount (Text.bytes settings.globalPlaylist) r') before r' after
        lib' := by
  have hread : consult (playlistAt · (LibraryHeader.size + before.length)) lib = .ok _ lib :=
    Steps.consult_ok h.playlistAt_eq
  have hshows : Encloses settings v before { r with table := p.encode ++ rest } after lib := by
    rw [← htable]
    exact h
  have hstored := hadd
  rw [addPathAt, Steps.bind_ok hread, Steps.bind_get, h.keeps.holding.settings_eq] at hstored
  obtain ⟨_, lib₁, hstored, -⟩ := Steps.bind_eq_ok_iff.1 hstored
  have hstored := Steps.adaptExcept_eq_ok_iff.1 hstored
  have hcarries := (encloses_carries settings v before r after).leading rest
  obtain ⟨n, q, hq, hlength, h₁⟩ := hcarries.add_ok hp hshows hstored
  obtain ⟨r', lib₂, hrecord, hdone, h'⟩ := h.addPathAt_of_stored hstored h₁
  obtain rfl := (EStateM.Result.ok.inj (hadd.symm.trans hdone)).2
  refine ⟨n, r', ?_, by rw [hrecord], h'⟩
  simp only [hrecord, Record.length, htable, List.length_append, StringTable.Parts.length_encode,
    hlength]
  omega

end Encloses

/-! What becomes of a path when its playlist's table cannot be read. -/

section Damaged

variable {lib : LibraryFile} {offset : Nat} {p : Playlist} {path : String}

theorem addPathAt_of_damage (hp : lib.playlistAt offset = .ok p) {view : Image}
    (hview : lib.view = .ok view) (hquantum : 0 < lib.settings.growthQuantum)
    (hnul : 0 ∉ Text.bytes path) {damage : TableDamage}
    (hdecode : StringTable.decodeAt view p.tableOffset = .error damage) :
    addPathAt offset path lib = .error (.refused (.corrupt (.table damage))) lib := by
  have hread : consult (playlistAt · offset) lib = .ok p lib := Steps.consult_ok hp
  have htable : StringTable.tableAt (host offset) p.tableOffset lib
      = .error (.refused (.corrupt damage)) := by
    rw [StringTable.tableAt, host_image hview, hdecode]
    rfl
  have hadd := StringTable.add_of_damage hnul hquantum htable
  rw [addPathAt, Steps.bind_ok hread, Steps.bind_get]
  exact Steps.bind_error (Steps.adaptExcept_error hadd)

theorem removePathAt_of_damage (hp : lib.playlistAt offset = .ok p) {e : Failure LibraryError}
    (htable : lib.tableOf offset = .error e) : removePathAt offset path lib = .error e lib := by
  have hread : consult (playlistAt · offset) lib = .ok p lib := Steps.consult_ok hp
  rw [removePathAt, Steps.bind_ok hread]
  exact Steps.bind_error (Steps.consult_error htable)

theorem removePathAt_of_failure (hp : lib.playlistAt offset = .ok p) {t : StringTable}
    (ht : lib.tableOf offset = .ok t) {f : Failure TableDamage}
    (hremove : t.remove (Text.bytes path) = .error f) : removePathAt offset path lib
      = .error (f.map fun damage => .corrupt (.table damage)) lib := by
  have hread : consult (playlistAt · offset) lib = .ok p lib := Steps.consult_ok hp
  have htable : consult (tableOf · offset) lib = .ok t lib := Steps.consult_ok ht
  have hfailed : consult (fun _ => (t.remove (Text.bytes path)).mapError
      (Failure.map fun damage => LibraryError.corrupt (.table damage))) lib = .error _ lib :=
    Steps.consult_error (by rw [hremove]; rfl)
  rw [removePathAt, Steps.bind_ok hread, Steps.bind_ok htable]
  exact Steps.bind_error hfailed

end Damaged

theorem Encloses.addPathAt_refused {settings : Settings} {v : Volume} {before after : Bytes}
    {r : Record} {lib : LibraryFile} (h : Encloses settings v before r after lib)
    (hquantum : 0 < settings.growthQuantum) {e : Failure LibraryError}
    (htable : lib.tableOf (LibraryHeader.size + before.length) = .error e) (path : String) :
    (∃ damage, e = .refused (.corrupt damage)) ∧
    ((0 ∈ Text.bytes path ∧ addPathAt (LibraryHeader.size + before.length) path lib
        = .error (.refused (.table .interiorNul)) lib) ∨
      (∃ damage, addPathAt (LibraryHeader.size + before.length) path lib
        = .error (.refused (.corrupt damage)) lib) ∨
      ∃ length available, e = .refused (.corrupt (.table (.lengthOverrun length available))) ∧
        r.table.length < length ∧ length ≤ (r.table ++ after).length) := by
  obtain ⟨view, hview, hsize, hbytes⟩ := h.view_eq
  have hp := h.playlistAt_eq
  have hshort := h.tableImage_eq hview
  have hread := (h.tableOf_eq hview).symm.trans htable
  have hlong : (view.drop (r.playlist (LibraryHeader.size + before.length)).tableOffset).toList
      = r.table ++ after := by
    rw [Record.playlist, Playlist.tableOffset, Image.toList_drop, hbytes, ← h.sized.length_header,
      ← h.keeps.sized.length_header, ← List.length_append, ← List.length_append,
      List.append_assoc _ r.table, List.drop_left]
  cases hdecode : StringTable.decode
      ((r.playlist (LibraryHeader.size + before.length)).tableImage view) with
  | ok t =>
    rw [hdecode] at hread
    cases hread
  | error damage =>
    rw [hdecode] at hread
    obtain rfl := Except.error.inj hread
    refine ⟨⟨_, rfl⟩, ?_⟩
    by_cases hnul : 0 ∈ Text.bytes path
    · exact Or.inl ⟨hnul, addPathAt_of_nul hp hnul⟩
    refine Or.inr ?_
    cases hwide : StringTable.decodeAt view
        (r.playlist (LibraryHeader.size + before.length)).tableOffset with
    | error other =>
      exact Or.inl ⟨_, addPathAt_of_damage hp hview
        (h.keeps.holding.settings_eq.symm ▸ hquantum) hnul hwide⟩
    | ok t =>
      refine Or.inr ?_
      have hwide := StringTable.decode_of_decodeAt hwide
      have hfront := hlong.trans (congrArg (· ++ after) hshort.symm)
      have htable : StringTable.headerSize
          ≤ ((r.playlist (LibraryHeader.size + before.length)).tableImage view).size := by
        rw [← Image.length_toList, hshort]
        exact h.sized.table
      have hfits := StringTable.length_le_of_decode hwide
      rw [← Image.length_toList, hlong] at hfits
      rcases StringTable.decode_of_longer hwide hfront htable with ⟨t', hok⟩ | ⟨hover, herror⟩
      · rw [hdecode] at hok
        cases hok
      · rw [hdecode] at herror
        obtain rfl := Except.error.inj herror
        rw [← Image.length_toList, hshort] at hover
        exact ⟨_, _, rfl, hover, hfits⟩

/-- In any file that is opened, a playlist whose table cannot be read within its record refuses a
path as damaged and stays as it is, unless the table ends behind the record, but within the file; and
a playlist whose table can be read takes a path in without a change outside its record. -/
theorem addPathAt_confined {file : String} {settings : Settings} {contents : Image}
    {lib : LibraryFile} (hvalid : settings.validate = .ok ())
    (hopen : ofContents file settings contents = .ok lib) {offset : Nat} {p : Playlist}
    (hp : lib.playlistAt offset = .ok p) (path : String) :
    (∀ e, lib.tableOf offset = .error e →
      (∃ damage, e = .refused (.corrupt damage)) ∧ lib.findPath offset path = .error e ∧
      lib.paths offset = .error e ∧ removePathAt offset path lib = .error e lib ∧
      ((0 ∈ Text.bytes path ∧
          addPathAt offset path lib = .error (.refused (.table .interiorNul)) lib) ∨
        (∃ damage, addPathAt offset path lib = .error (.refused (.corrupt damage)) lib) ∨
        ∃ length available, e = .refused (.corrupt (.table (.lengthOverrun length available))) ∧
          offset + p.length < p.tableOffset + length ∧ p.tableOffset + length ≤ contents.size)) ∧
    ∀ t lib', lib.tableOf offset = .ok t → addPathAt offset path lib = .ok () lib' →
      ∃ steps, ConfinedTo offset (offset + p.length) (steps * settings.growthQuantum)
        contents.toList lib'.contents.toList := by
  obtain ⟨rfl, v, hkeeps⟩ := keeps_of_ofContents hopen
  obtain ⟨before, r, after, h, hbody, rfl, rfl⟩ := hkeeps.exists_encloses hp
  obtain ⟨view, hview, hsize, -⟩ := h.view_eq
  have hcontents : lib.contents.size
      = LibraryHeader.size + before.length + r.length + after.length :=
    (h.keeps.holding.size_contents.trans h.keeps.sized.length_encode).trans h.length_eq
  have hquantum : 0 < settings.growthQuantum :=
    Nat.lt_of_lt_of_le (by decide) (Settings.quantum_of_validate hvalid)
  constructor
  · intro e htable
    obtain ⟨hcorrupt, hadd⟩ := h.addPathAt_refused hquantum htable path
    refine ⟨hcorrupt, Steps.query_error htable, Steps.query_error htable,
      removePathAt_of_damage hp htable, ?_⟩
    rcases hadd with hnul | hdamage | ⟨length, available, he, hover, hfits⟩
    · exact Or.inl hnul
    · exact Or.inr (Or.inl hdamage)
    · refine Or.inr (Or.inr ⟨length, available, he, ?_, ?_⟩)
      · simp only [Record.playlist, Playlist.tableOffset, Record.length]
        omega
      · rw [List.length_append] at hfits
        simp only [Record.playlist, Playlist.tableOffset, hcontents, Record.length]
        omega
  · intro t lib' htable hadd
    have hdecode : StringTable.decode ((r.playlist (LibraryHeader.size + before.length)).tableImage
        view) = .ok t := Steps.ofCheck_eq_ok_iff.1 ((h.tableOf_eq hview).symm.trans htable)
    obtain ⟨hsized, rest, hrest⟩ := StringTable.encode_of_decode hdecode
    rw [h.tableImage_eq hview] at hrest
    obtain ⟨steps, r', hlength, -, h'⟩ := h.addPathAt_ok hsized hrest hadd
    exact ⟨steps, h.confinedTo h' rfl hlength⟩

/-- A record of 144 bytes whose table says of itself that it has `length` bytes. -/
def claimingRecord (name : UInt8) (length : Nat) : Image :=
  .ofBytes (Word.listToBytes [PlaylistHeader.magicNumber, PlaylistHeader.minRecord, 0] ++ [name])
    ++ .blank 115 ++ .ofBytes (StringTable.Header.encode ⟨StringTable.magic, length, length, 0⟩)

/-- A library of two playlists "a" and "b", where the table of "a" says that it has `length` bytes. -/
def claimingLibrary (length : Nat) : LibraryFile where
  path := "m"
  settings := .default
  contents := .ofBytes (Word.listToBytes [LibraryHeader.magicNumber, 0, 1312]) ++ .blank 1012
    ++ claimingRecord 97 length ++ claimingRecord 98 StringTable.headerSize
  mapped := some 1312

set_option maxRecDepth 4000 in
theorem exists_added_claimingLibrary :
    ∃ lib', addPathAt 1024 "x" (claimingLibrary 16) = .ok () lib' :=
  Steps.exists_of_run' (by cbv)

set_option maxRecDepth 4000 in
/-- A table that ends where its record does takes a path in; the playlist behind it moves up. -/
theorem addPathAt_confined_growing :
    ∃ (p : Playlist) (t : StringTable) (lib' : LibraryFile) (steps : Nat),
      (claimingLibrary 16).playlistAt 1024 = .ok p ∧ (claimingLibrary 16).tableOf 1024 = .ok t ∧
      addPathAt 1024 "x" (claimingLibrary 16) = .ok () lib' ∧
      ConfinedTo 1024 (1024 + p.length) (steps * 128) (claimingLibrary 16).contents.toList
        lib'.contents.toList := by
  have hopen : ofContents "m" .default (claimingLibrary 16).contents = .ok (claimingLibrary 16) := by
    cbv
  have hp : (claimingLibrary 16).playlistAt 1024 = .ok ⟨1024, 144, 0, [97]⟩ := by cbv
  have htable : ((claimingLibrary 16).tableOf 1024).map StringTable.length = .ok 16 := by cbv
  obtain ⟨lib', hadd⟩ := exists_added_claimingLibrary
  cases ht : (claimingLibrary 16).tableOf 1024 with
  | error e =>
    rw [ht] at htable
    cases htable
  | ok t =>
    obtain ⟨steps, hconfined⟩ := (addPathAt_confined rfl hopen hp "x").2 t lib' ht hadd
    exact ⟨_, t, lib', steps, hp, rfl, hadd, hconfined⟩

/-- A table that claims the playlist behind its record for itself: readers refuse it, and an addition
writes the path over the playlist. -/
theorem addPathAt_claiming :
    (claimingLibrary 160).tableOf 1024
      = refuse (.corrupt (.table (.lengthOverrun 160 16))) ∧
    (claimingLibrary 160).playlistAt 1168 = .ok ⟨1168, 144, 0, [98]⟩ ∧
    (addPathAt 1024 "x").run' (claimingLibrary 160) = some () ∧
    (Steps.left (addPathAt 1024 "x") (claimingLibrary 160)).playlistAt 1168
      = refuse (.corrupt (.badPlaylistMagic 0x78004953 1168)) := by
  refine ⟨?_, ?_, ?_, ?_⟩ <;> cbv

end LibraryFile
end MediaLibrary
