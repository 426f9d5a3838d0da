import MediaLibrary.LibraryFile.Audit
import MediaLibrary.Proofs.LibraryFile.Parsing
import MediaLibrary.Proofs.StringTable.Order
/-! What the full check of a library comes to. Its checks are made one record at a time, against a
tally of those before; together they say that the records hold tables in order, that no two have one
name, and that the counts are right. The check is then one of the file's form: it passes the files
that are written as such records, and reports what they hold. -/
namespace MediaLibrary

open StringTable (Spells)

namespace StringTable.Spells

variable {bytes : Bytes} {values : List Bytes}

theorem headerSize_le (h : Spells bytes values) : headerSize ≤ bytes.length := by
  obtain ⟨⟨p, slots, rfl, -, -⟩, -⟩ := h
  rw [Parts.length_encode]
  exact p.headerSize_le_length

theorem slots_le (h : Spells bytes values) : slotSize * values.length ≤ bytes.length := by
  obtain ⟨⟨p, slots, rfl, hindex, hstand⟩, -⟩ := h
  have hlen := congrArg List.length hindex
  rw [Word.length_listToBytes, List.Forall₂.length_eq hstand] at hlen
  rw [Parts.length_encode, Parts.length, hlen]
  exact Nat.le_add_left _ _

end StringTable.Spells

/-- The record is as its header tells, and its table holds `values` and nothing else. -/
structure Record.Holds (r : Record) (values : List Bytes) : Prop where
  label : r.label.length = PlaylistHeader.nameField.width
  counted : r.count = values.length
  table : Spells r.table values

theorem Record.Holds.sized {r : Record} {values : List Bytes} (h : r.Holds values)
    (hbelow : r.table.length < Word.limit) : r.Sized where
  label := h.label
  counted := by
    have hslots := h.table.slots_le
    unfold StringTable.slotSize Word.size at hslots
    rw [h.counted]
    omega
  table := h.table.headerSize_le

namespace Tally

open LibraryFile

variable {globalPlaylist : Bytes} {view : Image} {tally tally' : Tally}

theorem add_eq_ok_iff {r : Record} {offset : Nat} (hr : r.Sized) (hbelow : r.length < Word.limit)
    (himage : ((r.playlist offset).tableImage view).toList = r.table) :
    add globalPlaylist view tally (r.playlist offset) = .ok tally' ↔
      (∃ values, r.Holds values) ∧ r.name ∉ tally.names ∧
        tally' = count globalPlaylist tally (r.playlist offset) := by
  have hsize : ((r.playlist offset).tableImage view).size = r.table.length := by
    rw [← Image.length_toList, himage]
  have htable : ((r.playlist offset).tableImage view).size < Word.limit := by
    rw [hsize]
    unfold Record.length at hbelow
    omega
  have hspells := StringTable.spells_iff htable
  rw [himage, hsize] at hspells
  constructor
  · intro h
    obtain ⟨t, ht, h⟩ := Steps.query_eq_ok_iff.1 h
    rw [Steps.mapError_eq_ok_iff] at ht
    split at h
    · cases h
    split at h
    · cases h
    rename_i hfills hcount
    obtain ⟨_, horder, h⟩ := Steps.query_eq_ok_iff.1 h
    rw [Steps.mapError_eq_ok_iff] at horder
    split at h
    · cases h
    rename_i hnew
    obtain ⟨values, hordered⟩ := StringTable.checkOrder_eq_ok_iff.1 horder
    have hlen : t.length = r.table.length :=
      Nat.add_left_cancel (Classical.byContradiction hfills)
    have hentries : r.count = t.entries := Classical.byContradiction hcount
    exact ⟨⟨values, hr.label, hentries.trans hordered.entries_eq,
      (hspells values).2 ⟨t, ht, hlen, hordered⟩⟩, hnew, (Except.ok.inj h).symm⟩
  · rintro ⟨⟨values, hholds⟩, hnew, rfl⟩
    obtain ⟨t, ht, hlen, hordered⟩ := (hspells values).1 hholds.table
    have hfills : PlaylistHeader.size + t.length = (r.playlist offset).length := by
      rw [hlen]
      rfl
    have hcount : (r.playlist offset).count = t.entries :=
      hholds.counted.trans hordered.entries_eq.symm
    rw [add, Steps.query_ok (Steps.mapError_eq_ok_iff.2 ht), if_neg (not_not_intro hfills),
      if_neg (not_not_intro hcount),
      Steps.query_ok (Steps.mapError_eq_ok_iff.2 hordered.checkOrder_eq)]
    exact if_neg hnew

theorem covered_le_of_add {p : Playlist} (h : add globalPlaylist view tally p = .ok tally') :
    tally.covered ≤ tally'.covered := by
  obtain ⟨table, -, h⟩ := Steps.query_eq_ok_iff.1 h
  split at h
  · cases h
  split at h
  · cases h
  obtain ⟨_, -, h⟩ := Steps.query_eq_ok_iff.1 h
  split at h
  · cases h
  · obtain rfl := Except.ok.inj h
    exact Nat.le_add_right _ _

theorem covered_le_of_foldlM {playlists : List Playlist}
    (h : playlists.foldlM (add globalPlaylist view) tally = .ok tally') :
    tally.covered ≤ tally'.covered := by
  induction playlists generalizing tally with
  | nil => rw [Except.ok.inj h]
  | cons p rest ih =>
    obtain ⟨middle, hfirst, hrest⟩ := Steps.query_eq_ok_iff.1 h
    exact Nat.le_trans (covered_le_of_add hfirst) (ih hrest)

theorem foldlM_eq_ok_iff {settings : Settings} {shelf : Shelf} {lib : LibraryFile}
    (h : Stores settings shelf lib) (hview : lib.view = .ok view) {before after : List Record}
    (hsplit : shelf.records = before ++ after) :
    (playlistsFrom (offsetAfter before) after).foldlM (add globalPlaylist view) tally = .ok tally' ↔
      (∀ r ∈ after, ∃ values, r.Holds values) ∧
      (∀ r ∈ after, r.name ∉ tally.names) ∧ (after.map Record.name).Nodup ∧
      tally' = (playlistsFrom (offsetAfter before) after).foldl (count globalPlaylist) tally := by
  -- on the records still to come; those before them are the place reached and the names tallied
  induction after generalizing before tally with
  | nil =>
    rw [playlistsFrom, List.foldlM_nil, List.foldl_nil]
    constructor
    · intro heq
      exact ⟨by simp, by simp, List.nodup_nil, (Except.ok.inj heq).symm⟩
    · rintro ⟨-, -, -, rfl⟩
      rfl
  | cons r rest ih =>
    have hr : r.Sized := h.sized r (by simp [hsplit])
    have hbelow := h.record_below hsplit
    have himage := h.tableImage_eq hsplit hview
    have hrest : shelf.records = (before ++ [r]) ++ rest := by simp [hsplit]
    rw [playlistsFrom, List.foldlM_cons, Steps.query_eq_ok_iff, ← offsetAfter_concat before hr]
    constructor
    · rintro ⟨middle, hmiddle, hlater⟩
      obtain ⟨hholds, hnew, rfl⟩ := (add_eq_ok_iff hr hbelow himage).1 hmiddle
      obtain ⟨hall, hapart, hnodup, rfl⟩ := (ih hrest).1 hlater
      refine ⟨List.forall_mem_cons.2 ⟨hholds, hall⟩, ?_, ?_, rfl⟩
      · refine List.forall_mem_cons.2 ⟨hnew, fun x hx hmem => ?_⟩
        exact hapart x hx (List.mem_cons_of_mem _ hmem)
      · refine List.nodup_cons.2 ⟨fun hmem => ?_, hnodup⟩
        obtain ⟨x, hx, hname⟩ := List.mem_map.1 hmem
        exact hapart x hx (hname ▸ List.mem_cons_self)
    · rintro ⟨hall, hapart, hnodup, rfl⟩
      obtain ⟨hholds, hall⟩ := List.forall_mem_cons.1 hall
      obtain ⟨hnew, hapart⟩ := List.forall_mem_cons.1 hapart
      obtain ⟨hfresh, hnodup⟩ := List.nodup_cons.1 hnodup
      refine ⟨_, (add_eq_ok_iff hr hbelow himage).2 ⟨hholds, hnew, rfl⟩,
        (ih hrest).2 ⟨hall, fun x hx hmem => ?_, hnodup, rfl⟩⟩
      rcases List.mem_cons.1 hmem with heq | hmem
      · exact hfresh (List.mem_map.2 ⟨x, hx, heq⟩)
      · exact hapart x hx hmem

theorem foldl_count {records : List Record} (hsized : ∀ r ∈ records, r.Sized)
    (hnodup : (records.map Record.name).Nodup) (offset : Nat) :
    (playlistsFrom offset records).foldl (count globalPlaylist) tally =
      { covered := tally.covered + (bodyOf records).length
        playlists := tally.playlists + records.length
        paths := tally.paths + (records.map Record.count).sum
        names := (records.map Record.name).reverse ++ tally.names
        globalCount := ((records.find? (·.name = globalPlaylist)).map Record.count).or
          tally.globalCount } := by
  induction records generalizing offset tally with
  | nil => rfl
  | cons r rest ih =>
    obtain ⟨hr, hsized⟩ := List.forall_mem_cons.1 hsized
    obtain ⟨hfresh, hnodup⟩ := List.nodup_cons.1 hnodup
    have hglobal : ((rest.find? (·.name = globalPlaylist)).map Record.count).or
        (if r.name = globalPlaylist then some r.count else tally.globalCount)
        = (((r :: rest).find? (·.name = globalPlaylist)).map Record.count).or
          tally.globalCount := by
      rw [List.find?_cons]
      by_cases hname : r.name = globalPlaylist
      · have hnone : rest.find? (·.name = globalPlaylist) = none := by
          rw [List.find?_eq_none]
          intro x hx heq
          rw [decide_eq_true_eq, ← hname] at heq
          exact hfresh (List.mem_map.2 ⟨x, hx, heq⟩)
        simp [hname, hnone]
      · simp [hname]
    rw [playlistsFrom, List.foldl_cons, ih hsized hnodup, Tally.mk.injEq]
    refine ⟨?_, ?_, ?_, ?_, hglobal⟩
    · rw [bodyOf_cons, List.length_append, hr.length_encode, ← Nat.add_assoc]
      rfl
    · simp only [count, List.length_cons]
      omega
    · simp only [count, Record.playlist, List.map_cons, List.sum_cons]
      omega
    · simp [count, Record.playlist]

theorem ofWalk_eq_ok_iff {settings : Settings} {shelf : Shelf} {lib : LibraryFile}
    (h : Stores settings shelf lib) (hview : lib.view = .ok view) :
    ofWalk globalPlaylist view ⟨playlistsFrom LibraryHeader.size shelf.records, none⟩ = .ok tally ↔
      (∀ r ∈ shelf.records, ∃ values, r.Holds values) ∧ (shelf.records.map Record.name).Nodup ∧
      tally =
        { covered := shelf.volume.length
          playlists := shelf.records.length
          paths := (shelf.records.map Record.count).sum
          names := (shelf.records.map Record.name).reverse
          globalCount :=
            (shelf.records.find? (·.name = globalPlaylist)).map Record.count } := by
  have hstart : LibraryHeader.size = offsetAfter [] := rfl
  have hsplit : shelf.records = [] ++ shelf.records := rfl
  have hcount (hnodup : (shelf.records.map Record.name).Nodup) :
      (playlistsFrom (offsetAfter []) shelf.records).foldl (count globalPlaylist) empty =
        { covered := shelf.volume.length
          playlists := shelf.records.length
          paths := (shelf.records.map Record.count).sum
          names := (shelf.records.map Record.name).reverse
          globalCount :=
            (shelf.records.find? (·.name = globalPlaylist)).map Record.count } := by
    rw [foldl_count h.sized hnodup, Tally.mk.injEq]
    simp [empty, Volume.length, Shelf.volume]
  rw [ofWalk, Steps.query_eq_ok_iff, hstart]
  constructor
  · rintro ⟨total, htotal, heq⟩
    obtain rfl := Except.ok.inj heq
    obtain ⟨hall, -, hnodup, rfl⟩ := (foldlM_eq_ok_iff h hview hsplit).1 htotal
    exact ⟨hall, hnodup, hcount hnodup⟩
  · rintro ⟨hall, hnodup, rfl⟩
    refine ⟨_, (foldlM_eq_ok_iff h hview hsplit).2 ⟨hall, ?_, hnodup, rfl⟩, ?_⟩
    · intro r _ hmem
      cases hmem
    · exact congrArg Except.ok (hcount hnodup)

end Tally

namespace LibraryFile

theorem sized_of_holds {records : List Record} (h : ∀ r ∈ records, ∃ values, r.Holds values)
    (hbelow : (bodyOf records).length < Word.limit) : ∀ r ∈ records, r.Sized := by
  intro r hr
  obtain ⟨values, hvalues⟩ := h r hr
  apply hvalues.sized
  obtain ⟨before, after, rfl⟩ := List.append_of_mem hr
  simp only [bodyOf_append, bodyOf_cons, List.length_append, Record.encode] at hbelow
  omega

def countIn (globalPlaylist : Bytes) (records : List Record) : Nat :=
  ((records.find? (·.name = globalPlaylist)).map Record.count).getD 0

/-- The records hold tables in order, no two of them have one name, and the header counts the paths of
the global playlist. -/
structure Passes (settings : Settings) (shelf : Shelf) (lib : LibraryFile) : Prop where
  stores : Stores settings shelf lib
  holds : ∀ r ∈ shelf.records, ∃ values, r.Holds values
  distinct : (shelf.records.map Record.name).Nodup
  counted : shelf.mediaCount = countIn (Text.bytes settings.globalPlaylist) shelf.records

theorem Passes.of_encode {settings : Settings} {shelf : Shelf} (hsized : shelf.volume.Sized)
    (hholds : ∀ r ∈ shelf.records, ∃ values, r.Holds values)
    (hdistinct : (shelf.records.map Record.name).Nodup)
    (hcounted : shelf.mediaCount = countIn (Text.bytes settings.globalPlaylist) shelf.records)
    (file : String) :
    Passes settings shelf
      ⟨file, settings, .ofBytes shelf.volume.encode, some shelf.volume.length, .calm⟩ where
  stores := by
    have hbelow : (bodyOf shelf.records).length < Word.limit :=
      Nat.lt_of_le_of_lt (Nat.le_add_left _ _) hsized.below
    exact ⟨Keeps.of_encode hsized file settings, sized_of_holds hholds hbelow⟩
  holds := hholds
  distinct := hdistinct
  counted := hcounted

namespace Stores

variable {settings : Settings} {shelf : Shelf} {lib : LibraryFile}

theorem verify_eq_totals (h : Stores settings shelf lib) {view : Image}
    (hview : lib.view = .ok view) :
    lib.verify = (Query.ofCheck (Tally.ofWalk (Text.bytes settings.globalPlaylist) view
      ⟨playlistsFrom LibraryHeader.size shelf.records, none⟩)
        >>= lib.checkTotals shelf.volume.length) := by
  obtain ⟨view', hview', -, hsize⟩ := h.view_eq
  obtain rfl := Except.ok.inj (hview.symm.trans hview')
  have hcontents : lib.contents.size = shelf.volume.length := by
    rw [h.keeps.holding.size_contents, h.keeps.sized.length_encode]
  have hwhole : view.size = shelf.volume.length := hsize
  have hlengths : ¬ (shelf.volume.length ≠ view.size ∨ shelf.volume.length ≠ lib.contents.size) := by
    omega
  rw [verify, Steps.query_ok hview, Steps.query_ok h.keeps.magic_eq, if_neg (not_not_intro rfl),
    Steps.query_ok h.keeps.length_eq]
  rw [if_neg hlengths, Steps.query_ok h.walk_eq, h.keeps.holding.settings_eq]

theorem checkTotals_eq (h : Stores settings shelf lib) {tally : Tally}
    (hcovered : tally.covered = shelf.volume.length) :
    lib.checkTotals shelf.volume.length tally =
      if shelf.mediaCount = tally.globalCount.getD 0 then
        .ok ⟨shelf.volume.length, tally.playlists, tally.paths⟩
      else refuse (.corrupt (.mediaMiscounted shelf.mediaCount settings.globalPlaylist)) := by
  have hmedia : lib.mediaCount = .ok shelf.mediaCount := h.keeps.mediaCount_eq
  rw [checkTotals, Steps.query_ok hmedia, if_neg (not_not_intro hcovered),
    h.keeps.holding.settings_eq]
  by_cases hcount : shelf.mediaCount = tally.globalCount.getD 0
  · rw [if_neg (not_not_intro hcount), if_pos hcount]
    rfl
  · rw [if_pos hcount, if_neg hcount]

/-- Of records that are in order and differ in their names, the full check compares the media count
with the one it expects. -/
theorem verify_eq (h : Stores settings shelf lib)
    (hholds : ∀ r ∈ shelf.records, ∃ values, r.Holds values)
    (hdistinct : (shelf.records.map Record.name).Nodup) :
    lib.verify =
      if shelf.mediaCount = countIn (Text.bytes settings.globalPlaylist) shelf.records then
        .ok ⟨shelf.volume.length, shelf.records.length, (shelf.records.map Record.count).sum⟩
      else refuse (.corrupt (.mediaMiscounted shelf.mediaCount settings.globalPlaylist)) := by
  obtain ⟨view, hview, -⟩ := h.view_eq
  have htally : Tally.ofWalk (Text.bytes settings.globalPlaylist) view _ = .ok _ :=
    (Tally.ofWalk_eq_ok_iff h hview).2 ⟨hholds, hdistinct, rfl⟩
  rw [h.verify_eq_totals hview, Query.ofCheck,
    Steps.query_ok (Steps.ofCheck_eq_ok_iff.2 htally), h.checkTotals_eq rfl]
  rfl

theorem verify_passes_iff (h : Stores settings shelf lib) (audit : Audit) :
    lib.verify = .ok audit ↔ Passes settings shelf lib ∧
      audit = ⟨shelf.volume.length, shelf.records.length, (shelf.records.map Record.count).sum⟩ := by
  obtain ⟨view, hview, -⟩ := h.view_eq
  constructor
  · intro hverify
    have htotals := hverify
    rw [h.verify_eq_totals hview, Steps.query_eq_ok_iff] at htotals
    obtain ⟨tally, htally, -⟩ := htotals
    obtain ⟨hholds, hdistinct, -⟩ :=
      (Tally.ofWalk_eq_ok_iff h hview).1 (Steps.ofCheck_eq_ok_iff.1 htally)
    rw [h.verify_eq hholds hdistinct] at hverify
    split at hverify
    · exact ⟨⟨h, hholds, hdistinct, ‹_›⟩, (Except.ok.inj hverify).symm⟩
    · cases hverify
  · rintro ⟨hpasses, rfl⟩
    rw [h.verify_eq hpasses.holds hpasses.distinct, if_pos hpasses.counted]

end Stores

theorem stores_of_verify {lib : LibraryFile} {size : Nat} (hcalm : lib.system = .calm)
    (hmapped : lib.mapped = some size) (hsize : LibraryHeader.size ≤ size) {audit : Audit}
    (h : lib.verify = .ok audit) :
    lib.contents.size = size ∧ ∃ shelf, Stores lib.settings shelf lib := by
  obtain ⟨view, hview, h⟩ := Steps.query_eq_ok_iff.1 h
  obtain ⟨magic, hmagic, h⟩ := Steps.query_eq_ok_iff.1 h
  split at h
  · cases h
  rename_i hnumber
  obtain rfl : magic = LibraryHeader.magicNumber := Classical.byContradiction hnumber
  obtain ⟨length, hlength, h⟩ := Steps.query_eq_ok_iff.1 h
  split at h
  · cases h
  rename_i hagree
  obtain ⟨walk, hwalk, h⟩ := Steps.query_eq_ok_iff.1 h
  obtain ⟨tally, htally, -⟩ := Steps.query_eq_ok_iff.1 h
  have hwhole : view.size = size := by
    rw [LibraryFile.view, hmapped] at hview
    rw [← Except.ok.inj hview, Image.size_resize]
  have hcontents : lib.contents.size = size := by omega
  have hrecorded : lib.length = .ok size := by
    rw [hlength]
    congr 1
    omega
  obtain ⟨v, hkeeps⟩ := exists_volume hcalm hmapped hsize hcontents hmagic hrecorded
  refine ⟨hcontents, ?_⟩
  have hdamage : walk.damage = none := by
    rw [Query.ofCheck, Steps.ofCheck_eq_ok_iff, Tally.ofWalk, Steps.query_eq_ok_iff] at htally
    obtain ⟨_, -, htally⟩ := htally
    split at htally
    · cases htally
    · assumption
  exact hkeeps.stores_of_walk hwalk hdamage

theorem exists_mapped_of_verify {lib : LibraryFile} {audit : Audit} (h : lib.verify = .ok audit) :
    ∃ size, lib.mapped = some size ∧ LibraryHeader.size ≤ size := by
  obtain ⟨view, hview, h⟩ := Steps.query_eq_ok_iff.1 h
  obtain ⟨magic, -, h⟩ := Steps.query_eq_ok_iff.1 h
  split at h
  · cases h
  obtain ⟨length, -, h⟩ := Steps.query_eq_ok_iff.1 h
  split at h
  · cases h
  rename_i hagree
  obtain ⟨walk, -, h⟩ := Steps.query_eq_ok_iff.1 h
  obtain ⟨tally, htally, htotals⟩ := Steps.query_eq_ok_iff.1 h
  obtain ⟨tally', hfold, hend⟩ := Steps.query_eq_ok_iff.1 (Steps.ofCheck_eq_ok_iff.1 htally)
  have hcovered : LibraryHeader.size ≤ tally.covered := by
    split at hend
    · cases hend
    · obtain rfl := Except.ok.inj hend
      exact Tally.covered_le_of_foldlM hfold
  obtain ⟨mediaCount, -, htotals⟩ := Steps.query_eq_ok_iff.1 htotals
  split at htotals
  · cases htotals
  rename_i hlength
  cases hmapped : lib.mapped with
  | none =>
    rw [LibraryFile.view, hmapped] at hview
    cases hview
  | some size =>
    rw [LibraryFile.view, hmapped] at hview
    obtain rfl := Except.ok.inj hview
    rw [Image.size_resize] at hagree
    exact ⟨size, rfl, by omega⟩

/-- The full check of a library with a whole header mapped is answered or finds damage; it never
meets a fault. -/
theorem verify_cases {lib : LibraryFile} {size : Nat} (hmapped : lib.mapped = some size)
    (hsize : LibraryHeader.size ≤ size) :
    (∃ audit, lib.verify = .ok audit) ∨
    ∃ damage, lib.verify = .error (.refused (.corrupt damage)) := by
  have hview : lib.view = .ok (lib.contents.resize size) := by
    rw [LibraryFile.view, hmapped]
  have hfits {offset : Nat} (h : offset + Word.size ≤ LibraryHeader.size) :
      offset + Word.size ≤ (lib.contents.resize size).size := by
    rw [Image.size_resize]
    exact Nat.le_trans h hsize
  obtain ⟨magic, hmagic⟩ := exists_word hview
    (hfits (show LibraryHeader.magicField.offset + Word.size ≤ _ by decide))
  obtain ⟨length, hlength⟩ := exists_word hview
    (hfits (show LibraryHeader.lengthField.offset + Word.size ≤ _ by decide))
  obtain ⟨mediaCount, hmediaCount⟩ := exists_word hview
    (hfits (show LibraryHeader.mediaCountField.offset + Word.size ≤ _ by decide))
  rw [verify, Steps.query_ok hview, Steps.query_ok hmagic]
  split
  · exact Or.inr ⟨_, rfl⟩
  have hlength' : lib.length = .ok length := hlength
  rw [Steps.query_ok hlength']
  split
  · exact Or.inr ⟨_, rfl⟩
  have hwalk : lib.walk
      = .ok (Walk.ofImage (lib.contents.resize size) LibraryHeader.size) := by
    rw [LibraryFile.walk, Steps.query_ok hview]
    rfl
  rw [Steps.query_ok hwalk]
  cases htally : Tally.ofWalk (Text.bytes lib.settings.globalPlaylist) (lib.contents.resize size)
      (Walk.ofImage (lib.contents.resize size) LibraryHeader.size) with
  | error damage => exact Or.inr ⟨damage, rfl⟩
  | ok tally =>
    have hmediaCount' : lib.mediaCount = .ok mediaCount := hmediaCount
    show (∃ audit, lib.checkTotals length tally = .ok audit) ∨
      ∃ damage, lib.checkTotals length tally = .error (.refused (.corrupt damage))
    rw [checkTotals, Steps.query_ok hmediaCount']
    split
    · exact Or.inr ⟨_, rfl⟩
    split
    · exact Or.inr ⟨_, rfl⟩
    · exact Or.inl ⟨_, rfl⟩

/-- The form of a library file: a header that begins with the magic number, the count of the global
playlist's paths and the length of the file, and then records end to end, each with a table in order,
and no two of one name. -/
structure Wellformed (globalPlaylist : Bytes) (file : Bytes) (records : List Record) : Prop where
  header : file.take (Word.size * 3) = Word.listToBytes
    [LibraryHeader.magicNumber, countIn globalPlaylist records, file.length]
  body : file.drop LibraryHeader.size = bodyOf records
  below : file.length < Word.limit
  holds : ∀ r ∈ records, ∃ values, r.Holds values
  distinct : (records.map Record.name).Nodup

namespace Wellformed

variable {globalPlaylist file : Bytes} {records : List Record}

theorem sized (h : Wellformed globalPlaylist file records) : ∀ r ∈ records, r.Sized := by
  have hbelow := h.below
  refine sized_of_holds h.holds ?_
  rw [← h.body, List.length_drop]
  omega

theorem countIn_below (h : Wellformed globalPlaylist file records) :
    countIn globalPlaylist records < Word.limit := by
  unfold countIn
  cases hfound : records.find? (·.name = globalPlaylist) with
  | none => decide
  | some r => exact (h.sized r (List.mem_of_find?_eq_some hfound)).counted

/-- A file has its form in one way only. -/
theorem unique {other : List Record} (h : Wellformed globalPlaylist file records)
    (ho : Wellformed globalPlaylist file other) : records = other := by
  refine bodyOf_inj h.sized ho.sized ?_ (h.body.symm.trans ho.body)
  have hbelow := h.below
  rw [← h.body, List.length_drop]
  omega

theorem passes {lib : LibraryFile}
    (h : Wellformed (Text.bytes lib.settings.globalPlaylist) lib.contents.toList records)
    (hcalm : lib.system = .calm) (hmapped : lib.mapped = some lib.contents.size)
    (hsize : LibraryHeader.size ≤ lib.contents.size) :
    ∃ shelf, shelf.records = records ∧ Passes lib.settings shelf lib := by
  have hbytes : lib.contents.toList.length = lib.contents.size := Image.length_toList _
  have hlength : LibraryHeader.size + (bodyOf records).length = lib.contents.toList.length := by
    rw [← h.body, List.length_drop]
    omega
  let fields := Bytes.slice lib.contents.toList (Word.size * 3) (LibraryHeader.size - Word.size * 3)
  let shelf : Shelf :=
    ⟨countIn (Text.bytes lib.settings.globalPlaylist) records, fields, records⟩
  have hencode : lib.contents.toList = shelf.volume.encode := by
    rw [Volume.encode, Volume.header, Volume.length]
    simp only [shelf, Shelf.volume]
    rw [hlength, ← h.header, ← h.body]
    show lib.contents.toList = lib.contents.toList.take _ ++ Bytes.slice _ _ _ ++ _
    rw [← Bytes.take_add_slice]
    exact (List.take_append_drop LibraryHeader.size lib.contents.toList).symm
  refine ⟨shelf, rfl, ⟨⟨⟨rfl, hencode, ?_, hcalm⟩, ?_, h.countIn_below, ?_⟩, h.sized⟩, h.holds,
    h.distinct, rfl⟩
  · rw [hmapped, ← hbytes, hencode]
  · show (Bytes.slice _ _ _).length = _
    rw [Bytes.length_slice]
    simp only [LibraryHeader.size, Word.size, LibraryHeader.nameField,
      LibraryHeader.mediaPrefixField] at hsize ⊢
    omega
  · have hbelow := h.below
    rwa [← hlength] at hbelow

end Wellformed

theorem Passes.wellformed {settings : Settings} {shelf : Shelf} {lib : LibraryFile}
    (h : Passes settings shelf lib) :
    Wellformed (Text.bytes settings.globalPlaylist) lib.contents.toList shelf.records where
  header := by
    rw [h.stores.keeps.holding.contents_eq, h.stores.keeps.sized.length_encode, ← h.counted]
    rw [Volume.encode, Volume.header, List.append_assoc]
    exact List.take_left' rfl
  body := by
    rw [h.stores.keeps.holding.contents_eq, Volume.encode, ← h.stores.keeps.sized.length_header,
      List.drop_left]
    rfl
  below := by
    rw [h.stores.keeps.holding.contents_eq, h.stores.keeps.sized.length_encode]
    exact h.stores.keeps.sized.below
  holds := h.holds
  distinct := h.distinct

theorem Passes.size_contents {settings : Settings} {shelf : Shelf} {lib : LibraryFile}
    (h : Passes settings shelf lib) : lib.contents.size = shelf.volume.length := by
  rw [h.stores.keeps.holding.size_contents, h.stores.keeps.sized.length_encode]

theorem passes_of_verify {lib : LibraryFile} {size : Nat} (hmapped : lib.mapped = some size)
    (hsize : LibraryHeader.size ≤ size) {audit : Audit} (h : lib.verify = .ok audit) :
    lib.contents.size = size ∧ ∃ shelf, Passes lib.settings shelf (lib.facing .calm) ∧
      audit = ⟨size, shelf.records.length, (shelf.records.map Record.count).sum⟩ := by
  have hcalm : (lib.facing .calm).verify = .ok audit := h
  obtain ⟨hcontents, shelf, hstores⟩ := @stores_of_verify (lib.facing .calm) _ rfl hmapped hsize _ hcalm
  obtain ⟨hpasses, rfl⟩ := (hstores.verify_passes_iff audit).1 h
  exact ⟨hcontents, shelf, hpasses, by rw [← hpasses.size_contents, hcontents]⟩

theorem exists_passes_of_verify {lib : LibraryFile} {audit : Audit} (h : lib.verify = .ok audit) :
    ∃ shelf, Passes lib.settings shelf (lib.facing .calm) := by
  obtain ⟨size, hmapped, hsize⟩ := exists_mapped_of_verify h
  obtain ⟨-, shelf, hpasses, -⟩ := passes_of_verify hmapped hsize h
  exact ⟨shelf, hpasses⟩

/-- The full check passes the files of that form, which is unique, and tells how long the file is and
how many playlists and paths there are. In every other case it finds damage. -/
theorem verify_eq_ok_iff {lib : LibraryFile} {size : Nat} (hmapped : lib.mapped = some size)
    (hsize : LibraryHeader.size ≤ size) :
    (∀ audit, lib.verify = .ok audit ↔ lib.contents.size = size ∧ ∃ records,
      Wellformed (Text.bytes lib.settings.globalPlaylist) lib.contents.toList records ∧
      audit = ⟨size, records.length, (records.map Record.count).sum⟩) ∧
    (∀ first second,
      Wellformed (Text.bytes lib.settings.globalPlaylist) lib.contents.toList first →
      Wellformed (Text.bytes lib.settings.globalPlaylist) lib.contents.toList second →
      first = second) ∧
    ((∃ audit, lib.verify = .ok audit) ∨
      ∃ damage, lib.verify = .error (.refused (.corrupt damage))) := by
  refine ⟨fun audit => ⟨fun h => ?_, ?_⟩, fun _ _ => Wellformed.unique, verify_cases hmapped hsize⟩
  · obtain ⟨hcontents, shelf, hpasses, haudit⟩ := passes_of_verify hmapped hsize h
    exact ⟨hcontents, shelf.records, hpasses.wellformed, haudit⟩
  · rintro ⟨rfl, records, hform, rfl⟩
    obtain ⟨shelf, rfl, hpasses⟩ := @Wellformed.passes _ (lib.facing .calm) hform rfl hmapped hsize
    refine (hpasses.stores.verify_passes_iff _).2 ⟨hpasses, ?_⟩
    rw [← hpasses.size_contents]
    rfl

/-- A file with one playlist "a", whose table holds "b". -/
theorem verify_one_playlist :
    let r : Record :=
      ⟨PlaylistHeader.nameField.padded [97], 1, StringTable.Parts.encode ⟨[98, 0], [], [0, 0, 0, 0]⟩⟩
    let v : Volume := ⟨0, Bytes.zeros 1012, bodyOf [r]⟩
    LibraryFile.verify ⟨"m", .default, .ofBytes v.encode, some 1174, .calm⟩ = .ok ⟨1174, 1, 1⟩ := by
  intro r v
  have hholds : r.Holds [[98]] :=
    ⟨rfl, rfl, ⟨_, [0], rfl, rfl, .cons ⟨by decide, [], rfl⟩ .nil⟩, List.pairwise_singleton _ _⟩
  have hr : r.Sized := hholds.sized (by decide)
  have hv : v.length = 1174 := by
    show LibraryHeader.size + (bodyOf [r]).length = 1174
    rw [bodyOf_cons, bodyOf_nil, List.append_nil, hr.length_encode]
    rfl
  have hsized : v.Sized :=
    ⟨Bytes.length_zeros 1012, show 0 < Word.limit by decide, by rw [hv]; decide⟩
  have hpasses : Passes .default ⟨0, Bytes.zeros 1012, [r]⟩
      ⟨"m", .default, .ofBytes v.encode, some v.length, .calm⟩ :=
    @Passes.of_encode .default ⟨0, Bytes.zeros 1012, [r]⟩ hsized (by simpa using ⟨_, hholds⟩)
      (by simp) (by decide) "m"
  rw [hv] at hpasses
  exact ((verify_eq_ok_iff rfl (by decide)).1 _).2
    ⟨hpasses.size_contents.trans hv, [r], hpasses.wellformed, rfl⟩

end LibraryFile
end MediaLibrary
