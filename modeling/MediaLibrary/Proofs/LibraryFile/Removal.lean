import Mathlib
import MediaLibrary.Proofs.LibraryFile.Grammar
import MediaLibrary.Proofs.LibraryFile.Paths
import MediaLibrary.Proofs.LibraryFile.Systems
import MediaLibrary.Proofs.StringTable.Removal
/-! Removing from libraries that pass the full check, however their files came about. The check of a
table does not keep its strings apart, so that it allows for tables in which a removal goes wrong. A
string that shares its bytes with no other can be removed, and the library passes the check again. -/
namespace MediaLibrary.LibraryFile

open StringTable (openAt removeAt)

variable {settings : Settings} {shelf : Shelf} {lib : LibraryFile} {before after : List Record}
  {r : Record} {values : List Bytes}

theorem countIn_replace {globalPlaylist : Bytes} {count : Nat} {table : Bytes}
    (hd : ((before ++ r :: after).map Record.name).Nodup) :
    countIn globalPlaylist (before ++ { r with count, table } :: after)
      = if r.name = globalPlaylist then count
        else countIn globalPlaylist (before ++ r :: after) := by
  have hname : Record.name { r with count, table } = r.name := rfl
  unfold countIn
  rw [List.find?_append, List.find?_append, List.find?_cons, List.find?_cons, hname]
  by_cases heq : r.name = globalPlaylist
  · have hnone : before.find? (·.name = globalPlaylist) = none := by
      rw [List.find?_eq_none]
      intro x hx hmem
      rw [decide_eq_true_eq, ← heq] at hmem
      rw [List.map_append, List.nodup_append] at hd
      exact hd.2.2 x.name (List.mem_map_of_mem hx) r.name (by simp) hmem
    simp [heq, hnone]
  · simp [heq]

theorem Stores.exists_table (h : Stores settings shelf lib)
    (hsplit : shelf.records = before ++ r :: after) (hholds : r.Holds values) :
    ∃ t, lib.tableOf (offsetAfter before) = .ok t ∧ t.parts.Sized ∧ t.parts.encode = r.table ∧
      t.Ordered values := by
  obtain ⟨view, hview, -⟩ := h.view_eq
  have himage := h.tableImage_eq hsplit hview
  have hsize : ((r.playlist (offsetAfter before)).tableImage view).size = r.table.length := by
    rw [← Image.length_toList, himage]
  have hbelow : ((r.playlist (offsetAfter before)).tableImage view).size < Word.limit := by
    have := h.record_below hsplit
    unfold Record.length at this
    omega
  obtain ⟨t, ht, hlen, hordered⟩ := (StringTable.spells_iff hbelow values).1 (himage ▸ hholds.table)
  obtain ⟨hsized, hbytes⟩ := StringTable.encode_of_decode_whole ht hlen
  refine ⟨t, ?_, hsized, hbytes.symm.trans himage, hordered⟩
  rw [h.tableOf_eq hsplit hview, ht]
  rfl

theorem Passes.replace (h : Passes settings shelf lib)
    (hsplit : shelf.records = before ++ r :: after) {count : Nat} {table : Bytes}
    (hholds : Record.Holds { r with count, table } values) {lib' : LibraryFile}
    (hstores : Stores settings
      (shelf.withRecord (Text.bytes settings.globalPlaylist) before { r with count, table } after)
      lib') :
    Passes settings
      (shelf.withRecord (Text.bytes settings.globalPlaylist) before { r with count, table } after)
      lib' where
  stores := hstores
  holds := by
    have hall := h.holds
    rw [hsplit] at hall
    exact forall_replace hall ⟨_, hholds⟩
  distinct := by
    have hdistinct := h.distinct
    rw [hsplit] at hdistinct
    simpa [Shelf.withRecord, Record.name] using hdistinct
  counted := by
    have hdistinct := h.distinct
    rw [hsplit] at hdistinct
    rw [Shelf.withRecord, countIn_replace hdistinct, h.counted, hsplit]
    rfl

theorem Passes.removePathAt_ok (h : Passes settings shelf lib)
    (hsplit : shelf.records = before ++ r :: after) :
    ∃ t values, lib.tableOf (offsetAfter before) = .ok t ∧ t.Ordered values ∧
      ∀ path, t.EndsAlone (Text.bytes path) → ∃ lib' shelf' t',
        removePathAt (offsetAfter before) path lib
          = .ok (decide (Text.bytes path ∈ values)) lib' ∧
        Passes settings shelf' lib' ∧ lib'.tableOf (offsetAfter before) = .ok t' ∧
        t'.Ordered (values.erase (Text.bytes path)) := by
  obtain ⟨values, hholds⟩ := h.holds r (by simp [hsplit])
  obtain ⟨t, ht, hsized, hbytes, hordered⟩ := h.stores.exists_table hsplit hholds
  refine ⟨t, values, ht, hordered, fun path halone => ?_⟩
  by_cases hm : Text.bytes path ∈ values
  · obtain ⟨rest, hremove, hlen, hsized', hordered'⟩ := hordered.remove_ok hsized halone hm
    have hlength : rest.parts.length = r.table.length := by
      rw [hlen, ← StringTable.Parts.length_encode, hbytes]
    obtain ⟨r', lib', hrecord, hdone, h'⟩ :=
      (h.stores.encloses hsplit).removePathAt_of_found ht hremove hlength
    have hholds' : r'.Holds (values.erase (Text.bytes path)) := by
      subst hrecord
      refine ⟨hholds.label, ?_, hordered'.spells hsized'⟩
      rw [List.length_erase_of_mem hm, ← hholds.counted]
    have hstores := Stores.withRecord h.stores.sized hsplit h'
    obtain ⟨t', ht', -, -, hordered''⟩ := hstores.exists_table rfl hholds'
    subst hrecord
    refine ⟨lib', _, t', ?_, h.replace hsplit hholds' hstores, ht', hordered''⟩
    rw [decide_eq_true hm]
    exact hdone
  · refine ⟨lib, shelf, t, ?_, h, ht, ?_⟩
    · rw [decide_eq_false hm, removePathAt_of_absent (h.stores.playlistAt_eq hsplit) ht
        (hordered.remove_absent hm)]
    · rwa [List.erase_of_not_mem hm]

/-- A table that passes the checks: "ab" stands at 0, and at 1 the end of it stands as "b". Taking out
"b" leaves "ab" without its zero byte, and taking out "ab" would make a slot negative. -/
theorem removal_of_shared_end :
    let image : Image := .ofBytes [0x12, 0x34, 0x43, 0x21, 0, 0, 0, 28, 0, 0, 0, 20, 0, 0, 0, 3,
      97, 98, 0, 0, 0, 0, 0, 0, 0, 0, 0, 1]
    (openAt image 0).bind (fun t => Failure.ofCheck .corrupt t.checkOrder) = .ok () ∧
    (openAt image 0).map StringTable.outcomes = .ok [.ok "ab", .ok "b"] ∧
    (removeAt image 0 [98]).map Prod.fst = .ok true ∧
    (removeAt image 0 [98]).bind (fun left => (openAt left.2 0).bind fun t =>
      Failure.ofCheck .corrupt t.checkOrder) = .error (.refused (.corrupt (.unterminated 0))) ∧
    removeAt image 0 [97, 98] = .error (.fault .overflow) := by
  refine ⟨?_, ?_, ?_, ?_, ?_⟩ <;> cbv

/-- Removing a string that ends alone: from any table that passes the checks, wherever it lies in an
image, and from the playlists of any library that passes the full check. The answer tells whether the
string was there, the others are left in their order, and the checks pass again. -/
theorem removal_of_ends_alone :
    (∀ (image : Image) (base : Nat) (t : StringTable) (value : Bytes),
      openAt image base = .ok t → t.checkOrder = .ok () → t.EndsAlone value →
      ∃ (values : List Bytes) (image' : Image) (t' : StringTable),
        t.slots.map t.resolve = values.map .ok ∧
        removeAt image base value = .ok (decide (value ∈ values), image') ∧
        openAt image' base = .ok t' ∧ t'.checkOrder = .ok () ∧
        t'.slots.map t'.resolve = (values.erase value).map .ok) ∧
    ∀ (lib : LibraryFile) (size : Nat) (audit : Audit) (playlists : List Playlist) (p : Playlist),
      lib.mapped = some size → LibraryHeader.size ≤ size → lib.verify = .ok audit →
      lib.playlists = .ok playlists → p ∈ playlists →
      ∃ (t : StringTable) (values : List Bytes), lib.tableOf p.offset = .ok t ∧
        t.checkOrder = .ok () ∧ t.slots.map t.resolve = values.map .ok ∧
        ∀ path, t.EndsAlone (Text.bytes path) →
          ∃ (lib' : LibraryFile) (audit' : Audit) (t' : StringTable),
            removePathAt p.offset path lib = .ok (decide (Text.bytes path ∈ values)) lib' ∧
            lib'.verify = .ok audit' ∧ lib'.tableOf p.offset = .ok t' ∧
            t'.slots.map t'.resolve = (values.erase (Text.bytes path)).map .ok := by
  constructor
  · intro image base t value hopen hcheck halone
    exact StringTable.removeAt_checked hopen hcheck halone
  · intro lib size audit playlists p hmapped hsize hverify hplaylists hp
    obtain ⟨-, shelf, hpasses, -⟩ := passes_of_verify hmapped hsize hverify
    obtain rfl := Except.ok.inj (hpasses.stores.playlists_eq.symm.trans hplaylists)
    obtain ⟨before, r, after, hsplit, rfl⟩ := exists_of_mem_playlistsFrom hpasses.stores.sized hp
    obtain ⟨t, values, ht, hordered, hremove⟩ := hpasses.removePathAt_ok hsplit
    refine ⟨t, values, ht, hordered.checkOrder_eq, hordered.resolves, fun path halone => ?_⟩
    obtain ⟨lib', shelf', t', hok, hpasses', ht', hordered'⟩ := hremove path halone
    obtain ⟨later, hremoved⟩ := Tracks.ok_of_calm Tracks.removePathAt hok
    exact ⟨lib'.facing later, _, t', hremoved,
      (hpasses'.stores.verify_passes_iff _).2 ⟨hpasses', rfl⟩, ht', hordered'.resolves⟩

/-- In a packed table of "a" and "b", "a" ends alone; and so does "b" as the only path of a library. -/
theorem removal_of_ends_alone_packed :
    let r : Record :=
      ⟨PlaylistHeader.nameField.padded [97], 1, (StringTable.packed 22 [Text.bytes "b"]).encode⟩
    let v : Volume := ⟨0, Bytes.zeros 1012, bodyOf [r]⟩
    (∃ (t : StringTable) (values : List Bytes) (image' : Image) (t' : StringTable),
      openAt (.ofBytes (StringTable.packed 64 [[97], [98]]).encode) 0 = .ok t ∧
      t.EndsAlone [97] ∧ t.slots.map t.resolve = values.map .ok ∧
      removeAt (.ofBytes (StringTable.packed 64 [[97], [98]]).encode) 0 [97]
        = .ok (decide ([97] ∈ values), image') ∧
      openAt image' 0 = .ok t' ∧ t'.checkOrder = .ok ()) ∧
    ∃ (lib' : LibraryFile) (removed : Bool) (audit' : Audit),
      removePathAt LibraryHeader.size "b" ⟨"m", .default, .ofBytes v.encode, some 1174, .calm⟩
        = .ok removed lib' ∧ lib'.verify = .ok audit' := by
  intro r v
  constructor
  · have hpack : StringTable.Packable 64 [[97], [98]] :=
      ⟨by decide, by decide, by decide, by decide⟩
    have hbytes : (Image.ofBytes (StringTable.packed 64 [[97], [98]]).encode).toList
        = [] ++ (StringTable.packed 64 [[97], [98]]).encode ++ [] := by simp
    obtain ⟨t, ht, hparts⟩ := StringTable.openAt_of_encode hpack.sized hbytes
    have hcheck := (hpack.ordered hparts).checkOrder_eq
    have halone : t.EndsAlone [97] := hpack.endsAlone hparts
    obtain ⟨values, image', t', hvalues, hremove, ht', hcheck', -⟩ :=
      removal_of_ends_alone.1 _ 0 t [97] ht hcheck halone
    exact ⟨t, values, image', t', ht, halone, hvalues, hremove, ht', hcheck'⟩
  · have hpack : StringTable.Packable 22 [Text.bytes "b"] :=
      ⟨by decide, by decide, by decide, by decide⟩
    have hholds : r.Holds (Bytes.ascending [Text.bytes "b"]) :=
      ⟨rfl, by simp [r, Bytes.length_ascending], hpack.spells⟩
    have hlength : r.table.length = 22 := by
      rw [StringTable.Parts.length_encode, hpack.length_packed]
    have hr : r.Sized := hholds.sized (by rw [hlength]; decide)
    have hv : v.length = 1174 := by
      show LibraryHeader.size + (bodyOf [r]).length = 1174
      rw [bodyOf_cons, bodyOf_nil, List.append_nil, hr.length_encode, Record.length, hlength]
      rfl
    have hsized : v.Sized :=
      ⟨Bytes.length_zeros 1012, show 0 < Word.limit by decide, by rw [hv]; decide⟩
    have hpasses : Passes .default ⟨0, Bytes.zeros 1012, [r]⟩
        ⟨"m", .default, .ofBytes v.encode, some v.length, .calm⟩ :=
      @Passes.of_encode .default ⟨0, Bytes.zeros 1012, [r]⟩ hsized (by simpa using ⟨_, hholds⟩)
        (by simp) (by decide) "m"
    rw [hv] at hpasses
    have hverify := (hpasses.stores.verify_passes_iff _).2 ⟨hpasses, rfl⟩
    obtain ⟨t, values, ht, -, -, hremove⟩ := removal_of_ends_alone.2 _ 1174 _ _ _ rfl (by decide)
      hverify hpasses.stores.playlists_eq List.mem_cons_self
    obtain ⟨view, hview, -⟩ := hpasses.stores.view_eq
    have hsplit : (Shelf.mk 0 (Bytes.zeros 1012) [r]).records = [] ++ r :: [] := rfl
    have himage : ((r.playlist (offsetAfter [])).tableImage view).toList
        = (StringTable.packed 22 [Text.bytes "b"]).encode ++ [] := by
      rw [List.append_nil]
      exact hpasses.stores.tableImage_eq hsplit hview
    obtain ⟨t', ht', hparts⟩ := StringTable.decode_of_encode hpack.sized himage
    have htable := hpasses.stores.tableOf_eq hsplit hview
    rw [ht'] at htable
    obtain rfl := Except.ok.inj (ht.symm.trans htable)
    obtain ⟨lib', audit', t', hok, hverify', -⟩ := hremove "b" (hpack.endsAlone hparts)
    exact ⟨lib', _, audit', hok, hverify'⟩

end MediaLibrary.LibraryFile
