import MediaLibrary.Proofs.LibraryFile.Confinement
import MediaLibrary.Proofs.LibraryFile.Removal
/-! What a change of one playlist leaves alone, in libraries that pass the full check. The bytes of one
record are replaced, and the header follows: its length always, its media count if the playlist is the
global one. The records before keep their places, and those behind move by as much as the one has
grown or shrunk. -/
namespace MediaLibrary

namespace Playlist

def bytesIn (file : Bytes) (p : Playlist) : Bytes := Bytes.slice file p.offset p.length

/-- The playlist with its record `growth` bytes higher. -/
def raise (growth : Nat) (p : Playlist) : Playlist := { p with offset := p.offset + growth }

end Playlist

namespace LibraryFile

theorem playlistsFrom_raise (growth offset : Nat) (records : List Record) :
    playlistsFrom (offset + growth) records
      = (playlistsFrom offset records).map (Playlist.raise growth) := by
  induction records generalizing offset with
  | nil => rfl
  | cons r rest ih =>
    rw [playlistsFrom, Nat.add_right_comm, ih, playlistsFrom, List.map_cons]
    rfl

theorem map_bytesIn_playlistsFrom {records : List Record} (h : ∀ r ∈ records, r.Sized)
    (lead rest : Bytes) :
    (playlistsFrom lead.length records).map (Playlist.bytesIn (lead ++ bodyOf records ++ rest))
      = records.map Record.encode := by
  induction records generalizing lead with
  | nil => rfl
  | cons r later ih =>
    have hr := (h r List.mem_cons_self).length_encode
    have hfile : lead ++ bodyOf (r :: later) ++ rest = lead ++ r.encode ++ bodyOf later ++ rest := by
      simp only [bodyOf_cons, List.append_assoc]
    have hlead : (lead ++ r.encode).length = lead.length + r.length := by
      rw [List.length_append, hr]
    have hlater := ih (fun x hx => h x (List.mem_cons_of_mem _ hx)) (lead ++ r.encode)
    rw [hlead] at hlater
    rw [hfile, playlistsFrom, List.map_cons, hlater, List.map_cons, Playlist.bytesIn]
    show Bytes.slice _ lead.length r.length :: _ = _
    rw [← hr, List.append_assoc (lead ++ r.encode), Bytes.slice_middle]

namespace Stores

variable {settings settings' : Settings} {shelf shelf' : Shelf} {lib lib' : LibraryFile}
  {before after before' after' middle : List Record}

theorem length_lead (h : Stores settings shelf lib) (before : List Record) :
    (shelf.volume.header ++ bodyOf before).length = offsetAfter before := by
  rw [List.length_append, h.keeps.sized.length_header]
  rfl

theorem contents_split (h : Stores settings shelf lib)
    (hsplit : shelf.records = before ++ middle ++ after) : lib.contents.toList
      = shelf.volume.header ++ bodyOf before ++ bodyOf middle ++ bodyOf after := by
  rw [h.keeps.holding.contents_eq, Volume.encode, Shelf.volume, hsplit, bodyOf_append,
    bodyOf_append]
  simp only [List.append_assoc]

theorem map_bytesIn (h : Stores settings shelf lib)
    (hsplit : shelf.records = before ++ middle ++ after) :
    (playlistsFrom (offsetAfter before) middle).map (Playlist.bytesIn lib.contents.toList)
      = middle.map Record.encode := by
  rw [h.contents_split hsplit, ← h.length_lead before]
  exact map_bytesIn_playlistsFrom (fun r hr => h.sized r (by simp [hsplit, hr])) _ _

theorem bytesIn_raise (h : Stores settings shelf lib) (h' : Stores settings' shelf' lib')
    (hsplit : shelf.records = before ++ middle ++ after)
    (hsplit' : shelf'.records = before' ++ middle ++ after') {growth : Nat}
    (hgrowth : offsetAfter before' = offsetAfter before + growth) :
    ∀ q ∈ playlistsFrom (offsetAfter before) middle,
      (q.raise growth).bytesIn lib'.contents.toList = q.bytesIn lib.contents.toList := by
  have hsame := (h'.map_bytesIn hsplit').trans (h.map_bytesIn hsplit).symm
  rw [hgrowth, playlistsFrom_raise, List.map_map] at hsame
  exact List.map_inj_left.1 hsame

end Stores

/-- The bytes with `count` where the header of a library counts the paths of the global playlist, if
that is what `p` is. -/
def recounted (settings : Settings) (p : Playlist) (count : Nat) (bytes : Bytes) : Bytes :=
  if p.name = Text.bytes settings.globalPlaylist then
    Bytes.overlay bytes LibraryHeader.mediaCountField.offset (Word.toBytes count)
  else bytes

/-- The file has `record` in the place of the record of `p`, and the header follows. -/
structure Replaced (p : Playlist) (record : Bytes) (count : Nat) (lib lib' : LibraryFile) : Prop where
  bytes : lib'.contents.toList = recounted lib.settings p count
    (stamp (lib.contents.toList.take p.offset ++ record
      ++ lib.contents.toList.drop (p.offset + p.length)))
  whole : lib'.Whole

namespace Stores

variable {settings : Settings} {shelf : Shelf} {lib lib' : LibraryFile}
  {before after middle : List Record} {r : Record} {count : Nat}

theorem replaced (h : Stores settings shelf lib) (hsplit : shelf.records = before ++ r :: after)
    (h' : Stores settings
      { shelf with
        mediaCount :=
          if r.name = Text.bytes settings.globalPlaylist then count else shelf.mediaCount
        records := before ++ middle ++ after } lib') :
    Replaced (r.playlist (offsetAfter before)) (bodyOf middle) count lib lib' := by
  have hr : (bodyOf [r]).length = r.length := by
    rw [bodyOf_cons, bodyOf_nil, List.append_nil, (h.sized r (by simp [hsplit])).length_encode]
  have hfile := h.contents_split (show shelf.records = before ++ [r] ++ after by simp [hsplit])
  have htake : lib.contents.toList.take (offsetAfter before)
      = shelf.volume.header ++ bodyOf before := by
    rw [hfile, List.append_assoc, List.take_left' (h.length_lead before)]
  have hdrop : lib.contents.toList.drop (offsetAfter before + r.length) = bodyOf after := by
    rw [hfile]
    refine List.drop_left' ?_
    rw [List.length_append, h.length_lead before, hr]
  have hstamp : stamp (lib.contents.toList.take (offsetAfter before) ++ bodyOf middle
      ++ lib.contents.toList.drop (offsetAfter before + r.length))
        = Volume.encode { shelf.volume with body := bodyOf (before ++ middle ++ after) } := by
    rw [htake, hdrop, ← h.keeps.sized.stamp_header, bodyOf_append, bodyOf_append]
    simp only [List.append_assoc]
  refine ⟨?_, h'.keeps.holding.whole⟩
  show _ = recounted _ _ _ (stamp (lib.contents.toList.take (offsetAfter before) ++ bodyOf middle
      ++ lib.contents.toList.drop (offsetAfter before + r.length)))
  rw [hstamp, h'.keeps.holding.contents_eq, recounted, h.keeps.holding.settings_eq]
  by_cases hglobal : r.name = Text.bytes settings.globalPlaylist
  · have hname : (r.playlist (offsetAfter before)).name = Text.bytes settings.globalPlaylist :=
      hglobal
    rw [if_pos hname, Volume.overlay_mediaCount, if_pos hglobal]
    rfl
  · have hname : ¬ (r.playlist (offsetAfter before)).name = Text.bytes settings.globalPlaylist :=
      hglobal
    rw [if_neg hname, if_neg hglobal]
    rfl

end Stores

/-- The record of `p` has become that of `p'`, which is `growth` bytes longer. -/
structure Rewritten (before : List Playlist) (p p' : Playlist) (after : List Playlist) (growth : Nat)
    (lib lib' : LibraryFile) : Prop where
  playlists : lib'.playlists = .ok (before ++ p' :: after.map (Playlist.raise growth))
  offset : p'.offset = p.offset
  name : p'.name = p.name
  length : p'.length = p.length + growth
  earlier : ∀ q ∈ before, q.bytesIn lib'.contents.toList = q.bytesIn lib.contents.toList
  later : ∀ q ∈ after,
    (q.raise growth).bytesIn lib'.contents.toList = q.bytesIn lib.contents.toList
  replaced : Replaced p (p'.bytesIn lib'.contents.toList) p'.count lib lib'
  length_eq : lib'.length = .ok (lib.contents.size + growth)
  mediaCount_eq : lib'.mediaCount
    = if p.name = Text.bytes lib.settings.globalPlaylist then .ok p'.count else lib.mediaCount

theorem Rewritten.of_facing {before after : List Playlist} {p p' : Playlist} {growth : Nat}
    {lib lib' : LibraryFile} {system later : System}
    (h : Rewritten before p p' after growth (lib.facing system) (lib'.facing later)) :
    Rewritten before p p' after growth lib lib' :=
  ⟨h.playlists, h.offset, h.name, h.length, h.earlier, h.later, ⟨h.replaced.bytes, h.replaced.whole⟩,
    h.length_eq, h.mediaCount_eq⟩

section Paths

variable {settings : Settings} {shelf : Shelf} {lib lib' : LibraryFile}
  {before after : List Record} {r r' : Record} {growth : Nat} {path : String}

theorem Stores.rewritten (h : Stores settings shelf lib)
    (hsplit : shelf.records = before ++ r :: after) (hlabel : r'.label = r.label)
    (hlength : r'.length = r.length + growth)
    (h' : Encloses settings (shelf.volume.recount (Text.bytes settings.globalPlaylist) r')
      (bodyOf before) r' (bodyOf after) lib') :
    Rewritten (playlistsFrom LibraryHeader.size before) (r.playlist (offsetAfter before))
      (r'.playlist (offsetAfter before)) (playlistsFrom (offsetAfter before + r.length) after)
      growth lib lib' := by
  have hname : r'.name = r.name := congrArg Bytes.untilZero hlabel
  have hr : r.Sized := h.sized r (by simp [hsplit])
  have hbefore : ∀ x ∈ before, x.Sized := fun x hx => h.sized x (by simp [hsplit, hx])
  have hstores := Stores.withRecord h.sized hsplit h'
  have hmiddle : Stores settings
      { shelf with
        mediaCount :=
          if r.name = Text.bytes settings.globalPlaylist then r'.count else shelf.mediaCount
        records := before ++ [r'] ++ after } lib' := by
    rw [Shelf.withRecord, hname] at hstores
    rwa [List.append_assoc]
  have hplace : offsetAfter before + r'.length = offsetAfter before + r.length + growth := by
    rw [hlength, Nat.add_assoc]
  have hrecord : (r'.playlist (offsetAfter before)).bytesIn lib'.contents.toList = r'.encode :=
    List.head_eq_of_cons_eq (hmiddle.map_bytesIn rfl)
  constructor
  · rw [hstores.playlists_eq, Shelf.withRecord, playlistsFrom_append hbefore, playlistsFrom,
      ← offsetAfter, hplace, playlistsFrom_raise]
  · rfl
  · exact hname
  · exact hlength
  · exact h.bytesIn_raise hmiddle (show shelf.records = [] ++ before ++ r :: after from hsplit)
      (show _ = [] ++ before ++ r' :: after by simp) rfl
  · have hlater := h.bytesIn_raise hmiddle
      (show shelf.records = (before ++ [r]) ++ after ++ [] by simp [hsplit])
      (show _ = (before ++ [r']) ++ after ++ [] by simp)
      (by rw [offsetAfter_concat before h'.sized, offsetAfter_concat before hr, hplace])
    rwa [offsetAfter_concat before hr] at hlater
  · have hreplaced := h.replaced hsplit hmiddle
    rw [bodyOf_cons, bodyOf_nil, List.append_nil, ← hrecord] at hreplaced
    exact hreplaced
  · have hold := h.length_split hsplit
    have hnew := hmiddle.length_split (show before ++ [r'] ++ after = before ++ r' :: after by simp)
    rw [hmiddle.keeps.length_eq, hnew, h.keeps.holding.size_contents, h.keeps.sized.length_encode,
      hold]
    congr 1
    omega
  · rw [hmiddle.keeps.mediaCount_eq, h.keeps.mediaCount_eq, h.keeps.holding.settings_eq]
    exact apply_ite Except.ok _ _ _

theorem Passes.recount_self (h : Passes settings shelf lib)
    (hsplit : shelf.records = before ++ r :: after) :
    shelf.volume.recount (Text.bytes settings.globalPlaylist) r = shelf.volume := by
  have hdistinct := h.distinct
  rw [hsplit] at hdistinct
  have hcount : shelf.mediaCount
      = if r.name = Text.bytes settings.globalPlaylist then r.count else shelf.mediaCount := by
    have hreplaced : countIn (Text.bytes settings.globalPlaylist) (before ++ r :: after) = _ :=
      countIn_replace hdistinct
    rwa [← hsplit, ← h.counted] at hreplaced
  exact congrArg (Volume.mk · shelf.fields (bodyOf shelf.records)) hcount.symm

theorem exists_remove_of_ok {offset : Nat} {removed : Bool}
    (hremove : removePathAt offset path lib = .ok removed lib') :
    ∃ t left, lib.tableOf offset = .ok t ∧ t.remove (Text.bytes path) = .ok left := by
  obtain ⟨p, lib₁, hp, hremove₁⟩ := Steps.bind_eq_ok_iff.1 hremove
  obtain ⟨-, rfl⟩ := Steps.consult_eq_ok_iff.1 hp
  obtain ⟨t, lib₂, ht, hremove₂⟩ := Steps.bind_eq_ok_iff.1 hremove₁
  obtain ⟨htable, rfl⟩ := Steps.consult_eq_ok_iff.1 ht
  obtain ⟨left, lib₃, hleft, -⟩ := Steps.bind_eq_ok_iff.1 hremove₂
  exact ⟨t, left, htable, Steps.mapError_eq_ok_iff.1 (Steps.consult_eq_ok_iff.1 hleft).1⟩

theorem Passes.addPathAt_rewritten (h : Passes settings shelf lib)
    (hsplit : shelf.records = before ++ r :: after)
    (hadd : addPathAt (offsetAfter before) path lib = .ok () lib') :
    ∃ n r', Rewritten (playlistsFrom LibraryHeader.size before) (r.playlist (offsetAfter before))
      (Record.playlist r' (offsetAfter before))
      (playlistsFrom (offsetAfter before + r.length) after) (n * settings.growthQuantum) lib lib' := by
  obtain ⟨values, hholds⟩ := h.holds r (by simp [hsplit])
  obtain ⟨t, -, hsized, hbytes, -⟩ := h.stores.exists_table hsplit hholds
  have htable : r.table = t.parts.encode ++ [] := by rw [hbytes, List.append_nil]
  obtain ⟨n, r', hlength, hlabel, h'⟩ := (h.stores.encloses hsplit).addPathAt_ok hsized htable hadd
  exact ⟨n, r', h.stores.rewritten hsplit hlabel hlength h'⟩

theorem Passes.removePathAt_rewritten (h : Passes settings shelf lib)
    (hsplit : shelf.records = before ++ r :: after) {removed : Bool}
    (hremove : removePathAt (offsetAfter before) path lib = .ok removed lib') :
    ∃ r', Rewritten (playlistsFrom LibraryHeader.size before) (r.playlist (offsetAfter before))
      (Record.playlist r' (offsetAfter before))
      (playlistsFrom (offsetAfter before + r.length) after) 0 lib lib' := by
  obtain ⟨values, hholds⟩ := h.holds r (by simp [hsplit])
  obtain ⟨t, ht, hsized, hbytes, -⟩ := h.stores.exists_table hsplit hholds
  obtain ⟨t', left, ht', hleft⟩ := exists_remove_of_ok hremove
  obtain rfl := Except.ok.inj (ht.symm.trans ht')
  have hencloses := h.stores.encloses hsplit
  cases left with
  | none =>
    have habsent := removePathAt_of_absent hencloses.playlistAt_eq ht hleft
    obtain rfl := (EStateM.Result.ok.inj (hremove.symm.trans habsent)).2
    rw [← h.recount_self hsplit] at hencloses
    exact ⟨r, h.stores.rewritten hsplit rfl rfl hencloses⟩
  | some rest =>
    have hlength : rest.parts.length = r.table.length := by
      rw [StringTable.length_of_remove hsized hleft, ← StringTable.Parts.length_encode, hbytes]
    obtain ⟨r', lib₁, hrecord, hdone, h'⟩ := hencloses.removePathAt_of_found ht hleft hlength
    obtain rfl := (EStateM.Result.ok.inj (hremove.symm.trans hdone)).2
    refine ⟨r', h.stores.rewritten hsplit ?_ ?_ h'⟩
    · rw [hrecord]
    · rw [hrecord, Record.length, StringTable.Parts.length_encode, hlength, Record.length,
        Nat.add_zero]

end Paths

/-- Adding a path to a playlist lengthens its record by whole growth steps, and removing one leaves it
its length. The other records keep their bytes, those behind it in places as much higher; and of the
header there is another length, and another media count if the playlist is the global one. -/
theorem rewritten_of_path_change {lib : LibraryFile} {size : Nat} (hmapped : lib.mapped = some size)
    (hsize : LibraryHeader.size ≤ size) {audit : Audit} (hverify : lib.verify = .ok audit)
    {before after : List Playlist} {p : Playlist}
    (hplaylists : lib.playlists = .ok (before ++ p :: after)) (path : String) :
    (∀ lib', addPathAt p.offset path lib = .ok () lib' →
      ∃ n p', Rewritten before p p' after (n * lib.settings.growthQuantum) lib lib') ∧
    ∀ removed lib', removePathAt p.offset path lib = .ok removed lib' →
      ∃ p', Rewritten before p p' after 0 lib lib' := by
  obtain ⟨-, shelf, hpasses, -⟩ := passes_of_verify hmapped hsize hverify
  have hall := Except.ok.inj (hpasses.stores.playlists_eq.symm.trans hplaylists)
  obtain ⟨earlier, r, later, hsplit, rfl, rfl, rfl⟩ :=
    split_playlistsFrom hpasses.stores.sized hall
  constructor
  · intro lib' hadd
    have hcalm := (Tracks.addPathAt_any _ path).calm_of_ok hadd
    obtain ⟨n, r', hrewritten⟩ := hpasses.addPathAt_rewritten hsplit hcalm
    exact ⟨n, _, hrewritten.of_facing⟩
  · intro removed lib' hremove
    have htracks : Tracks lib.system.pending .io (fun _ => True)
        (removePathAt (offsetAfter earlier) path) (lib.facing .calm) := Tracks.removePathAt
    have hcalm := htracks.calm_of_ok hremove
    obtain ⟨r', hrewritten⟩ := hpasses.removePathAt_rewritten hsplit hcalm
    exact ⟨_, hrewritten.of_facing⟩

set_option maxRecDepth 4000 in
theorem verify_claimingLibrary : (claimingLibrary 16).verify = .ok ⟨1312, 2, 0⟩ := by cbv

set_option maxRecDepth 4000 in
theorem exists_removed_claimingLibrary : ∃ lib' lib'',
    addPathAt 1024 "x" (claimingLibrary 16) = .ok () lib' ∧
    lib'.mapped = some 1440 ∧ lib'.verify = .ok ⟨1440, 2, 1⟩ ∧
    lib'.playlists = .ok [⟨1024, 272, 1, [97]⟩, ⟨1296, 144, 0, [98]⟩] ∧
    lib'.playlistAt 1024 = .ok ⟨1024, 272, 1, [97]⟩ ∧
    removePathAt 1024 "x" lib' = .ok true lib'' := by
  obtain ⟨lib', hadd⟩ := exists_added_claimingLibrary
  obtain rfl := Steps.left_ok hadd
  have hstored : (removePathAt 1024 "x").run'
      (Steps.left (addPathAt 1024 "x") (claimingLibrary 16)) = some true := by cbv
  obtain ⟨lib'', hremove⟩ := Steps.exists_of_run' hstored
  refine ⟨_, lib'', hadd, ?_, ?_, ?_, ?_, hremove⟩ <;> cbv

set_option maxRecDepth 4000 in
theorem rewritten_of_path_change_first :
    ∃ (lib' lib'' : LibraryFile) (n : Nat) (p' p'' : Playlist),
      addPathAt 1024 "x" (claimingLibrary 16) = .ok () lib' ∧
      Rewritten [] ⟨1024, 144, 0, [97]⟩ p' [⟨1168, 144, 0, [98]⟩] (n * 128) (claimingLibrary 16)
        lib' ∧
      removePathAt 1024 "x" lib' = .ok true lib'' ∧
      Rewritten [] ⟨1024, 272, 1, [97]⟩ p'' [⟨1296, 144, 0, [98]⟩] 0 lib' lib'' := by
  have hplaylists : (claimingLibrary 16).playlists
      = .ok ([] ++ ⟨1024, 144, 0, [97]⟩ :: [⟨1168, 144, 0, [98]⟩]) := by cbv
  obtain ⟨lib', lib'', hadd, hmapped, hverify, hmoved, -, hremove⟩ := exists_removed_claimingLibrary
  have hsplit : lib'.playlists
      = .ok ([] ++ ⟨1024, 272, 1, [97]⟩ :: [⟨1296, 144, 0, [98]⟩]) := hmoved
  have hadds := (rewritten_of_path_change rfl (by decide) verify_claimingLibrary hplaylists "x").1
  have hremoves := (rewritten_of_path_change hmapped (by decide) hverify hsplit "x").2
  obtain ⟨n, p', hlonger⟩ := hadds lib' hadd
  obtain ⟨p'', hsame⟩ := hremoves true lib'' hremove
  exact ⟨lib', lib'', n, p', p'', hadd, hlonger, hremove, hsame⟩

structure Appended (name : String) (lib lib' : LibraryFile) : Prop where
  bytes : lib'.contents.toList = stamp (lib.contents.toList
    ++ (newRecord (Text.bytes name) lib.settings.growthQuantum).encode)
  whole : lib'.Whole
  size : lib'.contents.size
    = lib.contents.size + (PlaylistHeader.size + lib.settings.growthQuantum)
  playlists : ∃ playlists, lib.playlists = .ok playlists ∧
    lib'.playlists = .ok (playlists ++ [⟨lib.contents.size,
      PlaylistHeader.size + lib.settings.growthQuantum, 0, Text.bytes name⟩])
  paths : lib'.paths lib.contents.size = .ok []

/-- The record of `p` has been taken out; `after` are the playlists behind it, where they are now. -/
structure Excised (name : String) (before : List Playlist) (p : Playlist) (after : List Playlist)
    (lib lib' : LibraryFile) : Prop where
  name : p.name = Text.bytes name
  found : lib.playlists = .ok (before ++ p :: after.map (Playlist.raise p.length))
  left : lib'.playlists = .ok (before ++ after)
  earlier : ∀ q ∈ before, q.bytesIn lib'.contents.toList = q.bytesIn lib.contents.toList
  later : ∀ q ∈ after,
    q.bytesIn lib'.contents.toList = (q.raise p.length).bytesIn lib.contents.toList
  replaced : Replaced p [] 0 lib lib'

theorem Appended.of_facing {name : String} {lib lib' : LibraryFile} {system later : System}
    (h : Appended name (lib.facing system) (lib'.facing later)) : Appended name lib lib' :=
  ⟨h.bytes, h.whole, h.size, h.playlists, h.paths⟩

theorem Excised.of_facing {name : String} {before after : List Playlist} {p : Playlist}
    {lib lib' : LibraryFile} {system later : System}
    (h : Excised name before p after (lib.facing system) (lib'.facing later)) :
    Excised name before p after lib lib' :=
  ⟨h.name, h.found, h.left, h.earlier, h.later, ⟨h.replaced.bytes, h.replaced.whole⟩⟩

section Lifecycle

variable {settings : Settings} {shelf : Shelf} {lib lib' : LibraryFile}
  {before after : List Record} {r : Record} {name : String}

theorem Stores.size_contents (h : Stores settings shelf lib) :
    lib.contents.size = offsetAfter shelf.records := by
  rw [h.keeps.holding.size_contents, h.keeps.sized.length_encode]
  rfl

theorem countIn_of_absent {globalPlaylist : Bytes} {records : List Record}
    (h : globalPlaylist ∉ records.map Record.name) : countIn globalPlaylist records = 0 := by
  have hnone : records.find? (·.name = globalPlaylist) = none := by
    rw [List.find?_eq_none]
    intro r hr heq
    exact h (of_decide_eq_true heq ▸ List.mem_map_of_mem hr)
  rw [countIn, hnone]
  rfl

theorem newRecord_holds {quantum : Nat} (hquantum : StringTable.headerSize ≤ quantum)
    (hbelow : quantum < Word.limit)
    (hvalid : PlaylistHeader.nameField.check (Text.bytes name) = .ok ()) :
    (newRecord (Text.bytes name) quantum).Holds [] where
  label := NameField.length_padded (Nat.le_of_lt ((NameField.check_eq_ok_iff _ _).1 hvalid).2)
  counted := rfl
  table := by
    have hspells := (StringTable.packable_nil hquantum hbelow).spells
    have hnone : Bytes.ascending [] = [] := by simp [Bytes.ascending]
    rw [StringTable.encode_packed_nil hquantum, hnone] at hspells
    exact hspells

theorem Stores.appended (h : Stores settings shelf lib) {offset : Nat}
    (hstart : startPlaylist name lib = .ok offset lib') :
    offset = lib.contents.size ∧ Appended name lib lib' := by
  obtain ⟨rfl, hquantum, hbelow, hnew, hvalid, h'⟩ := h.startPlaylist_of_ok hstart
  have hholds := newRecord_holds hquantum hbelow hvalid
  have hsettings : lib.settings = settings := h.keeps.holding.settings_eq
  have hsized : (newRecord (Text.bytes name) settings.growthQuantum).Sized :=
    newRecord_sized (Nat.le_of_lt ((NameField.check_eq_ok_iff _ _).1 hvalid).2)
  have hsize : lib.contents.size = offsetAfter shelf.records := h.size_contents
  have hplaylist : (newRecord (Text.bytes name) settings.growthQuantum).playlist
      (offsetAfter shelf.records) = ⟨lib.contents.size,
        PlaylistHeader.size + settings.growthQuantum, 0, Text.bytes name⟩ := by
    rw [Record.playlist, length_newRecord hquantum, hsize, Record.name, newRecord,
      NameField.untilZero_padded hvalid]
  refine ⟨hsize.symm, ?_⟩
  constructor
  · have hbody : bodyOf (shelf.records ++ [newRecord (Text.bytes name) settings.growthQuantum])
        = shelf.volume.body ++ (newRecord (Text.bytes name) settings.growthQuantum).encode := by
      simp [Shelf.volume]
    rw [h'.keeps.holding.contents_eq, h.keeps.holding.contents_eq, hsettings,
      h.keeps.sized.stamp_append, Shelf.volume, hbody]
    rfl
  · exact h'.keeps.holding.whole
  · rw [h'.size_contents, offsetAfter_concat _ hsized, length_newRecord hquantum, hsize, hsettings]
  · refine ⟨_, h.playlists_eq, ?_⟩
    rw [h'.playlists_eq, playlistsFrom_append h.sized, hsettings, ← hplaylist]
    rfl
  · obtain ⟨t, ht, -, -, hordered⟩ := h'.exists_table rfl hholds
    rw [paths, hsize, Steps.query_ok ht]
    have htexts : t.texts = .ok [] := StringTable.Ordered.texts_eq hordered
    rw [htexts]
    rfl

theorem Stores.excised (h : Stores settings shelf lib)
    (hdelete : deletePlaylist name lib = .ok () lib') :
    ∃ before p after, Excised name before p after lib lib' := by
  obtain ⟨p, between, hconsult, -⟩ := Steps.bind_eq_ok_iff.1 hdelete
  obtain ⟨hnamed, rfl⟩ := Steps.consult_eq_ok_iff.1 hconsult
  obtain ⟨found, hfind, hanswer⟩ := Steps.query_eq_ok_iff.1 hnamed
  cases found with
  | none => cases hanswer
  | some q =>
    obtain rfl := Except.ok.inj hanswer
    obtain ⟨before, r, after, hsplit, rfl, hname, -⟩ := h.exists_of_find hfind
    obtain ⟨lib₁, hdone, h'⟩ := h.deletePlaylist_ok hsplit hname hnamed
    obtain rfl := (EStateM.Result.ok.inj (hdelete.symm.trans hdone)).2
    have hr : r.Sized := h.sized r (by simp [hsplit])
    have hbefore : ∀ x ∈ before, x.Sized := fun x hx => h.sized x (by simp [hsplit, hx])
    refine ⟨playlistsFrom LibraryHeader.size before, r.playlist (offsetAfter before),
      playlistsFrom (offsetAfter before) after, ?_⟩
    constructor
    · exact hname
    · have hlength : (r.playlist (offsetAfter before)).length = r.length := rfl
      rw [h.playlists_eq, hsplit, playlistsFrom_append hbefore, playlistsFrom, ← offsetAfter,
        hlength, ← playlistsFrom_raise]
    · rw [h'.playlists_eq, playlistsFrom_append hbefore, ← offsetAfter]
    · exact h.bytesIn_raise h' (show shelf.records = [] ++ before ++ r :: after from hsplit)
        (show _ = [] ++ before ++ after from rfl) rfl
    · intro q hq
      exact (h'.bytesIn_raise h (show _ = before ++ after ++ [] by simp)
        (show shelf.records = (before ++ [r]) ++ after ++ [] by simp [hsplit])
        (offsetAfter_concat before hr) q hq).symm
    · have hnone : before ++ after = before ++ [] ++ after := by simp
      rw [hnone] at h'
      exact h.replaced hsplit h'

theorem Passes.deletePlaylist_started (h : Passes settings shelf lib) {offset : Nat}
    (hstart : startPlaylist name lib = .ok offset lib') :
    ∃ lib'', deletePlaylist name lib' = .ok () lib'' ∧
      lib''.contents.toList = lib.contents.toList ∧ lib''.mapped = lib.mapped := by
  obtain ⟨-, -, -, hnew, hvalid, h'⟩ := h.stores.startPlaylist_of_ok hstart
  have hname : (newRecord (Text.bytes name) settings.growthQuantum).name = Text.bytes name :=
    NameField.untilZero_padded hvalid
  have hnamed : lib'.named name = .ok ((newRecord (Text.bytes name) settings.growthQuantum).playlist
      (offsetAfter shelf.records)) := by
    rw [named, Steps.query_ok (h'.find_present rfl hnew hname)]
    rfl
  obtain ⟨lib'', hdelete, h''⟩ := h'.deletePlaylist_ok rfl hname hnamed
  have hcount : (if (newRecord (Text.bytes name) settings.growthQuantum).name
      = Text.bytes settings.globalPlaylist then 0 else shelf.mediaCount) = shelf.mediaCount := by
    split
    · rename_i hglobal
      rw [hname] at hglobal
      rw [h.counted, countIn_of_absent (hglobal ▸ hnew)]
    · rfl
  rw [List.append_nil] at h''
  have hsame : Stores settings shelf lib'' := by
    rw [hcount] at h''
    exact h''
  refine ⟨lib'', hdelete, ?_, ?_⟩
  · rw [hsame.keeps.holding.contents_eq, h.stores.keeps.holding.contents_eq]
  · rw [hsame.keeps.holding.mapped_eq, h.stores.keeps.holding.mapped_eq]

end Lifecycle

/-- Starting a playlist appends one empty record, deleting one takes out the bytes of its record, and
nothing else changes but the length in the header and, with the global playlist, the media count. A
playlist that was started can be deleted if the system lets it, and that leaves the file as it was. -/
theorem spliced_of_playlist_change {lib : LibraryFile} {size : Nat} (hmapped : lib.mapped = some size)
    (hsize : LibraryHeader.size ≤ size) {audit : Audit} (hverify : lib.verify = .ok audit)
    (name : String) :
    (∀ offset lib', startPlaylist name lib = .ok offset lib' →
      offset = lib.contents.size ∧ Appended name lib lib' ∧
      (∃ lib'', deletePlaylist name (lib'.facing .calm) = .ok () lib'') ∧
      ∀ system lib'', deletePlaylist name (lib'.facing system) = .ok () lib'' →
        lib''.contents.toList = lib.contents.toList ∧ lib''.mapped = lib.mapped) ∧
    ∀ lib', deletePlaylist name lib = .ok () lib' →
      ∃ before p after, Excised name before p after lib lib' := by
  obtain ⟨-, shelf, hpasses, -⟩ := passes_of_verify hmapped hsize hverify
  constructor
  · intro offset lib' hstart
    have hstarted := (Tracks.startPlaylist_any name).calm_of_ok hstart
    obtain ⟨hoffset, happended⟩ := hpasses.stores.appended hstarted
    obtain ⟨last, hlast, hbytes, hmapping⟩ := hpasses.deletePlaylist_started hstarted
    refine ⟨hoffset, happended.of_facing, ⟨last, hlast⟩, fun system lib'' hdelete => ?_⟩
    have hdeleted := (Tracks.deletePlaylist_any name).calm_of_ok hdelete
    obtain rfl := (EStateM.Result.ok.inj (hlast.symm.trans hdeleted)).2
    exact ⟨hbytes, hmapping⟩
  · intro lib' hdelete
    have hdeleted := (Tracks.deletePlaylist_any name).calm_of_ok hdelete
    obtain ⟨before, p, after, hexcised⟩ := hpasses.stores.excised hdeleted
    exact ⟨before, p, after, hexcised.of_facing⟩

set_option maxRecDepth 4000 in
/-- A third playlist is started behind two, or the first of them is deleted. -/
theorem spliced_of_playlist_change_first :
    ∃ (lib' lib'' : LibraryFile) (before after : List Playlist) (p : Playlist),
      startPlaylist "c" (claimingLibrary 16) = .ok 1312 lib' ∧
      Appended "c" (claimingLibrary 16) lib' ∧
      deletePlaylist "a" (claimingLibrary 16) = .ok () lib'' ∧
      Excised "a" before p after (claimingLibrary 16) lib'' := by
  have hstarted : (startPlaylist "c").run' (claimingLibrary 16) = some 1312 := by cbv
  have hdeleted : (deletePlaylist "a").run' (claimingLibrary 16) = some () := by cbv
  obtain ⟨lib', hstart⟩ := Steps.exists_of_run' hstarted
  obtain ⟨lib'', hdelete⟩ := Steps.exists_of_run' hdeleted
  have hstarts := (spliced_of_playlist_change rfl (by decide) verify_claimingLibrary "c").1
  have hdeletes := (spliced_of_playlist_change rfl (by decide) verify_claimingLibrary "a").2
  obtain ⟨before, p, after, hexcised⟩ := hdeletes lib'' hdelete
  exact ⟨lib', lib'', before, after, p, hstart, (hstarts 1312 lib' hstart).2.1, hdelete, hexcised⟩

end LibraryFile
end MediaLibrary
