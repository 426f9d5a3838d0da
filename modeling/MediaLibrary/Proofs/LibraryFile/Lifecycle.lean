import MediaLibrary.Proofs.LibraryFile.Catalog
/-! Starting and deleting playlists in terms of what is listed. A new playlist is listed last, with
no paths; deleting one takes its listing out. What is refused changes nothing. -/
namespace MediaLibrary

theorem Text.bytes_eq_nil {text : String} : Text.bytes text = [] ↔ text = "" := by
  rw [← Text.bytes_empty, Text.bytes_inj]

/-- What a library asks of its settings: a growth step holds an empty table, no address is past the
last one, and there can be a global playlist. -/
structure Settings.Usable (settings : Settings) : Prop where
  quantum : StringTable.headerSize ≤ settings.growthQuantum
  addressable : PlaylistHeader.size + settings.growthQuantum < addressLimit
  named : settings.globalPlaylist ≠ ""
  valid : PlaylistHeader.nameField.check (Text.bytes settings.globalPlaylist) = .ok ()

namespace LibraryFile

def newName (names : List String) (name : String) : Except LibraryError Unit :=
  if name ∈ names then .error (.playlistExists name)
  else if name = "" then .error (.invalidArgument .emptyPlaylistName)
  else if 0 ∈ Text.bytes name then .error (.invalidField "playlist name" .interiorNul)
  else if 115 < (Text.bytes name).length then
    .error (.invalidField "playlist name" (.tooLong (Text.bytes name).length 116))
  else .ok ()

theorem newName_of_mem {names : List String} {name : String} (h : name ∈ names) :
    newName names name = .error (.playlistExists name) := if_pos h

theorem newName_of_not_mem {names : List String} {name : String} (h : name ∉ names) :
    newName names name = newName [] name := by
  rw [newName, newName, if_neg h, if_neg List.not_mem_nil]

theorem newName_of_new {names : List String} {name : String} (hnew : name ∉ names)
    (hname : name ≠ "") : newName names name
      = (PlaylistHeader.nameField.check (Text.bytes name)).mapError
        (.invalidField "playlist name") := by
  rw [newName, if_neg hnew, if_neg hname, NameField.check]
  split
  · rfl
  · by_cases hlong : 115 < (Text.bytes name).length
    · rw [if_pos hlong, if_pos (show PlaylistHeader.nameField.width < _ from by
        show 116 < _
        omega)]
      rfl
    · rw [if_neg hlong, if_neg (show ¬ PlaylistHeader.nameField.width < _ from by
        show ¬ 116 < _
        omega)]
      rfl

theorem newName_eq_ok_iff {names : List String} {name : String} : newName names name = .ok () ↔
    name ∉ names ∧ name ≠ "" ∧ PlaylistHeader.nameField.check (Text.bytes name) = .ok () := by
  by_cases hnew : name ∈ names
  · rw [newName_of_mem hnew]
    exact ⟨fun h => (nomatch h), fun h => absurd hnew h.1⟩
  by_cases hname : name = ""
  · rw [newName, if_neg hnew, if_pos hname]
    exact ⟨fun h => (nomatch h), fun h => absurd hname h.2.1⟩
  · rw [newName_of_new hnew hname, Steps.mapError_eq_ok_iff]
    exact ⟨fun h => ⟨hnew, hname, h⟩, fun h => h.2.2⟩

end LibraryFile

namespace Settings

theorem validate_eq_ok_iff {settings : Settings} : settings.validate = .ok () ↔
    StringTable.headerSize ≤ settings.growthQuantum ∧
      LibraryFile.newName [] settings.globalPlaylist = .ok () := by
  rw [LibraryFile.newName_eq_ok_iff, NameField.check_eq_ok_iff, validate, ne_eq, ← Text.bytes_eq_nil]
  by_cases hquantum : settings.growthQuantum < minQuantum
  · rw [if_pos hquantum]
    exact ⟨fun h => (nomatch h), fun h => absurd hquantum (Nat.not_lt.2 h.1)⟩
  by_cases hempty : Text.bytes settings.globalPlaylist = []
  · rw [if_neg hquantum, if_pos hempty]
    exact ⟨fun h => (nomatch h), fun h => absurd hempty h.2.2.1⟩
  by_cases hlong : maxGlobalName < (Text.bytes settings.globalPlaylist).length
  · rw [if_neg hquantum, if_neg hempty, if_pos hlong]
    exact ⟨fun h => (nomatch h), fun h => absurd (Nat.le_of_lt_succ h.2.2.2.2) (Nat.not_le.2 hlong)⟩
  by_cases hnul : 0 ∈ Text.bytes settings.globalPlaylist
  · rw [if_neg hquantum, if_neg hempty, if_neg hlong, if_pos hnul]
    exact ⟨fun h => (nomatch h), fun h => absurd hnul h.2.2.2.1⟩
  · rw [if_neg hquantum, if_neg hempty, if_neg hlong, if_neg hnul]
    exact ⟨fun _ => ⟨Nat.le_of_not_lt hquantum, List.not_mem_nil, hempty, hnul,
      Nat.lt_succ_of_le (Nat.le_of_not_lt hlong)⟩, fun _ => rfl⟩

theorem quantum_of_validate {settings : Settings} (h : settings.validate = .ok ()) :
    StringTable.headerSize ≤ settings.growthQuantum := (validate_eq_ok_iff.1 h).1

theorem usable_of_validate {settings : Settings} (h : settings.validate = .ok ())
    (ha : settings.growthQuantum + 128 < 2 ^ 64) : settings.Usable := by
  obtain ⟨hquantum, hname⟩ := validate_eq_ok_iff.1 h
  obtain ⟨-, hnamed, hvalid⟩ := LibraryFile.newName_eq_ok_iff.1 hname
  refine ⟨hquantum, ?_, hnamed, hvalid⟩
  rw [Nat.add_comm]
  exact ha

end Settings

namespace LibraryFile

open StringTable (Packable packed)

/-- The record of a new playlist: its table is a header and zero bytes. -/
def newRecord (name : Bytes) (quantum : Nat) : Record where
  label := PlaylistHeader.nameField.padded name
  count := 0
  table := (StringTable.Header.mk StringTable.magic quantum quantum 0).encode
    ++ Bytes.zeros (quantum - StringTable.headerSize)

theorem Encloses.deletePlaylist_ok {settings : Settings} {v : Volume} {before after : Bytes}
    {r : Record} {lib : LibraryFile} {name : String} (h : Encloses settings v before r after lib)
    (hnamed : lib.named name = .ok (r.playlist (LibraryHeader.size + before.length))) :
    ∃ lib', deletePlaylist name lib = .ok () lib' ∧
      Keeps settings
        { v with
          mediaCount := if name = settings.globalPlaylist then 0 else v.mediaCount
          body := before ++ after } lib' := by
  have hconsult : consult (named · name) lib = .ok _ lib := Steps.consult_ok hnamed
  obtain ⟨lib₁, hexcise, h₁⟩ := h.keeps.excise_ok before.length (before.length + r.encode.length)
    (Nat.le_add_right _ _) (by
      rw [List.length_append, List.length_append]
      omega)
  rw [List.take_left, List.drop_length_add_append, List.drop_left] at h₁
  have hexcised : excise (r.playlist (LibraryHeader.size + before.length)).offset
      ((r.playlist (LibraryHeader.size + before.length)).offset
        + (r.playlist (LibraryHeader.size + before.length)).length) lib = .ok () lib₁ := by
    rw [h.sized.length_encode, ← Nat.add_assoc] at hexcise
    exact hexcise
  rw [deletePlaylist, Steps.bind_ok hconsult]
  by_cases hglobal : name = settings.globalPlaylist
  · obtain ⟨lib₂, hput, h₂⟩ := h₁.putMediaCount_ok (show 0 < Word.limit by decide)
    rw [if_pos hglobal]
    refine ⟨lib₂, (Steps.bind_ok hexcised).trans ?_, h₂⟩
    rw [Steps.bind_get, h₁.holding.settings_eq, if_pos hglobal]
    exact hput
  · rw [if_neg hglobal]
    refine ⟨lib₁, (Steps.bind_ok hexcised).trans ?_, h₁⟩
    rw [Steps.bind_get, h₁.holding.settings_eq, if_neg hglobal]
    rfl

theorem Stores.deletePlaylist_ok {settings : Settings} {shelf : Shelf} {lib : LibraryFile}
    {before after : List Record} {r : Record} {name : String} (h : Stores settings shelf lib)
    (hsplit : shelf.records = before ++ r :: after) (hname : r.name = Text.bytes name)
    (hnamed : lib.named name = .ok (r.playlist (offsetAfter before))) :
    ∃ lib', deletePlaylist name lib = .ok () lib' ∧
      Stores settings
        { shelf with
          mediaCount :=
            if r.name = Text.bytes settings.globalPlaylist then 0 else shelf.mediaCount
          records := before ++ after } lib' := by
  obtain ⟨lib', hdelete, hlib'⟩ := (h.encloses hsplit).deletePlaylist_ok hnamed
  have hsized := h.sized
  rw [hsplit] at hsized
  refine ⟨lib', hdelete, ?_, forall_remove hsized⟩
  simp only [hname, Text.bytes_inj]
  rwa [← bodyOf_append] at hlib'

section Append

variable {settings : Settings} {shelf : Shelf} {lib : LibraryFile} {name : Bytes} {quantum : Nat}

theorem length_newRecord (hquantum : StringTable.headerSize ≤ quantum) :
    (newRecord name quantum).length = PlaylistHeader.size + quantum := by
  simp only [Record.length, newRecord, List.length_append, StringTable.Header.length_encode,
    Bytes.length_zeros]
  omega

theorem newRecord_sized (hname : name.length ≤ PlaylistHeader.nameField.width) :
    (newRecord name quantum).Sized where
  label := NameField.length_padded hname
  counted := show 0 < Word.limit by decide
  table := by
    simp only [newRecord, List.length_append, StringTable.Header.length_encode]
    exact Nat.le_add_right _ _

theorem overlay_newRecord (body : Bytes) (hname : name.length ≤ PlaylistHeader.nameField.width)
    (hquantum : StringTable.headerSize ≤ quantum) :
    Bytes.overlay (Bytes.overlay (body ++ Bytes.zeros (PlaylistHeader.size + quantum)) body.length
        (newRecord name quantum).header) (body.length + PlaylistHeader.size)
        (StringTable.Header.mk StringTable.magic quantum quantum 0).encode
      = body ++ (newRecord name quantum).encode := by
  have hhead : (newRecord name quantum).header.length = PlaylistHeader.size :=
    (newRecord_sized hname).length_header
  have hzeros : Bytes.zeros (PlaylistHeader.size + quantum)
      = Bytes.zeros PlaylistHeader.size ++ (Bytes.zeros StringTable.headerSize
        ++ Bytes.zeros (quantum - StringTable.headerSize)) := by
    rw [← Bytes.zeros_add, ← Bytes.zeros_add]
    congr 1
    omega
  have hfirst := Bytes.overlay_middle body (Bytes.zeros PlaylistHeader.size)
    (Bytes.zeros StringTable.headerSize ++ Bytes.zeros (quantum - StringTable.headerSize))
    (newRecord name quantum).header (by rw [hhead, Bytes.length_zeros])
  have hsecond := Bytes.overlay_middle (body ++ (newRecord name quantum).header)
    (Bytes.zeros StringTable.headerSize) (Bytes.zeros (quantum - StringTable.headerSize))
    (StringTable.Header.mk StringTable.magic quantum quantum 0).encode
    (by rw [StringTable.Header.length_encode, Bytes.length_zeros])
  rw [List.append_assoc] at hfirst
  rw [List.length_append, hhead] at hsecond
  rw [hzeros, hfirst, ← List.append_assoc, hsecond, Record.encode, newRecord]
  simp only [List.append_assoc]

theorem Keeps.putHeaders_ok {v : Volume} {body : Bytes}
    (h : Keeps settings { v with body := body ++ Bytes.zeros (PlaylistHeader.size + quantum) } lib)
    (hname : name.length ≤ PlaylistHeader.nameField.width)
    (hquantum : StringTable.headerSize ≤ quantum) :
    ∃ lib₁ lib₂,
      put (LibraryHeader.size + body.length) (.ofBytes (newRecord name quantum).header) lib
        = .ok () lib₁ ∧
      put (LibraryHeader.size + (body.length + PlaylistHeader.size))
        (.ofBytes (StringTable.Header.mk StringTable.magic quantum quantum 0).encode) lib₁
        = .ok () lib₂ ∧
      Keeps settings { v with body := body ++ (newRecord name quantum).encode } lib₂ := by
  have hhead : (newRecord name quantum).header.length = PlaylistHeader.size :=
    (newRecord_sized hname).length_header
  have hfirst : body.length + (newRecord name quantum).header.length
      ≤ (body ++ Bytes.zeros (PlaylistHeader.size + quantum)).length := by
    rw [hhead, List.length_append, Bytes.length_zeros]
    omega
  obtain ⟨lib₁, hput₁, h₁⟩ := h.put_ok body.length (.ofBytes (newRecord name quantum).header)
    (by rwa [Image.size_ofBytes])
  rw [Image.toList_ofBytes] at h₁
  obtain ⟨lib₂, hput₂, h₂⟩ := h₁.put_ok (body.length + PlaylistHeader.size)
    (.ofBytes (StringTable.Header.mk StringTable.magic quantum quantum 0).encode) (by
      rw [Image.size_ofBytes, StringTable.Header.length_encode, Bytes.length_overlay hfirst,
        List.length_append, Bytes.length_zeros]
      omega)
  rw [Image.toList_ofBytes, overlay_newRecord _ hname hquantum] at h₂
  exact ⟨lib₁, lib₂, hput₁, hput₂, h₂⟩

theorem Keeps.appendRecord_ok {v : Volume} (h : Keeps settings v lib)
    (hname : name.length ≤ PlaylistHeader.nameField.width)
    (hquantum : StringTable.headerSize ≤ quantum)
    (hfits : v.length + (PlaylistHeader.size + quantum) < Word.limit) :
    ∃ lib', appendRecord name quantum lib = .ok v.length lib' ∧
      Keeps settings { v with body := v.body ++ (newRecord name quantum).encode } lib' := by
  have hpositive : 0 < PlaylistHeader.size + quantum := by
    unfold PlaylistHeader.size
    omega
  have haddress : ¬ addressLimit ≤ PlaylistHeader.size + quantum ∧
      ¬ addressLimit ≤ v.length + (PlaylistHeader.size + quantum) := by
    simp only [Word.limit, addressLimit] at hfits ⊢
    omega
  have hheader : PlaylistHeader.encode ⟨PlaylistHeader.magicNumber,
      PlaylistHeader.size + quantum, 0, name⟩ = (newRecord name quantum).header := by
    rw [Record.header, length_newRecord hquantum]
    rfl
  have hformat : StringTable.format quantum quantum
      = .ok (StringTable.Header.mk StringTable.magic quantum quantum 0) := by
    have hbelow : ¬ Word.limit ≤ quantum := by omega
    rw [StringTable.format, if_neg (Nat.not_lt.2 hquantum), if_neg (Nat.lt_irrefl _),
      if_neg hbelow]
  obtain ⟨lib₁, hexpand, h₁⟩ := h.expand_ok hpositive hfits
  obtain ⟨lib₂, lib₃, hput₁, hput₂, h₃⟩ := h₁.putHeaders_ok hname hquantum
  have htable : consult (fun _ => Failure.ofCheck LibraryError.ofTable
      (StringTable.format quantum quantum)) lib₂ = .ok _ lib₂ :=
    Steps.consult_ok (by rw [hformat]; rfl)
  rw [← Nat.add_assoc] at hput₂
  refine ⟨lib₃, ?_, h₃⟩
  rw [appendRecord, Steps.bind_ok (Steps.consult_ok h.length_eq), if_neg haddress.1,
    if_neg haddress.2, Steps.bind_ok hexpand, hheader]
  refine (Steps.bind_ok hput₁).trans ?_
  rw [Steps.bind_ok htable]
  exact Steps.bind_ok hput₂

theorem Keeps.appendRecord_refused {v : Volume} (h : Keeps settings v lib)
    (haddress : PlaylistHeader.size + quantum < addressLimit)
    (hbig : Word.limit ≤ v.length + (PlaylistHeader.size + quantum)) :
    appendRecord name quantum lib = .error (.refused .tooLarge) lib := by
  rw [appendRecord, Steps.bind_ok (Steps.consult_ok h.length_eq), if_neg (Nat.not_le.2 haddress)]
  split
  · rfl
  · exact Steps.bind_error (h.expand_refused hbig)

theorem Stores.of_appended (hsized : ∀ r ∈ shelf.records, r.Sized)
    (hname : name.length ≤ PlaylistHeader.nameField.width)
    (h : Keeps settings
      { shelf.volume with body := shelf.volume.body ++ (newRecord name quantum).encode } lib) :
    Stores settings { shelf with records := shelf.records ++ [newRecord name quantum] } lib := by
  refine Stores.of_body h ?_ ?_
  · rw [bodyOf_append, bodyOf_cons, bodyOf_nil, List.append_nil]
    rfl
  · exact List.forall_mem_append.2 ⟨hsized, List.forall_mem_singleton.2 (newRecord_sized hname)⟩

theorem checkNewName_of_find {name : String} {found : Option Playlist}
    (h : lib.find name = .ok found) : lib.checkNewName name
      = Failure.ofCheck id (if found.isSome then .error (.playlistExists name)
        else newName [] name) := by
  rw [checkNewName, Steps.query_ok h]
  split
  · rfl
  by_cases hname : name = ""
  · rw [newName, if_neg List.not_mem_nil, if_pos hname, if_pos (Text.bytes_eq_nil.2 hname)]
    rfl
  · rw [newName_of_new List.not_mem_nil hname, if_neg (mt Text.bytes_eq_nil.1 hname)]
    cases PlaylistHeader.nameField.check (Text.bytes name) <;> rfl

theorem check_of_checkNewName {name : String} (h : lib.checkNewName name = .ok ()) :
    PlaylistHeader.nameField.check (Text.bytes name) = .ok () := by
  obtain ⟨found, -, h⟩ := Steps.query_eq_ok_iff.1 h
  split at h
  · cases h
  split at h
  · cases h
  exact Steps.ofCheck_eq_ok_iff.1 h

theorem Keeps.startPlaylist_ok {v : Volume} (h : Keeps settings v lib) (hu : settings.Usable)
    {name : String} (hcheck : lib.checkNewName name = .ok ())
    (hfits : v.length + (PlaylistHeader.size + settings.growthQuantum) < Word.limit) :
    ∃ lib', startPlaylist name lib = .ok v.length lib' ∧
      Keeps settings
        { v with body := v.body ++ (newRecord (Text.bytes name) settings.growthQuantum).encode }
        lib' := by
  have hname := Nat.le_of_lt ((NameField.check_eq_ok_iff _ _).1 (check_of_checkNewName hcheck)).2
  have hconsult : consult (checkNewName · name) lib = .ok () lib := Steps.consult_ok hcheck
  obtain ⟨lib', happend, hlib'⟩ := h.appendRecord_ok hname hu.quantum hfits
  refine ⟨lib', ?_, hlib'⟩
  rw [startPlaylist, Steps.bind_ok hconsult, Steps.bind_get, h.holding.settings_eq]
  refine (Steps.bind_ok happend).trans ?_
  split
  · exact Steps.bind_ok hlib'.holding.flush_ok
  · rfl

theorem Keeps.startPlaylist_refused {v : Volume} (h : Keeps settings v lib)
    (hu : settings.Usable) {name : String} (hcheck : lib.checkNewName name = .ok ())
    (hbig : Word.limit ≤ v.length + (PlaylistHeader.size + settings.growthQuantum)) :
    startPlaylist name lib = .error (.refused .tooLarge) lib := by
  have hconsult : consult (checkNewName · name) lib = .ok () lib := Steps.consult_ok hcheck
  rw [startPlaylist, Steps.bind_ok hconsult, Steps.bind_get, h.holding.settings_eq]
  exact Steps.bind_error (h.appendRecord_refused hu.addressable hbig)

/-! What has to be so for a playlist to be started. -/

theorem Stores.appendRecord_possible (h : Stores settings shelf lib) {offset : Nat}
    {lib' : LibraryFile} (happend : appendRecord name quantum lib = .ok offset lib') :
    StringTable.headerSize ≤ quantum ∧
      shelf.volume.length + (PlaylistHeader.size + quantum) < Word.limit := by
  rw [appendRecord, Steps.bind_ok (Steps.consult_ok h.keeps.length_eq)] at happend
  split at happend
  · cases happend
  split at happend
  · cases happend
  obtain ⟨_, lib₁, hexpand, happend⟩ := Steps.bind_eq_ok_iff.1 happend
  obtain ⟨_, lib₂, -, happend⟩ := Steps.bind_eq_ok_iff.1 happend
  obtain ⟨table, lib₃, htable, -⟩ := Steps.bind_eq_ok_iff.1 happend
  refine ⟨?_, ((h.keeps.measured.expand_yields _).possible_of_ok hexpand).2⟩
  obtain ⟨htable, -⟩ := Steps.consult_eq_ok_iff.1 htable
  rw [Steps.ofCheck_eq_ok_iff, StringTable.format] at htable
  split at htable
  · cases htable
  · exact Nat.le_of_not_lt ‹_›

theorem Stores.of_checkNewName (h : Stores settings shelf lib) {name : String}
    (hcheck : lib.checkNewName name = .ok ()) :
    Text.bytes name ∉ shelf.records.map Record.name ∧
      PlaylistHeader.nameField.check (Text.bytes name) = .ok () := by
  refine ⟨?_, check_of_checkNewName hcheck⟩
  obtain ⟨found, hfind, hcheck⟩ := Steps.query_eq_ok_iff.1 hcheck
  split at hcheck
  · cases hcheck
  · rename_i hnone
    intro hmem
    rw [← map_name_playlistsFrom LibraryHeader.size] at hmem
    obtain ⟨p, hp, hname⟩ := List.mem_map.1 hmem
    rw [h.find_eq] at hfind
    obtain rfl := Except.ok.inj hfind
    rw [Bool.not_eq_true, Option.isSome_eq_false_iff, Option.isNone_iff_eq_none,
      List.find?_eq_none] at hnone
    exact hnone p hp (decide_eq_true hname)

theorem Stores.startPlaylist_of_ok (h : Stores settings shelf lib) {name : String} {offset : Nat}
    {lib' : LibraryFile} (hstart : startPlaylist name lib = .ok offset lib') :
    offset = offsetAfter shelf.records ∧ StringTable.headerSize ≤ settings.growthQuantum ∧
      settings.growthQuantum < Word.limit ∧
      Text.bytes name ∉ shelf.records.map Record.name ∧
      PlaylistHeader.nameField.check (Text.bytes name) = .ok () ∧
      Stores settings
        { shelf with
          records := shelf.records ++ [newRecord (Text.bytes name) settings.growthQuantum] }
        lib' := by
  obtain ⟨_, between, hchecked, hrest⟩ := Steps.bind_eq_ok_iff.1 hstart
  obtain ⟨hcheck, rfl⟩ := Steps.consult_eq_ok_iff.1 hchecked
  obtain ⟨hnew, hvalid⟩ := h.of_checkNewName hcheck
  rw [Steps.bind_get, h.keeps.holding.settings_eq] at hrest
  obtain ⟨_, lib₁, happend, hsynced⟩ := Steps.bind_eq_ok_iff.1 hrest
  obtain ⟨hquantum, hfits⟩ := h.appendRecord_possible happend
  have hname := Nat.le_of_lt ((NameField.check_eq_ok_iff _ _).1 hvalid).2
  obtain ⟨lib₂, happended, h₂⟩ := h.keeps.appendRecord_ok hname hquantum hfits
  obtain ⟨rfl, rfl⟩ := EStateM.Result.ok.inj (happend.symm.trans happended)
  have hlast : shelf.volume.length = offset ∧ lib₁ = lib' := by
    split at hsynced
    · obtain ⟨_, lib₃, hsync, hdone⟩ := Steps.bind_eq_ok_iff.1 hsynced
      obtain ⟨-, rfl⟩ := EStateM.Result.ok.inj (hsync.symm.trans h₂.holding.flush_ok)
      exact EStateM.Result.ok.inj hdone
    · exact EStateM.Result.ok.inj hsynced
  obtain ⟨rfl, rfl⟩ := hlast
  exact ⟨rfl, hquantum, by omega, hnew, hvalid, Stores.of_appended h.sized hname h₂⟩

end Append

namespace Lists

variable {settings : Settings} {fields : Bytes} {listings before after : List Listing}
  {l : Listing} {lib : LibraryFile}

theorem of_stores {shelf : Shelf} (h : Stores settings shelf lib)
    (hcount : shelf.mediaCount = globalCount settings.globalPlaylist listings)
    (hfields : shelf.fields = fields) (hrecords : shelf.records = listings.map Listing.record)
    (hsound : ∀ l ∈ listings, l.Sound) (hdistinct : (listings.map Listing.name).Nodup) :
    Lists settings fields listings lib := by
  have hshelf : shelf = shelfOf settings.globalPlaylist fields listings := by
    rw [shelfOf, ← hcount, ← hfields, ← hrecords]
  exact ⟨hshelf ▸ h, hsound, hdistinct⟩

theorem checkNewName_eq (h : Lists settings fields listings lib) (name : String) :
    lib.checkNewName name = Failure.ofCheck id (newName (listings.map Listing.name) name) := by
  by_cases hm : name ∈ listings.map Listing.name
  · obtain ⟨before, l, after, rfl, rfl⟩ := exists_split hm
    rw [checkNewName_of_find h.find_present, newName_of_mem hm]
    rfl
  · rw [checkNewName_of_find (h.find_absent hm), newName_of_not_mem hm]
    rfl

theorem globalCount_concat (globalPlaylist : String) (listings : List Listing) (name : String)
    (length : Nat) : globalCount globalPlaylist (listings ++ [⟨name, length, []⟩])
      = globalCount globalPlaylist listings := by
  rw [globalCount, globalCount, List.find?_append]
  cases listings.find? (·.name = globalPlaylist) with
  | some l => rfl
  | none => by_cases heq : name = globalPlaylist <;> simp [heq]

theorem concat {lib' : LibraryFile} (h : Lists settings fields listings lib)
    (hu : settings.Usable) (hsize : settings.growthQuantum < Word.limit) {name : String}
    (hname : newName (listings.map Listing.name) name = .ok ())
    (hstores : Stores settings
      { shelfOf settings.globalPlaylist fields listings with
        records := listings.map Listing.record
          ++ [newRecord (Text.bytes name) settings.growthQuantum] } lib') :
    Lists settings fields (listings ++ [⟨name, settings.growthQuantum, []⟩]) lib' := by
  obtain ⟨hnew, hnamed, hvalid⟩ := newName_eq_ok_iff.1 hname
  refine of_stores hstores (globalCount_concat _ _ _ _).symm rfl ?_ ?_ ?_
  · have hrecord : newRecord (Text.bytes name) settings.growthQuantum
        = Listing.record ⟨name, settings.growthQuantum, []⟩ := by
      rw [newRecord, Listing.record, List.map_nil, StringTable.encode_packed_nil hu.quantum]
      rfl
    rw [List.map_append, hrecord]
    rfl
  · refine List.forall_mem_append.2 ⟨h.sound, List.forall_mem_singleton.2 ?_⟩
    exact ⟨hnamed, hvalid, StringTable.packable_nil hu.quantum hsize⟩
  · rw [List.map_append, List.nodup_append]
    refine ⟨h.distinct, by simp, ?_⟩
    rintro a ha b hb rfl
    rw [List.mem_singleton.1 hb] at ha
    exact hnew ha

/-- A playlist that may be started is listed last, or the library would become too large. -/
theorem startPlaylist_cases (h : Lists settings fields listings lib) (hu : settings.Usable)
    {name : String} (hname : newName (listings.map Listing.name) name = .ok ()) :
    (∃ lib', startPlaylist name lib = .ok (placeAfter listings) lib' ∧
      Lists settings fields (listings ++ [⟨name, settings.growthQuantum, []⟩]) lib') ∨
    Word.limit ≤ placeAfter listings + (PlaylistHeader.size + settings.growthQuantum) ∧
      startPlaylist name lib = .error (.refused .tooLarge) lib := by
  obtain ⟨-, -, hvalid⟩ := newName_eq_ok_iff.1 hname
  have hfits := Nat.le_of_lt ((NameField.check_eq_ok_iff _ _).1 hvalid).2
  have hcheck : lib.checkNewName name = .ok () := by
    rw [h.checkNewName_eq, hname]
    rfl
  rcases Nat.lt_or_ge (placeAfter listings + (PlaylistHeader.size + settings.growthQuantum))
    Word.limit with hsmall | hbig
  · obtain ⟨lib', hstart, hlib'⟩ := h.stores.keeps.startPlaylist_ok hu hcheck hsmall
    have hstores := Stores.of_appended h.stores.sized hfits hlib'
    exact Or.inl ⟨lib', hstart, h.concat hu (by omega) hname hstores⟩
  · exact Or.inr ⟨hbig, h.stores.keeps.startPlaylist_refused hu hcheck hbig⟩

theorem startPlaylist_refused (h : Lists settings fields listings lib) {name : String}
    {e : LibraryError} (hname : newName (listings.map Listing.name) name = .error e) :
    startPlaylist name lib = .error (.refused e) lib := by
  refine Steps.bind_error (Steps.consult_error ?_)
  rw [h.checkNewName_eq, hname]
  rfl

theorem deletePlaylist_ok (h : Lists settings fields (before ++ l :: after) lib) :
    ∃ lib', deletePlaylist l.name lib = .ok () lib' ∧
      Lists settings fields (before ++ after) lib' := by
  have hsplit := records_split settings fields before after l
  obtain ⟨lib', hdelete, hlib'⟩ :=
    h.stores.deletePlaylist_ok hsplit h.soundAt.record_name h.named_present
  have hsound : ∀ x ∈ before ++ after, x.Sound := forall_remove h.sound
  have hdistinct : ((before ++ after).map Listing.name).Nodup := by
    refine h.distinct.sublist (List.Sublist.map _ ?_)
    exact List.Sublist.append_left (List.sublist_cons_self _ _) _
  refine ⟨lib', hdelete, of_stores hlib' ?_ rfl (by simp) hsound hdistinct⟩
  show (if l.record.name = Text.bytes settings.globalPlaylist then 0 else _) = _
  rw [h.soundAt.record_name]
  by_cases hglobal : l.name = settings.globalPlaylist
  · have habsent : settings.globalPlaylist ∉ (before ++ after).map Listing.name := by
      rw [← hglobal, List.map_append]
      exact (List.nodup_middle.1 (by simpa using h.distinct)).notMem
    rw [if_pos (congrArg Text.bytes hglobal), globalCount_of_absent habsent]
  · rw [if_neg (mt Text.bytes_inj.1 hglobal)]
    show globalCount settings.globalPlaylist (before ++ l :: after) = _
    rw [globalCount_split h.distinct, if_neg hglobal]

end Lists
end LibraryFile
end MediaLibrary
