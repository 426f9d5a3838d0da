import MediaLibrary.Proofs.LibraryFile.Upkeep
import MediaLibrary.Proofs.StringTable.Removal
/-! What is left when a change of a library is refused, whatever its records are. Each change looks
first at all that could refuse it: after the file was resized, or bytes in it were moved, no step is
left that can fail. So a change that is refused has changed nothing. The one exception is an addition
that runs out of space: the growth steps that were taken before stay. -/
namespace MediaLibrary

namespace PlaylistHeader

def write (h : PlaylistHeader) (record : Bytes) : Except (Failure FieldError) Bytes := do
  let record ← Failure.inBounds (magicField.set? record h.magic)
  let record ← Failure.inBounds (lengthField.set? record h.length)
  let record ← Failure.inBounds (countField.set? record h.count)
  nameField.set record h.name

theorem write_eq {h : PlaylistHeader} (hname : nameField.check h.name = .ok ()) {record : Bytes}
    (hlong : size ≤ record.length) : h.write record = .ok (Bytes.overlay record 0 h.encode) := by
  have hnumbers : Word.size * 3 ≤ record.length := Nat.le_trans (by decide) hlong
  have hlabel : nameField.set (Bytes.overlay record 0 (Word.listToBytes [h.magic, h.length, h.count]))
      h.name = .ok (Bytes.overlay record 0 h.encode) := NameField.set_overlay rfl hlong hname
  exact (WordField.set?_three hnumbers h.magic h.length h.count (nameField.set · h.name)).trans hlabel

end PlaylistHeader

namespace LibraryFile

open StringTable (growTimes checkNew)

/-- If the operation is refused, the library is what it was: its file, byte for byte, and its
mapping. -/
def AllOrNothing {α : Type} (op : Update α) (lib : LibraryFile) : Prop :=
  ∀ e lib', op lib = .error (.refused e) lib' → lib' = lib

namespace AllOrNothing

variable {α : Type} {op : Update α} {lib lib' : LibraryFile}

theorem of_ok {a : α} (h : op lib = .ok a lib') : AllOrNothing op lib := by
  intro e between hop
  rw [h] at hop
  cases hop

theorem of_error {e : Failure LibraryError} (h : op lib = .error e lib) : AllOrNothing op lib := by
  intro e' between hop
  rw [h] at hop
  cases hop
  rfl

theorem of_yields {op : Update Unit} {possible : Prop} {image : Bytes}
    (h : Yields op lib possible image) : AllOrNothing op lib := by
  by_cases hpossible : possible
  · obtain ⟨lib', hdone, -⟩ := h.done hpossible
    exact of_ok hdone
  · obtain ⟨e, hrefused⟩ := h.refused hpossible
    exact of_error hrefused

theorem changeView (change : Image → Query Image) (lib : LibraryFile) :
    AllOrNothing (changeView change) lib := by
  cases hresult : lib.view >>= change with
  | ok view =>
    apply of_ok
    rw [LibraryFile.changeView, hresult]
  | error e =>
    apply of_error
    rw [LibraryFile.changeView, hresult]

end AllOrNothing

/-! Playlists of any file. -/

section Playlists

variable {settings : Settings} {v : Volume} {lib : LibraryFile} {name : String}

theorem Keeps.deletePlaylist_ok (h : Keeps settings v lib) {p : Playlist}
    (hnamed : lib.named name = .ok p) : ∃ lib', deletePlaylist name lib = .ok () lib' := by
  obtain ⟨before, r, after, hencloses, -, hoffset, hp⟩ :=
    h.exists_encloses (playlistAt_of_named hnamed)
  rw [hoffset] at hp
  rw [hp] at hnamed
  obtain ⟨lib', hdelete, -⟩ := hencloses.deletePlaylist_ok hnamed
  exact ⟨lib', hdelete⟩

theorem Keeps.deletePlaylist_allOrNothing (h : Keeps settings v lib) (name : String) :
    AllOrNothing (deletePlaylist name) lib := by
  cases hnamed : lib.named name with
  | error e => exact .of_error (Steps.bind_error (Steps.consult_error hnamed))
  | ok p =>
    obtain ⟨lib', hdelete⟩ := h.deletePlaylist_ok hnamed
    exact .of_ok hdelete

theorem Keeps.startPlaylist_allOrNothing (h : Keeps settings v lib) (hu : settings.Usable)
    (name : String) : AllOrNothing (startPlaylist name) lib := by
  cases hcheck : lib.checkNewName name with
  | error e => exact .of_error (Steps.bind_error (Steps.consult_error hcheck))
  | ok =>
    rcases Nat.lt_or_ge (v.length + (PlaylistHeader.size + settings.growthQuantum)) Word.limit with
      hsmall | hbig
    · obtain ⟨lib', hstart, -⟩ := h.startPlaylist_ok hu hcheck hsmall
      exact .of_ok hstart
    · exact .of_error (h.startPlaylist_refused hu hcheck hbig)

end Playlists

/-! The paths of a playlist of any file. -/

section Paths

variable {settings : Settings} {v : Volume} {before after : Bytes} {r : Record}
  {lib lib' : LibraryFile} {path : String} {handle : Nat}

theorem Encloses.exists_of_tableOf (h : Encloses settings v before r after lib) {t : StringTable}
    (ht : lib.tableOf (LibraryHeader.size + before.length) = .ok t) :
    t.parts.Sized ∧ ∃ rest, r.table = t.parts.encode ++ rest := by
  obtain ⟨view, hview, -⟩ := h.view_eq
  rw [h.tableOf_eq hview] at ht
  obtain ⟨hsized, rest, hrest⟩ := StringTable.encode_of_decode (Steps.ofCheck_eq_ok_iff.1 ht)
  rw [h.tableImage_eq hview] at hrest
  exact ⟨hsized, rest, hrest⟩

theorem Encloses.removePathAt_allOrNothing (h : Encloses settings v before r after lib)
    (path : String) : AllOrNothing (removePathAt (LibraryHeader.size + before.length) path) lib := by
  have hp := h.playlistAt_eq
  cases ht : lib.tableOf (LibraryHeader.size + before.length) with
  | error e => exact .of_error (removePathAt_of_damage hp ht)
  | ok t =>
    cases hremove : t.remove (Text.bytes path) with
    | error f => exact .of_error (removePathAt_of_failure hp ht hremove)
    | ok left =>
      cases left with
      | none => exact .of_ok (removePathAt_of_absent hp ht hremove)
      | some rest =>
        obtain ⟨hsized, more, htable⟩ := h.exists_of_tableOf ht
        have hlength : rest.parts.length ≤ r.table.length := by
          rw [StringTable.length_of_remove hsized hremove, htable, List.length_append,
            StringTable.Parts.length_encode]
          exact Nat.le_add_right _ _
        obtain ⟨_, lib', -, hdone, -⟩ := h.removePathAt_of_remove ht hremove hlength
        exact .of_ok hdone

theorem Keeps.removePathAt_allOrNothing (h : Keeps settings v lib) (handle : Nat) (path : String) :
    AllOrNothing (removePathAt handle path) lib := by
  cases hp : lib.playlistAt handle with
  | error e => exact .of_error (Steps.bind_error (Steps.consult_error hp))
  | ok p =>
    obtain ⟨before, r, after, hencloses, -, rfl, -⟩ := h.exists_encloses hp
    exact hencloses.removePathAt_allOrNothing path

/-- There was no space for it: the library, or the table, would have become too large. -/
def OutOfSpace (e : Failure LibraryError) : Prop :=
  e = .refused .tooLarge ∨ ∃ error, e = .refused (.io error)

/-- An addition that fails has changed nothing, or has taken some growth steps and found no space for
the next. -/
theorem Encloses.addPathAt_error (h : Encloses settings v before r after lib)
    {e : Failure LibraryError}
    (hadd : addPathAt (LibraryHeader.size + before.length) path lib = .error e lib') :
    lib' = lib ∨ OutOfSpace e ∧ ∃ n, growTimes (host (LibraryHeader.size + before.length))
      (LibraryHeader.size + before.length + PlaylistHeader.size) settings.growthQuantum n lib
      = .ok () lib' := by
  have htail : Tail settings v before r lib (r.table ++ after) := ⟨_, _, rfl, h⟩
  cases hcheck : checkNew (host (LibraryHeader.size + before.length))
      (LibraryHeader.size + before.length + PlaylistHeader.size) (Text.bytes path)
      settings.growthQuantum lib with
  | error f =>
    have hstored := h.addPathAt_of_refused (Steps.bind_error (Steps.consult_error hcheck))
    obtain ⟨-, rfl⟩ := EStateM.Result.error.inj (hadd.symm.trans hstored)
    exact Or.inl rfl
  | ok free =>
    obtain ⟨-, t, ht, -⟩ := StringTable.exists_table_of_checkNew hcheck
    obtain ⟨hsized, rest, hbytes⟩ := htail.exists_parts ht
    rw [hbytes] at htail
    have hcarries := (tail_carries settings v before r).leading rest
    cases hstored : StringTable.add (host (LibraryHeader.size + before.length))
        (LibraryHeader.size + before.length + PlaylistHeader.size) (Text.bytes path)
        settings.growthQuantum lib with
    | error f broken =>
      obtain ⟨rfl, rfl⟩ :=
        EStateM.Result.error.inj (hadd.symm.trans (h.addPathAt_of_refused hstored))
      obtain ⟨n, hsteps, hrefuses⟩ := hcarries.add_error hsized htail hcheck hstored
      refine Or.inr ⟨?_, n, hsteps⟩
      rcases host_refuses (fun hshows => ⟨rest, hshows⟩) hrefuses with rfl | rfl
      · exact Or.inl rfl
      · exact Or.inr ⟨_, rfl⟩
    | ok _ stored =>
      obtain ⟨-, q, -, -, table, after', -, h'⟩ := hcarries.add_ok hsized htail hstored
      obtain ⟨_, lib₁, -, hdone, -⟩ := h.addPathAt_of_stored hstored h'
      rw [hadd] at hdone
      cases hdone

theorem Keeps.addPathAt_error (h : Keeps settings v lib) {e : Failure LibraryError}
    (hadd : addPathAt handle path lib = .error e lib') :
    lib' = lib ∨ OutOfSpace e ∧ ∃ p n, lib.playlistAt handle = .ok p ∧
      growTimes (host handle) p.tableOffset settings.growthQuantum n lib = .ok () lib' := by
  cases hp : lib.playlistAt handle with
  | error f =>
    have hrefused : addPathAt handle path lib = .error f lib :=
      Steps.bind_error (Steps.consult_error hp)
    exact Or.inl (EStateM.Result.error.inj (hadd.symm.trans hrefused)).2
  | ok p =>
    obtain ⟨before, r, after, hencloses, -, rfl, rfl⟩ := h.exists_encloses hp
    rcases hencloses.addPathAt_error hadd with hsame | ⟨hspace, n, hsteps⟩
    · exact Or.inl hsame
    · exact Or.inr ⟨hspace, _, n, rfl, hsteps⟩

theorem Tail.grow {bytes : Bytes} (h : Tail settings v before r lib bytes) {quantum : Nat}
    (hgrow : StringTable.grow (host (LibraryHeader.size + before.length))
      (LibraryHeader.size + before.length + PlaylistHeader.size) quantum lib = .ok () lib') :
    ∃ bytes', Tail settings v before r lib' bytes' := by
  obtain ⟨t, _, hread, -⟩ := Steps.bind_eq_ok_iff.1 hgrow
  obtain ⟨ht, rfl⟩ := Steps.consult_eq_ok_iff.1 hread
  obtain ⟨hsized, rest, rfl⟩ := h.exists_parts ht
  have hcarries := (tail_carries settings v before r).leading rest
  rcases hcarries.grow_cases hsized h quantum with ⟨_, hdone, htail, -⟩ | ⟨_, hfailed, -⟩
  · obtain rfl := (EStateM.Result.ok.inj (hgrow.symm.trans hdone)).2
    exact ⟨_, htail⟩
  · rw [hgrow] at hfailed
    cases hfailed

theorem Tail.growTimes {bytes : Bytes} (h : Tail settings v before r lib bytes)
    {quantum n : Nat} (hgrow : growTimes (host (LibraryHeader.size + before.length))
      (LibraryHeader.size + before.length + PlaylistHeader.size) quantum n lib = .ok () lib') :
    ∃ bytes', Tail settings v before r lib' bytes' := by
  induction n generalizing lib bytes with
  | zero =>
    obtain rfl := (EStateM.Result.ok.inj hgrow).2
    exact ⟨bytes, h⟩
  | succ n ih =>
    obtain ⟨_, between, hfirst, hrest⟩ := Steps.bind_eq_ok_iff.1 hgrow
    obtain ⟨bytes', h'⟩ := h.grow hfirst
    exact ih h' hrest

theorem Keeps.insertSpace_host (h : Keeps settings v lib) {p : Playlist}
    (hp : lib.playlistAt handle = .ok p) {quantum n : Nat} {grown : LibraryFile}
    (hgrow : growTimes (host handle) p.tableOffset quantum n lib = .ok () grown)
    {offset count : Nat} (hoffset : p.tableOffset ≤ offset) {opened : LibraryFile}
    (hopened : insertSpace offset count grown = .ok () opened) :
    ∃ lib', (host handle).insertSpace offset count grown = .ok () lib' := by
  obtain ⟨before, r, after, hencloses, -, rfl, rfl⟩ := h.exists_encloses hp
  have htail : Tail settings v before r lib (r.table ++ after) := ⟨_, _, rfl, hencloses⟩
  obtain ⟨_, table, after', -, hgrown⟩ := htail.growTimes hgrow
  obtain ⟨-, hinside, hsmall⟩ :=
    (hgrown.keeps.measured.insertSpace_yields offset count).possible_of_ok hopened
  obtain ⟨place, rfl⟩ := Nat.exists_eq_add_of_le hoffset
  have hlength := hgrown.keeps.sized.length_encode.trans hgrown.length_eq
  have hplace : place ≤ (table ++ after').length := by
    simp only [Record.playlist, Playlist.tableOffset, Record.length] at hinside hlength
    rw [List.length_append]
    omega
  rcases hgrown.insertSpace_tail hplace count with ⟨lib', _, _, hdone, -⟩ | ⟨hbig, -⟩
  · exact ⟨lib', hdone⟩
  · have hbelow := hgrown.keeps.sized.below
    rw [hgrown.keeps.sized.length_encode] at hsmall
    omega

end Paths

/-- A change that is refused leaves the library as it was; an addition that finds no space leaves it
with the growth steps taken so far. -/
structure Refusals (lib : LibraryFile) : Prop where
  start : ∀ name, AllOrNothing (startPlaylist name) lib
  delete : ∀ name, AllOrNothing (deletePlaylist name) lib
  add : ∀ handle path e lib', addPathAt handle path lib = .error e lib' →
    lib' = lib ∨ OutOfSpace e ∧ ∃ p n, lib.playlistAt handle = .ok p ∧
      growTimes (host handle) p.tableOffset lib.settings.growthQuantum n lib = .ok () lib'
  remove : ∀ handle path, AllOrNothing (removePathAt handle path) lib
  expand : ∀ size, AllOrNothing (expand size) lib
  truncate : ∀ size, AllOrNothing (truncate size) lib
  excise : ∀ start stop, AllOrNothing (excise start stop) lib
  insertSpace : ∀ offset count, AllOrNothing (insertSpace offset count) lib
  shift : ∀ start stop target, AllOrNothing (shift start stop target) lib

/-- No step fails once the library, whose length is given, was resized: what passes the checks in front
of that is done. -/
structure Unfailing (lib : LibraryFile) (length : Nat) : Prop where
  start : ∀ name wide, lib.checkNewName name = .ok () →
    expand (length + (PlaylistHeader.size + lib.settings.growthQuantum)) lib = .ok () wide →
    ∃ offset lib', startPlaylist name lib = .ok offset lib'
  header : ∀ name recordLength record, lib.checkNewName name = .ok () →
    PlaylistHeader.size ≤ record.length →
    let h : PlaylistHeader := ⟨PlaylistHeader.magicNumber, recordLength, 0, Text.bytes name⟩
    h.write record = .ok (Bytes.overlay record 0 h.encode)
  delete : ∀ name p, lib.named name = .ok p → ∃ lib', deletePlaylist name lib = .ok () lib'
  excise : ∀ start stop, LibraryHeader.size ≤ start → start ≤ stop → stop ≤ length →
    ∃ lib', excise start stop lib = .ok () lib'
  insertSpace : ∀ offset count wide, LibraryHeader.size ≤ offset → offset ≤ length →
    expand (length + count) lib = .ok () wide → ∃ lib', insertSpace offset count lib = .ok () lib'
  host : ∀ handle p quantum n grown offset count opened, lib.playlistAt handle = .ok p →
    growTimes (host handle) p.tableOffset quantum n lib = .ok () grown → p.tableOffset ≤ offset →
    LibraryFile.insertSpace offset count grown = .ok () opened →
    ∃ lib', (LibraryFile.host handle).insertSpace offset count grown = .ok () lib'

section Library

variable {settings : Settings} {v : Volume} {lib : LibraryFile}

theorem Keeps.refusals (h : Keeps settings v lib) (hu : settings.Usable) : Refusals lib where
  start := h.startPlaylist_allOrNothing hu
  delete := h.deletePlaylist_allOrNothing
  add handle path e lib' hadd := by
    rw [h.holding.settings_eq]
    exact h.addPathAt_error hadd
  remove := h.removePathAt_allOrNothing
  expand size := .of_yields (h.measured.expand_yields size)
  truncate size := .of_yields (h.measured.truncate_yields size)
  excise start stop := .of_yields (h.measured.excise_yields start stop)
  insertSpace offset count := .of_yields (h.measured.insertSpace_yields offset count)
  shift start stop target := .changeView _ lib

theorem Keeps.unfailing (h : Keeps settings v lib) (hu : settings.Usable) :
    Unfailing lib v.length where
  start name wide hcheck hwide := by
    obtain ⟨-, hsmall⟩ := (h.measured.expand_yields _).possible_of_ok hwide
    rw [h.holding.settings_eq] at hsmall
    obtain ⟨lib', hstart, -⟩ := h.startPlaylist_ok hu hcheck hsmall
    exact ⟨_, lib', hstart⟩
  header name recordLength record hcheck hlong :=
    PlaylistHeader.write_eq (check_of_checkNewName hcheck) hlong
  delete name p hnamed := h.deletePlaylist_ok hnamed
  excise start stop hheader hle hstop := by
    rw [← h.sized.length_encode] at hstop
    obtain ⟨lib', hdone, -⟩ := (h.measured.excise_yields start stop).done ⟨hheader, hle, hstop⟩
    exact ⟨lib', hdone⟩
  insertSpace offset count wide hheader hoffset hwide := by
    obtain ⟨-, hsmall⟩ := (h.measured.expand_yields _).possible_of_ok hwide
    rw [← h.sized.length_encode] at hoffset hsmall
    obtain ⟨lib', hdone, -⟩ :=
      (h.measured.insertSpace_yields offset count).done ⟨hheader, hoffset, Or.inr hsmall⟩
    exact ⟨lib', hdone⟩
  host handle p quantum n grown offset count opened hp hgrow hoffset hopened :=
    h.insertSpace_host hp hgrow hoffset hopened

/-- In any file that is opened, whatever its records are and whatever was done before, a change that is
refused has changed nothing, whatever it was given, unless it is an addition that found no space; and
no step fails after a resize. -/
theorem refusals_of_runAll {file : String} {contents : Image} {opened : LibraryFile}
    (hvalid : settings.validate = .ok ()) (hquantum : settings.growthQuantum + 128 < 2 ^ 64)
    (hopen : ofContents file settings contents = .ok opened) (earlier : List Operation) :
    let lib := Operation.runAll opened earlier
    Refusals lib ∧ ∃ length, lib.length = .ok length ∧ Unfailing lib length := by
  intro lib
  have hu := Settings.usable_of_validate hvalid hquantum
  obtain ⟨-, v, hopened⟩ := keeps_of_ofContents hopen
  have hheaded : Headed settings v.fields opened := ⟨v, hopened, rfl⟩
  obtain ⟨w, hkeeps, -⟩ := hheaded.runAll earlier
  exact ⟨hkeeps.refusals hu, w.length, hkeeps.length_eq, hkeeps.unfailing hu⟩

set_option maxRecDepth 4000 in
/-- After an addition has written a path over the record behind it, the playlist there can no longer
be deleted, and the attempt leaves the library as it is. -/
theorem refusals_of_runAll_overwritten :
    ofContents "m" .default (claimingLibrary 160).contents = .ok (claimingLibrary 160) ∧
    let lib := Operation.runAll (claimingLibrary 160) [.change (.add 1024 "x")]
    lib.named "b" = refuse (.corrupt (.badPlaylistMagic 0x78004953 1168)) ∧
    ∃ e, deletePlaylist "b" lib = .error (.refused e) lib := by
  have hopen : ofContents "m" .default (claimingLibrary 160).contents
      = .ok (claimingLibrary 160) := by cbv
  have hnamed : (Operation.runAll (claimingLibrary 160) [.change (.add 1024 "x")]).named "b"
      = refuse (.corrupt (.badPlaylistMagic 0x78004953 1168)) := by cbv
  obtain ⟨hrefusals, -⟩ := refusals_of_runAll rfl (by decide) hopen [.change (.add 1024 "x")]
  obtain ⟨e, lib', hdelete⟩ : ∃ e lib', deletePlaylist "b"
      (Operation.runAll (claimingLibrary 160) [.change (.add 1024 "x")])
      = .error (.refused e) lib' :=
    ⟨_, _, Steps.bind_error (Steps.consult_error hnamed)⟩
  obtain rfl := hrefusals.delete "b" e lib' hdelete
  exact ⟨hopen, hnamed, e, hdelete⟩

end Library

end LibraryFile
end MediaLibrary
