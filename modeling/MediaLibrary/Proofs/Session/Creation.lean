import MediaLibrary.Proofs.Disk.Path
import MediaLibrary.Proofs.LibraryFile.Audit
import MediaLibrary.Proofs.LibraryFile.Opening
import MediaLibrary.Session
/-! Making library files. Both texts are checked before there is a file, so that only the system can
stop it from getting its header; the file is taken away again then. What was made is read back, and
every other file stays. -/
namespace MediaLibrary

open LibraryFile

namespace LibraryHeader

theorem length_encode {h : LibraryHeader} (hname : nameField.check h.name = .ok ())
    (hmedia : mediaPrefixField.check h.mediaPrefix = .ok ()) : h.encode.length = size := by
  have hfirst := NameField.length_padded (Nat.le_of_lt ((NameField.check_eq_ok_iff _ _).1 hname).2)
  have hlast := NameField.length_padded (Nat.le_of_lt ((NameField.check_eq_ok_iff _ _).1 hmedia).2)
  rw [encode, List.length_append, List.length_append, hfirst, hlast]
  rfl

theorem write_eq {h : LibraryHeader} (hname : nameField.check h.name = .ok ())
    (hmedia : mediaPrefixField.check h.mediaPrefix = .ok ()) {file : Bytes}
    (hlong : size ≤ file.length) : h.write file = .ok (Bytes.overlay file 0 h.encode) := by
  have hnumbers : Word.size * 3 ≤ file.length := Nat.le_trans (by decide) hlong
  have hfirst : nameField.set
      (Bytes.overlay file 0 (Word.listToBytes [h.magic, h.mediaCount, h.length])) h.name = .ok _ :=
    NameField.set_overlay rfl (Nat.le_trans (by decide) hlong) hname
  have hplace : mediaPrefixField.offset
      = (Word.listToBytes [h.magic, h.mediaCount, h.length] ++ nameField.padded h.name).length := by
    rw [List.length_append,
      NameField.length_padded (Nat.le_of_lt ((NameField.check_eq_ok_iff _ _).1 hname).2)]
    rfl
  have hlast : mediaPrefixField.set _ h.mediaPrefix = .ok (Bytes.overlay file 0 h.encode) :=
    NameField.set_overlay hplace hlong hmedia
  refine (WordField.set?_three hnumbers h.magic h.mediaCount h.length _).trans ?_
  rw [hfirst]
  refine (Steps.query_ok rfl).trans ?_
  rw [hlast]
  rfl

end LibraryHeader

/-- The system refuses nothing that making a library calls for. -/
structure Answers.AllowMaking (answers : Answers) : Prop where
  opening : answers.opening = none
  lengthening : answers.lengthening = none
  mapping : answers.mapping = none
  flushing : answers.flushing = none

theorem Answers.allowMaking_empty : AllowMaking {} := ⟨rfl, rfl, rfl, rfl⟩

namespace Disk

/-- There is a place for a library at `path`, and its texts fit into their fields. -/
structure Accepts (disk : Disk) (path title mediaPrefix : String) : Prop where
  leads : ∃ place, disk.Leads path place
  free : disk.contains path = false
  title : 0 ∉ Text.bytes title ∧ (Text.bytes title).length ≤ 115
  mediaPrefix : 0 ∉ Text.bytes mediaPrefix ∧ (Text.bytes mediaPrefix).length ≤ 895

section Make

variable {disk made left : Disk} {path title mediaPrefix : String} {place : Place}
  {answers : Answers} {f : Failure LibraryError}

theorem accepts_iff : disk.Accepts path title mediaPrefix ↔
    checkTexts title mediaPrefix = .ok () ∧ ∃ place, disk.vacant path = .ok place := by
  have htexts : checkTexts title mediaPrefix = .ok () ↔
      (0 ∉ Text.bytes title ∧ (Text.bytes title).length ≤ 115) ∧
      (0 ∉ Text.bytes mediaPrefix ∧ (Text.bytes mediaPrefix).length ≤ 895) := by
    rw [checkTexts_eq_ok_iff, NameField.check_eq_ok_iff, NameField.check_eq_ok_iff]
    exact and_congr (and_congr_right fun _ => Nat.lt_succ_iff)
      (and_congr_right fun _ => Nat.lt_succ_iff)
  rw [htexts]
  constructor
  · rintro ⟨⟨place, hleads⟩, hfree, hname, hmedia⟩
    rw [hleads.contains_eq, Option.isSome_eq_false_iff, Option.isNone_iff_eq_none] at hfree
    exact ⟨⟨hname, hmedia⟩, place, vacant_eq_ok_iff.2 ⟨hleads, hfree⟩⟩
  · rintro ⟨⟨hname, hmedia⟩, place, hvacant⟩
    obtain ⟨hleads, hnone⟩ := vacant_eq_ok_iff.1 hvacant
    refine ⟨⟨place, hleads⟩, ?_, hname, hmedia⟩
    rw [hleads.contains_eq, hnone, Option.isSome_none]

theorem format_eq (h : checkTexts title mediaPrefix = .ok ()) :
    format disk.files.length title mediaPrefix answers (disk.add place (.blank 0))
      = match answers.lengthening, answers.mapping, answers.flushing with
        | some e, _, _ => .error (.refused (.io e)) (disk.add place (.blank 0))
        | none, some e, _ =>
          .error (.refused (.io e)) (disk.add place ((Image.blank 0).resize LibraryHeader.size))
        | none, none, some e =>
          .error (.refused (.io e)) (disk.add place (.ofBytes (newHeader title mediaPrefix).encode))
        | none, none, none =>
          .ok () (disk.add place (.ofBytes (newHeader title mediaPrefix).encode)) := by
  obtain ⟨hname, hmedia⟩ := checkTexts_eq_ok_iff.1 h
  have hzeros : ((Image.blank 0).resize LibraryHeader.size).toList
      = Bytes.zeros LibraryHeader.size := by
    simp [Image.toList_resize, Bytes.zeros]
  have hwrite : (newHeader title mediaPrefix).write (Bytes.zeros LibraryHeader.size)
      = .ok (newHeader title mediaPrefix).encode := by
    rw [LibraryHeader.write_eq hname hmedia (by rw [Bytes.length_zeros]), Bytes.overlay_whole]
    rw [LibraryHeader.length_encode hname hmedia, Bytes.length_zeros]
  have hresize : (disk.add place (.blank 0)).setContents disk.files.length
      (((disk.add place (.blank 0)).contents disk.files.length).resize LibraryHeader.size)
      = disk.add place ((Image.blank 0).resize LibraryHeader.size) := by
    rw [contents_add, setContents_add]
  have hread : consult
      (fun d : Disk => (newHeader title mediaPrefix).write (d.contents disk.files.length).toList)
      (disk.add place ((Image.blank 0).resize LibraryHeader.size)) = .ok _ _ :=
    Steps.consult_ok (by rw [contents_add, hzeros, hwrite])
  cases hlengthening : answers.lengthening with
  | some e => exact Steps.bind_error (Steps.consult_error (by rw [hlengthening]; rfl))
  | none =>
    rw [format, Steps.bind_ok (Steps.consult_ok (a := ()) (by rw [hlengthening]; rfl)),
      Steps.bind_modify, hresize]
    cases hmapping : answers.mapping with
    | some e => exact Steps.bind_error (Steps.consult_error rfl)
    | none =>
      rw [Steps.bind_ok (Steps.consult_ok (a := ()) (by rfl)), Steps.bind_ok hread,
        Steps.bind_modify, setContents_add]
      cases hflushing : answers.flushing with
      | some e => exact Steps.consult_error rfl
      | none => exact Steps.consult_ok rfl

theorem format_error (h : checkTexts title mediaPrefix = .ok ())
    (herror : format disk.files.length title mediaPrefix answers (disk.add place (.blank 0))
      = .error f left) : ∃ e contents, f = .refused e ∧ left = disk.add place contents := by
  rw [format_eq h] at herror
  split at herror
  · cases herror
    exact ⟨_, _, rfl, rfl⟩
  · cases herror
    exact ⟨_, _, rfl, rfl⟩
  · cases herror
    exact ⟨_, _, rfl, rfl⟩
  · cases herror

theorem makeLibrary_eq (htexts : checkTexts title mediaPrefix = .ok ())
    (hvacant : disk.vacant path = .ok place) (hopening : answers.opening = none) :
    makeLibrary path title mediaPrefix answers disk
      = match format disk.files.length title mediaPrefix answers (disk.add place (.blank 0)) with
        | .ok _ made => .ok () made
        | .error e left =>
          .error e (if answers.removing.isNone then (left.remove path).toOption.getD left
            else left) := by
  have hplace : consult (fun disk : Disk => Failure.ofCheck LibraryError.io (disk.vacant path)) disk
      = .ok place disk := Steps.consult_ok (Steps.ofCheck_eq_ok_iff.2 hvacant)
  have hgranted : consult (fun _ : Disk => granted answers.opening) disk = .ok () disk :=
    Steps.consult_ok (by rw [hopening]; rfl)
  have hchecked : consult (fun _ : Disk => checkTexts title mediaPrefix) disk = .ok () disk :=
    Steps.consult_ok htexts
  rw [makeLibrary, Steps.bind_ok hchecked, Steps.bind_ok hplace, Steps.bind_ok hgranted,
    Steps.bind_get, Steps.bind_modify]
  generalize hformat : format disk.files.length title mediaPrefix answers
    (disk.add place (.blank 0)) = result
  cases result with
  | ok _ made => exact Steps.tryCatch_ok hformat
  | error e left =>
    rw [Steps.tryCatch_error hformat]
    cases answers.removing <;> rfl

theorem makeLibrary_refused
    (h : ¬ (disk.Accepts path title mediaPrefix ∧ answers.opening = none)) :
    ∃ e, makeLibrary path title mediaPrefix answers disk = .error (.refused e) disk := by
  cases htexts : checkTexts title mediaPrefix with
  | error f =>
    obtain ⟨e, rfl⟩ := refused_of_checkTexts htexts
    exact ⟨e, Steps.bind_error (Steps.consult_error htexts)⟩
  | ok =>
    have hchecked : consult (fun _ : Disk => checkTexts title mediaPrefix) disk = .ok () disk :=
      Steps.consult_ok htexts
    rw [makeLibrary, Steps.bind_ok hchecked]
    cases hvacant : disk.vacant path with
    | error e =>
      exact ⟨.io e, Steps.bind_error (Steps.consult_error (by rw [hvacant]; rfl))⟩
    | ok place =>
      have hplace : consult (fun disk : Disk => Failure.ofCheck LibraryError.io (disk.vacant path))
          disk = .ok place disk := Steps.consult_ok (Steps.ofCheck_eq_ok_iff.2 hvacant)
      rw [Steps.bind_ok hplace]
      cases hopening : answers.opening with
      | some e => exact ⟨.io e, Steps.bind_error (Steps.consult_error rfl)⟩
      | none => exact absurd ⟨accepts_iff.2 ⟨htexts, place, hvacant⟩, hopening⟩ h

theorem makeLibrary_eq_ok_iff : makeLibrary path title mediaPrefix answers disk = .ok () made ↔
    answers.AllowMaking ∧ ∃ place contents, blank title mediaPrefix = .ok contents ∧
      disk.Leads path place ∧ disk.names.lookup place = none ∧ made = disk.add place contents := by
  constructor
  · intro h
    by_cases hstart : disk.Accepts path title mediaPrefix ∧ answers.opening = none
    · obtain ⟨haccepts, hopening⟩ := hstart
      obtain ⟨htexts, place, hvacant⟩ := accepts_iff.1 haccepts
      obtain ⟨hleads, hnone⟩ := vacant_eq_ok_iff.1 hvacant
      rw [makeLibrary_eq htexts hvacant hopening, format_eq htexts] at h
      cases hlengthening : answers.lengthening <;> cases hmapping : answers.mapping <;>
        cases hflushing : answers.flushing <;> simp only [hlengthening, hmapping, hflushing] at h <;>
        cases h
      exact ⟨⟨hopening, hlengthening, hmapping, hflushing⟩, place, _, blank_eq_ok_iff.2 ⟨htexts, rfl⟩,
        hleads, hnone, rfl⟩
    · obtain ⟨e, hrefused⟩ := makeLibrary_refused hstart
      rw [hrefused] at h
      cases h
  · rintro ⟨hallow, place, contents, hblank, hleads, hnone, rfl⟩
    obtain ⟨htexts, rfl⟩ := blank_eq_ok_iff.1 hblank
    rw [makeLibrary_eq htexts (vacant_eq_ok_iff.2 ⟨hleads, hnone⟩) hallow.opening, format_eq htexts,
      hallow.lengthening, hallow.mapping, hallow.flushing]

/-- A library is made exactly where there is a place for a file and no file yet, if its name and its
media prefix fit into their fields and the system does what it is called for. -/
theorem exists_makeLibrary_iff :
    (∃ made, makeLibrary path title mediaPrefix answers disk = .ok () made) ↔
      disk.Accepts path title mediaPrefix ∧ answers.AllowMaking := by
  constructor
  · rintro ⟨made, h⟩
    obtain ⟨hallow, place, contents, hblank, hleads, hnone, -⟩ := makeLibrary_eq_ok_iff.1 h
    obtain ⟨htexts, -⟩ := blank_eq_ok_iff.1 hblank
    exact ⟨accepts_iff.2 ⟨htexts, place, vacant_eq_ok_iff.2 ⟨hleads, hnone⟩⟩, hallow⟩
  · rintro ⟨haccepts, hallow⟩
    obtain ⟨htexts, place, hvacant⟩ := accepts_iff.1 haccepts
    obtain ⟨hleads, hnone⟩ := vacant_eq_ok_iff.1 hvacant
    exact ⟨_, makeLibrary_eq_ok_iff.2
      ⟨hallow, place, _, blank_eq_ok_iff.2 ⟨htexts, rfl⟩, hleads, hnone, rfl⟩⟩

/-- What a creation that was refused leaves of a disk. The file is only left if the system refuses to
take it away. -/
structure Undone (before : Disk) (answers : Answers) (left : Disk) : Prop where
  tree : answers.removing = none → left.toTree = before.toTree
  others : ∀ other number, before.find other = .ok number → left.find other = .ok number
  kept : ∀ number < before.files.length, left.contents number = before.contents number

theorem Undone.refl (disk : Disk) (answers : Answers) : Undone disk answers disk :=
  ⟨fun _ => rfl, fun _ _ h => h, fun _ _ => rfl⟩

/-- A file that was made is taken away, or is left if it cannot be. -/
theorem undone_of_add (hleads : disk.Leads path place) (hnone : disk.names.lookup place = none)
    (contents : Image) : Undone disk answers
      (if answers.removing.isNone then
        ((disk.add place contents).remove path).toOption.getD (disk.add place contents)
      else disk.add place contents) := by
  cases hremoving : answers.removing with
  | none =>
    rw [remove_add hleads hnone contents]
    refine ⟨fun _ => rfl, fun other number h => find_of_names h rfl rfl fun _ _ h => h, ?_⟩
    intro number hlt
    exact contents_add_of_lt place contents hlt
  | some e =>
    refine ⟨fun h => ?_, fun other number h => find_add_of_find h place contents, ?_⟩
    · rw [hremoving] at h
      cases h
    · intro number hlt
      exact contents_add_of_lt place contents hlt

theorem undone_of_makeLibrary
    (h : makeLibrary path title mediaPrefix answers disk = .error f left) :
    (∃ e, f = .refused e) ∧ Undone disk answers left ∧
      (¬ disk.Accepts path title mediaPrefix → left = disk) := by
  by_cases hstart : disk.Accepts path title mediaPrefix ∧ answers.opening = none
  · obtain ⟨haccepts, hopening⟩ := hstart
    obtain ⟨htexts, place, hvacant⟩ := accepts_iff.1 haccepts
    obtain ⟨hleads, hnone⟩ := vacant_eq_ok_iff.1 hvacant
    rw [makeLibrary_eq htexts hvacant hopening] at h
    split at h
    · cases h
    · rename_i hformat
      obtain ⟨e, contents, rfl, rfl⟩ := format_error htexts hformat
      obtain ⟨rfl, rfl⟩ := EStateM.Result.error.inj h
      exact ⟨⟨e, rfl⟩, undone_of_add hleads hnone contents, fun hnot => absurd haccepts hnot⟩
  · obtain ⟨e, hrefused⟩ := makeLibrary_refused hstart
    rw [hrefused] at h
    obtain ⟨rfl, rfl⟩ := EStateM.Result.error.inj h
    exact ⟨⟨e, rfl⟩, Undone.refl disk answers, fun _ => rfl⟩

theorem openLibrary_eq {settings : Settings} (hvalid : settings.validate = .ok ()) {file : Nat}
    (hfound : disk.find path = .ok file) {v : Volume}
    (hkeeps : Keeps settings v
      ⟨path, settings, disk.contents file, some (disk.contents file).size, .calm⟩) :
    disk.openLibrary path settings = .ok ⟨path, settings, file, some (disk.contents file).size⟩ := by
  have hcheck : Failure.ofCheck LibraryError.settings settings.validate = .ok () :=
    Steps.ofCheck_eq_ok_iff.2 hvalid
  have hnumber : Failure.ofCheck LibraryError.io (disk.find path) = .ok file :=
    Steps.ofCheck_eq_ok_iff.2 hfound
  have hgranted : granted System.calm.now.opening = .ok () := rfl
  rw [openLibrary, Steps.query_ok hcheck, Steps.query_ok hnumber, Steps.query_ok hgranted,
    Steps.query_ok hkeeps.ofContents_eq]
  rfl

theorem openLibrary_cases (disk : Disk) (path : String) (settings : Settings) (system : System) :
    disk.openLibrary path settings system = disk.openLibrary path settings ∨
      ∃ e, (system.now.opening = some e ∨ system.now.mapping = some e) ∧
        disk.openLibrary path settings system = .error (.refused (.io e)) := by
  cases hcheck : Failure.ofCheck LibraryError.settings settings.validate with
  | error f => exact Or.inl ((Steps.query_error hcheck).trans (Steps.query_error hcheck).symm)
  | ok _ =>
    cases hnumber : Failure.ofCheck LibraryError.io (disk.find path) with
    | error f =>
      rw [openLibrary, openLibrary, Steps.query_ok hcheck, Steps.query_ok hcheck]
      exact Or.inl ((Steps.query_error hnumber).trans (Steps.query_error hnumber).symm)
    | ok number =>
      have hcalm : granted System.calm.now.opening = .ok () := rfl
      rw [openLibrary, openLibrary, Steps.query_ok hcheck, Steps.query_ok hcheck,
        Steps.query_ok hnumber, Steps.query_ok hnumber, Steps.query_ok hcalm]
      cases hopening : system.now.opening with
      | some e => exact Or.inr ⟨e, Or.inl rfl, rfl⟩
      | none =>
        have hgranted : granted none = .ok () := rfl
        rw [Steps.query_ok hgranted]
        rcases ofContents_cases path settings (disk.contents number) system with
          hsame | ⟨e, hmapping, hrefused⟩
        · rw [hsame]
          exact Or.inl rfl
        · exact Or.inr ⟨e, Or.inr hmapping, Steps.query_error hrefused⟩

end Make
end Disk

/-- What a library tells that was just made. -/
structure LibraryFile.Fresh (title mediaPrefix : String) (lib : LibraryFile) : Prop where
  name : lib.name = .ok title
  mediaPrefix : lib.mediaPrefix = .ok mediaPrefix
  mediaCount : lib.mediaCount = .ok 0
  length : lib.length = .ok 1024
  playlists : lib.playlists = .ok []
  sound : lib.verify = .ok ⟨1024, 0, 0⟩

theorem LibraryFile.fresh_of_blank {title mediaPrefix : String} {contents : Image}
    (h : blank title mediaPrefix = .ok contents) (settings : Settings) (path : String) :
    Fresh title mediaPrefix ⟨path, settings, contents, some contents.size, .calm⟩ := by
  obtain ⟨htexts, -⟩ := blank_eq_ok_iff.1 h
  obtain ⟨hname, hmedia⟩ := checkTexts_eq_ok_iff.1 htexts
  have hlists := lists_of_blank h settings path
  have hkeeps := hlists.stores.keeps
  constructor
  · rw [hkeeps.name_eq]
    exact congrArg _ (nameIn_newFields hname mediaPrefix)
  · rw [hkeeps.mediaPrefix_eq]
    exact congrArg _ (mediaPrefixIn_newFields hname hmedia)
  · exact hlists.mediaCount_eq
  · exact hkeeps.length_eq
  · exact hlists.stores.playlists_eq
  · exact hlists.verify_eq

namespace Disk

/-- What has become of a disk on which a library was made: there is one more file, which is opened as
a fresh library, and every other one is where it was. -/
structure Gained (before : Disk) (path title mediaPrefix : String) (made : Disk) : Prop where
  found : made.find path = .ok before.files.length
  size : (made.contents before.files.length).size = 1024
  opened : ∀ settings, settings.validate = .ok () → ∃ m, made.openLibrary path settings = .ok m ∧
    Fresh title mediaPrefix (m.library made)
  others : ∀ other number, before.find other = .ok number → made.find other = .ok number
  kept : ∀ number < before.files.length, made.contents number = before.contents number

section Make

variable {disk made : Disk} {path title mediaPrefix : String} {answers : Answers}

theorem opened_of_makeLibrary
    (h : makeLibrary path title mediaPrefix answers disk = .ok () made) {settings : Settings}
    (hvalid : settings.validate = .ok ()) : ∃ m, made.openLibrary path settings = .ok m ∧
      m.file < made.files.length ∧ Fresh title mediaPrefix (m.library made) ∧
      Lists settings (newFields title mediaPrefix) [] (m.library made) := by
  obtain ⟨-, place, contents, hblank, hleads, hnone, rfl⟩ := makeLibrary_eq_ok_iff.1 h
  have hlists := lists_of_blank hblank settings path
  have hfresh := fresh_of_blank hblank settings path
  have hfound := find_add hleads hnone contents
  rw [← contents_add disk place contents] at hlists hfresh
  refine ⟨_, openLibrary_eq hvalid hfound hlists.stores.keeps, ?_, hfresh, hlists⟩
  rw [add, List.length_append]
  exact Nat.lt_succ_self _

theorem gained_of_makeLibrary
    (h : makeLibrary path title mediaPrefix answers disk = .ok () made) :
    Gained disk path title mediaPrefix made := by
  obtain ⟨-, place, contents, hblank, hleads, hnone, hmade⟩ := makeLibrary_eq_ok_iff.1 h
  constructor
  · rw [hmade]
    exact find_add hleads hnone contents
  · obtain ⟨htexts, rfl⟩ := blank_eq_ok_iff.1 hblank
    obtain ⟨hname, hmedia⟩ := checkTexts_eq_ok_iff.1 htexts
    rw [hmade, contents_add, Image.size_ofBytes]
    exact LibraryHeader.length_encode hname hmedia
  · intro settings hvalid
    obtain ⟨m, hopen, -, hfresh, -⟩ := opened_of_makeLibrary h hvalid
    exact ⟨m, hopen, hfresh⟩
  · intro other number hother
    rw [hmade]
    exact find_add_of_find hother place _
  · intro number hlt
    rw [hmade]
    exact contents_add_of_lt place _ hlt

end Make
end Disk

/-- A library is made whole or not at all, whatever it is called, wherever it is to be and whatever
the system refuses: it can be opened under any valid settings, and then tells what it was given; and
where it is refused every file is where it was and as it was, and there is no other. -/
theorem Disk.makes_whole (disk : Disk) (path title mediaPrefix : String) (answers : Answers) :
    ((∃ made, makeLibrary path title mediaPrefix answers disk = .ok () made) ↔
      disk.Accepts path title mediaPrefix ∧ answers.AllowMaking) ∧
    (∀ made, makeLibrary path title mediaPrefix answers disk = .ok () made →
      Gained disk path title mediaPrefix made) ∧
    ∀ f left, makeLibrary path title mediaPrefix answers disk = .error f left →
      (∃ e, f = .refused e) ∧ Undone disk answers left ∧
        (¬ disk.Accepts path title mediaPrefix → left = disk) :=
  ⟨exists_makeLibrary_iff, fun _ => gained_of_makeLibrary, fun _ _ => undone_of_makeLibrary⟩

/-- The first library on an empty disk, in a directory other than that of the session. There cannot be
a second one in its place, and it is taken away again if it is not flushed. -/
theorem Disk.makes_whole_twice : ∃ made m,
    makeLibrary "/tmp/t.lib" "music" "/m" {} .empty = .ok () made ∧
    made.openLibrary "/tmp/t.lib" .default = .ok m ∧ (m.library made).name = .ok "music" ∧
    (∃ e, makeLibrary "/tmp/t.lib" "other" "/o" {} made = .error (.refused e) made) ∧
    ∃ e left, makeLibrary "/tmp/t.lib" "music" "/m" { flushing := some .notFound } .empty
        = .error (.refused e) left ∧ left.toTree = Disk.empty.toTree := by
  have hleads : Disk.empty.Leads (Text.delimited '/' [(1, "tmp"), (1, "t.lib")] 0)
      ⟨["tmp"], "t.lib"⟩ := by
    refine leads_of_links [] ["tmp"] rfl ?_ (by decide) rfl (by decide)
      (by decide) (by decide) (by decide)
    refine List.forall_mem_cons.2 ⟨?_, List.forall_mem_singleton.2 ?_⟩
    · exact ⟨by decide, by decide, by decide, by decide, by decide⟩
    · exact ⟨by decide, by decide, by decide, by decide, by decide⟩
  have haccepts : Disk.empty.Accepts "/tmp/t.lib" "music" "/m" :=
    ⟨⟨_, hleads⟩, rfl, by decide, by decide⟩
  obtain ⟨made, hmade⟩ := (makes_whole .empty "/tmp/t.lib" "music" "/m" {}).1.2
    ⟨haccepts, Answers.allowMaking_empty⟩
  have hgained := (makes_whole .empty "/tmp/t.lib" "music" "/m" {}).2.1 made hmade
  obtain ⟨m, hopen, hfresh⟩ := hgained.opened .default rfl
  refine ⟨made, m, hmade, hopen, hfresh.name, ?_, ?_⟩
  · obtain ⟨hiff, -, hrefused⟩ := makes_whole made "/tmp/t.lib" "other" "/o" {}
    have htaken : ¬ made.Accepts "/tmp/t.lib" "other" "/o" := by
      intro haccepts
      have hfree := haccepts.free
      rw [contains, hgained.found] at hfree
      cases hfree
    cases hagain : makeLibrary "/tmp/t.lib" "other" "/o" {} made with
    | ok _ more => exact absurd (hiff.1 ⟨more, hagain⟩).1 htaken
    | error f left =>
      obtain ⟨⟨e, rfl⟩, -, hsame⟩ := hrefused f left hagain
      exact ⟨e, by rw [hsame htaken]⟩
  · obtain ⟨hiff, -, hrefused⟩ :=
      makes_whole .empty "/tmp/t.lib" "music" "/m" { flushing := some .notFound }
    cases hagain : makeLibrary "/tmp/t.lib" "music" "/m" { flushing := some .notFound } .empty with
    | ok _ more => cases (hiff.1 ⟨more, hagain⟩).2.flushing
    | error f left =>
      obtain ⟨⟨e, rfl⟩, hundone, -⟩ := hrefused f left hagain
      exact ⟨e, left, rfl, hundone.tree rfl⟩

end MediaLibrary
