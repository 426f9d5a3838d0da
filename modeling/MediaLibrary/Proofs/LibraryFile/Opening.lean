import MediaLibrary.Proofs.LibraryFile.Catalog
/-! Making and opening library files. A file that was made lists no playlists; a file in which a
library lists its playlists is opened as that library, and its name and media prefix are those of the
header. -/
namespace MediaLibrary.LibraryFile

/-- The text in the first of the header's two fields for text. -/
def nameIn (fields : Bytes) : String :=
  Text.lossy (Bytes.untilZero (Bytes.slice fields 0 LibraryHeader.nameField.width))

def mediaPrefixIn (fields : Bytes) : String :=
  Text.lossy (Bytes.untilZero (Bytes.slice fields LibraryHeader.nameField.width
    LibraryHeader.mediaPrefixField.width))

theorem Holding.congr {settings : Settings} {bytes : Bytes} {lib other : LibraryFile}
    (h : Holding settings bytes lib) (hsettings : other.settings = lib.settings)
    (hcontents : other.contents = lib.contents) (hmapped : other.mapped = lib.mapped)
    (hsystem : other.system = lib.system) : Holding settings bytes other :=
  ⟨hsettings.trans h.settings_eq, by rw [hcontents, h.contents_eq], hmapped.trans h.mapped_eq,
    hsystem.trans h.calm⟩

theorem Lists.congr {settings : Settings} {fields : Bytes} {listings : List Listing}
    {lib other : LibraryFile} (h : Lists settings fields listings lib)
    (hsettings : other.settings = lib.settings) (hcontents : other.contents = lib.contents)
    (hmapped : other.mapped = lib.mapped) (hsystem : other.system = lib.system) :
    Lists settings fields listings other :=
  ⟨⟨⟨h.stores.keeps.holding.congr hsettings hcontents hmapped hsystem, h.stores.keeps.sized⟩,
    h.stores.sized⟩, h.sound, h.distinct⟩

section Fields

variable {settings : Settings} {v : Volume} {lib : LibraryFile}

theorem headerText_eq {view : Image} {rest : Bytes} (hview : lib.view = .ok view)
    (hbytes : view.toList = v.header ++ rest) (f : NameField) {offset : Nat}
    (hat : f.offset = 12 + offset) (hfits : offset + f.width ≤ v.fields.length) :
    lib.headerText f = .ok (Text.lossy (Bytes.untilZero (Bytes.slice v.fields offset f.width))) := by
  have hread : view.read f.offset f.width = Bytes.slice v.fields offset f.width := by
    rw [Image.toList_read, hbytes, hat, v.slice_fields rest hfits]
  have hlen : (Bytes.slice v.fields offset f.width).length = f.width := by
    rw [Bytes.length_slice]
    omega
  have hslice : Bytes.slice (Bytes.slice v.fields offset f.width) 0 f.width
      = Bytes.slice v.fields offset f.width := by
    rw [Bytes.slice, List.drop_zero, List.take_of_length_le (Nat.le_of_eq hlen)]
  have hstop : (NameField.mk 0 f.width).stop ≤ (Bytes.slice v.fields offset f.width).length := by
    rw [hlen, NameField.stop, Nat.zero_add]
  rw [headerText, Steps.query_ok hview, hread, NameField.get?, if_pos hstop, hslice]
  rfl

theorem name_eq_of_header {view : Image} {rest : Bytes} (hv : v.Sized) (hview : lib.view = .ok view)
    (hbytes : view.toList = v.header ++ rest) : lib.name = .ok (nameIn v.fields) := by
  refine headerText_eq hview hbytes LibraryHeader.nameField rfl ?_
  rw [hv.fields]
  decide

theorem Keeps.name_eq (h : Keeps settings v lib) : lib.name = .ok (nameIn v.fields) := by
  obtain ⟨view, hview, hbytes⟩ := h.holding.view_eq
  exact name_eq_of_header h.sized hview hbytes

theorem Keeps.mediaPrefix_eq (h : Keeps settings v lib) :
    lib.mediaPrefix = .ok (mediaPrefixIn v.fields) := by
  obtain ⟨view, hview, hbytes⟩ := h.holding.view_eq
  refine headerText_eq hview hbytes LibraryHeader.mediaPrefixField rfl ?_
  rw [h.sized.fields]

/-- A library is read from a file before any system as before a calm one, or it is refused a
mapping. -/
theorem ofContents_cases (path : String) (settings : Settings) (contents : Image)
    (system : System) : ofContents path settings contents system = ofContents path settings contents ∨
      ∃ e, system.now.mapping = some e ∧
        ofContents path settings contents system = .error (.refused (.io e)) := by
  rw [ofContents, ofContents]
  split
  · exact Or.inl rfl
  · split
    · exact Or.inl rfl
    · cases system.now.mapping with
      | none => exact Or.inl rfl
      | some e => exact Or.inr ⟨e, rfl, rfl⟩

theorem Keeps.ofContents_eq {path : String} {contents : Image}
    (h : Keeps settings v ⟨path, settings, contents, some contents.size, .calm⟩) :
    ofContents path settings contents = .ok ⟨path, settings, contents, some contents.size, .calm⟩ := by
  have hsize : contents.size = v.length := by
    rw [← h.sized.length_encode]
    exact h.holding.size_contents
  have hsmall : ¬ contents.size < LibraryHeader.size := by
    rw [hsize, Volume.length]
    omega
  have hbig : ¬ Word.limit ≤ contents.size := by
    rw [hsize]
    exact Nat.not_le.2 h.sized.below
  rw [ofContents, if_neg hsmall, if_neg hbig]
  rw [Steps.query_ok h.magic_eq, Steps.query_ok h.length_eq, if_neg (not_not_intro rfl),
    if_neg (not_not_intro hsize.symm)]
  rfl

end Fields

/-! Making a file. -/

def newFields (name mediaPrefix : String) : Bytes :=
  LibraryHeader.nameField.padded (Text.bytes name)
    ++ LibraryHeader.mediaPrefixField.padded (Text.bytes mediaPrefix)

/-- The contents of a new library with no playlists. -/
def blank (name mediaPrefix : String) : Except LibraryError Image := do
  (LibraryHeader.nameField.check (Text.bytes name)).mapError (.invalidField "library name")
  (LibraryHeader.mediaPrefixField.check (Text.bytes mediaPrefix)).mapError
    (.invalidField "media prefix")
  return .ofBytes (newHeader name mediaPrefix).encode

theorem checkTexts_eq_ok_iff {name mediaPrefix : String} : checkTexts name mediaPrefix = .ok () ↔
    LibraryHeader.nameField.check (Text.bytes name) = .ok () ∧
      LibraryHeader.mediaPrefixField.check (Text.bytes mediaPrefix) = .ok () := by
  constructor
  · intro h
    obtain ⟨_, hname, hmedia⟩ := Steps.query_eq_ok_iff.1 h
    exact ⟨Steps.ofCheck_eq_ok_iff.1 hname, Steps.ofCheck_eq_ok_iff.1 hmedia⟩
  · rintro ⟨hname, hmedia⟩
    exact (Steps.query_ok (Steps.ofCheck_eq_ok_iff.2 hname)).trans
      (Steps.ofCheck_eq_ok_iff.2 hmedia)

theorem refused_of_checkTexts {name mediaPrefix : String} {f : Failure LibraryError}
    (h : checkTexts name mediaPrefix = .error f) : ∃ e, f = .refused e := by
  rcases Steps.query_eq_error_iff.1 h with hname | ⟨_, -, hmedia⟩
  · obtain ⟨e, -, rfl⟩ := Steps.ofCheck_eq_error_iff.1 hname
    exact ⟨_, rfl⟩
  · obtain ⟨e, -, rfl⟩ := Steps.ofCheck_eq_error_iff.1 hmedia
    exact ⟨_, rfl⟩

theorem blank_eq_ok_iff {name mediaPrefix : String} {contents : Image} :
    blank name mediaPrefix = .ok contents ↔ checkTexts name mediaPrefix = .ok () ∧
      contents = .ofBytes (newHeader name mediaPrefix).encode := by
  rw [checkTexts_eq_ok_iff]
  constructor
  · intro h
    obtain ⟨_, hname, h⟩ := Steps.query_eq_ok_iff.1 h
    obtain ⟨_, hmedia, h⟩ := Steps.query_eq_ok_iff.1 h
    exact ⟨⟨Steps.mapError_eq_ok_iff.1 hname, Steps.mapError_eq_ok_iff.1 hmedia⟩,
      (Except.ok.inj h).symm⟩
  · rintro ⟨⟨hname, hmedia⟩, rfl⟩
    rw [blank, Steps.query_ok (Steps.mapError_eq_ok_iff.2 hname),
      Steps.query_ok (Steps.mapError_eq_ok_iff.2 hmedia)]
    rfl

theorem blank_eq {name mediaPrefix : String} {contents : Image}
    (h : blank name mediaPrefix = .ok contents) :
    LibraryHeader.nameField.check (Text.bytes name) = .ok () ∧
    LibraryHeader.mediaPrefixField.check (Text.bytes mediaPrefix) = .ok () ∧
    contents.toList = Volume.encode ⟨0, newFields name mediaPrefix, []⟩ := by
  obtain ⟨htexts, rfl⟩ := blank_eq_ok_iff.1 h
  obtain ⟨hname, hmedia⟩ := checkTexts_eq_ok_iff.1 htexts
  refine ⟨hname, hmedia, ?_⟩
  rw [Image.toList_ofBytes]
  simp [Volume.encode, Volume.header, LibraryHeader.encode, newHeader, newFields, Volume.length]

theorem lists_of_blank {name mediaPrefix : String} {contents : Image}
    (h : blank name mediaPrefix = .ok contents) (settings : Settings) (path : String) :
    Lists settings (newFields name mediaPrefix) [] ⟨path, settings, contents, some contents.size, .calm⟩ := by
  obtain ⟨hname, hmedia, hbytes⟩ := blank_eq h
  have hn := ((NameField.check_eq_ok_iff _ _).1 hname).2
  have hp := ((NameField.check_eq_ok_iff _ _).1 hmedia).2
  have hsized : Volume.Sized ⟨0, newFields name mediaPrefix, []⟩ := by
    refine ⟨?_, show 0 < Word.limit by decide, show LibraryHeader.size + 0 < Word.limit by decide⟩
    simp only [newFields, List.length_append]
    rw [NameField.length_padded (Nat.le_of_lt hn), NameField.length_padded (Nat.le_of_lt hp)]
  have hholding : Holding settings (Volume.encode ⟨0, newFields name mediaPrefix, []⟩)
      ⟨path, settings, contents, some contents.size, .calm⟩ := by
    refine ⟨rfl, hbytes, ?_, rfl⟩
    rw [← hbytes, Image.length_toList]
  exact ⟨⟨⟨hholding, hsized⟩, by simp [shelfOf]⟩, by simp, List.nodup_nil⟩

theorem nameIn_newFields {name : String}
    (h : LibraryHeader.nameField.check (Text.bytes name) = .ok ()) (mediaPrefix : String) :
    nameIn (newFields name mediaPrefix) = name := by
  have hlen := NameField.length_padded (Nat.le_of_lt ((NameField.check_eq_ok_iff _ _).1 h).2)
  have hslice := Bytes.slice_length (LibraryHeader.nameField.padded (Text.bytes name))
    (LibraryHeader.mediaPrefixField.padded (Text.bytes mediaPrefix))
  rw [hlen] at hslice
  rw [nameIn, newFields, hslice, NameField.untilZero_padded h, Text.lossy_bytes]

theorem mediaPrefixIn_newFields {name mediaPrefix : String}
    (hname : LibraryHeader.nameField.check (Text.bytes name) = .ok ())
    (hmedia : LibraryHeader.mediaPrefixField.check (Text.bytes mediaPrefix) = .ok ()) :
    mediaPrefixIn (newFields name mediaPrefix) = mediaPrefix := by
  have hfirst := NameField.length_padded (Nat.le_of_lt ((NameField.check_eq_ok_iff _ _).1 hname).2)
  have hlast := NameField.length_padded (Nat.le_of_lt ((NameField.check_eq_ok_iff _ _).1 hmedia).2)
  have hslice := Bytes.slice_middle (LibraryHeader.nameField.padded (Text.bytes name))
    (LibraryHeader.mediaPrefixField.padded (Text.bytes mediaPrefix)) []
  rw [hfirst, hlast, List.append_nil] at hslice
  rw [mediaPrefixIn, newFields, hslice, NameField.untilZero_padded hmedia, Text.lossy_bytes]

end MediaLibrary.LibraryFile
