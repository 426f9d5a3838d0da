import MediaLibrary.LibraryFile.Audit
import MediaLibrary.Proofs.LibraryFile.Adding
import MediaLibrary.Proofs.LibraryFile.Confinement
import MediaLibrary.Proofs.LibraryFile.Unmapped
/-! What a system leaves of a library that lists its playlists. An addition or a start that the system
stops leaves listings in the file, up to the length that the header tells; they are those that were
there before the call that was refused. If the mapping is gone as well, the file may be longer than
that, and then it is not opened again. A deletion whose mapping is refused leaves no such listings. -/
namespace MediaLibrary.LibraryFile

def lengthIn (contents : Image) : Nat :=
  Word.ofBytes (contents.read LibraryHeader.lengthField.offset Word.size)

/-- The part of the file that the header tells of, mapped whole. -/
def recorded (lib : LibraryFile) : LibraryFile :=
  whole { lib with contents := lib.contents.take (lengthIn lib.contents) }

/-- No library is opened from such a file. -/
def Unfit (contents : Image) : Prop :=
  ∀ path settings lib, ofContents path settings contents ≠ .ok lib

section Files

variable {settings : Settings} {fields : Bytes} {listings : List Listing} {lib other : LibraryFile}
  {v : Volume} {contents : Image} {rest : Bytes}

theorem lengthIn_eq (h : v.Sized) (hcontents : contents.toList = v.header ++ rest) :
    lengthIn contents = v.length := by
  have hsplit : v.header ++ rest = Word.toBytes LibraryHeader.magicNumber
      ++ Word.toBytes v.mediaCount ++ Word.toBytes v.length ++ (v.fields ++ rest) := by
    simp [Volume.header, Word.listToBytes]
  rw [lengthIn, Image.toList_read, hcontents, hsplit]
  exact Word.ofBytes_slice h.below _ _

theorem unfit_of_header (h : v.Sized) (hcontents : contents.toList = v.header ++ rest)
    (hne : contents.size ≠ v.length) : Unfit contents := by
  intro path settings lib hopen
  obtain ⟨rfl, w, hw⟩ := keeps_of_ofContents hopen
  have hsize := hw.holding.size_contents
  rw [hw.sized.length_encode, ← lengthIn_eq hw.sized hw.holding.contents_eq,
    lengthIn_eq h hcontents] at hsize
  exact hne hsize

theorem Lists.of_bytes (h : Lists settings fields listings lib)
    (hsettings : other.settings = lib.settings)
    (hbytes : other.contents.toList = lib.contents.toList) :
    Lists settings fields listings other.whole := by
  have hholding := h.stores.keeps.holding
  have hcontents := hbytes.trans hholding.contents_eq
  have hwhole : Holding settings (shelfOf settings.globalPlaylist fields listings).volume.encode
      other.whole := by
    refine ⟨hsettings.trans hholding.settings_eq, hcontents, ?_, rfl⟩
    rw [whole, ← hcontents, Image.length_toList]
  exact ⟨⟨⟨hwhole, h.stores.keeps.sized⟩, h.stores.sized⟩, h.sound, h.distinct⟩

/-- Bytes behind the listings are not taken for any of them. -/
theorem Lists.recorded (h : Lists settings fields listings lib)
    (hsettings : other.settings = lib.settings)
    (hcontents : other.contents.toList = lib.contents.toList ++ rest) :
    Lists settings fields listings other.recorded := by
  have hkeeps := h.stores.keeps
  have hbytes := hkeeps.holding.contents_eq
  have hlength : lengthIn other.contents = lib.contents.toList.length := by
    rw [hbytes, hkeeps.sized.length_encode]
    rw [hbytes, Volume.encode, List.append_assoc] at hcontents
    exact lengthIn_eq hkeeps.sized hcontents
  refine h.of_bytes hsettings ?_
  rw [Image.toList_take, hcontents, hlength]
  exact List.take_left

end Files

/-- What can be left of a library that lists its playlists. It lists playlists still; or there is no
mapping, as the system has refused one, and its file lists playlists or is not opened again. -/
def Survives (pending : List Answers) (settings : Settings) (fields : Bytes)
    (left : LibraryFile) : Prop :=
  (∃ listings, Lists settings fields listings (left.facing .calm)) ∨
    left.mapped = none ∧ (∃ answers ∈ pending, answers.mapping.isSome) ∧
      ((∃ listings, Lists settings fields listings left.whole) ∨ Unfit left.contents)

/-- What an operation leaves that the system has stopped, if `P` is true of the inventory at that
point. -/
def Lapsed (pending : List Answers) (settings : Settings) (fields : Bytes) (P : Inventory → Prop)
    (left : LibraryFile) : Prop :=
  ∃ listings mid, Lists settings fields listings mid ∧ P (inventoryOf listings) ∧
    (Unlengthened pending mid left ∨ ∃ later : System, left = mid.facing later)

section Left

variable {pending : List Answers} {settings : Settings} {fields : Bytes} {listings : List Listing}
  {lib left : LibraryFile} {P : Inventory → Prop}

theorem Survives.mono {more : List Answers} (h : Survives pending settings fields left)
    (hmore : pending ⊆ more) : Survives more settings fields left :=
  h.imp_right fun ⟨hnone, ⟨answers, hanswers, hmapping⟩, hfile⟩ =>
    ⟨hnone, ⟨answers, hmore hanswers, hmapping⟩, hfile⟩

theorem Lists.calm (h : Lists settings fields listings lib) : lib.system = .calm :=
  h.stores.keeps.holding.calm

theorem Lists.facing (h : Lists settings fields listings lib) (later : System) :
    Lists settings fields listings ((lib.facing later).facing .calm) := by
  have hsame : (lib.facing later).facing .calm = lib := facing_calm h.calm
  rwa [hsame]

theorem Lists.survives (h : Lists settings fields listings lib) (later : System) :
    Survives pending settings fields (lib.facing later) := Or.inl ⟨listings, h.facing later⟩

theorem Lists.mapped_eq (h : Lists settings fields listings lib) :
    lib.mapped = some lib.contents.size := by
  rw [h.stores.keeps.holding.mapped_eq, h.stores.keeps.holding.size_contents]

/-- A library that could not be lengthened lists what it listed. -/
theorem Lists.unlengthened (h : Lists settings fields listings lib)
    (hleft : Unlengthened pending lib left) :
    Lists settings fields listings left.recorded ∧
      (Lists settings fields listings (left.facing .calm) ∨
        left.mapped = none ∧ (∃ answers ∈ pending, answers.mapping.isSome) ∧
          (Lists settings fields listings left.whole ∨ Unfit left.contents)) := by
  obtain ⟨length, size, hlength, hmore, -, hhalted⟩ := hleft
  have hkeeps := h.stores.keeps
  obtain rfl := Except.ok.inj (hlength.symm.trans hkeeps.length_eq)
  cases hhalted with
  | @kept later _ _ =>
    have hsame : ({ lib with mapped := some lib.contents.size } : LibraryFile) = lib := by
      rw [← h.mapped_eq]
    rw [hsame]
    exact ⟨h.recorded rfl (List.append_nil _).symm, Or.inl (h.facing later)⟩
  | stranded _ _ hunmapped =>
    exact ⟨h.recorded rfl (List.append_nil _).symm, Or.inr ⟨rfl, hunmapped, Or.inl (h.of_bytes rfl rfl)⟩⟩
  | resized _ hunmapped =>
    have hsize : lib.contents.size
        = (shelfOf settings.globalPlaylist fields listings).volume.length := by
      rw [hkeeps.holding.size_contents, hkeeps.sized.length_encode]
    have hresized : (lib.contents.resize size).toList
        = lib.contents.toList ++ Bytes.zeros (size - lib.contents.size) := by
      rw [Image.toList_resize, List.take_of_length_le]
      rw [Image.length_toList, hsize]
      exact Nat.le_of_lt hmore
    refine ⟨h.recorded rfl hresized, Or.inr ⟨rfl, hunmapped, Or.inr ?_⟩⟩
    rw [hkeeps.holding.contents_eq, Volume.encode, List.append_assoc] at hresized
    have hlong := (Image.size_resize lib.contents size).trans_ne (Nat.ne_of_gt hmore)
    exact unfit_of_header hkeeps.sized hresized hlong

theorem Lapsed.survives (h : Lapsed pending settings fields P left) :
    Survives pending settings fields left := by
  obtain ⟨listings, mid, hmid, -, hleft | ⟨later, rfl⟩⟩ := h
  · obtain ⟨-, hsurvives⟩ := hmid.unlengthened hleft
    refine hsurvives.imp (fun hlists => ⟨listings, hlists⟩) ?_
    exact fun ⟨hnone, hunmapped, hfile⟩ => ⟨hnone, hunmapped, hfile.imp_left fun hlists =>
      ⟨listings, hlists⟩⟩
  · exact hmid.survives later

theorem Lapsed.recorded (h : Lapsed pending settings fields P left) :
    ∃ listings, P (inventoryOf listings) ∧ Lists settings fields listings left.recorded ∧
      (Lists settings fields listings (left.facing .calm) ∨
        left.mapped = none ∧ ∃ answers ∈ pending, answers.mapping.isSome) := by
  obtain ⟨listings, mid, hmid, hP, hleft | ⟨later, rfl⟩⟩ := h
  · obtain ⟨hrecorded, hseen⟩ := hmid.unlengthened hleft
    exact ⟨listings, hP, hrecorded, hseen.imp_right fun ⟨hnone, hunmapped, _⟩ => ⟨hnone, hunmapped⟩⟩
  · exact ⟨listings, hP, hmid.recorded rfl (List.append_nil _).symm, Or.inl (hmid.facing later)⟩

end Left

/-! Where additions, starts and deletions can be stopped. -/

section Operations

variable {pending : List Answers} {settings : Settings} {fields : Bytes}
  {listings before after : List Listing} {l : Listing} {lib : LibraryFile} {P : Inventory → Prop}
  {path : String}

theorem Lists.growTimes_ok (h : Lists settings fields (before ++ l :: after) lib) {quantum j : Nat}
    {mid : LibraryFile} (hgrow : StringTable.growTimes (host (placeAfter before))
      (placeAfter before + PlaylistHeader.size) quantum j lib = .ok () mid) :
    Lists settings fields (before ++ { l with length := l.length + j * quantum } :: after) mid := by
  have hpack := h.soundAt.packable
  rcases (encloses_carries _ _ _ _ _).growTimes_cases quantum j hpack.sized h.shows_table with
    ⟨_, hgrown, hshows, hsized⟩ | ⟨_, _, _, _, hfail, -⟩
  · obtain rfl := (EStateM.Result.ok.inj (hgrow.symm.trans hgrown)).2
    rw [hpack.packed_widen] at hshows hsized
    have hlength := hsized.below
    rw [← hpack.packed_widen, StringTable.Parts.length_widen, hpack.length_packed] at hlength
    exact h.relength (hpack.widen hlength) hshows
  · have hclash := hgrow.symm.trans hfail
    cases hclash

theorem Lists.addPathAt_lapsed (h : Lists settings fields (before ++ l :: after) lib)
    (hP : P (inventoryOf (before ++ l :: after))) :
    Tracks pending .io (Lapsed pending settings fields P)
      (addPathAt (placeAfter before) path) lib := by
  refine Tracks.addPathAt fun p j mid left hp hgrow hleft => ?_
  obtain rfl := Except.ok.inj (hp.symm.trans h.playlistAt_eq)
  refine ⟨_, mid, h.growTimes_ok hgrow, ?_, Or.inl hleft⟩
  rwa [inventoryOf_split] at hP ⊢

theorem Lists.startPlaylist_lapsed (h : Lists settings fields listings lib) (hu : settings.Usable)
    {name : String} (hP : P (inventoryOf listings))
    (hstarted : P (inventoryOf (listings ++ [⟨name, settings.growthQuantum, []⟩]))) :
    Tracks pending .io (Lapsed pending settings fields P) (startPlaylist name) lib := by
  refine Tracks.startPlaylist (fun left hleft => ⟨listings, lib, h, hP, Or.inl hleft⟩) ?_
  intro offset mid later hmid _
  cases hname : newName (listings.map Listing.name) name with
  | error e =>
    rw [h.startPlaylist_refused hname] at hmid
    cases hmid
  | ok =>
    rcases h.startPlaylist_cases hu hname with ⟨_, hstart, hlists⟩ | ⟨-, hstart⟩
    · obtain ⟨rfl, rfl⟩ := EStateM.Result.ok.inj (hmid.symm.trans hstart)
      exact ⟨_, _, hlists, hstarted, Or.inr ⟨later, rfl⟩⟩
    · rw [hstart] at hmid
      cases hmid

theorem Lists.addToGlobal_lapsed (h : Lists settings fields listings lib) (hu : settings.Usable)
    (hP : P (inventoryOf listings))
    (hstarted : P ((inventoryOf listings).withPlaylist settings.globalPlaylist)) :
    Tracks pending .io (Lapsed pending settings fields P) (addToGlobal path) lib := by
  have hsettings := h.stores.keeps.holding.settings_eq
  by_cases hm : settings.globalPlaylist ∈ listings.map Listing.name
  · obtain ⟨before, l, after, rfl, hname⟩ := exists_split hm
    have hfind := h.find_present
    rw [hname] at hfind
    refine Tracks.addToGlobal ?_ ?_ ?_
    · rw [hsettings]
      refine Tracks.startPlaylist (fun left hleft => ⟨_, lib, h, hP, Or.inl hleft⟩) ?_
      intro offset mid _ hmid
      rw [h.startPlaylist_refused (newName_of_mem hm)] at hmid
      cases hmid
    · intro p hp
      rw [hsettings] at hp
      obtain rfl := Option.some.inj (Except.ok.inj (hp.symm.trans hfind))
      exact h.addPathAt_lapsed hP
    · intro offset mid hmid
      rw [hsettings, h.startPlaylist_refused (newName_of_mem hm)] at hmid
      cases hmid
  · have hwith : inventoryOf (listings ++ [⟨settings.globalPlaylist, settings.growthQuantum, []⟩])
        = (inventoryOf listings).withPlaylist settings.globalPlaylist := by
      rw [← inventoryOf_withGlobal, withGlobal, if_neg hm]
    rw [← hwith] at hstarted
    have hnew : newName (listings.map Listing.name) settings.globalPlaylist = .ok () := by
      rw [newName_of_new hm hu.named, hu.valid]
      rfl
    refine Tracks.addToGlobal ?_ ?_ ?_
    · rw [hsettings]
      exact h.startPlaylist_lapsed hu hP hstarted
    · intro p hp
      rw [hsettings, h.find_absent hm] at hp
      cases hp
    · intro offset mid hmid
      rw [hsettings] at hmid
      rcases h.startPlaylist_cases hu hnew with ⟨_, hstart, hlists⟩ | ⟨-, hstart⟩
      · obtain ⟨rfl, rfl⟩ := EStateM.Result.ok.inj (hmid.symm.trans hstart)
        exact hlists.addPathAt_lapsed hstarted
      · rw [hstart] at hmid
        cases hmid

theorem Lists.addPathAt_named_lapsed (h : Lists settings fields listings lib)
    (hP : P (inventoryOf listings)) {playlist : String} {target : Playlist}
    (htarget : lib.named playlist = .ok target) :
    Tracks pending .io (Lapsed pending settings fields P) (addPathAt target.offset path) lib := by
  by_cases hm : playlist ∈ listings.map Listing.name
  · obtain ⟨before, l, after, rfl, rfl⟩ := exists_split hm
    obtain rfl := Except.ok.inj (htarget.symm.trans h.named_present)
    exact h.addPathAt_lapsed hP
  · rw [h.named_absent hm] at htarget
    cases htarget

/-- An addition that is stopped spares the playlists as one for which there was no space. -/
theorem Lists.addPath_lapsed (h : Lists settings fields listings lib) (hu : settings.Usable)
    (playlist path : String) :
    Tracks pending .io
      (Lapsed pending settings fields (Spared settings playlist path (inventoryOf listings)))
      (addPath playlist path) lib := by
  cases hcheck : (inventoryOf listings).checkPath playlist path with
  | error e =>
    refine Tracks.addPath (fun hconsult => ?_) (fun hconsult => ?_)
    · rw [h.checkNewPath_eq, hcheck] at hconsult
      cases hconsult
    · rw [h.checkNewPath_eq, hcheck] at hconsult
      cases hconsult
  | ok =>
    obtain ⟨paths, -, hnul, -⟩ := Inventory.checkPath_ok hcheck
    have hsettings := h.stores.keeps.holding.settings_eq
    have hkept : Spared settings playlist path (inventoryOf listings) (inventoryOf listings) :=
      Or.inl rfl
    refine Tracks.addPath (fun _ hcopy => ?_) (fun _ mid target hmid htarget => ?_)
    · rw [hsettings] at hcopy
      exact h.addToGlobal_lapsed hu hkept (Or.inr ⟨hcopy, Or.inl rfl⟩)
    · rcases hmid with rfl | ⟨hcopy, hmid⟩
      · exact h.addPathAt_named_lapsed hkept htarget
      · rw [hsettings] at hcopy
        rcases h.addToGlobal_cases hu hnul with ⟨_, hglobal, hlists⟩ | ⟨_, _, _, hglobal, -⟩
        · obtain rfl := (EStateM.Result.ok.inj (hmid.symm.trans hglobal)).2
          refine hlists.addPathAt_named_lapsed (Or.inr ⟨hcopy, Or.inr ?_⟩) htarget
          rw [inventoryOf_addIn, inventoryOf_withGlobal, Inventory.addToGlobal]
        · rw [hglobal] at hmid
          cases hmid

/-- The records have moved when the library is to be shortened, so that it must be. -/
theorem Lists.deletePlaylist_survives (h : Lists settings fields listings lib) (name : String)
    (hshortens : ∀ answers ∈ pending, answers.shortening = none) :
    Tracks pending .io (Survives pending settings fields) (deletePlaylist name) lib := by
  refine Tracks.deletePlaylist fun p length mid left _ hoffset hshift hleft => ?_
  have hheaded : Headed settings fields lib := ⟨_, h.stores.keeps, rfl⟩
  have hmid := Headed.shift hoffset (p.offset + p.length) length _ hheaded
  rw [Steps.left_ok hshift] at hmid
  obtain ⟨v, hv, -⟩ := hmid
  obtain ⟨length', size, hlength, hheader, hless, hhalted⟩ := hleft
  obtain rfl := Except.ok.inj (hlength.symm.trans hv.length_eq)
  have hsize : mid.contents.size = v.length := by
    rw [hv.holding.size_contents, hv.sized.length_encode]
  have hnever : ¬ ∃ answers ∈ pending, ((mid.facing ⟨[answers]⟩).sizing size).isSome := by
    rintro ⟨answers, hanswers, hsizing⟩
    have hshort : size < (mid.facing ⟨[answers]⟩).contents.size := hsize ▸ hless
    rw [sizing, if_pos hshort] at hsizing
    have hnone : (mid.facing ⟨[answers]⟩).system.now.shortening = none := hshortens answers hanswers
    rw [hnone] at hsizing
    cases hsizing
  cases hhalted with
  | kept _ hunsized => exact absurd hunsized hnever
  | stranded _ hunsized _ => exact absurd hunsized hnever
  | resized _ hunmapped =>
    obtain ⟨count, rfl⟩ := Nat.exists_eq_add_of_le hheader
    have hshort := (Image.size_resize mid.contents (LibraryHeader.size + count)).trans_ne
      (Nat.ne_of_lt hless)
    exact Or.inr ⟨rfl, hunmapped, Or.inr (unfit_of_header hv.sized (hv.toList_resize count) hshort)⟩

set_option maxRecDepth 4000 in
/-- A file that is not shortened once the records have moved holds the last one twice. -/
theorem deletePlaylist_unshortened :
    let lib := (claimingLibrary 16).facing ⟨[{ shortening := some .notFound }]⟩
    lib.verify = .ok ⟨1312, 2, 0⟩ ∧ (deletePlaylist "a").run' lib = none ∧
      (Steps.left (deletePlaylist "a") lib).verify = refuse (.corrupt (.duplicateName [98])) := by
  refine ⟨?_, ?_, ?_⟩ <;> cbv

/-! What the system refuses at once. -/

section Refused

variable {system : System} {e : FileError} {name playlist : String}

end Refused

end Operations
end MediaLibrary.LibraryFile
