import MediaLibrary.Proofs.LibraryFile.Systems
import MediaLibrary.Proofs.LibraryFile.Upkeep
/-! Operations on any library that was opened, before any system. The header tells the length of the
file and of its mapping after each of them, but for one thing: a file that was given its new size may
be refused a mapping. From then on the library refuses whatever it is asked. -/
namespace MediaLibrary.LibraryFile

section Unmapped

variable {lib : LibraryFile} {α β : Type}

theorem view_unmapped (h : lib.mapped = none) : lib.view = .error (.refused .unmapped) := by
  rw [view, h]
  rfl

theorem word_unmapped (h : lib.mapped = none) (offset : Nat) :
    lib.word offset = .error (.refused .unmapped) :=
  Steps.query_error (view_unmapped h)

theorem walk_unmapped (h : lib.mapped = none) : lib.walk = .error (.refused .unmapped) :=
  Steps.query_error (view_unmapped h)

theorem playlistAt_unmapped (h : lib.mapped = none) (offset : Nat) :
    lib.playlistAt offset = .error (.refused .unmapped) :=
  Steps.query_error (view_unmapped h)

theorem named_unmapped (h : lib.mapped = none) (name : String) :
    lib.named name = .error (.refused .unmapped) :=
  Steps.query_error (Steps.query_error (walk_unmapped h))

theorem checkNewName_unmapped (h : lib.mapped = none) (name : String) :
    lib.checkNewName name = .error (.refused .unmapped) :=
  Steps.query_error (Steps.query_error (walk_unmapped h))

theorem checkNewPath_unmapped (h : lib.mapped = none) (playlist path : String) :
    lib.checkNewPath playlist path = .error (.refused .unmapped) :=
  Steps.query_error (named_unmapped h playlist)

theorem refused_of_consult {question : LibraryFile → Query α} {f : α → Update β}
    (h : question lib = .error (.refused .unmapped)) :
    (consult question >>= f) lib = .error (.refused .unmapped) lib :=
  Steps.bind_error (Steps.consult_error h)

theorem startPlaylist_unmapped (h : lib.mapped = none) (name : String) :
    startPlaylist name lib = .error (.refused .unmapped) lib :=
  refused_of_consult (checkNewName_unmapped h name)

theorem deletePlaylist_unmapped (h : lib.mapped = none) (name : String) :
    deletePlaylist name lib = .error (.refused .unmapped) lib :=
  refused_of_consult (named_unmapped h name)

theorem addPath_unmapped (h : lib.mapped = none) (playlist path : String) :
    addPath playlist path lib = .error (.refused .unmapped) lib :=
  refused_of_consult (checkNewPath_unmapped h playlist path)

theorem removePath_unmapped (h : lib.mapped = none) (playlist path : String) :
    removePath playlist path lib = .error (.refused .unmapped) lib :=
  refused_of_consult (named_unmapped h playlist)

end Unmapped

def whole (lib : LibraryFile) : LibraryFile :=
  { lib with mapped := some lib.contents.size, system := .calm }

/-- The file has a header with these fields, but there is no mapping of it. -/
structure Stranded (fields : Bytes) (lib : LibraryFile) : Prop where
  mapped_eq : lib.mapped = none
  contents_eq : ∃ v rest, Volume.Sized v ∧ v.fields = fields ∧
    lib.contents.toList = v.header ++ rest ∧ LibraryHeader.size + rest.length < Word.limit

/-- The library has a header with these fields, unless the system has refused it a mapping. -/
structure Upheld (pending : List Answers) (settings : Settings) (fields : Bytes)
    (lib : LibraryFile) : Prop where
  rest : lib.system.pending ⊆ pending
  headed : Headed settings fields (lib.facing .calm) ∨
    Stranded fields lib ∧ ∃ answers ∈ pending, answers.mapping.isSome

section Upheld

variable {pending : List Answers} {settings : Settings} {fields : Bytes} {lib left : LibraryFile}
  {size : Nat} {α : Type}

theorem Headed.facing (h : Headed settings fields lib) {later : System}
    (hrest : later.pending ⊆ pending) : Upheld pending settings fields (lib.facing later) := by
  refine ⟨hrest, Or.inl ?_⟩
  obtain ⟨v, hv, -⟩ := id h
  exact (facing_calm hv.holding.calm).symm ▸ h

theorem Headed.upheld_of_halted (h : Headed settings fields lib) (hsize : LibraryHeader.size ≤ size)
    (hsmall : size < Word.limit) (hleft : Halted pending size lib left) :
    Upheld pending settings fields left := by
  obtain ⟨v, hv, hfields⟩ := id h
  cases hleft with
  | kept hrest _ =>
    rw [← h.mapped_eq]
    exact h.facing hrest
  | stranded hrest _ hunmapped =>
    refine ⟨hrest, Or.inr ⟨⟨rfl, v, v.body, hv.sized, hfields, ?_, hv.sized.below⟩, hunmapped⟩⟩
    exact hv.holding.contents_eq
  | resized hrest hunmapped =>
    obtain ⟨count, rfl⟩ := Nat.exists_eq_add_of_le hsize
    refine ⟨hrest, Or.inr ⟨⟨rfl, v, _, hv.sized, hfields, hv.toList_resize count, ?_⟩, hunmapped⟩⟩
    simp only [List.length_append, List.length_take, Bytes.length_zeros]
    omega

theorem Headed.upheld_of_unlengthened (h : Headed settings fields lib)
    (hleft : Unlengthened pending lib left) : Upheld pending settings fields left := by
  obtain ⟨length, size, hlength, hmore, hsmall, hhalted⟩ := hleft
  have hheader := h.length_ge hlength
  exact h.upheld_of_halted (by omega) hsmall hhalted

theorem Headed.upheld_of_unshortened (h : Headed settings fields lib)
    (hleft : Unshortened pending lib left) : Upheld pending settings fields left := by
  obtain ⟨length, size, hlength, hheader, hless, hhalted⟩ := hleft
  obtain ⟨v, hv, -⟩ := id h
  obtain rfl := Except.ok.inj (hv.length_eq.symm.trans hlength)
  exact h.upheld_of_halted hheader (Nat.lt_trans hless hv.sized.below) hhalted

theorem Headed.upheld_startPlaylist (h : Headed settings fields lib) (name : String) :
    Tracks pending .io (Upheld pending settings fields) (LibraryFile.startPlaylist name) lib := by
  refine Tracks.startPlaylist (fun _ => h.upheld_of_unlengthened) fun offset mid later hmid hlater => ?_
  have hstarted := Headed.startPlaylist name _ h
  rw [Steps.left_ok hmid] at hstarted
  exact hstarted.facing hlater

theorem Headed.upheld_excise (h : Headed settings fields lib) (start stop : Nat) :
    Tracks pending .io (Upheld pending settings fields) (LibraryFile.excise start stop) lib := by
  refine Tracks.excise fun length mid left hstart hmid => ?_
  have hshifted := Headed.shift hstart stop length _ h
  rw [Steps.left_ok hmid] at hshifted
  exact hshifted.upheld_of_unshortened

theorem Headed.upheld_deletePlaylist (h : Headed settings fields lib) (name : String) :
    Tracks pending .io (Upheld pending settings fields) (LibraryFile.deletePlaylist name) lib := by
  refine Tracks.deletePlaylist fun p length mid left _ hstart hmid => ?_
  have hshifted := Headed.shift hstart (p.offset + p.length) length _ h
  rw [Steps.left_ok hmid] at hshifted
  exact hshifted.upheld_of_unshortened

theorem Headed.upheld_addPathAt (h : Headed settings fields lib) (offset : Nat) (path : String) :
    Tracks pending .io (Upheld pending settings fields) (LibraryFile.addPathAt offset path) lib := by
  refine Tracks.addPathAt fun p j mid left hp hmid hleft => ?_
  obtain ⟨hoffset, rfl⟩ := h.playlistAt hp
  have htable : LibraryHeader.size ≤ p.tableOffset := Nat.le_add_right_of_le hoffset
  have hgrown := (Headed.host hoffset htable).growTimes lib.settings.growthQuantum j lib h
  rw [Steps.left_ok hmid] at hgrown
  exact hgrown.upheld_of_unlengthened hleft

theorem Headed.upheld_addPath (h : Headed settings fields lib) (playlist path : String) :
    Tracks pending .io (Upheld pending settings fields) (LibraryFile.addPath playlist path) lib := by
  refine Tracks.addPath (fun _ _ => ?_) fun _ mid target hmid _ => ?_
  · refine Tracks.addToGlobal (h.upheld_startPlaylist _) (fun p _ => h.upheld_addPathAt p.offset path) ?_
    intro offset mid hmid
    have hstarted := Headed.startPlaylist lib.settings.globalPlaylist _ h
    rw [Steps.left_ok hmid] at hstarted
    exact hstarted.upheld_addPathAt offset path
  · rcases hmid with rfl | ⟨-, hmid⟩
    · exact h.upheld_addPathAt target.offset path
    · have hglobal := Headed.addToGlobal path _ h
      rw [Steps.left_ok hmid] at hglobal
      exact hglobal.upheld_addPathAt target.offset path

/-- The header stays under an operation that keeps it before a calm system, and wherever it stops. -/
theorem Upheld.left_of_tracks (h : Upheld pending settings fields lib) {x : Update α}
    (hx : Steps.Preserves (Headed settings fields) x)
    (htracks : ∀ lib, Headed settings fields lib →
      Tracks pending .io (Upheld pending settings fields) x lib)
    (hunmapped : ∀ lib : LibraryFile, lib.mapped = none →
      x lib = .error (.refused .unmapped) lib) :
    Upheld pending settings fields (Steps.left x lib) := by
  obtain ⟨hrest, hheaded | ⟨hstranded, hrefused⟩⟩ := h
  · have hcalm := hx _ hheaded
    have hfollows := htracks _ hheaded rfl lib.system hrest
    have hactual : x ((lib.facing .calm).facing lib.system) = x lib := rfl
    rw [Steps.left] at hcalm ⊢
    rw [hactual] at hfollows
    generalize x lib = actual at hfollows ⊢
    generalize x (lib.facing .calm) = result at hfollows hcalm
    cases hfollows with
    | done _ hlater => exact hcalm.facing hlater
    | failed _ hlater => exact hcalm.facing hlater
    | stopped _ hleft => exact hleft
  · rw [Steps.left_error (hunmapped lib hstranded.mapped_eq)]
    exact ⟨hrest, Or.inr ⟨hstranded, hrefused⟩⟩

theorem Upheld.run (h : Upheld pending settings fields lib) (operation : Operation) :
    Upheld pending settings fields (operation.run lib) := by
  have hlength {lib : LibraryFile} (hlib : lib.mapped = none) :
      lib.length = .error (.refused .unmapped) := word_unmapped hlib _
  cases operation with
  | expand size =>
    refine h.left_of_tracks (Headed.expand size) (fun _ hheaded => ?_) fun _ hlib =>
      refused_of_consult (hlength hlib)
    exact Tracks.expand fun _ => hheaded.upheld_of_unlengthened
  | truncate size =>
    refine h.left_of_tracks (Headed.truncate size) (fun _ hheaded => ?_) fun _ hlib =>
      refused_of_consult (hlength hlib)
    exact Tracks.truncate fun _ => hheaded.upheld_of_unshortened
  | excise start stop =>
    exact h.left_of_tracks (Headed.excise start stop) (fun _ hheaded =>
      hheaded.upheld_excise start stop) fun _ hlib => refused_of_consult (hlength hlib)
  | insertSpace offset count =>
    refine h.left_of_tracks (Headed.insertSpace offset count) (fun _ hheaded => ?_) fun _ hlib =>
      refused_of_consult (hlength hlib)
    exact Tracks.insertSpace fun _ => hheaded.upheld_of_unlengthened
  | ask question =>
    rwa [Operation.run, Steps.Preserves.consult (P := (· = lib)) question lib rfl]
  | change deed =>
    cases deed with
    | start name =>
      exact h.left_of_tracks (Headed.startPlaylist name) (fun _ hheaded =>
        hheaded.upheld_startPlaylist name) fun _ hlib => startPlaylist_unmapped hlib name
    | delete name =>
      exact h.left_of_tracks (Headed.deletePlaylist name) (fun _ hheaded =>
        hheaded.upheld_deletePlaylist name) fun _ hlib => deletePlaylist_unmapped hlib name
    | add handle path =>
      exact h.left_of_tracks (Headed.addPathAt handle path) (fun _ hheaded =>
        hheaded.upheld_addPathAt handle path) fun _ hlib =>
        refused_of_consult (playlistAt_unmapped hlib handle)
    | remove handle path =>
      exact h.left_of_tracks (Headed.removePathAt handle path) (fun _ _ => Tracks.removePathAt)
        fun _ hlib => refused_of_consult (playlistAt_unmapped hlib handle)

theorem Upheld.runAll (h : Upheld pending settings fields lib) (operations : List Operation) :
    Upheld pending settings fields (Operation.runAll lib operations) := by
  induction operations generalizing lib with
  | nil => exact h
  | cons operation rest ih => exact ih (h.run operation)

theorem Upheld.contents_eq (h : Upheld pending settings fields lib) :
    ∃ v rest, Volume.Sized v ∧ v.fields = fields ∧ lib.contents.toList = v.header ++ rest ∧
      LibraryHeader.size + rest.length < Word.limit := by
  obtain ⟨-, ⟨v, hv, hfields⟩ | ⟨hstranded, -⟩⟩ := h
  · exact ⟨v, v.body, hv.sized, hfields, hv.holding.contents_eq, hv.sized.below⟩
  · exact hstranded.contents_eq

theorem Upheld.facing (h : Upheld pending settings fields lib) {system : System}
    (hrest : system.pending ⊆ pending) : Upheld pending settings fields (lib.facing system) := by
  refine ⟨hrest, h.headed.imp_right ?_⟩
  exact fun ⟨hstranded, hunmapped⟩ => ⟨⟨hstranded.mapped_eq, hstranded.contents_eq⟩, hunmapped⟩

theorem Headed.upheld (h : Headed settings fields lib) : Upheld pending settings fields lib := by
  obtain ⟨v, hv, -⟩ := id h
  have hupheld : Upheld pending settings fields (lib.facing .calm) :=
    h.facing (List.nil_subset pending)
  rwa [facing_calm hv.holding.calm] at hupheld

theorem Upheld.congr {other : LibraryFile} (h : Upheld pending settings fields lib)
    (hcontents : other.contents = lib.contents) (hmapped : other.mapped = lib.mapped)
    (hsettings : other.settings = settings) (hrest : other.system.pending ⊆ pending) :
    Upheld pending settings fields other := by
  refine ⟨hrest, h.headed.imp (fun hheaded => ?_) ?_⟩
  · exact hheaded.congr (hsettings.trans hheaded.settings_eq.symm) hcontents hmapped rfl
  refine fun ⟨hstranded, hunmapped⟩ => ⟨⟨hmapped.trans hstranded.mapped_eq, ?_⟩, hunmapped⟩
  rw [hcontents]
  exact hstranded.contents_eq

theorem Upheld.size_le (h : Upheld pending settings fields lib) :
    LibraryHeader.size ≤ lib.contents.size := by
  obtain ⟨v, rest, hsized, -, hcontents, -⟩ := h.contents_eq
  rw [← Image.length_toList, hcontents, List.length_append, hsized.length_header]
  exact Nat.le_add_right _ _

theorem Upheld.whole_name_eq (h : Upheld pending settings fields lib) :
    lib.whole.name = .ok (nameIn fields) := by
  obtain ⟨v, rest, hsized, rfl, hcontents, -⟩ := h.contents_eq
  have hview : lib.whole.view = .ok (lib.contents.resize lib.contents.size) := rfl
  have hbytes : (lib.contents.resize lib.contents.size).toList = v.header ++ rest := by
    rw [← hcontents, Image.toList_resize, Nat.sub_self, ← Image.length_toList, List.take_length]
    exact List.append_nil _
  exact name_eq_of_header hsized hview hbytes

theorem Upheld.name_eq (h : Upheld pending settings fields lib) :
    lib.name = .ok (nameIn fields) ∨
      lib.mapped = none ∧ ∃ answers ∈ pending, answers.mapping.isSome := by
  refine h.headed.imp (fun hheaded => hheaded.name_eq) ?_
  exact fun ⟨hstranded, hunmapped⟩ => ⟨hstranded.mapped_eq, hunmapped⟩

end Upheld
end MediaLibrary.LibraryFile
