import MediaLibrary.Proofs.LibraryFile.Frame
import MediaLibrary.Proofs.StringTable.Independence
/-! The table of a playlist, in its library and alone in memory. Both storages give it the same strings
in the same bytes, although one of them moves all records behind it and writes lengths and counts in
between. They differ in how much they hold: a library is full before a table is. -/
namespace MediaLibrary

/-- The bytes of the record's table in a file. -/
def Playlist.tableIn (file : Bytes) (p : Playlist) : Bytes :=
  (p.bytesIn file).drop PlaylistHeader.size

namespace LibraryFile

open StringTable (Host removeAt)

/-- In the place of the record of `p` stands that of `p'`, whose table is `vector` byte for byte. -/
structure Carried (p p' : Playlist) (vector : Image) (lib : LibraryFile) : Prop where
  playlist : lib.playlistAt p.offset = .ok p'
  name : p'.name = p.name
  table : p'.tableIn lib.contents.toList = vector.toList
  length : p'.length = PlaylistHeader.size + vector.size
  count : ∃ t, StringTable.decode vector = .ok t ∧ p'.count = t.entries

/-- What comes of adding `path` to the playlist `p` of `lib`, and of adding it to `vector`. Where
neither is refused for want of space, the answers are the same. -/
inductive AddsAlike (p : Playlist) (path : String) (lib : LibraryFile) (vector : Image) :
    EStateM.Result (Failure LibraryError) LibraryFile Unit →
    EStateM.Result (Failure TableError) Image Unit → Prop where
  | stored {p' : Playlist} {lib' : LibraryFile} {vector' : Image}
      (hcarried : Carried p p' vector' lib')
      (hroom : lib.contents.size + (vector'.size - vector.size) < Word.limit) :
      AddsAlike p path lib vector (.ok () lib') (.ok () vector')
  | present : AddsAlike p path lib vector (.error (.refused (.pathExists path)) lib)
      (.error (.refused .duplicate) vector)
  | nul : AddsAlike p path lib vector (.error (.refused (.table .interiorNul)) lib)
      (.error (.refused .interiorNul) vector)
  | stepless : AddsAlike p path lib vector (.error (.refused (.table .zeroQuantum)) lib)
      (.error (.refused .zeroQuantum) vector)
  | libraryFull {e : LibraryError} {lib' : LibraryFile} {vector' : Image} (hkind : e.kind = .resource)
      (hfull : Word.limit ≤ lib.contents.size + (vector'.size - vector.size)) :
      AddsAlike p path lib vector (.error (.refused e) lib') (.ok () vector')
  | halted {e : LibraryError} {lib' : LibraryFile} {vector' : Image} (hkind : e.kind = .resource)
      (hrefused : ∃ answers ∈ lib.system.pending, answers ≠ {}) :
      AddsAlike p path lib vector (.error (.refused e) lib') (.ok () vector')
  | bothFull {e : LibraryError} {lib' : LibraryFile} {vector' : Image} (hkind : e.kind = .resource) :
      AddsAlike p path lib vector (.error (.refused e) lib') (.error (.refused .overflow) vector')

theorem Carried.facing {p p' : Playlist} {vector : Image} {lib : LibraryFile} {later : System}
    (h : Carried p p' vector lib) : Carried p p' vector (lib.facing later) :=
  ⟨h.playlist, h.name, h.table, h.length, h.count⟩

theorem exposes_facing {record base : Nat} {shows : LibraryFile → Bytes → Prop}
    (h : (host record).Exposes base shows) :
    (host record).Exposes base fun lib bytes => shows (lib.facing .calm) bytes where
  image {lib bytes} hshows := @Host.Exposes.image _ _ _ _ h (lib.facing .calm) bytes hshows
  overlay {lib bytes offset new} hshows hfits := by
    have hover := h.overlay hshows hfits
    rwa [Tracks.overlay_host .calm] at hover

theorem kind_refusalOf (path : String) (e : TableError) : (refusalOf path e).kind = e.kind := by
  cases e <;> rfl

namespace AddsAlike

variable {p : Playlist} {path : String} {lib : LibraryFile} {vector : Image}
  {added : EStateM.Result (Failure LibraryError) LibraryFile Unit}
  {added' : EStateM.Result (Failure TableError) Image Unit}

/-- A refusal that is not for want of space is the same in both, and changes neither. -/
theorem refused_iff (h : AddsAlike p path lib vector added added') {e : TableError}
    (hkind : e.kind = .validation) (lib' : LibraryFile) :
    added = .error (.refused (refusalOf path e)) lib' ↔
      lib' = lib ∧ added' = .error (.refused e) vector := by
  constructor
  · intro heq
    cases h with
    | stored => cases heq
    | libraryFull hspace _ | halted hspace _ | bothFull hspace =>
      obtain rfl := Failure.refused.inj (EStateM.Result.error.inj heq).1
      rw [kind_refusalOf, hkind] at hspace
      cases hspace
    | present | nul | stepless =>
      cases e <;> cases heq
      exact ⟨rfl, rfl⟩
  · rintro ⟨rfl, heq⟩
    cases h with
    | present | nul | stepless =>
      cases heq
      rfl
    | bothFull =>
      cases heq
      cases hkind
    | _ => cases heq

end AddsAlike

/-- What comes of taking `path` out of the playlist `p` of `lib`, and of taking it out of `vector`. -/
inductive RemovesAlike (p : Playlist) (lib : LibraryFile) :
    EStateM.Result (Failure LibraryError) LibraryFile Bool →
    Except (Failure TableError) (Bool × Image) → Prop where
  | answered {p' : Playlist} {lib' : LibraryFile} {vector' : Image} (removed : Bool)
      (hcarried : Carried p p' vector' lib') :
      RemovesAlike p lib (.ok removed lib') (.ok (removed, vector'))
  | failed (e : Failure TableError) :
      RemovesAlike p lib (.error (e.map LibraryError.ofTable) lib) (.error e)

namespace Encloses

variable {settings : Settings} {v : Volume} {before after : Bytes} {r : Record} {lib : LibraryFile}

theorem size_contents (h : Encloses settings v before r after lib) :
    lib.contents.size = LibraryHeader.size + before.length + r.length + after.length := by
  rw [h.keeps.holding.size_contents, h.keeps.sized.length_encode, h.length_eq]

theorem bytesIn_eq (h : Encloses settings v before r after lib) :
    (r.playlist (LibraryHeader.size + before.length)).bytesIn lib.contents.toList = r.encode := by
  have hlead : (Volume.header { v with body := before ++ (r.encode ++ after) } ++ before).length
      = LibraryHeader.size + before.length := by
    rw [List.length_append, h.keeps.sized.length_header]
  have hslice := Bytes.slice_middle
    (Volume.header { v with body := before ++ (r.encode ++ after) } ++ before) r.encode after
  rw [hlead, h.sized.length_encode] at hslice
  rw [h.keeps.holding.contents_eq, Volume.encode, ← List.append_assoc, ← List.append_assoc]
  exact hslice

theorem tableIn_eq (h : Encloses settings v before r after lib) :
    (r.playlist (LibraryHeader.size + before.length)).tableIn lib.contents.toList = r.table := by
  rw [Playlist.tableIn, h.bytesIn_eq, Record.encode, ← h.sized.length_header, List.drop_left]

theorem carried (h : Encloses settings v before r after lib) {p : Playlist} {t : StringTable}
    {vector : Image} (hoffset : p.offset = LibraryHeader.size + before.length)
    (hname : p.name = r.name) (hsized : t.parts.Sized) (htable : r.table = t.parts.encode)
    (hvector : vector.toList = t.parts.encode) (hcount : r.count = t.entries) :
    Carried p (r.playlist (LibraryHeader.size + before.length)) vector lib := by
  constructor
  · rw [hoffset, h.playlistAt_eq]
  · exact hname.symm
  · rw [h.tableIn_eq, htable, hvector]
  · rw [← Image.length_toList, hvector, ← htable]
    rfl
  · have hwhole : vector.toList = t.parts.encode ++ [] := by rw [hvector, List.append_nil]
    obtain ⟨t', ht', hparts⟩ := StringTable.decode_of_encode hsized hwhole
    exact ⟨t', ht', hcount.trans (StringTable.entries_congr (congrArg _ hparts)).symm⟩

end Encloses

/-- The table of a record, in order and with as many strings as the record counts; `vector` holds
the same bytes. -/
structure Lodges (settings : Settings) (v : Volume) (before : Bytes) (r : Record) (after : Bytes)
    (t : StringTable) (values : List Bytes) (lib : LibraryFile) (vector : Image) : Prop where
  encloses : Encloses settings v before r after lib
  sized : t.parts.Sized
  table : r.table = t.parts.encode
  ordered : t.Ordered values
  counted : r.count = values.length
  bytes : vector.toList = t.parts.encode

namespace Lodges

variable {settings : Settings} {v : Volume} {before after : Bytes} {r : Record} {t : StringTable}
  {values : List Bytes} {lib : LibraryFile} {vector : Image} {path : String}

theorem shows (h : Lodges settings v before r after t values lib vector) :
    Encloses settings v before { r with table := t.parts.encode } after lib := by
  rw [← h.table]
  exact h.encloses

theorem size_vector (h : Lodges settings v before r after t values lib vector) :
    vector.size = t.length := by
  rw [← Image.length_toList, h.bytes, StringTable.Parts.length_encode, StringTable.length_parts]

/-- A path that is new is stored, or the library has no room for the steps that it takes. -/
theorem addPathAt_new_cases (h : Lodges settings v before r after t values lib vector)
    (hnew : Text.bytes path ∉ values) (hnul : 0 ∉ Text.bytes path)
    (hq : 0 < settings.growthQuantum) {growth : Nat}
    (hgrowth : growth = t.stepsFor (Text.bytes path) settings.growthQuantum * settings.growthQuantum) :
    (∃ pushed r' lib' v', (t.widen growth).push (Text.bytes path) = .ok pushed ∧
      pushed.parts.Sized ∧ pushed.length = t.length + growth ∧ r'.name = r.name ∧
      r'.table = pushed.parts.encode ∧ r'.count = pushed.entries ∧
      addPathAt (LibraryHeader.size + before.length) path lib = .ok () lib' ∧
      Encloses settings v' before r' after lib') ∨
    Word.limit ≤ lib.contents.size + growth ∧ ∃ e lib', e.kind = .resource ∧
      addPathAt (LibraryHeader.size + before.length) path lib = .error (.refused e) lib' := by
  have hcarries := encloses_carries settings v before r after
  rcases hcarries.add_new_cases h.sized h.shows h.ordered hnew hnul hq with
    ⟨pushed, lib₁, hpush, hsized, hlength, hadd, h₁⟩ | ⟨j, hj, e, lib₁, hadd, hlast, h₁, hsized⟩
  · obtain ⟨r', lib', hrecord, hdone, h'⟩ := h.encloses.addPathAt_of_stored hadd h₁
    have hentries := StringTable.entries_of_push hpush
    have hbelow := StringTable.entries_below hsized
    rw [StringTable.entries_widen, h.ordered.entries_eq] at hentries
    rw [← hgrowth] at hpush hlength
    refine Or.inl ⟨pushed, r', lib', _, hpush, hsized, hlength, ?_, ?_, ?_, hdone, h'⟩
    · rw [hrecord]
      rfl
    · rw [hrecord]
    · rw [hrecord]
      show min (r.count + 1) (Word.limit - 1) = pushed.entries
      rw [h.counted]
      omega
  · have hrefused := h.encloses.addPathAt_of_refused hadd
    have hsteps : (j + 1) * settings.growthQuantum ≤ growth :=
      hgrowth ▸ Nat.mul_le_mul_right settings.growthQuantum hj
    have hsize := h.shows.size_contents
    have hsize₁ := h₁.size_contents
    simp only [Record.length, StringTable.Parts.length_encode, StringTable.Parts.length_widen]
      at hsize hsize₁
    rw [Nat.succ_mul] at hsteps
    rcases hcarries.grow_refused hsized h₁ hlast with ⟨hlong, rfl⟩ | ⟨-, f, lib₂, hins, rfl⟩
    · rw [StringTable.Parts.length_widen] at hlong
      exact Or.inr ⟨by omega, .tooLarge, lib₁, rfl, hrefused⟩
    · have hinside : (t.parts.widen (j * settings.growthQuantum)).indexOffset
          ≤ (({ r with table := (t.parts.widen (j * settings.growthQuantum)).encode } : Record).table
            ++ after).length := by
        rw [List.length_append, StringTable.Parts.length_encode]
        exact Nat.le_add_right_of_le (Nat.le_add_right _ _)
      rcases h₁.insertSpace_tail hinside settings.growthQuantum with
        ⟨_, _, _, hok, -⟩ | ⟨hfull, hfail⟩
      · rw [hins] at hok
        cases hok
      · obtain ⟨rfl, -⟩ := EStateM.Result.error.inj (hins.symm.trans hfail)
        rw [h₁.length_eq] at hfull
        simp only [Record.length, StringTable.Parts.length_encode, StringTable.Parts.length_widen]
          at hfull
        exact Or.inr ⟨by omega, _, lib₁, rfl, hrefused⟩

theorem addPathAt_refused (h : Lodges settings v before r after t values (lib.facing .calm) vector)
    {e : TableError}
    (hadd : ∀ {σ : Type} {host : Host σ} {base : Nat} {shows : σ → Bytes → Prop} {s : σ},
      host.Exposes base shows → shows s t.parts.encode →
      StringTable.add host base (Text.bytes path) settings.growthQuantum s = .error (.refused e) s) :
    addPathAt (LibraryHeader.size + before.length) path lib
        = .error (.refused (refusalOf path e)) lib ∧
      StringTable.add Host.memory 0 (Text.bytes path) settings.growthQuantum vector
        = .error (.refused e) vector := by
  have hcarries := encloses_carries settings v before r after
  have hsettings : lib.settings = settings := h.encloses.keeps.holding.settings_eq
  have hread : consult (playlistAt · (LibraryHeader.size + before.length)) lib = .ok _ lib :=
    Steps.consult_ok h.encloses.playlistAt_eq
  refine ⟨?_, hadd StringTable.carries_alone.toExposes h.bytes⟩
  rw [addPathAt, Steps.bind_ok hread, Steps.bind_get, hsettings]
  exact Steps.bind_error
    (Steps.adaptExcept_error (hadd (exposes_facing hcarries.toExposes) h.shows))

theorem tracks_addPathAt (offset : Nat) (path : String) :
    Tracks lib.system.pending .io (fun _ => ∃ answers ∈ lib.system.pending, answers ≠ {})
      (addPathAt offset path) (lib.facing .calm) :=
  Tracks.addPathAt fun _ _ _ _ _ _ hleft => hleft.refused

theorem adds_alike (h : Lodges settings v before r after t values (lib.facing .calm) vector)
    (path : String) :
    AddsAlike (r.playlist (LibraryHeader.size + before.length)) path lib vector
      (addPathAt (LibraryHeader.size + before.length) path lib)
      (StringTable.add Host.memory 0 (Text.bytes path) settings.growthQuantum vector) := by
  by_cases hnul : 0 ∈ Text.bytes path
  · obtain ⟨hfile, hmemory⟩ := h.addPathAt_refused fun _ _ => StringTable.add_of_nul hnul
    rw [hfile, hmemory]
    exact .nul
  by_cases hzero : settings.growthQuantum = 0
  · obtain ⟨hfile, hmemory⟩ := h.addPathAt_refused fun _ _ => by
      rw [hzero]
      exact StringTable.add_of_zero_quantum hnul
    rw [hfile, hmemory]
    exact .stepless
  have hq := Nat.pos_of_ne_zero hzero
  by_cases hmem : Text.bytes path ∈ values
  · obtain ⟨hfile, hmemory⟩ := h.addPathAt_refused fun hcarries hshows =>
      hcarries.add_stored h.sized hshows (fun _ ht => h.ordered.of_parts ht) hmem hnul hq
    rw [hfile, hmemory]
    exact .present
  have hvector := h.size_vector
  rcases StringTable.memory_add_new_cases h.sized h.bytes h.ordered hmem hnul hq with
    ⟨pushed, vector', hpush, hsized, hlength, hmemory, hbytes⟩ | ⟨hlong, vector', hmemory⟩
  · have hvector' : vector'.size = pushed.length := by
      rw [← Image.length_toList, hbytes, StringTable.Parts.length_encode, StringTable.length_parts]
    rw [hmemory]
    rcases h.addPathAt_new_cases hmem hnul hq rfl with
      ⟨pushed', r', lib', v', hpush', -, -, hname, htable, hcount, hcalm, h'⟩
        | ⟨hfull, e, lib', hkind, hcalm⟩
    · obtain rfl := Except.ok.inj (hpush.symm.trans hpush')
      have hsize : lib.contents.size = _ := h.shows.size_contents
      have hsize' := h'.length_eq
      have hbelow := h'.keeps.sized.below
      simp only [Record.length, htable, StringTable.Parts.length_encode, StringTable.length_parts]
        at hsize hsize'
      have hcarried : Carried (r.playlist (LibraryHeader.size + before.length)) _ vector' lib' :=
        h'.carried rfl hname.symm hsized htable hbytes hcount
      rcases (tracks_addPathAt _ path).of_ok (List.Subset.refl _) hcalm with
        ⟨later, -, hfile⟩ | ⟨error, left, hfile, hrefused⟩
      · rw [hfile]
        exact .stored hcarried.facing (by omega)
      · rw [hfile]
        exact .halted rfl hrefused
    · have hlong : Word.limit ≤ lib.contents.size + _ := hfull
      rcases (tracks_addPathAt _ path).of_error (List.Subset.refl _) hcalm with
        ⟨later, -, hfile⟩ | ⟨error, left, hfile, hrefused⟩
      · rw [hfile]
        exact .libraryFull hkind (by omega)
      · rw [hfile]
        exact .halted rfl hrefused
  · rw [hmemory]
    rcases h.addPathAt_new_cases hmem hnul hq rfl with
      ⟨pushed, r', lib', v', -, hsized, hlength, -⟩ | ⟨-, e, lib', hkind, hcalm⟩
    · have hbelow := hsized.below
      rw [StringTable.length_parts] at hbelow
      omega
    · rcases (tracks_addPathAt _ path).of_error (List.Subset.refl _) hcalm with
        ⟨later, -, hfile⟩ | ⟨error, left, hfile, -⟩
      · rw [hfile]
        exact .bothFull hkind
      · rw [hfile]
        exact .bothFull rfl

theorem removes_alike (h : Lodges settings v before r after t values (lib.facing .calm) vector)
    (path : String) :
    RemovesAlike (r.playlist (LibraryHeader.size + before.length)) lib
      (removePathAt (LibraryHeader.size + before.length) path lib)
      (removeAt vector 0 (Text.bytes path)) := by
  obtain ⟨t₁, ht₁, hparts₁⟩ := h.encloses.exists_tableOf h.sized h.table
  have hvector : vector.toList = [] ++ t.parts.encode ++ [] := by rw [h.bytes]; simp
  obtain ⟨t₂, ht₂, hparts₂⟩ := StringTable.openAt_of_encode h.sized hvector
  have hopen : StringTable.openAt vector 0 = .ok t₂ := ht₂
  have hsame : t₂.parts = t₁.parts := hparts₂.trans hparts₁.symm
  have hentries : t₁.entries = values.length :=
    (StringTable.entries_congr (congrArg _ hparts₁)).trans h.ordered.entries_eq
  rcases StringTable.remove_cases hsame (Text.bytes path) with
    ⟨e, hremove, hremove'⟩ | ⟨hremove, hremove'⟩ | ⟨rest, rest', hremove, hremove', hrest⟩
  · have hplaylist : lib.playlistAt (LibraryHeader.size + before.length) = .ok _ :=
      h.encloses.playlistAt_eq
    have hfile := removePathAt_of_failure hplaylist ht₁ hremove
    have hterms : e.map (fun damage => LibraryError.corrupt (.table damage))
        = (e.map TableError.corrupt).map LibraryError.ofTable := by
      cases e <;> rfl
    rw [hfile, hterms, StringTable.removeAt_of_failed hopen hremove']
    exact .failed _
  · have hplaylist : lib.playlistAt (LibraryHeader.size + before.length) = .ok _ :=
      h.encloses.playlistAt_eq
    have hfile := removePathAt_of_absent hplaylist ht₁ hremove
    have hmemory := StringTable.removeAt_of_absent hopen hremove'
    have hcount : r.count = t.entries := h.counted.trans h.ordered.entries_eq.symm
    rw [hfile, hmemory]
    exact .answered false
      (h.encloses.carried rfl rfl h.sized h.table h.bytes hcount : Carried _ _ _ (lib.facing .calm)).facing
  · have hsized₁ : t₁.parts.Sized := hparts₁ ▸ h.sized
    have hlength := StringTable.length_of_remove hsized₁ hremove
    have hfits : rest.parts.length = r.table.length := by
      rw [hlength, hparts₁, h.table, StringTable.Parts.length_encode]
    obtain ⟨r', lib', hrecord, hcalm, h'⟩ := h.encloses.removePathAt_of_found ht₁ hremove hfits
    obtain ⟨later, hfile⟩ := Tracks.ok_of_calm Tracks.removePathAt hcalm
    have hlength' : rest'.parts.length = t₂.parts.length := by rw [hrest, hlength, hsame]
    rw [← hparts₂] at hvector
    obtain ⟨vector', hleft, hbytes⟩ :=
      StringTable.removeAt_of_remove ht₂ hremove' hlength' hvector
    have hmemory : removeAt vector 0 (Text.bytes path) = .ok (true, vector') := hleft
    rw [hfile, hmemory]
    refine .answered true (Carried.facing
      (h'.carried rfl ?_ (StringTable.sized_of_remove hsized₁ hremove) ?_ ?_ ?_))
    · rw [hrecord]
      rfl
    · rw [hrecord]
    · rw [hbytes, hrest, List.nil_append, List.append_nil]
    · rw [hrecord, StringTable.entries_of_remove hremove, hentries, ← h.counted]

end Lodges

theorem Passes.exists_lodges {settings : Settings} {shelf : Shelf} {lib : LibraryFile}
    {before after : List Record} {r : Record} (h : Passes settings shelf lib)
    (hsplit : shelf.records = before ++ r :: after) {vector : Image}
    (hvector : vector.toList = (r.playlist (offsetAfter before)).tableIn lib.contents.toList) :
    ∃ t values, Lodges settings shelf.volume (bodyOf before) r (bodyOf after) t values lib vector := by
  obtain ⟨values, hholds⟩ := h.holds r (by simp [hsplit])
  obtain ⟨t, -, hsized, hbytes, hordered⟩ := h.stores.exists_table hsplit hholds
  have hencloses := h.stores.encloses hsplit
  have htable : vector.toList = r.table := hvector.trans hencloses.tableIn_eq
  exact ⟨t, values, hencloses, hsized, hbytes.symm, hordered, hholds.counted,
    htable.trans hbytes.symm⟩

/-- Adding a path to a playlist, and taking one out, does to the record's table what it does to a
vector of the same bytes, and the record's length and count follow. An answer that the one gives and
the other does not is a refusal for want of space. -/
theorem record_follows_vector {lib : LibraryFile} {audit : Audit} (hverify : lib.verify = .ok audit)
    {playlists : List Playlist} (hplaylists : lib.playlists = .ok playlists) {p : Playlist}
    (hp : p ∈ playlists) {vector : Image} (hvector : vector.toList = p.tableIn lib.contents.toList)
    (path : String) :
    let added := addPathAt p.offset path lib
    let added' := StringTable.add Host.memory 0 (Text.bytes path) lib.settings.growthQuantum vector
    AddsAlike p path lib vector added added' ∧
    (∀ lib', added = .error (.refused (.pathExists path)) lib' ↔
      lib' = lib ∧ added' = .error (.refused .duplicate) vector) ∧
    (∀ lib', added = .error (.refused (.table .interiorNul)) lib' ↔
      lib' = lib ∧ added' = .error (.refused .interiorNul) vector) ∧
    RemovesAlike p lib (removePathAt p.offset path lib) (removeAt vector 0 (Text.bytes path)) := by
  intro added added'
  obtain ⟨shelf, hpasses⟩ := exists_passes_of_verify hverify
  obtain rfl := Except.ok.inj (hpasses.stores.playlists_eq.symm.trans hplaylists)
  obtain ⟨before, r, after, hsplit, rfl⟩ := exists_of_mem_playlistsFrom hpasses.stores.sized hp
  obtain ⟨t, values, hlodges⟩ := hpasses.exists_lodges hsplit hvector
  have hadds : AddsAlike (r.playlist (offsetAfter before)) path lib vector added added' :=
    hlodges.adds_alike path
  have hpresent : TableError.duplicate.kind = .validation := rfl
  have hnul : TableError.interiorNul.kind = .validation := rfl
  exact ⟨hadds, hadds.refused_iff hpresent, hadds.refused_iff hnul, hlodges.removes_alike path⟩

set_option maxRecDepth 4000 in
/-- The first of two playlists and a vector of its table's bytes take in the same path, and give it
back. -/
theorem record_follows_vector_first :
    let vector : Image := .ofBytes (StringTable.Header.encode ⟨StringTable.magic, 16, 16, 0⟩)
    ∃ lib' lib'' p'' vector' vector'', addPathAt 1024 "x" (claimingLibrary 16) = .ok () lib' ∧
      StringTable.add Host.memory 0 (Text.bytes "x") 128 vector = .ok () vector' ∧
      Carried ⟨1024, 144, 0, [97]⟩ ⟨1024, 272, 1, [97]⟩ vector' lib' ∧
      removePathAt 1024 "x" lib' = .ok true lib'' ∧
      removeAt vector' 0 (Text.bytes "x") = .ok (true, vector'') ∧
      Carried ⟨1024, 272, 1, [97]⟩ p'' vector'' lib'' := by
  intro vector
  have hplaylists : (claimingLibrary 16).playlists
      = .ok [⟨1024, 144, 0, [97]⟩, ⟨1168, 144, 0, [98]⟩] := by cbv
  have hvector : vector.toList
      = Playlist.tableIn (claimingLibrary 16).contents.toList ⟨1024, 144, 0, [97]⟩ := by cbv
  obtain ⟨lib', lib'', hadd, -, hverify, hmoved, hplaylist, hremove⟩ := exists_removed_claimingLibrary
  have hadds := (record_follows_vector verify_claimingLibrary hplaylists List.mem_cons_self hvector
    "x").1
  simp only [hadd] at hadds
  generalize hmemory : StringTable.add _ _ _ _ _ = added' at hadds
  cases hadds with
  | @stored p' _ vector' hcarried hroom =>
    obtain rfl := Except.ok.inj (hcarried.playlist.symm.trans hplaylist)
    have hremoves := (record_follows_vector hverify hmoved List.mem_cons_self hcarried.table.symm
      "x").2.2.2
    simp only [hremove] at hremoves
    generalize hmemory' : removeAt _ _ _ = removed' at hremoves
    cases hremoves with
    | answered _ hcarried' =>
      exact ⟨lib', lib'', _, vector', _, hadd, hmemory, hcarried, hremove, hmemory', hcarried'⟩

end LibraryFile
end MediaLibrary
