import MediaLibrary.Proofs.LibraryFile.Guarded
/-! What the walk through a library accepts, whatever its bytes are. Those behind the header are taken
apart into regions, each with the magic number of a playlist and with its own length in it; there is at
most one way to do so. The walk goes from each region to the next and ends at the end of the bytes, or
where no region begins. -/
namespace MediaLibrary.LibraryFile

/-- Bytes with the magic number and their own length where the header of a record has them. -/
structure Region (bytes : Bytes) : Prop where
  long : PlaylistHeader.minRecord ≤ bytes.length
  magic : PlaylistHeader.magicField.get? bytes = some PlaylistHeader.magicNumber
  length : PlaylistHeader.lengthField.get? bytes = some bytes.length

/-- The bytes behind the header are these regions, without gap or overlap. -/
structure Tiled (image : Image) (regions : List Bytes) : Prop where
  region : ∀ bytes ∈ regions, Region bytes
  bytes : image.toList.drop LibraryHeader.size = regions.flatten

/-- Behind the header are these regions, and behind them `rest`, which no region begins. -/
structure Met (image : Image) (regions : List Bytes) (rest : Bytes) : Prop where
  region : ∀ bytes ∈ regions, Region bytes
  bytes : image.toList.drop LibraryHeader.size = regions.flatten ++ rest
  ended : ∀ bytes after, Region bytes → rest ≠ bytes ++ after

def startsFrom (offset : Nat) : List Bytes → List Nat
  | [] => []
  | bytes :: rest => offset :: startsFrom (offset + bytes.length) rest

/-! Regions are the records that can be read. -/

section Regions

variable {bytes : Bytes} {r : Record}

theorem Region.of_record (hr : r.Sized) (hbelow : r.length < Word.limit) :
    Region r.encode ∧ PlaylistHeader.nameField.get? r.encode = some r.name := by
  have hlong : PlaylistHeader.size ≤ r.encode.length := by
    rw [hr.length_encode]
    exact Nat.le_add_right _ _
  obtain ⟨header, hheader, hmagic, hlength, -, hname⟩ := Guarded.exists_header hlong
  rw [Record.encode, ← hr.length_header, List.take_left, hr.decode_header hbelow] at hheader
  obtain rfl := Option.some.inj hheader
  refine ⟨⟨?_, hmagic, ?_⟩, hname⟩
  · rw [hr.length_encode]
    exact Nat.add_le_add_left hr.table _
  · rw [hlength, hr.length_encode]

theorem Region.exists_record (h : Region bytes) :
    ∃ r : Record, r.Sized ∧ r.length < Word.limit ∧ r.encode = bytes := by
  have hlong : PlaylistHeader.size ≤ bytes.length := Nat.le_trans (Nat.le_add_right _ _) h.long
  obtain ⟨header, hheader, hmagic, hlength, -, -⟩ := Guarded.exists_header hlong
  have hmagic : header.magic = PlaylistHeader.magicNumber :=
    Option.some.inj (hmagic.symm.trans h.magic)
  have hlength : header.length = bytes.length := Option.some.inj (hlength.symm.trans h.length)
  have hread : (Image.ofBytes bytes).read 0 PlaylistHeader.size = bytes.take PlaylistHeader.size := by
    rw [Image.toList_read, Image.toList_ofBytes, Bytes.slice, List.drop_zero]
  have hsound : Playlist.ofTail bytes.length 0 (.ofBytes bytes)
      = .ok ⟨0, header.length, header.count, header.name⟩ := by
    rw [Playlist.ofTail, hread, hheader]
    simp only [hmagic, hlength, ne_eq, not_true_eq_false, if_false, Nat.sub_zero, Nat.lt_irrefl,
      if_neg (Nat.not_lt.2 h.long)]
  obtain ⟨r, rest, hr, hbelow, hbytes, hp⟩ := Playlist.record_of_ofTail (by simp) hsound
  have hsame : r.length = bytes.length :=
    (congrArg Playlist.length hp).symm.trans hlength
  rw [Image.toList_ofBytes] at hbytes
  have hsum := congrArg List.length hbytes
  rw [List.length_append, hr.length_encode, hsame] at hsum
  have hnone : rest = [] := List.eq_nil_of_length_eq_zero (by omega)
  rw [hnone, List.append_nil] at hbytes
  exact ⟨r, hr, hbelow, hbytes.symm⟩

theorem Region.ne_nil (h : Region bytes) : bytes ≠ [] := by
  rintro rfl
  exact absurd h.long (by decide)

theorem Region.append_inj (h : Region bytes) {other rest rest' : Bytes} (hother : Region other)
    (heq : bytes ++ rest = other ++ rest') : bytes = other ∧ rest = rest' := by
  obtain ⟨r, hr, hbelow, rfl⟩ := h.exists_record
  obtain ⟨r', hr', hbelow', rfl⟩ := hother.exists_record
  obtain ⟨rfl, hrest⟩ := hr.encode_append_inj hr' hbelow hbelow' heq
  exact ⟨rfl, hrest⟩

end Regions

/-! There is one way to take the bytes apart. -/

section Tilings

variable {image : Image} {first second : List Bytes}

theorem Tiled.met (h : Tiled image first) : Met image first [] where
  region := h.region
  bytes := by rw [List.append_nil, h.bytes]
  ended bytes after hbytes heq := hbytes.ne_nil (List.append_eq_nil_iff.1 heq.symm).1

theorem Met.tiled (h : Met image first []) : Tiled image first where
  region := h.region
  bytes := by rw [h.bytes, List.append_nil]

theorem Met.unique {rest rest' : Bytes} (h : Met image first rest) (h' : Met image second rest') :
    first = second ∧ rest = rest' := by
  obtain ⟨hregion, hbytes, hended⟩ := h
  obtain ⟨hregion', hbytes', hended'⟩ := h'
  rw [hbytes] at hbytes'
  clear hbytes
  induction first generalizing second with
  | nil =>
    cases second with
    | nil => exact ⟨rfl, hbytes'⟩
    | cons other later =>
      rw [List.flatten_cons, List.append_assoc] at hbytes'
      exact absurd hbytes' (hended other _ (hregion' other List.mem_cons_self))
  | cons bytes later ih =>
    have hbytes := hregion bytes List.mem_cons_self
    rw [List.flatten_cons, List.append_assoc] at hbytes'
    cases second with
    | nil => exact absurd hbytes'.symm (hended' bytes _ hbytes)
    | cons other later' =>
      rw [List.flatten_cons, List.append_assoc] at hbytes'
      obtain ⟨rfl, hlater⟩ := hbytes.append_inj (hregion' other List.mem_cons_self) hbytes'
      obtain ⟨rfl, hrest⟩ := ih (fun x hx => hregion x (List.mem_cons_of_mem _ hx))
        (fun x hx => hregion' x (List.mem_cons_of_mem _ hx)) hlater
      exact ⟨rfl, hrest⟩

theorem startsFrom_ascending {regions : List Bytes} (h : ∀ bytes ∈ regions, Region bytes)
    (offset : Nat) :
    (∀ start ∈ startsFrom offset regions, offset ≤ start) ∧
      (startsFrom offset regions).Pairwise (· < ·) := by
  induction regions generalizing offset with
  | nil =>
    constructor
    · intro start hstart
      cases hstart
    · exact .nil
  | cons bytes rest ih =>
    obtain ⟨hbehind, hrest⟩ :=
      ih (fun x hx => h x (List.mem_cons_of_mem _ hx)) (offset + bytes.length)
    have hpos : 0 < bytes.length :=
      List.length_pos_iff.2 (h bytes List.mem_cons_self).ne_nil
    constructor
    · intro start hstart
      rcases List.mem_cons.1 hstart with rfl | hstart
      · exact Nat.le_refl _
      · exact Nat.le_trans (Nat.le_add_right _ _) (hbehind start hstart)
    · refine List.pairwise_cons.2 ⟨fun start hstart => ?_, hrest⟩
      exact Nat.lt_of_lt_of_le (Nat.lt_add_of_pos_right hpos) (hbehind start hstart)

end Tilings

/-! Loops over the records. -/

section Loops

variable {σ : Type} {lib : LibraryFile} {image : Image}

/-- A loop over the records behind `previous` comes to `answer`. Before each visit the library is asked
for the next record, until there is none, or a visit fails or says that it is the last. -/
inductive Loops (lib : LibraryFile) (visit : σ → Nat → Query (ForInStep σ)) :
    (previous : Option Nat) → (s : σ) → (answer : Query σ) → Prop where
  | damaged {previous : Option Nat} {s : σ} {e : Failure LibraryError}
      (hnext : lib.next previous = .error e) : Loops lib visit previous s (.error e)
  | finished {previous : Option Nat} {s : σ} (hnext : lib.next previous = .ok none) :
      Loops lib visit previous s (.ok s)
  | failed {previous : Option Nat} {s : σ} {offset : Nat} {e : Failure LibraryError}
      (hnext : lib.next previous = .ok (some offset)) (hvisit : visit s offset = .error e) :
      Loops lib visit previous s (.error e)
  | last {previous : Option Nat} {s s' : σ} {offset : Nat}
      (hnext : lib.next previous = .ok (some offset)) (hvisit : visit s offset = .ok (.done s')) :
      Loops lib visit previous s (.ok s')
  | onward {previous : Option Nat} {s s' : σ} {offset : Nat} {answer : Query σ}
      (hnext : lib.next previous = .ok (some offset)) (hvisit : visit s offset = .ok (.yield s'))
      (hrest : Loops lib visit (some offset) s' answer) : Loops lib visit previous s answer

/-- Every loop comes to an end, and to one answer: each record that it meets begins at a greater offset
within the bytes. -/
theorem loops_iff (hview : lib.view = .ok image) (visit : σ → Nat → Query (ForInStep σ))
    (previous : Option Nat) (s : σ) (answer : Query σ) :
    Loops lib visit previous s answer ↔
      answer = Guarded.visitFrom image.toList visit previous s := by
  have hsame : ∀ previous, Guarded.next image.toList previous = lib.next previous :=
    Guarded.next_eq hview
  constructor
  · intro h
    induction h with
    | damaged hnext => rw [Guarded.visitFrom_of_error ((hsame _).trans hnext)]
    | finished hnext => rw [Guarded.visitFrom_of_end ((hsame _).trans hnext)]
    | failed hnext hvisit => rw [Guarded.visitFrom_of_next ((hsame _).trans hnext), hvisit]
    | last hnext hvisit => rw [Guarded.visitFrom_of_next ((hsame _).trans hnext), hvisit]
    | onward hnext hvisit _ ih =>
      rw [Guarded.visitFrom_of_next ((hsame _).trans hnext), hvisit]
      exact ih
  · rintro rfl
    fun_induction Guarded.visitFrom image.toList visit previous s with
    | case1 previous s e hnext => exact .damaged ((hsame _).symm.trans hnext)
    | case2 previous s hnext => exact .finished ((hsame _).symm.trans hnext)
    | case3 previous s offset hnext _ e hvisit =>
      exact .failed ((hsame _).symm.trans hnext) hvisit
    | case4 previous s offset hnext _ s' hvisit =>
      exact .last ((hsame _).symm.trans hnext) hvisit
    | case5 previous s offset hnext _ s' hvisit ih =>
      exact .onward ((hsame _).symm.trans hnext) hvisit ih

/-- Puts the record behind those that were met. -/
def collect (before : List Nat) (offset : Nat) : Query (ForInStep (List Nat)) :=
  return .yield (before ++ [offset])

def recognize (image : Image) (name : String) (_ : Option Nat) (offset : Nat) :
    Query (ForInStep (Option Nat)) := do
  let named ← Failure.inBounds
    (PlaylistHeader.nameField.holds? (← Guarded.record image.toList offset) (Text.bytes name))
  if named then return .done (some offset) else return .yield none

end Loops

def handles (lib : LibraryFile) : Query (List Nat) := lib.playlists.map (·.map Playlist.offset)

def seek (lib : LibraryFile) (name : String) : Query (Option Nat) :=
  (lib.find name).map (·.map Playlist.offset)

/-- The walk through the mapped bytes of `image`. -/
structure Traverses (lib : LibraryFile) (image : Image) : Prop where
  handles_loop : ∀ answer, Loops lib collect none [] answer ↔ answer = lib.handles
  seek_loop : ∀ name answer, Loops lib (recognize image name) none none answer ↔
    answer = lib.seek name
  handles_iff : ∀ offsets, lib.handles = .ok offsets ↔
    ∃ regions, Tiled image regions ∧ offsets = startsFrom LibraryHeader.size regions
  unique : ∀ first second, Tiled image first → Tiled image second → first = second
  ascending : ∀ offsets, lib.handles = .ok offsets → offsets.Pairwise (· < ·)
  corrupt : (¬ ∃ regions, Tiled image regions) → ∃ damage, lib.handles = refuse (.corrupt damage)
  met : ∃ regions rest, Met image regions rest
  found : ∀ before region after rest name, Met image (before ++ region :: after) rest →
    PlaylistHeader.nameField.get? region = some (Text.bytes name) →
    (∀ other ∈ before, PlaylistHeader.nameField.get? other ≠ some (Text.bytes name)) →
    lib.seek name = .ok (some (LibraryHeader.size + before.flatten.length))
  missed : ∀ regions rest name, Met image regions rest →
    (∀ region ∈ regions, PlaylistHeader.nameField.get? region ≠ some (Text.bytes name)) →
    if rest = [] then lib.seek name = .ok none
    else ∃ damage, lib.seek name = refuse (.corrupt damage)

section Walks

variable {lib : LibraryFile} {image : Image}

theorem flatten_map_encode (records : List Record) :
    (records.map Record.encode).flatten = bodyOf records := List.flatMap_def.symm

theorem startsFrom_map_encode {records : List Record} (h : ∀ r ∈ records, r.Sized) (offset : Nat) :
    startsFrom offset (records.map Record.encode)
      = (playlistsFrom offset records).map Playlist.offset := by
  induction records generalizing offset with
  | nil => rfl
  | cons r rest ih =>
    rw [List.map_cons, startsFrom, (h r List.mem_cons_self).length_encode,
      ih fun x hx => h x (List.mem_cons_of_mem _ hx), playlistsFrom, List.map_cons]
    rfl

/-- The walk meets `records`, and behind them `rest`; the readers answer accordingly. -/
structure Walked (lib : LibraryFile) (image : Image) (records : List Record) (rest : Bytes) :
    Prop where
  readable : ∀ r ∈ records, r.Sized ∧ r.length < Word.limit
  met : Met image (records.map Record.encode) rest
  handles : if rest = [] then
      lib.handles = .ok (startsFrom LibraryHeader.size (records.map Record.encode))
    else ∃ damage, lib.handles = refuse (.corrupt damage)
  present : ∀ name p, (playlistsFrom LibraryHeader.size records).find? (·.name = Text.bytes name)
    = some p → lib.seek name = .ok (some p.offset)
  absent : ∀ name, (playlistsFrom LibraryHeader.size records).find? (·.name = Text.bytes name) = none →
    if rest = [] then lib.seek name = .ok none else ∃ damage, lib.seek name = refuse (.corrupt damage)

theorem exists_walked (hview : lib.view = .ok image) (hsize : LibraryHeader.size ≤ image.size) :
    ∃ records rest, Walked lib image records rest := by
  have hwhole : LibraryHeader.size + (image.drop LibraryHeader.size).size = image.size := by
    rw [← Image.length_toList, Image.toList_drop, List.length_drop, Image.length_toList]
    omega
  obtain ⟨records, rest, hrecords, hbytes, hplaylists, hdamage, hend⟩ := walk_cases hwhole
  have hwalk : lib.walk = .ok (Walk.ofTail image.size LibraryHeader.size
      (image.drop LibraryHeader.size)) := Guarded.walk_eq hview
  generalize Walk.ofTail image.size LibraryHeader.size (image.drop LibraryHeader.size) = walk
    at hplaylists hdamage hwalk
  obtain ⟨playlists, damage⟩ := walk
  obtain rfl : playlists = playlistsFrom LibraryHeader.size records := hplaylists
  refine ⟨records, rest, hrecords, ⟨?_, ?_, ?_⟩, ?_, ?_, ?_⟩
  · intro bytes hbytes
    obtain ⟨r, hr, rfl⟩ := List.mem_map.1 hbytes
    obtain ⟨hsized, hbelow⟩ := hrecords r hr
    exact (Region.of_record hsized hbelow).1
  · rw [flatten_map_encode, ← Image.toList_drop, hbytes]
  · intro bytes after hregion heq
    obtain ⟨r, hr, hbelow, rfl⟩ := hregion.exists_record
    exact hend r after hr hbelow heq
  · rw [startsFrom_map_encode fun r hr => (hrecords r hr).1, LibraryFile.handles,
      LibraryFile.playlists, Steps.query_ok hwalk]
    cases damage with
    | none =>
      rw [if_pos (hdamage.1 rfl)]
      rfl
    | some damage =>
      rw [if_neg fun hempty => Option.some_ne_none damage (hdamage.2 hempty)]
      exact ⟨damage, rfl⟩
  · intro name p hp
    rw [seek, LibraryFile.find, Steps.query_ok hwalk]
    simp only [hp]
    rfl
  · intro name hnone
    rw [seek, LibraryFile.find, Steps.query_ok hwalk]
    simp only [hnone]
    cases damage with
    | none =>
      rw [if_pos (hdamage.1 rfl)]
      rfl
    | some damage =>
      rw [if_neg fun hempty => Option.some_ne_none damage (hdamage.2 hempty)]
      exact ⟨damage, rfl⟩

namespace Walked

variable {records : List Record} {rest : Bytes}

theorem handles_iff (h : Walked lib image records rest) (offsets : List Nat) :
    lib.handles = .ok offsets ↔
      ∃ regions, Tiled image regions ∧ offsets = startsFrom LibraryHeader.size regions := by
  have hhandles := h.handles
  constructor
  · intro hok
    by_cases hempty : rest = []
    · rw [if_pos hempty] at hhandles
      exact ⟨_, (hempty ▸ h.met).tiled, Except.ok.inj (hok.symm.trans hhandles)⟩
    · rw [if_neg hempty] at hhandles
      obtain ⟨damage, hrefused⟩ := hhandles
      rw [hok] at hrefused
      cases hrefused
  · rintro ⟨regions, htiled, rfl⟩
    obtain ⟨rfl, rfl⟩ := htiled.met.unique h.met
    rwa [if_pos rfl] at hhandles

theorem corrupt (h : Walked lib image records rest) (hnone : ¬ ∃ regions, Tiled image regions) :
    ∃ damage, lib.handles = refuse (.corrupt damage) := by
  have hhandles := h.handles
  by_cases hempty : rest = []
  · exact absurd ⟨_, (hempty ▸ h.met).tiled⟩ hnone
  · rwa [if_neg hempty] at hhandles

theorem not_mem_names (h : Walked lib image records rest) {others : List Record}
    (hothers : ∀ r ∈ others, r ∈ records) {name : Bytes}
    (hne : ∀ other ∈ others.map Record.encode, PlaylistHeader.nameField.get? other ≠ some name) :
    name ∉ others.map Record.name := by
  intro hmem
  obtain ⟨r, hr, rfl⟩ := List.mem_map.1 hmem
  obtain ⟨hsized, hbelow⟩ := h.readable r (hothers r hr)
  exact hne _ (List.mem_map_of_mem hr) (Region.of_record hsized hbelow).2

theorem found (h : Walked lib image records rest) {before after : List Bytes} {region left : Bytes}
    {name : String} (hmet : Met image (before ++ region :: after) left)
    (hname : PlaylistHeader.nameField.get? region = some (Text.bytes name))
    (hfirst : ∀ other ∈ before, PlaylistHeader.nameField.get? other ≠ some (Text.bytes name)) :
    lib.seek name = .ok (some (LibraryHeader.size + before.flatten.length)) := by
  obtain ⟨hsame, -⟩ := h.met.unique hmet
  obtain ⟨earlier, others, rfl, rfl, hothers⟩ := List.map_eq_append_iff.1 hsame
  obtain ⟨r, later, rfl, rfl, rfl⟩ := List.map_eq_cons_iff.1 hothers
  obtain ⟨hsized, hbelow⟩ := h.readable r (by simp)
  have hr : r.name = Text.bytes name :=
    Option.some.inj ((Region.of_record hsized hbelow).2.symm.trans hname)
  have hbefore : Text.bytes name ∉ earlier.map Record.name :=
    h.not_mem_names (fun x hx => by simp [hx]) hfirst
  have hearlier : ∀ x ∈ earlier, x.Sized := fun x hx => (h.readable x (by simp [hx])).1
  have hfound : (playlistsFrom LibraryHeader.size (earlier ++ r :: later)).find?
      (·.name = Text.bytes name) = some _ :=
    find?_playlistsFrom_present hearlier hbefore hr LibraryHeader.size
  rw [h.present name _ hfound, flatten_map_encode]
  rfl

theorem missed (h : Walked lib image records rest) {regions : List Bytes} {left : Bytes}
    {name : String} (hmet : Met image regions left)
    (hnone : ∀ region ∈ regions, PlaylistHeader.nameField.get? region ≠ some (Text.bytes name)) :
    if left = [] then lib.seek name = .ok none
    else ∃ damage, lib.seek name = refuse (.corrupt damage) := by
  obtain ⟨rfl, rfl⟩ := h.met.unique hmet
  have hnew := h.not_mem_names (fun x hx => hx) hnone
  exact h.absent name (find?_playlistsFrom_absent hnew LibraryHeader.size)

end Walked

/-- Whatever the mapped bytes are, as long as there is a header, the walk through the records comes to
an end. It meets the regions of the one tiling of the bytes behind the header, in ascending order, or
else damage; and the first playlist of a name is the first region of that name, if damage is not met
before it. -/
theorem traverses_of_view (hview : lib.view = .ok image)
    (hsize : LibraryHeader.size ≤ image.size) : Traverses lib image := by
  obtain ⟨records, rest, hwalked⟩ := exists_walked hview hsize
  constructor
  · intro answer
    rw [loops_iff hview, handles, ← Guarded.handles_eq hview]
    rfl
  · intro name answer
    rw [loops_iff hview, seek, ← Guarded.find_eq hview]
    rfl
  · exact hwalked.handles_iff
  · intro first second hfirst hsecond
    exact (hfirst.met.unique hsecond.met).1
  · intro offsets hok
    obtain ⟨regions, htiled, rfl⟩ := (hwalked.handles_iff offsets).1 hok
    exact (startsFrom_ascending htiled.region _).2
  · exact hwalked.corrupt
  · exact ⟨_, _, hwalked.met⟩
  · intro before region after left name hmet hname hfirst
    exact hwalked.found hmet hname hfirst
  · intro regions left name hmet hnone
    exact hwalked.missed hmet hnone

end Walks

set_option maxRecDepth 4000 in
/-- A header of zero bytes and one record: the loop through the records meets the one region. -/
theorem traverses_of_view_stray : ∃ image, strayLibrary.view = .ok image ∧
    Loops strayLibrary collect none [] (.ok [1024]) ∧
    ∃ regions, Tiled image regions ∧ [1024] = startsFrom LibraryHeader.size regions := by
  have hview : strayLibrary.view = .ok (strayLibrary.contents.resize 1174) := rfl
  have hhandles : strayLibrary.handles = .ok [1024] := by cbv
  have htraverses := traverses_of_view hview (by rw [Image.size_resize]; decide)
  refine ⟨_, hview, ?_, (htraverses.handles_iff _).1 hhandles⟩
  exact (htraverses.handles_loop _).2 hhandles.symm

end MediaLibrary.LibraryFile
