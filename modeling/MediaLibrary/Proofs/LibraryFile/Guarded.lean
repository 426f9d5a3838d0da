import Mathlib
import MediaLibrary.Proofs.LibraryFile.Grammar
import MediaLibrary.Proofs.StringTable.Guarded
/-! Reading a library from its mapped bytes, each access and each subtraction being checked as for
string tables. Whatever the bytes and the offsets are, no check fails: a reader answers or finds
damage. A walk through the records ends since each step leads to a greater offset within the bytes. -/
namespace MediaLibrary.LibraryFile

namespace Guarded

/-- What decides whether a name is among those that were met. -/
local instance : LawfulBEq Bytes := inferInstance

/-! The records. -/

/-- The length of the record at `offset`, which may be any number; sums do not wrap around. -/
def checkRecord (view : Bytes) (offset : Nat) : Query Nat :=
  if offset < LibraryHeader.size ∨ view.length < offset + PlaylistHeader.size then
    refuse (.corrupt (.headerOverrun offset view.length))
  else do
    let record ← Bytes.between view offset view.length
    let magic ← Failure.inBounds (PlaylistHeader.magicField.get? record)
    if magic ≠ PlaylistHeader.magicNumber then refuse (.corrupt (.badPlaylistMagic magic offset))
    else
      let length ← Failure.inBounds (PlaylistHeader.lengthField.get? record)
      if length < PlaylistHeader.minRecord then refuse (.corrupt (.playlistTooShort offset length))
      else if record.length < length then refuse (.corrupt (.playlistOverrun offset length))
      else return length

def record (view : Bytes) (offset : Nat) : Query Bytes := do
  Bytes.between view offset (offset + (← checkRecord view offset))

def ofTable {α : Type} (reading : StringTable.Guarded.Reading α) : Query α :=
  reading.mapError (Failure.map (.corrupt <| .table ·))

def table (view : Bytes) (offset : Nat) : Query Bytes := do
  let record ← record view offset
  ofTable (StringTable.Guarded.view (← Bytes.between record PlaylistHeader.size record.length))

/-- Where the record at `previous` ends, or the header if there is none. -/
def stopOf (view : Bytes) : (previous : Option Nat) → Query Nat
  | none => .ok LibraryHeader.size
  | some offset => do return offset + (← checkRecord view offset)

/-- The record after the one at `previous`, or the first. There is none at the end. -/
def next (view : Bytes) (previous : Option Nat) : Query (Option Nat) := do
  let start ← stopOf view previous
  if view.length ≤ start then return none
  else
    let _ ← checkRecord view start
    return some start

/-- How far a walk has come that met a record at `previous`. -/
def reached : (previous : Option Nat) → Nat
  | none => 0
  | some offset => offset + 1

theorem checkRecord_pos {view : Bytes} {offset length : Nat}
    (h : checkRecord view offset = .ok length) : 0 < length := by
  unfold checkRecord at h
  split at h
  · cases h
  obtain ⟨record, -, h⟩ := Steps.query_eq_ok_iff.1 h
  obtain ⟨magic, -, h⟩ := Steps.query_eq_ok_iff.1 h
  split at h
  · cases h
  obtain ⟨n, -, h⟩ := Steps.query_eq_ok_iff.1 h
  split at h
  · cases h
  split at h
  · cases h
  rename_i hmin _
  obtain rfl := Except.ok.inj h
  exact Nat.lt_of_lt_of_le (by decide) (Nat.not_lt.1 hmin)

theorem reached_le_of_next {view : Bytes} {previous : Option Nat} {offset : Nat}
    (h : next view previous = .ok (some offset)) :
    reached previous ≤ offset ∧ offset < view.length := by
  obtain ⟨start, hstart, h⟩ := Steps.query_eq_ok_iff.1 h
  by_cases hend : view.length ≤ start
  · rw [if_pos hend] at h
    cases h
  rw [if_neg hend] at h
  obtain ⟨length, -, h⟩ := Steps.query_eq_ok_iff.1 h
  obtain rfl : start = offset := Option.some.inj (Except.ok.inj h)
  refine ⟨?_, Nat.not_le.1 hend⟩
  cases previous with
  | none => exact Nat.zero_le _
  | some offset =>
    obtain ⟨length, hlength, hsum⟩ := Steps.query_eq_ok_iff.1 hstart
    obtain rfl := Except.ok.inj hsum
    exact Nat.add_le_add_left (checkRecord_pos hlength) _

/-- Visits the records after `previous` one by one, until the end of the bytes or until a visit is
the last. -/
def visitFrom {σ : Type} (view : Bytes) (visit : σ → Nat → Query (ForInStep σ))
    (previous : Option Nat) (s : σ) : Query σ :=
  match found : next view previous with
  | .error e => .error e
  | .ok none => .ok s
  | .ok (some offset) =>
    have := reached_le_of_next found
    match visit s offset with
    | .error e => .error e
    | .ok (.done s) => .ok s
    | .ok (.yield s) => visitFrom view visit (some offset) s
termination_by view.length - reached previous
decreasing_by
  show view.length - (offset + 1) < view.length - reached previous
  omega

/-! The readers. -/

def handles (view : Bytes) : Query (List Nat) :=
  visitFrom view (fun before offset => return .yield (before ++ [offset])) none []

def find (view : Bytes) (name : String) : Query (Option Nat) :=
  visitFrom view (fun _ offset => do
    let named ← Failure.inBounds
      (PlaylistHeader.nameField.holds? (← record view offset) (Text.bytes name))
    if named then return .done (some offset) else return .yield none) none none

def info (view : Bytes) (offset : Nat) : Query PlaylistInfo := do
  let record ← record view offset
  let name ← Failure.inBounds (PlaylistHeader.nameField.get? record)
  let count ← Failure.inBounds (PlaylistHeader.countField.get? record)
  return ⟨Text.lossy name, count, record.length⟩

def findPath (view : Bytes) (offset : Nat) (path : String) : Query (Option Nat) := do
  ofTable (StringTable.Guarded.find (← table view offset) (Text.bytes path))

def pathAt (view : Bytes) (offset n : Nat) : Query (Option String) := do
  ofTable (StringTable.Guarded.ordinal (← table view offset) n)

def paths (view : Bytes) (offset : Nat) : Query (List String) := do
  ofTable (StringTable.Guarded.texts (← table view offset))

/-- Checks the record at `offset`, also against those before it, and counts it in. -/
def checkNext (globalPlaylist view : Bytes) (tally : Tally) (offset : Nat) :
    Query (ForInStep Tally) := do
  let record ← record view offset
  let table ← table view offset
  let length ← ofTable (StringTable.Guarded.length table)
  if PlaylistHeader.size + length ≠ record.length then
    refuse (.corrupt (.tableNotFilling length offset))
  else
    let count ← Failure.inBounds (PlaylistHeader.countField.get? record)
    let entries ← ofTable (StringTable.Guarded.entries table)
    if count ≠ entries then refuse (.corrupt (.miscounted offset count entries))
    else
      ofTable (StringTable.Guarded.checkOrder table)
      let name ← Failure.inBounds (PlaylistHeader.nameField.get? record)
      if name ∈ tally.names then refuse (.corrupt (.duplicateName name))
      else return .yield {
        covered := tally.covered + record.length
        playlists := tally.playlists + 1
        paths := tally.paths + count
        names := name :: tally.names
        globalCount := if name = globalPlaylist then some count else tally.globalCount }

/-- The full check of the bytes, given the size of the file. -/
def verify (view : Bytes) (globalPlaylist : String) (fileSize : Nat) : Query Audit := do
  let magic ← Failure.inBounds (LibraryHeader.magicField.get? view)
  if magic ≠ LibraryHeader.magicNumber then refuse (.corrupt .badMagic)
  else
    let length ← Failure.inBounds (LibraryHeader.lengthField.get? view)
    if length ≠ view.length ∨ length ≠ fileSize then
      refuse (.corrupt (.lengthsDisagree length view.length fileSize))
    else
      let tally ← visitFrom view (checkNext (Text.bytes globalPlaylist) view) none Tally.empty
      if tally.covered ≠ length then refuse (.corrupt (.uncovered tally.covered length))
      else
        let mediaCount ← Failure.inBounds (LibraryHeader.mediaCountField.get? view)
        if mediaCount ≠ tally.globalCount.getD 0 then
          refuse (.corrupt (.mediaMiscounted mediaCount globalPlaylist))
        else return ⟨length, tally.playlists, tally.paths⟩

/-! What is read where the bytes are those of an image. -/

theorem exists_header {tail : Bytes} (h : PlaylistHeader.size ≤ tail.length) :
    ∃ header : PlaylistHeader, PlaylistHeader.decode? (tail.take PlaylistHeader.size) = some header ∧
      PlaylistHeader.magicField.get? tail = some header.magic ∧
      PlaylistHeader.lengthField.get? tail = some header.length ∧
      PlaylistHeader.countField.get? tail = some header.count ∧
      PlaylistHeader.nameField.get? tail = some header.name := by
  have hfield {f : WordField} (hf : f.stop ≤ PlaylistHeader.size) : ∃ n,
      f.get? tail = some n ∧ f.get? (tail.take PlaylistHeader.size) = some n := by
    obtain ⟨n, hn⟩ := WordField.exists_get? (Nat.le_trans hf h)
    exact ⟨n, hn, by rw [WordField.get?_take hf, hn]⟩
  obtain ⟨m, hm, hm'⟩ := hfield (f := PlaylistHeader.magicField) (by decide)
  obtain ⟨l, hl, hl'⟩ := hfield (f := PlaylistHeader.lengthField) (by decide)
  obtain ⟨c, hc, hc'⟩ := hfield (f := PlaylistHeader.countField) (by decide)
  obtain ⟨name, hname⟩ := NameField.exists_get? (f := PlaylistHeader.nameField) h
  have hname' : PlaylistHeader.nameField.get? (tail.take PlaylistHeader.size) = some name :=
    (NameField.get?_take (by decide) tail).trans hname
  refine ⟨⟨m, l, c, name⟩, ?_, hm, hl, hc, hname⟩
  rw [PlaylistHeader.decode?, hm', hl', hc', hname']
  rfl

section Records

variable {image : Image} {p : Playlist} {offset : Nat}

theorem checkRecord_eq (image : Image) (offset : Nat) : checkRecord image.toList offset
    = Query.ofCheck ((Playlist.readAt image offset).map Playlist.length) := by
  have hread : (image.drop offset).read 0 PlaylistHeader.size
      = (image.toList.drop offset).take PlaylistHeader.size := by
    rw [Image.toList_read, Image.toList_drop, Bytes.slice, List.drop_zero]
  rw [checkRecord, Playlist.readAt, Image.length_toList]
  by_cases hlow : offset < LibraryHeader.size
  · rw [if_pos (Or.inl hlow), if_pos hlow]
    rfl
  rw [if_neg hlow, Playlist.ofTail, hread]
  by_cases hshort : image.size < offset + PlaylistHeader.size
  · have hnone :
        PlaylistHeader.decode? ((image.toList.drop offset).take PlaylistHeader.size) = none := by
      cases hheader :
          PlaylistHeader.decode? ((image.toList.drop offset).take PlaylistHeader.size) with
      | none => rfl
      | some header =>
        have hlen := PlaylistHeader.length_of_decode hheader
        rw [List.length_take, List.length_drop, Image.length_toList] at hlen
        unfold PlaylistHeader.size at hlen hshort
        omega
    rw [if_pos (Or.inr hshort), hnone]
    rfl
  have htail : (image.toList.drop offset).length = image.size - offset := by
    rw [List.length_drop, Image.length_toList]
  obtain ⟨header, hheader, hmagic, hlength, -, -⟩ :=
    exists_header (show PlaylistHeader.size ≤ (image.toList.drop offset).length by omega)
  have hrecord : Bytes.between image.toList offset image.size
      = (.ok (image.toList.drop offset) : Query Bytes) := by
    rw [Bytes.between_eq (by omega) (by rw [Image.length_toList]), ← Image.length_toList,
      Bytes.slice_to_end]
  have hmagic' : (Failure.inBounds (PlaylistHeader.magicField.get? (image.toList.drop offset)) :
      Query Nat) = .ok header.magic := by
    rw [hmagic]
    rfl
  have hlength' : (Failure.inBounds (PlaylistHeader.lengthField.get? (image.toList.drop offset)) :
      Query Nat) = .ok header.length := by
    rw [hlength]
    rfl
  rw [if_neg (not_or.2 ⟨hlow, hshort⟩), Steps.query_ok hrecord, Steps.query_ok hmagic', hheader]
  by_cases hnumber : header.magic ≠ PlaylistHeader.magicNumber
  · simp only [if_pos hnumber]
    rfl
  simp only [if_neg hnumber]
  rw [Steps.query_ok hlength', htail]
  by_cases hmin : header.length < PlaylistHeader.minRecord
  · rw [if_pos hmin, if_pos hmin]
    rfl
  rw [if_neg hmin, if_neg hmin]
  by_cases hover : image.size - offset < header.length
  · rw [if_pos hover, if_pos hover]
    rfl
  · rw [if_neg hover, if_neg hover]
    rfl

/-- A sound record lies within the bytes, and these are what is read of it. -/
structure Located (image : Image) (p : Playlist) (record : Bytes) : Prop where
  inside : LibraryHeader.size ≤ p.offset
  split : ∃ before after, image.toList = before ++ record ++ after ∧ before.length = p.offset
  length_eq : record.length = p.length
  long : PlaylistHeader.minRecord ≤ p.length
  count_eq : PlaylistHeader.countField.get? record = some p.count
  name_eq : PlaylistHeader.nameField.get? record = some p.name

theorem located_of_readAt (h : Playlist.readAt image offset = .ok p) :
    p.offset = offset ∧ ∃ record, Located image p record := by
  unfold Playlist.readAt at h
  split at h
  · cases h
  rename_i hlow
  have hlong := Playlist.size_le_of_ofTail h
  have hmin := Playlist.minRecord_le_of_ofTail h
  rw [← Image.length_toList, Image.toList_drop] at hlong
  obtain ⟨header, hheader, -, -, hcount, hname⟩ := exists_header hlong
  have hread : (image.drop offset).read 0 PlaylistHeader.size
      = (image.toList.drop offset).take PlaylistHeader.size := by
    rw [Image.toList_read, Image.toList_drop, Bytes.slice, List.drop_zero]
  rw [Playlist.ofTail, hread, hheader] at h
  simp only at h
  split at h
  · cases h
  split at h
  · cases h
  split at h
  · cases h
  rename_i hfits
  obtain rfl := Except.ok.inj h
  rw [List.length_drop, Image.length_toList] at hlong
  have hwide : PlaylistHeader.size ≤ header.length :=
    Nat.le_trans (Nat.le_add_right _ _) hmin
  refine ⟨rfl, (image.toList.drop offset).take header.length, Nat.not_lt.1 hlow,
    ⟨image.toList.take offset, (image.toList.drop offset).drop header.length, ?_, ?_⟩, ?_, hmin,
    ?_, ?_⟩
  · rw [List.append_assoc, List.take_append_drop, List.take_append_drop]
  · have hinside : offset ≤ image.size := by
      unfold PlaylistHeader.size at hlong
      omega
    rw [List.length_take, Image.length_toList]
    exact Nat.min_eq_left hinside
  · rw [List.length_take, List.length_drop, Image.length_toList]
    exact Nat.min_eq_left (Nat.not_lt.1 hfits)
  · rw [WordField.get?_take (Nat.le_trans (by decide) hwide), hcount]
  · rw [NameField.get?_take (Nat.le_trans (by decide) hwide), hname]

theorem record_eq (h : Playlist.readAt image offset = .ok p) {bytes : Bytes}
    (hl : Located image p bytes) : record image.toList offset = .ok bytes := by
  obtain ⟨rfl, -⟩ := located_of_readAt h
  obtain ⟨before, after, hsplit, hstart⟩ := hl.split
  have hcheck : checkRecord image.toList p.offset = .ok p.length := by
    rw [checkRecord_eq, h]
    rfl
  rw [record, Steps.query_ok hcheck, hsplit, ← hstart, ← hl.length_eq]
  exact Bytes.between_middle before bytes after

theorem record_error {damage : Damage} (h : Playlist.readAt image offset = .error damage) :
    record image.toList offset = refuse (.corrupt damage) := by
  rw [record, checkRecord_eq, h]
  rfl

theorem between_record {bytes : Bytes} (hl : Located image p bytes) :
    Bytes.between bytes PlaylistHeader.size bytes.length
      = (.ok (p.tableImage image).toList : Query Bytes) := by
  obtain ⟨before, after, hsplit, hstart⟩ := hl.split
  have hwide : PlaylistHeader.size ≤ bytes.length := by
    rw [hl.length_eq]
    exact Nat.le_trans (Nat.le_add_right _ _) hl.long
  have htable : (p.tableImage image).toList = bytes.drop PlaylistHeader.size := by
    rw [Playlist.tableImage, Image.toList_slice, Playlist.tableOffset, ← hl.length_eq, hsplit,
      ← hstart, List.append_assoc, Bytes.slice_append_right,
      Bytes.slice_append_left after (by omega), Bytes.slice_to_end]
  rw [Bytes.between_eq hwide (Nat.le_refl _), Bytes.slice_to_end, htable]

theorem ofTable_ofCheck {α : Type} (x : Except TableDamage α) :
    ofTable (Failure.ofCheck id x) = Query.ofTable x := by
  cases x <;> rfl

theorem table_of_readAt (h : Playlist.readAt image offset = .ok p) : table image.toList offset
    = Query.ofTable ((StringTable.decode (p.tableImage image)).map fun t => t.parts.encode) := by
  obtain ⟨-, bytes, hl⟩ := located_of_readAt h
  rw [table, Steps.query_ok (record_eq h hl), Steps.query_ok (between_record hl),
    StringTable.Guarded.view_eq, ofTable_ofCheck]

theorem table_eq {lib : LibraryFile} (hview : lib.view = .ok image) (offset : Nat) :
    table image.toList offset = (lib.tableOf offset).map fun t => t.parts.encode := by
  rw [tableOf, playlistAt, Steps.query_ok hview]
  cases hread : Playlist.readAt image offset with
  | error damage =>
    rw [table, record_error hread]
    rfl
  | ok p =>
    have hplaylist : Query.ofCheck (.ok p) = .ok p := rfl
    rw [table_of_readAt hread, Steps.query_ok hplaylist, Steps.query_ok hview]
    cases StringTable.decode (p.tableImage image) <;> rfl

theorem sized_of_tableOf {lib : LibraryFile} {t : StringTable} (h : lib.tableOf offset = .ok t) :
    t.parts.Sized := by
  obtain ⟨p, -, h⟩ := Steps.query_eq_ok_iff.1 h
  obtain ⟨view, -, h⟩ := Steps.query_eq_ok_iff.1 h
  exact (StringTable.encode_of_decode (Steps.ofCheck_eq_ok_iff.1 h)).1

theorem stopOf_eq {lib : LibraryFile} (hview : lib.view = .ok image) (offset : Nat) :
    stopOf image.toList (some offset) = (lib.playlistAt offset).map (offset + ·.length) := by
  rw [stopOf, checkRecord_eq, playlistAt, Steps.query_ok hview]
  cases Playlist.readAt image offset <;> rfl

theorem next_eq {lib : LibraryFile} (hview : lib.view = .ok image) (previous : Option Nat) :
    next image.toList previous = lib.next previous := by
  have hrest (start : Nat) :
      (if image.toList.length ≤ start then return none
        else do
          let _ ← checkRecord image.toList start
          return some start : Query (Option Nat))
        = (do
          if (← lib.view).size ≤ start then return none
          else return some (← lib.playlistAt start).offset) := by
    rw [Steps.query_ok hview, Image.length_toList, checkRecord_eq, playlistAt, Steps.query_ok hview]
    split
    · rfl
    · cases hread : Playlist.readAt image start with
      | error damage => rfl
      | ok p =>
        obtain ⟨rfl, -⟩ := located_of_readAt hread
        rfl
  cases previous with
  | none => exact hrest _
  | some offset =>
    rw [next, stopOf_eq hview, LibraryFile.next]
    cases lib.playlistAt offset with
    | error e => rfl
    | ok p => exact hrest _

end Records

/-! Walks. -/

section Walks

variable {σ : Type} {image : Image} {visit : σ → Nat → Query (ForInStep σ)}

theorem visitFrom_of_error {view : Bytes} {previous : Option Nat} {e : Failure LibraryError}
    (h : next view previous = .error e) (s : σ) :
    visitFrom view visit previous s = .error e := by
  rw [visitFrom]
  split <;> simp_all

theorem visitFrom_of_end {view : Bytes} {previous : Option Nat} (h : next view previous = .ok none)
    (s : σ) : visitFrom view visit previous s = .ok s := by
  rw [visitFrom]
  split <;> simp_all

theorem visitFrom_of_next {view : Bytes} {previous : Option Nat} {offset : Nat}
    (h : next view previous = .ok (some offset)) (s : σ) :
    visitFrom view visit previous s = match visit s offset with
      | .error e => .error e
      | .ok (.done s) => .ok s
      | .ok (.yield s) => visitFrom view visit (some offset) s := by
  rw [visitFrom]
  split <;> simp_all

/-- Visits the playlists of a walk, and meets the damage that ended it. -/
def follow (visit : σ → Playlist → Query (ForInStep σ)) (damage : Option Damage) :
    List Playlist → σ → Query σ
  | [], s => match damage with
    | some damage => refuse (.corrupt damage)
    | none => .ok s
  | p :: rest, s => match visit s p with
    | .error e => .error e
    | .ok (.done s) => .ok s
    | .ok (.yield s) => follow visit damage rest s

section Follow

variable {visit : σ → Playlist → Query (ForInStep σ)} {p : Playlist} {s s' : σ}

theorem follow_error {e : Failure LibraryError} (h : visit s p = .error e)
    (damage : Option Damage) (rest : List Playlist) :
    follow visit damage (p :: rest) s = .error e := by
  rw [follow, h]

theorem follow_done (h : visit s p = .ok (.done s')) (damage : Option Damage)
    (rest : List Playlist) : follow visit damage (p :: rest) s = .ok s' := by
  rw [follow, h]

theorem follow_yield (h : visit s p = .ok (.yield s')) (damage : Option Damage)
    (rest : List Playlist) :
    follow visit damage (p :: rest) s = follow visit damage rest s' := by
  rw [follow, h]

end Follow

/-- The record after `previous` begins at `start`, if there is one. -/
inductive Resumes (image : Image) : (previous : Option Nat) → (start : Nat) → Prop
  | first : Resumes image none LibraryHeader.size
  | after {offset : Nat} {p : Playlist} (h : Playlist.readAt image offset = .ok p) :
    Resumes image (some offset) (offset + p.length)

theorem Resumes.le {previous : Option Nat} {start : Nat} (h : Resumes image previous start) :
    LibraryHeader.size ≤ start := by
  cases h with
  | first => exact Nat.le_refl _
  | after h =>
    obtain ⟨rfl, record, hl⟩ := located_of_readAt h
    exact Nat.le_trans hl.inside (Nat.le_add_right _ _)

theorem Resumes.stopOf_eq {previous : Option Nat} {start : Nat} (h : Resumes image previous start) :
    stopOf image.toList previous = .ok start := by
  cases h with
  | first => rfl
  | after h =>
    rw [stopOf, checkRecord_eq, h]
    rfl

/-- Visiting record by record goes through the walk from the same place on. -/
theorem visitFrom_eq {visit' : σ → Playlist → Query (ForInStep σ)}
    (hvisit : ∀ s p, Playlist.readAt image p.offset = .ok p → visit s p.offset = visit' s p)
    {previous : Option Nat} {start : Nat} (h : Resumes image previous start) (s : σ) :
    visitFrom image.toList visit previous s
      = follow visit' (Walk.ofImage image start).damage (Walk.ofImage image start).playlists s := by
  induction hleft : image.size - start using Nat.strongRecOn generalizing previous start s with
  | ind left ih =>
    by_cases hend : image.size ≤ start
    · have hnext : next image.toList previous = .ok none := by
        rw [next, Steps.query_ok h.stopOf_eq, Image.length_toList, if_pos hend]
        rfl
      rw [visitFrom_of_end hnext, Walk.ofImage, Walk.ofTail_of_le hend]
      rfl
    have hhead : ¬ start < LibraryHeader.size := Nat.not_lt.2 h.le
    have hnext : next image.toList previous
        = (Query.ofCheck (Playlist.readAt image start)).map fun _ => some start := by
      rw [next, Steps.query_ok h.stopOf_eq, Image.length_toList, if_neg hend, checkRecord_eq]
      cases Playlist.readAt image start <;> rfl
    cases hread : Playlist.readAt image start with
    | error damage =>
      rw [hread] at hnext
      have htail := hread
      rw [Playlist.readAt, if_neg hhead] at htail
      rw [visitFrom_of_error hnext, Walk.ofImage, Walk.ofTail_of_error (Nat.not_le.1 hend) htail]
      rfl
    | ok p =>
      rw [hread] at hnext
      obtain ⟨rfl, record, hl⟩ := located_of_readAt hread
      have hpos : 0 < p.length := Nat.lt_of_lt_of_le (by decide) hl.long
      rw [visitFrom_of_next hnext, hvisit s p hread, Walk.ofImage_of_ok (Nat.not_le.1 hend) hread]
      show _ = follow visit' _ (p :: _) s
      cases hvisited : visit' s p with
      | error e => rw [follow_error hvisited]
      | ok outcome =>
        cases outcome with
        | done s => rw [follow_done hvisited]
        | yield s =>
          rw [follow_yield hvisited]
          refine ih (image.size - (p.offset + p.length)) ?_ (.after hread) s rfl
          omega

end Walks

/-! What the readers of the library answer. -/

section Readers

variable {lib : LibraryFile} {image : Image}

theorem walk_eq (hview : lib.view = .ok image) :
    lib.walk = .ok (Walk.ofImage image LibraryHeader.size) := by
  rw [walk, Steps.query_ok hview]
  rfl

theorem follow_append (damage : Option Damage) (playlists : List Playlist) (before : List Nat) :
    follow (fun before p => .ok (.yield (before ++ [p.offset]))) damage playlists before
      = match damage with
        | some damage => refuse (.corrupt damage)
        | none => .ok (before ++ playlists.map Playlist.offset) := by
  induction playlists generalizing before with
  | nil => cases damage <;> simp [follow]
  | cons p rest ih =>
    rw [follow_yield rfl, ih, List.append_assoc]
    rfl

theorem handles_eq (hview : lib.view = .ok image) :
    handles image.toList = lib.playlists.map fun playlists => playlists.map Playlist.offset := by
  rw [handles, visitFrom_eq (fun _ _ _ => rfl) .first, playlists, Steps.query_ok (walk_eq hview)]
  refine (follow_append _ _ []).trans ?_
  cases (Walk.ofImage image LibraryHeader.size).damage <;> rfl

def seek (name : Bytes) (p : Playlist) : Query (ForInStep (Option Nat)) :=
  if p.name = name then .ok (.done (some p.offset)) else .ok (.yield none)

theorem follow_seek (damage : Option Damage) (playlists : List Playlist) (name : Bytes) :
    follow (fun _ => seek name) damage playlists none
      = match playlists.find? (·.name = name), damage with
        | some p, _ => .ok (some p.offset)
        | none, some damage => refuse (.corrupt damage)
        | none, none => .ok none := by
  induction playlists with
  | nil => cases damage <;> rfl
  | cons p rest ih =>
    by_cases hname : p.name = name
    · rw [follow_done (if_pos hname), List.find?_cons_of_pos (by simpa using hname)]
    · rw [follow_yield (if_neg hname), List.find?_cons_of_neg (by simpa using hname), ih]

theorem find_eq (hview : lib.view = .ok image) (name : String) :
    find image.toList name = (lib.find name).map (Option.map Playlist.offset) := by
  have hvisit (s : Option Nat) (p : Playlist) (hread : Playlist.readAt image p.offset = .ok p) :
      (do
        let named ← Failure.inBounds (PlaylistHeader.nameField.holds?
          (← record image.toList p.offset) (Text.bytes name))
        if named then return .done (some p.offset) else return .yield none)
        = seek (Text.bytes name) p := by
    obtain ⟨-, bytes, hl⟩ := located_of_readAt hread
    have hnamed : (Failure.inBounds (PlaylistHeader.nameField.holds? bytes (Text.bytes name)) :
        Query Bool) = .ok (p.name == Text.bytes name) := by
      rw [NameField.holds?, hl.name_eq]
      rfl
    rw [Steps.query_ok (record_eq hread hl), Steps.query_ok hnamed, seek]
    by_cases hname : p.name = Text.bytes name <;> simp [hname] <;> rfl
  rw [find, visitFrom_eq hvisit .first, follow_seek, LibraryFile.find,
    Steps.query_ok (walk_eq hview)]
  cases (Walk.ofImage image LibraryHeader.size).playlists.find? (·.name = Text.bytes name) <;>
    cases (Walk.ofImage image LibraryHeader.size).damage <;> rfl

theorem info_eq (hview : lib.view = .ok image) (offset : Nat) :
    info image.toList offset = (lib.playlistAt offset).map Playlist.info := by
  rw [info, playlistAt, Steps.query_ok hview]
  cases hread : Playlist.readAt image offset with
  | error damage =>
    rw [record_error hread]
    rfl
  | ok p =>
    obtain ⟨-, bytes, hl⟩ := located_of_readAt hread
    rw [Steps.query_ok (record_eq hread hl), hl.name_eq, hl.count_eq, hl.length_eq]
    rfl

theorem ofTable_eq (hview : lib.view = .ok image) (offset : Nat) {α : Type}
    {guarded : Bytes → StringTable.Guarded.Reading α} {reader : StringTable → Except TableDamage α}
    (h : ∀ t : StringTable, t.parts.Sized →
      guarded t.parts.encode = Failure.ofCheck id (reader t)) :
    (table image.toList offset >>= fun bytes => ofTable (guarded bytes))
      = lib.tableOf offset >>= fun t => Query.ofTable (reader t) := by
  rw [table_eq hview]
  cases htable : lib.tableOf offset with
  | error e => rfl
  | ok t =>
    exact (congrArg ofTable (h t (sized_of_tableOf htable))).trans (ofTable_ofCheck _)

theorem findPath_eq (hview : lib.view = .ok image) (offset : Nat) (path : String) :
    findPath image.toList offset path = lib.findPath offset path :=
  ofTable_eq hview offset fun _ ht => StringTable.Guarded.find_eq ht (Text.bytes path)

theorem pathAt_eq (hview : lib.view = .ok image) (offset n : Nat) :
    pathAt image.toList offset n = lib.pathAt offset n :=
  ofTable_eq hview offset fun _ ht => StringTable.Guarded.ordinal_eq ht n

theorem paths_eq (hview : lib.view = .ok image) (offset : Nat) :
    paths image.toList offset = lib.paths offset :=
  ofTable_eq hview offset fun _ ht => StringTable.Guarded.texts_eq ht

theorem word_eq (hview : lib.view = .ok image) (f : WordField) :
    Failure.inBounds (f.get? image.toList) = lib.word f.offset := by
  rw [word, Steps.query_ok hview, Image.toList_read]
  by_cases hstop : f.stop ≤ image.toList.length
  · have hslice : (WordField.mk 0).stop ≤ (Bytes.slice image.toList f.offset Word.size).length := by
      rw [Bytes.length_slice]
      simp only [WordField.stop] at hstop ⊢
      omega
    have hwhole : Bytes.slice (Bytes.slice image.toList f.offset Word.size) 0 Word.size
        = Bytes.slice image.toList f.offset Word.size := by
      simp [Bytes.slice, List.take_take]
    rw [WordField.get?, WordField.get?, if_pos hstop, if_pos hslice, hwhole]
  · have hslice :
        ¬ (WordField.mk 0).stop ≤ (Bytes.slice image.toList f.offset Word.size).length := by
      rw [Bytes.length_slice]
      simp only [WordField.stop, Word.size] at hstop ⊢
      omega
    rw [WordField.get?, WordField.get?, if_neg hstop, if_neg hslice]

theorem checkNext_eq (globalPlaylist : Bytes) (tally : Tally) {p : Playlist}
    (hread : Playlist.readAt image p.offset = .ok p) :
    checkNext globalPlaylist image.toList tally p.offset
      = Query.ofCheck ((Tally.add globalPlaylist image tally p).map ForInStep.yield) := by
  obtain ⟨-, bytes, hl⟩ := located_of_readAt hread
  rw [checkNext, Steps.query_ok (record_eq hread hl), table_of_readAt hread, Tally.add, hl.length_eq,
    hl.count_eq, hl.name_eq]
  cases hdecode : StringTable.decode (p.tableImage image) with
  | error damage => rfl
  | ok t =>
    obtain ⟨hsized, -⟩ := StringTable.encode_of_decode hdecode
    have htable : Query.ofTable ((Except.ok t).map fun t => t.parts.encode) = .ok t.parts.encode :=
      rfl
    have hlength : ofTable (StringTable.Guarded.length t.parts.encode) = .ok t.length := by
      rw [StringTable.Guarded.length_eq hsized, StringTable.length_parts]
      rfl
    have hentries : ofTable (StringTable.Guarded.entries t.parts.encode) = .ok t.entries := by
      rw [StringTable.Guarded.entries_eq hsized]
      rfl
    have hok : (Except.ok t : Except TableDamage StringTable).mapError Damage.table = .ok t := rfl
    rw [Steps.query_ok htable, Steps.query_ok hlength, Steps.query_ok hok]
    by_cases hfills : PlaylistHeader.size + t.length ≠ p.length
    · rw [if_pos hfills, if_pos hfills]
      rfl
    have hcount : (Failure.inBounds (some p.count) : Query Nat) = .ok p.count := rfl
    have hname : (Failure.inBounds (some p.name) : Query Bytes) = .ok p.name := rfl
    rw [if_neg hfills, if_neg hfills, Steps.query_ok hcount, Steps.query_ok hentries]
    by_cases hcounted : p.count ≠ t.entries
    · rw [if_pos hcounted, if_pos hcounted]
      rfl
    rw [if_neg hcounted, if_neg hcounted, StringTable.Guarded.checkOrder_eq hsized, ofTable_ofCheck]
    cases t.checkOrder with
    | error damage => rfl
    | ok u =>
      have hordered : Query.ofTable (.ok u) = .ok u := rfl
      have hordered' : (Except.ok u : Except TableDamage Unit).mapError Damage.table = .ok u := rfl
      rw [Steps.query_ok hordered, Steps.query_ok hname, Steps.query_ok hordered']
      by_cases hnew : p.name ∈ tally.names
      · rw [if_pos hnew, if_pos hnew]
        rfl
      · rw [if_neg hnew, if_neg hnew]
        rfl

/-- Following the playlists of a walk through the check is what the full check does with them. -/
theorem follow_add (globalPlaylist : Bytes) (damage : Option Damage) (playlists : List Playlist)
    (tally : Tally) :
    follow (fun tally p =>
        Query.ofCheck ((Tally.add globalPlaylist image tally p).map ForInStep.yield))
        damage playlists tally
      = Query.ofCheck (do
        let tally ← playlists.foldlM (Tally.add globalPlaylist image) tally
        match damage with
        | some damage => .error damage
        | none => .ok tally) := by
  induction playlists generalizing tally with
  | nil => cases damage <;> rfl
  | cons p rest ih =>
    rw [List.foldlM_cons]
    cases hadd : Tally.add globalPlaylist image tally p with
    | error d =>
      rw [follow_error (by rw [hadd]; rfl)]
      rfl
    | ok next =>
      rw [follow_yield (by rw [hadd]; rfl)]
      exact ih next

theorem visitFrom_checkNext (globalPlaylist : Bytes) :
    visitFrom image.toList (checkNext globalPlaylist image.toList) none Tally.empty
      = Query.ofCheck
        (Tally.ofWalk globalPlaylist image (Walk.ofImage image LibraryHeader.size)) := by
  rw [visitFrom_eq (fun tally p => checkNext_eq globalPlaylist tally) .first, follow_add]
  rfl

theorem verify_eq (hview : lib.view = .ok image) (hsize : LibraryHeader.size ≤ image.size) :
    verify image.toList lib.settings.globalPlaylist lib.contents.size = lib.verify := by
  obtain ⟨magic, hmagic⟩ := exists_word hview (Nat.le_trans
    (show LibraryHeader.magicField.offset + Word.size ≤ LibraryHeader.size by decide) hsize)
  obtain ⟨length, hlength⟩ := exists_word hview (Nat.le_trans
    (show LibraryHeader.lengthField.offset + Word.size ≤ LibraryHeader.size by decide) hsize)
  obtain ⟨mediaCount, hcount⟩ := exists_word hview (Nat.le_trans
    (show LibraryHeader.mediaCountField.offset + Word.size ≤ LibraryHeader.size by decide) hsize)
  have hlength' : lib.length = .ok length := hlength
  have hcount' : lib.mediaCount = .ok mediaCount := hcount
  rw [verify, LibraryFile.verify, word_eq hview, word_eq hview, word_eq hview,
    Steps.query_ok hmagic, Steps.query_ok hview, Steps.query_ok hmagic]
  by_cases hnumber : magic ≠ LibraryHeader.magicNumber
  · rw [if_pos hnumber, if_pos hnumber]
  rw [if_neg hnumber, if_neg hnumber, Steps.query_ok hlength, Steps.query_ok hlength',
    Image.length_toList]
  by_cases hagree : length ≠ image.size ∨ length ≠ lib.contents.size
  · rw [if_pos hagree, if_pos hagree]
  rw [if_neg hagree, if_neg hagree, visitFrom_checkNext, Steps.query_ok (walk_eq hview)]
  cases Tally.ofWalk (Text.bytes lib.settings.globalPlaylist) image
      (Walk.ofImage image LibraryHeader.size) with
  | error damage => rfl
  | ok tally =>
    have htally : Query.ofCheck (.ok tally) = .ok tally := rfl
    rw [Steps.query_ok htally, Steps.query_ok htally, checkTotals, Steps.query_ok hcount']
    by_cases hcovered : tally.covered ≠ length
    · rw [if_pos hcovered, if_pos hcovered]
    · rw [if_neg hcovered, if_neg hcovered, Steps.query_ok hcount]

end Readers

/-! Every reader is answered or finds damage. -/

/-- There is an answer, or a refusal because of damage; there is no fault. -/
def Settles {α : Type} (x : Query α) : Prop :=
  (∃ a, x = .ok a) ∨ ∃ damage, x = .error (.refused (.corrupt damage))

namespace Settles

variable {α β : Type}

theorem ok (a : α) : Settles (.ok a) := Or.inl ⟨a, rfl⟩

theorem ofCheck (x : Except Damage α) : Settles (Query.ofCheck x) := by
  cases x with
  | ok a => exact Or.inl ⟨a, rfl⟩
  | error damage => exact Or.inr ⟨damage, rfl⟩

theorem ofTable (x : Except TableDamage α) : Settles (Query.ofTable x) := by
  cases x with
  | ok a => exact Or.inl ⟨a, rfl⟩
  | error damage => exact Or.inr ⟨.table damage, rfl⟩

theorem bind {x : Query α} {f : α → Query β} (hx : Settles x) (hf : ∀ a, Settles (f a)) :
    Settles (x >>= f) := by
  rcases hx with ⟨a, rfl⟩ | ⟨damage, rfl⟩
  · exact hf a
  · exact Or.inr ⟨damage, rfl⟩

theorem map {x : Query α} (hx : Settles x) (f : α → β) : Settles (x.map f) := by
  rcases hx with ⟨a, rfl⟩ | ⟨damage, rfl⟩
  · exact Or.inl ⟨f a, rfl⟩
  · exact Or.inr ⟨damage, rfl⟩

end Settles

section Settled

variable {lib : LibraryFile} {image : Image}

theorem settles_playlistAt (hview : lib.view = .ok image) (offset : Nat) :
    Settles (lib.playlistAt offset) := by
  rw [playlistAt, Steps.query_ok hview]
  exact .ofCheck _

theorem settles_tableOf (hview : lib.view = .ok image) (offset : Nat) :
    Settles (lib.tableOf offset) := by
  refine (settles_playlistAt hview offset).bind fun p => ?_
  rw [Steps.query_ok hview]
  exact .ofTable _

theorem settles_next (image : Image) (previous : Option Nat) :
    Settles (next image.toList previous) := by
  have hcheck (offset : Nat) : Settles (checkRecord image.toList offset) := by
    rw [checkRecord_eq]
    exact .ofCheck _
  have hstop : Settles (stopOf image.toList previous) := by
    cases previous with
    | none => exact .ok _
    | some offset => exact (hcheck offset).bind fun _ => .ok _
  refine hstop.bind fun start => ?_
  by_cases hend : image.toList.length ≤ start
  · rw [if_pos hend]
    exact .ok _
  · rw [if_neg hend]
    exact (hcheck start).bind fun _ => .ok _

theorem settles_playlists (hview : lib.view = .ok image) : Settles lib.playlists := by
  rw [playlists, Steps.query_ok (walk_eq hview)]
  cases (Walk.ofImage image LibraryHeader.size).damage with
  | none => exact .ok _
  | some damage => exact Or.inr ⟨damage, rfl⟩

theorem settles_find (hview : lib.view = .ok image) (name : String) :
    Settles (lib.find name) := by
  rw [LibraryFile.find, Steps.query_ok (walk_eq hview)]
  cases (Walk.ofImage image LibraryHeader.size).playlists.find? (·.name = Text.bytes name) with
  | some p => exact .ok _
  | none =>
    cases (Walk.ofImage image LibraryHeader.size).damage with
    | none => exact .ok _
    | some damage => exact Or.inr ⟨damage, rfl⟩

end Settled

theorem length_playlists_le {size offset : Nat} (h : offset ≤ size) (tail : Image) :
    offset + PlaylistHeader.minRecord * (Walk.ofTail size offset tail).playlists.length ≤ size := by
  fun_induction Walk.ofTail size offset tail with
  | case1 => simpa using h
  | case2 offset tail hlt p sound _ ih =>
    have hmin := Playlist.minRecord_le_of_ofTail sound
    have hfits := Playlist.length_le_of_ofTail sound
    have hrest := ih (by omega)
    simp only [Walk.after, List.length_cons, Nat.mul_succ]
    omega
  | case3 => simpa using h

/-- The checked readers answer as the library does, each of them settles, and walking through the
records visits no more than there is room for. -/
structure Answers (view : Bytes) (lib : LibraryFile) : Prop where
  next : ∀ previous, next view previous = lib.next previous ∧ Settles (lib.next previous)
  handles : handles view = lib.playlists.map (·.map Playlist.offset) ∧ Settles (handles view)
  bounded : ∀ offsets, Guarded.handles view = .ok offsets →
    LibraryHeader.size + PlaylistHeader.minRecord * offsets.length ≤ view.length
  find : ∀ name, find view name = (lib.find name).map (·.map Playlist.offset) ∧
    Settles (find view name)
  info : ∀ offset, info view offset = (lib.playlistAt offset).map Playlist.info ∧
    Settles (info view offset)
  findPath : ∀ offset path, findPath view offset path = lib.findPath offset path ∧
    Settles (lib.findPath offset path)
  pathAt : ∀ offset n, pathAt view offset n = lib.pathAt offset n ∧ Settles (lib.pathAt offset n)
  paths : ∀ offset, paths view offset = lib.paths offset ∧ Settles (lib.paths offset)
  verify : verify view lib.settings.globalPlaylist lib.contents.size = lib.verify ∧
    Settles lib.verify

theorem answers_of_view {lib : LibraryFile} {image : Image} (hview : lib.view = .ok image)
    (hsize : LibraryHeader.size ≤ image.size) : Answers image.toList lib where
  next previous := ⟨next_eq hview previous, next_eq hview previous ▸ settles_next image previous⟩
  handles := ⟨handles_eq hview, handles_eq hview ▸ (settles_playlists hview).map _⟩
  bounded := by
    intro offsets hhandles
    have hlength := length_playlists_le hsize (image.drop LibraryHeader.size)
    rw [handles_eq hview, playlists, Steps.query_ok (walk_eq hview), Walk.ofImage] at hhandles
    cases hdamage :
        (Walk.ofTail image.size LibraryHeader.size (image.drop LibraryHeader.size)).damage with
    | some damage =>
      rw [hdamage] at hhandles
      cases hhandles
    | none =>
      rw [hdamage] at hhandles
      cases hhandles
      rwa [List.length_map, Image.length_toList]
  find name := ⟨find_eq hview name, find_eq hview name ▸ (settles_find hview name).map _⟩
  info offset := ⟨info_eq hview offset, info_eq hview offset ▸ (settles_playlistAt hview offset).map _⟩
  findPath offset path :=
    ⟨findPath_eq hview offset path, (settles_tableOf hview offset).bind fun _ => .ofTable _⟩
  pathAt offset n :=
    ⟨pathAt_eq hview offset n, (settles_tableOf hview offset).bind fun _ => .ofTable _⟩
  paths offset := ⟨paths_eq hview offset, (settles_tableOf hview offset).bind fun _ => .ofTable _⟩
  verify := by
    refine ⟨verify_eq hview hsize, ?_⟩
    cases hmapped : lib.mapped with
    | none =>
      rw [LibraryFile.view, hmapped] at hview
      cases hview
    | some size =>
      rw [LibraryFile.view, hmapped] at hview
      rw [← Except.ok.inj hview, Image.size_resize] at hsize
      exact verify_cases hmapped hsize

end Guarded

/-- Whatever the bytes are, reading them makes no access outside them and takes no difference below
zero. The readers of a table that was opened answer, or find damage, as the table does. So do those of
a library whose header is mapped, at every offset and after every offset. -/
theorem readers_settle :
    (∀ (image : Image) (t : StringTable), StringTable.decode image = .ok t →
      StringTable.Guarded.view image.toList = .ok t.parts.encode ∧
      StringTable.Guarded.Answers t.parts.encode t) ∧
    ∀ (lib : LibraryFile) (image : Image), lib.view = .ok image →
      LibraryHeader.size ≤ image.size → Guarded.Answers image.toList lib := by
  constructor
  · intro image t ht
    obtain ⟨hsized, -⟩ := StringTable.encode_of_decode ht
    refine ⟨?_, StringTable.Guarded.answers_of_sized hsized⟩
    rw [StringTable.Guarded.view_eq, ht]
    rfl
  · intro lib image hview hsize
    exact Guarded.answers_of_view hview hsize

/-- A table without strings, of which the only slot holds the greatest number. -/
def strayTable : Bytes := StringTable.Parts.encode ⟨[], [], [255, 255, 255, 255]⟩

/-- A library without a header, of which the only record is longer than the table in it. -/
def strayLibrary : LibraryFile where
  path := "m"
  settings := .default
  contents := .blank 1024
    ++ .ofBytes (Word.listToBytes [PlaylistHeader.magicNumber, 150, 7]) ++ .blank 116
    ++ .ofBytes (strayTable ++ [1, 2])
  mapped := some 1174

set_option maxRecDepth 4000 in
/-- The slot is refused where it is followed, and so is an offset past all bytes. -/
theorem readers_settle_stray :
    (∃ t, StringTable.decode (.ofBytes strayTable) = .ok t ∧
      StringTable.Guarded.ordinal t.parts.encode 0
        = .error (.refused (.offsetOutOfRange 4294967295))) ∧
    ∃ image, strayLibrary.view = .ok image ∧
      Guarded.handles image.toList = .ok [1024] ∧
      Guarded.paths image.toList 1024
        = refuse (.corrupt (.table (.offsetOutOfRange 4294967295))) ∧
      Guarded.info image.toList 18446744073709551615
        = refuse (.corrupt (.headerOverrun 18446744073709551615 1174)) := by
  obtain ⟨htables, hlibraries⟩ := readers_settle
  constructor
  · have hopen : StringTable.decode (.ofBytes strayTable)
        = .ok ⟨⟨[]⟩, ⟨[]⟩, ⟨[.stored #[255, 255, 255, 255]]⟩⟩ := by cbv
    have hread : StringTable.ordinal ⟨⟨[]⟩, ⟨[]⟩, ⟨[.stored #[255, 255, 255, 255]]⟩⟩ 0
        = .error (.offsetOutOfRange 4294967295) := by cbv
    obtain ⟨-, hanswers⟩ := htables _ _ hopen
    refine ⟨_, hopen, ?_⟩
    rw [hanswers.ordinal, hread]
    rfl
  · have hview : strayLibrary.view = .ok (strayLibrary.contents.resize 1174) := rfl
    have hanswers := hlibraries strayLibrary _ hview (by rw [Image.size_resize]; decide)
    have hplaylists : strayLibrary.playlists = .ok [⟨1024, 150, 7, []⟩] := by cbv
    have hpaths : strayLibrary.paths 1024
        = refuse (.corrupt (.table (.offsetOutOfRange 4294967295))) := by cbv
    have hinfo : strayLibrary.playlistAt 18446744073709551615
        = refuse (.corrupt (.headerOverrun 18446744073709551615 1174)) := by cbv
    refine ⟨_, hview, ?_, ?_, ?_⟩
    · rw [hanswers.handles.1, hplaylists]
      rfl
    · rw [(hanswers.paths 1024).1, hpaths]
    · rw [(hanswers.info _).1, hinfo]
      rfl

end MediaLibrary.LibraryFile
