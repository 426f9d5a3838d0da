import MediaLibrary.LibraryFile.Paths
import MediaLibrary.Proofs.LibraryFile.Volume
/-! A library's body as records end to end. The walk through the file meets these records and no
damage; a playlist's offset is where its record begins, and the bytes of its table are found there.
Nothing is asked of the tables, so that this holds also of records whose tables are damaged. -/
namespace MediaLibrary

theorem PlaylistHeader.decode_listToBytes {magic length count : Nat} {label : Bytes}
    (hm : magic < Word.limit) (hl : length < Word.limit) (hc : count < Word.limit)
    (hlabel : label.length = nameField.width) :
    PlaylistHeader.decode? (Word.listToBytes [magic, length, count] ++ label)
      = some ⟨magic, length, count, Bytes.untilZero label⟩ := by
  have hsplit : Word.listToBytes [magic, length, count] ++ label
      = Word.toBytes magic ++ Word.toBytes length ++ Word.toBytes count ++ label := by
    simp [Word.listToBytes]
  rw [hsplit]
  generalize hbytes : Word.toBytes magic ++ Word.toBytes length ++ Word.toBytes count ++ label
    = bytes
  have hmagic : magicField.get? bytes = some magic := by
    have := WordField.get?_of_split [] (Word.toBytes length ++ Word.toBytes count ++ label) hm
    simpa [← hbytes, magicField] using this
  have hlength : lengthField.get? bytes = some length := by
    have := WordField.get?_of_split (Word.toBytes magic) (Word.toBytes count ++ label) hl
    simpa [← hbytes, lengthField, Word.size] using this
  have hcount : countField.get? bytes = some count := by
    have := WordField.get?_of_split (Word.toBytes magic ++ Word.toBytes length) label hc
    simpa [← hbytes, countField, Word.size] using this
  have hname : nameField.get? bytes = some (Bytes.untilZero label) := by
    have hslice := Bytes.slice_middle
      (Word.toBytes magic ++ Word.toBytes length ++ Word.toBytes count) label []
    rw [List.append_nil, hbytes, hlabel] at hslice
    have hstop : nameField.stop ≤ bytes.length := by
      rw [← hbytes, List.length_append, hlabel]
      exact Nat.le_refl _
    rw [NameField.get?, if_pos hstop]
    exact congrArg (some <| Bytes.untilZero ·) hslice
  rw [PlaylistHeader.decode?, hmagic, hlength, hcount, hname]
  rfl

/-- The record of a playlist. -/
structure Record where
  /-- The field for the name. -/
  label : Bytes
  count : Nat
  table : Bytes
  deriving DecidableEq, Repr

namespace Record

def name (r : Record) : Bytes := Bytes.untilZero r.label

def length (r : Record) : Nat := PlaylistHeader.size + r.table.length

def header (r : Record) : Bytes :=
  Word.listToBytes [PlaylistHeader.magicNumber, r.length, r.count] ++ r.label

def encode (r : Record) : Bytes := r.header ++ r.table

theorem encode_append (r : Record) (rest : Bytes) :
    r.encode ++ rest = r.header ++ (r.table ++ rest) := List.append_assoc _ _ _

def playlist (r : Record) (offset : Nat) : Playlist := ⟨offset, r.length, r.count, r.name⟩

/-- The field has its width, the count can be stored, and there is at least the header of a table. -/
structure Sized (r : Record) : Prop where
  label : r.label.length = PlaylistHeader.nameField.width
  counted : r.count < Word.limit
  table : StringTable.headerSize ≤ r.table.length

namespace Sized

variable {r : Record}

theorem length_header (h : r.Sized) : r.header.length = PlaylistHeader.size := by
  rw [header, List.length_append, h.label]
  rfl

theorem length_encode (h : r.Sized) : r.encode.length = r.length := by
  rw [encode, List.length_append, h.length_header, length]

theorem decode_header (h : r.Sized) (hlen : r.length < Word.limit) :
    PlaylistHeader.decode? r.header
      = some ⟨PlaylistHeader.magicNumber, r.length, r.count, r.name⟩ :=
  PlaylistHeader.decode_listToBytes (by decide) hlen h.counted h.label

theorem ofTail_eq (h : r.Sized) (size offset : Nat) {tail : Image} {rest : Bytes}
    (htail : tail.toList = r.encode ++ rest) (hfits : r.length ≤ size - offset)
    (hlen : r.length < Word.limit) : Playlist.ofTail size offset tail = .ok (r.playlist offset) := by
  have hread : tail.read 0 PlaylistHeader.size = r.header := by
    rw [Image.toList_read, htail, encode, List.append_assoc, ← h.length_header,
      Bytes.slice_length]
  have hmin : ¬ r.length < PlaylistHeader.minRecord := by
    have := h.table
    unfold length PlaylistHeader.minRecord
    omega
  rw [Playlist.ofTail, hread, h.decode_header hlen]
  simp only [ne_eq, not_true_eq_false, if_false, if_neg hmin, if_neg (Nat.not_lt.2 hfits)]
  rfl

end Sized
end Record

namespace LibraryFile

def bodyOf (records : List Record) : Bytes := records.flatMap Record.encode

/-- Where the record begins that comes after those of `before`. -/
def offsetAfter (before : List Record) : Nat := LibraryHeader.size + (bodyOf before).length

def playlistsFrom (offset : Nat) : List Record → List Playlist
  | [] => []
  | r :: rest => r.playlist offset :: playlistsFrom (offset + r.length) rest

@[simp] theorem bodyOf_nil : bodyOf [] = [] := rfl

@[simp] theorem bodyOf_cons (r : Record) (rest : List Record) :
    bodyOf (r :: rest) = r.encode ++ bodyOf rest := rfl

@[simp] theorem bodyOf_append (first second : List Record) :
    bodyOf (first ++ second) = bodyOf first ++ bodyOf second := by
  simp [bodyOf]

theorem offsetAfter_concat (before : List Record) {r : Record} (h : r.Sized) :
    offsetAfter (before ++ [r]) = offsetAfter before + r.length := by
  simp [offsetAfter, h.length_encode, Nat.add_assoc]

theorem playlistsFrom_append {before : List Record} (h : ∀ r ∈ before, r.Sized) (offset : Nat)
    (after : List Record) : playlistsFrom offset (before ++ after)
      = playlistsFrom offset before ++ playlistsFrom (offset + (bodyOf before).length) after := by
  induction before generalizing offset with
  | nil => rfl
  | cons r rest ih =>
    rw [List.cons_append, playlistsFrom, ih fun r hr => h r (List.mem_cons_of_mem _ hr),
      playlistsFrom, bodyOf_cons, List.length_append, (h r List.mem_cons_self).length_encode,
      Nat.add_assoc]
    rfl

@[simp] theorem map_name_playlistsFrom (offset : Nat) (records : List Record) :
    (playlistsFrom offset records).map Playlist.name = records.map Record.name := by
  induction records generalizing offset with
  | nil => rfl
  | cons r rest ih => rw [playlistsFrom, List.map_cons, ih, List.map_cons]; rfl

theorem find?_playlistsFrom_absent {records : List Record} {name : Bytes}
    (h : name ∉ records.map Record.name) (offset : Nat) :
    (playlistsFrom offset records).find? (·.name = name) = none := by
  rw [List.find?_eq_none]
  intro p hp
  rw [← map_name_playlistsFrom offset] at h
  simp only [decide_eq_true_eq]
  rintro heq
  exact h (heq ▸ List.mem_map_of_mem hp)

theorem find?_playlistsFrom_present {before after : List Record} {r : Record} {name : Bytes}
    (hsized : ∀ r ∈ before, r.Sized) (hbefore : name ∉ before.map Record.name)
    (hname : r.name = name) (offset : Nat) :
    (playlistsFrom offset (before ++ r :: after)).find? (·.name = name)
      = some (r.playlist (offset + (bodyOf before).length)) := by
  have hfound : decide ((r.playlist (offset + (bodyOf before).length)).name = name) = true :=
    decide_eq_true hname
  rw [playlistsFrom_append hsized, List.find?_append, find?_playlistsFrom_absent hbefore,
    playlistsFrom, List.find?_cons, hfound]
  rfl

theorem split_playlistsFrom {records : List Record} (h : ∀ r ∈ records, r.Sized) {offset : Nat}
    {before after : List Playlist} {p : Playlist}
    (hp : playlistsFrom offset records = before ++ p :: after) :
    ∃ earlier r later, records = earlier ++ r :: later ∧ before = playlistsFrom offset earlier ∧
      p = r.playlist (offset + (bodyOf earlier).length) ∧
      after = playlistsFrom (offset + (bodyOf earlier).length + r.length) later := by
  induction records generalizing offset before with
  | nil => simp [playlistsFrom] at hp
  | cons x rest ih =>
    cases before with
    | nil =>
      obtain ⟨rfl, rfl⟩ := List.cons.inj hp
      exact ⟨[], x, rest, rfl, rfl, rfl, rfl⟩
    | cons first before =>
      obtain ⟨rfl, hrest⟩ := List.cons.inj hp
      obtain ⟨earlier, r, later, rfl, rfl, rfl, rfl⟩ :=
        ih (fun r hr => h r (List.mem_cons_of_mem _ hr)) hrest
      have hoffset : offset + (bodyOf (x :: earlier)).length
          = offset + x.length + (bodyOf earlier).length := by
        rw [bodyOf_cons, List.length_append, (h x List.mem_cons_self).length_encode, Nat.add_assoc]
      refine ⟨x :: earlier, r, later, rfl, rfl, ?_, ?_⟩
      · rw [hoffset]
      · rw [hoffset]

theorem exists_of_mem_playlistsFrom {records : List Record} (h : ∀ r ∈ records, r.Sized)
    {p : Playlist} (hp : p ∈ playlistsFrom LibraryHeader.size records) :
    ∃ before r after, records = before ++ r :: after ∧ p = r.playlist (offsetAfter before) := by
  obtain ⟨before, after, hsplit⟩ := List.append_of_mem hp
  obtain ⟨earlier, r, later, hrecords, -, hplaylist, -⟩ := split_playlistsFrom h hsplit
  exact ⟨earlier, r, later, hrecords, hplaylist⟩

theorem forall_replace {α : Type} {P : α → Prop} {before after : List α} {x y : α}
    (h : ∀ z ∈ before ++ x :: after, P z) (hy : P y) : ∀ z ∈ before ++ y :: after, P z := by
  obtain ⟨hbefore, hrest⟩ := List.forall_mem_append.1 h
  obtain ⟨-, hafter⟩ := List.forall_mem_cons.1 hrest
  exact List.forall_mem_append.2 ⟨hbefore, List.forall_mem_cons.2 ⟨hy, hafter⟩⟩

theorem forall_remove {α : Type} {P : α → Prop} {before after : List α} {x : α}
    (h : ∀ z ∈ before ++ x :: after, P z) : ∀ z ∈ before ++ after, P z := by
  obtain ⟨hbefore, hrest⟩ := List.forall_mem_append.1 h
  obtain ⟨-, hafter⟩ := List.forall_mem_cons.1 hrest
  exact List.forall_mem_append.2 ⟨hbefore, hafter⟩

theorem walk_records {records : List Record} (h : ∀ r ∈ records, r.Sized) (size offset : Nat)
    {tail : Image} (htail : tail.toList = bodyOf records) (hoffset : offset + tail.size = size)
    (hsize : size < Word.limit) :
    Walk.ofTail size offset tail = ⟨playlistsFrom offset records, none⟩ := by
  induction records generalizing offset tail with
  | nil =>
    have hempty : tail.size = 0 := by simp [← Image.length_toList, htail]
    rw [Walk.ofTail_of_le (by omega)]
    rfl
  | cons r rest ih =>
    have hr := h r List.mem_cons_self
    have hlen : tail.size = r.length + (bodyOf rest).length := by
      rw [← Image.length_toList, htail, bodyOf_cons, List.length_append, hr.length_encode]
    have hpos : 0 < r.length := by
      unfold Record.length PlaylistHeader.size
      omega
    have hsound := hr.ofTail_eq size offset htail (by omega) (by omega)
    have hdrop : (tail.drop r.length).toList = bodyOf rest := by
      rw [Image.toList_drop, htail, bodyOf_cons, ← hr.length_encode, List.drop_left]
    have hrest : (tail.drop r.length).size = (bodyOf rest).length := by
      rw [← Image.length_toList, hdrop]
    rw [Walk.ofTail_of_ok (by omega) hsound]
    show Walk.after _ (Walk.ofTail size (offset + r.length) (tail.drop r.length)) = _
    rw [ih (fun r hr => h r (List.mem_cons_of_mem _ hr)) _ hdrop (by omega)]
    rfl

structure Encloses (settings : Settings) (v : Volume) (before : Bytes) (r : Record) (after : Bytes)
    (lib : LibraryFile) : Prop where
  keeps : Keeps settings { v with body := before ++ (r.encode ++ after) } lib
  sized : r.Sized

namespace Encloses

variable {settings : Settings} {v : Volume} {before after : Bytes} {r : Record} {lib : LibraryFile}

theorem length_eq (h : Encloses settings v before r after lib) :
    Volume.length { v with body := before ++ (r.encode ++ after) }
      = LibraryHeader.size + before.length + r.length + after.length := by
  simp only [Volume.length, List.length_append, h.sized.length_encode]
  omega

theorem record_below (h : Encloses settings v before r after lib) : r.length < Word.limit := by
  have hlength := h.length_eq
  have hbelow := h.keeps.sized.below
  omega

theorem view_eq (h : Encloses settings v before r after lib) : ∃ view, lib.view = .ok view ∧
    view.size = LibraryHeader.size + before.length + r.length + after.length ∧
    view.toList = Volume.header { v with body := before ++ (r.encode ++ after) } ++ before
      ++ r.header ++ r.table ++ after := by
  obtain ⟨view, hview, hbytes⟩ := h.keeps.holding.view_eq
  refine ⟨view, hview, ?_, ?_⟩
  · rw [← Image.length_toList, hbytes, h.keeps.sized.length_encode, h.length_eq]
  · simp [hbytes, Volume.encode, Record.encode]

theorem playlistAt_eq (h : Encloses settings v before r after lib) :
    lib.playlistAt (LibraryHeader.size + before.length)
      = .ok (r.playlist (LibraryHeader.size + before.length)) := by
  obtain ⟨view, hview, hsize, hbytes⟩ := h.view_eq
  have hdrop : (view.drop (LibraryHeader.size + before.length)).toList = r.encode ++ after := by
    rw [Image.toList_drop, hbytes, ← h.keeps.sized.length_header]
    simp [Record.encode]
  have hread : Playlist.readAt view (LibraryHeader.size + before.length)
      = .ok (r.playlist (LibraryHeader.size + before.length)) := by
    rw [Playlist.readAt, if_neg (by omega), h.sized.ofTail_eq _ _ hdrop (by omega) h.record_below]
  rw [playlistAt, Steps.query_ok hview, hread]
  rfl

theorem tableImage_eq (h : Encloses settings v before r after lib) {view : Image}
    (hview : lib.view = .ok view) :
    ((r.playlist (LibraryHeader.size + before.length)).tableImage view).toList = r.table := by
  obtain ⟨view', hview', -, hbytes⟩ := h.view_eq
  obtain rfl := Except.ok.inj (hview.symm.trans hview')
  have hstart : (r.playlist (LibraryHeader.size + before.length)).tableOffset
      = (Volume.header { v with body := before ++ (r.encode ++ after) } ++ before
        ++ r.header).length := by
    simp only [List.length_append, h.keeps.sized.length_header, h.sized.length_header]
    rfl
  have hcount : (r.playlist (LibraryHeader.size + before.length)).length - PlaylistHeader.size
      = r.table.length := Nat.add_sub_cancel_left _ _
  rw [Playlist.tableImage, Image.toList_slice, hstart, hcount, hbytes, Bytes.slice_middle]

theorem tableOf_eq (h : Encloses settings v before r after lib) {view : Image}
    (hview : lib.view = .ok view) :
    lib.tableOf (LibraryHeader.size + before.length) = Query.ofTable (StringTable.decode
      ((r.playlist (LibraryHeader.size + before.length)).tableImage view)) := by
  rw [tableOf, Steps.query_ok h.playlistAt_eq, Steps.query_ok hview]

end Encloses

/-- The header's two variable parts, and the records. -/
structure Shelf where
  mediaCount : Nat
  fields : Bytes
  records : List Record
  deriving DecidableEq, Repr

def Shelf.volume (s : Shelf) : Volume := ⟨s.mediaCount, s.fields, bodyOf s.records⟩

structure Stores (settings : Settings) (shelf : Shelf) (lib : LibraryFile) : Prop where
  keeps : Keeps settings shelf.volume lib
  sized : ∀ r ∈ shelf.records, r.Sized

namespace Stores

variable {settings : Settings} {shelf : Shelf} {lib : LibraryFile} {before after : List Record}
  {r : Record}

theorem view_eq (h : Stores settings shelf lib) : ∃ view, lib.view = .ok view ∧
    view.toList = shelf.volume.header ++ bodyOf shelf.records ∧
    view.size = LibraryHeader.size + (bodyOf shelf.records).length := by
  obtain ⟨view, hview, hbytes⟩ := h.keeps.holding.view_eq
  refine ⟨view, hview, hbytes, ?_⟩
  rw [← Image.length_toList, hbytes, h.keeps.sized.length_encode]
  rfl

theorem walk_eq (h : Stores settings shelf lib) :
    lib.walk = .ok ⟨playlistsFrom LibraryHeader.size shelf.records, none⟩ := by
  obtain ⟨view, hview, hbytes, hsize⟩ := h.view_eq
  have htail : (view.drop LibraryHeader.size).toList = bodyOf shelf.records := by
    rw [Image.toList_drop, hbytes, ← h.keeps.sized.length_header, List.drop_left]
  have hwalk := walk_records h.sized view.size LibraryHeader.size htail
    (by rw [hsize, ← Image.length_toList, htail])
    (by rw [hsize]; exact h.keeps.sized.below)
  rw [walk, Steps.query_ok hview, Walk.ofImage, hwalk]
  rfl

theorem playlists_eq (h : Stores settings shelf lib) :
    lib.playlists = .ok (playlistsFrom LibraryHeader.size shelf.records) := by
  rw [playlists, Steps.query_ok h.walk_eq]
  rfl

theorem exists_of_mem_playlists (h : Stores settings shelf lib) {playlists : List Playlist}
    (hplaylists : lib.playlists = .ok playlists) {p : Playlist} (hp : p ∈ playlists) :
    ∃ before r after, shelf.records = before ++ r :: after ∧
      p = r.playlist (offsetAfter before) := by
  obtain rfl := Except.ok.inj (h.playlists_eq.symm.trans hplaylists)
  exact exists_of_mem_playlistsFrom h.sized hp

theorem find_eq (h : Stores settings shelf lib) (name : String) :
    lib.find name = .ok ((playlistsFrom LibraryHeader.size shelf.records).find?
      (·.name = Text.bytes name)) := by
  rw [find, Steps.query_ok h.walk_eq]
  cases (playlistsFrom LibraryHeader.size shelf.records).find? (·.name = Text.bytes name) <;> rfl

theorem find_absent (h : Stores settings shelf lib) {name : String}
    (hname : Text.bytes name ∉ shelf.records.map Record.name) : lib.find name = .ok none := by
  rw [h.find_eq, find?_playlistsFrom_absent hname]

theorem find_present (h : Stores settings shelf lib) (hsplit : shelf.records = before ++ r :: after)
    {name : String} (hbefore : Text.bytes name ∉ before.map Record.name)
    (hname : r.name = Text.bytes name) :
    lib.find name = .ok (some (r.playlist (offsetAfter before))) := by
  have hsized : ∀ r ∈ before, r.Sized := fun r hr => h.sized r (by simp [hsplit, hr])
  rw [h.find_eq, hsplit, find?_playlistsFrom_present hsized hbefore hname]
  rfl

theorem exists_of_find (h : Stores settings shelf lib) {name : String} {p : Playlist}
    (hfind : lib.find name = .ok (some p)) :
    ∃ before r after, shelf.records = before ++ r :: after ∧ p = r.playlist (offsetAfter before) ∧
      r.name = Text.bytes name ∧ Text.bytes name ∉ before.map Record.name := by
  rw [h.find_eq] at hfind
  obtain ⟨hname, before, after, hsplit, hnone⟩ :=
    List.find?_eq_some_iff_append.1 (Except.ok.inj hfind)
  obtain ⟨earlier, r, later, hrecords, rfl, rfl, -⟩ := split_playlistsFrom h.sized hsplit
  refine ⟨earlier, r, later, hrecords, rfl, of_decide_eq_true hname, ?_⟩
  rw [← map_name_playlistsFrom LibraryHeader.size]
  intro hmem
  obtain ⟨q, hq, heq⟩ := List.mem_map.1 hmem
  have hq := hnone q hq
  rw [heq] at hq
  simp at hq

/-! One record among the others. -/

theorem encloses (h : Stores settings shelf lib) (hsplit : shelf.records = before ++ r :: after) :
    Encloses settings shelf.volume (bodyOf before) r (bodyOf after) lib := by
  refine ⟨?_, h.sized r (by simp [hsplit])⟩
  have hbody : bodyOf before ++ (r.encode ++ bodyOf after) = shelf.volume.body := by
    simp [Shelf.volume, hsplit]
  rw [hbody]
  exact h.keeps

theorem of_body {body : Bytes} {records : List Record}
    (h : Keeps settings { shelf.volume with body } lib) (hbody : body = bodyOf records)
    (hsized : ∀ r ∈ records, r.Sized) : Stores settings { shelf with records } lib := by
  subst hbody
  exact ⟨h, hsized⟩

theorem of_encloses (hsized : ∀ r ∈ shelf.records, r.Sized)
    (hsplit : shelf.records = before ++ r :: after) {r' : Record}
    (h : Encloses settings shelf.volume (bodyOf before) r' (bodyOf after) lib) :
    Stores settings { shelf with records := before ++ r' :: after } lib := by
  rw [hsplit] at hsized
  exact of_body h.keeps (by simp) (forall_replace hsized h.sized)

theorem length_split (h : Stores settings shelf lib) (hsplit : shelf.records = before ++ r :: after) :
    shelf.volume.length = offsetAfter before + r.length + (bodyOf after).length := by
  have hlength := (h.encloses hsplit).length_eq
  have hbody : bodyOf before ++ (r.encode ++ bodyOf after) = shelf.volume.body := by
    simp [Shelf.volume, hsplit]
  rwa [hbody] at hlength

theorem record_below (h : Stores settings shelf lib) (hsplit : shelf.records = before ++ r :: after) :
    r.length < Word.limit := (h.encloses hsplit).record_below

theorem playlistAt_eq (h : Stores settings shelf lib)
    (hsplit : shelf.records = before ++ r :: after) :
    lib.playlistAt (offsetAfter before) = .ok (r.playlist (offsetAfter before)) :=
  (h.encloses hsplit).playlistAt_eq

theorem tableImage_eq (h : Stores settings shelf lib)
    (hsplit : shelf.records = before ++ r :: after) {view : Image} (hview : lib.view = .ok view) :
    ((r.playlist (offsetAfter before)).tableImage view).toList = r.table :=
  (h.encloses hsplit).tableImage_eq hview

theorem tableOf_eq (h : Stores settings shelf lib) (hsplit : shelf.records = before ++ r :: after)
    {view : Image} (hview : lib.view = .ok view) :
    lib.tableOf (offsetAfter before) = Query.ofTable
      (StringTable.decode ((r.playlist (offsetAfter before)).tableImage view)) :=
  (h.encloses hsplit).tableOf_eq hview

end Stores
end LibraryFile
end MediaLibrary
