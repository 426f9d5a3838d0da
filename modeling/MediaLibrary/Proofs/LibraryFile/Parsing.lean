import MediaLibrary.Proofs.LibraryFile.Records
/-! Reading a file whose history is not known. Any bytes of a header's length are some header, and a
walk that meets no damage has read records end to end: it found their headers, and what it took for
the extent of each is its encoding. No bytes are the records of two lists. -/
namespace MediaLibrary

theorem PlaylistHeader.length_of_decode {bytes : Bytes} {h : PlaylistHeader}
    (hd : PlaylistHeader.decode? bytes = some h) : PlaylistHeader.size ≤ bytes.length := by
  rcases Nat.lt_or_ge bytes.length PlaylistHeader.size with hshort | hlong
  · have hlast : nameField.get? bytes = none := if_neg (Nat.not_le.2 hshort)
    rw [PlaylistHeader.decode?, hlast] at hd
    cases hm : magicField.get? bytes <;> cases hl : lengthField.get? bytes <;>
      cases hc : countField.get? bytes <;> simp [hm, hl, hc] at hd
  · exact hlong

theorem Playlist.size_le_of_ofTail {size offset : Nat} {tail : Image} {p : Playlist}
    (h : Playlist.ofTail size offset tail = .ok p) : PlaylistHeader.size ≤ tail.size := by
  unfold Playlist.ofTail at h
  split at h
  · cases h
  · rename_i header hheader
    have hlong := PlaylistHeader.length_of_decode hheader
    rw [Image.toList_read, Bytes.length_slice, Image.length_toList] at hlong
    omega

theorem Playlist.length_le_of_ofTail {size offset : Nat} {tail : Image} {p : Playlist}
    (h : Playlist.ofTail size offset tail = .ok p) : p.length ≤ size - offset := by
  unfold Playlist.ofTail at h
  split at h
  · cases h
  split at h
  · cases h
  split at h
  · cases h
  split at h
  · cases h
  rename_i hfits
  obtain rfl := Except.ok.inj h
  exact Nat.not_lt.1 hfits

theorem Playlist.offset_of_ofTail {size offset : Nat} {tail : Image} {p : Playlist}
    (h : Playlist.ofTail size offset tail = .ok p) : p.offset = offset := by
  grind [Playlist.ofTail]

theorem Playlist.record_of_ofTail {size offset : Nat} {tail : Image} {p : Playlist}
    (hsize : offset + tail.size = size) (h : Playlist.ofTail size offset tail = .ok p) :
    ∃ (r : Record) (rest : Bytes), r.Sized ∧ r.length < Word.limit ∧
      tail.toList = r.encode ++ rest ∧ p = r.playlist offset := by
  unfold Playlist.ofTail at h
  split at h
  · cases h
  rename_i header hheader
  rw [Image.toList_read, Bytes.slice, List.drop_zero] at hheader
  have hlong : PlaylistHeader.size ≤ tail.toList.length :=
    Nat.le_trans (PlaylistHeader.length_of_decode hheader) (List.length_take_le' _ _)
  obtain ⟨magic, length, count, label, rest, hbytes, hm, hl, hc, hlabel⟩ :=
    Word.exists_numbers_field PlaylistHeader.nameField.width hlong
  have hread := PlaylistHeader.decode_listToBytes hm hl hc hlabel
  have hhead : (Word.listToBytes [magic, length, count] ++ label).length = PlaylistHeader.size := by
    rw [List.length_append, hlabel]
    rfl
  rw [hbytes, ← hhead, List.take_left] at hheader
  obtain rfl := Option.some.inj (hread.symm.trans hheader)
  split at h
  · cases h
  split at h
  · cases h
  split at h
  · cases h
  rename_i hmagic hmin hfits
  obtain rfl := Except.ok.inj h
  simp only at hmagic hmin hfits ⊢
  obtain rfl : magic = PlaylistHeader.magicNumber := Classical.byContradiction hmagic
  have htail : tail.size = PlaylistHeader.size + rest.length := by
    rw [← Image.length_toList, hbytes, List.length_append, hhead]
  unfold PlaylistHeader.minRecord at hmin
  have htable : (rest.take (length - PlaylistHeader.size)).length
      = length - PlaylistHeader.size := by
    rw [List.length_take]
    omega
  have hlength : Record.length ⟨label, count, rest.take (length - PlaylistHeader.size)⟩
      = length := by
    simp only [Record.length, htable]
    omega
  refine ⟨⟨label, count, rest.take (length - PlaylistHeader.size)⟩,
    rest.drop (length - PlaylistHeader.size), ⟨hlabel, hc, ?_⟩, ?_, ?_, ?_⟩
  · simp only [htable]
    omega
  · rwa [hlength]
  · simp only [Record.encode, Record.header, hlength, List.append_assoc, List.take_append_drop]
    simpa using hbytes
  · simp only [Record.playlist, hlength, Record.name]

namespace Record.Sized

variable {r other : Record} {rest rest' : Bytes}

/-- Where a record begins, no other record does. -/
theorem encode_append_inj (h : r.Sized) (ho : other.Sized) (hl : r.length < Word.limit)
    (hlo : other.length < Word.limit) (heq : r.encode ++ rest = other.encode ++ rest') :
    r = other ∧ rest = rest' := by
  simp only [encode, header, List.append_assoc] at heq
  obtain ⟨hwords, heq⟩ := List.append_inj heq rfl
  obtain ⟨hlabel, heq⟩ := List.append_inj heq (h.label.trans ho.label.symm)
  simp only [Word.listToBytes, List.flatMap_cons, List.flatMap_nil] at hwords
  obtain ⟨-, hwords⟩ := List.append_inj hwords rfl
  obtain ⟨hlength, hwords⟩ := List.append_inj hwords rfl
  obtain ⟨hcount, -⟩ := List.append_inj hwords rfl
  have hlen := Nat.add_left_cancel (Word.toBytes_inj hl hlo hlength)
  obtain ⟨htable, hrest⟩ := List.append_inj heq hlen
  have hcounts := Word.toBytes_inj h.counted ho.counted hcount
  obtain ⟨label, count, table⟩ := r
  exact ⟨by rw [show label = other.label from hlabel, show count = other.count from hcounts,
    show table = other.table from htable], hrest⟩

end Record.Sized

namespace LibraryFile

theorem exists_word {lib : LibraryFile} {view : Image} (hview : lib.view = .ok view) {offset : Nat}
    (hfits : offset + Word.size ≤ view.size) : ∃ n, lib.word offset = .ok n := by
  have hlong : Word.size * 1 ≤ (view.toList.drop offset).length := by
    rw [List.length_drop, Image.length_toList]
    omega
  obtain ⟨numbers, rest, hrest, hnumbers, hbelow⟩ := Word.exists_listToBytes 1 hlong
  match numbers, hnumbers with
  | [n], _ =>
    have hstart : (view.toList.take offset).length = offset := by
      rw [List.length_take, Image.length_toList]
      omega
    have hsplit : view.toList = view.toList.take offset ++ Word.toBytes n ++ rest := by
      rw [List.append_assoc]
      exact (List.take_append_drop offset view.toList).symm.trans (congrArg _ hrest)
    have hword := word_of_view hview _ rest (hbelow n (by simp)) hsplit
    rw [hstart] at hword
    exact ⟨n, hword⟩

theorem exists_volume {lib : LibraryFile} {size : Nat} (hcalm : lib.system = .calm)
    (hmapped : lib.mapped = some size)
    (hsize : LibraryHeader.size ≤ size) (hcontents : lib.contents.size = size)
    (hmagic : lib.word LibraryHeader.magicField.offset = .ok LibraryHeader.magicNumber)
    (hlength : lib.length = .ok size) : ∃ v, Keeps lib.settings v lib := by
  have hbytes : lib.contents.toList.length = size := by rw [Image.length_toList, hcontents]
  have hholding : Holding lib.settings lib.contents.toList lib :=
    ⟨rfl, rfl, by rw [hmapped, hbytes], hcalm⟩
  obtain ⟨view, hview, hsame⟩ := hholding.view_eq
  have hlong : Word.size * 3 + (LibraryHeader.nameField.width + LibraryHeader.mediaPrefixField.width)
      ≤ lib.contents.toList.length := hbytes.symm ▸ hsize
  obtain ⟨magic, mediaCount, length, fields, body, hsplit, hm, hc, hl, hfields⟩ :=
    Word.exists_numbers_field _ hlong
  rw [← hsame] at hsplit
  have hfirst := word_of_view hview [] (Word.listToBytes [mediaCount, length] ++ fields ++ body) hm
    (by simpa [Word.listToBytes] using hsplit)
  have hthird := word_of_view hview (Word.toBytes magic ++ Word.toBytes mediaCount)
    (fields ++ body) hl (by simpa [Word.listToBytes] using hsplit)
  obtain rfl := Except.ok.inj (hfirst.symm.trans hmagic)
  obtain rfl := Except.ok.inj (hthird.symm.trans hlength)
  have hbody : length = LibraryHeader.size + body.length := by
    rw [← hbytes, ← hsame, hsplit]
    simp only [List.length_append, hfields]
    rfl
  have hencode : lib.contents.toList = Volume.encode ⟨mediaCount, fields, body⟩ := by
    rw [← hsame, hsplit, Volume.encode, Volume.header, Volume.length, ← hbody]
  refine ⟨⟨mediaCount, fields, body⟩, hencode ▸ hholding, hfields, hc, ?_⟩
  show LibraryHeader.size + body.length < Word.limit
  rwa [← hbody]

theorem keeps_of_ofContents {file : String} {settings : Settings} {contents : Image}
    {system : System} {lib : LibraryFile} (h : ofContents file settings contents system = .ok lib) :
    lib.contents = contents ∧ ∃ v, Keeps settings v lib := by
  unfold ofContents at h
  split at h
  · cases h
  split at h
  · cases h
  rename_i hsmall hbig
  obtain ⟨-, -, h⟩ := Steps.query_eq_ok_iff.1 h
  obtain ⟨magic, hmagic, h⟩ := Steps.query_eq_ok_iff.1 h
  obtain ⟨length, hlength, h⟩ := Steps.query_eq_ok_iff.1 h
  split at h
  · cases h
  split at h
  · cases h
  rename_i hm hl
  obtain rfl := Except.ok.inj h
  obtain rfl : magic = LibraryHeader.magicNumber := Classical.byContradiction hm
  obtain rfl : length = contents.size := Classical.byContradiction hl
  exact ⟨rfl, exists_volume rfl rfl (Nat.not_lt.1 hsmall) rfl hmagic hlength⟩

theorem ofContents_error {path : String} {settings : Settings} {contents : Image}
    {system : System} {e : Failure LibraryError}
    (h : ofContents path settings contents system = .error e) :
    e = .refused (.notALibrary path) ∨ (∃ damage, e = .refused (.corrupt damage)) ∨
      ∃ error, e = .refused (.io error) := by
  unfold ofContents at h
  split at h
  · exact Or.inl (Except.error.inj h).symm
  split at h
  · exact Or.inr (Or.inl ⟨_, (Except.error.inj h).symm⟩)
  rename_i hsize _
  cases hmapping : system.now.mapping with
  | some error =>
    rw [hmapping] at h
    exact Or.inr (Or.inr ⟨error, (Except.error.inj h).symm⟩)
  | none =>
  rw [hmapping] at h
  have hview : LibraryFile.view ⟨path, settings, contents, some contents.size, .calm⟩
      = .ok (contents.resize contents.size) := rfl
  have hfits {offset : Nat} (hheader : offset + Word.size ≤ LibraryHeader.size) :
      offset + Word.size ≤ (contents.resize contents.size).size := by
    rw [Image.size_resize]
    exact Nat.le_trans hheader (Nat.not_lt.1 hsize)
  obtain ⟨magic, hmagic⟩ := exists_word hview
    (hfits (show LibraryHeader.magicField.offset + Word.size ≤ _ by decide))
  obtain ⟨length, hlength⟩ := exists_word hview
    (hfits (show LibraryHeader.lengthField.offset + Word.size ≤ _ by decide))
  have hlength' : LibraryFile.length ⟨path, settings, contents, some contents.size, .calm⟩ = .ok length :=
    hlength
  replace h := (Steps.query_ok hmagic).symm.trans h
  rw [Steps.query_ok hlength'] at h
  split at h
  · exact Or.inl (Except.error.inj h).symm
  split at h
  · exact Or.inr (Or.inl ⟨_, (Except.error.inj h).symm⟩)
  · cases h

theorem Keeps.exists_encloses {settings : Settings} {v : Volume} {lib : LibraryFile}
    (h : Keeps settings v lib) {offset : Nat} {p : Playlist} (hp : lib.playlistAt offset = .ok p) :
    ∃ (before : Bytes) (r : Record) (after : Bytes), Encloses settings v before r after lib ∧
      v.body = before ++ (r.encode ++ after) ∧ offset = LibraryHeader.size + before.length ∧
      p = r.playlist offset := by
  obtain ⟨view, hview, hbytes⟩ := h.holding.view_eq
  rw [playlistAt, Steps.query_ok hview] at hp
  have hread : Playlist.readAt view offset = .ok p := Steps.ofCheck_eq_ok_iff.1 hp
  unfold Playlist.readAt at hread
  split at hread
  · cases hread
  rename_i hhead
  have hlong := Playlist.size_le_of_ofTail hread
  have hdrop : (view.drop offset).size = view.size - offset := by
    rw [← Image.length_toList, Image.toList_drop, List.length_drop, Image.length_toList]
  have hinside : offset + (view.drop offset).size = view.size := by
    unfold PlaylistHeader.size at hlong
    omega
  obtain ⟨r, after, hr, -, htail, rfl⟩ := Playlist.record_of_ofTail hinside hread
  obtain ⟨place, rfl⟩ := Nat.exists_eq_add_of_le (Nat.not_lt.1 hhead)
  rw [Image.toList_drop, hbytes, Volume.encode, ← h.sized.length_header,
    List.drop_length_add_append] at htail
  have hsize : view.size = LibraryHeader.size + v.body.length := by
    rw [← Image.length_toList, hbytes, h.sized.length_encode, Volume.length]
  have hlength : (v.body.take place).length = place := by
    rw [List.length_take]
    omega
  have hbody : v.body = v.body.take place ++ (r.encode ++ after) := by
    rw [← htail, List.take_append_drop]
  refine ⟨v.body.take place, r, after, ⟨?_, hr⟩, hbody, by rw [hlength], rfl⟩
  rw [← hbody]
  exact h

theorem readAt_of_mem_walk {view tail : Image} {offset : Nat} {p : Playlist}
    (hoffset : LibraryHeader.size ≤ offset) (htail : tail.toList = (view.drop offset).toList)
    (h : p ∈ (Walk.ofTail view.size offset tail).playlists) :
    Playlist.readAt view p.offset = .ok p := by
  fun_induction Walk.ofTail view.size offset tail with
  | case1 offset tail hlt damage unsound => cases h
  | case2 offset tail hlt q sound _ ih =>
    rcases List.mem_cons.1 h with rfl | hrest
    · rw [Playlist.ofTail_congr htail] at sound
      rw [Playlist.offset_of_ofTail sound, Playlist.readAt, if_neg (Nat.not_lt.2 hoffset), sound]
    · apply ih (Nat.le_add_right_of_le hoffset) _ hrest
      rw [Image.toList_drop, htail, Image.toList_drop, Image.toList_drop, List.drop_drop]
  | case3 offset tail hlt => cases h

theorem playlistAt_of_named {lib : LibraryFile} {name : String} {p : Playlist}
    (h : lib.named name = .ok p) : lib.playlistAt p.offset = .ok p := by
  obtain ⟨found, hfind, h⟩ := Steps.query_eq_ok_iff.1 h
  obtain ⟨walk, hwalk, hfind⟩ := Steps.query_eq_ok_iff.1 hfind
  obtain ⟨view, hview, hwalk⟩ := Steps.query_eq_ok_iff.1 hwalk
  obtain rfl := Except.ok.inj hwalk
  have hmem : p ∈ (Walk.ofImage view LibraryHeader.size).playlists := by
    split at hfind
    · obtain rfl := Except.ok.inj hfind
      obtain rfl := Except.ok.inj h
      exact List.mem_of_find?_eq_some ‹_›
    · cases hfind
    · obtain rfl := Except.ok.inj hfind
      cases h
  have hread : Playlist.readAt view p.offset = .ok p :=
    readAt_of_mem_walk (Nat.le_refl _) rfl hmem
  rw [playlistAt, Steps.query_ok hview, hread]
  rfl

/-- A walk reads records end to end, as many as there are: it comes to the end of the bytes, or to a
place where no record begins. -/
theorem walk_cases {size offset : Nat} {tail : Image} (hsize : offset + tail.size = size) :
    ∃ records rest, (∀ r ∈ records, r.Sized ∧ r.length < Word.limit) ∧
      tail.toList = bodyOf records ++ rest ∧
      (Walk.ofTail size offset tail).playlists = playlistsFrom offset records ∧
      ((Walk.ofTail size offset tail).damage = none ↔ rest = []) ∧
      ∀ (r : Record) (after : Bytes), r.Sized → r.length < Word.limit →
        rest ≠ r.encode ++ after := by
  -- along the walk; the place that was reached and the bytes from there on make up the file
  fun_induction Walk.ofTail size offset tail with
  | case1 offset tail hlt damage unsound =>
    refine ⟨[], tail.toList, by simp, rfl, rfl, ?_, fun r after hr hbelow htail => ?_⟩
    · constructor
      · intro h
        cases h
      · intro hempty
        rw [← Image.length_toList, hempty] at hsize
        simp at hsize
        omega
    · have hfits : r.length ≤ size - offset := by
        rw [← hsize, Nat.add_sub_cancel_left, ← Image.length_toList, htail, List.length_append,
          hr.length_encode]
        exact Nat.le_add_right _ _
      rw [hr.ofTail_eq size offset htail hfits hbelow] at unsound
      cases unsound
  | case2 offset tail hlt p sound _ ih =>
    obtain ⟨r, rest, hr, hbelow, htail, rfl⟩ := Playlist.record_of_ofTail hsize sound
    have hrest : (tail.drop r.length).toList = rest := by
      rw [Image.toList_drop, htail, ← hr.length_encode, List.drop_left]
    have hlen : tail.size = r.length + rest.length := by
      rw [← Image.length_toList, htail, List.length_append, hr.length_encode]
    have hnext : offset + r.length + (tail.drop r.length).size = size := by
      rw [← Image.length_toList, hrest]
      omega
    obtain ⟨records, left, hrecords, hbytes, hplaylists, hdamage, hend⟩ := ih hnext
    refine ⟨r :: records, left, ?_, ?_, congrArg _ hplaylists, hdamage, hend⟩
    · intro x hx
      rcases List.mem_cons.1 hx with rfl | hx
      · exact ⟨hr, hbelow⟩
      · exact hrecords x hx
    · rw [bodyOf_cons, List.append_assoc, ← hbytes, htail]
      exact congrArg _ hrest.symm
  | case3 offset tail hlt =>
    have hempty : tail.toList = [] := by
      apply List.eq_nil_of_length_eq_zero
      rw [Image.length_toList]
      omega
    refine ⟨[], [], by simp, hempty, rfl, by simp, fun r after hr _ heq => ?_⟩
    have hlength := congrArg List.length heq
    rw [List.length_append, hr.length_encode, Record.length] at hlength
    simp [PlaylistHeader.size] at hlength
    omega

theorem records_of_walk {size offset : Nat} {tail : Image} (hsize : offset + tail.size = size)
    (h : (Walk.ofTail size offset tail).damage = none) :
    ∃ records, (∀ r ∈ records, r.Sized) ∧ tail.toList = bodyOf records := by
  obtain ⟨records, rest, hrecords, hbytes, -, hdamage, -⟩ := walk_cases hsize
  rw [hdamage.1 h, List.append_nil] at hbytes
  exact ⟨records, fun r hr => (hrecords r hr).1, hbytes⟩

theorem Keeps.stores_of_walk {settings : Settings} {v : Volume} {lib : LibraryFile}
    (h : Keeps settings v lib) {walk : Walk} (hwalk : lib.walk = .ok walk)
    (hdamage : walk.damage = none) : ∃ shelf, Stores settings shelf lib := by
  obtain ⟨view, hview, hbytes⟩ := h.holding.view_eq
  rw [LibraryFile.walk, Steps.query_ok hview] at hwalk
  obtain rfl := Except.ok.inj hwalk
  have htail : (view.drop LibraryHeader.size).toList = v.body := by
    rw [Image.toList_drop, hbytes, Volume.encode, ← h.sized.length_header, List.drop_left]
  have hsize : LibraryHeader.size + (view.drop LibraryHeader.size).size = view.size := by
    rw [← Image.length_toList, htail, ← Image.length_toList view, hbytes, h.sized.length_encode]
    rfl
  obtain ⟨records, hsized, hbody⟩ := records_of_walk hsize hdamage
  have hvolume : Shelf.volume ⟨v.mediaCount, v.fields, records⟩ = v := by
    rw [Shelf.volume, ← hbody, htail]
  exact ⟨_, hvolume.symm ▸ h, hsized⟩

theorem length_le_bodyOf {records : List Record} (hsized : ∀ r ∈ records, r.Sized) {r : Record}
    (hr : r ∈ records) : r.length ≤ (bodyOf records).length := by
  obtain ⟨before, after, rfl⟩ := List.append_of_mem hr
  rw [bodyOf_append, bodyOf_cons, List.length_append, List.length_append,
    (hsized r hr).length_encode]
  omega

theorem bodyOf_inj {first second : List Record} (hf : ∀ r ∈ first, r.Sized)
    (hs : ∀ r ∈ second, r.Sized) (hbelow : (bodyOf first).length < Word.limit)
    (h : bodyOf first = bodyOf second) : first = second := by
  induction first generalizing second with
  | nil =>
    cases second with
    | nil => rfl
    | cons r rest =>
      have hr := (hs r List.mem_cons_self).length_encode
      have hempty := congrArg List.length h
      rw [bodyOf_cons, List.length_append, hr, bodyOf_nil, Record.length] at hempty
      simp [PlaylistHeader.size] at hempty
      omega
  | cons r rest ih =>
    cases second with
    | nil =>
      have hr := (hf r List.mem_cons_self).length_encode
      have hempty := congrArg List.length h
      rw [bodyOf_cons, List.length_append, hr, bodyOf_nil, Record.length] at hempty
      simp [PlaylistHeader.size] at hempty
    | cons other rest' =>
      have hl := length_le_bodyOf hf List.mem_cons_self
      have hlo := length_le_bodyOf hs List.mem_cons_self
      rw [← h] at hlo
      rw [bodyOf_cons, bodyOf_cons] at h
      obtain ⟨rfl, hrest⟩ := (hf r List.mem_cons_self).encode_append_inj
        (hs other List.mem_cons_self) (Nat.lt_of_le_of_lt hl hbelow)
        (Nat.lt_of_le_of_lt hlo hbelow) h
      rw [bodyOf_cons, List.length_append] at hbelow
      rw [ih (fun x hx => hf x (List.mem_cons_of_mem _ hx))
        (fun x hx => hs x (List.mem_cons_of_mem _ hx)) (by omega) hrest]

end LibraryFile
end MediaLibrary
