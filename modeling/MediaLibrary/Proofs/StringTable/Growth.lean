import MediaLibrary.Proofs.Steps
import MediaLibrary.Proofs.StringTable.Packed
import MediaLibrary.StringTable.Growth
/-! Adding to a table inside larger storage. Storage carries a table if it shows its bytes, lets them
be changed, and opens gaps among them or refuses to. Then a growth step makes the free bytes longer
and changes nothing else, and adding either stores the string after enough steps, or is refused
after some of them with the same strings stored. -/
namespace MediaLibrary.StringTable

variable {σ : Type}

/-- In the storage `s` lie the bytes of which `shows s` tells, from offset `base` on, and what is laid
over them changes them as if they were all there is. -/
structure Host.Exposes (host : Host σ) (base : Nat) (shows : σ → Bytes → Prop) : Prop where
  image : ∀ {s bytes}, shows s bytes → ∃ before after,
    (host.image s).toList = before ++ bytes ++ after ∧ before.length = base
  overlay : ∀ {s bytes} {offset : Nat} {new : Image}, shows s bytes →
    offset + new.size ≤ bytes.length →
    shows (host.overlay s (base + offset) new) (Bytes.overlay bytes offset new.toList)

/-- A gap is opened among the bytes too, or the storage stays as it is. -/
structure Host.Carries (host : Host σ) (base : Nat) (shows : σ → Bytes → Prop) : Prop
    extends host.Exposes base shows where
  insertSpace : ∀ {s bytes} {offset : Nat} (count : Nat), shows s bytes → offset ≤ bytes.length →
    (∃ s', host.insertSpace (base + offset) count s = .ok () s' ∧
      shows s' (bytes.take offset ++ Bytes.zeros count ++ bytes.drop offset)) ∨
    ∃ f, host.insertSpace (base + offset) count s = .error f s

/-- Why a growth step of `quantum` bytes is refused. -/
def Host.Refuses (host : Host σ) (base : Nat) (shows : σ → Bytes → Prop) (quantum : Nat) (s : σ)
    (e : Failure TableError) : Prop :=
  e = .refused .overflow ∨ ∃ bytes offset f, shows s bytes ∧ offset ≤ bytes.length ∧
    host.insertSpace (base + offset) quantum s = .error f s ∧ e = f.map .grow

variable {host : Host σ} {base : Nat} {shows : σ → Bytes → Prop} {s : σ} {p : Parts}

theorem Host.Exposes.tableAt_eq (h : host.Exposes base shows) (hp : p.Sized)
    (hs : shows s p.encode) : ∃ t, tableAt host base s = .ok t ∧ t.parts = p := by
  obtain ⟨before, after, himage, hlen⟩ := h.image hs
  have hdrop : ((host.image s).drop base).toList = p.encode ++ after := by
    rw [Image.toList_drop, himage, List.append_assoc, ← hlen, List.drop_left]
  obtain ⟨t, ht, hparts⟩ := decode_of_encode hp hdrop
  have hsize : ¬ (host.image s).size < base := by
    have := congrArg List.length himage
    simp only [Image.length_toList, List.length_append] at this
    omega
  exact ⟨t, by rw [tableAt, decodeAt, if_neg hsize, ht]; rfl, hparts⟩

theorem encode_widen (p : Parts) (count : Nat) :
    Bytes.overlay (p.encode.take p.indexOffset ++ Bytes.zeros count ++ p.encode.drop p.indexOffset)
      lengthField.offset (Word.listToBytes [p.length + count, p.indexOffset + count])
    = (p.widen count).encode := by
  have hsplit : p.encode = (p.header.encode ++ p.strings ++ p.free) ++ p.index := rfl
  have hlen : p.indexOffset = (p.header.encode ++ p.strings ++ p.free).length := by
    simp only [List.length_append, Header.length_encode, Parts.indexOffset]
  have hhead : p.header.encode = Word.toBytes magic
      ++ (Word.toBytes p.length ++ Word.toBytes p.indexOffset) ++ Word.toBytes p.strings.length := rfl
  have hnew : (p.widen count).header.encode = Word.toBytes magic
      ++ Word.listToBytes [p.length + count, p.indexOffset + count]
      ++ Word.toBytes p.strings.length := by
    have hoff : (p.widen count).indexOffset = p.indexOffset + count := by
      simp only [Parts.widen, Parts.indexOffset, List.length_append, Bytes.length_zeros]
      omega
    have := Parts.length_widen p count
    simp only [Parts.header, Header.encode, this, hoff, Word.listToBytes]
    simp [Parts.widen]
  rw [hsplit, List.take_left' hlen.symm, List.drop_left' hlen.symm, Parts.encode, hnew, hhead]
  have := Bytes.overlay_middle (Word.toBytes magic)
    (Word.toBytes p.length ++ Word.toBytes p.indexOffset)
    (Word.toBytes p.strings.length ++ p.strings ++ p.free ++ Bytes.zeros count ++ p.index)
    (Word.listToBytes [p.length + count, p.indexOffset + count]) rfl
  simpa [Parts.widen, lengthField, Word.size] using this

theorem decode_of_decodeAt {image : Image} {base : Nat} {t : StringTable}
    (h : decodeAt image base = .ok t) : decode (image.drop base) = .ok t := by
  unfold decodeAt at h
  split at h
  · cases h
  · exact h

theorem Host.Exposes.grow_eq (h : host.Exposes base shows) (hp : p.Sized) (hs : shows s p.encode)
    (quantum : Nat) : grow host base quantum s =
      if Word.limit ≤ p.length + quantum then .error (.refused .overflow) s
      else match host.insertSpace (base + p.indexOffset) quantum s with
        | .error f s' => .error (f.map .grow) s'
        | .ok _ s' => .ok () (host.overlay s' (base + lengthField.offset)
          (.ofBytes (Word.listToBytes [p.length + quantum, p.indexOffset + quantum]))) := by
  obtain ⟨t, ht, hparts⟩ := h.tableAt_eq hp hs
  have hlen : t.length = p.length := by rw [← length_parts, hparts]
  have hoff : t.indexOffset = p.indexOffset := by rw [← indexOffset_parts, hparts]
  rw [grow, Steps.bind_ok (Steps.consult_ok ht), hlen, hoff]
  by_cases hbig : Word.limit ≤ p.length + quantum
  · rw [if_pos hbig, if_pos hbig]
    rfl
  · rw [if_neg hbig, if_neg hbig]
    cases hins : host.insertSpace (base + p.indexOffset) quantum s with
    | error f s' => exact Steps.bind_error (Steps.adaptExcept_error hins)
    | ok _ s' => exact Steps.bind_ok (Steps.adaptExcept_ok hins)

theorem Host.Exposes.widened (h : host.Exposes base shows) {quantum : Nat}
    (hs : shows s (p.encode.take p.indexOffset ++ Bytes.zeros quantum
      ++ p.encode.drop p.indexOffset)) :
    shows (host.overlay s (base + lengthField.offset)
      (.ofBytes (Word.listToBytes [p.length + quantum, p.indexOffset + quantum])))
      (p.widen quantum).encode := by
  rw [← encode_widen p quantum]
  have hfits : lengthField.offset
      + (Image.ofBytes (Word.listToBytes [p.length + quantum, p.indexOffset + quantum])).size
      ≤ (p.encode.take p.indexOffset ++ Bytes.zeros quantum
        ++ p.encode.drop p.indexOffset).length := by
    have := p.headerSize_le_length
    simp only [Image.size_ofBytes, Word.length_listToBytes, List.length_append,
      List.length_take, List.length_drop, Parts.length_encode, Bytes.length_zeros]
    simp only [lengthField, Word.size, headerSize, List.length_cons, List.length_nil] at this ⊢
    omega
  simpa using h.overlay hs hfits

theorem Host.Carries.grow_cases (h : host.Carries base shows) (hp : p.Sized)
    (hs : shows s p.encode) (quantum : Nat) :
    (∃ s', grow host base quantum s = .ok () s' ∧ shows s' (p.widen quantum).encode ∧
      (p.widen quantum).Sized) ∨
    ∃ e, grow host base quantum s = .error e s ∧ host.Refuses base shows quantum s e := by
  have hle : p.indexOffset ≤ p.encode.length := by
    rw [Parts.length_encode]
    exact Nat.le_add_right _ _
  rw [h.grow_eq hp hs]
  by_cases hbig : Word.limit ≤ p.length + quantum
  · rw [if_pos hbig]
    exact Or.inr ⟨_, rfl, Or.inl rfl⟩
  · rw [if_neg hbig]
    rcases h.insertSpace quantum hs hle with ⟨s', hins, hs'⟩ | ⟨f, hins⟩
    · rw [hins]
      exact Or.inl ⟨_, rfl, h.widened hs', hp.widen (Nat.lt_of_not_le hbig)⟩
    · rw [hins]
      exact Or.inr ⟨_, rfl, Or.inr ⟨_, _, f, hs, hle, hins, rfl⟩⟩

/-- Of `n` growth steps, all are taken or some before one that is refused. -/
theorem Host.Carries.growTimes_cases (h : host.Carries base shows) (quantum n : Nat)
    (hp : p.Sized) (hs : shows s p.encode) :
    (∃ s', growTimes host base quantum n s = .ok () s' ∧
      shows s' (p.widen (n * quantum)).encode ∧ (p.widen (n * quantum)).Sized) ∨
    ∃ j < n, ∃ e s', growTimes host base quantum n s = .error e s' ∧
      shows s' (p.widen (j * quantum)).encode ∧ (p.widen (j * quantum)).Sized ∧
      grow host base quantum s' = .error e s' ∧ host.Refuses base shows quantum s' e := by
  -- on the steps still to take, from any storage and any table in it
  induction n generalizing s p with
  | zero => exact Or.inl ⟨s, rfl, by simpa using hs, by simpa using hp⟩
  | succ n ih =>
    have hadd : ∀ j, (p.widen quantum).widen (j * quantum) = p.widen ((j + 1) * quantum) := by
      intro j
      rw [Parts.widen_widen, Nat.succ_mul, Nat.add_comm]
    rw [growTimes]
    rcases h.grow_cases hp hs quantum with ⟨s', hgrow, hs', hp'⟩ | ⟨e, hgrow, href⟩
    · rw [Steps.bind_ok hgrow]
      rcases ih hp' hs' with ⟨s'', hrest, hs'', hp''⟩ | ⟨j, hj, e, s'', hrest, hs'', hp'', href⟩
      · rw [hadd] at hs'' hp''
        exact Or.inl ⟨s'', hrest, hs'', hp''⟩
      · rw [hadd] at hs'' hp''
        exact Or.inr ⟨j + 1, Nat.succ_lt_succ hj, e, s'', hrest, hs'', hp'', href⟩
    · exact Or.inr ⟨0, Nat.succ_pos n, e, s, Steps.bind_error hgrow, by simpa using hs,
        by simpa using hp, hgrow, href⟩

theorem exists_step_of_error {quantum n : Nat} {e : Failure TableError} {s' : σ}
    (hgrow : growTimes host base quantum n s = .error e s') :
    ∃ j < n, ∃ between, growTimes host base quantum j s = .ok () between ∧
      grow host base quantum between = .error e s' := by
  induction n generalizing s with
  | zero => cases hgrow
  | succ n ih =>
    rw [growTimes] at hgrow
    cases hfirst : grow host base quantum s with
    | error f s₁ =>
      rw [Steps.bind_error hfirst] at hgrow
      obtain ⟨rfl, rfl⟩ := EStateM.Result.error.inj hgrow
      exact ⟨0, Nat.succ_pos n, s, rfl, hfirst⟩
    | ok _ s₁ =>
      rw [Steps.bind_ok hfirst] at hgrow
      obtain ⟨j, hj, between, hsteps, hlast⟩ := ih hgrow
      exact ⟨j + 1, Nat.succ_lt_succ hj, between, (Steps.bind_ok hfirst).trans hsteps, hlast⟩

theorem le_growthSteps {quantum : Nat} (h : 0 < quantum) (free need : Nat) :
    need ≤ free + growthSteps free need quantum * quantum := by
  unfold growthSteps
  have := Nat.div_add_mod (need - free + (quantum - 1)) quantum
  have hmod := Nat.mod_lt (need - free + (quantum - 1)) h
  rw [Nat.mul_comm] at this
  omega

theorem growthSteps_of_le {free need : Nat} (h : need ≤ free) (quantum : Nat) :
    growthSteps free need quantum = 0 := by
  rw [growthSteps, Nat.sub_eq_zero_of_le h, Nat.zero_add]
  cases quantum with
  | zero => rfl
  | succ n => exact Nat.div_eq_of_lt (Nat.lt_succ_self n)

theorem lt_of_growthSteps {quantum free need : Nat} (h : 0 < growthSteps free need quantum) :
    free < need := by
  by_contra hroom
  exact absurd (growthSteps_of_le (Nat.le_of_not_lt hroom) quantum) (Nat.ne_of_gt h)

theorem growthSteps_add {quantum : Nat} (h : 0 < quantum) (free need taken : Nat) :
    growthSteps (free + taken * quantum) need quantum = growthSteps free need quantum - taken := by
  unfold growthSteps
  rw [← Nat.sub_mul_div, Nat.sub_add_eq, Nat.mul_comm taken quantum]
  by_cases hroom : quantum * taken ≤ need - free
  · rw [Nat.sub_add_comm hroom]
  · rw [Nat.div_eq_of_lt (by omega), Nat.div_eq_of_lt (by omega)]

theorem growthSteps_mono (free quantum : Nat) {need more : Nat} (h : need ≤ more) :
    growthSteps free need quantum ≤ growthSteps free more quantum :=
  Nat.div_le_div_right (Nat.add_le_add_right (Nat.sub_le_sub_right h free) _)

/-- The length to which a table grows for strings and slots of `need` bytes in all. -/
def fitted (quantum length need : Nat) : Nat :=
  length + growthSteps (length - headerSize) need quantum * quantum

/-- A table that grows for some strings and later for more of them is as long as one that grew for
all at once. -/
theorem fitted_fitted {quantum length need more : Nat} (hq : 0 < quantum)
    (hlength : headerSize ≤ length) (hmore : need ≤ more) :
    fitted quantum (fitted quantum length need) more = fitted quantum length more := by
  have hsteps := growthSteps_mono (length - headerSize) quantum hmore
  unfold fitted
  rw [Nat.sub_add_comm hlength, growthSteps_add hq, Nat.add_assoc, ← Nat.add_mul,
    Nat.add_sub_cancel' hsteps]

theorem fitted_concat {quantum length : Nat} {strings : List Bytes}
    (hroom : headerSize + filled strings ≤ length) (value : Bytes) :
    length + growthSteps (length - headerSize - filled strings) (roomFor value.length) quantum
      * quantum = fitted quantum length (filled (strings ++ [value])) := by
  have hneed : roomFor value.length - (length - headerSize - filled strings)
      = filled strings + roomFor value.length - (length - headerSize) := by
    omega
  rw [fitted, filled_concat, growthSteps, growthSteps, hneed]

/-! Adding. -/

variable {value : Bytes} {quantum : Nat}

theorem add_of_nul (hv : 0 ∈ value) :
    add host base value quantum s = .error (.refused .interiorNul) s := by
  rw [add, Steps.bind_error (Steps.consult_error _)]
  rw [checkNew, if_pos hv]

theorem add_of_zero_quantum (hv : 0 ∉ value) :
    add host base value 0 s = .error (.refused .zeroQuantum) s := by
  rw [add, Steps.bind_error (Steps.consult_error _)]
  rw [checkNew, if_neg hv, if_pos rfl]

theorem add_of_damage {e : Failure TableError} (hv : 0 ∉ value) (hq : 0 < quantum)
    (ht : tableAt host base s = .error e) : add host base value quantum s = .error e s := by
  rw [add, Steps.bind_error (Steps.consult_error _)]
  rw [checkNew, if_neg hv, if_neg (by omega), Steps.query_error ht]

theorem checkNew_of_found {t : StringTable} {n : Nat} (hv : 0 ∉ value) (hq : 0 < quantum)
    (ht : tableAt host base s = .ok t) (hr : t.search value = .ok (.found n)) :
    checkNew host base value quantum s = .error (.refused .duplicate) := by
  rw [checkNew, if_neg hv, if_neg (by omega), Steps.query_ok ht, hr]
  rfl

theorem checkNew_of_absent {t : StringTable} {n : Nat} (hv : 0 ∉ value) (hq : 0 < quantum)
    (ht : tableAt host base s = .ok t) (hr : t.search value = .ok (.absent n)) :
    checkNew host base value quantum s = .ok t.free.size := by
  rw [checkNew, if_neg hv, if_neg (by omega), Steps.query_ok ht, hr]
  rfl

theorem Host.Exposes.overlay_table (h : host.Exposes base shows) (hs : shows s p.encode)
    {t : StringTable} (hlen : t.parts.length = p.length) :
    shows (host.overlay s base t.encode) t.parts.encode := by
  have hsize : t.encode.size = p.encode.length := by
    rw [← Image.length_toList, toList_encode, Parts.length_encode, Parts.length_encode, hlen]
  have hfits : 0 + t.encode.size ≤ p.encode.length := by omega
  have hover := h.overlay hs hfits
  rwa [toList_encode, Bytes.overlay_whole (by simp [hlen])] at hover

theorem Host.Exposes.pushAt_eq (h : host.Exposes base shows) {q : Parts} (hp : p.Sized)
    (hs : shows s p.encode) (hlen : q.length = p.length)
    (hpush : ∀ t : StringTable, t.parts = p → ∃ pushed, t.push value = .ok pushed ∧
      pushed.parts = q) :
    ∃ s', pushAt host base value s = .ok () s' ∧ shows s' q.encode := by
  obtain ⟨t, ht, hparts⟩ := h.tableAt_eq hp hs
  obtain ⟨pushed, hpushed, rfl⟩ := hpush t hparts
  have hcheck : Failure.ofCheck TableError.corrupt (t.push value) = .ok pushed := by
    rw [hpushed]
    rfl
  refine ⟨host.overlay s base pushed.encode, ?_, h.overlay_table hs hlen⟩
  rw [pushAt, Steps.bind_ok (Steps.consult_ok ht)]
  exact Steps.bind_ok (Steps.consult_ok hcheck)

/-! Storage with more than a table in it, and tables about which no more is known than that they can
be read. -/

theorem Host.Carries.leading (h : host.Carries base shows) (rest : Bytes) :
    host.Carries base fun s bytes => shows s (bytes ++ rest) where
  image {s bytes} hs := by
    obtain ⟨before, after, himage, hlen⟩ := h.image hs
    exact ⟨before, rest ++ after, by simp [himage], hlen⟩
  overlay {s bytes offset new} hs hfits := by
    have hinside : offset + new.toList.length ≤ bytes.length := by simpa using hfits
    have hover := h.overlay hs (Nat.le_trans hfits (by simp))
    rwa [Bytes.overlay_append_left _ hinside] at hover
  insertSpace {s bytes offset} count hs hoffset := by
    have hgap : (bytes ++ rest).take offset ++ Bytes.zeros count ++ (bytes ++ rest).drop offset
        = bytes.take offset ++ Bytes.zeros count ++ bytes.drop offset ++ rest := by
      rw [List.take_append_of_le_length hoffset, List.drop_append_of_le_length hoffset]
      simp
    rw [← hgap]
    exact h.insertSpace count hs (Nat.le_trans hoffset (by simp))

theorem size_indexOf (slots : List Nat) : (indexOf slots).size = slotSize * slots.length := by
  rw [indexOf, Image.size_ofBytes, Word.length_listToBytes, slotSize]

theorem sizes_of_push {t pushed : StringTable} (h : t.push value = .ok pushed) :
    pushed.strings.size = t.strings.size + (value.length + 1) ∧
    pushed.free.size + roomFor value.length = t.free.size ∧
    pushed.index.size = slotSize * (t.entries + 1) := by
  unfold push at h
  split at h
  case isFalse => cases h
  case isTrue hroom =>
    obtain rfl := Except.ok.inj h
    have hroom : roomFor value.length ≤ t.free.size := by simpa [hasRoomFor] using hroom
    refine ⟨?_, ?_, ?_⟩
    · simp [sort, ← Image.length_toList]
    · simp only [sort, ← Image.length_toList, Image.toList_slice, Bytes.length_slice]
      unfold roomFor at hroom ⊢
      rw [Image.length_toList]
      omega
    · rw [sort, size_indexOf, length_sortSlots, slots_indexOf, List.length_map, List.length_cons,
        length_slots]

theorem sized_push {t pushed : StringTable} (ht : t.parts.Sized)
    (hpush : t.push value = .ok pushed) :
    pushed.parts.Sized ∧ pushed.parts.length = t.parts.length := by
  obtain ⟨hstrings, hfree, hindex⟩ := sizes_of_push hpush
  have hwhole : t.index.size % slotSize = 0 := by simpa [parts] using ht.whole
  have hslots : slotSize * t.entries = t.index.size :=
    Nat.mul_div_cancel' (Nat.dvd_of_mod_eq_zero hwhole)
  have hlength : pushed.parts.length = t.parts.length := by
    rw [length_parts, length_parts, length, length, indexOffset, indexOffset, hstrings, hindex,
      Nat.mul_add, hslots]
    unfold roomFor at hfree
    omega
  refine ⟨⟨?_, hlength.symm ▸ ht.below⟩, hlength⟩
  show pushed.index.toList.length % slotSize = 0
  rw [Image.length_toList, hindex, Nat.mul_mod_right]

/-- Whatever its strings, a table to which a string was added is a table again, longer by whole
growth steps. -/
theorem Host.Carries.add_ok (h : host.Carries base shows) (hp : p.Sized) (hs : shows s p.encode)
    {s' : σ} (hadd : add host base value quantum s = .ok () s') :
    ∃ (n : Nat) (q : Parts), q.Sized ∧ q.length = p.length + n * quantum ∧ shows s' q.encode := by
  obtain ⟨free, _, hcheck, hrest⟩ := Steps.bind_eq_ok_iff.1 hadd
  obtain ⟨-, rfl⟩ := Steps.consult_eq_ok_iff.1 hcheck
  obtain ⟨_, wide, hgrow, hpush⟩ := Steps.bind_eq_ok_iff.1 hrest
  rcases h.growTimes_cases quantum (growthSteps free (roomFor value.length) quantum) hp hs with
    ⟨_, hgrown, hwide, hsized⟩ | ⟨_, _, e, _, hfail, _⟩
  · obtain rfl := (EStateM.Result.ok.inj (hgrow.symm.trans hgrown)).2
    obtain ⟨t, hread, hparts⟩ := h.tableAt_eq hsized hwide
    rw [pushAt, Steps.bind_ok (Steps.consult_ok hread)] at hpush
    obtain ⟨pushed, _, hconsult, hwrite⟩ := Steps.bind_eq_ok_iff.1 hpush
    obtain ⟨hcheck, rfl⟩ := Steps.consult_eq_ok_iff.1 hconsult
    have hpushed : t.push value = .ok pushed := Steps.ofCheck_eq_ok_iff.1 hcheck
    obtain rfl := (EStateM.Result.ok.inj hwrite).2
    obtain ⟨hsized', hlength⟩ := sized_push (hparts.symm ▸ hsized) hpushed
    rw [hparts] at hlength
    exact ⟨_, pushed.parts, hsized', hlength.trans (Parts.length_widen _ _),
      h.overlay_table hwide hlength⟩
  · rw [hgrow] at hfail
    cases hfail

theorem exists_table_of_checkNew {free : Nat}
    (h : checkNew host base value quantum s = .ok free) :
    0 < quantum ∧ ∃ t, tableAt host base s = .ok t ∧ t.free.size = free := by
  unfold checkNew at h
  split at h
  · cases h
  split at h
  · cases h
  rename_i hzero
  obtain ⟨t, ht, h⟩ := Steps.query_eq_ok_iff.1 h
  obtain ⟨rank, -, h⟩ := Steps.query_eq_ok_iff.1 h
  cases rank with
  | found n => cases h
  | absent n => exact ⟨Nat.pos_of_ne_zero hzero, t, ht, Except.ok.inj h⟩

theorem Host.Exposes.exists_pushAt (h : host.Exposes base shows) (hp : p.Sized)
    (hs : shows s p.encode) (hroom : roomFor value.length ≤ p.free.length) :
    ∃ s', pushAt host base value s = .ok () s' := by
  obtain ⟨t, ht, rfl⟩ := h.tableAt_eq hp hs
  have hroom : t.hasRoomFor value := by simpa [hasRoomFor, parts] using hroom
  have hpush : Failure.ofCheck TableError.corrupt (t.push value) = .ok _ :=
    Steps.ofCheck_eq_ok_iff.2 (if_pos hroom)
  exact ⟨_, (Steps.bind_ok (Steps.consult_ok ht)).trans (Steps.bind_ok (Steps.consult_ok hpush))⟩

/-- A string that is not refused at once is only refused where a growth step is, and the steps before
that one are all that was done. -/
theorem Host.Carries.add_error (h : host.Carries base shows) (hp : p.Sized) (hs : shows s p.encode)
    {free : Nat} (hcheck : checkNew host base value quantum s = .ok free) {e : Failure TableError}
    {s' : σ} (hadd : add host base value quantum s = .error e s') :
    ∃ n, growTimes host base quantum n s = .ok () s' ∧ host.Refuses base shows quantum s' e := by
  obtain ⟨hq, t, ht, rfl⟩ := exists_table_of_checkNew hcheck
  obtain ⟨t', ht', rfl⟩ := h.tableAt_eq hp hs
  obtain rfl := Except.ok.inj (ht.symm.trans ht')
  rw [add, Steps.bind_ok (Steps.consult_ok hcheck)] at hadd
  have hroom := le_growthSteps hq t.free.size (roomFor value.length)
  generalize growthSteps t.free.size (roomFor value.length) quantum = steps at hadd hroom
  cases hgrow : growTimes host base quantum steps s with
  | ok _ wide =>
    rcases h.growTimes_cases quantum steps hp hs with
      ⟨_, hgrown, hwide, hsized⟩ | ⟨_, _, _, _, hfail, _⟩
    · obtain rfl := (EStateM.Result.ok.inj (hgrow.symm.trans hgrown)).2
      have hroom : roomFor value.length ≤ (t.parts.widen (steps * quantum)).free.length := by
        simpa [Parts.widen, parts] using hroom
      obtain ⟨s₂, hpush⟩ := h.exists_pushAt hsized hwide hroom
      rw [Steps.bind_ok hgrow, hpush] at hadd
      cases hadd
    · rw [hgrow] at hfail
      cases hfail
  | error f broken =>
    rw [Steps.bind_error hgrow] at hadd
    obtain ⟨rfl, rfl⟩ := EStateM.Result.error.inj hadd
    obtain ⟨n, -, between, hsteps, hlast⟩ := exists_step_of_error hgrow
    rcases h.growTimes_cases quantum n hp hs with
      ⟨_, hgrown, hbetween, hsized⟩ | ⟨_, _, _, _, hfail, _⟩
    · obtain rfl := (EStateM.Result.ok.inj (hsteps.symm.trans hgrown)).2
      rcases h.grow_cases hsized hbetween quantum with ⟨_, hok, -⟩ | ⟨_, hstep, hrefuses⟩
      · rw [hlast] at hok
        cases hok
      · obtain ⟨rfl, rfl⟩ := EStateM.Result.error.inj (hlast.symm.trans hstep)
        exact ⟨n, hsteps, hrefuses⟩
    · rw [hsteps] at hfail
      cases hfail

/-! A string is looked for before it is stored. Whether it is there is told from the parts of the
table alone. -/

section Ordered

variable {values : List Bytes}

theorem Host.Exposes.add_stored (h : host.Exposes base shows) (hp : p.Sized) (hs : shows s p.encode)
    (hordered : ∀ t : StringTable, t.parts = p → t.Ordered values) (hmem : value ∈ values)
    (hnul : 0 ∉ value) (hq : 0 < quantum) :
    add host base value quantum s = .error (.refused .duplicate) s := by
  obtain ⟨t, ht, hparts⟩ := h.tableAt_eq hp hs
  have hsearch := (hordered t hparts).search_eq value
  rw [rankOf_of_mem hmem] at hsearch
  rw [add, Steps.bind_error (Steps.consult_error _)]
  exact checkNew_of_found hnul hq ht hsearch

theorem Host.Exposes.add_new (h : host.Exposes base shows) (hp : p.Sized) (hs : shows s p.encode)
    (hordered : ∀ t : StringTable, t.parts = p → t.Ordered values) (hnew : value ∉ values)
    (hnul : 0 ∉ value) (hq : 0 < quantum) : add host base value quantum s
      = (growTimes host base quantum (growthSteps p.free.length (roomFor value.length) quantum)
        >>= fun _ => pushAt host base value) s := by
  obtain ⟨t, ht, hparts⟩ := h.tableAt_eq hp hs
  have hsearch := (hordered t hparts).search_eq value
  rw [rankOf_of_not_mem hnew] at hsearch
  have hcheck := checkNew_of_absent hnul hq ht hsearch
  rw [add, Steps.bind_ok (Steps.consult_ok hcheck), ← hparts, length_free_parts]

end Ordered

section Packed

variable {length : Nat} {strings : List Bytes}

theorem Host.Carries.add_present (h : host.Carries base shows) (hp : Packable length strings)
    (hs : shows s (packed length strings).encode) (hq : 0 < quantum) (hv : value ∈ strings) :
    add host base value quantum s = .error (.refused .duplicate) s := by
  exact h.add_stored hp.sized hs (fun t ht => hp.ordered ht) (Bytes.mem_ascending.2 hv)
    (hp.nul_free value hv) hq

/-- A string that is new is stored after the others, in a table grown as far as needed; or a growth
step is refused, and the table has only grown. -/
theorem Host.Carries.add_cases (h : host.Carries base shows) (hp : Packable length strings)
    (hs : shows s (packed length strings).encode) (hq : 0 < quantum) (hnew : value ∉ strings)
    (hnul : 0 ∉ value) {n : Nat}
    (hn : n = growthSteps (length - headerSize - filled strings) (roomFor value.length) quantum) :
    (∃ s', add host base value quantum s = .ok () s' ∧
      shows s' (packed (length + n * quantum) (strings ++ [value])).encode ∧
      Packable (length + n * quantum) (strings ++ [value])) ∨
    ∃ j < n, ∃ e s', add host base value quantum s = .error e s' ∧
      shows s' (packed (length + j * quantum) strings).encode ∧
      Packable (length + j * quantum) strings ∧ host.Refuses base shows quantum s' e := by
  have hfree : (packed length strings).free.length = length - headerSize - filled strings := by
    simp [packed]
  rw [h.add_new hp.sized hs (fun t ht => hp.ordered ht) (mt Bytes.mem_ascending.1 hnew) hnul hq,
    hfree, ← hn]
  have hlimit : ∀ {j}, (packed (length + j * quantum) strings).Sized →
      length + j * quantum < Word.limit := by
    intro j hsized
    have hlen := Parts.length_widen (packed length strings) (j * quantum)
    rw [hp.packed_widen, hp.length_packed] at hlen
    exact hlen ▸ hsized.below
  rcases h.growTimes_cases quantum n hp.sized hs with ⟨s', hgrow, hs', hp'⟩ | hfail
  · rw [hp.packed_widen] at hs' hp'
    have hwide : Packable (length + n * quantum) strings := hp.widen (hlimit hp')
    have hroom := le_growthSteps hq (length - headerSize - filled strings) (roomFor value.length)
    have hold := hp.room
    have hfull : Packable (length + n * quantum) (strings ++ [value]) :=
      hwide.concat hnew hnul (by rw [← hn] at hroom; omega)
    obtain ⟨s'', hpush, hs''⟩ := h.pushAt_eq hp' hs'
      (hfull.length_packed.trans hwide.length_packed.symm) fun t ht => push_packed hfull ht
    exact Or.inl ⟨s'', (Steps.bind_ok hgrow).trans hpush, hs'', hfull⟩
  · obtain ⟨j, hj, e, s', hgrow, hs', hp', -, href⟩ := hfail
    rw [hp.packed_widen] at hs' hp'
    exact Or.inr ⟨j, hj, e, s', Steps.bind_error hgrow, hs', hp.widen (hlimit hp'), href⟩

end Packed

end MediaLibrary.StringTable
