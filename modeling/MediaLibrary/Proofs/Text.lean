import MediaLibrary.Proofs.Bytes.Order
import MediaLibrary.Text.Utf8
import Mathlib.Data.List.Nodup
import Mathlib.Tactic.IntervalCases
/-! Text and its bytes. Writing text down loses nothing: both readings, the strict and the lossy
one, give it back. Texts are ordered as their bytes are, and end as their bytes end. -/
namespace MediaLibrary.Text

theorem bytes_eq_flatMap (text : String) :
    bytes text = text.toList.flatMap String.utf8EncodeChar := by
  unfold bytes
  rw [String.toUTF8, ← String.utf8Encode_toList, List.utf8Encode, List.data_toByteArray]

theorem ofBytes?_bytes (text : String) : ofBytes? (bytes text) = some text := by
  have h : ByteArray.mk (bytes text).toArray = text.toByteArray := rfl
  rw [ofBytes?, h, String.fromUTF8?, dif_pos text.isValidUTF8]
  rfl

theorem ofBytes?_eq_some_iff {value : Bytes} {text : String} :
    ofBytes? value = some text ↔ bytes text = value := by
  constructor
  · intro h
    unfold ofBytes? String.fromUTF8? at h
    split at h
    · obtain rfl := Option.some.inj h
      rfl
    · cases h
  · rintro rfl
    exact ofBytes?_bytes text

theorem bytes_injective {first second : String} (h : bytes first = bytes second) :
    first = second := by
  have := ofBytes?_bytes first
  rw [h, ofBytes?_bytes] at this
  exact (Option.some.inj this).symm

@[simp] theorem bytes_inj {first second : String} : bytes first = bytes second ↔ first = second :=
  ⟨bytes_injective, congrArg bytes⟩

@[simp] theorem bytes_empty : bytes "" = [] := rfl

theorem continueChar_cons {count bits digit : Nat} {low high : UInt8} {rest : Bytes}
    (hd : digit < 64) (hlow : low.toNat ≤ digit + 0x80) (hhigh : digit + 0x80 ≤ high.toNat) :
    continueChar (count + 1) bits low high (UInt8.ofNat (digit + 0x80) :: rest)
      = continueChar count (bits * 64 + digit) 0x80 0xBF rest := by
  have hn : (UInt8.ofNat (digit + 0x80)).toNat = digit + 0x80 := by
    rw [UInt8.toNat_ofNat']
    omega
  rw [continueChar, if_pos, hn, Nat.add_sub_cancel]
  rw [UInt8.le_iff_toNat_le, UInt8.le_iff_toNat_le, hn]
  exact ⟨hlow, hhigh⟩

theorem continueChar_zero (bits : Nat) (low high : UInt8) (rest : Bytes) :
    continueChar 0 bits low high rest = (Char.ofNat bits, rest) := by
  unfold continueChar
  rfl

theorem toNat_valid (c : Char) : c.toNat < 0xD800 ∨ 0xDFFF < c.toNat ∧ c.toNat < 0x110000 := by
  exact c.valid

theorem lossyChars_of_lead {b : UInt8} {lead : Lead} {rest rest' : Bytes} {c : Char}
    (hb : ¬ b < 0x80) (hl : Lead.of? b = some lead)
    (hc : continueChar lead.continuations lead.bits lead.low lead.high rest = (c, rest')) :
    lossyChars (b :: rest) = c :: lossyChars rest' := by
  rw [lossyChars, if_neg hb]
  simp only [hl, hc]

theorem Lead.of?_two {q : Nat} (h : 2 ≤ q) (hq : q < 32) :
    Lead.of? (UInt8.ofNat (q + 0xC0)) = some ⟨1, q, 0x80, 0xBF⟩ := by
  have hn : (UInt8.ofNat (q + 0xC0)).toNat = q + 0xC0 := by
    rw [UInt8.toNat_ofNat']
    omega
  rw [Lead.of?, if_neg, if_pos, hn, Nat.add_sub_cancel]
  · rw [UInt8.lt_iff_toNat_lt, hn]
    exact Nat.add_lt_add_right hq 0xC0
  · rw [UInt8.lt_iff_toNat_lt, hn]
    exact Nat.not_lt.2 (Nat.add_le_add_right h 0xC0)

theorem Lead.of?_three {q : Nat} (hq : q < 16) :
    Lead.of? (UInt8.ofNat (q + 0xE0)) = some
      ⟨2, q, if q = 0 then 0xA0 else 0x80, if q = 13 then 0x9F else 0xBF⟩ := by
  interval_cases q <;> rfl

theorem Lead.of?_four {q : Nat} (hq : q < 5) :
    Lead.of? (UInt8.ofNat (q + 0xF0)) = some
      ⟨3, q, if q = 0 then 0x90 else 0x80, if q = 4 then 0x8F else 0xBF⟩ := by
  interval_cases q <;> rfl

theorem not_lt_lead {n : Nat} (h : 0x80 ≤ n) (hn : n < 256) : ¬ UInt8.ofNat n < 0x80 := by
  rw [UInt8.lt_iff_toNat_lt, UInt8.toNat_ofNat', Nat.mod_eq_of_lt hn]
  exact Nat.not_lt.2 h

theorem lossyChars_utf8EncodeChar (c : Char) (rest : Bytes) :
    lossyChars (String.utf8EncodeChar c ++ rest) = c :: lossyChars rest := by
  have hc : c.val.toNat = c.toNat := rfl
  have hv := toNat_valid c
  have back : ∀ n, n = c.toNat → Char.ofNat n = c := by
    rintro _ rfl
    exact Char.ofNat_toNat c
  unfold String.utf8EncodeChar
  simp only [hc]
  split
  case isTrue h =>
    have hn : (UInt8.ofNat c.toNat).toNat = c.toNat := by
      rw [UInt8.toNat_ofNat']
      omega
    have hlt : UInt8.ofNat c.toNat < 0x80 := by
      rw [UInt8.lt_iff_toNat_lt, hn]
      exact Nat.lt_succ_of_le h
    rw [List.singleton_append, lossyChars, if_pos hlt, hn, Char.ofNat_toNat]
  case isFalse h =>
    split
    case isTrue h2 =>
      have lead := Lead.of?_two (q := c.toNat / 64) (by omega) (by omega)
      rw [Nat.mod_eq_of_lt (by omega : c.toNat / 64 < 0x20)]
      refine lossyChars_of_lead (not_lt_lead (by omega) (by omega)) lead ?_
      show continueChar 1 (c.toNat / 64) 0x80 0xBF (_ :: rest) = _
      rw [continueChar_cons (by omega) (Nat.le_add_left _ _) (by show _ ≤ 0xBF; omega),
        continueChar_zero, back _ (by omega)]
    case isFalse h2 =>
      split
      case isTrue h3 =>
        have lead := Lead.of?_three (q := c.toNat / 4096) (by omega)
        have hlow : (if c.toNat / 4096 = 0 then (0xA0 : UInt8) else 0x80).toNat
            ≤ c.toNat / 64 % 64 + 0x80 := by
          split
          · show 0xA0 ≤ _
            omega
          · exact Nat.le_add_left _ _
        have hhigh : c.toNat / 64 % 64 + 0x80
            ≤ (if c.toNat / 4096 = 13 then (0x9F : UInt8) else 0xBF).toNat := by
          split
          · show _ ≤ 0x9F
            omega
          · show _ ≤ 0xBF
            omega
        rw [Nat.mod_eq_of_lt (by omega : c.toNat / 4096 < 0x10)]
        refine lossyChars_of_lead (not_lt_lead (by omega) (by omega)) lead ?_
        show continueChar 2 (c.toNat / 4096) _ _ (_ :: _ :: rest) = _
        rw [continueChar_cons (by omega) hlow hhigh, continueChar_cons (by omega)
          (Nat.le_add_left _ _) (by show _ ≤ 0xBF; omega), continueChar_zero, back _ (by omega)]
      case isFalse h3 =>
        have lead := Lead.of?_four (q := c.toNat / 262144) (by omega)
        have hlow : (if c.toNat / 262144 = 0 then (0x90 : UInt8) else 0x80).toNat
            ≤ c.toNat / 4096 % 64 + 0x80 := by
          split
          · show 0x90 ≤ _
            omega
          · exact Nat.le_add_left _ _
        have hhigh : c.toNat / 4096 % 64 + 0x80
            ≤ (if c.toNat / 262144 = 4 then (0x8F : UInt8) else 0xBF).toNat := by
          split
          · show _ ≤ 0x8F
            omega
          · show _ ≤ 0xBF
            omega
        rw [Nat.mod_eq_of_lt (by omega : c.toNat / 262144 < 0x08)]
        refine lossyChars_of_lead (not_lt_lead (by omega) (by omega)) lead ?_
        show continueChar 3 (c.toNat / 262144) _ _ (_ :: _ :: _ :: rest) = _
        rw [continueChar_cons (by omega) hlow hhigh, continueChar_cons (by omega)
          (Nat.le_add_left _ _) (by show _ ≤ 0xBF; omega), continueChar_cons (by omega)
          (Nat.le_add_left _ _) (by show _ ≤ 0xBF; omega), continueChar_zero, back _ (by omega)]

theorem lossyChars_flatMap (chars : List Char) :
    lossyChars (chars.flatMap String.utf8EncodeChar) = chars := by
  induction chars with
  | nil => rw [List.flatMap_nil, lossyChars]
  | cons c rest ih => rw [List.flatMap_cons, lossyChars_utf8EncodeChar, ih]

/-- What was written down as text is read as the same text. -/
theorem lossy_bytes (text : String) : lossy (bytes text) = text := by
  rw [lossy, bytes_eq_flatMap, lossyChars_flatMap, String.ofList_toList]

theorem flatMap_utf8EncodeChar_injective {first second : List Char}
    (h : first.flatMap String.utf8EncodeChar = second.flatMap String.utf8EncodeChar) :
    first = second := by
  rw [← lossyChars_flatMap first, h, lossyChars_flatMap]

theorem exists_utf8EncodeChar_eq_cons (c : Char) :
    ∃ b tail, String.utf8EncodeChar c = b :: tail ∧ b.IsUTF8FirstByte := by
  cases h : String.utf8EncodeChar c with
  | nil => exact absurd h String.utf8EncodeChar_ne_nil
  | cons b tail =>
    have hfirst := UInt8.isUTF8FirstByte_getElem_zero_utf8EncodeChar (c := c)
    simp only [h, List.getElem_cons_zero] at hfirst
    exact ⟨b, tail, rfl, hfirst⟩

/-- Within a character no byte begins another. -/
theorem eq_nil_of_utf8EncodeChar_eq {c : Char} {front tail : Bytes} {b : UInt8}
    (hc : String.utf8EncodeChar c = front ++ b :: tail) (hb : b.IsUTF8FirstByte) : front = [] := by
  have hlt : front.length < (String.utf8EncodeChar c).length := by
    rw [hc, List.length_append, List.length_cons]
    omega
  have hget : (String.utf8EncodeChar c)[front.length] = b := by
    simp only [hc, List.getElem_append_right, Nat.le_refl, Nat.sub_self, List.getElem_cons_zero]
  rw [← hget, UInt8.isUTF8FirstByte_getElem_utf8EncodeChar] at hb
  exact List.length_eq_zero_iff.1 hb

theorem suffix_of_flatMap_suffix {ending chars : List Char}
    (h : ending.flatMap String.utf8EncodeChar <:+ chars.flatMap String.utf8EncodeChar) :
    ending <:+ chars := by
  induction chars with
  | nil =>
    have hnil : ending = [] := flatMap_utf8EncodeChar_injective (List.suffix_nil.1 h)
    exact hnil ▸ List.suffix_rfl
  | cons c rest ih =>
    obtain ⟨front, h⟩ := h
    rw [List.flatMap_cons] at h
    rcases List.append_eq_append_iff.1 h with ⟨middle, hc, hending⟩ | ⟨more, -, hrest⟩
    case inr => exact (ih ⟨more, hrest.symm⟩).trans (List.suffix_cons c rest)
    case inl =>
      cases middle with
      | nil => exact (ih ⟨[], hending⟩).trans (List.suffix_cons c rest)
      | cons b tail =>
        cases ending with
        | nil => exact List.nil_suffix
        | cons e others =>
          obtain ⟨first, _, he, hfirst⟩ := exists_utf8EncodeChar_eq_cons e
          rw [List.flatMap_cons, he] at hending
          obtain ⟨rfl, -⟩ := List.cons.inj hending
          obtain rfl := eq_nil_of_utf8EncodeChar_eq hc hfirst
          rw [List.nil_append, ← List.flatMap_cons] at h
          exact flatMap_utf8EncodeChar_injective h ▸ List.suffix_rfl

theorem bytes_suffix_iff {ending text : String} :
    bytes ending <:+ bytes text ↔ ending.toList <:+ text.toList := by
  rw [bytes_eq_flatMap, bytes_eq_flatMap]
  constructor
  · exact suffix_of_flatMap_suffix
  · rintro ⟨front, h⟩
    exact ⟨front.flatMap String.utf8EncodeChar, by rw [← h, List.flatMap_append]⟩

def ascending (texts : List String) : List String :=
  texts.mergeSort fun first second => ¬ bytes second < bytes first

theorem ascending_perm (texts : List String) : (ascending texts).Perm texts :=
  List.mergeSort_perm _ _

@[simp] theorem mem_ascending {texts : List String} {text : String} :
    text ∈ ascending texts ↔ text ∈ texts := (ascending_perm texts).mem_iff

theorem mem_map_bytes {texts : List String} {text : String} :
    bytes text ∈ texts.map bytes ↔ text ∈ texts := by
  simp

theorem nodup_map_bytes {texts : List String} : (texts.map bytes).Nodup ↔ texts.Nodup :=
  List.nodup_map_iff fun _ _ => bytes_injective

theorem map_bytes_erase (texts : List String) (text : String) :
    (texts.erase text).map bytes = (texts.map bytes).erase (bytes text) :=
  List.map_erase (fun _ _ => bytes_injective) _

theorem map_bytes_ascending {texts : List String} (h : texts.Nodup) :
    (ascending texts).map bytes = Bytes.ascending (texts.map bytes) := by
  have hperm := (ascending_perm texts).map bytes
  have hnodup := nodup_map_bytes.2 h
  have hsorted : Bytes.Ascending ((ascending texts).map bytes) :=
    Bytes.ascending_of_nodup (List.pairwise_map.2 (Bytes.pairwise_mergeSort_key bytes texts))
      (hperm.nodup_iff.2 hnodup)
  exact hsorted.eq_of_perm (Bytes.ascending_ascending hnodup)
    (hperm.trans (Bytes.ascending_perm _).symm)

theorem eq_of_ascending {texts others : List String} (ht : Bytes.Ascending (texts.map bytes))
    (ho : Bytes.Ascending (others.map bytes)) (h : others.Perm texts) : others = texts :=
  List.map_injective_iff.2 (fun _ _ => bytes_injective) (ho.eq_of_perm ht (h.map bytes))

theorem ascending_ascending {texts : List String} (h : texts.Nodup) :
    Bytes.Ascending ((ascending texts).map bytes) := by
  rw [map_bytes_ascending h]
  exact Bytes.ascending_ascending (nodup_map_bytes.2 h)

end MediaLibrary.Text
