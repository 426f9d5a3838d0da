import MediaLibrary.Settings
import Mathlib.Data.List.Basic
import Mathlib.Data.List.TakeWhile
/-! Settings and the variables that carry them. What a variable may spell is said once, by the shape
of its text: a number or a flag between white space, a name as it stands. Reading accepts those
shapes and nothing else, so settings that are written into variables are read back, and a variable
that spells nothing leaves its own setting at the default and no other. -/
namespace MediaLibrary

namespace Text

def Blank (chars : List Char) : Prop := ∀ c ∈ chars, isBlank c = true

instance (chars : List Char) : Decidable (Blank chars) :=
  List.decidableBAll (isBlank · = true) chars

def Wraps (text : String) (inner : List Char) : Prop :=
  ∃ before after, Blank before ∧ Blank after ∧ text.toList = before ++ inner ++ after

structure Bare (inner : List Char) : Prop where
  first : ∀ c ∈ inner.head?, isBlank c = false
  last : ∀ c ∈ inner.getLast?, isBlank c = false

theorem Bare.of_forall {inner : List Char} (h : ∀ c ∈ inner, isBlank c = false) : Bare inner :=
  ⟨fun c hc => h c (List.mem_of_mem_head? hc), fun c hc => h c (List.mem_of_mem_getLast? hc)⟩

theorem Blank.dropWhile_append {blank rest : List Char} (h : Blank blank)
    (hrest : ∀ c ∈ rest.head?, isBlank c = false) :
    (blank ++ rest).dropWhile isBlank = rest := by
  rw [List.dropWhile_append_of_pos h]
  cases rest with
  | nil => rfl
  | cons c _ => exact List.dropWhile_cons_of_neg (by rw [hrest c rfl]; exact Bool.false_ne_true)

theorem Blank.reverse {blank : List Char} (h : Blank blank) : Blank blank.reverse :=
  fun c hc => h c (List.mem_reverse.1 hc)

theorem blank_takeWhile (chars : List Char) : Blank (chars.takeWhile isBlank) :=
  fun _ hc => List.mem_takeWhile_imp hc

theorem head?_dropWhile (chars : List Char) :
    ∀ c ∈ (chars.dropWhile isBlank).head?, isBlank c = false := by
  intro c hc
  have := List.head?_dropWhile_not isBlank chars
  rw [Option.mem_def.1 hc] at this
  simpa using this

theorem eq_rdropWhile_append (chars : List Char) :
    chars = (chars.reverse.dropWhile isBlank).reverse
      ++ (chars.reverse.takeWhile isBlank).reverse := by
  rw [← List.reverse_append, List.takeWhile_append_dropWhile, List.reverse_reverse]

theorem wraps_trim (text : String) : Wraps text (trim text) := by
  refine ⟨_, _, blank_takeWhile text.toList,
    (blank_takeWhile (text.toList.dropWhile isBlank).reverse).reverse, ?_⟩
  rw [trim, List.append_assoc, ← eq_rdropWhile_append, List.takeWhile_append_dropWhile]

theorem bare_trim (text : String) : Bare (trim text) where
  first := by
    intro c hc
    refine head?_dropWhile text.toList c ?_
    rw [eq_rdropWhile_append (text.toList.dropWhile isBlank)]
    exact List.mem_head?_append_of_mem_head? hc
  last := by
    intro c hc
    rw [trim, List.getLast?_reverse] at hc
    exact head?_dropWhile _ c hc

/-- Trimming finds what stands between the white space, and nothing else. -/
theorem trim_eq_iff {text : String} {inner : List Char} :
    trim text = inner ↔ Bare inner ∧ Wraps text inner := by
  constructor
  · rintro rfl
    exact ⟨bare_trim text, wraps_trim text⟩
  · rintro ⟨hbare, before, after, hbefore, hafter, htext⟩
    have hlast : ∀ c ∈ inner.reverse.head?, isBlank c = false := by
      intro c hc
      rw [List.head?_reverse] at hc
      exact hbare.last c hc
    rw [trim, htext, List.append_assoc]
    by_cases hinner : inner = []
    · subst hinner
      have hall : Blank (before ++ after) := fun c hc =>
        (List.mem_append.1 hc).elim (hbefore c) (hafter c)
      rw [List.nil_append, List.dropWhile_eq_nil_iff.2 hall]
      rfl
    · have hhead : ∀ c ∈ (inner ++ after).head?, isBlank c = false := by
        rw [List.head?_append_of_ne_nil _ hinner]
        exact hbare.first
      rw [hbefore.dropWhile_append hhead, List.reverse_append,
        hafter.reverse.dropWhile_append hlast, List.reverse_reverse]

theorem digit?_eq_some_iff {c : Char} {d : Nat} :
    digit? c = some d ↔ c.isDigit = true ∧ c.toNat - '0'.toNat = d := by
  rw [digit?]
  split <;> simp [*]

/-- Reading digits gives the number that the decimal notation gives them. -/
theorem foldlM_digit?_eq_some_iff {chars : List Char} {start n : Nat} :
    chars.foldlM (fun n c => (digit? c).map (n * 10 + ·)) start = some n
      ↔ (∀ c ∈ chars, c.isDigit = true) ∧ Nat.ofDigitChars 10 chars start = n := by
  induction chars generalizing start with
  | nil => simp [Nat.ofDigitChars]
  | cons c rest ih =>
    rw [List.foldlM_cons, Option.bind_eq_bind, Option.bind_eq_some_iff]
    constructor
    · rintro ⟨next, hnext, hrest⟩
      obtain ⟨d, hd, rfl⟩ := Option.map_eq_some_iff.1 hnext
      obtain ⟨hc, rfl⟩ := digit?_eq_some_iff.1 hd
      obtain ⟨hall, hvalue⟩ := ih.1 hrest
      refine ⟨List.forall_mem_cons.2 ⟨hc, hall⟩, ?_⟩
      rwa [Nat.ofDigitChars_cons, Nat.mul_comm 10]
    · rintro ⟨hall, hvalue⟩
      obtain ⟨hc, hall⟩ := List.forall_mem_cons.1 hall
      rw [Nat.ofDigitChars_cons, Nat.mul_comm 10] at hvalue
      exact ⟨_, by rw [digit?_eq_some_iff.2 ⟨hc, rfl⟩]; rfl, ih.2 ⟨hall, hvalue⟩⟩

structure Decimal (digits : List Char) : Prop where
  ne_nil : digits ≠ []
  isDigit : ∀ c ∈ digits, c.isDigit = true

theorem decimal_toDigits (n : Nat) : Decimal (Nat.toDigits 10 n) :=
  ⟨Nat.toDigits_ne_nil, fun _ => Nat.isDigit_of_mem_toDigits (by decide) (by decide)⟩

/-- `digits` are a decimal number below `limit`, and the number is `n`. -/
structure Spells (limit : Nat) (digits : List Char) (n : Nat) : Prop where
  decimal : Decimal digits
  value : Nat.ofDigitChars 10 digits 0 = n
  below : n < limit

theorem spells_toDigits {limit n : Nat} (h : n < limit) : Spells limit (Nat.toDigits 10 n) n :=
  ⟨decimal_toDigits n, Nat.ofDigitChars_ten_toDigits, h⟩

theorem number?_eq_some_iff {limit n : Nat} {chars : List Char} :
    number? limit chars = some n
      ↔ ∃ digits, (chars = digits ∨ chars = '+' :: digits) ∧ Spells limit digits n := by
  have hplus : ∀ rest, ¬ Decimal ('+' :: rest) := fun rest h =>
    absurd (h.isDigit '+' List.mem_cons_self) (by decide)
  have hread : ∀ digits : List Char,
      (do if digits.isEmpty then none
          let n ← digits? digits
          if n < limit then some n else none) = some n ↔ Spells limit digits n := by
    intro digits
    constructor
    · intro h
      cases digits with
      | nil => cases h
      | cons c rest =>
        obtain ⟨m, hm, hlimit⟩ := Option.bind_eq_some_iff.1 h
        obtain ⟨hall, hvalue⟩ := foldlM_digit?_eq_some_iff.1 hm
        split at hlimit
        case isTrue hbelow =>
          obtain rfl := Option.some.inj hlimit
          exact ⟨⟨List.cons_ne_nil _ _, hall⟩, hvalue, hbelow⟩
        case isFalse => cases hlimit
    · rintro ⟨⟨hne, hall⟩, hvalue, hbelow⟩
      cases digits with
      | nil => exact absurd rfl hne
      | cons c rest =>
        have hm : digits? (c :: rest) = some n := foldlM_digit?_eq_some_iff.2 ⟨hall, hvalue⟩
        simp [hm, hbelow]
  unfold number?
  rw [hread]
  split
  case h_1 rest =>
    constructor
    · exact fun h => ⟨rest, .inr rfl, h⟩
    · rintro ⟨digits, rfl | hdigits, h⟩
      · exact absurd h.decimal (hplus rest)
      · rwa [List.tail_eq_of_cons_eq hdigits]
  case h_2 hshape =>
    constructor
    · exact fun h => ⟨chars, .inl rfl, h⟩
    · rintro ⟨digits, rfl | hdigits, h⟩
      · exact h
      · exact absurd hdigits (hshape digits)

theorem flag?_eq_some_iff {chars : List Char} {flag : Bool} :
    flag? chars = some flag ↔ chars = (toString flag).toList := by
  have htrue : (toString true).toList = "true".toList := rfl
  have hfalse : (toString false).toList = "false".toList := rfl
  have hne : "false".toList ≠ "true".toList := by decide
  rw [flag?]
  cases flag
  case true =>
    rw [htrue]
    split
    case isTrue h => exact iff_of_true rfl h
    case isFalse h =>
      refine iff_of_false ?_ h
      split <;> simp
  case false =>
    rw [hfalse]
    split
    case isTrue h => exact iff_of_false (by simp) (h ▸ hne.symm)
    case isFalse =>
      split
      case isTrue h => exact iff_of_true rfl h
      case isFalse h => exact iff_of_false (by simp) h

theorem isBlank_of_isDigit {c : Char} (h : c.isDigit = true) : isBlank c = false := by
  have hlow : 48 ≤ c.toNat := (Char.isDigit_iff_toNat.1 h).1
  have hhigh : c.toNat ≤ 57 := (Char.isDigit_iff_toNat.1 h).2
  simp only [isBlank, blankRanges, List.any_cons, List.any_nil, Bool.or_eq_false_iff,
    Bool.and_eq_false_iff, decide_eq_false_iff_not, and_true]
  omega

theorem bare_of_decimal {digits : List Char} (h : Decimal digits) :
    Bare digits ∧ Bare ('+' :: digits) := by
  have hall : ∀ c ∈ digits, isBlank c = false := fun c hc => isBlank_of_isDigit (h.isDigit c hc)
  exact ⟨.of_forall hall, .of_forall (List.forall_mem_cons.2 ⟨by decide, hall⟩)⟩

theorem bare_toString_bool (flag : Bool) : Bare (toString flag).toList := by
  have hall : (toString flag).toList.all (! isBlank ·) = true := by cases flag <;> decide
  exact .of_forall fun c hc => by simpa using List.all_eq_true.1 hall c hc

/-- `text` is a decimal number below `limit`, perhaps after a plus sign, between white space. -/
def IsNumber (limit : Nat) (text : String) (n : Nat) : Prop :=
  ∃ digits, (Wraps text digits ∨ Wraps text ('+' :: digits)) ∧ Spells limit digits n

def IsFlag (text : String) (flag : Bool) : Prop := Wraps text (toString flag).toList

theorem number?_trim {limit n : Nat} {text : String} :
    number? limit (trim text) = some n ↔ IsNumber limit text n := by
  rw [number?_eq_some_iff]
  refine exists_congr fun digits => and_congr_left fun h => ?_
  obtain ⟨hbare, hsigned⟩ := bare_of_decimal h.decimal
  rw [trim_eq_iff, trim_eq_iff, and_iff_right hbare, and_iff_right hsigned]

theorem flag?_trim {text : String} {flag : Bool} :
    flag? (trim text) = some flag ↔ IsFlag text flag := by
  rw [flag?_eq_some_iff, trim_eq_iff, and_iff_right (bare_toString_bool flag), IsFlag]

theorem isNumber_of_wraps {limit n : Nat} {text : String} (h : n < limit)
    (htext : Wraps text (toString n).toList) : IsNumber limit text n := by
  rw [Nat.toString_eq_repr, Nat.toList_repr] at htext
  exact ⟨_, .inl htext, spells_toDigits h⟩

end Text

/-- The value of a setting by what its variable holds: the one it spells, else the fallback. -/
inductive Settles {α : Type} (spells : String → α → Prop) (fallback : α) :
    Option String → α → Prop
  | spelled {text : String} {value : α} :
      spells text value → Settles spells fallback (some text) value
  | unreadable {text : String} :
      (∀ value, ¬ spells text value) → Settles spells fallback (some text) fallback
  | missing : Settles spells fallback none fallback

theorem settles_iff {α : Type} {spells : String → α → Prop} {fallback value : α}
    {read : String → Option α} (hread : ∀ {text value}, read text = some value ↔ spells text value)
    {holds : Option String} :
    (holds.bind read).getD fallback = value ↔ Settles spells fallback holds value := by
  constructor
  · rintro rfl
    cases holds with
    | none => exact .missing
    | some text =>
      cases h : read text with
      | none =>
        rw [Option.bind_some, h]
        exact .unreadable fun value hv => by cases h.symm.trans (hread.2 hv)
      | some value =>
        rw [Option.bind_some, h]
        exact .spelled (hread.1 h)
  · rintro (hv | hv | _)
    · rw [Option.bind_some, hread.2 hv, Option.getD_some]
    case unreadable text =>
      have hnone : read text = none := Option.eq_none_iff_forall_ne_some.2 fun value h =>
        hv value (hread.1 h)
      rw [Option.bind_some, hnone, Option.getD_none]
    · rfl

namespace Settings

/-- Each setting has the value that its own variable gives it. -/
structure SettledBy (s : Settings) (lookup : String → Option String) : Prop where
  growthQuantum : Settles (Text.IsNumber addressLimit) default.growthQuantum
    (lookup quantumVariable) s.growthQuantum
  globalPlaylist : Settles Eq default.globalPlaylist (lookup globalPlaylistVariable)
    s.globalPlaylist
  copyToGlobal : Settles Text.IsFlag default.copyToGlobal (lookup copyVariable) s.copyToGlobal
  syncOnCreate : Settles Text.IsFlag default.syncOnCreate (lookup syncVariable) s.syncOnCreate

theorem ofVariables_eq_iff {lookup : String → Option String} {s : Settings} :
    ofVariables lookup = s ↔ s.SettledBy lookup := by
  have hname : ∀ {text value : String}, some text = some value ↔ text = value := by simp
  have hwhole : (lookup globalPlaylistVariable).bind some = lookup globalPlaylistVariable :=
    Option.bind_fun_some _
  constructor
  · rintro rfl
    refine ⟨(settles_iff Text.number?_trim).1 rfl, ?_, (settles_iff Text.flag?_trim).1 rfl,
      (settles_iff Text.flag?_trim).1 rfl⟩
    exact (settles_iff hname).1 (by rw [hwhole]; rfl)
  · rintro ⟨hquantum, hglobal, hcopy, hsync⟩
    have hglobal := (settles_iff hname).2 hglobal
    rw [hwhole] at hglobal
    rw [ofVariables, (settles_iff Text.number?_trim).2 hquantum, hglobal,
      (settles_iff Text.flag?_trim).2 hcopy, (settles_iff Text.flag?_trim).2 hsync]

/-- The variables hold the settings: the number in decimal and the flags in words, all between white
space, and the name as it is. -/
structure WrittenIn (s : Settings) (lookup : String → Option String) : Prop where
  growthQuantum : ∃ text, lookup quantumVariable = some text
    ∧ Text.Wraps text (toString s.growthQuantum).toList
  globalPlaylist : lookup globalPlaylistVariable = some s.globalPlaylist
  copyToGlobal : ∃ text, lookup copyVariable = some text
    ∧ Text.Wraps text (toString s.copyToGlobal).toList
  syncOnCreate : ∃ text, lookup syncVariable = some text
    ∧ Text.Wraps text (toString s.syncOnCreate).toList

theorem WrittenIn.settledBy {s : Settings} {lookup : String → Option String}
    (h : s.WrittenIn lookup) (hquantum : s.growthQuantum < addressLimit) : s.SettledBy lookup := by
  obtain ⟨⟨quantum, hq, hqtext⟩, hglobal, ⟨copy, hc, hctext⟩, ⟨sync, hs, hstext⟩⟩ := h
  constructor
  case growthQuantum => exact hq ▸ .spelled (Text.isNumber_of_wraps hquantum hqtext)
  case globalPlaylist => exact hglobal ▸ .spelled rfl
  case copyToGlobal => exact hc ▸ .spelled hctext
  case syncOnCreate => exact hs ▸ .spelled hstext

/-- The variables that hold the settings, and no others. -/
def environment (s : Settings) (name : String) : Option String :=
  List.lookup name [(quantumVariable, toString s.growthQuantum),
    (globalPlaylistVariable, s.globalPlaylist), (copyVariable, toString s.copyToGlobal),
    (syncVariable, toString s.syncOnCreate)]

theorem writtenIn_environment (s : Settings) : s.WrittenIn s.environment := by
  have hself : ∀ text : String, Text.Wraps text text.toList := fun text =>
    ⟨[], [], by simp [Text.Blank], by simp [Text.Blank], by simp⟩
  exact ⟨⟨_, rfl, hself _⟩, rfl, ⟨_, rfl, hself _⟩, ⟨_, rfl, hself _⟩⟩

end Settings

/-- Settings that are written into variables are read back. Any variables give each setting the value
that its own variable spells, or the default if that is missing or spells none, so variables that
agree on the one for a setting agree on the setting. -/
theorem variables_settle :
    (∀ s : Settings, s.WrittenIn s.environment)
      ∧ (∀ (s : Settings) lookup, s.growthQuantum < addressLimit → s.WrittenIn lookup →
          Settings.ofVariables lookup = s)
      ∧ (∀ (s : Settings) lookup, Settings.ofVariables lookup = s ↔ s.SettledBy lookup)
      ∧ ∀ lookup other : String → Option String,
          (lookup Settings.quantumVariable = other Settings.quantumVariable →
            (Settings.ofVariables lookup).growthQuantum
              = (Settings.ofVariables other).growthQuantum)
          ∧ (lookup Settings.globalPlaylistVariable = other Settings.globalPlaylistVariable →
            (Settings.ofVariables lookup).globalPlaylist
              = (Settings.ofVariables other).globalPlaylist)
          ∧ (lookup Settings.copyVariable = other Settings.copyVariable →
            (Settings.ofVariables lookup).copyToGlobal = (Settings.ofVariables other).copyToGlobal)
          ∧ (lookup Settings.syncVariable = other Settings.syncVariable →
            (Settings.ofVariables lookup).syncOnCreate
              = (Settings.ofVariables other).syncOnCreate) := by
  refine ⟨Settings.writtenIn_environment, fun s lookup hquantum h =>
    Settings.ofVariables_eq_iff.2 (h.settledBy hquantum), fun s lookup =>
    Settings.ofVariables_eq_iff, fun lookup other => ⟨?_, ?_, ?_, ?_⟩⟩
  all_goals
    intro h
    simp only [Settings.ofVariables, h]

/-- The white space around a number and a flag is dropped, that around the name is not. -/
theorem variables_settle_spaced :
    let s : Settings := ⟨64, " alles ", false, true⟩
    let lookup (name : String) := List.lookup name
      [(Settings.quantumVariable, "\t64\u2003"), (Settings.globalPlaylistVariable, " alles "),
       (Settings.copyVariable, "\u3000false"), (Settings.syncVariable, "true\n"), ("PATH", "64")]
    s.growthQuantum < addressLimit ∧ s.WrittenIn lookup ∧ Settings.ofVariables lookup = s := by
  intro s lookup
  have hquantum : s.growthQuantum < addressLimit := by decide
  have hwritten : s.WrittenIn lookup :=
    ⟨⟨_, rfl, ['\t'], ['\u2003'], by decide, by decide, by decide⟩, rfl,
      ⟨_, rfl, ['\u3000'], [], by decide, by decide, by decide⟩,
      ⟨_, rfl, [], ['\n'], by decide, by decide, by decide⟩⟩
  exact ⟨hquantum, hwritten, variables_settle.2.1 s lookup hquantum hwritten⟩

end MediaLibrary
