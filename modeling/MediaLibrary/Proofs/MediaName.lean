import MediaLibrary.MediaName
import MediaLibrary.Proofs.Text
/-! Lists of name endings. What such a list names is said by places in it: a run is a part without
the delimiter that lies in no longer one. Reading a list finds its runs from left to right, so that
delimiters in a row and at the ends name nothing, and a file is recognised by the runs that its name
ends in. -/
namespace MediaLibrary

namespace Text

/-- Part of a text, with what stands before it and after it. -/
structure Excerpt where
  before : List Char
  chars : List Char
  after : List Char

namespace Excerpt

/-- A part of the text that has characters, the delimiter not among them. -/
structure Free (delimiter : Char) (text : List Char) (e : Excerpt) : Prop where
  whole : e.before ++ e.chars ++ e.after = text
  ne_nil : e.chars ≠ []
  not_mem : delimiter ∉ e.chars

/-- A free part that lies in no other one. -/
structure IsRun (delimiter : Char) (text : List Char) (e : Excerpt) : Prop extends
    e.Free delimiter text where
  maximal : ∀ other : Excerpt, other.Free delimiter text → other.before <+: e.before →
    other.after <:+ e.after → other = e

def Precedes (first second : Excerpt) : Prop := first.before ++ first.chars <+: second.before

def behind (front : List Char) (e : Excerpt) : Excerpt := { e with before := front ++ e.before }

theorem behind_precedes {front : List Char} {first second : Excerpt} (h : first.Precedes second) :
    (first.behind front).Precedes (second.behind front) := by
  rw [Precedes, behind, behind, List.append_assoc]
  exact (List.prefix_append_right_inj front).2 h

/-- The part, if it has characters. -/
def proper (e : Excerpt) : List Excerpt := [e].filter (·.chars ≠ [])

theorem mem_proper {e other : Excerpt} : other ∈ e.proper ↔ e.chars ≠ [] ∧ other = e := by
  rw [proper, List.mem_filter, List.mem_singleton, decide_eq_true_iff, and_comm]
  exact and_congr_left fun h => h ▸ Iff.rfl

theorem map_chars_proper (e : Excerpt) : e.proper.map chars = [e.chars].filter (· ≠ []) := by
  have hfilter : ([e].map chars).filter (· ≠ []) = e.proper.map chars := List.filter_map
  exact hfilter.symm

theorem pairwise_proper (e : Excerpt) : e.proper.Pairwise Precedes :=
  (List.pairwise_singleton Precedes e).filter _

end Excerpt

/-- What a part is next to: nothing, or the delimiter. -/
def Edge (delimiter : Char) (next : Option Char) : Prop := ∀ c ∈ next, c = delimiter

section

variable {delimiter : Char} {text first second rest others front part back : List Char}

theorem edge_head? (delimiter : Char) (rest : List Char) :
    Edge delimiter (delimiter :: rest).head? := fun _ hc => (Option.some.inj hc).symm

theorem eq_nil_of_edge_left (h : Edge delimiter (front ++ part).getLast?)
    (hpart : delimiter ∉ part) : part = [] := by
  by_contra hne
  have hlast : (front ++ part).getLast? = some (part.getLast hne) := by
    rw [List.getLast?_append_of_ne_nil _ hne, List.getLast?_eq_some_getLast hne]
  exact hpart (h _ hlast ▸ List.getLast_mem hne)

theorem eq_nil_of_edge_right (h : Edge delimiter (part ++ back).head?) (hpart : delimiter ∉ part) :
    part = [] := by
  cases part with
  | nil => rfl
  | cons c others => exact absurd (h c rfl ▸ List.mem_cons_self) hpart

theorem eq_of_edges (hfirst : delimiter ∉ first) (hsecond : delimiter ∉ second)
    (hrest : Edge delimiter rest.head?) (hothers : Edge delimiter others.head?)
    (h : first ++ rest = second ++ others) : first = second ∧ rest = others := by
  rcases List.append_eq_append_iff.1 h with ⟨gap, rfl, rfl⟩ | ⟨gap, rfl, rfl⟩
  · obtain rfl := eq_nil_of_edge_right hrest fun hmem => hsecond (List.mem_append_right _ hmem)
    exact ⟨(List.append_nil first).symm, rfl⟩
  · obtain rfl := eq_nil_of_edge_right hothers fun hmem => hfirst (List.mem_append_right _ hmem)
    exact ⟨List.append_nil second, rfl⟩

theorem edge_getLast?_append : Edge delimiter (first ++ delimiter :: rest).getLast?
    ↔ Edge delimiter rest.getLast? := by
  rw [List.append_cons, List.getLast?_append]
  cases rest.getLast? with
  | none => simp [Edge]
  | some c => rfl

end

namespace Excerpt

variable {delimiter : Char} {text first rest : List Char} {e : Excerpt}

theorem isRun_iff : e.IsRun delimiter text ↔ e.Free delimiter text
    ∧ Edge delimiter e.before.getLast? ∧ Edge delimiter e.after.head? := by
  constructor
  · rintro ⟨hfree, hmaximal⟩
    refine ⟨hfree, fun c hc => ?_, fun c hc => ?_⟩
    · by_contra hne
      obtain ⟨front, hbefore⟩ := List.getLast?_eq_some_iff.1 hc
      have hwider : Free delimiter text ⟨front, c :: e.chars, e.after⟩ :=
        ⟨by rw [← hfree.whole, hbefore]; simp, List.cons_ne_nil _ _,
          by simp [hfree.not_mem, Ne.symm hne]⟩
      have hsame := hmaximal _ hwider ⟨[c], hbefore.symm⟩ List.suffix_rfl
      simpa using congrArg (·.chars.length) hsame
    · by_contra hne
      obtain ⟨back, hafter⟩ := List.head?_eq_some_iff.1 hc
      have hwider : Free delimiter text ⟨e.before, e.chars ++ [c], back⟩ :=
        ⟨by rw [← hfree.whole, hafter]; simp, List.concat_ne_nil _ _,
          by simp [hfree.not_mem, Ne.symm hne]⟩
      have hsame := hmaximal _ hwider List.prefix_rfl ⟨[c], hafter.symm⟩
      simpa using congrArg (·.chars.length) hsame
  · rintro ⟨hfree, hbefore, hafter⟩
    refine ⟨hfree, ?_⟩
    obtain ⟨_, chars, _⟩ := e
    rintro ⟨before, longer, after⟩ hother ⟨left, rfl⟩ ⟨right, rfl⟩
    have hwhole : longer ++ after = (left ++ chars ++ right) ++ after := by
      simpa using hother.whole.trans hfree.whole.symm
    obtain rfl := List.append_cancel_right hwhole
    have hnone : delimiter ∉ left ++ chars ++ right := hother.not_mem
    simp only [List.mem_append, not_or] at hnone
    obtain rfl := eq_nil_of_edge_left hbefore hnone.1.1
    obtain rfl := eq_nil_of_edge_right hafter hnone.2
    simp

theorem isRun_of_not_mem (h : delimiter ∉ text) :
    e.IsRun delimiter text ↔ text ≠ [] ∧ e = ⟨[], text, []⟩ := by
  rw [isRun_iff]
  constructor
  · rintro ⟨⟨rfl, hne, -⟩, hbefore, hafter⟩
    obtain ⟨before, chars, after⟩ := e
    simp only [List.mem_append, not_or] at h
    obtain rfl := eq_nil_of_edge_left (List.nil_append before ▸ hbefore) h.1.1
    obtain rfl := eq_nil_of_edge_right (List.append_nil after ▸ hafter) h.2
    simpa using hne
  · rintro ⟨hne, rfl⟩
    exact ⟨⟨by simp, hne, h⟩, nofun, nofun⟩

theorem isRun_append_cons (h : delimiter ∉ first) :
    e.IsRun delimiter (first ++ delimiter :: rest) ↔
      (first ≠ [] ∧ e = ⟨[], first, delimiter :: rest⟩)
        ∨ ∃ later : Excerpt, later.IsRun delimiter rest
          ∧ e = later.behind (first ++ [delimiter]) := by
  simp only [isRun_iff]
  constructor
  · rintro ⟨⟨hwhole, hne, hnone⟩, hbefore, hafter⟩
    obtain ⟨before, chars, after⟩ := e
    rw [List.append_assoc] at hwhole
    rcases List.append_eq_append_iff.1 hwhole with ⟨gap, rfl, hgap⟩ | ⟨gap, rfl, hgap⟩
    case inl =>
      simp only [List.mem_append, not_or] at h
      obtain rfl := eq_nil_of_edge_left (List.nil_append before ▸ hbefore) h.1
      obtain ⟨rfl, rfl⟩ := eq_of_edges hnone h.2 hafter (edge_head? delimiter rest) hgap
      exact .inl ⟨hne, rfl⟩
    case inr =>
      cases gap with
      | nil =>
        have hedge : Edge delimiter (chars ++ after).head? := hgap ▸ edge_head? delimiter rest
        exact absurd (eq_nil_of_edge_right hedge hnone) hne
      | cons d gap =>
        obtain ⟨rfl, rfl⟩ := List.cons.inj hgap
        refine .inr ⟨⟨gap, chars, after⟩, ⟨⟨List.append_assoc _ _ _, hne, hnone⟩,
          edge_getLast?_append.1 hbefore, hafter⟩, ?_⟩
        rw [behind, List.append_cons]
  · rintro (⟨hne, rfl⟩ | ⟨later, ⟨⟨rfl, hne, hnone⟩, hbefore, hafter⟩, rfl⟩)
    · exact ⟨⟨rfl, hne, h⟩, nofun, edge_head? delimiter rest⟩
    · refine ⟨⟨by simp [behind], hne, hnone⟩, ?_, hafter⟩
      rw [behind, ← List.append_cons]
      exact edge_getLast?_append.2 hbefore

end Excerpt

/-- Every text is free of the delimiter, or has a free part before the first one. -/
@[elab_as_elim]
theorem cut_induction (delimiter : Char) {motive : List Char → Prop}
    (free : ∀ text, delimiter ∉ text → motive text)
    (cut : ∀ first rest, delimiter ∉ first → motive rest → motive (first ++ delimiter :: rest))
    (text : List Char) : motive text := by
  induction hn : text.length using Nat.strong_induction_on generalizing text with
  | h n ih =>
    by_cases hmem : delimiter ∈ text
    · obtain ⟨first, rest, rfl, hfirst⟩ := List.eq_append_cons_of_mem hmem
      refine cut first rest hfirst (ih rest.length ?_ rest rfl)
      rw [← hn, List.length_append, List.length_cons]
      omega
    · exact free text hmem

theorem pieces_eq_splitOn (delimiter : Char) (text : List Char) :
    pieces delimiter text = text.splitOn delimiter := by
  induction text with
  | nil => rfl
  | cons c rest ih =>
    obtain ⟨piece, others, hrest⟩ := List.exists_cons_of_ne_nil (List.splitOn_ne_nil delimiter rest)
    simp only [pieces, List.splitOn_cons_eq_if_modifyHead, ih, hrest, List.modifyHead_cons,
      beq_iff_eq]

/-- The pieces that are not empty. -/
def runs (delimiter : Char) (text : List Char) : List (List Char) :=
  (pieces delimiter text).filter (· ≠ [])

theorem items_eq (delimiter : Char) (text : String) :
    items delimiter text = (runs delimiter text.toList).map String.ofList := rfl

theorem runs_append_cons (delimiter : Char) (first second : List Char) :
    runs delimiter (first ++ delimiter :: second)
      = runs delimiter first ++ runs delimiter second := by
  simp only [runs, pieces_eq_splitOn, List.splitOn_append_cons_self, List.filter_append]

theorem runs_of_not_mem {delimiter : Char} {text : List Char} (h : delimiter ∉ text) :
    runs delimiter text = [text].filter (· ≠ []) := by
  rw [runs, pieces_eq_splitOn, List.splitOn_eq_singleton h]

/-- The runs are found, each where it is in the text, and from left to right. -/
theorem exists_excerpts (delimiter : Char) (text : List Char) :
    ∃ excerpts : List Excerpt, excerpts.Pairwise Excerpt.Precedes
      ∧ (∀ e, e ∈ excerpts ↔ e.IsRun delimiter text)
      ∧ runs delimiter text = excerpts.map Excerpt.chars := by
  induction text using cut_induction delimiter with
  | free text h =>
    refine ⟨Excerpt.proper ⟨[], text, []⟩, Excerpt.pairwise_proper _, fun e => ?_, ?_⟩
    · rw [Excerpt.mem_proper, Excerpt.isRun_of_not_mem h]
    · rw [runs_of_not_mem h, Excerpt.map_chars_proper]
  | cut first rest h ih =>
    obtain ⟨later, hpairwise, hmem, hruns⟩ := ih
    refine ⟨Excerpt.proper ⟨[], first, delimiter :: rest⟩
      ++ later.map (Excerpt.behind (first ++ [delimiter])), ?_, fun e => ?_, ?_⟩
    · refine List.pairwise_append.2 ⟨Excerpt.pairwise_proper _, ?_, ?_⟩
      · exact hpairwise.map _ fun x y h => Excerpt.behind_precedes h
      · intro x hx y hy
        obtain ⟨-, rfl⟩ := Excerpt.mem_proper.1 hx
        obtain ⟨e, -, rfl⟩ := List.mem_map.1 hy
        exact ⟨delimiter :: e.before, by simp [Excerpt.behind]⟩
    · rw [List.mem_append, Excerpt.mem_proper, List.mem_map, Excerpt.isRun_append_cons h]
      exact or_congr Iff.rfl (exists_congr fun later => and_congr (hmem later) eq_comm)
    · rw [runs_append_cons, runs_of_not_mem h, hruns, List.map_append, Excerpt.map_chars_proper,
        List.map_map]
      rfl

theorem runs_delimiter_cons (delimiter : Char) (text : List Char) :
    runs delimiter (delimiter :: text) = runs delimiter text :=
  runs_append_cons delimiter [] text

theorem runs_replicate_append (delimiter : Char) (count : Nat) (text : List Char) :
    runs delimiter (List.replicate count delimiter ++ text) = runs delimiter text := by
  induction count with
  | zero => rfl
  | succ count ih =>
    rw [List.replicate_succ, List.cons_append, runs_delimiter_cons, ih]

theorem runs_append_of_edge {delimiter : Char} {item rest : List Char} (hne : item ≠ [])
    (hitem : delimiter ∉ item) (hrest : Edge delimiter rest.head?) :
    runs delimiter (item ++ rest) = item :: runs delimiter rest := by
  have hself : runs delimiter item = [item] := by
    rw [runs_of_not_mem hitem]
    exact List.filter_cons_of_pos (decide_eq_true hne)
  cases rest with
  | nil =>
    rw [List.append_nil, hself]
    rfl
  | cons c others =>
    obtain rfl := hrest c rfl
    rw [runs_append_cons, hself, runs_delimiter_cons, List.singleton_append]

/-- The items in a row, each behind so many delimiters, and `trailing` ones at the end. -/
def delimited (delimiter : Char) (links : List (Nat × String)) (trailing : Nat) : String :=
  String.ofList (links.flatMap (fun link => List.replicate link.1 delimiter ++ link.2.toList)
    ++ List.replicate trailing delimiter)

theorem toList_delimited_nil (delimiter : Char) (trailing : Nat) :
    (delimited delimiter [] trailing).toList = List.replicate trailing delimiter :=
  String.toList_ofList

theorem toList_delimited_cons (delimiter : Char) (link : Nat × String)
    (links : List (Nat × String)) (trailing : Nat) :
    (delimited delimiter (link :: links) trailing).toList
      = List.replicate link.1 delimiter
        ++ (link.2.toList ++ (delimited delimiter links trailing).toList) := by
  simp [delimited]

theorem edge_delimited {delimiter : Char} {links : List (Nat × String)} (trailing : Nat)
    (h : ∀ link ∈ links, 0 < link.1) :
    Edge delimiter (delimited delimiter links trailing).toList.head? := by
  cases links with
  | nil =>
    rw [toList_delimited_nil]
    cases trailing with
    | zero => exact nofun
    | succ _ => exact edge_head? delimiter _
  | cons link rest =>
    rw [toList_delimited_cons]
    obtain ⟨count, hcount⟩ := Nat.exists_eq_add_one.2 (h link List.mem_cons_self)
    rw [hcount]
    exact edge_head? delimiter _

theorem runs_delimited {delimiter : Char} {links : List (Nat × String)} (trailing : Nat)
    (hitems : ∀ link ∈ links, link.2 ≠ "" ∧ delimiter ∉ link.2.toList)
    (hbetween : ∀ link ∈ links.tail, 0 < link.1) :
    runs delimiter (delimited delimiter links trailing).toList
      = links.map fun link => link.2.toList := by
  induction links with
  | nil =>
    rw [toList_delimited_nil, ← List.append_nil (List.replicate _ _), runs_replicate_append]
    rfl
  | cons link rest ih =>
    rw [List.tail_cons] at hbetween
    obtain ⟨hne, hnone⟩ := hitems link List.mem_cons_self
    have hlater := ih (fun other h => hitems other (List.mem_cons_of_mem link h))
      fun other h => hbetween other (List.mem_of_mem_tail h)
    rw [toList_delimited_cons, runs_replicate_append, runs_append_of_edge
      (mt String.toList_eq_nil_iff.1 hne) hnone (edge_delimited trailing hbetween), hlater,
      List.map_cons]

end Text

namespace MediaName

open Text

variable {file list : String} {delimiter : Char}

theorem endsInAny_iff {extensions : List String} : endsInAny file extensions = true
    ↔ ∃ extension ∈ extensions, bytes extension <:+ bytes file := by
  simp only [endsInAny, List.any_eq_true, List.isSuffixOf_iff_suffix, bytes_suffix_iff]

theorem mem_parseList {item : String} : item ∈ parseList list delimiter
    ↔ ∃ e : Excerpt, e.IsRun delimiter list.toList ∧ String.ofList e.chars = item := by
  obtain ⟨excerpts, -, hmem, hruns⟩ := exists_excerpts delimiter list.toList
  rw [parseList, items_eq, hruns, List.map_map, List.mem_map]
  simp only [hmem, Function.comp]

theorem endsInAny_parseList : endsInAny file (parseList list delimiter) = true
    ↔ ∃ e : Excerpt, e.IsRun delimiter list.toList
      ∧ bytes (String.ofList e.chars) <:+ bytes file := by
  simp only [endsInAny_iff, mem_parseList]
  constructor
  · rintro ⟨_, ⟨e, he, rfl⟩, hsuffix⟩
    exact ⟨e, he, hsuffix⟩
  · rintro ⟨e, he, hsuffix⟩
    exact ⟨_, ⟨e, he, rfl⟩, hsuffix⟩

theorem endsInAny_push : endsInAny (file.push delimiter) (parseList list delimiter) = false := by
  rw [Bool.eq_false_iff, ne_eq, endsInAny_parseList]
  rintro ⟨e, he, hsuffix⟩
  rw [bytes_suffix_iff, String.toList_ofList, String.toList_push] at hsuffix
  obtain ⟨front, hfront⟩ := hsuffix
  have hedge : Edge delimiter (file.toList ++ [delimiter]).getLast? :=
    edge_getLast?_append.2 nofun
  exact he.ne_nil (eq_nil_of_edge_left (hfront ▸ hedge) he.not_mem)

theorem parseList_append (first second : String) (delimiter : Char) :
    parseList (first ++ String.singleton delimiter ++ second) delimiter
      = parseList first delimiter ++ parseList second delimiter := by
  simp only [parseList, items_eq, String.toList_append, String.toList_singleton,
    List.append_assoc, List.singleton_append, runs_append_cons, List.map_append]

theorem parseList_delimited {links : List (Nat × String)} (trailing : Nat)
    (hitems : ∀ link ∈ links, link.2 ≠ "" ∧ delimiter ∉ link.2.toList)
    (hbetween : ∀ link ∈ links.tail, 0 < link.1) :
    parseList (delimited delimiter links trailing) delimiter = links.map Prod.snd := by
  rw [parseList, items_eq, runs_delimited trailing hitems hbetween, List.map_map]
  exact List.map_congr_left fun link _ => String.ofList_toList

theorem empty_notMem_parseList : "" ∉ parseList list delimiter := by
  rw [mem_parseList]
  rintro ⟨e, he, hempty⟩
  exact he.ne_nil (String.ofList_injective hempty)

/-- A list is read as its runs, from left to right. What two lists name, they name with a delimiter
between them too; delimiters in a row and at the ends name nothing. A name is recognised if it ends
in a run, so one that ends in the delimiter is not. -/
theorem parseList_finds_runs :
    (∀ list delimiter, ∃ excerpts : List Excerpt, excerpts.Pairwise Excerpt.Precedes
        ∧ (∀ e, e ∈ excerpts ↔ e.IsRun delimiter list.toList)
        ∧ parseList list delimiter = excerpts.map fun e => String.ofList e.chars)
      ∧ (∀ first second delimiter,
          parseList (first ++ String.singleton delimiter ++ second) delimiter
            = parseList first delimiter ++ parseList second delimiter)
      ∧ (∀ delimiter (links : List (Nat × String)) trailing,
          (∀ link ∈ links, link.2 ≠ "" ∧ delimiter ∉ link.2.toList) →
          (∀ link ∈ links.tail, 0 < link.1) →
          parseList (delimited delimiter links trailing) delimiter = links.map Prod.snd)
      ∧ ∀ list delimiter, "" ∉ parseList list delimiter ∧ ∀ file,
          (endsInAny file (parseList list delimiter) = true
            ↔ ∃ e : Excerpt, e.IsRun delimiter list.toList
              ∧ bytes (String.ofList e.chars) <:+ bytes file)
          ∧ endsInAny (file.push delimiter) (parseList list delimiter) = false := by
  refine ⟨fun list delimiter => ?_, parseList_append, fun delimiter links trailing =>
    parseList_delimited trailing, fun list delimiter =>
    ⟨empty_notMem_parseList, fun file => ⟨endsInAny_parseList, endsInAny_push⟩⟩⟩
  obtain ⟨excerpts, hpairwise, hmem, hruns⟩ := exists_excerpts delimiter list.toList
  refine ⟨excerpts, hpairwise, hmem, ?_⟩
  rw [parseList, items_eq, hruns, List.map_map]
  rfl

/-- Delimiters of two bytes, at both ends and in a row. -/
theorem parseList_finds_runs_stray :
    let links := [(2, "mp3"), (1, "ogg"), (3, "flac")]
    (∀ link ∈ links, link.2 ≠ "" ∧ '·' ∉ link.2.toList) ∧ (∀ link ∈ links.tail, 0 < link.1)
      ∧ delimited '·' links 1 = "··mp3·ogg···flac·"
      ∧ parseList "··mp3·ogg···flac·" '·' = ["mp3", "ogg", "flac"]
      ∧ endsInAny "song.flac" (parseList "··mp3·ogg···flac·" '·') = true
      ∧ endsInAny "song·" (parseList "··mp3·ogg···flac·" '·') = false := by
  intro links
  have hitems : ∀ link ∈ links, link.2 ≠ "" ∧ '·' ∉ link.2.toList := by decide
  have hbetween : ∀ link ∈ links.tail, 0 < link.1 := by decide
  have hlist : delimited '·' links 1 = "··mp3·ogg···flac·" := rfl
  have hparse := parseList_finds_runs.2.2.1 '·' links 1 hitems hbetween
  rw [hlist] at hparse
  refine ⟨hitems, hbetween, hlist, hparse, ?_, ?_⟩
  · rw [hparse]
    decide
  · exact (parseList_finds_runs.2.2.2 _ '·').2 "song" |>.2

end MediaName
end MediaLibrary
