import MediaLibrary.Roster
import Mathlib.Data.List.Nodup
/-! The roster over any sequence of calls. Entries are made by name and struck off by library, so that
a library may be struck off under several names at once. What the roster tells is fixed by the calls
and their answers: the entries that were made, in their order, and whose library was not struck off
afterwards. -/
namespace MediaLibrary.Roster

variable {r : Roster} {e : RosterEntry} {name : String} {library : Handle}

theorem contains_eq_false : r.contains name = false ↔ ∀ e ∈ r.entries, e.name ≠ name := by
  simp [contains]

theorem mem_unregister :
    e ∈ (r.unregister library).entries ↔ e ∈ r.entries ∧ e.library ≠ library := by
  simp [unregister]

theorem contains_unregister (h : ∀ e ∈ r.entries, e.name = name → e.library = library) :
    (r.unregister library).contains name = false := by
  rw [contains_eq_false]
  intro e he hname
  obtain ⟨hmem, hne⟩ := mem_unregister.1 he
  exact hne (h e hmem hname)

theorem unregister_of_absent (h : ∀ e ∈ r.entries, e.library ≠ library) :
    r.unregister library = r := by
  rw [unregister, List.filter_eq_self.2 (by simpa using h)]

theorem entries_unregister (hlibraries : (r.entries.map RosterEntry.library).Nodup)
    {before after : List RosterEntry} (hsplit : r.entries = before ++ e :: after) :
    (r.unregister e.library).entries = before ++ after := by
  rw [hsplit, List.map_append, List.map_cons, List.nodup_middle, List.nodup_cons,
    List.mem_append, not_or] at hlibraries
  obtain ⟨⟨hbefore, hafter⟩, -⟩ := hlibraries
  have hkept {entries : List RosterEntry} (h : e.library ∉ entries.map RosterEntry.library) :
      entries.filter (·.library ≠ e.library) = entries := by
    rw [List.filter_eq_self]
    intro other hother
    simp only [ne_eq, decide_eq_true_eq]
    exact fun heq => h (heq ▸ List.mem_map_of_mem hother)
  rw [unregister, hsplit, List.filter_append, List.filter_cons_of_neg (by simp), hkept hbefore,
    hkept hafter]

theorem contains_iff_mem_openLibraries :
    r.contains name = true ↔ name ∈ r.openLibraries.map OpenLibrary.name := by
  simp [contains, openLibraries, RosterEntry.openLibrary]

theorem contains_eq_isSome (r : Roster) (name : String) :
    r.contains name = (r.find? name).isSome := by
  rw [find?, Option.isSome_map, List.isSome_find?, contains]

theorem find?_eq_some_iff (hnames : (r.entries.map RosterEntry.name).Nodup) :
    r.find? name = some library ↔ ∃ e ∈ r.entries, e.name = name ∧ e.library = library := by
  rw [find?, Option.map_eq_some_iff]
  constructor
  · rintro ⟨e, hfound, hlibrary⟩
    have hname : e.name = name := by simpa using List.find?_some hfound
    exact ⟨e, List.mem_of_find?_eq_some hfound, hname, hlibrary⟩
  · rintro ⟨e, he, rfl, rfl⟩
    obtain ⟨other, hfound⟩ : ∃ other, r.entries.find? (·.name = e.name) = some other := by
      rw [← Option.isSome_iff_exists, List.find?_isSome]
      exact ⟨e, he, decide_eq_true rfl⟩
    have hname : other.name = e.name := by simpa using List.find?_some hfound
    have hother := List.mem_of_find?_eq_some hfound
    exact ⟨other, hfound, by rw [List.inj_on_of_nodup_map hnames hother he hname]⟩

/-- A call that may change the roster. -/
inductive Call where
  | register (entry : RosterEntry)
  | unregister (library : Handle)
  deriving DecidableEq, Repr

inductive Answer where
  | registered
  | refused (error : LibraryError)
  | unregistered (present : Bool)
  deriving DecidableEq, Repr

/-- The answer to a call, and the roster after it. -/
def serve (r : Roster) : Call → Answer × Roster
  | .register e =>
    match r.register e.name e.mediaPrefix e.library with
    | .ok entered => (.registered, entered)
    | .error error => (.refused error, r)
  | .unregister library => (.unregistered (r.includes library), r.unregister library)

def after (r : Roster) : List Call → Roster
  | [] => r
  | call :: rest => after (r.serve call).2 rest

def transcript (r : Roster) : List Call → List (Call × Answer)
  | [] => []
  | call :: rest => (call, (r.serve call).1) :: transcript (r.serve call).2 rest

/-- The entries made in a transcript whose library is not struck off later on. -/
def surviving : List (Call × Answer) → List RosterEntry
  | [] => []
  | (.register e, .registered) :: later =>
    if .unregister e.library ∈ later.map Prod.fst then surviving later
    else e :: surviving later
  | _ :: later => surviving later

/-! What one call does. -/

theorem serve_register_taken (h : r.contains e.name = true) :
    r.serve (.register e) = (.refused (.alreadyOpen e.name), r) := by
  simp only [serve, register, h, if_true]

theorem serve_register_free (h : r.contains e.name = false) :
    r.serve (.register e) = (.registered, ⟨r.entries ++ [e]⟩) := by
  simp [serve, register, h]

theorem includes_eq (r : Roster) (library : Handle) :
    r.includes library = decide (∃ e ∈ r.entries, e.library = library) := by
  rw [includes, Bool.eq_iff_iff, decide_eq_true_eq, List.any_eq_true]
  simp only [decide_eq_true_eq]

theorem nodup_serve (h : (r.entries.map RosterEntry.name).Nodup) (call : Call) :
    ((r.serve call).2.entries.map RosterEntry.name).Nodup := by
  cases call with
  | register e =>
    cases htaken : r.contains e.name with
    | true =>
      rw [serve_register_taken htaken]
      exact h
    | false =>
      rw [serve_register_free htaken, List.map_append, List.nodup_append]
      refine ⟨h, List.nodup_singleton _, ?_⟩
      intro name hname other hother
      obtain ⟨x, hx, rfl⟩ := List.mem_map.1 hname
      obtain rfl := List.mem_singleton.1 hother
      exact contains_eq_false.1 htaken x hx
  | unregister library => exact h.sublist (List.filter_sublist.map _)

/-! What a sequence of calls leaves. -/

theorem nodup_after (h : (r.entries.map RosterEntry.name).Nodup) (calls : List Call) :
    ((r.after calls).entries.map RosterEntry.name).Nodup := by
  induction calls generalizing r with
  | nil => exact h
  | cons call rest ih => exact ih (nodup_serve h call)

@[simp] theorem map_fst_transcript (r : Roster) (calls : List Call) :
    (r.transcript calls).map Prod.fst = calls := by
  induction calls generalizing r with
  | nil => rfl
  | cons call rest ih => rw [transcript, List.map_cons, ih]

theorem entries_after (r : Roster) (calls : List Call) :
    (r.after calls).entries
      = r.entries.filter (fun e => .unregister e.library ∉ calls)
        ++ surviving (r.transcript calls) := by
  -- on the calls still to come, from any roster that those before them left
  induction calls generalizing r with
  | nil => simp [after, transcript, surviving]
  | cons call rest ih =>
    rw [after, transcript, ih]
    cases call with
    | register e =>
      cases htaken : r.contains e.name with
      | true =>
        rw [serve_register_taken htaken]
        simp [surviving]
      | false =>
        rw [serve_register_free htaken, surviving, map_fst_transcript]
        by_cases hstruck : .unregister e.library ∈ rest
        · simp [hstruck]
        · simp [hstruck]
    | unregister library =>
      have hfilter : (r.entries.filter (·.library ≠ library)).filter
            (fun e => .unregister e.library ∉ rest)
          = r.entries.filter (fun e => .unregister e.library ∉ Call.unregister library :: rest) := by
        rw [List.filter_filter]
        refine List.filter_congr fun e _ => ?_
        by_cases hlibrary : e.library = library <;> simp [hlibrary]
      rw [← hfilter]
      rfl

theorem split_cons {α : Type} {x first : α} {rest : List α} {p : List α → Prop} :
    (∃ earlier later, first :: rest = earlier ++ x :: later ∧ p later) ↔
      (first = x ∧ p rest) ∨ ∃ earlier later, rest = earlier ++ x :: later ∧ p later := by
  constructor
  · rintro ⟨earlier, later, heq, hlater⟩
    cases earlier with
    | nil =>
      obtain ⟨rfl, rfl⟩ := List.cons_eq_cons.1 heq
      exact Or.inl ⟨rfl, hlater⟩
    | cons y earlier =>
      obtain ⟨rfl, rfl⟩ := List.cons_eq_cons.1 heq
      exact Or.inr ⟨earlier, later, rfl, hlater⟩
  · rintro (⟨rfl, hlater⟩ | ⟨earlier, later, rfl, hlater⟩)
    · exact ⟨[], rest, rfl, hlater⟩
    · exact ⟨first :: earlier, later, rfl, hlater⟩

/-- An entry survives if it was made and its library was not struck off since. -/
theorem mem_surviving {t : List (Call × Answer)} : e ∈ surviving t ↔
    ∃ earlier later, t = earlier ++ (.register e, .registered) :: later ∧
      .unregister e.library ∉ later.map Prod.fst := by
  fun_induction surviving t with
  | case1 => simp
  | case2 made later hstruck ih =>
    rw [split_cons, ← ih]
    refine ⟨Or.inr, ?_⟩
    rintro (⟨heq, hkept⟩ | hmem)
    · cases heq
      exact absurd hstruck hkept
    · exact hmem
  | case3 made later hstruck ih =>
    rw [split_cons, ← ih, List.mem_cons]
    refine or_congr_left ⟨?_, ?_⟩
    · rintro rfl
      exact ⟨rfl, hstruck⟩
    · rintro ⟨heq, -⟩
      cases heq
      rfl
  | case4 first later hother ih =>
    rw [split_cons, ← ih]
    refine ⟨Or.inr, ?_⟩
    rintro (⟨rfl, -⟩ | hmem)
    · exact (hother e rfl).elim
    · exact hmem

/-- The roster tells what the calls of the transcript left, and how the next call will be answered. -/
structure Reflects (t : List (Call × Answer)) (r : Roster) : Prop where
  distinct : (r.openLibraries.map OpenLibrary.name).Nodup
  register : ∀ e, r.serve (.register e)
    = if e.name ∈ r.openLibraries.map OpenLibrary.name then (.refused (.alreadyOpen e.name), r)
      else (.registered, ⟨r.entries ++ [e]⟩)
  unregister : ∀ library, ∃ left, r.serve (.unregister library)
      = (.unregistered (decide (∃ e ∈ r.entries, e.library = library)), left) ∧
    left.entries.Sublist r.entries ∧
    ∀ e, e ∈ left.entries ↔ e ∈ r.entries ∧ e.library ≠ library
  found : ∀ name library, r.find? name = some library ↔ ∃ mediaPrefix earlier later,
    t = earlier ++ (.register ⟨name, mediaPrefix, library⟩, .registered) :: later ∧
      .unregister library ∉ later.map Prod.fst
  contains : ∀ name, r.contains name = (r.find? name).isSome
  listed : r.openLibraries = (surviving t).map RosterEntry.openLibrary

/-- After any calls, beginning with an empty roster, names are distinct, a name is taken exactly while
a library is entered under it, and the open libraries are those that were entered and not struck off
since, in the order of their entry. -/
theorem reflects_after (calls : List Call) :
    Reflects (transcript .empty calls) (after .empty calls) := by
  have hnames : ((after .empty calls).entries.map RosterEntry.name).Nodup :=
    nodup_after (r := .empty) List.nodup_nil calls
  have hentries : (after .empty calls).entries = surviving (transcript .empty calls) := by
    rw [entries_after]
    rfl
  refine ⟨?_, fun e => ?_, fun library => ?_, fun name library => ?_, contains_eq_isSome _, ?_⟩
  · simpa [openLibraries, Function.comp_def, RosterEntry.openLibrary] using hnames
  · by_cases htaken : (after .empty calls).contains e.name = true
    · rw [if_pos (contains_iff_mem_openLibraries.1 htaken), serve_register_taken htaken]
    · rw [if_neg (mt contains_iff_mem_openLibraries.2 htaken),
        serve_register_free (by simpa using htaken)]
  · refine ⟨(after .empty calls).unregister library, ?_, List.filter_sublist,
      fun e => mem_unregister⟩
    rw [serve, includes_eq]
  · rw [find?_eq_some_iff hnames, hentries]
    constructor
    · rintro ⟨⟨name, mediaPrefix, library⟩, hmem, rfl, rfl⟩
      obtain ⟨earlier, later, hsplit, hlater⟩ := mem_surviving.1 hmem
      exact ⟨mediaPrefix, earlier, later, hsplit, hlater⟩
    · rintro ⟨mediaPrefix, earlier, later, hsplit, hlater⟩
      exact ⟨_, mem_surviving.2 ⟨earlier, later, hsplit, hlater⟩, rfl, rfl⟩
  · rw [openLibraries, hentries]

example : (after .empty [.register ⟨"a", "/a", 0⟩, .register ⟨"c", "/c", 1⟩,
    .register ⟨"b", "/b", 0⟩, .unregister 0]).openLibraries = [⟨"c", "/c"⟩] := by decide

end MediaLibrary.Roster
