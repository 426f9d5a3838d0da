import MediaLibrary.Disk
import MediaLibrary.Proofs.Steps
/-! What changes on the disk mean for its files. A new file is found where it was made, and giving a
file new contents changes nothing else: neither what there is to find nor the other files. -/
namespace MediaLibrary

theorem Path.look_eq_ok {names : List (Place × Nat)} {place : Place} {found : Option Nat}
    (h : look names place = .ok found) :
    ¬ maxName < place.name.utf8ByteSize ∧ names.lookup place = found := by
  unfold look at h
  split at h
  · cases h
  · rename_i hfits
    exact ⟨hfits, Except.ok.inj h⟩

theorem Path.walk_congr {tree other : Tree} (hsame : other.directories = tree.directories)
    {slashed : Bool} {here : Directory} {steps : List String} {target : Target}
    (h : walk tree slashed here steps = .ok target) : walk other slashed here steps = .ok target := by
  induction steps generalizing here with
  | nil => exact h
  | cons step rest ih =>
    unfold walk at h ⊢
    rw [hsame]
    by_cases hdot : step = "."
    · rw [if_pos hdot] at h ⊢
      exact ih h
    by_cases hup : step = ".."
    · rw [if_neg hdot, if_pos hup] at h ⊢
      exact ih h
    by_cases hdown : step :: here ∈ tree.directories
    · rw [if_neg hdot, if_neg hup, if_pos hdown] at h ⊢
      exact ih h
    rw [if_neg hdot, if_neg hup, if_neg hdown] at h ⊢
    by_cases hlast : rest.isEmpty = true
    · rwa [if_pos hlast] at h ⊢
    · rw [if_neg hlast] at h
      split at h <;> cases h

theorem Path.resolve_eq_ok_iff {tree : Tree} {path : String} {target : Target} :
    resolve tree path = .ok target ↔
      ('\x00' ∉ path.toList ∧ path.toList ≠ [] ∧ path.utf8ByteSize ≤ maxSize) ∧
      walk tree (path.toList.getLast? = some '/')
        (if path.toList.head? = some '/' then [] else tree.home) (Text.items '/' path)
        = .ok target := by
  unfold resolve
  simp only
  by_cases hnul : '\x00' ∈ path.toList
  · simp [hnul]
  by_cases hempty : path.toList = []
  · simp [hempty]
  by_cases hlong : maxSize < path.utf8ByteSize
  · rw [if_neg hnul, if_neg hempty, if_pos hlong]
    exact ⟨fun h => (nomatch h), fun h => absurd h.1.2.2 (Nat.not_le.2 hlong)⟩
  · rw [if_neg hnul, if_neg hempty, if_neg hlong]
    exact ⟨fun h => ⟨⟨hnul, hempty, Nat.le_of_not_lt hlong⟩, h⟩, fun h => h.2⟩

namespace Disk

variable {disk disk' : Disk} {path : String} {contents : Image} {place : Place} {number : Nat}

/-- `path` leads to `place`, where there can be a file. -/
structure Leads (disk : Disk) (path : String) (place : Place) : Prop where
  resolved : Path.resolve disk.toTree path = .ok (.entry place false)
  short : place.name.utf8ByteSize ≤ Path.maxName

namespace Leads

theorem look_eq (h : disk.Leads path place) :
    Path.look disk.names place = .ok (disk.names.lookup place) := by
  rw [Path.look, if_neg (Nat.not_lt.2 h.short)]

theorem congr (h : disk.Leads path place) (hhome : disk'.home = disk.home)
    (hothers : disk'.others = disk.others) : disk'.Leads path place := by
  have hsame : disk'.directories = disk.directories := by
    rw [Tree.directories, Tree.directories, hhome, hothers]
  obtain ⟨hfits, hwalk⟩ := Path.resolve_eq_ok_iff.1 h.resolved
  refine ⟨Path.resolve_eq_ok_iff.2 ⟨hfits, ?_⟩, h.short⟩
  rw [hhome]
  exact Path.walk_congr hsame hwalk

theorem add (h : disk.Leads path place) (there : Place) (contents : Image) :
    (disk.add there contents).Leads path place := h.congr rfl rfl

theorem locate_absent (h : disk.Leads path place) (hnone : disk.names.lookup place = none) :
    disk.locate path = .error .notFound := by
  rw [locate, Steps.query_ok h.resolved]
  refine (Steps.query_ok h.look_eq).trans ?_
  rw [hnone]

theorem locate_present (h : disk.Leads path place) (hsome : disk.names.lookup place = some number) :
    disk.locate path = .ok (place, number) := by
  rw [locate, Steps.query_ok h.resolved]
  refine (Steps.query_ok h.look_eq).trans ?_
  rw [hsome]
  rfl

theorem find_absent (h : disk.Leads path place) (hnone : disk.names.lookup place = none) :
    disk.find path = .error .notFound := by
  rw [find, Steps.query_error (h.locate_absent hnone)]

theorem find_present (h : disk.Leads path place) (hsome : disk.names.lookup place = some number) :
    disk.find path = .ok number := by
  rw [find, Steps.query_ok (h.locate_present hsome)]
  rfl

theorem contains_eq (h : disk.Leads path place) :
    disk.contains path = (disk.names.lookup place).isSome := by
  cases hlookup : disk.names.lookup place with
  | none => rw [contains, h.find_absent hlookup]; rfl
  | some number => rw [contains, h.find_present hlookup]; rfl

end Leads

theorem find_eq_ok_iff : disk.find path = .ok number ↔
    ∃ place, disk.Leads path place ∧ disk.names.lookup place = some number := by
  constructor
  · intro h
    obtain ⟨⟨place, found⟩, hlocate, h⟩ := Steps.query_eq_ok_iff.1 h
    obtain rfl := Except.ok.inj h
    obtain ⟨target, hresolve, hlocate⟩ := Steps.query_eq_ok_iff.1 hlocate
    rcases target with directory | ⟨there, slashed⟩
    · cases hlocate
    obtain ⟨entry, hlook, hlocate⟩ := Steps.query_eq_ok_iff.1 hlocate
    obtain ⟨hshort, hlookup⟩ := Path.look_eq_ok hlook
    cases entry with
    | none => cases hlocate
    | some number =>
      cases slashed with
      | true => cases hlocate
      | false =>
        obtain ⟨rfl, rfl⟩ := Prod.mk.inj (Except.ok.inj hlocate)
        exact ⟨there, ⟨hresolve, Nat.le_of_not_lt hshort⟩, hlookup⟩
  · rintro ⟨place, hleads, hsome⟩
    exact hleads.find_present hsome

theorem find_of_names (h : disk.find path = .ok number) (hhome : disk'.home = disk.home)
    (hothers : disk'.others = disk.others) (hnames : ∀ place number,
      disk.names.lookup place = some number → disk'.names.lookup place = some number) :
    disk'.find path = .ok number := by
  obtain ⟨place, hleads, hsome⟩ := find_eq_ok_iff.1 h
  exact (hleads.congr hhome hothers).find_present (hnames place number hsome)

theorem vacant_eq_ok_iff :
    disk.vacant path = .ok place ↔ disk.Leads path place ∧ disk.names.lookup place = none := by
  constructor
  · intro h
    obtain ⟨target, hresolve, h⟩ := Steps.query_eq_ok_iff.1 h
    rcases target with directory | ⟨other, _ | _⟩
    · cases h
    · obtain ⟨found, hlook, h⟩ := Steps.query_eq_ok_iff.1 h
      cases found with
      | some number => cases h
      | none =>
        obtain rfl := Except.ok.inj h
        obtain ⟨hshort, hnone⟩ := Path.look_eq_ok hlook
        exact ⟨⟨hresolve, Nat.le_of_not_lt hshort⟩, hnone⟩
    · cases h
  · rintro ⟨hleads, hnone⟩
    rw [vacant, Steps.query_ok hleads.resolved]
    refine (Steps.query_ok hleads.look_eq).trans ?_
    rw [hnone]

/-! A new file. -/

theorem lookup_add (hnone : disk.names.lookup place = none) (contents : Image) :
    (disk.add place contents).names.lookup place = some disk.files.length := by
  rw [add, List.lookup_append, hnone, Option.none_or, List.lookup_cons_self]

theorem find_add (hleads : disk.Leads path place) (hnone : disk.names.lookup place = none)
    (contents : Image) : (disk.add place contents).find path = .ok disk.files.length :=
  (hleads.add place contents).find_present (lookup_add hnone contents)

theorem find_add_of_find {other : String} (h : disk.find other = .ok number) (place : Place)
    (contents : Image) : (disk.add place contents).find other = .ok number := by
  refine find_of_names h rfl rfl fun there number hsome => ?_
  rw [add, List.lookup_append, hsome, Option.some_or]

@[simp] theorem contents_add (disk : Disk) (place : Place) (contents : Image) :
    (disk.add place contents).contents disk.files.length = contents := by
  simp [Disk.contents, add]

theorem contents_add_of_lt (place : Place) (contents : Image) (hlt : number < disk.files.length) :
    (disk.add place contents).contents number = disk.contents number := by
  simp [Disk.contents, add, List.getElem?_append_left hlt]

@[simp] theorem setContents_add (disk : Disk) (place : Place) (contents other : Image) :
    (disk.add place contents).setContents disk.files.length other = disk.add place other := by
  simp [setContents, add]

theorem remove_add (hleads : disk.Leads path place) (hnone : disk.names.lookup place = none)
    (contents : Image) : (disk.add place contents).remove path
      = .ok { disk with files := disk.files ++ [contents] } := by
  have hlocate := (hleads.add place contents).locate_present (lookup_add hnone contents)
  have hkept : ∀ entry ∈ disk.names, decide (entry.1 ≠ place) = true := by
    intro entry hentry
    have hne := List.lookup_eq_none_iff.1 hnone entry hentry
    exact decide_eq_true (Ne.symm (bne_iff_ne.1 hne))
  have hfilter : (disk.names ++ [(place, disk.files.length)]).filter (·.1 ≠ place)
      = disk.names := by
    rw [List.filter_append, List.filter_eq_self.2 hkept, List.filter_cons_of_neg (by simp)]
    exact List.append_nil _
  rw [remove, Steps.query_ok hlocate]
  exact congrArg (fun names => Except.ok
    { disk with names, files := disk.files ++ [contents] }) hfilter

@[simp] theorem contents_setContents (h : number < disk.files.length) :
    (disk.setContents number contents).contents number = contents := by
  simp [setContents, Disk.contents, h]

@[simp] theorem length_files_setContents (number : Nat) :
    (disk.setContents number contents).files.length = disk.files.length := by
  simp [setContents]

theorem contents_setContents_ne {other : Nat} (h : other ≠ number) (contents : Image) :
    (disk.setContents number contents).contents other = disk.contents other := by
  simp [Disk.contents, Disk.setContents, List.getElem?_set_ne h.symm]

theorem setContents_self (disk : Disk) (number : Nat) :
    disk.setContents number (disk.contents number) = disk := by
  have hset : disk.files.set number (disk.contents number) = disk.files := by
    apply List.ext_getElem?
    intro n
    rw [List.getElem?_set]
    split
    · rename_i heq
      subst heq
      split
      · rename_i hlt
        simp [Disk.contents, hlt]
      · rename_i hge
        rw [List.getElem?_eq_none (Nat.le_of_not_lt hge)]
    · rfl
  rw [setContents, hset]

end Disk

namespace Mapping

variable {m : Mapping} {disk : Disk} {α : Type} {update : Update α} {lib : LibraryFile}

theorem change_ok {a : α} (h : update (m.library disk) = .ok a lib) :
    m.change disk update
      = (.ok a, { m with mapped := lib.mapped }, disk.setContents m.file lib.contents) := by
  simp only [change, h]

theorem change_error {e : Failure LibraryError} (h : update (m.library disk) = .error e lib) :
    m.change disk update
      = (.error e, { m with mapped := lib.mapped }, disk.setContents m.file lib.contents) := by
  simp only [change, h]

end Mapping
end MediaLibrary
