import MediaLibrary.Proofs.LibraryFile.Catalog
import MediaLibrary.Proofs.LibraryFile.Lifecycle
import Mathlib.Data.Finset.Card
/-! What a library is about, whatever its file looks like: playlists in the order in which they were
started, each with a set of paths. Operations on inventories say what an operation on a library does
and why it is refused; they know of no bytes, no offsets and no space that could run out. -/
namespace MediaLibrary.LibraryFile

abbrev Inventory := List (String × Finset String)

namespace Inventory

def names (i : Inventory) : List String := i.map Prod.fst

/-- With the paths of one playlist changed. -/
def revise (name : String) (change : Finset String → Finset String) (i : Inventory) : Inventory :=
  i.map fun p => if p.1 = name then (p.1, change p.2) else p

def withPlaylist (name : String) (i : Inventory) : Inventory :=
  if name ∈ i.names then i else i ++ [(name, ∅)]

def start (name : String) (i : Inventory) : Except LibraryError Inventory := do
  newName i.names name
  return i ++ [(name, ∅)]

def delete (name : String) (i : Inventory) : Except LibraryError Inventory :=
  if name ∈ i.names then .ok (i.filter (·.1 ≠ name)) else .error (.playlistNotFound name)

def checkPath (playlist path : String) (i : Inventory) : Except LibraryError Unit :=
  match i.lookup playlist with
  | none => .error (.playlistNotFound playlist)
  | some paths =>
    if 0 ∈ Text.bytes path then .error (.table .interiorNul)
    else if path ∈ paths then .error (.pathExists path)
    else .ok ()

def addToGlobal (settings : Settings) (path : String) (i : Inventory) : Inventory :=
  (i.withPlaylist settings.globalPlaylist).revise settings.globalPlaylist (insert path)

/-- With `path` in the global playlist too, if the settings say so. -/
def copy (settings : Settings) (playlist path : String) (i : Inventory) : Inventory :=
  if settings.copyToGlobal ∧ playlist ≠ settings.globalPlaylist then i.addToGlobal settings path
  else i

def add (settings : Settings) (playlist path : String) (i : Inventory) :
    Except LibraryError Inventory := do
  i.checkPath playlist path
  return (i.copy settings playlist path).revise playlist (insert path)

def remove (playlist path : String) (i : Inventory) : Except LibraryError (Bool × Inventory) :=
  match i.lookup playlist with
  | none => .error (.playlistNotFound playlist)
  | some paths => .ok (decide (path ∈ paths), i.revise playlist (·.erase path))

theorem lookup_eq_none {i : Inventory} {name : String} (h : name ∉ i.names) :
    i.lookup name = none := by
  rw [List.lookup_eq_none_iff]
  intro p hp
  simp only [bne_iff_ne, ne_eq]
  rintro rfl
  exact h (List.mem_map_of_mem hp)

theorem mem_names_of_lookup {i : Inventory} {name : String} {paths : Finset String}
    (h : i.lookup name = some paths) : name ∈ i.names := by
  by_contra hnew
  rw [lookup_eq_none hnew] at h
  cases h

theorem lookup_split {before after : Inventory} {name : String} (paths : Finset String)
    (h : name ∉ before.names) : (before ++ (name, paths) :: after).lookup name = some paths := by
  rw [List.lookup_append, lookup_eq_none h, Option.none_or, List.lookup_cons_self]

theorem revise_of_not_mem {i : Inventory} {name : String} (h : name ∉ i.names)
    (change : Finset String → Finset String) : i.revise name change = i := by
  refine (List.map_congr_left fun p hp => ?_).trans (List.map_id i)
  rw [if_neg, id]
  rintro rfl
  exact h (List.mem_map_of_mem hp)

theorem revise_append (first second : Inventory) (name : String)
    (change : Finset String → Finset String) :
    revise name change (first ++ second) = revise name change first ++ revise name change second :=
  List.map_append

theorem revise_split {before after : Inventory} {name : String} {paths : Finset String}
    (hb : name ∉ before.names) (ha : name ∉ after.names)
    (change : Finset String → Finset String) :
    revise name change (before ++ (name, paths) :: after)
      = before ++ (name, change paths) :: after := by
  have hrest := revise_of_not_mem ha change
  unfold revise at hrest
  rw [revise_append, revise_of_not_mem hb, revise, List.map_cons, if_pos rfl, hrest]

theorem names_revise (name : String) (change : Finset String → Finset String) (i : Inventory) :
    (i.revise name change).names = i.names := by
  rw [names, revise, List.map_map]
  refine List.map_congr_left fun p _ => ?_
  rw [Function.comp_apply]
  split <;> rfl

theorem lookup_revise_of_ne {name other : String} (h : other ≠ name)
    (change : Finset String → Finset String) (i : Inventory) :
    (i.revise name change).lookup other = i.lookup other := by
  induction i with
  | nil => rfl
  | cons p rest ih =>
    unfold revise at ih ⊢
    rw [List.map_cons]
    by_cases hp : p.1 = name
    · have hne : (other == p.1) = false := by simpa [hp] using h
      rw [if_pos hp, List.lookup_cons, List.lookup_cons]
      simp only [hne, ih]
    · rw [if_neg hp, List.lookup_cons, List.lookup_cons, ih]

theorem lookup_revise_self (name : String) (change : Finset String → Finset String)
    (i : Inventory) : (i.revise name change).lookup name = (i.lookup name).map change := by
  induction i with
  | nil => rfl
  | cons p rest ih =>
    unfold revise at ih ⊢
    rw [List.map_cons]
    by_cases hp : p.1 = name
    · rw [if_pos hp, List.lookup_cons, List.lookup_cons]
      simp [hp]
    · have hne : (name == p.1) = false := by simpa using Ne.symm hp
      rw [if_neg hp, List.lookup_cons, List.lookup_cons]
      simp only [hne, ih]

theorem lookup_withPlaylist_self (name : String) (i : Inventory) :
    (i.withPlaylist name).lookup name = some ((i.lookup name).getD ∅) := by
  cases hlookup : i.lookup name with
  | none =>
    have hnew : name ∉ i.names := by
      intro hm
      obtain ⟨p, hp, hname⟩ := List.mem_map.1 hm
      have := List.lookup_eq_none_iff.1 hlookup p hp
      simp [hname] at this
    rw [withPlaylist, if_neg hnew, List.lookup_append, hlookup, List.lookup_cons_self]
    rfl
  | some paths =>
    rw [withPlaylist, if_pos (mem_names_of_lookup hlookup), hlookup]
    rfl

theorem lookup_withPlaylist_of_ne {name other : String} (h : other ≠ name) (i : Inventory) :
    (i.withPlaylist name).lookup other = i.lookup other := by
  unfold withPlaylist
  split
  · rfl
  · have hne : (other == name) = false := by simpa using h
    rw [List.lookup_append, List.lookup_cons]
    simp [hne]

theorem lookup_copy_of_ne {settings : Settings} {playlist path other : String}
    (h : other ≠ settings.globalPlaylist) (i : Inventory) :
    (i.copy settings playlist path).lookup other = i.lookup other := by
  unfold copy
  split
  · rw [addToGlobal, lookup_revise_of_ne h, lookup_withPlaylist_of_ne h]
  · rfl

theorem lookup_copy_target (settings : Settings) (playlist path : String) (i : Inventory) :
    (i.copy settings playlist path).lookup playlist = i.lookup playlist := by
  by_cases h : settings.copyToGlobal ∧ playlist ≠ settings.globalPlaylist
  · exact lookup_copy_of_ne h.2 i
  · rw [copy, if_neg h]

theorem checkPath_error {i : Inventory} {playlist path : String} {e : LibraryError}
    (h : i.checkPath playlist path = .error e) :
    e = .playlistNotFound playlist ∨ e = .table .interiorNul ∨ e = .pathExists path := by
  unfold checkPath at h
  split at h
  · exact Or.inl (Except.error.inj h).symm
  · split at h
    · exact Or.inr (Or.inl (Except.error.inj h).symm)
    · split at h
      · exact Or.inr (Or.inr (Except.error.inj h).symm)
      · cases h

theorem checkPath_ok {i : Inventory} {playlist path : String}
    (h : i.checkPath playlist path = .ok ()) :
    ∃ paths, i.lookup playlist = some paths ∧ 0 ∉ Text.bytes path ∧ path ∉ paths := by
  unfold checkPath at h
  split at h
  · cases h
  · rename_i paths hlookup
    split at h
    · cases h
    · rename_i hnul
      split at h
      · cases h
      · rename_i hnew
        exact ⟨paths, hlookup, hnul, hnew⟩

theorem checkPath_of_new {i : Inventory} {playlist path : String} {paths : Finset String}
    (hlookup : i.lookup playlist = some paths) (hnul : 0 ∉ Text.bytes path) (hnew : path ∉ paths) :
    i.checkPath playlist path = .ok () := by
  rw [checkPath, hlookup]
  simp only [if_neg hnul, if_neg hnew]

theorem checkPath_of_ne {i : Inventory} {settings : Settings} {playlist path other new : String}
    (h : i.checkPath other new = .ok ()) (hother : other ≠ settings.globalPlaylist)
    (hne : (other, new) ≠ (playlist, path)) :
    ((i.copy settings playlist path).revise playlist (insert path)).checkPath other new
      = .ok () := by
  obtain ⟨paths, hlookup, hnul, hnew⟩ := checkPath_ok h
  by_cases hplaylist : other = playlist
  · subst hplaylist
    have hpath : new ≠ path := fun heq => hne (by rw [heq])
    have hlater : ((i.copy settings other path).revise other (insert path)).lookup other
        = some (insert path paths) := by
      rw [lookup_revise_self, lookup_copy_target, hlookup]
      rfl
    exact checkPath_of_new hlater hnul (by simp [hpath, hnew])
  · refine checkPath_of_new ?_ hnul hnew
    rw [lookup_revise_of_ne hplaylist, lookup_copy_of_ne hother, hlookup]

theorem lookup_filter_ne (name other : String) (i : Inventory) :
    (i.filter (·.1 ≠ name)).lookup other = if other = name then none else i.lookup other := by
  induction i with
  | nil => simp
  | cons p rest ih =>
    by_cases hp : p.1 = name
    · rw [List.filter_cons, if_neg (by simpa using hp), ih, List.lookup_cons]
      by_cases ho : other = name
      · rw [if_pos ho, if_pos ho]
      · have hne : (other == p.1) = false := by simpa [hp] using ho
        rw [if_neg ho, if_neg ho, hne]
    · rw [List.filter_cons, if_pos (by simpa using hp), List.lookup_cons, List.lookup_cons, ih]
      by_cases ho : other = name
      · have hne : (other == p.1) = false := by simpa [ho] using Ne.symm hp
        rw [hne, if_pos ho]
      · rw [if_neg ho, if_neg ho]

/-! What the operations do to the set of paths in each playlist, a missing one having none. -/

def pathsOf (i : Inventory) (playlist : String) : Finset String := (i.lookup playlist).getD ∅

theorem card_pathsOf (i : Inventory) (playlist : String) :
    (i.pathsOf playlist).card = ((i.lookup playlist).map Finset.card).getD 0 := by
  unfold pathsOf
  cases i.lookup playlist with
  | none => rfl
  | some paths => rfl

section Paths

variable {settings : Settings} {i j : Inventory} {playlist path : String}

theorem pathsOf_start (h : i.start playlist = .ok j) (other : String) :
    j.pathsOf other = i.pathsOf other := by
  obtain ⟨-, -, h⟩ := Steps.query_eq_ok_iff.1 h
  obtain rfl := Except.ok.inj h
  rw [pathsOf, pathsOf, List.lookup_append]
  cases i.lookup other with
  | some paths => rfl
  | none =>
    by_cases ho : other = playlist
    · simp [ho]
    · simp [List.lookup_cons, beq_eq_false_iff_ne.2 ho]

theorem pathsOf_delete (h : i.delete playlist = .ok j) (other : String) :
    j.pathsOf other = if other = playlist then ∅ else i.pathsOf other := by
  unfold delete at h
  split at h
  · obtain rfl := Except.ok.inj h
    rw [pathsOf, pathsOf, lookup_filter_ne]
    by_cases ho : other = playlist
    · rw [if_pos ho, if_pos ho]
      rfl
    · rw [if_neg ho, if_neg ho]
  · cases h

theorem pathsOf_remove {present : Bool} (h : i.remove playlist path = .ok (present, j))
    (other : String) :
    j.pathsOf other = if other = playlist then (i.pathsOf other).erase path
      else i.pathsOf other := by
  unfold remove at h
  split at h
  · cases h
  · rename_i paths hlookup
    obtain ⟨-, rfl⟩ := Prod.mk.inj (Except.ok.inj h)
    rw [pathsOf, pathsOf]
    by_cases ho : other = playlist
    · rw [if_pos ho, ho, lookup_revise_self, hlookup]
      rfl
    · rw [if_neg ho, lookup_revise_of_ne ho]

theorem pathsOf_add (hcopy : settings.copyToGlobal = true)
    (h : i.add settings playlist path = .ok j) (other : String) :
    j.pathsOf other = if other = playlist ∨ other = settings.globalPlaylist
      then insert path (i.pathsOf other) else i.pathsOf other := by
  obtain ⟨_, hcheck, h⟩ := Steps.query_eq_ok_iff.1 h
  obtain rfl := Except.ok.inj h
  obtain ⟨paths, hlookup, -⟩ := checkPath_ok hcheck
  rw [pathsOf, pathsOf]
  by_cases ho : other = playlist
  · subst ho
    rw [if_pos (Or.inl rfl), lookup_revise_self, lookup_copy_target, hlookup]
    rfl
  · rw [lookup_revise_of_ne ho]
    by_cases hg : other = settings.globalPlaylist
    · subst hg
      rw [if_pos (Or.inr rfl), copy, if_pos ⟨hcopy, Ne.symm ho⟩, addToGlobal, lookup_revise_self,
        lookup_withPlaylist_self]
      rfl
    · rw [if_neg (not_or.2 ⟨ho, hg⟩), lookup_copy_of_ne hg]

end Paths
end Inventory

def inventoryOf (listings : List Listing) : Inventory :=
  listings.map fun l => (l.name, l.paths.toFinset)

@[simp] theorem names_inventoryOf (listings : List Listing) :
    (inventoryOf listings).names = listings.map Listing.name := by
  simp [inventoryOf, Inventory.names]

theorem inventoryOf_split (before after : List Listing) (l : Listing) :
    inventoryOf (before ++ l :: after)
      = inventoryOf before ++ (l.name, l.paths.toFinset) :: inventoryOf after := by
  simp [inventoryOf]

section Split

variable {before after : List Listing} {l : Listing}

theorem not_mem_around (h : ((before ++ l :: after).map Listing.name).Nodup) :
    l.name ∉ (inventoryOf before).names ∧ l.name ∉ (inventoryOf after).names := by
  rw [List.map_append, List.map_cons] at h
  have hnew := (List.nodup_middle.1 h).notMem
  rw [List.mem_append, not_or] at hnew
  simpa using hnew

theorem lookup_inventoryOf (h : ((before ++ l :: after).map Listing.name).Nodup) :
    (inventoryOf (before ++ l :: after)).lookup l.name = some l.paths.toFinset := by
  rw [inventoryOf_split, Inventory.lookup_split _ (not_mem_around h).1]

theorem inventoryOf_revise (h : ((before ++ l :: after).map Listing.name).Nodup) (other : Listing)
    (hname : other.name = l.name) {change : Finset String → Finset String}
    (hpaths : other.paths.toFinset = change l.paths.toFinset) :
    inventoryOf (before ++ other :: after)
      = (inventoryOf (before ++ l :: after)).revise l.name change := by
  obtain ⟨hb, ha⟩ := not_mem_around h
  rw [inventoryOf_split, inventoryOf_split, Inventory.revise_split hb ha, hname, hpaths]

theorem inventoryOf_delete (h : ((before ++ l :: after).map Listing.name).Nodup) :
    (inventoryOf (before ++ l :: after)).delete l.name = .ok (inventoryOf (before ++ after)) := by
  obtain ⟨hb, ha⟩ := not_mem_around h
  have keep : ∀ listings : List Listing, l.name ∉ (inventoryOf listings).names →
      (inventoryOf listings).filter (·.1 ≠ l.name) = inventoryOf listings := by
    intro listings hnew
    rw [List.filter_eq_self]
    intro p hp
    simp only [decide_eq_true_eq]
    rintro heq
    exact hnew (heq ▸ List.mem_map_of_mem hp)
  have hmem : l.name ∈ (inventoryOf (before ++ l :: after)).names := by simp
  have happend : inventoryOf (before ++ after) = inventoryOf before ++ inventoryOf after := by
    simp [inventoryOf]
  have hself : decide ((l.name, l.paths.toFinset).1 ≠ l.name) = false := by simp
  rw [Inventory.delete, if_pos hmem, inventoryOf_split, List.filter_append, List.filter_cons, hself,
    keep before hb, if_neg (by decide), keep after ha, happend]

end Split

theorem exists_listing {listings : List Listing} {name : String} {paths : Finset String}
    (hd : (listings.map Listing.name).Nodup) (h : (inventoryOf listings).lookup name = some paths) :
    ∃ before l after, listings = before ++ l :: after ∧ l.name = name ∧
      l.paths.toFinset = paths := by
  have hmem := Inventory.mem_names_of_lookup h
  rw [names_inventoryOf] at hmem
  obtain ⟨before, l, after, rfl, rfl⟩ := exists_split hmem
  rw [lookup_inventoryOf hd] at h
  exact ⟨before, l, after, rfl, rfl, Option.some.inj h⟩

theorem not_mem_of_lookup {listings : List Listing} {name : String}
    (h : (inventoryOf listings).lookup name = none)
    (hd : (listings.map Listing.name).Nodup) : name ∉ listings.map Listing.name := by
  intro hm
  obtain ⟨before, l, after, rfl, rfl⟩ := exists_split hm
  rw [lookup_inventoryOf hd] at h
  cases h

end MediaLibrary.LibraryFile
