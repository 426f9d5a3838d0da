import MediaLibrary.Proofs.LibraryFile.Adding
import Mathlib.Data.List.Forall2
/-! Additions in another order. A listing that gets the same paths in another order is as long, and
has the same paths, though they stand in it in another order. So it is with all listings of a
library: it does not matter which addition started the global playlist or made a table grow. -/
namespace MediaLibrary.LibraryFile

open StringTable (fitted filled headerSize)

namespace Listing

variable {settings : Settings} {l l' : Listing} {quantum : Nat}

structure Alike (l l' : Listing) : Prop where
  name : l'.name = l.name
  length : l'.length = l.length
  paths : l'.paths.Perm l.paths

theorem Alike.refl (l : Listing) : Alike l l := ⟨rfl, rfl, List.Perm.refl _⟩

theorem Alike.trans {l'' : Listing} (h : Alike l l') (k : Alike l' l'') : Alike l l'' :=
  ⟨k.name.trans h.name, k.length.trans h.length, k.paths.trans h.paths⟩

theorem Alike.add (h : Alike l l') (quantum : Nat) (path : String) :
    Alike (l.add quantum path) (l'.add quantum path) := by
  by_cases hpath : path ∈ l.paths
  · rwa [add_of_mem hpath, add_of_mem (h.paths.mem_iff.2 hpath)]
  · have hstored : (l'.paths ++ [path]).Perm (l.paths ++ [path]) := h.paths.append_right _
    rw [add_of_not_mem hpath, add_of_not_mem (mt h.paths.mem_iff.1 hpath), h.length,
      StringTable.filled_perm (hstored.map Text.bytes)]
    exact ⟨h.name, rfl, hstored⟩

/-- However the growth for two paths falls to them, the table is as long in the end. -/
theorem add_comm (hquantum : 0 < quantum) (hlength : headerSize ≤ l.length) (path other : String) :
    Alike ((l.add quantum path).add quantum other) ((l.add quantum other).add quantum path) := by
  by_cases heq : other = path
  · rw [heq]
    exact Alike.refl _
  by_cases hpath : path ∈ l.paths
  · rw [add_of_mem hpath, add_of_mem (mem_paths_add.2 (Or.inr hpath))]
    exact Alike.refl _
  by_cases hother : other ∈ l.paths
  · rw [add_of_mem hother, add_of_mem (mem_paths_add.2 (Or.inr hother))]
    exact Alike.refl _
  have hlater : other ∉ (l.add quantum path).paths :=
    mt mem_paths_add.1 (not_or.2 ⟨heq, hother⟩)
  have hlater' : path ∉ (l.add quantum other).paths :=
    mt mem_paths_add.1 (not_or.2 ⟨Ne.symm heq, hpath⟩)
  have hswap : (l.paths ++ [other] ++ [path]).Perm (l.paths ++ [path] ++ [other]) := by
    rw [List.append_assoc, List.append_assoc]
    exact (List.Perm.swap path other []).append_left l.paths
  have hgrows : ∀ first second : String, filled ((l.paths ++ [first]).map Text.bytes)
      ≤ filled ((l.paths ++ [first] ++ [second]).map Text.bytes) := by
    intro first second
    have hconcat := StringTable.filled_concat ((l.paths ++ [first]).map Text.bytes)
      (Text.bytes second)
    rw [← List.map_singleton, ← List.map_append] at hconcat
    omega
  rw [add_of_not_mem hlater, add_of_not_mem hlater', add_of_not_mem hpath, add_of_not_mem hother]
  refine ⟨rfl, ?_, hswap⟩
  rw [StringTable.fitted_fitted hquantum hlength (hgrows other path),
    StringTable.fitted_fitted hquantum hlength (hgrows path other),
    StringTable.filled_perm (hswap.map Text.bytes)]

end Listing

variable {settings : Settings} {listings : List Listing}

end MediaLibrary.LibraryFile
