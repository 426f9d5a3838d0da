import MediaLibrary.Proofs.Disk
import MediaLibrary.Proofs.MediaName
/-! The paths of files in directories that exist. Whether such a path begins at the root or in the
directory of the session, and however many slashes are between its steps, it leads to the place that
it names. -/
namespace MediaLibrary

namespace Tree

variable {tree : Tree} {name : String} {directory here : Directory}

theorem mem_lineage_of_cons (h : name :: directory ∈ Directory.lineage here) :
    directory ∈ Directory.lineage here := by
  induction here with
  | nil =>
    rw [Directory.lineage, List.mem_singleton] at h
    cases h
  | cons last parent ih =>
    rw [Directory.lineage, List.mem_cons] at h ⊢
    rcases h with heq | h
    · obtain ⟨rfl, rfl⟩ := List.cons.inj heq
      refine Or.inr ?_
      cases directory with
      | nil => exact List.mem_singleton_self []
      | cons => exact List.mem_cons_self
    · exact Or.inr (ih h)

theorem mem_directories_of_cons (h : name :: directory ∈ tree.directories) :
    directory ∈ tree.directories := by
  rw [directories, List.mem_flatMap] at h ⊢
  obtain ⟨deepest, hdeepest, h⟩ := h
  exact ⟨deepest, hdeepest, mem_lineage_of_cons h⟩

end Tree

namespace Path

/-- A step down, which neither stays nor goes up. -/
structure Proper (step : String) : Prop where
  nonempty : step ≠ ""
  slash : '/' ∉ step.toList
  nul : '\x00' ∉ step.toList
  dot : step ≠ "."
  up : step ≠ ".."

section Walk

variable {tree : Tree} {slashed : Bool} {here directory : Directory} {name : String}

theorem walk_down (hexists : directory ++ here ∈ tree.directories)
    (hproper : ∀ step ∈ directory, Proper step) (rest : List String) :
    walk tree slashed here (directory.reverse ++ rest)
      = walk tree slashed (directory ++ here) rest := by
  induction directory generalizing rest with
  | nil => rfl
  | cons step parent ih =>
    obtain ⟨-, -, -, hdot, hup⟩ := hproper step List.mem_cons_self
    rw [List.reverse_cons, List.append_assoc, ih (Tree.mem_directories_of_cons hexists) fun other h =>
      hproper other (List.mem_cons_of_mem step h)]
    rw [List.singleton_append, walk, if_neg hdot, if_neg hup]
    exact if_pos hexists

theorem walk_entry (hname : Proper name) (hplain : name :: here ∉ tree.directories) :
    walk tree slashed here [name] = .ok (.entry ⟨here, name⟩ slashed) := by
  rw [walk, if_neg hname.dot, if_neg hname.up, if_neg hplain]
  rfl

end Walk

section Links

open Text

variable {links : List (Nat × String)} {count : Nat} {name : String}

theorem nul_notMem_delimited (h : ∀ link ∈ links, Proper link.2) :
    '\x00' ∉ (delimited '/' links 0).toList := by
  intro hmem
  simp only [delimited, String.toList_ofList, List.replicate_zero, List.append_nil,
    List.mem_flatMap, List.mem_append, List.mem_replicate] at hmem
  obtain ⟨link, hlink, ⟨-, hslash⟩ | hitem⟩ := hmem
  · cases hslash
  · exact (h link hlink).nul hitem

theorem toList_delimited_concat (links : List (Nat × String)) (count : Nat) (name : String) :
    (delimited '/' (links ++ [(count, name)]) 0).toList
      = (links.flatMap fun link => List.replicate link.1 '/' ++ link.2.toList)
        ++ List.replicate count '/' ++ name.toList := by
  simp [delimited]

theorem getLast?_delimited (links : List (Nat × String)) (count : Nat) (hname : Proper name) :
    (delimited '/' (links ++ [(count, name)]) 0).toList.getLast? ≠ some '/' := by
  rw [toList_delimited_concat, List.getLast?_append_of_ne_nil _
    (mt String.toList_eq_nil_iff.1 hname.nonempty)]
  intro hlast
  exact hname.slash (List.mem_of_getLast? hlast)

theorem items_delimited (hproper : ∀ link ∈ links, Proper link.2)
    (hbetween : ∀ link ∈ links.tail, 0 < link.1) :
    items '/' (delimited '/' links 0) = links.map Prod.snd := by
  rw [items_eq, runs_delimited 0 (fun link hlink => ⟨(hproper link hlink).nonempty,
    (hproper link hlink).slash⟩) hbetween, List.map_map]
  exact List.map_congr_left fun link _ => String.ofList_toList

end Links

end Path

namespace Disk

open Text

variable {disk : Disk} {name : String} {links : List (Nat × String)}

theorem leads_of_links (here directory : Directory)
    (hlinks : links.map Prod.snd = directory.reverse ++ [name])
    (hproper : ∀ link ∈ links, Path.Proper link.2) (hbetween : ∀ link ∈ links.tail, 0 < link.1)
    (hstart : here = if (delimited '/' links 0).toList.head? = some '/' then [] else disk.home)
    (hexists : directory ++ here ∈ disk.directories)
    (hplain : name :: (directory ++ here) ∉ disk.directories)
    (hlong : (delimited '/' links 0).utf8ByteSize ≤ Path.maxSize)
    (hshort : name.utf8ByteSize ≤ Path.maxName) :
    disk.Leads (delimited '/' links 0) ⟨directory ++ here, name⟩ := by
  obtain ⟨front, last, rfl, hfront, hlast⟩ := List.map_eq_append_iff.1 hlinks
  obtain ⟨⟨count, name⟩, rfl, rfl⟩ := List.map_eq_singleton_iff.1 hlast
  have hname : Path.Proper name := hproper (count, name) (by simp)
  have hsteps : ∀ step ∈ directory, Path.Proper step := by
    intro step hstep
    rw [← List.mem_reverse, ← hfront] at hstep
    obtain ⟨link, hlink, rfl⟩ := List.mem_map.1 hstep
    exact hproper link (List.mem_append_left _ hlink)
  have hslashed := Path.getLast?_delimited front count hname
  have hnonempty : (delimited '/' (front ++ [(count, name)]) 0).toList ≠ [] := by
    rw [Path.toList_delimited_concat]
    exact List.append_ne_nil_of_right_ne_nil _ (mt String.toList_eq_nil_iff.1 hname.nonempty)
  refine ⟨Path.resolve_eq_ok_iff.2 ⟨⟨Path.nul_notMem_delimited hproper, hnonempty, hlong⟩, ?_⟩,
    hshort⟩
  rw [← hstart, Path.items_delimited hproper hbetween, hlinks, Path.walk_down hexists hsteps,
    Path.walk_entry hname hplain, decide_eq_false hslashed]

end Disk
end MediaLibrary
