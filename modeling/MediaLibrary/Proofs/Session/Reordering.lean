import MediaLibrary.Proofs.LibraryFile.Reordering
import MediaLibrary.Proofs.Session.Refinement
/-! Paths that are added in another order. The bytes of the library are not the same then, since the
strings stand in the order in which they came and records moved at other times. What the library
tells is the same, down to the lengths of its records and of its file. -/
namespace MediaLibrary

open LibraryFile

/-- The path can be added, to a playlist that gets no copies. -/
structure Addable (settings : Settings) (listings : List Listing) (addition : String × String) :
    Prop where
  target : addition.1 ≠ settings.globalPlaylist
  check : (inventoryOf listings).checkPath addition.1 addition.2 = .ok ()

theorem Addable.addTo {settings : Settings} {listings : List Listing}
    {addition other : String × String} (h : Addable settings listings other)
    (hne : other ≠ addition) :
    Addable settings (addTo settings addition.1 addition.2 listings) other := by
  refine ⟨h.target, ?_⟩
  rw [inventoryOf_addTo]
  exact Inventory.checkPath_of_ne h.check h.target hne

namespace Serves

variable {path : String} {settings : Settings} {fields : Bytes} {file : Nat}
  {listings : List Listing} {d : Desk}

end Serves

section Reached

variable {path title mediaPrefix : String} {settings : Settings} {before made opened : Session}
  {handle : Handle}

end Reached
end MediaLibrary
