import MediaLibrary.LibraryFile.Adding
import MediaLibrary.Proofs.LibraryFile.Inventory
import MediaLibrary.Proofs.LibraryFile.Paths
/-! What adding and removing paths by the names of playlists does to the listings, and so to the
inventory. What refuses a path for good is found before anything is touched; from then on only want of
space can stop it, and what is left then is the inventory as it was, or with the path in the global
playlist alone. -/
namespace MediaLibrary.LibraryFile

def withGlobal (settings : Settings) (listings : List Listing) : List Listing :=
  if settings.globalPlaylist ∈ listings.map Listing.name then listings
  else listings ++ [⟨settings.globalPlaylist, settings.growthQuantum, []⟩]

def addIn (quantum : Nat) (playlist path : String) (listings : List Listing) : List Listing :=
  listings.map fun l => if l.name = playlist then l.add quantum path else l

/-- The listings after an addition: the path may have gone to the global playlist too. -/
def addTo (settings : Settings) (playlist path : String) (listings : List Listing) : List Listing :=
  addIn settings.growthQuantum playlist path
    (if settings.copyToGlobal ∧ playlist ≠ settings.globalPlaylist then
      addIn settings.growthQuantum settings.globalPlaylist path (withGlobal settings listings)
    else listings)

section Listings

variable {settings : Settings} {listings before after : List Listing} {l : Listing}

@[simp] theorem Listing.toFinset_paths_add (quantum : Nat) (path : String) (l : Listing) :
    (l.add quantum path).paths.toFinset = insert path l.paths.toFinset := by
  ext other
  simp

theorem mem_of_mem_addIn {quantum : Nat} {playlist path : String}
    (h : l ∈ addIn quantum playlist path listings) (hname : l.name ≠ playlist) : l ∈ listings := by
  obtain ⟨x, hx, rfl⟩ := List.mem_map.1 h
  split at hname
  · rename_i heq
    exact absurd ((Listing.name_add quantum path x).trans heq) hname
  · rename_i hne
    rwa [if_neg hne]

theorem mem_withGlobal_of_mem (h : l ∈ listings) : l ∈ withGlobal settings listings := by
  unfold withGlobal
  split
  · exact h
  · exact List.mem_append_left _ h

theorem addIn_split (h : ((before ++ l :: after).map Listing.name).Nodup) (quantum : Nat)
    (path : String) :
    addIn quantum l.name path (before ++ l :: after) = before ++ l.add quantum path :: after := by
  have hother : ∀ x ∈ before ++ after,
      (if x.name = l.name then x.add quantum path else x) = id x := by
    intro x hx
    rw [List.map_append, List.map_cons] at h
    refine if_neg fun heq => (List.nodup_middle.1 h).notMem ?_
    rw [← List.map_append, ← heq]
    exact List.mem_map_of_mem hx
  rw [addIn, List.map_append, List.map_cons, if_pos rfl,
    List.map_congr_left fun x hx => hother x (List.mem_append_left after hx),
    List.map_congr_left fun x hx => hother x (List.mem_append_right before hx), List.map_id,
    List.map_id]

theorem inventoryOf_addIn (quantum : Nat) (playlist path : String) (listings : List Listing) :
    inventoryOf (addIn quantum playlist path listings)
      = (inventoryOf listings).revise playlist (insert path) := by
  rw [addIn, inventoryOf, inventoryOf, Inventory.revise, List.map_map, List.map_map]
  refine List.map_congr_left fun l _ => ?_
  by_cases hname : l.name = playlist <;> simp [hname]

theorem inventoryOf_withGlobal (settings : Settings) (listings : List Listing) :
    inventoryOf (withGlobal settings listings)
      = (inventoryOf listings).withPlaylist settings.globalPlaylist := by
  unfold withGlobal Inventory.withPlaylist
  rw [names_inventoryOf]
  split
  · rfl
  · simp [inventoryOf]

theorem inventoryOf_addTo (settings : Settings) (playlist path : String) (listings : List Listing) :
    inventoryOf (addTo settings playlist path listings)
      = ((inventoryOf listings).copy settings playlist path).revise playlist (insert path) := by
  rw [addTo, inventoryOf_addIn, Inventory.copy]
  split
  · rw [inventoryOf_addIn, inventoryOf_withGlobal, Inventory.addToGlobal]
  · rfl

end Listings

/-- There may be no space for an addition: a table without room would have to grow, or the library
would become too large with another playlist. -/
def Cramped (settings : Settings) (path : String) (listings : List Listing) : Prop :=
  (∃ l ∈ withGlobal settings listings, l.Full path) ∨
    Word.limit ≤ placeAfter listings + (PlaylistHeader.size + settings.growthQuantum)

/-- What is left of an addition that there was no space for. -/
def Spared (settings : Settings) (playlist path : String) (i left : Inventory) : Prop :=
  left = i ∨ (settings.copyToGlobal = true ∧ playlist ≠ settings.globalPlaylist) ∧
    (left = i.withPlaylist settings.globalPlaylist ∨ left = i.addToGlobal settings path)

namespace Spared

variable {settings : Settings} {playlist path : String} {i left : Inventory}

theorem lookup_eq (h : Spared settings playlist path i left) {other : String}
    (hother : other = playlist ∨ other ≠ settings.globalPlaylist) :
    left.lookup other = i.lookup other := by
  rcases h with rfl | ⟨⟨-, hplaylist⟩, hleft⟩
  · rfl
  · have hne : other ≠ settings.globalPlaylist := by
      rcases hother with rfl | hne
      · exact hplaylist
      · exact hne
    rcases hleft with rfl | rfl
    · exact Inventory.lookup_withPlaylist_of_ne hne i
    · rw [Inventory.addToGlobal, Inventory.lookup_revise_of_ne hne,
        Inventory.lookup_withPlaylist_of_ne hne]

theorem lookup_global (h : Spared settings playlist path i left) :
    (left.lookup settings.globalPlaylist).getD ∅ = (i.lookup settings.globalPlaylist).getD ∅ ∨
    (left.lookup settings.globalPlaylist).getD ∅
      = insert path ((i.lookup settings.globalPlaylist).getD ∅) := by
  rcases h with rfl | ⟨-, rfl | rfl⟩
  · exact Or.inl rfl
  · rw [Inventory.lookup_withPlaylist_self]
    exact Or.inl rfl
  · rw [Inventory.addToGlobal, Inventory.lookup_revise_self, Inventory.lookup_withPlaylist_self]
    exact Or.inr rfl

end Spared

namespace Lists

variable {settings : Settings} {fields : Bytes} {listings before after : List Listing}
  {l : Listing} {lib : LibraryFile}

theorem ensurePathAt_cases (h : Lists settings fields (before ++ l :: after) lib)
    (hu : settings.Usable) {path : String} (hnul : 0 ∉ Text.bytes path) :
    (∃ lib', ensurePathAt (placeAfter before) path lib = .ok () lib' ∧
      Lists settings fields (before ++ l.add settings.growthQuantum path :: after) lib') ∨
    ∃ length e lib', ensurePathAt (placeAfter before) path lib = .error (.refused e) lib' ∧
      e.kind = .resource ∧ l.Full path ∧
      Lists settings fields (before ++ { l with length } :: after) lib' := by
  by_cases hpath : path ∈ l.paths
  · refine Or.inl ⟨lib, ?_, ?_⟩
    · rw [ensurePathAt, h.addPathAt_present hu hpath]
    · rwa [Listing.add_of_mem hpath]
  · rcases h.addPathAt_cases hu hpath hnul with
      ⟨lib', hadd, hlists⟩ | ⟨length, e, lib', hadd, hkind, hfull, hlists⟩
    · refine Or.inl ⟨lib', ?_, hlists⟩
      rw [ensurePathAt, hadd]
    · refine Or.inr ⟨length, e, lib', ?_, hkind, hfull, hlists⟩
      rw [ensurePathAt, hadd]
      cases e with
      | pathExists => cases hkind
      | _ => rfl

theorem addToGlobal_cases (h : Lists settings fields listings lib) (hu : settings.Usable)
    {path : String} (hnul : 0 ∉ Text.bytes path) :
    (∃ lib', addToGlobal path lib = .ok () lib' ∧ Lists settings fields
      (addIn settings.growthQuantum settings.globalPlaylist path (withGlobal settings listings))
      lib') ∨
    ∃ listings' e lib', addToGlobal path lib = .error (.refused e) lib' ∧ e.kind = .resource ∧
      Cramped settings path listings ∧ Lists settings fields listings' lib' ∧ (inventoryOf listings' = inventoryOf listings ∨
        inventoryOf listings'
          = (inventoryOf listings).withPlaylist settings.globalPlaylist) := by
  have hsettings := h.stores.keeps.holding.settings_eq
  by_cases hm : settings.globalPlaylist ∈ listings.map Listing.name
  · have hwith : withGlobal settings listings = listings := if_pos hm
    rw [Cramped, hwith]
    obtain ⟨before, l, after, rfl, hname⟩ := exists_split hm
    have hfind : consult (find · settings.globalPlaylist) lib
        = .ok (some (l.record.playlist (placeAfter before))) lib :=
      Steps.consult_ok (hname ▸ h.find_present)
    have hrun : addToGlobal path lib = ensurePathAt (placeAfter before) path lib := by
      rw [addToGlobal, Steps.bind_get, hsettings, Steps.bind_ok hfind]
      rfl
    rw [hrun, ← hname, addIn_split h.distinct]
    refine (h.ensurePathAt_cases hu hnul).imp_right ?_
    rintro ⟨length, e, lib', hensure, hkind, hfull, hlists⟩
    refine ⟨_, e, lib', hensure, hkind, Or.inl ⟨l, by simp, hfull⟩, hlists, Or.inl ?_⟩
    rw [inventoryOf_split, inventoryOf_split]
  · have hnew : newName (listings.map Listing.name) settings.globalPlaylist = .ok () := by
      rw [newName_of_new hm hu.named, hu.valid]
      rfl
    have hfind : consult (find · settings.globalPlaylist) lib = .ok none lib :=
      Steps.consult_ok (h.find_absent hm)
    have hrun : addToGlobal path lib
        = (startPlaylist settings.globalPlaylist >>= fun offset => ensurePathAt offset path) lib := by
      rw [addToGlobal, Steps.bind_get, hsettings, Steps.bind_ok hfind]
    have hwith : withGlobal settings listings
        = listings ++ [⟨settings.globalPlaylist, settings.growthQuantum, []⟩] := if_neg hm
    have hinv := inventoryOf_withGlobal settings listings
    rw [hwith] at hinv
    rw [hrun, Cramped, hwith]
    rcases h.startPlaylist_cases hu hnew with ⟨lib₁, hstart, h₁⟩ | ⟨hbig, hstart⟩
    · rw [Steps.bind_ok hstart]
      have hadded := addIn_split h₁.distinct settings.growthQuantum path
      rcases h₁.ensurePathAt_cases hu hnul with
        ⟨lib', hensure, hlists⟩ | ⟨length, e, lib', hensure, hkind, hfull, hlists⟩
      · exact Or.inl ⟨lib', hensure, hadded ▸ hlists⟩
      · refine Or.inr ⟨_, e, lib', hensure, hkind, Or.inl ⟨_, by simp, hfull⟩, hlists, Or.inr ?_⟩
        rw [← hinv, inventoryOf_split, inventoryOf_split]
    · exact Or.inr ⟨listings, _, lib, Steps.bind_error hstart, rfl, Or.inr hbig, h, Or.inl rfl⟩

theorem checkNewPath_eq (h : Lists settings fields listings lib) (playlist path : String) :
    lib.checkNewPath playlist path
      = Failure.ofCheck id ((inventoryOf listings).checkPath playlist path) := by
  cases hlookup : (inventoryOf listings).lookup playlist with
  | none =>
    have hnew := not_mem_of_lookup hlookup h.distinct
    rw [checkNewPath, Steps.query_error (h.named_absent hnew), Inventory.checkPath, hlookup]
    rfl
  | some paths =>
    obtain ⟨before, l, after, rfl, rfl, rfl⟩ := exists_listing h.distinct hlookup
    rw [checkNewPath, Steps.query_ok h.named_present, Inventory.checkPath, hlookup]
    simp only
    split
    · rfl
    · have hfind : lib.findPath (l.record.playlist (placeAfter before)).offset path = .ok _ :=
        h.findPath_eq path
      have hfound : ((Text.ascending l.paths).idxOf? path).isSome ↔ path ∈ l.paths := by
        rw [List.isSome_idxOf?, Text.mem_ascending]
      rw [Steps.query_ok hfind]
      by_cases hpath : path ∈ l.paths
      · rw [if_pos (hfound.2 hpath), if_pos (List.mem_toFinset.2 hpath)]
        rfl
      · rw [if_neg (mt hfound.1 hpath), if_neg (mt List.mem_toFinset.1 hpath)]
        rfl

theorem addToNamed_cases (h : Lists settings fields listings lib) (hu : settings.Usable)
    {playlist path : String} {paths : Finset String}
    (hlookup : (inventoryOf listings).lookup playlist = some paths)
    (hnul : 0 ∉ Text.bytes path) (hnew : path ∉ paths) :
    (∃ lib', (consult (named · playlist) >>= fun p => addPathAt p.offset path) lib = .ok () lib' ∧
      Lists settings fields (addIn settings.growthQuantum playlist path listings) lib') ∨
    ∃ listings' e lib', (consult (named · playlist) >>= fun p => addPathAt p.offset path) lib
        = .error (.refused e) lib' ∧ e.kind = .resource ∧
        (∃ l ∈ listings, l.name = playlist ∧ l.Full path) ∧
        Lists settings fields listings' lib' ∧ inventoryOf listings' = inventoryOf listings := by
  obtain ⟨before, l, after, rfl, rfl, rfl⟩ := exists_listing h.distinct hlookup
  have hnamed : consult (named · l.name) lib = .ok _ lib := Steps.consult_ok h.named_present
  rw [Steps.bind_ok hnamed, addIn_split h.distinct]
  refine (h.addPathAt_cases hu (mt List.mem_toFinset.2 hnew) hnul).imp_right ?_
  rintro ⟨length, e, lib', hadd, hkind, hfull, hlists⟩
  refine ⟨_, e, lib', hadd, hkind, ⟨l, by simp, rfl, hfull⟩, hlists, ?_⟩
  rw [inventoryOf_split, inventoryOf_split]

/-- Once a path has passed the checks, only want of space can stop its addition. -/
theorem addPath_addTo_cases (h : Lists settings fields listings lib) (hu : settings.Usable)
    {playlist path : String} (hcheck : (inventoryOf listings).checkPath playlist path = .ok ()) :
    (∃ lib', addPath playlist path lib = .ok () lib' ∧
      Lists settings fields (addTo settings playlist path listings) lib') ∨
    ∃ listings' e lib', addPath playlist path lib = .error (.refused e) lib' ∧
      e.kind = .resource ∧ Cramped settings path listings ∧
      Lists settings fields listings' lib' ∧
      Spared settings playlist path (inventoryOf listings) (inventoryOf listings') := by
  have hconsult : consult (checkNewPath · playlist path) lib = .ok () lib := by
    refine Steps.consult_ok ?_
    rw [h.checkNewPath_eq, hcheck]
    rfl
  obtain ⟨paths, hlookup, hnul, hnew⟩ := Inventory.checkPath_ok hcheck
  rw [addPath, Steps.bind_ok hconsult, Steps.bind_get, h.stores.keeps.holding.settings_eq, addTo]
  by_cases hcopy : settings.copyToGlobal ∧ playlist ≠ settings.globalPlaylist
  · rw [if_pos hcopy, if_pos hcopy]
    rcases h.addToGlobal_cases hu hnul with
      ⟨lib₁, hglobal, h₁⟩ | ⟨listings', e, lib', hglobal, hkind, hcramped, hlists, hinv⟩
    · have hinv : inventoryOf (addIn settings.growthQuantum settings.globalPlaylist path
          (withGlobal settings listings)) = (inventoryOf listings).addToGlobal settings path := by
        rw [inventoryOf_addIn, inventoryOf_withGlobal, Inventory.addToGlobal]
      have hlookup₁ : ((inventoryOf listings).addToGlobal settings path).lookup playlist
          = some paths := by
        rw [Inventory.addToGlobal, Inventory.lookup_revise_of_ne hcopy.2,
          Inventory.lookup_withPlaylist_of_ne hcopy.2, hlookup]
      rw [Steps.bind_ok hglobal]
      refine (h₁.addToNamed_cases hu (hinv ▸ hlookup₁) hnul hnew).imp_right ?_
      rintro ⟨listings', e, lib', hadd, hkind, ⟨l, hl, rfl, hfull⟩, hlists, hleft⟩
      exact ⟨listings', e, lib', hadd, hkind,
        Or.inl ⟨l, mem_of_mem_addIn hl hcopy.2, hfull⟩, hlists,
        Or.inr ⟨hcopy, Or.inr (hleft.trans hinv)⟩⟩
    · exact Or.inr ⟨listings', e, lib', Steps.bind_error hglobal, hkind, hcramped, hlists,
        hinv.imp_right fun hinv => ⟨hcopy, Or.inl hinv⟩⟩
  · rw [if_neg hcopy, if_neg hcopy]
    refine (h.addToNamed_cases hu hlookup hnul hnew).imp_right ?_
    rintro ⟨listings', e, lib', hadd, hkind, ⟨l, hl, -, hfull⟩, hlists, hleft⟩
    exact ⟨listings', e, lib', hadd, hkind, Or.inl ⟨l, mem_withGlobal_of_mem hl, hfull⟩, hlists,
      Or.inl hleft⟩

theorem addPath_cases (h : Lists settings fields listings lib) (hu : settings.Usable)
    {playlist path : String} (hcheck : (inventoryOf listings).checkPath playlist path = .ok ()) :
    ∃ listings' lib', Lists settings fields listings' lib' ∧
      ((addPath playlist path lib = .ok () lib' ∧ inventoryOf listings'
        = ((inventoryOf listings).copy settings playlist path).revise playlist (insert path)) ∨
      ∃ e, addPath playlist path lib = .error (.refused e) lib' ∧ e.kind = .resource ∧
        Spared settings playlist path (inventoryOf listings) (inventoryOf listings')) := by
  rcases h.addPath_addTo_cases hu hcheck with
    ⟨lib', hadd, hlists⟩ | ⟨listings', e, lib', hadd, hkind, -, hlists, hspared⟩
  · exact ⟨_, lib', hlists, Or.inl ⟨hadd, inventoryOf_addTo settings playlist path listings⟩⟩
  · exact ⟨listings', lib', hlists, Or.inr ⟨e, hadd, hkind, hspared⟩⟩

theorem addPath_refused (h : Lists settings fields listings lib) {playlist path : String}
    {e : LibraryError} (hcheck : (inventoryOf listings).checkPath playlist path = .error e) :
    addPath playlist path lib = .error (.refused e) lib := by
  refine Steps.bind_error (Steps.consult_error ?_)
  rw [h.checkNewPath_eq, hcheck]
  rfl

theorem removePath_absent (h : Lists settings fields listings lib) {playlist : String}
    (hname : playlist ∉ listings.map Listing.name) (path : String) :
    removePath playlist path lib = .error (.refused (.playlistNotFound playlist)) lib :=
  Steps.bind_error (Steps.consult_error (h.named_absent hname))

theorem removePath_ok (h : Lists settings fields (before ++ l :: after) lib) (path : String) :
    ∃ listings' lib', Lists settings fields listings' lib' ∧
      removePath l.name path lib = .ok (decide (path ∈ l.paths)) lib' ∧
      inventoryOf listings'
        = (inventoryOf (before ++ l :: after)).revise l.name (·.erase path) := by
  obtain ⟨lib', hremove, hlists⟩ := h.removePathAt_ok path
  have hnamed : consult (named · l.name) lib = .ok _ lib := Steps.consult_ok h.named_present
  refine ⟨_, lib', hlists, ?_, inventoryOf_revise h.distinct
    { l with paths := l.paths.erase path } rfl ?_⟩
  · rw [removePath, Steps.bind_ok hnamed]
    exact hremove
  · ext x
    simp [h.soundAt.nodup.mem_erase_iff]

end Lists
end MediaLibrary.LibraryFile
