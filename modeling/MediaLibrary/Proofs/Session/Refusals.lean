import MediaLibrary.Proofs.Session.Calls
/-! What a refused addition of a path leaves behind. If it was not for want of space and the system had
no part in it, that is nothing at all. Otherwise the global playlist may have got the path, but no other
playlist has changed, nor has the one that the path was meant for; if the library is not mapped any
more, that can still be told from its file. -/
namespace MediaLibrary

open LibraryFile

/-- The set of paths in a playlist, where one that is missing has none. There is no set if the
library cannot tell. -/
def LibraryFile.pathSet? (lib : LibraryFile) (playlist : String) : Option (Finset String) :=
  match lib.pathsIn playlist with
  | .ok texts => some texts.toFinset
  | .error (.refused (.playlistNotFound _)) => some ∅
  | .error _ => none

/-- What a refused addition of a path has to leave as it was. -/
structure Spares (settings : Settings) (playlist path : String) (lib left : LibraryFile) : Prop where
  paths : ∀ other, other = playlist ∨ other ≠ settings.globalPlaylist →
    left.pathsIn other = lib.pathsIn other
  global : ∃ had, lib.pathSet? settings.globalPlaylist = some had ∧
    (left.pathSet? settings.globalPlaylist = some had ∨
      left.pathSet? settings.globalPlaylist = some (insert path had))

section Paths

variable {settings : Settings} {fields : Bytes} {listings listings' : List Listing}
  {lib left : LibraryFile} {playlist path : String}

theorem LibraryFile.Lists.pathsIn_cases (h : Lists settings fields listings lib)
    (playlist : String) :
    ((inventoryOf listings).lookup playlist = none ∧
      lib.pathsIn playlist = .error (.refused (.playlistNotFound playlist))) ∨
    ∃ texts, (inventoryOf listings).lookup playlist = some texts.toFinset ∧
      Bytes.Ascending (texts.map Text.bytes) ∧ lib.pathsIn playlist = .ok texts := by
  cases hlookup : (inventoryOf listings).lookup playlist with
  | none =>
    have habsent := h.named_absent (not_mem_of_lookup hlookup h.distinct)
    exact Or.inl ⟨rfl, Steps.query_error habsent⟩
  | some paths =>
    obtain ⟨before, l, after, rfl, rfl, rfl⟩ := exists_listing h.distinct hlookup
    have hset := List.toFinset_eq_of_perm _ _ (Text.ascending_perm l.paths)
    exact Or.inr ⟨Text.ascending l.paths, congrArg some hset.symm,
      Text.ascending_ascending h.soundAt.nodup, h.pathsIn_eq⟩

theorem LibraryFile.Lists.pathsIn_congr (h : Lists settings fields listings lib)
    (k : Lists settings fields listings' left)
    (hlookup : (inventoryOf listings').lookup playlist = (inventoryOf listings).lookup playlist) :
    left.pathsIn playlist = lib.pathsIn playlist := by
  rcases h.pathsIn_cases playlist with ⟨hnone, hpaths⟩ | ⟨texts, hset, hascending, hpaths⟩ <;>
    rcases k.pathsIn_cases playlist with ⟨knone, kpaths⟩ | ⟨others, kset, kascending, kpaths⟩
  · rw [hpaths, kpaths]
  · rw [hlookup, hnone] at kset
    cases kset
  · rw [hlookup, hset] at knone
    cases knone
  · rw [hlookup, hset] at kset
    have hperm : others.Perm texts :=
      List.perm_of_nodup_nodup_toFinset_eq (Text.nodup_map_bytes.1 kascending.nodup)
        (Text.nodup_map_bytes.1 hascending.nodup) (Option.some.inj kset).symm
    rw [hpaths, kpaths, Text.eq_of_ascending hascending kascending hperm]

theorem LibraryFile.Lists.pathSet?_eq (h : Lists settings fields listings lib)
    (playlist : String) :
    lib.pathSet? playlist = some (((inventoryOf listings).lookup playlist).getD ∅) := by
  rcases h.pathsIn_cases playlist with ⟨hnone, hpaths⟩ | ⟨texts, hset, -, hpaths⟩
  · rw [pathSet?, hpaths, hnone]
    rfl
  · rw [pathSet?, hpaths, hset]
    rfl

theorem spares_of_spared (h : Lists settings fields listings lib)
    (k : Lists settings fields listings' left)
    (hspared : Spared settings playlist path (inventoryOf listings) (inventoryOf listings')) :
    Spares settings playlist path lib left where
  paths := fun other hother => h.pathsIn_congr k (hspared.lookup_eq hother)
  global := by
    refine ⟨_, h.pathSet?_eq _, ?_⟩
    rw [k.pathSet?_eq]
    exact hspared.lookup_global.imp (congrArg some) (congrArg some)

/-- An addition is refused before anything was done, or for want of space or by the system. -/
theorem LibraryFile.Lists.addPath_error (h : Lists settings fields listings lib)
    (hu : settings.Usable) {system : System} {f : Failure LibraryError}
    (hadd : addPath playlist path (lib.facing system) = .error f left) : ∃ e, f = .refused e ∧
      ((e = .playlistNotFound playlist ∨ e = .table .interiorNul ∨ e = .pathExists path) ∧
          (∃ later, left = lib.facing later) ∨
        e.kind = .resource ∧ ∃ listings',
          Spared settings playlist path (inventoryOf listings) (inventoryOf listings') ∧
          Lists settings fields listings' left.recorded ∧
          (Lists settings fields listings' (left.facing .calm) ∨
            left.mapped = none ∧ ∃ answers ∈ system.pending, answers.mapping.isSome)) := by
  have htracks : Tracks system.pending .io (Lapsed system.pending settings fields
      (Spared settings playlist path (inventoryOf listings))) (addPath playlist path) lib :=
    h.addPath_lapsed hu playlist path
  have hfollows := htracks h.calm system (List.Subset.refl _)
  rw [hadd] at hfollows
  generalize hcalm : addPath playlist path lib = result at hfollows
  cases hfollows with
  | stopped error hleft =>
    obtain ⟨listings', hspared, hrecorded, hseen⟩ := hleft.recorded
    exact ⟨.io error, rfl, Or.inr ⟨rfl, listings', hspared, hrecorded, hseen⟩⟩
  | @failed _ mid later hmid _ =>
    cases hcheck : (inventoryOf listings).checkPath playlist path with
    | error e =>
      rw [h.addPath_refused hcheck] at hcalm
      obtain ⟨rfl, rfl⟩ := EStateM.Result.error.inj hcalm
      exact ⟨e, rfl, Or.inl ⟨Inventory.checkPath_error hcheck, later, rfl⟩⟩
    | ok =>
      obtain ⟨listings', _, hlists, ⟨hdone, -⟩ | ⟨e, hfailed, hkind, hspared⟩⟩ :=
        h.addPath_cases hu hcheck
      · rw [hdone] at hcalm
        cases hcalm
      · rw [hfailed] at hcalm
        obtain ⟨rfl, rfl⟩ := EStateM.Result.error.inj hcalm
        exact ⟨e, rfl, Or.inr ⟨hkind, listings', hspared,
          hlists.recorded rfl (List.append_nil _).symm, Or.inl (hlists.facing later)⟩⟩

end Paths

section Reached

variable {path title mediaPrefix : String} {settings : Settings} {before made opened : Session}
  {handle : Handle}

/-- The library that is open at hand has become another one, and its playlists are spared. Of one that
lost its mapping, they are told from as much of the file as the header accounts for. -/
def Desk.SparedBy (d : Desk) (system : System) (settings : Settings) (playlist path : String)
    (after : Session) : Prop :=
  ∃ m m', d.session.state d.handle = .opened m ∧ after.state d.handle = .opened m' ∧
    Spares settings playlist path (m.library d.session.disk) (m'.library after.disk).recorded ∧
    (Spares settings playlist path (m.library d.session.disk) (m'.library after.disk) ∨
      m'.mapped = none ∧ ∃ answers ∈ system.pending, answers.mapping.isSome)

theorem Serves.addPath_refused {fields : Bytes} {file : Nat} {listings : List Listing} {d : Desk}
    (h : Serves path settings fields file true listings d) (hu : settings.Usable) {system : System}
    {playlist newPath : String} {f : Failure LibraryError} {after : Session}
    (hadd : Session.change d.handle ((addPath playlist newPath).facing system) d.session
      = .error f after) : ∃ e, f = .refused e ∧
      (after = d.session ∧
          (e = .playlistNotFound playlist ∨ e = .table .interiorNul ∨ e = .pathExists newPath) ∨
        e.kind = .resource ∧ d.SparedBy system settings playlist newPath after) := by
  cases hrun : addPath playlist newPath ((d.library path settings file).facing system) with
  | ok a left =>
    have hdone : (addPath playlist newPath).facing system (d.library path settings file)
        = .ok a left := hrun
    rw [h.change_ok hdone] at hadd
    cases hadd
  | error f' left =>
    obtain ⟨e, rfl, hcase⟩ := h.lists.addPath_error hu hrun
    have hrefused : (addPath playlist newPath).facing system (d.library path settings file)
        = .error (.refused e) left := hrun
    rw [h.change_refused hrefused] at hadd
    obtain ⟨rfl, rfl⟩ := EStateM.Result.error.inj hadd
    refine ⟨e, rfl, ?_⟩
    rcases hcase with ⟨hway, later, rfl⟩ | ⟨hkind, listings', hspared, hrecorded, hseen⟩
    · exact Or.inl ⟨Session.settled_self h.opened, hway⟩
    · obtain ⟨hseated, hcontents⟩ := h.toSeated.settled rfl left
      refine Or.inr ⟨hkind, _, _, h.opened, hseated.state, ?_⟩
      have hlibrary : Mapping.library ⟨path, settings, file, left.mapped⟩
          (d.session.settled d.handle _ left).disk
          = ⟨path, settings, left.contents, left.mapped, .calm⟩ :=
        congrArg (LibraryFile.mk path settings · left.mapped .calm) hcontents
      have htold {lib other : LibraryFile} (hlists : Lists settings fields listings' lib)
          (hother : other.settings = settings) (hbytes : other.contents = lib.contents)
          (hmapped : other.mapped = lib.mapped) (hcalm : other.system = .calm) :
          Spares settings playlist newPath (d.library path settings file) other :=
        spares_of_spared h.lists (hlists.congr (hother.trans hlists.stores.keeps.holding.settings_eq.symm)
          hbytes hmapped (hcalm.trans hlists.calm.symm)) hspared
      refine ⟨?_, hseen.imp_left fun hlists => ?_⟩
      · exact hlibrary ▸ htold hrecorded rfl rfl rfl rfl
      · exact hlibrary ▸ htold hlists rfl rfl rfl rfl

end Reached
end MediaLibrary
