import MediaLibrary.LibraryFile.Adding
import MediaLibrary.Proofs.LibraryFile.Opening
import MediaLibrary.Proofs.LibraryFile.Paths
/-! Handles of playlists are offsets. Starting and deleting playlists and changing their paths moves
records in two ways only: those behind a deleted record move down, and those behind a record that
grows move up. Until a record is moved, its handle is as good as its name. Afterwards a handle may
well be that of another playlist. -/
namespace MediaLibrary.LibraryFile

/-- A change of the playlists, or of the paths in the one that a handle is of. -/
inductive Deed where
  | start (name : String)
  | delete (name : String)
  | add (handle : Nat) (path : String)
  | remove (handle : Nat) (path : String)
  deriving DecidableEq, Repr

namespace Deed

def run (lib : LibraryFile) : Deed → LibraryFile
  | start name => Steps.left (startPlaylist name) lib
  | delete name => Steps.left (deletePlaylist name) lib
  | add handle path => Steps.left (addPathAt handle path) lib
  | remove handle path => Steps.left (removePathAt handle path) lib

def runAll (lib : LibraryFile) (deeds : List Deed) : LibraryFile := deeds.foldl run lib

def handle? : Deed → Option Nat
  | start _ | delete _ => none
  | add handle _ | remove handle _ => some handle

/-- If the deed uses a handle, it is that of a playlist. -/
def Current (lib : LibraryFile) (d : Deed) : Prop :=
  ∀ handle, d.handle? = some handle →
    ∃ playlists p, lib.playlists = .ok playlists ∧ p ∈ playlists ∧ p.offset = handle

/-- The deed does not move the record at `handle`: it deletes neither this nor one before it, and
does not lengthen one before it. -/
def Spares (handle : Nat) (lib : LibraryFile) : Deed → Prop
  | delete name => ∀ p, lib.named name = .ok p → handle < p.offset
  | add other path => handle ≤ other ∨ (run lib (add other path)).length = lib.length
  | start _ | remove _ _ => True

/-- Each deed of a run satisfies `holds` in the library that those before it left. -/
def Along (holds : LibraryFile → Deed → Prop) (lib : LibraryFile) : List Deed → Prop
  | [] => True
  | d :: rest => holds lib d ∧ Along holds (d.run lib) rest

end Deed

section Places

variable {before after : List Listing} {l : Listing}

theorem placeAfter_split (h : l.Sound) (before after : List Listing) :
    placeAfter (before ++ l :: after)
      = placeAfter before + (PlaylistHeader.size + l.length)
        + (bodyOf (after.map Listing.record)).length := by
  simp only [placeAfter, offsetAfter, List.map_append, List.map_cons, bodyOf_append, bodyOf_cons,
    List.length_append, h.record_sized.length_encode, h.record_length]
  omega

theorem placeAfter_lt (h : l.Sound) (before between : List Listing) :
    placeAfter before < placeAfter (before ++ l :: between) := by
  rw [placeAfter_split h]
  unfold PlaylistHeader.size
  omega

theorem split_cases {α : Type} {before before' after after' : List α} {x y : α}
    (h : before ++ x :: after = before' ++ y :: after') :
    (∃ between, before' = before ++ x :: between ∧ after = between ++ y :: after') ∨
    (before' = before ∧ y = x ∧ after' = after) ∨
    ∃ between, before = before' ++ y :: between ∧ after' = between ++ x :: after := by
  rcases List.append_eq_append_iff.1 h with ⟨between, hb, ha⟩ | ⟨between, hb, ha⟩
  · cases between with
    | nil =>
      obtain ⟨rfl, rfl⟩ := List.cons_eq_cons.1 ha
      exact Or.inr (Or.inl ⟨by simpa using hb, rfl, rfl⟩)
    | cons z between =>
      obtain ⟨rfl, rfl⟩ := List.cons_eq_cons.1 ha
      exact Or.inl ⟨between, hb, rfl⟩
  · cases between with
    | nil =>
      obtain ⟨rfl, rfl⟩ := List.cons_eq_cons.1 ha
      exact Or.inr (Or.inl ⟨by simpa using hb.symm, rfl, rfl⟩)
    | cons z between =>
      obtain ⟨rfl, rfl⟩ := List.cons_eq_cons.1 ha
      exact Or.inr (Or.inr ⟨between, hb, rfl⟩)

end Places

namespace Lists

variable {settings : Settings} {fields : Bytes} {listings before after : List Listing}
  {l : Listing} {lib : LibraryFile} {d : Deed}

theorem exists_of_handle (h : Lists settings fields listings lib) {handle : Nat}
    (hcurrent : ∃ playlists p, lib.playlists = .ok playlists ∧ p ∈ playlists ∧ p.offset = handle) :
    ∃ before l after, listings = before ++ l :: after ∧ handle = placeAfter before := by
  obtain ⟨playlists, p, hplaylists, hp, rfl⟩ := hcurrent
  obtain ⟨records, r, others, hsplit, rfl⟩ := h.stores.exists_of_mem_playlists hplaylists hp
  obtain ⟨before, rest, rfl, rfl, hrest⟩ := List.map_eq_append_iff.1 hsplit
  obtain ⟨l, after, rfl, rfl, rfl⟩ := List.map_eq_cons_iff.1 hrest
  exact ⟨before, l, after, rfl, rfl⟩

/-- What a deed does to the listings: nothing, or it lists a new playlist last, or it takes one out,
or it changes the one that its handle is of. Only an addition changes the length of a record. -/
theorem run_cases (h : Lists settings fields listings lib) (hu : settings.Usable)
    (hcurrent : d.Current lib) :
    Lists settings fields listings (d.run lib) ∨
    (∃ name l, d = .start name ∧ Lists settings fields (listings ++ [l]) (d.run lib)) ∨
    (∃ before l after, listings = before ++ l :: after ∧ d = .delete l.name ∧
      Lists settings fields (before ++ after) (d.run lib)) ∨
    ∃ before l l' after, listings = before ++ l :: after ∧ d.handle? = some (placeAfter before) ∧
      l'.name = l.name ∧ (l'.length = l.length ∨ ∃ path, d = .add (placeAfter before) path) ∧
      Lists settings fields (before ++ l' :: after) (d.run lib) := by
  cases d with
  | start name =>
    cases hname : newName (listings.map Listing.name) name with
    | error e =>
      refine Or.inl ?_
      rw [Deed.run, Steps.left_error (h.startPlaylist_refused hname)]
      exact h
    | ok =>
      rcases h.startPlaylist_cases hu hname with ⟨lib', hstart, hlists⟩ | ⟨-, hstart⟩
      · refine Or.inr (Or.inl ⟨name, ⟨name, settings.growthQuantum, []⟩, rfl, ?_⟩)
        rw [Deed.run, Steps.left_ok hstart]
        exact hlists
      · refine Or.inl ?_
        rw [Deed.run, Steps.left_error hstart]
        exact h
  | delete name =>
    by_cases hm : name ∈ listings.map Listing.name
    · obtain ⟨before, l, after, rfl, rfl⟩ := exists_split hm
      obtain ⟨lib', hdelete, hlists⟩ := h.deletePlaylist_ok
      refine Or.inr (Or.inr (Or.inl ⟨before, l, after, rfl, rfl, ?_⟩))
      rw [Deed.run, Steps.left_ok hdelete]
      exact hlists
    · have hdelete : deletePlaylist name lib = .error _ lib :=
        Steps.bind_error (Steps.consult_error (h.named_absent hm))
      refine Or.inl ?_
      rw [Deed.run, Steps.left_error hdelete]
      exact h
  | add handle path =>
    obtain ⟨before, l, after, rfl, rfl⟩ := h.exists_of_handle (hcurrent handle rfl)
    by_cases hnul : 0 ∈ Text.bytes path
    · refine Or.inl ?_
      rw [Deed.run, Steps.left_error (addPathAt_of_nul h.playlistAt_eq hnul)]
      exact h
    by_cases hpath : path ∈ l.paths
    · refine Or.inl ?_
      rw [Deed.run, Steps.left_error (h.addPathAt_present hu hpath)]
      exact h
    rcases h.addPathAt_cases hu hpath hnul with
      ⟨lib', hadd, hlists⟩ | ⟨length, e, lib', hadd, -, -, hlists⟩
    · refine Or.inr (Or.inr (Or.inr ⟨before, l, l.add settings.growthQuantum path, after, rfl,
        rfl, Listing.name_add _ _ _, Or.inr ⟨path, rfl⟩, ?_⟩))
      rw [Deed.run, Steps.left_ok hadd]
      exact hlists
    · refine Or.inr (Or.inr (Or.inr ⟨before, l, { l with length }, after, rfl, rfl, rfl,
        Or.inr ⟨path, rfl⟩, ?_⟩))
      rw [Deed.run, Steps.left_error hadd]
      exact hlists
  | remove handle path =>
    obtain ⟨before, l, after, rfl, rfl⟩ := h.exists_of_handle (hcurrent handle rfl)
    obtain ⟨lib', hremove, hlists⟩ := h.removePathAt_ok path
    refine Or.inr (Or.inr (Or.inr ⟨before, l, { l with paths := l.paths.erase path }, after, rfl,
      rfl, rfl, Or.inl rfl, ?_⟩))
    rw [Deed.run, Steps.left_ok hremove]
    exact hlists

/-- A deed that spares the record of a listing leaves the listing where it is. -/
theorem run_spared (h : Lists settings fields (before ++ l :: after) lib) (hu : settings.Usable)
    (hcurrent : d.Current lib) (hspares : d.Spares (placeAfter before) lib) :
    ∃ before' l' after', placeAfter before' = placeAfter before ∧ l'.name = l.name ∧
      Lists settings fields (before' ++ l' :: after') (d.run lib) := by
  rcases h.run_cases hu hcurrent with hsame | ⟨-, new, -, hnew⟩ |
    ⟨first, x, last, hsplit, rfl, hless⟩ |
    ⟨first, x, x', last, hsplit, hhandle, hname, hlength, hother⟩
  · exact ⟨before, l, after, rfl, rfl, hsame⟩
  · refine ⟨before, l, after ++ [new], rfl, rfl, ?_⟩
    simpa using hnew
  · have hplace : placeAfter before < placeAfter first := by
      rw [hsplit] at h
      exact hspares _ h.named_present
    rcases split_cases hsplit with ⟨between, rfl, rfl⟩ | ⟨rfl, -, -⟩ | ⟨between, rfl, -⟩
    · refine ⟨before, l, between ++ last, rfl, rfl, ?_⟩
      simpa using hless
    · exact absurd hplace (Nat.lt_irrefl _)
    · have hx : x.Sound := h.sound x (by simp)
      exact absurd hplace (Nat.lt_asymm (placeAfter_lt hx first between))
  · rcases split_cases hsplit with ⟨between, rfl, rfl⟩ | ⟨rfl, rfl, rfl⟩ | ⟨between, rfl, rfl⟩
    · refine ⟨before, l, between ++ x' :: last, rfl, rfl, ?_⟩
      simpa using hother
    · exact ⟨first, x', last, rfl, hname, hother⟩
    · have hx : x.Sound := h.sound x (by simp)
      have hx' : x'.Sound := hother.sound x' (by simp)
      have hsame : x'.length = x.length := by
        rcases hlength with hsame | ⟨path, rfl⟩
        · exact hsame
        · rcases hspares with hle | hkept
          · exact absurd (placeAfter_lt hx first between) (Nat.not_lt.2 hle)
          · rw [hsplit] at h
            have hsum := hkept
            rw [hother.stores.keeps.length_eq, h.stores.keeps.length_eq] at hsum
            have hsum := Except.ok.inj hsum
            rw [hother.length_eq, h.length_eq] at hsum
            omega
      refine ⟨first ++ x' :: between, l, after, ?_, rfl, ?_⟩
      · rw [placeAfter_split hx', placeAfter_split hx, hsame]
      · simpa using hother

theorem runAll_spared (hu : settings.Usable) {deeds : List Deed} {place : Nat} {name : String}
    (h : Lists settings fields (before ++ l :: after) lib) (hplace : placeAfter before = place)
    (hname : l.name = name)
    (hrun : Deed.Along (fun lib d => d.Current lib ∧ d.Spares place lib) lib deeds) :
    ∃ before' l' after', placeAfter before' = place ∧ l'.name = name ∧
      Lists settings fields (before' ++ l' :: after') (Deed.runAll lib deeds) := by
  induction deeds generalizing before l after lib with
  | nil => exact ⟨before, l, after, hplace, hname, h⟩
  | cons d rest ih =>
    obtain ⟨⟨hcurrent, hspares⟩, hrest⟩ := hrun
    obtain ⟨before', l', after', hplace', hname', h'⟩ :=
      h.run_spared hu hcurrent (hplace.symm ▸ hspares)
    exact ih h' (hplace'.trans hplace) (hname'.trans hname) hrest

theorem runAll_listed (hu : settings.Usable) {deeds : List Deed}
    (h : Lists settings fields listings lib)
    (hrun : Deed.Along (fun lib d => d.Current lib) lib deeds) :
    ∃ listings', Lists settings fields listings' (Deed.runAll lib deeds) := by
  induction deeds generalizing listings lib with
  | nil => exact ⟨listings, h⟩
  | cons d rest ih =>
    rcases h.run_cases hu hrun.1 with
      h' | ⟨_, _, _, h'⟩ | ⟨_, _, _, _, _, h'⟩ | ⟨_, _, _, _, _, _, _, _, h'⟩
    · exact ih h' hrun.2
    · exact ih h' hrun.2
    · exact ih h' hrun.2
    · exact ih h' hrun.2

theorem listed_of_handle (h : Lists settings fields listings lib) (hu : settings.Usable)
    {name : String} {handle : Nat} {lib' : LibraryFile}
    (hgot : startPlaylist name lib = .ok handle lib' ∨
      lib' = lib ∧ ∃ p, lib.find name = .ok (some p) ∧ p.offset = handle) :
    ∃ before l after, placeAfter before = handle ∧ l.name = name ∧
      Lists settings fields (before ++ l :: after) lib' := by
  rcases hgot with hstart | ⟨rfl, p, hfind, rfl⟩
  · cases hname : newName (listings.map Listing.name) name with
    | error e =>
      rw [h.startPlaylist_refused hname] at hstart
      cases hstart
    | ok =>
      rcases h.startPlaylist_cases hu hname with ⟨other, hstarted, hlists⟩ | ⟨-, hrefused⟩
      · rw [hstart] at hstarted
        obtain ⟨rfl, rfl⟩ := EStateM.Result.ok.inj hstarted
        exact ⟨listings, _, [], rfl, rfl, hlists⟩
      · rw [hstart] at hrefused
        cases hrefused
  · by_cases hm : name ∈ listings.map Listing.name
    · obtain ⟨before, l, after, rfl, rfl⟩ := exists_split hm
      rw [h.find_present] at hfind
      obtain rfl := Option.some.inj (Except.ok.inj hfind)
      exact ⟨before, l, after, rfl, rfl, h⟩
    · rw [h.find_absent hm] at hfind
      cases hfind

theorem pathsIn_of_ne (h : Lists settings fields (before ++ l :: after) lib) {l' : Listing}
    {lib' : LibraryFile} (hname : l'.name = l.name)
    (h' : Lists settings fields (before ++ l' :: after) lib') {other : String}
    (hother : other ≠ l.name) : lib'.pathsIn other = lib.pathsIn other := by
  by_cases hb : other ∈ before.map Listing.name
  · obtain ⟨first, x, between, rfl, rfl⟩ := exists_split hb
    rw [List.append_assoc, List.cons_append] at h h'
    rw [h.pathsIn_eq, h'.pathsIn_eq]
  by_cases ha : other ∈ after.map Listing.name
  · obtain ⟨between, x, last, rfl, rfl⟩ := exists_split ha
    rw [← List.cons_append, ← List.append_assoc] at h h'
    rw [h.pathsIn_eq, h'.pathsIn_eq]
  have hold : other ∉ (before ++ l :: after).map Listing.name := by
    simp [hb, ha, hother]
  have hnew : other ∉ (before ++ l' :: after).map Listing.name := by
    simp [hb, ha, hname, hother]
  rw [pathsIn, pathsIn, Steps.query_error (h.named_absent hold),
    Steps.query_error (h'.named_absent hnew)]

theorem next_eq (h : Lists settings fields (before ++ l :: after) lib) :
    ∃ first rest, lib.playlists = .ok (first ++ l.record.playlist (placeAfter before) :: rest) ∧
      lib.next (some (placeAfter before)) = .ok (rest.head?.map Playlist.offset) := by
  have hsplit := records_split settings fields before after l
  have hsized : ∀ r ∈ before.map Listing.record, r.Sized := fun r hr =>
    h.stores.sized r (by rw [hsplit]; exact List.mem_append_left _ hr)
  have hplaylists := h.stores.playlists_eq
  rw [hsplit, playlistsFrom_append hsized, playlistsFrom] at hplaylists
  refine ⟨_, _, hplaylists, ?_⟩
  obtain ⟨view, hview, hsize, -⟩ := (h.stores.encloses hsplit).view_eq
  have hstop : placeAfter before + l.record.length = placeAfter (before ++ [l]) := by
    rw [placeAfter, placeAfter, List.map_append]
    exact (offsetAfter_concat _ h.soundAt.record_sized).symm
  have hrest : LibraryHeader.size + (bodyOf (before.map Listing.record)).length + l.record.length
      = placeAfter (before ++ [l]) := hstop
  have hlength : (l.record.playlist (placeAfter before)).length = l.record.length := rfl
  rw [next, Steps.query_ok h.playlistAt_eq, pure_bind, hlength, hstop, hrest]
  refine (Steps.query_ok hview).trans ?_
  cases after with
  | nil =>
    have hend : view.size ≤ placeAfter (before ++ [l]) := by
      rw [hsize, hrest]
      exact Nat.le_refl _
    rw [if_pos hend]
    rfl
  | cons x rest =>
    have hx : x.Sound := h.sound x (by simp)
    have hmore : ¬ view.size ≤ placeAfter (before ++ [l]) := by
      rw [hsize, hrest, List.map_cons, bodyOf_cons, List.length_append,
        hx.record_sized.length_encode]
      unfold Record.length PlaylistHeader.size
      omega
    have hread : lib.playlistAt (placeAfter (before ++ [l]))
        = .ok (x.record.playlist (placeAfter (before ++ [l]))) := by
      rw [← List.singleton_append, ← List.append_assoc] at h
      exact h.playlistAt_eq
    rw [if_neg hmore, Steps.query_ok hread]
    rfl

theorem current (h : Lists settings fields (before ++ l :: after) lib)
    (hhandle : d.handle? = some (placeAfter before)) : d.Current lib := by
  intro handle hd
  obtain rfl := Option.some.inj (hhandle.symm.trans hd)
  obtain ⟨first, rest, hplaylists, -⟩ := h.next_eq
  exact ⟨_, l.record.playlist (placeAfter before), hplaylists, by simp, rfl⟩

theorem run_others (h : Lists settings fields (before ++ l :: after) lib) (hu : settings.Usable)
    (hhandle : d.handle? = some (placeAfter before)) {other : String} (hother : other ≠ l.name) :
    (d.run lib).pathsIn other = lib.pathsIn other := by
  rcases h.run_cases hu (h.current hhandle) with hsame | ⟨_, _, rfl, -⟩ | ⟨_, _, _, _, rfl, -⟩ |
    ⟨first, x, x', last, hsplit, hplace, hname, -, hchanged⟩
  · exact h.pathsIn_of_ne rfl hsame hother
  · cases hhandle
  · cases hhandle
  · have hplace : placeAfter first = placeAfter before :=
      Option.some.inj (hplace.symm.trans hhandle)
    rcases split_cases hsplit with ⟨between, rfl, -⟩ | ⟨rfl, rfl, rfl⟩ | ⟨between, rfl, -⟩
    · exact absurd hplace (Nat.ne_of_gt (placeAfter_lt h.soundAt before between))
    · exact h.pathsIn_of_ne hname hchanged hother
    · have hx : x.Sound := h.sound x (by simp)
      exact absurd hplace (Nat.ne_of_lt (placeAfter_lt hx first between))

end Lists

/-- As long as no deed has moved the record of a playlist, its handle does what its name does: each
question and each change by the handle is about that playlist, and leaves the others alone. -/
theorem handle_of_run {file title mediaPrefix : String} {settings : Settings} {contents : Image}
    {created : LibraryFile} (hblank : blank title mediaPrefix = .ok contents)
    (hvalid : settings.validate = .ok ()) (hquantum : settings.growthQuantum + 128 < 2 ^ 64)
    (hopen : ofContents file settings contents = .ok created) {earlier later : List Deed}
    {name : String} {handle : Nat} {lib : LibraryFile}
    (hearlier : Deed.Along (fun lib d => d.Current lib) created earlier)
    (hgot : startPlaylist name (Deed.runAll created earlier) = .ok handle lib ∨
      lib = Deed.runAll created earlier ∧ ∃ p, lib.find name = .ok (some p) ∧ p.offset = handle)
    (hlater : Deed.Along (fun lib d => d.Current lib ∧ d.Spares handle lib) lib later) :
    let now := Deed.runAll lib later
    (∃ p first rest, now.named name = .ok p ∧ now.playlistAt handle = .ok p ∧
      p.name = Text.bytes name ∧ now.playlists = .ok (first ++ p :: rest) ∧
      now.next (some handle) = .ok (rest.head?.map Playlist.offset)) ∧
    (∀ path, now.findPath handle path = now.findPathIn name path) ∧
    (∀ n, now.pathAt handle n = now.pathIn name n) ∧ now.paths handle = now.pathsIn name ∧
    (∀ path, removePathAt handle path now = removePath name path now ∧
      addPathAt handle path now
        = (consult (named · name) >>= fun p => addPathAt p.offset path) now) ∧
    ∀ (d : Deed) (other : String), d.handle? = some handle → other ≠ name →
      (d.run now).pathsIn other = now.pathsIn other := by
  have hu := Settings.usable_of_validate hvalid hquantum
  have hlists := lists_of_blank hblank settings file
  obtain rfl := Except.ok.inj (hopen.symm.trans hlists.stores.keeps.ofContents_eq)
  obtain ⟨listings, hlisted⟩ := hlists.runAll_listed hu hearlier
  obtain ⟨first, x, last, hplace, hname, hgiven⟩ : ∃ before l after, placeAfter before = handle ∧
      l.name = name ∧ Lists settings (newFields title mediaPrefix) (before ++ l :: after) lib := by
    rcases hgot with hstart | ⟨rfl, hfind⟩
    · exact hlisted.listed_of_handle hu (Or.inl hstart)
    · exact hlisted.listed_of_handle hu (Or.inr ⟨rfl, hfind⟩)
  obtain ⟨before, l, after, rfl, rfl, h⟩ := hgiven.runAll_spared hu hplace hname hlater
  obtain ⟨previous, rest, hplaylists, hnext⟩ := h.next_eq
  have hnamed : ∀ {α : Type} (change : Playlist → Update α),
      (consult (named · l.name) >>= change) (Deed.runAll lib later)
        = change (l.record.playlist (placeAfter before)) (Deed.runAll lib later) :=
    fun change => Steps.bind_ok (Steps.consult_ok h.named_present)
  refine ⟨⟨_, previous, rest, h.named_present, h.playlistAt_eq, h.soundAt.record_name, hplaylists,
    hnext⟩, fun path => ?_, fun n => ?_, ?_, fun path => ⟨?_, ?_⟩, fun d other hd hother =>
      h.run_others hu hd hother⟩
  · rw [h.findPath_eq, h.findPathIn_eq]
  · rw [h.pathAt_eq, h.pathIn_eq]
  · rw [h.paths_eq, h.pathsIn_eq]
  · rw [removePath, hnamed]
    rfl
  · rw [hnamed]
    rfl

/-- A handle is still good after a path was added by it and removed again. -/
theorem handle_of_run_edited : ∃ (contents : Image) (created lib : LibraryFile),
    blank "n" "/p" = .ok contents ∧ ofContents "m" .default contents = .ok created ∧
    startPlaylist "a" created = .ok 1024 lib ∧
    let now := Deed.runAll lib [.add 1024 "x", .remove 1024 "x"]
    now.paths 1024 = now.pathsIn "a" := by
  obtain ⟨contents, hblank⟩ : ∃ contents, blank "n" "/p" = .ok contents := ⟨_, rfl⟩
  have hvalid : Settings.default.validate = .ok () := rfl
  have hquantum : Settings.default.growthQuantum + 128 < 2 ^ 64 := by decide
  have hu := Settings.usable_of_validate hvalid hquantum
  have hlists := lists_of_blank hblank .default "m"
  have hopen := hlists.stores.keeps.ofContents_eq
  have hnew : newName [] "a" = .ok () := rfl
  rcases hlists.startPlaylist_cases hu hnew with ⟨lib, hstart, h⟩ | ⟨hbig, -⟩
  · have hadd : (Deed.add 1024 "x").Spares 1024 lib := Or.inl (Nat.le_refl 1024)
    obtain ⟨before, l, after, hplace, -, h'⟩ := Lists.run_spared h hu (h.current rfl) hadd
    have hlater : Deed.Along (fun lib d => d.Current lib ∧ d.Spares 1024 lib) lib
        [.add 1024 "x", .remove 1024 "x"] :=
      ⟨⟨h.current rfl, hadd⟩, ⟨h'.current (by rw [hplace]; rfl), trivial⟩, trivial⟩
    obtain ⟨-, -, -, hpaths, -⟩ :=
      @handle_of_run "m" "n" "/p" _ _ _ hblank hvalid hquantum hopen [] _ "a" 1024 lib trivial
        (Or.inl hstart) hlater
    exact ⟨contents, _, lib, hblank, hopen, hstart, hpaths⟩
  · exact absurd hbig (by decide)

/-- After a playlist was deleted, its handle may be that of the one behind it, and then nothing tells
that it is an old one. -/
theorem handle_after_delete : ∃ (contents : Image) (first second third : LibraryFile) (b : Nat)
    (p : Playlist), blank "n" "/p" = .ok contents ∧
    startPlaylist "a" ⟨"m", .default, contents, some contents.size, .calm⟩ = .ok 1024 first ∧
    startPlaylist "b" first = .ok b second ∧ deletePlaylist "a" second = .ok () third ∧
    third.named "b" = .ok p ∧ p.offset = 1024 ∧ third.playlistAt 1024 = .ok p := by
  obtain ⟨contents, hblank⟩ : ∃ contents, blank "n" "/p" = .ok contents := ⟨_, rfl⟩
  have hu := @Settings.usable_of_validate .default rfl (by decide)
  have hfirst : newName [] "a" = .ok () := rfl
  have hsecond : newName ["a"] "b" = .ok () := rfl
  rcases (lists_of_blank hblank .default "m").startPlaylist_cases hu hfirst with
    ⟨first, ha, h₁⟩ | ⟨hbig, -⟩
  · rcases h₁.startPlaylist_cases hu hsecond with ⟨second, hb, h₂⟩ | ⟨hbig, -⟩
    · obtain ⟨third, hdelete, h₃⟩ := @Lists.deletePlaylist_ok _ _ [] _ _ _ h₂
      exact ⟨contents, first, second, third, _, _, hblank, ha, hb, hdelete,
        Lists.named_present h₃, rfl, Lists.playlistAt_eq h₃⟩
    · have hplace := placeAfter_split (h₁.sound _ List.mem_cons_self) [] []
      rw [List.nil_append] at hplace
      rw [List.nil_append, hplace] at hbig
      exact absurd hbig (by decide)
  · exact absurd hbig (by decide)

end MediaLibrary.LibraryFile
