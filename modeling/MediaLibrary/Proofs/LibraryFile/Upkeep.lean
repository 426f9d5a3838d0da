import MediaLibrary.Proofs.LibraryFile.Confinement
import MediaLibrary.Proofs.LibraryFile.Handles
/-! The header of a library whose records may be damaged. No operation but a move of bytes writes in
front of the records, except for the media count and the length, and the length is written where the
file is resized. So whatever a library is given to do, and whatever comes of it, the header tells the
length of the file and of its mapping, and its name and media prefix stay. -/
namespace MediaLibrary

open Steps (Preserves)

namespace StringTable

variable {σ : Type} {P : σ → Prop} {host : Host σ} {base : Nat}

/-- `P` does not depend on what the host holds from `base` on, nor on how much that is. -/
structure Host.Disregards (host : Host σ) (base : Nat) (P : σ → Prop) : Prop where
  overlay : ∀ {s : σ} {offset : Nat} (new : Image), base ≤ offset → P s →
    P (host.overlay s offset new)
  insertSpace : ∀ {offset : Nat} (count : Nat), base ≤ offset →
    Preserves P (host.insertSpace offset count)

namespace Host.Disregards

theorem grow (h : host.Disregards base P) (quantum : Nat) :
    Preserves P (grow host base quantum) := by
  apply Preserves.consult_bind
  intro _ t _ _
  apply Preserves.throw_or
  intro _
  apply Preserves.bind (.adaptExcept (h.insertSpace quantum (Nat.le_add_right _ _)) _)
  intro _
  exact .modify fun _ hs => h.overlay _ (Nat.le_add_right _ _) hs

theorem growTimes (h : host.Disregards base P) (quantum count : Nat) :
    Preserves P (growTimes host base quantum count) := by
  induction count with
  | zero => exact .pure ()
  | succ n ih => exact .bind (h.grow quantum) fun _ => ih

theorem pushAt (h : host.Disregards base P) (value : Bytes) :
    Preserves P (pushAt host base value) := by
  apply Preserves.consult_bind
  intro _ t _ _
  apply Preserves.consult_bind
  intro _ pushed _ _
  exact .modify fun _ hs => h.overlay _ (Nat.le_refl _) hs

theorem add (h : host.Disregards base P) (value : Bytes) (quantum : Nat) :
    Preserves P (add host base value quantum) := by
  apply Preserves.consult_bind
  intro _ free _ _
  exact .bind (h.growTimes quantum _) fun _ => h.pushAt value

end Host.Disregards
end StringTable

namespace LibraryFile

/-- The library has a sound header with these fields, whatever follows it. -/
def Headed (settings : Settings) (fields : Bytes) (lib : LibraryFile) : Prop :=
  ∃ v, Keeps settings v lib ∧ v.fields = fields

namespace Keeps

variable {settings : Settings} {v : Volume} {lib : LibraryFile}

theorem withView (h : Keeps settings v lib) {view : Image} {body rest : Bytes}
    (hview : view.toList = v.header ++ (body ++ rest)) (hlen : body.length = v.body.length) :
    Keeps settings { v with body } (lib.withView view) := by
  have hlength : Volume.length { v with body } = v.length := congrArg (_ + ·) hlen
  have hencode : Volume.encode { v with body } = v.header ++ body := by
    simp only [Volume.encode, Volume.header, hlength]
  have hsized : Volume.Sized { v with body } :=
    h.sized.setBody (hlength.trans_lt h.sized.below)
  have hkept : view.toList.take v.length = v.header ++ body := by
    rw [hview, Volume.length, ← h.sized.length_header, List.take_length_add_append,
      List.take_left' hlen]
  refine ⟨⟨h.holding.settings_eq, ?_, ?_, h.holding.calm⟩, hsized⟩
  · show (lib.contents.overlay 0 (view.take lib.contents.size)).toList = _
    rw [h.holding.size_contents, h.sized.length_encode, Image.toList_overlay, Image.toList_take,
      hkept, h.holding.contents_eq, hencode]
    refine Bytes.overlay_whole ?_
    rw [Volume.encode, List.length_append, List.length_append, hlen]
  · show lib.mapped = _
    rw [h.holding.mapped_eq, h.sized.length_encode, hsized.length_encode, hlength]

theorem overlay (h : Keeps settings v lib) {view : Image} (hview : lib.view = .ok view)
    {offset : Nat} (hoffset : LibraryHeader.size ≤ offset) (new : Image) :
    ∃ body, Keeps settings { v with body } (lib.withView (view.overlay offset new)) := by
  obtain ⟨view', hview', hbytes⟩ := h.holding.view_eq
  obtain rfl := Except.ok.inj (hview.symm.trans hview')
  obtain ⟨place, rfl⟩ := Nat.exists_eq_add_of_le hoffset
  have hnew : (view.overlay (LibraryHeader.size + place) new).toList
      = v.header ++ Bytes.overlay v.body place new.toList := by
    rw [Image.toList_overlay, hbytes, Volume.encode, ← h.sized.length_header,
      Bytes.overlay_append_right]
  rw [← List.take_append_drop v.body.length (Bytes.overlay v.body place new.toList)] at hnew
  refine ⟨_, h.withView hnew ?_⟩
  rw [List.length_take, Nat.min_eq_left (Bytes.le_length_overlay _ _ _)]

end Keeps

namespace Headed

variable {settings : Settings} {fields : Bytes}

theorem congr {lib other : LibraryFile}
    (h : Headed settings fields lib) (hsettings : other.settings = lib.settings)
    (hcontents : other.contents = lib.contents) (hmapped : other.mapped = lib.mapped)
    (hsystem : other.system = lib.system) : Headed settings fields other := by
  obtain ⟨v, hv, hfields⟩ := h
  exact ⟨v, ⟨hv.holding.congr hsettings hcontents hmapped hsystem, hv.sized⟩, hfields⟩

theorem settings_eq {lib : LibraryFile}
    (h : Headed settings fields lib) : lib.settings = settings := by
  obtain ⟨v, hv, -⟩ := h
  exact hv.holding.settings_eq

theorem name_eq {lib : LibraryFile}
    (h : Headed settings fields lib) : lib.name = .ok (nameIn fields) := by
  obtain ⟨v, hv, rfl⟩ := h
  exact hv.name_eq

theorem mapped_eq {lib : LibraryFile}
    (h : Headed settings fields lib) : lib.mapped = some lib.contents.size := by
  obtain ⟨v, hv, -⟩ := h
  rw [hv.holding.mapped_eq, hv.holding.size_contents]

theorem length_ge {lib : LibraryFile} {length : Nat} (h : Headed settings fields lib)
    (hlength : lib.length = .ok length) : LibraryHeader.size ≤ length := by
  obtain ⟨v, hv, -⟩ := h
  obtain rfl := Except.ok.inj (hlength.symm.trans hv.length_eq)
  exact Nat.le_add_right _ _

theorem overlay {lib : LibraryFile} {view : Image} (h : Headed settings fields lib)
    (hview : lib.view = .ok view) {offset : Nat} (hoffset : LibraryHeader.size ≤ offset)
    (new : Image) : Headed settings fields (lib.withView (view.overlay offset new)) := by
  obtain ⟨v, hv, hfields⟩ := h
  obtain ⟨body, hbody⟩ := hv.overlay hview hoffset new
  exact ⟨_, hbody, hfields⟩

theorem changeView {change : Image → Query Image} (hchange : ∀ view view', change view = .ok view' →
      ∃ offset new, LibraryHeader.size ≤ offset ∧ view' = view.overlay offset new) :
    Preserves (Headed settings fields) (changeView change) := by
  intro lib h
  cases hresult : lib.view >>= change with
  | error e =>
    rw [Steps.left, LibraryFile.changeView, hresult]
    exact h
  | ok view' =>
    obtain ⟨view, hview, hview'⟩ := Steps.query_eq_ok_iff.1 hresult
    obtain ⟨offset, new, hoffset, rfl⟩ := hchange view view' hview'
    rw [Steps.left, LibraryFile.changeView, hresult]
    exact h.overlay hview hoffset new

theorem put {offset : Nat} (hoffset : LibraryHeader.size ≤ offset) (new : Image) :
    Preserves (Headed settings fields) (put offset new) := by
  refine changeView fun view view' h => ?_
  split at h
  · exact ⟨offset, new, hoffset, (Except.ok.inj h).symm⟩
  · cases h

theorem shift {target : Nat} (htarget : LibraryHeader.size ≤ target) (start stop : Nat) :
    Preserves (Headed settings fields) (shift start stop target) := by
  refine changeView fun view view' h => ?_
  split at h
  · exact ⟨target, _, htarget, (Except.ok.inj h).symm⟩
  · cases h

theorem putMediaCount (count : Nat) :
    Preserves (Headed settings fields) (putMediaCount count) := by
  rintro lib ⟨v, hv, hfields⟩
  have hdigits : LibraryFile.putMediaCount count
      = LibraryFile.putMediaCount (Word.ofBytes (Word.toBytes count)) := by
    rw [LibraryFile.putMediaCount, LibraryFile.putMediaCount, putWord, putWord,
      Word.toBytes_ofBytes (Word.length_toBytes count)]
  obtain ⟨lib', hput, hlib'⟩ := hv.putMediaCount_ok (Word.ofBytes_lt (Word.length_toBytes count))
  rw [hdigits, Steps.left_ok hput]
  exact ⟨_, hlib', hfields⟩

theorem resize {size : Nat} (hsize : LibraryHeader.size ≤ size) :
    Preserves (Headed settings fields) (resize size) := by
  rintro lib ⟨v, hv, hfields⟩
  rcases Nat.lt_or_ge size Word.limit with hsmall | hbig
  · obtain ⟨count, rfl⟩ := Nat.exists_eq_add_of_le hsize
    obtain ⟨lib', hresize, hlib'⟩ := hv.resize_ok count (by omega)
    rw [Steps.left_ok hresize]
    exact ⟨_, hlib', hfields⟩
  · rw [Steps.left_error (resize_refused hbig)]
    exact ⟨v, hv, hfields⟩

theorem expand (size : Nat) : Preserves (Headed settings fields) (expand size) := by
  apply Preserves.consult_bind
  intro lib length h hlength
  have := h.length_ge hlength
  apply Preserves.throw_or
  intro _
  exact resize (by omega)

theorem truncate (size : Nat) : Preserves (Headed settings fields) (truncate size) := by
  apply Preserves.consult_bind
  intro _ length _ _
  apply Preserves.throw_or
  intro hbounds
  apply Preserves.pure_or
  intro _
  exact resize (by omega)

theorem excise (start stop : Nat) : Preserves (Headed settings fields) (excise start stop) := by
  apply Preserves.consult_bind
  intro _ length _ _
  apply Preserves.throw_or
  intro hbounds
  apply Preserves.pure_or
  intro _
  exact .bind (shift (by omega) _ _) fun _ => truncate _

theorem insertSpace (offset count : Nat) :
    Preserves (Headed settings fields) (insertSpace offset count) := by
  apply Preserves.consult_bind
  intro _ length _ _
  apply Preserves.throw_or
  intro hbounds
  apply Preserves.pure_or
  intro _
  apply Preserves.throw_or
  intro _
  apply Preserves.bind (expand _)
  intro _
  exact .bind (shift (by omega) _ _) fun _ => put (by omega) _

theorem host {record base : Nat} (hrecord : LibraryHeader.size ≤ record)
    (hbase : LibraryHeader.size ≤ base) :
    (host record).Disregards base (Headed settings fields) where
  overlay {lib offset} new hoffset h := by
    simp only [LibraryFile.host]
    split
    · rename_i view hview
      exact h.overlay hview (Nat.le_trans hbase hoffset) new
    · exact h
  insertSpace {offset} count _ := by
    apply Preserves.adaptExcept
    apply Preserves.bind (insertSpace offset count)
    intro _
    apply Preserves.consult_bind
    intro _ length _ _
    apply Preserves.throw_or
    intro _
    exact put (Nat.le_add_right_of_le hrecord) _

theorem appendRecord (name : Bytes) (quantum : Nat) :
    Preserves (Headed settings fields) (appendRecord name quantum) := by
  apply Preserves.consult_bind
  intro _ offset h hoffset
  have hbehind := h.length_ge hoffset
  apply Preserves.throw_or
  intro _
  apply Preserves.throw_or
  intro _
  apply Preserves.bind (expand _)
  intro _
  apply Preserves.bind (put hbehind _)
  intro _
  apply Preserves.consult_bind
  intro _ table _ _
  exact .bind (put (by omega) _) fun _ => .pure _

theorem flush : Preserves (Headed settings fields) flush := by
  rintro lib ⟨v, hv, hfields⟩
  rw [Steps.left_ok hv.holding.flush_ok]
  exact ⟨v, hv, hfields⟩

theorem startPlaylist (name : String) :
    Preserves (Headed settings fields) (startPlaylist name) := by
  apply Preserves.consult_bind
  intro _ _ _ _
  apply Preserves.get_bind
  intro _
  apply Preserves.bind (appendRecord _ _)
  intro offset
  exact .or_pure fun _ => .bind flush fun _ => .pure _

theorem deletePlaylist (name : String) :
    Preserves (Headed settings fields) (deletePlaylist name) := by
  apply Preserves.consult_bind
  intro _ p _ _
  apply Preserves.bind (excise _ _)
  intro _
  apply Preserves.get_bind
  intro _
  exact .or_pure fun _ => putMediaCount 0

theorem refreshMediaCount (offset : Nat) :
    Preserves (Headed settings fields) (refreshMediaCount offset) := by
  apply Preserves.consult_bind
  intro _ p _ _
  apply Preserves.get_bind
  intro _
  exact .or_pure fun _ => putMediaCount p.count

theorem playlistAt {lib : LibraryFile} {offset : Nat} {p : Playlist}
    (h : Headed settings fields lib) (hp : lib.playlistAt offset = .ok p) :
    LibraryHeader.size ≤ offset ∧ p.offset = offset := by
  obtain ⟨v, hv, -⟩ := h
  obtain ⟨before, r, after, -, -, rfl, rfl⟩ := hv.exists_encloses hp
  exact ⟨Nat.le_add_right _ _, rfl⟩

theorem addPathAt (offset : Nat) (path : String) :
    Preserves (Headed settings fields) (addPathAt offset path) := by
  apply Preserves.consult_bind
  intro _ p h hp
  obtain ⟨hoffset, rfl⟩ := h.playlistAt hp
  have hcount : LibraryHeader.size ≤ p.offset + PlaylistHeader.countField.offset :=
    Nat.le_add_right_of_le hoffset
  have htable : LibraryHeader.size ≤ p.tableOffset := Nat.le_add_right_of_le hoffset
  apply Preserves.get_bind
  intro lib
  apply Preserves.bind (.adaptExcept ((host hoffset htable).add _ _) _)
  intro _
  apply Preserves.consult_bind
  intro _ grown _ _
  exact .bind (put hcount _) fun _ => refreshMediaCount _

theorem removePathAt (offset : Nat) (path : String) :
    Preserves (Headed settings fields) (removePathAt offset path) := by
  apply Preserves.consult_bind
  intro _ p h hp
  obtain ⟨hoffset, rfl⟩ := h.playlistAt hp
  have hcount : LibraryHeader.size ≤ p.offset + PlaylistHeader.countField.offset :=
    Nat.le_add_right_of_le hoffset
  have htable : LibraryHeader.size ≤ p.tableOffset := Nat.le_add_right_of_le hoffset
  apply Preserves.consult_bind
  intro _ t _ _
  apply Preserves.consult_bind
  intro _ removed _ _
  cases removed with
  | none => exact .pure _
  | some rest =>
    apply Preserves.bind (put htable _)
    intro _
    apply Preserves.bind (put hcount _)
    intro _
    exact .bind (refreshMediaCount _) fun _ => .pure _

theorem ensurePathAt (offset : Nat) (path : String) :
    Preserves (Headed settings fields) (ensurePathAt offset path) := by
  intro lib h
  have hadded := addPathAt offset path lib h
  have hleft : Steps.left (LibraryFile.ensurePathAt offset path) lib
      = Steps.left (LibraryFile.addPathAt offset path) lib := by
    unfold Steps.left LibraryFile.ensurePathAt
    split <;> split at * <;> simp_all
  rwa [hleft]

theorem addToGlobal (path : String) :
    Preserves (Headed settings fields) (addToGlobal path) := by
  apply Preserves.get_bind
  intro lib
  apply Preserves.consult_bind
  intro _ found _ _
  cases found with
  | some p => exact ensurePathAt p.offset path
  | none => exact .bind (startPlaylist _) fun offset => ensurePathAt offset path

theorem addPath (playlist path : String) :
    Preserves (Headed settings fields) (addPath playlist path) := by
  apply Preserves.consult_bind
  intro _ _ _ _
  apply Preserves.get_bind
  intro lib
  have hrest : Preserves (Headed settings fields) (do
      let target ← consult (named · playlist)
      LibraryFile.addPathAt target.offset path) := by
    apply Preserves.consult_bind
    intro _ target _ _
    exact addPathAt target.offset path
  apply Preserves.ite
  · intro _
    exact .bind (addToGlobal path) fun _ => hrest
  · intro _
    exact hrest

theorem removePath (playlist path : String) :
    Preserves (Headed settings fields) (removePath playlist path) := by
  apply Preserves.consult_bind
  intro _ p _ _
  exact removePathAt p.offset path

end Headed

/-- Whatever can be asked of an open library, but for a move of bytes: that may be aimed at the
header. A change of the playlists may be given any handle, and a question is told by whether it has
an answer. -/
inductive Operation where
  | expand (size : Nat)
  | truncate (size : Nat)
  | excise (start stop : Nat)
  | insertSpace (offset count : Nat)
  | change (deed : Deed)
  | ask (question : LibraryFile → Query Unit)

namespace Operation

def run (lib : LibraryFile) : Operation → LibraryFile
  | expand size => Steps.left (LibraryFile.expand size) lib
  | truncate size => Steps.left (LibraryFile.truncate size) lib
  | excise start stop => Steps.left (LibraryFile.excise start stop) lib
  | insertSpace offset count => Steps.left (LibraryFile.insertSpace offset count) lib
  | change deed => deed.run lib
  | ask question => Steps.left (consult question) lib

def runAll (lib : LibraryFile) (operations : List Operation) : LibraryFile :=
  operations.foldl run lib

end Operation

section Run

variable {settings : Settings} {fields : Bytes} {lib : LibraryFile}

theorem Headed.run (h : Headed settings fields lib) (operation : Operation) :
    Headed settings fields (operation.run lib) := by
  cases operation with
  | expand size => exact Headed.expand size lib h
  | truncate size => exact Headed.truncate size lib h
  | excise start stop => exact Headed.excise start stop lib h
  | insertSpace offset count => exact Headed.insertSpace offset count lib h
  | ask question => exact Preserves.consult question lib h
  | change deed =>
    cases deed with
    | start name => exact Headed.startPlaylist name lib h
    | delete name => exact Headed.deletePlaylist name lib h
    | add handle path => exact Headed.addPathAt handle path lib h
    | remove handle path => exact Headed.removePathAt handle path lib h

theorem Headed.runAll (h : Headed settings fields lib) (operations : List Operation) :
    Headed settings fields (Operation.runAll lib operations) := by
  induction operations generalizing lib with
  | nil => exact h
  | cons operation rest ih => exact ih (h.run operation)

end Run
end LibraryFile
end MediaLibrary
