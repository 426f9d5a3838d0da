import MediaLibrary.LibraryFile.Basic
import MediaLibrary.Proofs.Bytes.Splice
import MediaLibrary.Proofs.Steps
/-! Libraries whose file is mapped whole, so that what is mapped and what the file holds are the same
bytes. Reading and writing within them never fails. -/
namespace MediaLibrary.LibraryFile

theorem word_of_view {lib : LibraryFile} {view : Image} (hview : lib.view = .ok view)
    (before after : Bytes) {n : Nat} (hn : n < Word.limit)
    (hsplit : view.toList = before ++ Word.toBytes n ++ after) :
    lib.word before.length = .ok n := by
  have hread : view.read before.length Word.size = Word.toBytes n := by
    rw [Image.toList_read, hsplit, ← Word.length_toBytes n, Bytes.slice_middle]
  have hvalue : (WordField.mk 0).get? (Word.toBytes n) = some n := by
    have hslice := Bytes.slice_length (Word.toBytes n) []
    rw [List.append_nil, Word.length_toBytes] at hslice
    have hstop : (WordField.mk 0).stop ≤ (Word.toBytes n).length := Nat.le_refl _
    rw [WordField.get?, if_pos hstop, hslice, Word.ofBytes_toBytes_of_lt hn]
  rw [word, Steps.query_ok hview, hread, hvalue]
  rfl

/-- The library's file and its mapping are `bytes`, and the system refuses nothing. -/
structure Holding (settings : Settings) (bytes : Bytes) (lib : LibraryFile) : Prop where
  settings_eq : lib.settings = settings
  contents_eq : lib.contents.toList = bytes
  mapped_eq : lib.mapped = some bytes.length
  calm : lib.system = .calm

namespace Holding

variable {settings : Settings} {bytes : Bytes} {lib : LibraryFile}

theorem size_contents (h : Holding settings bytes lib) : lib.contents.size = bytes.length := by
  rw [← Image.length_toList, h.contents_eq]

theorem view_eq (h : Holding settings bytes lib) :
    ∃ view, lib.view = .ok view ∧ view.toList = bytes := by
  refine ⟨lib.contents.resize bytes.length, ?_, ?_⟩
  · rw [view, h.mapped_eq]
  · rw [Image.toList_resize, h.contents_eq, h.size_contents]
    simp [Bytes.zeros]

theorem changeView_ok (h : Holding settings bytes lib) {change : Image → Query Image} {new : Bytes}
    (hlen : new.length = bytes.length)
    (hchange : ∀ view, view.toList = bytes → ∃ view', change view = .ok view' ∧ view'.toList = new) :
    ∃ lib', changeView change lib = .ok () lib' ∧ Holding settings new lib' := by
  obtain ⟨view, hview, hbytes⟩ := h.view_eq
  obtain ⟨view', hview', hnew⟩ := hchange view hbytes
  refine ⟨lib.withView view', ?_, h.settings_eq, ?_, ?_, h.calm⟩
  · rw [changeView, hview, Steps.query_ok rfl, hview']
  · show (lib.contents.overlay 0 (view'.take lib.contents.size)).toList = new
    rw [Image.toList_overlay, Image.toList_take, hnew, h.contents_eq, h.size_contents, ← hlen,
      List.take_length]
    exact Bytes.overlay_whole hlen
  · show lib.mapped = _
    rw [h.mapped_eq, hlen]

theorem put_ok (h : Holding settings bytes lib) {offset : Nat} {new : Image}
    (hfits : offset + new.size ≤ bytes.length) :
    ∃ lib', put offset new lib = .ok () lib' ∧
      Holding settings (Bytes.overlay bytes offset new.toList) lib' := by
  apply h.changeView_ok (Bytes.length_overlay (by simpa using hfits))
  intro view hview
  refine ⟨view.overlay offset new, ?_, ?_⟩
  · rw [if_pos (by rwa [← Image.length_toList view, hview])]
  · rw [Image.toList_overlay, hview]

theorem sync_ok (h : Holding settings bytes lib) : lib.sync = .ok () := by
  obtain ⟨view, hview, -⟩ := h.view_eq
  rw [sync, Steps.query_ok hview, h.calm]
  rfl

theorem flush_ok (h : Holding settings bytes lib) : flush lib = .ok () lib := by
  have hcalm := h.calm
  have hlater : ({ lib with system := lib.system.later } : LibraryFile) = lib := by
    obtain ⟨path, settings, contents, mapped, system⟩ := lib
    cases hcalm
    rfl
  rw [flush, Steps.bind_get, Steps.bind_modify, hlater]
  exact Steps.consult_ok h.sync_ok

end Holding
end MediaLibrary.LibraryFile
