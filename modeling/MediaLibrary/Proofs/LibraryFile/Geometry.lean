import MediaLibrary.LibraryFile.Geometry
import MediaLibrary.Proofs.LibraryFile.Holding
/-! The operations on a library's size, on any bytes of which the header tells how many they are. Each
cuts the bytes and puts them together again, and then writes down how many there are; or it is refused
and changes nothing. What is opened or appended is zero. -/
namespace MediaLibrary.LibraryFile

/-- The bytes with their number where the header of a library has its length. -/
def stamp (bytes : Bytes) : Bytes :=
  Bytes.overlay bytes LibraryHeader.lengthField.offset (Word.toBytes bytes.length)

/-! What a stamp leaves alone. -/

section Stamp

variable {bytes : Bytes} {offset : Nat}

theorem exists_pieces (h : LibraryHeader.lengthField.stop ≤ bytes.length) :
    ∃ lead number rest, bytes = lead ++ number ++ rest ∧
      lead.length = LibraryHeader.lengthField.offset ∧ number.length = Word.size := by
  refine ⟨bytes.take LibraryHeader.lengthField.offset,
    Bytes.slice bytes LibraryHeader.lengthField.offset Word.size,
    bytes.drop LibraryHeader.lengthField.stop, ?_, ?_, ?_⟩
  · rw [← Bytes.take_add_slice]
    exact (List.take_append_drop LibraryHeader.lengthField.stop bytes).symm
  · rw [List.length_take]
    unfold WordField.stop at h
    omega
  · rw [Bytes.length_slice]
    unfold WordField.stop at h
    omega

theorem length_lead {lead number : Bytes} (hlead : lead.length = LibraryHeader.lengthField.offset)
    (hnumber : number.length = Word.size) :
    (lead ++ number).length = LibraryHeader.lengthField.stop := by
  rw [List.length_append, hlead, hnumber]
  rfl

theorem length_pieces {lead number : Bytes} (rest : Bytes)
    (hlead : lead.length = LibraryHeader.lengthField.offset) (hnumber : number.length = Word.size) :
    (lead ++ number ++ rest).length = LibraryHeader.lengthField.stop + rest.length := by
  rw [List.length_append, length_lead hlead hnumber]

theorem stamp_pieces {lead number : Bytes} (rest : Bytes)
    (hlead : lead.length = LibraryHeader.lengthField.offset) (hnumber : number.length = Word.size) :
    stamp (lead ++ number ++ rest)
      = lead ++ Word.toBytes (LibraryHeader.lengthField.stop + rest.length) ++ rest := by
  rw [stamp, length_pieces rest hlead hnumber, ← hlead]
  exact Bytes.overlay_middle _ _ _ _ (by rw [hnumber, Word.length_toBytes])

theorem length_stamp (h : LibraryHeader.lengthField.stop ≤ bytes.length) :
    (stamp bytes).length = bytes.length :=
  Bytes.length_overlay h

theorem drop_stamp (h : LibraryHeader.lengthField.stop ≤ bytes.length)
    (hoffset : LibraryHeader.lengthField.stop ≤ offset) :
    (stamp bytes).drop offset = bytes.drop offset := by
  obtain ⟨lead, number, rest, rfl, hlead, hnumber⟩ := exists_pieces h
  obtain ⟨place, rfl⟩ := Nat.exists_eq_add_of_le hoffset
  have hdrop {middle : Bytes} (hmiddle : middle.length = Word.size) :
      (lead ++ middle ++ rest).drop (LibraryHeader.lengthField.stop + place) = rest.drop place := by
    rw [← length_lead hlead hmiddle, List.drop_length_add_append]
  rw [stamp_pieces rest hlead hnumber, hdrop (Word.length_toBytes _), hdrop hnumber]

theorem stamp_take_append (h : offset ≤ bytes.length)
    (hoffset : LibraryHeader.lengthField.stop ≤ offset) (after : Bytes) :
    stamp ((stamp bytes).take offset ++ after) = stamp (bytes.take offset ++ after) := by
  obtain ⟨lead, number, rest, rfl, hlead, hnumber⟩ := exists_pieces (Nat.le_trans hoffset h)
  obtain ⟨place, rfl⟩ := Nat.exists_eq_add_of_le hoffset
  have hcut {middle : Bytes} (hmiddle : middle.length = Word.size) :
      stamp ((lead ++ middle ++ rest).take (LibraryHeader.lengthField.stop + place) ++ after)
        = lead ++ Word.toBytes (LibraryHeader.lengthField.stop + (rest.take place ++ after).length)
          ++ (rest.take place ++ after) := by
    rw [← stamp_pieces _ hlead hmiddle, ← length_lead hlead hmiddle, List.take_length_add_append,
      List.append_assoc (lead ++ middle)]
  rw [stamp_pieces rest hlead hnumber, hcut (Word.length_toBytes _), hcut hnumber]

theorem overlay_stamp {new : Bytes} (hoffset : LibraryHeader.lengthField.stop ≤ offset)
    (hfits : offset + new.length ≤ bytes.length) :
    Bytes.overlay (stamp bytes) offset new = stamp (Bytes.overlay bytes offset new) := by
  obtain ⟨lead, number, rest, rfl, hlead, hnumber⟩ :=
    exists_pieces (Nat.le_trans hoffset (Nat.le_of_add_right_le hfits))
  obtain ⟨place, rfl⟩ := Nat.exists_eq_add_of_le hoffset
  have hlaid {middle : Bytes} (hmiddle : middle.length = Word.size) :
      Bytes.overlay (lead ++ middle ++ rest) (LibraryHeader.lengthField.stop + place) new
        = lead ++ middle ++ Bytes.overlay rest place new := by
    rw [← length_lead hlead hmiddle, Bytes.overlay_append_right]
  have hinside : place + new.length ≤ rest.length := by
    rw [List.length_append, length_lead hlead hnumber] at hfits
    omega
  rw [stamp_pieces rest hlead hnumber, hlaid (Word.length_toBytes _), hlaid hnumber,
    stamp_pieces _ hlead hnumber, Bytes.length_overlay hinside]

end Stamp

/-! A resize, and what the system has to do with it. -/

section Resize

variable {lib : LibraryFile} {size : Nat}

theorem sizing_calm (h : lib.system = .calm) (size : Nat) : lib.sizing size = none := by
  rw [sizing, h]
  split <;> rfl

theorem unmap_calm (h : lib.system = .calm) (size : Nat) :
    unmap size lib = { lib with contents := lib.contents.resize size, mapped := none } := by
  rw [unmap, sizing_calm h, h]
  rfl

/-- What becomes of a resize is up to the system, unless the size is out of the question. -/
theorem resize_eq (lib : LibraryFile) (hbig : size < Word.limit) :
    resize size lib = match lib.system.now.mapping, lib.sizing size with
      | some error, _ => .error (.refused (.io error)) (unmap size lib)
      | none, some error =>
        .error (.refused (.io error)) { unmap size lib with mapped := some lib.contents.size }
      | none, none =>
        if size < LibraryHeader.lengthField.stop then
          .error (.fault .outOfBounds) (unmap size lib)
        else putWord LibraryHeader.lengthField.offset size
          { unmap size lib with mapped := some size } := by
  rw [resize, if_neg (Nat.not_le.2 hbig), Steps.bind_get, Steps.bind_modify]
  cases hmapping : lib.system.now.mapping with
  | some error => exact Steps.bind_error (Steps.consult_error rfl)
  | none =>
    have hgranted : consult (fun _ => granted none) (unmap size lib) = .ok () (unmap size lib) :=
      Steps.consult_ok rfl
    rw [Steps.bind_ok hgranted]
    cases hsizing : lib.sizing size with
    | some error =>
      have hkept : (unmap size lib).contents = lib.contents := by
        rw [unmap, hsizing]
        rfl
      exact congrArg (fun contents : Image => EStateM.Result.error _
        { unmap size lib with mapped := some contents.size }) hkept
    | none =>
      simp only
      split
      · rfl
      · exact Steps.bind_modify _ _

theorem resize_ok (h : lib.system = .calm) (hsmall : LibraryHeader.size ≤ size)
    (hbig : size < Word.limit) :
    ∃ lib', resize size lib = .ok () lib' ∧
      Holding lib.settings (stamp (lib.contents.resize size).toList) lib' := by
  have hlen : (lib.contents.resize size).toList.length = size := by
    rw [Image.length_toList, Image.size_resize]
  let wide : LibraryFile := { lib with contents := lib.contents.resize size, mapped := some size }
  have hwide : Holding lib.settings (lib.contents.resize size).toList wide :=
    ⟨rfl, rfl, by rw [hlen], h⟩
  have hstop : LibraryHeader.lengthField.stop ≤ size := Nat.le_trans (by decide) hsmall
  have hfits : LibraryHeader.lengthField.offset + (Image.ofBytes (Word.toBytes size)).size
      ≤ (lib.contents.resize size).toList.length := by
    rwa [hlen, Image.size_ofBytes]
  obtain ⟨lib', hput, hlib'⟩ := hwide.put_ok hfits
  rw [Image.toList_ofBytes] at hlib'
  refine ⟨lib', ?_, by rwa [stamp, hlen]⟩
  have hmapping : lib.system.now.mapping = none := by
    rw [h]
    rfl
  rw [resize_eq lib hbig, sizing_calm h, unmap_calm h, hmapping]
  have hword : putWord LibraryHeader.lengthField.offset size wide = .ok () lib' := hput
  exact (if_neg (Nat.not_lt.2 hstop)).trans hword

theorem resize_refused (hbig : Word.limit ≤ size) :
    resize size lib = .error (.refused .tooLarge) lib := by
  rw [resize, if_pos hbig]
  rfl

end Resize

/-- The library's bytes: at least a header, which tells their number. The file holds them and is
mapped from end to end. -/
structure Measured (image : Bytes) (lib : LibraryFile) : Prop where
  holding : Holding lib.settings image lib
  header : LibraryHeader.size ≤ image.length
  length_eq : lib.length = .ok image.length

/-- The operation is done if it is possible, and then the library's bytes are `image`; else it is
refused and changes nothing. -/
structure Yields (op : Update Unit) (lib : LibraryFile) (possible : Prop) (image : Bytes) : Prop where
  done : possible → ∃ lib', op lib = .ok () lib' ∧ Measured image lib' ∧ lib'.settings = lib.settings
  refused : ¬ possible → ∃ e, op lib = .error (.refused e) lib

namespace Yields

variable {op : Update Unit} {lib lib' : LibraryFile} {possible : Prop} {image : Bytes}

theorem possible_of_ok (h : Yields op lib possible image) (hop : op lib = .ok () lib') : possible := by
  refine Classical.byContradiction fun hnot => ?_
  obtain ⟨e, hrefused⟩ := h.refused hnot
  cases hop.symm.trans hrefused

theorem ok (h : Yields op lib possible image) (hop : op lib = .ok () lib') :
    Measured image lib' ∧ lib'.settings = lib.settings := by
  obtain ⟨other, hother, hresult⟩ := h.done (h.possible_of_ok hop)
  obtain rfl := (EStateM.Result.ok.inj (hop.symm.trans hother)).2
  exact hresult

theorem congr {possible' : Prop} {image' : Bytes} (h : Yields op lib possible image)
    (hpossible : possible' ↔ possible) (himage : image = image') :
    Yields op lib possible' image' := by
  subst himage
  exact ⟨fun hp => h.done (hpossible.1 hp), fun hnot => h.refused fun hp => hnot (hpossible.2 hp)⟩

end Yields

def Whole (lib : LibraryFile) : Prop := lib.mapped = some lib.contents.size

theorem Holding.whole {settings : Settings} {bytes : Bytes} {lib : LibraryFile}
    (h : Holding settings bytes lib) : lib.Whole := by
  rw [Whole, h.mapped_eq, h.size_contents]

theorem Holding.measured {settings : Settings} {bytes : Bytes} {lib : LibraryFile}
    (h : Holding settings (stamp bytes) lib) (hsize : LibraryHeader.size ≤ bytes.length)
    (hbelow : bytes.length < Word.limit) : Measured (stamp bytes) lib := by
  have hstop : LibraryHeader.lengthField.stop ≤ bytes.length := Nat.le_trans (by decide) hsize
  have hlen := length_stamp hstop
  obtain ⟨view, hview, hbytes⟩ := h.view_eq
  obtain ⟨lead, number, rest, rfl, hlead, hnumber⟩ := exists_pieces hstop
  rw [stamp_pieces rest hlead hnumber, ← length_pieces rest hlead hnumber] at hbytes
  have hword := word_of_view hview lead rest hbelow hbytes
  refine ⟨h.settings_eq ▸ h, by rwa [hlen], ?_⟩
  rwa [hlead, ← hlen] at hword

namespace Measured

variable {lib : LibraryFile} {image : Bytes}

theorem stop_le (h : Measured image lib) : LibraryHeader.lengthField.stop ≤ image.length :=
  Nat.le_trans (by decide) h.header

theorem stamped (h : Measured image lib) : stamp image = image ∧ image.length < Word.limit := by
  obtain ⟨view, hview, rfl⟩ := h.holding.view_eq
  obtain ⟨lead, number, rest, hsplit, hlead, hnumber⟩ := exists_pieces h.stop_le
  have hword : lib.length = .ok (Word.ofBytes number) := by
    have hread := word_of_view hview lead rest (Word.ofBytes_lt hnumber)
      (by rw [Word.toBytes_ofBytes hnumber, hsplit])
    rwa [hlead] at hread
  have hlen := Except.ok.inj (hword.symm.trans h.length_eq)
  constructor
  · rw [hsplit, stamp_pieces rest hlead hnumber]
    have hcount : LibraryHeader.lengthField.stop + rest.length = Word.ofBytes number := by
      rw [hlen, hsplit, length_pieces rest hlead hnumber]
    rw [hcount, Word.toBytes_ofBytes hnumber]
  · rw [← hlen]
    exact Word.ofBytes_lt hnumber

theorem changeView_ok (h : Measured image lib) {change : Image → Query Image} {offset : Nat}
    {new : Bytes} (hoffset : LibraryHeader.size ≤ offset) (hfits : offset + new.length ≤ image.length)
    (hchange : ∀ view, view.toList = image → ∃ view', change view = .ok view' ∧
      view'.toList = Bytes.overlay image offset new) :
    ∃ lib', changeView change lib = .ok () lib' ∧ Measured (Bytes.overlay image offset new) lib' ∧
      lib'.settings = lib.settings := by
  have hlen := Bytes.length_overlay hfits
  obtain ⟨lib', hdone, hlib'⟩ := h.holding.changeView_ok hlen hchange
  obtain ⟨hstamped, hbelow⟩ := h.stamped
  have hsame : stamp (Bytes.overlay image offset new) = Bytes.overlay image offset new := by
    rw [← overlay_stamp (Nat.le_trans (by decide) hoffset) hfits, hstamped]
  rw [← hlen] at hbelow
  have hsize := h.header
  rw [← hlen] at hsize
  refine ⟨lib', hdone, ?_, hlib'.settings_eq⟩
  rw [← hsame] at hlib' ⊢
  exact hlib'.measured hsize hbelow

theorem shift_ok (h : Measured image lib) {start stop target : Nat} (hle : start ≤ stop)
    (hstop : stop ≤ image.length) (htarget : target + (stop - start) ≤ image.length)
    (hheader : LibraryHeader.size ≤ target) :
    ∃ lib', shift start stop target lib = .ok () lib' ∧
      Measured (Bytes.overlay image target (Bytes.slice image start (stop - start))) lib' ∧
      lib'.settings = lib.settings := by
  have hlen : (Bytes.slice image start (stop - start)).length = stop - start := by
    rw [Bytes.length_slice]
    omega
  refine h.changeView_ok hheader (by rwa [hlen]) ?_
  intro view hview
  have hsize : view.size = image.length := by rw [← hview, Image.length_toList]
  refine ⟨view.overlay target (view.slice start (stop - start)), if_pos (by omega), ?_⟩
  rw [Image.toList_overlay, Image.toList_slice, hview]

theorem clear_ok (h : Measured image lib) {offset count : Nat}
    (hheader : LibraryHeader.size ≤ offset) (hfits : offset + count ≤ image.length) :
    ∃ lib', clear offset count lib = .ok () lib' ∧
      Measured (Bytes.overlay image offset (Bytes.zeros count)) lib' ∧
      lib'.settings = lib.settings := by
  refine h.changeView_ok hheader (by rwa [Bytes.length_zeros]) ?_
  intro view hview
  refine ⟨view.overlay offset (.blank count), if_pos ?_, ?_⟩
  · rwa [Image.size_blank, ← Image.length_toList view, hview]
  · rw [Image.toList_overlay, Image.toList_blank, hview]

theorem toList_resize (h : Measured image lib) (size : Nat) :
    (lib.contents.resize size).toList
      = image.take size ++ Bytes.zeros (size - image.length) := by
  rw [Image.toList_resize, h.holding.contents_eq, h.holding.size_contents]

theorem expand_ok (h : Measured image lib) {size : Nat} (hmore : image.length < size)
    (hbig : size < Word.limit) :
    ∃ lib', expand size lib = .ok () lib' ∧
      Holding lib.settings (stamp (image ++ Bytes.zeros (size - image.length))) lib' := by
  obtain ⟨lib', hresize, hlib'⟩ :=
    resize_ok h.holding.calm (Nat.le_trans h.header (Nat.le_of_lt hmore)) hbig
  rw [h.toList_resize, List.take_of_length_le (Nat.le_of_lt hmore)] at hlib'
  refine ⟨lib', ?_, hlib'⟩
  rw [expand, Steps.bind_ok (Steps.consult_ok h.length_eq), if_neg (Nat.not_le.2 hmore)]
  exact hresize

theorem expand_refused (h : Measured image lib) {size : Nat} (hmore : image.length < size)
    (hbig : Word.limit ≤ size) : expand size lib = .error (.refused .tooLarge) lib := by
  rw [expand, Steps.bind_ok (Steps.consult_ok h.length_eq), if_neg (Nat.not_le.2 hmore)]
  exact resize_refused hbig

theorem expand_yields (h : Measured image lib) (size : Nat) :
    Yields (expand size) lib (image.length < size ∧ size < Word.limit)
      (stamp (image ++ Bytes.zeros (size - image.length))) := by
  constructor
  · rintro ⟨hmore, hbig⟩
    obtain ⟨lib', hexpand, hlib'⟩ := h.expand_ok hmore hbig
    have hlen : (image ++ Bytes.zeros (size - image.length)).length = size := by
      rw [List.length_append, Bytes.length_zeros]
      omega
    refine ⟨lib', hexpand, hlib'.measured ?_ (by rwa [hlen]), hlib'.settings_eq⟩
    rw [hlen]
    exact Nat.le_trans h.header (Nat.le_of_lt hmore)
  · intro hnot
    by_cases hmore : image.length < size
    · exact ⟨_, h.expand_refused hmore (Nat.le_of_not_lt fun hbig => hnot ⟨hmore, hbig⟩)⟩
    · rw [expand, Steps.bind_ok (Steps.consult_ok h.length_eq), if_pos (Nat.le_of_not_lt hmore)]
      exact ⟨_, rfl⟩

theorem truncate_yields (h : Measured image lib) (size : Nat) :
    Yields (truncate size) lib (LibraryHeader.size ≤ size ∧ size ≤ image.length)
      (stamp (image.take size)) := by
  constructor
  · rintro ⟨hheader, hsize⟩
    rw [truncate, Steps.bind_ok (Steps.consult_ok h.length_eq), if_neg (by omega)]
    by_cases hsame : size = image.length
    · rw [if_pos hsame, hsame, List.take_length, h.stamped.1]
      exact ⟨lib, rfl, h, rfl⟩
    have hbig : size < Word.limit := Nat.lt_of_le_of_lt hsize h.stamped.2
    obtain ⟨lib', hresize, hlib'⟩ := resize_ok h.holding.calm hheader hbig
    have hlen : (image.take size).length = size := by rw [List.length_take, Nat.min_eq_left hsize]
    have hcut : (lib.contents.resize size).toList = image.take size := by
      rw [h.toList_resize, Nat.sub_eq_zero_of_le hsize]
      exact List.append_nil _
    rw [hcut] at hlib'
    rw [if_neg hsame]
    exact ⟨lib', hresize, hlib'.measured (by rwa [hlen]) (by rwa [hlen]), hlib'.settings_eq⟩
  · intro hnot
    rw [truncate, Steps.bind_ok (Steps.consult_ok h.length_eq), if_pos (by omega)]
    exact ⟨_, rfl⟩

theorem excise_yields (h : Measured image lib) (start stop : Nat) :
    Yields (excise start stop) lib
      (LibraryHeader.size ≤ start ∧ start ≤ stop ∧ stop ≤ image.length)
      (stamp (image.take start ++ image.drop stop)) := by
  constructor
  · rintro ⟨hheader, hle, hstop⟩
    rw [excise, Steps.bind_ok (Steps.consult_ok h.length_eq), if_neg (by omega)]
    by_cases hsame : start = stop
    · rw [if_pos hsame, hsame, List.take_append_drop, h.stamped.1]
      exact ⟨lib, rfl, h, rfl⟩
    rw [if_neg hsame]
    obtain ⟨lib₁, hshift, h₁, hsettings⟩ := h.shift_ok hstop (Nat.le_refl _) (by omega) hheader
    rw [Bytes.slice_to_end] at h₁
    have hlen : (Bytes.overlay image start (image.drop stop)).length = image.length := by
      refine Bytes.length_overlay ?_
      rw [List.length_drop]
      omega
    obtain ⟨lib₂, htruncate, h₂, hsettings₂⟩ :=
      (h₁.truncate_yields (image.length - (stop - start))).done (by omega)
    rw [Bytes.take_overlay_drop hle hstop] at h₂
    exact ⟨lib₂, (Steps.bind_ok hshift).trans htruncate, h₂, hsettings₂.trans hsettings⟩
  · intro hnot
    rw [excise, Steps.bind_ok (Steps.consult_ok h.length_eq), if_pos (by omega)]
    exact ⟨_, rfl⟩

/-- The second half of an insertion: the library has been lengthened, what is behind `offset` moves up
to the new end, and the place is cleared. -/
theorem open_gap {more : Bytes} {offset : Nat} (h : Measured (stamp (image ++ more)) lib)
    (hheader : LibraryHeader.size ≤ offset) (hoffset : offset ≤ image.length) :
    ∃ lib', (shift offset image.length (offset + more.length) >>= fun _ =>
        clear offset more.length) lib = .ok () lib' ∧
      Measured (stamp (image.take offset ++ Bytes.zeros more.length ++ image.drop offset)) lib' ∧
      lib'.settings = lib.settings := by
  have hfield : LibraryHeader.lengthField.stop ≤ offset := Nat.le_trans (by decide) hheader
  have hwide : (image ++ more).length = image.length + more.length := List.length_append
  have hfits : offset + more.length + (image.drop offset).length ≤ (image ++ more).length := by
    rw [hwide, List.length_drop]
    omega
  have hlong : (stamp (image ++ more)).length = (image ++ more).length :=
    length_stamp (by omega)
  have hmoved : Bytes.slice (stamp (image ++ more)) offset (image.length - offset)
      = image.drop offset := by
    rw [Bytes.slice, drop_stamp (by omega) hfield, ← Bytes.slice,
      Bytes.slice_append_left _ (by omega), Bytes.slice_to_end]
  have htarget : offset + more.length + (image.length - offset)
      ≤ (stamp (image ++ more)).length := by omega
  obtain ⟨lib₁, hshift, h₁, hsettings₁⟩ := h.shift_ok hoffset (by omega) htarget (by omega)
  rw [hmoved, overlay_stamp (by omega) hfits] at h₁
  have hlen := Bytes.length_overlay hfits
  have hinside : offset + more.length ≤ (stamp (Bytes.overlay (image ++ more)
      (offset + more.length) (image.drop offset))).length := by
    rw [length_stamp (by omega), hlen]
    omega
  obtain ⟨lib₂, hclear, h₂, hsettings₂⟩ := h₁.clear_ok hheader hinside
  rw [overlay_stamp hfield (by rw [Bytes.length_zeros, hlen]; omega), Bytes.overlay_gap hoffset] at h₂
  exact ⟨lib₂, (Steps.bind_ok hshift).trans hclear, h₂, hsettings₂.trans hsettings₁⟩

theorem insertSpace_refused (h : Measured image lib) {offset count : Nat}
    (hheader : LibraryHeader.size ≤ offset) (hoffset : offset ≤ image.length) (hcount : count ≠ 0)
    (hbig : Word.limit ≤ image.length + count) :
    insertSpace offset count lib = .error (.refused .tooLarge) lib := by
  rw [insertSpace, Steps.bind_ok (Steps.consult_ok h.length_eq), if_neg (by omega), if_neg hcount]
  split
  · rfl
  · exact Steps.bind_error
      (h.expand_refused (Nat.lt_add_of_pos_right (Nat.pos_of_ne_zero hcount)) hbig)

theorem insertSpace_yields (h : Measured image lib) (offset count : Nat) :
    Yields (insertSpace offset count) lib
      (LibraryHeader.size ≤ offset ∧ offset ≤ image.length ∧
        (count = 0 ∨ image.length + count < Word.limit))
      (stamp (image.take offset ++ Bytes.zeros count ++ image.drop offset)) := by
  have hlimit : Word.limit < addressLimit := by decide
  constructor
  · rintro ⟨hheader, hoffset, hsmall⟩
    rw [insertSpace, Steps.bind_ok (Steps.consult_ok h.length_eq), if_neg (by omega)]
    by_cases hcount : count = 0
    · rw [if_pos hcount, hcount, Bytes.zeros, List.replicate_zero, List.append_nil,
        List.take_append_drop, h.stamped.1]
      exact ⟨lib, rfl, h, rfl⟩
    have hbig := hsmall.resolve_left hcount
    rw [if_neg hcount, if_neg (by omega)]
    obtain ⟨lib₁, hexpand, hwide⟩ :=
      h.expand_ok (Nat.lt_add_of_pos_right (Nat.pos_of_ne_zero hcount)) hbig
    rw [Nat.add_sub_cancel_left] at hwide
    have hlen : (image ++ Bytes.zeros count).length = image.length + count := by
      rw [List.length_append, Bytes.length_zeros]
    have hwide' := hwide.measured (by rw [hlen]; exact Nat.le_add_right_of_le h.header) (by rwa [hlen])
    obtain ⟨lib₂, hgap, h₂, hsettings⟩ := hwide'.open_gap hheader hoffset
    rw [Bytes.length_zeros] at hgap h₂
    exact ⟨lib₂, (Steps.bind_ok hexpand).trans hgap, h₂, hsettings.trans hwide.settings_eq⟩
  · intro hnot
    by_cases hplace : offset < LibraryHeader.size ∨ image.length < offset
    · rw [insertSpace, Steps.bind_ok (Steps.consult_ok h.length_eq), if_pos hplace]
      exact ⟨_, rfl⟩
    · exact ⟨_, h.insertSpace_refused (by omega) (by omega) (by omega) (by omega)⟩

section Inverse

variable {between : LibraryFile} {offset : Nat}

theorem length_gap (hoffset : offset ≤ image.length) (count : Nat) :
    (image.take offset ++ Bytes.zeros count ++ image.drop offset).length = image.length + count := by
  simp only [List.length_append, List.length_take, List.length_drop, Bytes.length_zeros]
  omega

theorem excise_insertSpace (h : Measured image lib) {count : Nat}
    (hop : insertSpace offset count lib = .ok () between) :
    Yields (excise offset (offset + count)) between True image := by
  have hinsert := h.insertSpace_yields offset count
  obtain ⟨hheader, hoffset, -⟩ := hinsert.possible_of_ok hop
  have hfield : LibraryHeader.lengthField.stop ≤ offset := Nat.le_trans (by decide) hheader
  have hlen := length_gap hoffset count
  have hstart : (image.take offset).length = offset := by
    rw [List.length_take, Nat.min_eq_left hoffset]
  have hback : (image.take offset ++ Bytes.zeros count).length = offset + count := by
    rw [List.length_append, hstart, Bytes.length_zeros]
  refine ((hinsert.ok hop).1.excise_yields offset (offset + count)).congr ?_ ?_
  · rw [length_stamp (by omega)]
    exact ⟨fun _ => by omega, fun _ => trivial⟩
  · rw [stamp_take_append (by omega) hfield, drop_stamp (by omega) (by omega),
      List.drop_left' hback, List.append_assoc, List.take_left' hstart, List.take_append_drop,
      h.stamped.1]

theorem truncate_expand (h : Measured image lib) {size : Nat}
    (hop : expand size lib = .ok () between) : Yields (truncate image.length) between True image := by
  have hexpand := h.expand_yields size
  have hstop := h.stop_le
  have hlong : image.length ≤ (image ++ Bytes.zeros (size - image.length)).length := by simp
  refine ((hexpand.ok hop).1.truncate_yields image.length).congr ?_ ?_
  · rw [length_stamp (Nat.le_trans hstop hlong)]
    exact ⟨fun _ => ⟨h.header, hlong⟩, fun _ => trivial⟩
  · have htake := stamp_take_append hlong hstop []
    rw [List.append_nil, List.append_nil, List.take_left] at htake
    rw [htake, h.stamped.1]

theorem insertSpace_insertSpace (h : Measured image lib) {first : Nat}
    (hop : insertSpace offset first lib = .ok () between) (second : Nat) :
    Yields (insertSpace offset second) between
      (LibraryHeader.size ≤ offset ∧ offset ≤ image.length ∧
        (first + second = 0 ∨ image.length + (first + second) < Word.limit))
      (stamp (image.take offset ++ Bytes.zeros (first + second) ++ image.drop offset)) := by
  have hinsert := h.insertSpace_yields offset first
  obtain ⟨hheader, hoffset, hsmall⟩ := hinsert.possible_of_ok hop
  have hfield : LibraryHeader.lengthField.stop ≤ offset := Nat.le_trans (by decide) hheader
  have hlen := length_gap hoffset first
  have hstart : (image.take offset).length = offset := by
    rw [List.length_take, Nat.min_eq_left hoffset]
  refine ((hinsert.ok hop).1.insertSpace_yields offset second).congr ?_ ?_
  · rw [length_stamp (by omega), hlen]
    omega
  · rw [List.append_assoc, stamp_take_append (by omega) hfield, drop_stamp (by omega) hfield,
      List.append_assoc (image.take offset), List.take_left' hstart, List.drop_left' hstart,
      Nat.add_comm, Bytes.zeros_add]
    simp only [List.append_assoc]

end Inverse

/-- The operations on a library's size are splices of its bytes, done whenever the range lies behind
the header and within the library and the new length can be stored. Taking out what was inserted, or
cutting off what was appended, gives the same bytes again, and two insertions at one place are one. -/
theorem splices (h : Measured image lib) :
    (∀ offset count, Yields (insertSpace offset count) lib
      (LibraryHeader.size ≤ offset ∧ offset ≤ image.length ∧
        (count = 0 ∨ image.length + count < Word.limit))
      (stamp (image.take offset ++ Bytes.zeros count ++ image.drop offset))) ∧
    (∀ start stop, Yields (excise start stop) lib
      (LibraryHeader.size ≤ start ∧ start ≤ stop ∧ stop ≤ image.length)
      (stamp (image.take start ++ image.drop stop))) ∧
    (∀ size, Yields (expand size) lib (image.length < size ∧ size < Word.limit)
      (stamp (image ++ Bytes.zeros (size - image.length)))) ∧
    (∀ size, Yields (truncate size) lib (LibraryHeader.size ≤ size ∧ size ≤ image.length)
      (stamp (image.take size))) ∧
    (∀ offset count between, insertSpace offset count lib = .ok () between →
      Yields (excise offset (offset + count)) between True image) ∧
    (∀ size between, expand size lib = .ok () between →
      Yields (truncate image.length) between True image) ∧
    (∀ offset first second between, insertSpace offset first lib = .ok () between →
      Yields (insertSpace offset second) between
        (LibraryHeader.size ≤ offset ∧ offset ≤ image.length ∧
          (first + second = 0 ∨ image.length + (first + second) < Word.limit))
        (stamp (image.take offset ++ Bytes.zeros (first + second) ++ image.drop offset))) :=
  ⟨h.insertSpace_yields, h.excise_yields, h.expand_yields, h.truncate_yields,
    fun _ _ _ hop => h.excise_insertSpace hop, fun _ _ hop => h.truncate_expand hop,
    fun _ _ second _ hop => h.insertSpace_insertSpace hop second⟩

/-- The header of a library without playlists, whose name and prefix are empty. -/
def loneHeader : Bytes :=
  Word.listToBytes [LibraryHeader.magicNumber, 0, LibraryHeader.size]
    ++ Bytes.zeros (LibraryHeader.nameField.width + LibraryHeader.mediaPrefixField.width)

theorem length_loneHeader : loneHeader.length = LibraryHeader.size := by
  rw [loneHeader, List.length_append, Bytes.length_zeros]
  rfl

theorem stamp_loneHeader : stamp loneHeader = loneHeader := by
  have hstamp := stamp_pieces
    (Bytes.zeros (LibraryHeader.nameField.width + LibraryHeader.mediaPrefixField.width))
    (rfl : (Word.listToBytes [LibraryHeader.magicNumber, 0]).length = _)
    (Word.length_toBytes LibraryHeader.size)
  rwa [Bytes.length_zeros] at hstamp

def loneLibrary : LibraryFile where
  path := "m"
  settings := .default
  contents := .ofBytes loneHeader
  mapped := some LibraryHeader.size

theorem measured_loneLibrary : Measured loneHeader loneLibrary := by
  have hholding : Holding .default loneHeader loneLibrary :=
    ⟨rfl, Image.toList_ofBytes _, by rw [length_loneHeader]; rfl, rfl⟩
  rw [← stamp_loneHeader] at hholding ⊢
  refine hholding.measured (Nat.le_of_eq length_loneHeader.symm) ?_
  rw [length_loneHeader]
  decide

/-- Bytes are inserted, and appended, and those that were appended are cut off again. -/
theorem splices_lone : Measured loneHeader loneLibrary ∧ ∃ lib₁ lib₂ lib₃,
    insertSpace LibraryHeader.size 4 loneLibrary = .ok () lib₁ ∧
    expand (LibraryHeader.size + 6) lib₁ = .ok () lib₂ ∧
    truncate (LibraryHeader.size + 4) lib₂ = .ok () lib₃ ∧
    Measured (stamp (loneHeader ++ Bytes.zeros 4)) lib₃ := by
  have hlone := measured_loneLibrary
  obtain ⟨hinsert, -⟩ := splices hlone
  obtain ⟨lib₁, hfirst, h₁, -⟩ := (hinsert LibraryHeader.size 4).done
    ⟨Nat.le_refl _, Nat.le_of_eq length_loneHeader.symm, .inr (by rw [length_loneHeader]; decide)⟩
  rw [← length_loneHeader, List.take_length, List.drop_length, List.append_nil] at h₁
  have hlen : (stamp (loneHeader ++ Bytes.zeros 4)).length = LibraryHeader.size + 4 := by
    rw [length_stamp] <;> rw [List.length_append, Bytes.length_zeros, length_loneHeader]
    decide
  obtain ⟨-, -, hexpand, -, -, hundo, -⟩ := splices h₁
  obtain ⟨lib₂, hsecond, -, -⟩ := (hexpand (LibraryHeader.size + 6)).done
    ⟨by rw [hlen]; omega, by decide⟩
  obtain ⟨lib₃, hthird, h₃, -⟩ := (hundo _ _ hsecond).done trivial
  rw [hlen] at hthird
  exact ⟨hlone, lib₁, lib₂, lib₃, hfirst, hsecond, hthird, h₃⟩

end Measured
end MediaLibrary.LibraryFile
