import MediaLibrary.LibraryFile.Lifecycle
import MediaLibrary.Proofs.LibraryFile.Geometry
/-! A library file as a header and a body. The operations on a library's size and on the bytes behind
its header are operations on the body; each either is done, with the length in the header following
the body, or is refused with nothing changed. -/
namespace MediaLibrary.LibraryFile

structure Volume where
  mediaCount : Nat
  /-- The fields of the header for the name and the media prefix. -/
  fields : Bytes
  /-- What follows the header. -/
  body : Bytes
  deriving DecidableEq, Repr

namespace Volume

def length (v : Volume) : Nat := LibraryHeader.size + v.body.length

def header (v : Volume) : Bytes :=
  Word.listToBytes [LibraryHeader.magicNumber, v.mediaCount, v.length] ++ v.fields

def encode (v : Volume) : Bytes := v.header ++ v.body

theorem overlay_mediaCount (v : Volume) (n : Nat) :
    Bytes.overlay v.encode LibraryHeader.mediaCountField.offset (Word.toBytes n)
      = encode { v with mediaCount := n } := by
  have := Bytes.overlay_middle (Word.toBytes LibraryHeader.magicNumber)
    (Word.toBytes v.mediaCount) (Word.toBytes v.length ++ v.fields ++ v.body) (Word.toBytes n) rfl
  simpa [encode, header, Word.listToBytes, length, LibraryHeader.mediaCountField, Word.size]
    using this

theorem slice_fields (v : Volume) (rest : Bytes) {offset count : Nat}
    (h : offset + count ≤ v.fields.length) :
    Bytes.slice (v.header ++ rest) (12 + offset) count = Bytes.slice v.fields offset count := by
  have hwords : (Word.listToBytes [LibraryHeader.magicNumber, v.mediaCount, v.length]).length = 12 :=
    rfl
  rw [header, List.append_assoc, ← hwords, Bytes.slice_append_right,
    Bytes.slice_append_left _ h]

/-- The fields have their widths, and the numbers can be stored. -/
structure Sized (v : Volume) : Prop where
  fields : v.fields.length = LibraryHeader.nameField.width + LibraryHeader.mediaPrefixField.width
  counted : v.mediaCount < Word.limit
  below : v.length < Word.limit

namespace Sized

variable {v : Volume}

theorem length_header (h : v.Sized) : v.header.length = LibraryHeader.size := by
  rw [header, List.length_append, h.fields]
  rfl

theorem length_encode (h : v.Sized) : v.encode.length = v.length := by
  rw [encode, List.length_append, h.length_header, length]

theorem stamp_header (h : v.Sized) (body : Bytes) :
    stamp (v.header ++ body) = encode { v with body } := by
  have hstamp := Bytes.overlay_middle
    (Word.toBytes LibraryHeader.magicNumber ++ Word.toBytes v.mediaCount) (Word.toBytes v.length)
    (v.fields ++ body) (Word.toBytes (LibraryHeader.size + body.length)) rfl
  rw [stamp, List.length_append, h.length_header]
  simpa [encode, header, Word.listToBytes, length, LibraryHeader.lengthField, Word.size]
    using hstamp

theorem stamp_append (h : v.Sized) (more : Bytes) :
    stamp (v.encode ++ more) = encode { v with body := v.body ++ more } := by
  have hbody : v.encode ++ more = v.header ++ (v.body ++ more) := List.append_assoc _ _ _
  rw [hbody, h.stamp_header]

theorem setBody (h : v.Sized) {body : Bytes} (hb : LibraryHeader.size + body.length < Word.limit) :
    Sized { v with body } := ⟨h.fields, h.counted, hb⟩

theorem setMediaCount (h : v.Sized) {n : Nat} (hn : n < Word.limit) :
    Sized { v with mediaCount := n } := ⟨h.fields, hn, h.below⟩

theorem overlay_body (h : v.Sized) {offset : Nat} {new : Bytes}
    (hfits : offset + new.length ≤ v.body.length) :
    Bytes.overlay v.encode (LibraryHeader.size + offset) new
      = encode { v with body := Bytes.overlay v.body offset new } := by
  rw [encode, ← h.length_header, Bytes.overlay_append_right, encode, header, header, length, length,
    Bytes.length_overlay hfits]

end Sized
end Volume

/-- The library holds a header and a body, and nothing else. -/
structure Keeps (settings : Settings) (v : Volume) (lib : LibraryFile) : Prop where
  holding : Holding settings v.encode lib
  sized : v.Sized

namespace Keeps

variable {settings : Settings} {v : Volume} {lib : LibraryFile}

theorem of_encode (hv : v.Sized) (path : String) (settings : Settings) :
    Keeps settings v ⟨path, settings, .ofBytes v.encode, some v.length, .calm⟩ := by
  refine ⟨⟨rfl, Image.toList_ofBytes _, ?_, rfl⟩, hv⟩
  rw [hv.length_encode]

theorem word_at (h : Keeps settings v lib) (before after : Bytes) {n : Nat} (hn : n < Word.limit)
    (hsplit : v.encode = before ++ Word.toBytes n ++ after) : lib.word before.length = .ok n := by
  obtain ⟨view, hview, hbytes⟩ := h.holding.view_eq
  exact word_of_view hview before after hn (hbytes.trans hsplit)

theorem magic_eq (h : Keeps settings v lib) :
    lib.word LibraryHeader.magicField.offset = .ok LibraryHeader.magicNumber :=
  h.word_at [] (Word.listToBytes [v.mediaCount, v.length] ++ v.fields ++ v.body) (by decide)
    (by simp [Volume.encode, Volume.header, Word.listToBytes])

theorem mediaCount_eq (h : Keeps settings v lib) : lib.mediaCount = .ok v.mediaCount :=
  h.word_at (Word.toBytes LibraryHeader.magicNumber)
    (Word.toBytes v.length ++ v.fields ++ v.body) h.sized.counted
    (by simp [Volume.encode, Volume.header, Word.listToBytes])

theorem length_eq (h : Keeps settings v lib) : lib.length = .ok v.length :=
  h.word_at (Word.toBytes LibraryHeader.magicNumber ++ Word.toBytes v.mediaCount)
    (v.fields ++ v.body) h.sized.below
    (by simp [Volume.encode, Volume.header, Word.listToBytes])

theorem word_body (h : Keeps settings v lib) (before after : Bytes) {n : Nat} (hn : n < Word.limit)
    (hsplit : v.body = before ++ Word.toBytes n ++ after) :
    lib.word (LibraryHeader.size + before.length) = .ok n := by
  have := h.word_at (v.header ++ before) after hn
    (by simp [Volume.encode, hsplit])
  rwa [List.length_append, h.sized.length_header] at this

theorem put_ok (h : Keeps settings v lib) (offset : Nat) (new : Image)
    (hfits : offset + new.size ≤ v.body.length) :
    ∃ lib', put (LibraryHeader.size + offset) new lib = .ok () lib' ∧
      Keeps settings { v with body := Bytes.overlay v.body offset new.toList } lib' := by
  have hlen : LibraryHeader.size + offset + new.size ≤ v.encode.length := by
    rw [h.sized.length_encode, Volume.length]
    omega
  have hbody : offset + new.toList.length ≤ v.body.length := by simpa using hfits
  obtain ⟨lib', hput, hlib'⟩ := h.holding.put_ok hlen
  rw [h.sized.overlay_body hbody] at hlib'
  refine ⟨lib', hput, hlib', h.sized.setBody ?_⟩
  rw [Bytes.length_overlay hbody]
  exact h.sized.below

theorem putMediaCount_ok (h : Keeps settings v lib) {n : Nat} (hn : n < Word.limit) :
    ∃ lib', putMediaCount n lib = .ok () lib' ∧
      Keeps settings { v with mediaCount := n } lib' := by
  have hfits : LibraryHeader.mediaCountField.offset + (Image.ofBytes (Word.toBytes n)).size
      ≤ v.encode.length := by
    rw [h.sized.length_encode, Volume.length, Image.size_ofBytes, Word.length_toBytes]
    simp only [LibraryHeader.mediaCountField, LibraryHeader.size, Word.size]
    omega
  obtain ⟨lib', hput, hlib'⟩ := h.holding.put_ok hfits
  rw [Image.toList_ofBytes, Volume.overlay_mediaCount] at hlib'
  exact ⟨lib', hput, hlib', h.sized.setMediaCount hn⟩

theorem toList_resize (h : Keeps settings v lib) (size : Nat) :
    (lib.contents.resize (LibraryHeader.size + size)).toList
      = v.header ++ (v.body.take size ++ Bytes.zeros (size - v.body.length)) := by
  rw [Image.toList_resize, h.holding.contents_eq, h.holding.size_contents, h.sized.length_encode,
    Volume.length, Nat.add_sub_add_left, Volume.encode, ← h.sized.length_header,
    List.take_length_add_append, List.append_assoc]

theorem resize_ok (h : Keeps settings v lib) (size : Nat)
    (hsize : size < Word.limit - LibraryHeader.size) :
    ∃ lib', resize (LibraryHeader.size + size) lib = .ok () lib' ∧
      Keeps settings { v with body := v.body.take size ++ Bytes.zeros (size - v.body.length) } lib' := by
  obtain ⟨lib', hresize, hlib'⟩ :=
    LibraryFile.resize_ok h.holding.calm (Nat.le_add_right _ size) (by omega)
  rw [h.toList_resize, h.sized.stamp_header, h.holding.settings_eq] at hlib'
  refine ⟨lib', hresize, hlib', h.sized.setBody ?_⟩
  simp only [List.length_append, List.length_take, Bytes.length_zeros]
  omega

theorem measured (h : Keeps settings v lib) : Measured v.encode lib := by
  refine ⟨h.holding.settings_eq ▸ h.holding, ?_, ?_⟩
  · rw [h.sized.length_encode]
    exact Nat.le_add_right _ _
  · rw [h.sized.length_encode]
    exact h.length_eq

theorem of_yields {op : Update Unit} {possible : Prop} {image body : Bytes} (h : Keeps settings v lib)
    (hop : Yields op lib possible image) (himage : image = stamp (v.header ++ body))
    (hpossible : possible) :
    ∃ lib', op lib = .ok () lib' ∧ Keeps settings { v with body } lib' := by
  obtain ⟨lib', hdone, hmeasured, hsettings⟩ := hop.done hpossible
  have hheader : (v.header ++ body).length = LibraryHeader.size + body.length := by
    rw [List.length_append, h.sized.length_header]
  have hlen : image.length = LibraryHeader.size + body.length := by
    rw [himage, length_stamp, hheader]
    rw [hheader]
    exact Nat.le_add_right_of_le (by decide)
  have hbelow := hmeasured.stamped.2
  have hholding := hmeasured.holding
  rw [hsettings, h.holding.settings_eq, himage, h.sized.stamp_header] at hholding
  exact ⟨lib', hdone, hholding, h.sized.setBody (by rwa [← hlen])⟩

theorem expand_ok (h : Keeps settings v lib) {count : Nat} (hcount : 0 < count)
    (hsize : v.length + count < Word.limit) :
    ∃ lib', expand (v.length + count) lib = .ok () lib' ∧
      Keeps settings { v with body := v.body ++ Bytes.zeros count } lib' := by
  refine h.of_yields (h.measured.expand_yields _) ?_ ?_
  · rw [h.sized.length_encode, Nat.add_sub_cancel_left, Volume.encode, List.append_assoc]
  · rw [h.sized.length_encode]
    exact ⟨Nat.lt_add_of_pos_right hcount, hsize⟩

theorem expand_refused (h : Keeps settings v lib) {count : Nat}
    (hsize : Word.limit ≤ v.length + count) :
    expand (v.length + count) lib = .error (.refused .tooLarge) lib := by
  have hbelow := h.sized.below
  refine h.measured.expand_refused ?_ hsize
  rw [h.sized.length_encode]
  omega

theorem excise_ok (h : Keeps settings v lib) (start stop : Nat) (hle : start ≤ stop)
    (hstop : stop ≤ v.body.length) :
    ∃ lib', excise (LibraryHeader.size + start) (LibraryHeader.size + stop) lib = .ok () lib' ∧
      Keeps settings { v with body := v.body.take start ++ v.body.drop stop } lib' := by
  refine h.of_yields (h.measured.excise_yields _ _) ?_ ?_
  · rw [Volume.encode, ← h.sized.length_header, List.take_length_add_append,
      List.drop_length_add_append, List.append_assoc]
  · rw [h.sized.length_encode, Volume.length]
    omega

theorem insertSpace_ok (h : Keeps settings v lib) {offset count : Nat}
    (hoffset : offset ≤ v.body.length) (hsize : v.length + count < Word.limit) :
    ∃ lib', insertSpace (LibraryHeader.size + offset) count lib = .ok () lib' ∧
      Keeps settings
        { v with body := v.body.take offset ++ Bytes.zeros count ++ v.body.drop offset } lib' := by
  refine h.of_yields (h.measured.insertSpace_yields _ _) ?_ ?_
  · rw [Volume.encode, ← h.sized.length_header, List.take_length_add_append,
      List.drop_length_add_append, List.append_assoc, List.append_assoc, List.append_assoc]
  · rw [h.sized.length_encode, Volume.length] at *
    omega

theorem insertSpace_refused (h : Keeps settings v lib) {offset count : Nat}
    (hoffset : offset ≤ v.body.length) (hsize : Word.limit ≤ v.length + count) :
    insertSpace (LibraryHeader.size + offset) count lib = .error (.refused .tooLarge) lib := by
  have hbelow := h.sized.below
  have hlen := h.sized.length_encode
  unfold Volume.length at hbelow hsize hlen
  exact h.measured.insertSpace_refused (by omega) (by omega) (by omega) (by omega)

end Keeps
end MediaLibrary.LibraryFile
