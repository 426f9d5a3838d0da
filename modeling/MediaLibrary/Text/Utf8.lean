import MediaLibrary.Bytes.Basic
/-! Text as bytes. Reading is strict or lossy: the lossy reading puts one replacement character for
each maximal run of bytes that begins a character and does not complete it, and for each byte that
begins none. -/
namespace MediaLibrary.Text

def bytes (text : String) : Bytes := text.toUTF8.data.toList

def ofBytes? (bytes : Bytes) : Option String :=
  String.fromUTF8? ⟨bytes.toArray⟩

/-- What the first byte of a multi-byte character announces: the continuation bytes after it, the
bits it contributes itself, and the range of the next byte. The range is narrower than that of
other continuation bytes where it would allow an overlong form, a surrogate or a number past
`0x10FFFF`. -/
structure Lead where
  continuations : Nat
  bits : Nat
  low : UInt8
  high : UInt8

def Lead.of? (b : UInt8) : Option Lead :=
  if b < 0xC2 then none
  else if b < 0xE0 then some ⟨1, b.toNat - 0xC0, 0x80, 0xBF⟩
  else if b = 0xE0 then some ⟨2, 0, 0xA0, 0xBF⟩
  else if b = 0xED then some ⟨2, 0xD, 0x80, 0x9F⟩
  else if b < 0xF0 then some ⟨2, b.toNat - 0xE0, 0x80, 0xBF⟩
  else if b = 0xF0 then some ⟨3, 0, 0x90, 0xBF⟩
  else if b < 0xF4 then some ⟨3, b.toNat - 0xF0, 0x80, 0xBF⟩
  else if b = 0xF4 then some ⟨3, 4, 0x80, 0x8F⟩
  else none

def replacement : Char := '\ufffd'

/-- Continues a character with `count` more bytes, the next of them between `low` and `high`, and
gives the bytes after it. -/
def continueChar : (count bits : Nat) → (low high : UInt8) → Bytes → Char × Bytes
  | 0, bits, _, _, rest => (Char.ofNat bits, rest)
  | _ + 1, _, _, _, [] => (replacement, [])
  | count + 1, bits, low, high, b :: rest =>
    if low ≤ b ∧ b ≤ high then
      continueChar count (bits * 64 + (b.toNat - 0x80)) 0x80 0xBF rest
    else (replacement, b :: rest)

theorem length_continueChar_le (count bits : Nat) (low high : UInt8) (rest : Bytes) :
    (continueChar count bits low high rest).2.length ≤ rest.length := by
  fun_induction continueChar count bits low high rest with
  | case1 => simp
  | case2 => simp
  | case3 count bits low high b rest _ ih => simp; omega
  | case4 => simp

/-- The characters of `bytes`, the ill-formed parts replaced. -/
def lossyChars : Bytes → List Char
  | [] => []
  | b :: rest =>
    if b < 0x80 then Char.ofNat b.toNat :: lossyChars rest
    else match Lead.of? b with
      | none => replacement :: lossyChars rest
      | some lead =>
        have := length_continueChar_le lead.continuations lead.bits lead.low lead.high rest
        let next := continueChar lead.continuations lead.bits lead.low lead.high rest
        next.1 :: lossyChars next.2
termination_by bytes => bytes.length

def lossy (bytes : Bytes) : String := String.ofList (lossyChars bytes)

end MediaLibrary.Text
