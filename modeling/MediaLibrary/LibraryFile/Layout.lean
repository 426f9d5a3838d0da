import MediaLibrary.Bytes.Field
import MediaLibrary.StringTable.Basic
/-! Where things are in a library file: a header, then playlist records end to end. A record is a
header of its own and a string table of paths that fills the rest of it. -/
namespace MediaLibrary

/-- The header at the start of a library file. -/
structure LibraryHeader where
  magic : Nat
  mediaCount : Nat
  length : Nat
  name : Bytes
  mediaPrefix : Bytes
  deriving DecidableEq, Repr

namespace LibraryHeader

def magicNumber : Nat := 0x4d4c4942

/-- Bytes of the header. The records begin here. -/
def size : Nat := 1024

def magicField : WordField := ⟨0⟩
def mediaCountField : WordField := ⟨4⟩
def lengthField : WordField := ⟨8⟩
def nameField : NameField := ⟨12, 116⟩
def mediaPrefixField : NameField := ⟨128, 896⟩

def encode (h : LibraryHeader) : Bytes :=
  Word.listToBytes [h.magic, h.mediaCount, h.length]
    ++ nameField.padded h.name ++ mediaPrefixField.padded h.mediaPrefix

end LibraryHeader

/-- The header at the start of a playlist record. -/
structure PlaylistHeader where
  magic : Nat
  length : Nat
  count : Nat
  name : Bytes
  deriving DecidableEq, Repr

namespace PlaylistHeader

def magicNumber : Nat := 0x504c4953

/-- Bytes of the header. The table begins here. -/
def size : Nat := 128

def magicField : WordField := ⟨0⟩
def lengthField : WordField := ⟨4⟩
def countField : WordField := ⟨8⟩
def nameField : NameField := ⟨12, 116⟩

/-- Bytes of the smallest record, which has an empty table without room. -/
def minRecord : Nat := size + StringTable.headerSize

/-- There is a header wherever there are 128 bytes. -/
def decode? (bytes : Bytes) : Option PlaylistHeader := do
  let magic ← magicField.get? bytes
  let length ← lengthField.get? bytes
  let count ← countField.get? bytes
  let name ← nameField.get? bytes
  some ⟨magic, length, count, name⟩

def encode (h : PlaylistHeader) : Bytes :=
  Word.listToBytes [h.magic, h.length, h.count] ++ nameField.padded h.name

end PlaylistHeader
end MediaLibrary
