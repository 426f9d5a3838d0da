import MediaLibrary.Bytes.Field
import MediaLibrary.Bytes.Image
import MediaLibrary.StringTable.Error
/-! A table of strings that keeps them sorted and can be moved by copying its bytes. The bytes are a
header of four numbers, the strings in the order of their arrival, free bytes, and an index with one
slot per string. A slot holds the offset of its string in the string area, and the slots are in
ascending order of the strings. `decode` accepts whatever has a consistent header; what the slots
point at is checked when they are followed. -/
namespace MediaLibrary

structure StringTable where
  /-- The strings, each followed by a zero byte. -/
  strings : Image
  free : Image
  /-- The slots, as stored numbers. -/
  index : Image
  deriving DecidableEq, Repr

namespace StringTable

def magic : Nat := 0x12344321

def headerSize : Nat := 16

def slotSize : Nat := Word.size

/-- The growth step used where none is chosen. -/
def defaultQuantum : Nat := 128

def magicField : WordField := ⟨0⟩
def lengthField : WordField := ⟨4⟩
def indexOffsetField : WordField := ⟨8⟩
def stringBytesField : WordField := ⟨12⟩

structure Header where
  magic : Nat
  length : Nat
  indexOffset : Nat
  stringBytes : Nat
  deriving DecidableEq, Repr

/-- There is a header wherever there are 16 bytes. -/
def Header.decode? (bytes : Bytes) : Option Header := do
  let magic ← magicField.get? bytes
  let length ← lengthField.get? bytes
  let indexOffset ← indexOffsetField.get? bytes
  let stringBytes ← stringBytesField.get? bytes
  some ⟨magic, length, indexOffset, stringBytes⟩

def Header.entries (h : Header) : Nat := (h.length - h.indexOffset) / slotSize

def Header.encode (h : Header) : Bytes :=
  Word.listToBytes [h.magic, h.length, h.indexOffset, h.stringBytes]

def entries (t : StringTable) : Nat := t.index.size / slotSize

def slotAt (t : StringTable) (n : Nat) : Nat :=
  Word.ofBytes (t.index.read (slotSize * n) slotSize)

def slots (t : StringTable) : List Nat := (List.range t.entries).map t.slotAt

/-- The index that holds `slots`. -/
def indexOf (slots : List Nat) : Image := .ofBytes (Word.listToBytes slots)

def indexOffset (t : StringTable) : Nat :=
  headerSize + t.strings.size + t.free.size

def length (t : StringTable) : Nat :=
  t.indexOffset + t.index.size

def header (t : StringTable) : Header :=
  ⟨magic, t.length, t.indexOffset, t.strings.size⟩

def encode (t : StringTable) : Image :=
  .ofBytes t.header.encode ++ t.strings ++ t.free ++ t.index

/-- The table at the start of `image`. What follows it is ignored. -/
def decode (image : Image) : Except TableDamage StringTable :=
  match Header.decode? (image.read 0 headerSize) with
  | none => .error (.headerTooShort image.size)
  | some h =>
    if h.magic ≠ magic then .error (.badMagic h.magic)
    else if image.size < h.length then .error (.lengthOverrun h.length image.size)
    else if h.length < h.indexOffset ∨ h.indexOffset < headerSize + h.stringBytes then
      .error (.badIndexOffset h.indexOffset h.length h.stringBytes)
    else if (h.length - h.indexOffset) % slotSize ≠ 0 then .error .raggedIndex
    else .ok
      { strings := image.slice headerSize h.stringBytes
        free := image.slice (headerSize + h.stringBytes)
          (h.indexOffset - (headerSize + h.stringBytes))
        index := image.slice h.indexOffset (h.length - h.indexOffset) }

/-- The header of an empty table of `capacity` bytes, to be laid over the first of `available`
bytes. The bytes after it become the free ones as they are. -/
def format (available capacity : Nat) : Except TableError Header :=
  if capacity < headerSize then .error (.tooSmall capacity)
  else if available < capacity then .error (.corrupt (.bufferTooSmall available capacity))
  else if Word.limit ≤ capacity then .error .overflow
  else .ok ⟨magic, capacity, capacity, 0⟩

/-- Free bytes that a string of `size` bytes takes up: itself, its zero byte and its slot. -/
def roomFor (size : Nat) : Nat := size + 1 + slotSize

def hasRoomFor (t : StringTable) (value : Bytes) : Bool :=
  roomFor value.length ≤ t.free.size

def isEmpty (t : StringTable) : Bool := t.entries = 0

def describe (t : StringTable) : String :=
  s!"Bucket \x7b length: {t.length}, index_offs: {t.indexOffset}, str_bytes: {t.strings.size}, "
    ++ s!"entries: {t.entries} \x7d"

@[simp] theorem length_slots (t : StringTable) : t.slots.length = t.entries := by
  simp [slots]

theorem getElem?_slots (t : StringTable) (n : Nat) :
    t.slots[n]? = if n < t.entries then some (t.slotAt n) else none := by
  unfold slots
  split <;> simp_all

/-- Slots are read back as far as stored numbers go. -/
theorem slots_indexOf (strings free : Image) (slots : List Nat) :
    (StringTable.mk strings free (indexOf slots)).slots = slots.map (· % Word.limit) := by
  have hentries : (StringTable.mk strings free (indexOf slots)).entries = slots.length := by
    simp [entries, indexOf, slotSize, Word.size, Word.length_listToBytes]
  apply List.ext_getElem?
  intro n
  rw [getElem?_slots, hentries, List.getElem?_map]
  split
  · rename_i h
    simp [slotAt, indexOf, slotSize, Word.slice_listToBytes h, Word.ofBytes_toBytes, h]
  · rename_i h
    simp [List.getElem?_eq_none (Nat.le_of_not_lt h)]

end StringTable
end MediaLibrary
