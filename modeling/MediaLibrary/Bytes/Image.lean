import MediaLibrary.Bytes.Run
/-! Images: the contents of a file, or of a part of one. Long stretches of zero bytes are counted
and not stored, so that an image costs what was written to it and not what it spans. `toList` is the
view: each operation says what it does to the bytes. -/
namespace MediaLibrary

structure Image where
  runs : List Run
  deriving DecidableEq, Repr

namespace Image

def toList (image : Image) : Bytes := Run.bytesOf image.runs

def ofBytes (bytes : Bytes) : Image := ⟨[.stored bytes.toArray]⟩

def blank (count : Nat) : Image := ⟨[.zeros count]⟩

def size (image : Image) : Nat := Run.totalSize image.runs

def slice (image : Image) (offset count : Nat) : Image := ⟨Run.sliceAll image.runs offset count⟩

def take (image : Image) (count : Nat) : Image := image.slice 0 count

def drop (image : Image) (count : Nat) : Image := ⟨Run.dropAll image.runs count⟩

def append (first second : Image) : Image := ⟨first.runs.foldr Run.prepend second.runs⟩

instance : Append Image := ⟨append⟩

def read (image : Image) (offset count : Nat) : Bytes := (image.slice offset count).toList

/-- Cuts the image to `count` bytes, or lengthens it with zero bytes. -/
def resize (image : Image) (count : Nat) : Image :=
  image.take count ++ blank (count - image.size)

/-- Lays `new` over the bytes from `offset` on. -/
def overlay (image : Image) (offset : Nat) (new : Image) : Image :=
  image.take offset ++ new ++ image.drop (offset + new.size)

/-- The bytes from `offset` up to the first zero byte, if there is one. -/
def upToZero? (image : Image) (offset : Nat) : Option Bytes := Run.upToZero? image.runs offset

@[simp] theorem length_toList (image : Image) : image.toList.length = image.size :=
  Run.length_bytesOf image.runs

@[simp] theorem toList_ofBytes (bytes : Bytes) : (ofBytes bytes).toList = bytes := by
  simp [toList, ofBytes, Run.toList]

@[simp] theorem size_ofBytes (bytes : Bytes) : (ofBytes bytes).size = bytes.length := by
  rw [← length_toList, toList_ofBytes]

@[simp] theorem toList_blank (count : Nat) : (blank count).toList = Bytes.zeros count := by
  simp [toList, blank, Run.toList]

@[simp] theorem size_blank (count : Nat) : (blank count).size = count := by
  simp [size, blank, Run.totalSize, Run.size]

@[simp] theorem toList_slice (image : Image) (offset count : Nat) :
    (image.slice offset count).toList = Bytes.slice image.toList offset count :=
  Run.bytesOf_sliceAll image.runs offset count

@[simp] theorem toList_take (image : Image) (count : Nat) :
    (image.take count).toList = image.toList.take count := by
  simp [take, Bytes.slice]

@[simp] theorem toList_drop (image : Image) (count : Nat) :
    (image.drop count).toList = image.toList.drop count :=
  Run.bytesOf_dropAll image.runs count

@[simp] theorem toList_append (first second : Image) :
    (first ++ second).toList = first.toList ++ second.toList := by
  obtain ⟨runs⟩ := first
  show Run.bytesOf (runs.foldr Run.prepend second.runs) = Run.bytesOf runs ++ second.toList
  induction runs with
  | nil => rfl
  | cons run rest ih => simp [ih]

@[simp] theorem size_append (first second : Image) :
    (first ++ second).size = first.size + second.size := by
  simp [← length_toList]

@[simp] theorem toList_read (image : Image) (offset count : Nat) :
    image.read offset count = Bytes.slice image.toList offset count := by
  simp [read]

theorem toList_resize (image : Image) (count : Nat) :
    (image.resize count).toList
      = image.toList.take count ++ Bytes.zeros (count - image.size) := by
  simp [resize]

@[simp] theorem size_resize (image : Image) (count : Nat) :
    (image.resize count).size = count := by
  rw [← length_toList, toList_resize]
  simp [Bytes.zeros]
  omega

theorem toList_overlay (image : Image) (offset : Nat) (new : Image) :
    (image.overlay offset new).toList = Bytes.overlay image.toList offset new.toList := by
  simp [overlay, Bytes.overlay]

theorem upToZero?_eq (image : Image) (offset : Nat) :
    image.upToZero? offset
      = if 0 ∈ image.toList.drop offset then some (Bytes.untilZero (image.toList.drop offset))
        else none :=
  Run.upToZero?_eq image.runs offset

end Image
end MediaLibrary
