import MediaLibrary.StringTable.Edit
/-! String tables inside a larger image. An operation changes the table's own bytes and no others;
an offset past the image is a fault. -/
namespace MediaLibrary.StringTable

def openAt (image : Image) (base : Nat) : Except (Failure TableError) StringTable :=
  if image.size < base then .error (.fault .outOfBounds)
  else Failure.ofCheck .corrupt (decode (image.drop base))

/-- Lays an empty table of `capacity` bytes over those from `base` on. -/
def formatAt (image : Image) (base capacity : Nat) :
    Except (Failure TableError) (Header × Image) := do
  if image.size < base then .error (.fault .outOfBounds)
  else
    let header ← Failure.ofCheck id (format (image.size - base) capacity)
    .ok (header, image.overlay base (.ofBytes header.encode))

def removeAt (image : Image) (base : Nat) (value : Bytes) :
    Except (Failure TableError) (Bool × Image) := do
  let t ← openAt image base
  match ← (t.remove value).mapError (Failure.map .corrupt) with
  | none => .ok (false, image)
  | some rest => .ok (true, image.overlay base rest.encode)

def sortAt (image : Image) (base : Nat) : Except (Failure TableError) Image := do
  let t ← openAt image base
  .ok (image.overlay base t.sort.encode)

end MediaLibrary.StringTable
