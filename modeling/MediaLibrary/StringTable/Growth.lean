import MediaLibrary.StringTable.Edit
/-! Adding to a string table that lies inside larger storage. If the table is full, the storage is
asked to open space in front of the slots, one growth step at a time. Steps already taken stay when
a later one is refused. -/
namespace MediaLibrary.StringTable

/-- Storage that tables lie in. `insertSpace offset count` opens a gap of `count` zero bytes at
`offset`, moving up what was there. -/
structure Host (σ : Type) where
  image : σ → Image
  overlay : σ → Nat → Image → σ
  insertSpace : Nat → Nat → EStateM (Failure FileError) σ Unit

namespace Host

/-- No memory holds so many bytes, or more. -/
def memoryLimit : Nat := 9223372036854775808

def memory : Host Image where
  image := id
  overlay := Image.overlay
  insertSpace offset count := fun image =>
    if image.size < offset then
      .error (.refused (.insertPastEnd offset image.size)) image
    else if memoryLimit ≤ image.size + count then .error (.fault .overflow) image
    else .ok () (image.take offset ++ .blank count ++ image.drop offset)

/-- Storage that refuses to hold more than `limit` bytes. No size is past the last address, so that
the greatest `limit` refuses nothing. -/
def limited {σ : Type} (host : Host σ) (limit : Nat) : Host σ where
  image := host.image
  overlay := host.overlay
  insertSpace offset count := fun s =>
    if limit < min ((host.image s).size + count) (addressLimit - 1) then
      .error (.refused (.other "host full")) s
    else host.insertSpace offset count s

end Host

def decodeAt (image : Image) (base : Nat) : Except TableDamage StringTable :=
  if image.size < base then .error (.baseOutOfRange base) else decode (image.drop base)

/-- The least number of growth steps of `quantum` bytes that make `free` reach `need`. -/
def growthSteps (free need quantum : Nat) : Nat :=
  (need - free + (quantum - 1)) / quantum

variable {σ : Type}

def tableAt (host : Host σ) (base : Nat) (s : σ) : Except (Failure TableError) StringTable :=
  Failure.ofCheck .corrupt (decodeAt (host.image s) base)

/-- One growth step: the gap becomes part of the free bytes. -/
def grow (host : Host σ) (base quantum : Nat) : EStateM (Failure TableError) σ Unit := do
  let t ← consult (tableAt host base)
  if Word.limit ≤ t.length + quantum then throw (.refused .overflow)
  else
    (host.insertSpace (base + t.indexOffset) quantum).adaptExcept (Failure.map .grow)
    modify fun s => host.overlay s (base + lengthField.offset)
      (.ofBytes (Word.listToBytes [t.length + quantum, t.indexOffset + quantum]))

def growTimes (host : Host σ) (base quantum : Nat) : Nat → EStateM (Failure TableError) σ Unit
  | 0 => pure ()
  | n + 1 => do
    grow host base quantum
    growTimes host base quantum n

/-- The free bytes of the table at `base`, provided that `value` can be added to it. -/
def checkNew (host : Host σ) (base : Nat) (value : Bytes) (quantum : Nat) (s : σ) :
    Except (Failure TableError) Nat := do
  if 0 ∈ value then .error (.refused .interiorNul)
  else if quantum = 0 then .error (.refused .zeroQuantum)
  else
    let t ← tableAt host base s
    match ← Failure.ofCheck .corrupt (t.search value) with
    | .found _ => .error (.refused .duplicate)
    | .absent _ => .ok t.free.size

/-- Stores `value` in the table at `base`, which has room for it. -/
def pushAt (host : Host σ) (base : Nat) (value : Bytes) : EStateM (Failure TableError) σ Unit := do
  let t ← consult (tableAt host base)
  let pushed ← consult fun _ => Failure.ofCheck .corrupt (t.push value)
  modify fun s => host.overlay s base pushed.encode

/-- Adds `value` to the table at `base`. Nothing is touched if `value` is refused. -/
def add (host : Host σ) (base : Nat) (value : Bytes) (quantum : Nat) :
    EStateM (Failure TableError) σ Unit := do
  let free ← consult (checkNew host base value quantum)
  growTimes host base quantum (growthSteps free (roomFor value.length) quantum)
  pushAt host base value

end MediaLibrary.StringTable
