import MediaLibrary.Failure
import MediaLibrary.StringTable.Search
/-! Changes to a string table within the bytes that it has. -/
namespace MediaLibrary.StringTable

/-- The string at `offset` as sorting sees it: one past the area is empty, and one that does not
end goes up to the end of the area. -/
def sortKey (t : StringTable) (offset : Nat) : Bytes :=
  (t.strings.upToZero? offset).getD (t.strings.drop offset).toList

/-- Slots in ascending order of their strings. -/
def sortSlots (t : StringTable) (slots : List Nat) : List Nat :=
  let keyed := slots.map fun slot => (t.sortKey slot, slot)
  (keyed.mergeSort fun first second => ¬ second.1 < first.1).map Prod.snd

def sort (t : StringTable) : StringTable :=
  { t with index := indexOf (t.sortSlots t.slots) }

/-- Stores `value` after the other strings and sorts its slot in. It takes its room from both ends
of the free bytes. Whether `value` is stored already is not looked at. -/
def push (t : StringTable) (value : Bytes) : Except TableDamage StringTable :=
  if t.hasRoomFor value then
    .ok (sort
      { strings := t.strings ++ .ofBytes (value ++ [0])
        free := t.free.slice (value.length + 1) (t.free.size - roomFor value.length)
        index := indexOf (t.strings.size :: t.slots) })
  else .error .noRoom

/-- What becomes of a slot when `size` bytes are taken out at `offset`. -/
def rebase (offset size slot : Nat) : Option Nat :=
  if slot ≤ offset then some slot
  else if slot < size then none
  else some (slot - size)

/-- Takes the string of the `n`-th slot out, which holds `offset`; `size` counts its zero byte. The
strings behind it move up, and the bytes set free are zero. A slot that would become negative is a
fault. -/
def eraseSlot (t : StringTable) (n offset size : Nat) : Except Fault StringTable :=
  match t.slots.mapM (rebase offset size) with
  | none => .error .overflow
  | some slots => .ok
    { strings := t.strings.take offset ++ t.strings.drop (offset + size)
      free := .blank size ++ t.free ++ .blank slotSize
      index := indexOf (slots.eraseIdx n) }

/-- The table without `value`, or `none` if it is not stored. -/
def remove (t : StringTable) (value : Bytes) :
    Except (Failure TableDamage) (Option StringTable) := do
  match ← Failure.ofCheck id (t.search value) with
  | .absent _ => .ok none
  | .found n =>
    match t.eraseSlot n (t.slotAt n) (value.length + 1) with
    | .ok rest => .ok (some rest)
    | .error f => .error (.fault f)

end MediaLibrary.StringTable
