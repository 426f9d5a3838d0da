import MediaLibrary.StringTable.Basic
import MediaLibrary.Text.Utf8
/-! Reading a string table. A slot is followed strictly: it has to point into the string area, at a
string that ends there. -/
namespace MediaLibrary.StringTable

def resolve (t : StringTable) (offset : Nat) : Except TableDamage Bytes :=
  if t.strings.size ≤ offset then .error (.offsetOutOfRange offset)
  else match t.strings.upToZero? offset with
    | some value => .ok value
    | none => .error (.unterminated offset)

def textAt (t : StringTable) (offset : Nat) : Except TableDamage String := do
  match Text.ofBytes? (← t.resolve offset) with
  | some text => .ok text
  | none => .error (.notUtf8 offset)

/-- The `n`-th string in ascending order, or `none` past the last. -/
def ordinal (t : StringTable) (n : Nat) : Except TableDamage (Option String) :=
  if n < t.entries then (t.textAt (t.slotAt n)).map some else .ok none

/-- All strings in ascending order, each with its own outcome. -/
def outcomes (t : StringTable) : List (Except TableDamage String) :=
  t.slots.map t.textAt

/-- Reads the strings from the `n`-th on, those `before` it being in descending order. -/
def textsFrom (t : StringTable) (before : List String) (n : Nat) :
    Except TableDamage (List String) :=
  if n < t.entries then
    match t.textAt (t.slotAt n) with
    | .error damage => .error damage
    | .ok text => textsFrom t (text :: before) (n + 1)
  else .ok before.reverse
termination_by t.entries - n

/-- All strings in ascending order. The first one that cannot be read makes it fail. -/
def texts (t : StringTable) : Except TableDamage (List String) := t.textsFrom [] 0

/-- Where a string is among the slots, or before which slot it belongs. -/
inductive Rank where
  | found (slot : Nat)
  | absent (slot : Nat)
  deriving DecidableEq, Repr

def Rank.slot? : Rank → Option Nat
  | .found n => some n
  | .absent _ => none

/-- Binary search among the slots from `low` up to `high`. -/
def searchBetween (t : StringTable) (target : Bytes) (low high : Nat) : Except TableDamage Rank :=
  if low < high then
    let middle := low + (high - low) / 2
    match t.resolve (t.slotAt middle) with
    | .error damage => .error damage
    | .ok probe =>
      if probe < target then searchBetween t target (middle + 1) high
      else if target < probe then searchBetween t target low middle
      else .ok (.found middle)
  else .ok (.absent low)
termination_by high - low

def search (t : StringTable) (target : Bytes) : Except TableDamage Rank :=
  t.searchBetween target 0 t.entries

/-- The position of `value` in ascending order, if it is stored. -/
def find (t : StringTable) (value : Bytes) : Except TableDamage (Option Nat) :=
  (t.search value).map Rank.slot?

/-- Checks the slots from the `n`-th on, `before` being the string of the slot in front of them. -/
def checkOrderFrom (t : StringTable) (before : Option Bytes) (n : Nat) :
    Except TableDamage Unit :=
  if n < t.entries then
    match t.resolve (t.slotAt n) with
    | .error damage => .error damage
    | .ok value =>
      if before.any (fun b => ¬ b < value) then .error (.outOfOrder n)
      else checkOrderFrom t (some value) (n + 1)
  else .ok ()
termination_by t.entries - n

/-- Every slot can be followed, and the strings ascend strictly. -/
def checkOrder (t : StringTable) : Except TableDamage Unit :=
  t.checkOrderFrom none 0

end MediaLibrary.StringTable
