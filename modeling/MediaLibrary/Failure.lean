/-! How an operation ends without an answer. A refusal is an error that the operation reports; a
fault is a step it could not take at all: an access outside the bytes it was given, or a number
outside the machine's range. A fault has no text and stops whatever was under way. Operations that
change a state are in `EStateM`, so that an operation that fails half-way leaves what it did. -/
namespace MediaLibrary

inductive Fault where
  | outOfBounds
  | overflow
  deriving DecidableEq, Repr

inductive Failure (ε : Type) where
  | refused (error : ε)
  | fault (fault : Fault)
  deriving DecidableEq, Repr

namespace Failure

/-- Restates a refusal in the caller's terms; a fault stays what it is. -/
def map {ε δ : Type} (f : ε → δ) : Failure ε → Failure δ
  | .refused e => .refused (f e)
  | .fault f => .fault f

/-- The value of an access, which faults if there is none. -/
def inBounds {ε α : Type} : Option α → Except (Failure ε) α
  | some a => .ok a
  | none => .error (.fault .outOfBounds)

/-- The answer of a check, its error being a refusal. -/
def ofCheck {ε δ α : Type} (f : δ → ε) : Except δ α → Except (Failure ε) α
  | .ok a => .ok a
  | .error e => .error (.refused (f e))

end Failure

/-- A question about the state, which stays as it is. -/
def consult {ε σ α : Type} (question : σ → Except ε α) : EStateM ε σ α := fun s =>
  match question s with
  | .ok a => .ok a s
  | .error e => .error e s

/-- Sizes and offsets are below `2 ^ 64`. -/
def addressLimit : Nat := 18446744073709551616

end MediaLibrary
