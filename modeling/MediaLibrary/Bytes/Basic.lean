/-! Byte strings, and the two ways in which records look at them: a slice is read, and a run of
bytes is laid over those that were there. -/
namespace MediaLibrary

abbrev Bytes := List UInt8

namespace Bytes

def slice (bytes : Bytes) (offset count : Nat) : Bytes :=
  (bytes.drop offset).take count

/-- Lays `new` over the bytes from `offset` on. -/
def overlay (bytes : Bytes) (offset : Nat) (new : Bytes) : Bytes :=
  bytes.take offset ++ new ++ bytes.drop (offset + new.length)

/-- The bytes before the first zero byte, or all of them if there is none. -/
def untilZero (bytes : Bytes) : Bytes :=
  bytes.takeWhile (· ≠ 0)

def zeros (count : Nat) : Bytes :=
  List.replicate count 0

theorem length_slice (bytes : Bytes) (offset count : Nat) :
    (slice bytes offset count).length = min count (bytes.length - offset) := by
  simp [slice]

theorem length_overlay {bytes new : Bytes} {offset : Nat}
    (h : offset + new.length ≤ bytes.length) :
    (overlay bytes offset new).length = bytes.length := by
  simp only [overlay, List.length_append, List.length_take, List.length_drop]
  omega

theorem untilZero_append_of_mem {first : Bytes} (h : 0 ∈ first) (second : Bytes) :
    untilZero (first ++ second) = untilZero first := by
  induction first with
  | nil => simp at h
  | cons b rest ih =>
    by_cases hb : b = 0
    · simp [untilZero, hb]
    · have hrest : 0 ∈ rest := by simpa [Ne.symm hb] using h
      simpa [untilZero, hb] using ih hrest

theorem untilZero_append_of_not_mem {first : Bytes} (h : 0 ∉ first) (second : Bytes) :
    untilZero (first ++ second) = first ++ untilZero second := by
  refine List.takeWhile_append_of_pos fun b hb => ?_
  simp only [decide_eq_true_eq]
  rintro rfl
  exact h hb

end Bytes
end MediaLibrary
