import MediaLibrary.Bytes.Basic
/-! Runs: parts of a long byte string, of which the zero bytes can be counted in place of stored.
Lists of runs are cut and joined without a look at what is in between. -/
namespace MediaLibrary

inductive Run where
  | stored (bytes : Array UInt8)
  | zeros (count : Nat)
  deriving DecidableEq, Repr

namespace Run

def toList : Run → Bytes
  | .stored bytes => bytes.toList
  | .zeros count => Bytes.zeros count

def size : Run → Nat
  | .stored bytes => bytes.size
  | .zeros count => count

def slice (run : Run) (offset count : Nat) : Run :=
  match run with
  | .stored bytes => .stored (bytes.extract offset (offset + count))
  | .zeros size => .zeros (min count (size - offset))

/-- The first index from `index` on that holds a zero byte, or the number of bytes. -/
def zeroIndex (bytes : Array UInt8) (index : Nat) : Nat :=
  if h : index < bytes.size then
    if bytes[index] = 0 then index else zeroIndex bytes (index + 1)
  else bytes.size
termination_by bytes.size - index

/-- The first offset from `offset` on, inside the run, at which there is a zero byte. Without one
it is the size of the run. -/
def zeroOffset (run : Run) (offset : Nat) : Nat :=
  match run with
  | .stored bytes => zeroIndex bytes offset
  | .zeros _ => offset

/-- Stored runs are joined up to this size. -/
def maxJoined : Nat := 1024

def join? : Run → Run → Option Run
  | .zeros first, .zeros second => some (.zeros (first + second))
  | .stored first, .stored second =>
    if first.size + second.size ≤ maxJoined then some (.stored (first ++ second)) else none
  | _, _ => none

def prepend (run : Run) (runs : List Run) : List Run :=
  if run.size = 0 then runs
  else match runs with
    | [] => [run]
    | next :: rest => match join? run next with
      | some joined => joined :: rest
      | none => run :: next :: rest

def bytesOf (runs : List Run) : Bytes := runs.flatMap toList

def totalSize (runs : List Run) : Nat := runs.foldr (fun run rest => run.size + rest) 0

def sliceAll : (runs : List Run) → (offset count : Nat) → List Run
  | [], _, _ => []
  | run :: rest, offset, count =>
    if count = 0 then []
    else if run.size ≤ offset then sliceAll rest (offset - run.size) count
    else if offset = 0 ∧ run.size ≤ count then run :: sliceAll rest 0 (count - run.size)
    else run.slice offset count :: sliceAll rest 0 (count - (run.size - offset))

def dropAll : (runs : List Run) → (count : Nat) → List Run
  | [], _ => []
  | run :: rest, count =>
    if count = 0 then run :: rest
    else if run.size ≤ count then dropAll rest (count - run.size)
    else run.slice count (run.size - count) :: rest

/-- The bytes from `offset` up to the first zero byte, if there is one. -/
def upToZero? : (runs : List Run) → (offset : Nat) → Option Bytes
  | [], _ => none
  | run :: rest, offset =>
    if run.size ≤ offset then upToZero? rest (offset - run.size)
    else
      let stop := run.zeroOffset offset
      let bytes := (run.slice offset (stop - offset)).toList
      if stop < run.size then some bytes else (upToZero? rest 0).map (bytes ++ ·)

@[simp] theorem length_toList (run : Run) : run.toList.length = run.size := by
  cases run <;> simp [toList, size, Bytes.zeros]

@[simp] theorem bytesOf_nil : bytesOf [] = [] := rfl

@[simp] theorem bytesOf_cons (run : Run) (rest : List Run) :
    bytesOf (run :: rest) = run.toList ++ bytesOf rest := rfl

@[simp] theorem length_bytesOf (runs : List Run) : (bytesOf runs).length = totalSize runs := by
  induction runs with
  | nil => rfl
  | cons run rest ih => simp [ih, totalSize]

theorem toList_slice (run : Run) (offset count : Nat) :
    (run.slice offset count).toList = Bytes.slice run.toList offset count := by
  cases run with
  | stored bytes => simp [slice, toList, Bytes.slice, List.extract_eq_take_drop]
  | zeros size => simp [slice, toList, Bytes.slice, Bytes.zeros]

theorem toList_join {first second joined : Run} (h : join? first second = some joined) :
    joined.toList = first.toList ++ second.toList := by
  unfold join? at h
  split at h
  · cases h
    simp [toList, Bytes.zeros]
  · split at h
    · cases h
      simp [toList]
    · cases h
  · cases h

@[simp] theorem bytesOf_prepend (run : Run) (runs : List Run) :
    bytesOf (prepend run runs) = run.toList ++ bytesOf runs := by
  unfold prepend
  split
  · have : run.toList = [] := List.eq_nil_of_length_eq_zero (by simpa)
    simp [this]
  · split
    · simp
    · split
      · rename_i joined h
        simp [toList_join h]
      · simp

theorem bytesOf_sliceAll (runs : List Run) (offset count : Nat) :
    bytesOf (sliceAll runs offset count) = Bytes.slice (bytesOf runs) offset count := by
  induction runs generalizing offset count with
  | nil => simp [sliceAll, Bytes.slice]
  | cons run rest ih =>
    unfold sliceAll
    split
    · simp_all [Bytes.slice]
    · split
      · rename_i h
        have : run.toList.drop offset = [] := by simpa using h
        simp [ih, Bytes.slice, List.drop_append, this]
      · split
        · rename_i h
          have hall : run.toList.take count = run.toList := List.take_of_length_le (by simp; omega)
          simp [ih, Bytes.slice, List.take_append, h.1, hall]
        · rename_i h hwhole
          have hrest : offset - run.size = 0 := by omega
          simp [ih, toList_slice, Bytes.slice, List.drop_append, List.take_append, hrest]

theorem bytesOf_dropAll (runs : List Run) (count : Nat) :
    bytesOf (dropAll runs count) = (bytesOf runs).drop count := by
  induction runs generalizing count with
  | nil => simp [dropAll]
  | cons run rest ih =>
    unfold dropAll
    split
    · simp_all
    · split
      · rename_i h
        have : run.toList.drop count = [] := by simpa using h
        simp [ih, List.drop_append, this]
      · have hrest : count - run.size = 0 := by omega
        have hall : (run.toList.drop count).take (run.size - count) = run.toList.drop count :=
          List.take_of_length_le (by simp)
        simp [toList_slice, Bytes.slice, List.drop_append, hrest, hall]

theorem le_zeroIndex {bytes : Array UInt8} {index : Nat} (h : index ≤ bytes.size) :
    index ≤ zeroIndex bytes index := by
  fun_induction zeroIndex bytes index <;> omega

theorem zeroIndex_lt_iff (bytes : Array UInt8) (index : Nat) :
    zeroIndex bytes index < bytes.size ↔ 0 ∈ bytes.toList.drop index := by
  fun_induction zeroIndex bytes index with
  | case1 index h hz => simp [List.drop_eq_getElem_cons (l := bytes.toList) (i := index) h, hz, h]
  | case2 index h hz ih =>
    rw [ih, List.drop_eq_getElem_cons (l := bytes.toList) (i := index) h]
    simp [Ne.symm hz]
  | case3 index h =>
    have : bytes.toList.drop index = [] := List.drop_eq_nil_of_le (by simpa using h)
    simp [this]

theorem take_zeroIndex (bytes : Array UInt8) (index : Nat) :
    (bytes.toList.drop index).take (zeroIndex bytes index - index)
      = Bytes.untilZero (bytes.toList.drop index) := by
  fun_induction zeroIndex bytes index with
  | case1 index h hz =>
    simp [List.drop_eq_getElem_cons (l := bytes.toList) (i := index) h, hz, Bytes.untilZero]
  | case2 index h hz ih =>
    have hle : index + 1 ≤ zeroIndex bytes (index + 1) := le_zeroIndex h
    have : zeroIndex bytes (index + 1) - index = zeroIndex bytes (index + 1) - (index + 1) + 1 := by
      omega
    rw [List.drop_eq_getElem_cons (l := bytes.toList) (i := index) h, this]
    simp only [List.take_succ_cons, ih, Bytes.untilZero]
    simp [hz]
  | case3 index h =>
    have : bytes.toList.drop index = [] := List.drop_eq_nil_of_le (by simpa using h)
    simp [this, Bytes.untilZero]

theorem zeroOffset_lt_iff {run : Run} {offset : Nat} (h : offset < run.size) :
    run.zeroOffset offset < run.size ↔ 0 ∈ run.toList.drop offset := by
  cases run with
  | stored bytes => exact zeroIndex_lt_iff bytes offset
  | zeros count =>
    have : count - offset ≠ 0 := by
      simp only [size] at h
      omega
    simpa [zeroOffset, toList, Bytes.zeros, this] using h

theorem toList_slice_zeroOffset {run : Run} {offset : Nat} (h : offset < run.size) :
    (run.slice offset (run.zeroOffset offset - offset)).toList
      = Bytes.untilZero (run.toList.drop offset) := by
  rw [toList_slice]
  cases run with
  | stored bytes => exact take_zeroIndex bytes offset
  | zeros count =>
    obtain ⟨n, hn⟩ : ∃ n, count - offset = n + 1 := by
      simp only [size] at h
      exact ⟨count - offset - 1, by omega⟩
    simp [zeroOffset, toList, Bytes.slice, Bytes.zeros, Bytes.untilZero, hn, List.replicate_succ]

theorem upToZero?_eq (runs : List Run) (offset : Nat) :
    upToZero? runs offset
      = if 0 ∈ (bytesOf runs).drop offset then some (Bytes.untilZero ((bytesOf runs).drop offset))
        else none := by
  induction runs generalizing offset with
  | nil => simp [upToZero?]
  | cons run rest ih =>
    unfold upToZero?
    split
    · rename_i h
      have : run.toList.drop offset = [] := by simpa using h
      simp [ih, List.drop_append, this]
    · rename_i h
      have h : offset < run.size := by omega
      have hrest : offset - run.size = 0 := by omega
      have hdrop : (bytesOf (run :: rest)).drop offset
          = run.toList.drop offset ++ bytesOf rest := by
        simp [List.drop_append, hrest]
      rw [hdrop]
      by_cases hz : 0 ∈ run.toList.drop offset
      · simp [zeroOffset_lt_iff h, toList_slice_zeroOffset h, hz,
          Bytes.untilZero_append_of_mem hz]
      · have hall : Bytes.untilZero (run.toList.drop offset) = run.toList.drop offset := by
          simpa [Bytes.untilZero] using Bytes.untilZero_append_of_not_mem hz []
        simp only [zeroOffset_lt_iff h, toList_slice_zeroOffset h, hz, if_false, ih, hall,
          List.drop_zero, List.mem_append, false_or, Bytes.untilZero_append_of_not_mem hz]
        split <;> rfl

end Run
end MediaLibrary
