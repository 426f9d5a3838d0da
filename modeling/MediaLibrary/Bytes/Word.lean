import MediaLibrary.Bytes.Basic
/-! Stored numbers: four bytes, most significant first. Arithmetic is on natural numbers; only
writing one down takes it modulo `2 ^ 32`. -/
namespace MediaLibrary.Word

/-- Bytes in a stored number. -/
def size : Nat := 4

/-- Stored numbers are below `2 ^ 32`. -/
def limit : Nat := 4294967296

def ofBytes (bytes : Bytes) : Nat :=
  bytes.foldl (fun n b => n * 256 + b.toNat) 0

/-- The last four base-256 digits of `n`. -/
def toBytes (n : Nat) : Bytes :=
  [UInt8.ofNat (n / 16777216), UInt8.ofNat (n / 65536), UInt8.ofNat (n / 256), UInt8.ofNat n]

def listToBytes (numbers : List Nat) : Bytes :=
  numbers.flatMap toBytes

@[simp] theorem length_toBytes (n : Nat) : (toBytes n).length = size := rfl

theorem ofBytes_toBytes (n : Nat) : ofBytes (toBytes n) = n % limit := by
  simp only [ofBytes, toBytes, limit, List.foldl, UInt8.toNat_ofNat']
  omega

theorem length_listToBytes (numbers : List Nat) :
    (listToBytes numbers).length = size * numbers.length := by
  induction numbers with
  | nil => rfl
  | cons n rest ih =>
    simp only [listToBytes, List.flatMap_cons, List.length_append, length_toBytes, List.length_cons]
      at ih ⊢
    rw [ih, Nat.mul_succ, Nat.add_comm]

theorem slice_listToBytes {numbers : List Nat} {n : Nat} (h : n < numbers.length) :
    Bytes.slice (listToBytes numbers) (size * n) size = toBytes numbers[n] := by
  induction numbers generalizing n with
  | nil => simp at h
  | cons first rest ih =>
    have split : listToBytes (first :: rest) = toBytes first ++ listToBytes rest := rfl
    cases n with
    | zero => rfl
    | succ n =>
      have hskip : size * (n + 1) = (toBytes first).length + size * n := by
        rw [length_toBytes, Nat.mul_succ, Nat.add_comm]
      rw [List.getElem_cons_succ, ← ih (Nat.lt_of_succ_lt_succ h), split, hskip]
      rw [Bytes.slice, List.drop_length_add_append]
      rfl

end MediaLibrary.Word
