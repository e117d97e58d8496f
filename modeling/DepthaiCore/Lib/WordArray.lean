import DepthaiCore.Lib.LittleEndian

/-!
# Arrays of words over bytes

A block of bytes read and written as an array of words of `b` bytes each, least significant byte
first: word `i` lies at the bytes `i * b` up to `i * b + b`. Reading is partial and says where the
block ends; writing replaces the bytes of one word and leaves the others alone.
-/

namespace WordArray

variable {b : ℕ} {mem : List UInt8} {i j : ℕ}

/-- Word `i` of the block, if all of it is inside. -/
def load (b : ℕ) (mem : List UInt8) (i : ℕ) : Option ℕ :=
  if i * b + b ≤ mem.length then some (LittleEndian.decode ((mem.drop (i * b)).take b)) else none

/-- The block with word `i` written. -/
def store (b : ℕ) (mem : List UInt8) (i v : ℕ) : List UInt8 :=
  mem.take (i * b) ++ (LittleEndian.encode b v ++ mem.drop (i * b + b))

theorem load_of_le (h : i * b + b ≤ mem.length) :
    load b mem i = some (LittleEndian.decode ((mem.drop (i * b)).take b)) :=
  if_pos h

theorem load_eq_none_iff : load b mem i = none ↔ mem.length < i * b + b := by
  rw [load]
  split
  case isTrue h => simp [h]
  case isFalse h => simpa using h

theorem le_length_of_load {v : ℕ} (h : load b mem i = some v) : i * b + b ≤ mem.length := by
  by_contra hout
  rw [load_eq_none_iff.2 (Nat.lt_of_not_le hout)] at h
  cases h

theorem load_lt {v : ℕ} (h : load b mem i = some v) : v < 256 ^ b := by
  have hin := le_length_of_load h
  rw [load_of_le hin] at h
  cases h
  refine (Nat.ofDigits_lt_base_pow_length (by decide) ?_).trans_le
    (Nat.pow_le_pow_right (by decide) ?_)
  · intro d hd
    obtain ⟨byte, -, rfl⟩ := List.mem_map.1 hd
    exact byte.toNat_lt
  · rw [List.length_map]
    exact List.length_take_le _ _

@[simp]
theorem length_store (h : i * b + b ≤ mem.length) (v : ℕ) :
    (store b mem i v).length = mem.length := by
  simp only [store, List.length_append, List.length_take, List.length_drop,
    LittleEndian.length_encode]
  omega

/-- **The word written is read back, up to its width.** -/
theorem load_store_self (h : i * b + b ≤ mem.length) (v : ℕ) :
    load b (store b mem i v) i = some (v % 256 ^ b) := by
  have htake : (mem.take (i * b)).length = i * b := List.length_take_of_le (by omega)
  have hword : ((store b mem i v).drop (i * b)).take b = LittleEndian.encode b v := by
    rw [store, List.drop_left' htake, List.take_left' (LittleEndian.length_encode b v)]
  rw [load_of_le (by rw [length_store h]; exact h), hword, LittleEndian.decode_encode]

theorem apart (hij : i ≠ j) : i * b + b ≤ j * b ∨ j * b + b ≤ i * b := by
  rcases Nat.lt_or_gt_of_ne hij with h | h
  · exact .inl (by simpa [Nat.succ_mul] using Nat.mul_le_mul_right b (Nat.succ_le_of_lt h))
  · exact .inr (by simpa [Nat.succ_mul] using Nat.mul_le_mul_right b (Nat.succ_le_of_lt h))

theorem getElem?_store (h : i * b + b ≤ mem.length) (v : ℕ) {k : ℕ}
    (hk : k < i * b ∨ i * b + b ≤ k) : (store b mem i v)[k]? = mem[k]? := by
  have htake : (mem.take (i * b)).length = i * b := List.length_take_of_le (by omega)
  rcases hk with hk | hk
  · rw [store, List.getElem?_append_left (by omega), List.getElem?_take_of_lt hk]
  · rw [store, List.getElem?_append_right (by omega), htake,
      List.getElem?_append_right (by rw [LittleEndian.length_encode]; omega),
      LittleEndian.length_encode, List.getElem?_drop]
    congr 1
    omega

/-- **The other words are read as before.** -/
theorem load_store_of_ne (h : i * b + b ≤ mem.length) (v : ℕ) (hij : i ≠ j) :
    load b (store b mem i v) j = load b mem j := by
  have hword : ((store b mem i v).drop (j * b)).take b = (mem.drop (j * b)).take b := by
    refine List.ext_getElem? fun k => ?_
    rw [List.getElem?_take, List.getElem?_take]
    split
    case isTrue hk =>
      rw [List.getElem?_drop, List.getElem?_drop,
        getElem?_store h v (by rcases apart (b := b) hij with hij | hij <;> omega)]
    case isFalse => rfl
  rw [load, load, hword, length_store h]

theorem load_replicate {n : ℕ} (h : i * b + b ≤ n) :
    load b (List.replicate n 0) i = some 0 := by
  have hzeros (k : ℕ) : LittleEndian.decode (List.replicate k 0) = 0 := by
    induction k with
    | zero => rfl
    | succ k ih => simp [List.replicate_succ, ih]
  rw [load_of_le (by simpa using h), List.drop_replicate, List.take_replicate, hzeros]

end WordArray
