import Mathlib.Data.Nat.Digits.Lemmas

/-!
# Little-endian words

A number written as a fixed count of bytes, least significant first, and read back. Reading is
`Nat.ofDigits` at base `256`. A word of four bytes may be put together with shifts and a bitwise
or, and taken apart with shifts and a mask; both are the arithmetic version, as the bytes occupy
disjoint bits.
-/

namespace LittleEndian

/-- The number that `bytes` spell, least significant byte first. -/
def decode (bytes : List UInt8) : ℕ :=
  Nat.ofDigits 256 (bytes.map UInt8.toNat)

/-- The `n` low bytes of `x`, least significant first. -/
def encode : ℕ → ℕ → List UInt8
  | 0, _ => []
  | n + 1, x => UInt8.ofNat x :: encode n (x / 256)

@[simp]
theorem decode_nil : decode [] = 0 :=
  rfl

@[simp]
theorem decode_cons (b : UInt8) (bytes : List UInt8) :
    decode (b :: bytes) = b.toNat + 256 * decode bytes := by
  simp [decode, Nat.ofDigits_cons]

@[simp]
theorem length_encode (n x : ℕ) : (encode n x).length = n := by
  induction n generalizing x with
  | zero => rfl
  | succ n ih => simp [encode, ih]

/-- What is written is read back, up to the number of bytes. -/
theorem decode_encode (n x : ℕ) : decode (encode n x) = x % 256 ^ n := by
  induction n generalizing x with
  | zero => simp [encode, Nat.mod_one]
  | succ n ih =>
    have hbyte : (UInt8.ofNat x).toNat = x % 256 := by simp
    rw [encode, decode_cons, ih, hbyte, pow_succ', Nat.mod_mul]

/-! ### Words of four bytes -/

/-- Four bytes put together with shifts spell their little-endian value. -/
theorem or_shifts (b₀ b₁ b₂ b₃ : UInt8) :
    b₀.toUInt32 ||| (b₁.toUInt32 <<< 8) ||| (b₂.toUInt32 <<< 16) ||| (b₃.toUInt32 <<< 24) =
      UInt32.ofNat (decode [b₀, b₁, b₂, b₃]) := by
  have h₀ := b₀.toNat_lt
  have h₁ := b₁.toNat_lt
  have h₂ := b₂.toNat_lt
  have h₃ := b₃.toNat_lt
  apply UInt32.toNat.inj
  have hdec : decode [b₀, b₁, b₂, b₃] =
      b₀.toNat ||| 2 ^ 8 * b₁.toNat ||| 2 ^ 16 * b₂.toNat ||| 2 ^ 24 * b₃.toNat := by
    rw [Nat.or_comm b₀.toNat, ← Nat.two_pow_add_eq_or_of_lt h₀, Nat.or_comm _ (2 ^ 16 * _),
      ← Nat.two_pow_add_eq_or_of_lt (by omega), Nat.or_comm _ (2 ^ 24 * _),
      ← Nat.two_pow_add_eq_or_of_lt (by omega)]
    simp only [decode_cons, decode_nil]
    ring
  have hlt : decode [b₀, b₁, b₂, b₃] < 2 ^ 32 := by
    simp only [decode_cons, decode_nil]
    omega
  have hshift : ∀ (b : UInt8) (s : ℕ), b.toNat < 2 ^ 8 → s ≤ 24 →
      b.toNat <<< s % 2 ^ 32 = 2 ^ s * b.toNat := by
    intro b s hb hs
    rw [Nat.shiftLeft_eq, Nat.mul_comm]
    refine Nat.mod_eq_of_lt ?_
    calc 2 ^ s * b.toNat < 2 ^ s * 2 ^ 8 := by gcongr
      _ = 2 ^ (s + 8) := (pow_add 2 s 8).symm
      _ ≤ 2 ^ 32 := Nat.pow_le_pow_right (by omega) (by omega)
  rw [UInt32.toNat_ofNat', Nat.mod_eq_of_lt hlt, hdec, ← hshift b₁ 8 h₁ (by omega),
    ← hshift b₂ 16 h₂ (by omega), ← hshift b₃ 24 h₃ (by omega)]
  simp only [UInt32.toNat_or, UInt32.toNat_shiftLeft, UInt8.toNat_toUInt32]
  rfl

/-- The bytes of an unsigned word, taken apart with shifts. -/
theorem map_shifts (w : UInt32) :
    [0, 1, 2, 3].map (fun i : UInt32 => ((w >>> (i * 8)) &&& 0xFF).toUInt8) =
      encode 4 w.toNat := by
  have hbyte : ∀ s : UInt32, s < 32 →
      ((w >>> s) &&& 0xFF).toUInt8 = UInt8.ofNat (w.toNat / 2 ^ s.toNat) := by
    intro s hs
    have hs' : s.toNat % 32 = s.toNat := Nat.mod_eq_of_lt hs
    have hmask := Nat.and_two_pow_sub_one_eq_mod (w.toNat >>> s.toNat) 8
    apply UInt8.toNat.inj
    simp only [UInt32.toNat_toUInt8, UInt32.toNat_and, UInt32.toNat_shiftRight,
      UInt8.toNat_ofNat']
    rw [hs', show (0xFF : UInt32).toNat = 2 ^ 8 - 1 from rfl, hmask, Nat.mod_mod,
      Nat.shiftRight_eq_div_pow]
  simp only [List.map_cons, List.map_nil, encode]
  rw [hbyte _ (by decide), hbyte _ (by decide), hbyte _ (by decide), hbyte _ (by decide)]
  simp [Nat.div_div_eq_div_mul]

/-- The sign bit does not reach the byte that is masked out. -/
theorem mask_sshiftRight (w : BitVec 32) {s : ℕ} (hs : s ≤ 24) :
    ((w.sshiftRight s) &&& 0xFF#32).setWidth 8 = ((w >>> s) &&& 0xFF#32).setWidth 8 := by
  ext j hj
  have h : s + j < 32 := by omega
  have hj' : ¬ 32 ≤ j := by omega
  simp [BitVec.getLsbD_sshiftRight, h, hj']

/-- The bytes of a signed word, taken apart with arithmetic shifts. -/
theorem map_sshifts (w : Int32) :
    [0, 1, 2, 3].map (fun i : Int32 => ((w >>> (i * 8)) &&& 0xFF).toUInt32.toUInt8) =
      encode 4 w.toUInt32.toNat := by
  rw [← map_shifts]
  simp only [List.map_cons, List.map_nil, List.cons.injEq, and_true]
  refine ⟨?_, ?_, ?_, ?_⟩ <;> apply UInt8.toBitVec_inj.1
  · exact mask_sshiftRight w.toBitVec (s := 0) (by decide)
  · exact mask_sshiftRight w.toBitVec (s := 8) (by decide)
  · exact mask_sshiftRight w.toBitVec (s := 16) (by decide)
  · exact mask_sshiftRight w.toBitVec (s := 24) (by decide)

end LittleEndian
