import DepthaiCore.Lib.ExpGolomb
import DepthaiCore.Utility.H26xSyntax

/-!
# Codes of variable length in a video stream

`readGE` reads the code that stands at a place of the data. It finds the byte of a bit by an index
of 32 bits, so that far behind in the data it reads other bits than those that stand there.
-/

namespace DepthaiCore.H26x

open ExpGolomb

/-- The data as a string of bits, each where it stands. -/
def stored (bs : List UInt8) : BitString where
  length := bs.length * 8
  bit? i := bs[i / 8]?.map fun c => c.toNat.testBit (7 - i % 8)
  isSome_bit? i hi := by
    have hlt : i / 8 < bs.length := by omega
    simp [hlt]

/-- Where the source looks for a bit. -/
def found (i : ℕ) : ℕ :=
  uint (i / 8) * 8 + i % 8

/-- The bits before `2 ^ 32` bytes are found where they are. -/
theorem found_of_lt {i : ℕ} (h : i / 8 < 2 ^ 32) : found i = i := by
  rw [found, uint, Nat.mod_eq_of_lt h, Nat.div_add_mod']

theorem decide_and_two_pow (c i : ℕ) : decide (0 < c &&& 2 ^ i) = c.testBit i := by
  rw [Nat.and_two_pow]
  cases c.testBit i <;> simp

/-- **The bits that are read** are those where they are looked for. -/
theorem bits_bit?_eq (bs : List UInt8) (i : ℕ) : (bits bs).bit? i = (stored bs).bit? (found i) := by
  have hdiv : found i / 8 = uint (i / 8) := by
    rw [found]
    omega
  have hmod : found i % 8 = i % 8 := by
    rw [found]
    omega
  rw [bits_bit?, bit, index]
  show _ = bs[found i / 8]?.map fun c => c.toNat.testBit (7 - found i % 8)
  rw [hdiv, hmod]
  cases bs[uint (i / 8)]? with
  | none => rfl
  | some c =>
    rw [Option.map_some, ← decide_and_two_pow]
    rfl

/-- A field of at most 32 bits is the number that it stands for. -/
theorem number_eq_value {l : List Bool} (h : l.length ≤ 32) {ret : ℕ} (hret : ret < 2 ^ 32) :
    number ret l = uint (ret + value l) := by
  induction l generalizing ret with
  | nil => rw [number, value, Nat.add_zero, uint, Nat.mod_eq_of_lt hret]
  | cons x l ih =>
    rw [List.length_cons] at h
    have hone : one l.length = 2 ^ l.length := by rw [one, Nat.mod_eq_of_lt (by omega)]
    have hlt : uint (ret + x.toNat * 2 ^ l.length) < 2 ^ 32 := Nat.mod_lt _ (Nat.two_pow_pos 32)
    rw [number, value, hone, ih (by omega) hlt, uint, uint, uint, Nat.mod_add_mod, Nat.add_assoc]

theorem zeros_le {n : ℕ} (hn : n < 2 ^ 32 - 1) : zeros n ≤ 31 :=
  Nat.lt_succ_iff.1 (Nat.log_lt_of_lt_pow n.succ_ne_zero (by omega))

variable {bs : List UInt8} {pos n : ℕ}

/-- **What `readGE` finds it reads.** -/
theorem readGE_of_spells (hn : n < 2 ^ 32 - 1) (hlength : pos + (2 * zeros n + 1) ≤ bs.length * 8)
    (h : (bits bs).Spells pos (code n)) : readGE bs pos = .ok (n, pos + (2 * zeros n + 1)) := by
  have hzeros := h.zeros_code hlength
  have hsmall := zeros_le hn
  have hwidth : uint (zeros n + 1) = zeros n + 1 := Nat.mod_eq_of_lt (by omega)
  -- behind the zeros stands the notation of the next number
  have hrest := (BitString.spells_append.1 h).2
  rw [List.length_replicate] at hrest
  have hread := BitString.next?_eq_some_iff.2 hrest
  rw [length_msb] at hread
  rw [(readGE_follows bs pos).eq_ok_iff, ue_run]
  dsimp only
  rw [hzeros, hwidth, if_pos (by omega), hread]
  have hnumber : uint (number 0 (msb (zeros n + 1) (n + 1)) + (2 ^ 32 - 1)) = n := by
    rw [number_eq_value (by rw [length_msb]; omega) (Nat.two_pow_pos 32), value_notation, uint, uint]
    omega
  rw [Option.map_some, Option.map_some, hnumber, id, Nat.add_assoc, two_mul, Nat.add_assoc]

/-- **What `readGE` reads it has found.** -/
theorem spells_of_readGE (hn : n < 2 ^ 32 - 1)
    (h : readGE bs pos = .ok (n, pos + (2 * zeros n + 1))) : (bits bs).Spells pos (code n) := by
  have hsmall := zeros_le hn
  rw [(readGE_follows bs pos).eq_ok_iff, ue_run] at h
  dsimp only at h
  split at h
  case isFalse => cases h
  case isTrue =>
    rw [Option.map_map] at h
    obtain ⟨l, hl, heq⟩ := Option.map_eq_some_iff.1 h
    obtain ⟨hvalue, hstop⟩ := Prod.mk.inj heq
    -- the cursor tells how many zeros there were
    have hzeros : (bits bs).zeros pos = zeros n := by
      rw [uint] at hstop
      omega
    have hwidth : uint ((bits bs).zeros pos + 1) = zeros n + 1 := by
      rw [hzeros, uint, Nat.mod_eq_of_lt (by omega)]
    have hlength := (bits bs).length_of_next? hl
    rw [hwidth] at hlength
    have hlt := value_lt l
    have hpow : 2 ^ l.length ≤ 2 ^ 32 := Nat.pow_le_pow_right two_pos (by omega)
    have hvalue : value l = n + 1 := by
      rw [number_eq_value (by omega) (Nat.two_pow_pos 32), uint, uint] at hvalue
      omega
    have hbits : l = msb (zeros n + 1) (n + 1) :=
      value_injective (by rw [hlength, length_msb]) (by rw [hvalue, value_notation])
    rw [code]
    refine BitString.spells_append.2 ⟨?_, ?_⟩
    · rw [← hzeros]
      exact BitString.spells_zerosUpTo _ _
    · rw [List.length_replicate, ← hbits, ← BitString.next?_eq_some_iff, hlength, ← hwidth, ← hzeros]
      exact hl

theorem le_of_spells {l : List Bool} (h : (stored bs).Spells pos l) (hl : l ≠ []) :
    pos + l.length ≤ bs.length * 8 := by
  have hpos := List.length_pos_iff.2 hl
  have hlast := h (l.length - 1) (by omega)
  rw [List.getElem?_eq_getElem (by omega)] at hlast
  obtain ⟨c, hc, -⟩ := Option.map_eq_some_iff.1 hlast
  obtain ⟨hlt, -⟩ := List.getElem?_eq_some_iff.1 hc
  omega

/-- **Codes in the first `2 ^ 32` bytes are read back.** -/
theorem readGE_of_lt (hn : n < 2 ^ 32 - 1) (hcode : (stored bs).Spells pos (code n))
    (hlength : bs.length ≤ 2 ^ 32) : readGE bs pos = .ok (n, pos + (2 * zeros n + 1)) := by
  have hend := le_of_spells hcode (by simp [code, msb_eq_cons])
  rw [length_code] at hend
  refine readGE_of_spells hn hend fun i hi => ?_
  rw [length_code] at hi
  rw [bits_bit?_eq, found_of_lt (by omega)]
  exact hcode i (by rwa [length_code])

/-- **When a code is read back**: when its bits are the same where the source looks for them. -/
theorem readGE_code_iff (hn : n < 2 ^ 32 - 1) (hcode : (stored bs).Spells pos (code n)) :
    readGE bs pos = .ok (n, pos + (2 * Nat.log 2 (n + 1) + 1)) ↔
      ∀ i < 2 * Nat.log 2 (n + 1) + 1,
        (stored bs).bit? (found (pos + i)) = (stored bs).bit? (pos + i) := by
  have hend := le_of_spells hcode (by simp [code, msb_eq_cons])
  rw [length_code] at hend
  constructor
  · intro h i hi
    have hi' : i < (code n).length := by
      rw [length_code]
      exact hi
    rw [← bits_bit?_eq, hcode i hi']
    exact spells_of_readGE hn h i hi'
  · intro h
    refine readGE_of_spells hn hend fun i hi => ?_
    rw [bits_bit?_eq, ← hcode i hi]
    rw [length_code] at hi
    exact h i hi

/-- Three bits, and then the code of 3. -/
theorem readGE_code_three : readGE [228] 3 = .ok (3, 8) := by
  refine (readGE_code_iff (by decide) ?_).2 ?_
  · decide
  · decide

/-- A one behind so many bytes of zeros. -/
def lastOne (m : ℕ) : List UInt8 :=
  List.replicate m 0 ++ [128]

theorem spells_lastOne (m : ℕ) : (stored (lastOne m)).Spells (m * 8) (code 0) := by
  have hcode : code 0 = [true] := by decide
  have hbyte : (lastOne m)[m]? = some 128 := by
    rw [lastOne, List.getElem?_append_right (by simp), List.length_replicate, Nat.sub_self]
    rfl
  rw [hcode, BitString.spells_cons]
  refine ⟨?_, fun i hi => absurd hi (Nat.not_lt_zero i)⟩
  show (lastOne m)[m * 8 / 8]?.map (fun c => c.toNat.testBit (7 - m * 8 % 8)) = some true
  rw [Nat.mul_div_cancel _ (by decide), Nat.mul_mod_left, hbyte]
  rfl

/-- If the one is looked for at the first byte, it is not found. -/
theorem readGE_lastOne {m : ℕ} (hm : 0 < m) (hfound : uint m = 0) :
    readGE (lastOne m) (m * 8) ≠ .ok (0, m * 8 + (2 * Nat.log 2 (0 + 1) + 1)) := by
  intro h
  have hspells := spells_of_readGE (by decide) h
  have hbit := hspells 0 (by decide)
  have hplace : found (m * 8 + 0) = 0 := by
    rw [found, Nat.add_zero, Nat.mul_div_cancel _ (by decide), Nat.mul_mod_left, hfound]
  have hbyte : (lastOne m)[0]? = some 0 := by
    rw [lastOne, List.getElem?_append_left (by simpa using hm), List.getElem?_replicate, if_pos hm]
  rw [bits_bit?_eq, hplace] at hbit
  change (lastOne m)[0]?.map (fun c => c.toNat.testBit 7) = some true at hbit
  rw [hbyte] at hbit
  exact absurd hbit (by decide)

/-- A one behind `2 ^ 32` bytes of zeros, which is the code of 0. -/
theorem not_readGE_far :
    (stored (lastOne (2 ^ 32))).Spells (2 ^ 32 * 8) (code 0) ∧
      readGE (lastOne (2 ^ 32)) (2 ^ 32 * 8) ≠
        .ok (0, 2 ^ 32 * 8 + (2 * Nat.log 2 (0 + 1) + 1)) :=
  ⟨spells_lastOne _, readGE_lastOne (Nat.two_pow_pos 32) (Nat.mod_self _)⟩

end DepthaiCore.H26x
