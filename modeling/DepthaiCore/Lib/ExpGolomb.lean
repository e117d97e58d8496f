import DepthaiCore.Lib.BitString
import Mathlib.Data.Nat.Bitwise
import Mathlib.Data.Nat.Log
import Mathlib.Tactic.Ring

/-!
# Exponential Golomb codes

The code of a number is the binary notation of the next one, with the highest bit first, behind as
many zeros as there are bits after the first. A reader counts the zeros, and knows from them how
many bits to read.
-/

namespace ExpGolomb

/-! ### Binary notations -/

/-- The lowest bits of a number, the highest of them first. -/
def msb : ℕ → ℕ → List Bool
  | 0, _ => []
  | w + 1, m => m.testBit w :: msb w m

/-- The number that bits stand for. -/
def value : List Bool → ℕ
  | [] => 0
  | x :: l => x.toNat * 2 ^ l.length + value l

@[simp] theorem length_msb (w m : ℕ) : (msb w m).length = w := by
  induction w with
  | zero => rfl
  | succ w ih => rw [msb, List.length_cons, ih]

theorem value_msb (w m : ℕ) : value (msb w m) = m % 2 ^ w := by
  induction w with
  | zero => rw [msb, value, pow_zero, Nat.mod_one]
  | succ w ih =>
    rw [msb, value, length_msb, ih, pow_succ, Nat.mod_mul, Nat.testBit_eq_decide_div_mod_eq,
      add_comm, mul_comm]
    rcases Nat.mod_two_eq_zero_or_one (m / 2 ^ w) with h | h <;> simp [h]

theorem value_lt (l : List Bool) : value l < 2 ^ l.length := by
  induction l with
  | nil => exact Nat.one_pos
  | cons x l ih =>
    have hx : x.toNat * 2 ^ l.length ≤ 2 ^ l.length := by
      cases x <;> simp
    rw [value, List.length_cons, pow_succ]
    omega

/-- **Notations of one length are those of different numbers.** -/
theorem value_injective {l l' : List Bool} (hlength : l.length = l'.length)
    (h : value l = value l') : l = l' := by
  induction l generalizing l' with
  | nil => exact (List.length_eq_zero_iff.1 hlength.symm).symm
  | cons x l ih =>
    cases l' with
    | nil => cases hlength
    | cons x' l' =>
      have hlength' : l.length = l'.length := Nat.succ.inj hlength
      have hl := value_lt l
      have hl' := value_lt l'
      rw [value, value, hlength'] at h
      rw [hlength'] at hl
      have hx : x = x' := by
        cases x <;> cases x' <;> simp at h ⊢ <;> omega
      subst hx
      rw [ih hlength' (Nat.add_left_cancel h)]

/-! ### Codes -/

/-- The number of zeros in front. -/
def zeros (n : ℕ) : ℕ :=
  Nat.log 2 (n + 1)

/-- **The code of a number.** -/
def code (n : ℕ) : List Bool :=
  List.replicate (zeros n) false ++ msb (zeros n + 1) (n + 1)

theorem length_code (n : ℕ) : (code n).length = 2 * zeros n + 1 := by
  rw [code, List.length_append, List.length_replicate, length_msb]
  omega

theorem lt_pow_zeros (n : ℕ) : n + 1 < 2 ^ (zeros n + 1) :=
  Nat.lt_pow_succ_log_self one_lt_two _

theorem pow_zeros_le (n : ℕ) : 2 ^ zeros n ≤ n + 1 :=
  Nat.pow_log_le_self 2 n.succ_ne_zero

theorem msb_eq_cons (n : ℕ) : msb (zeros n + 1) (n + 1) = true :: msb (zeros n) (n + 1) := by
  have hdiv : (n + 1) / 2 ^ zeros n = 1 := by
    refine Nat.div_eq_of_lt_le (by rw [one_mul]; exact pow_zeros_le n) ?_
    have hlt := lt_pow_zeros n
    rw [pow_succ] at hlt
    omega
  rw [msb, Nat.testBit_eq_decide_div_mod_eq, hdiv]
  rfl

theorem value_notation (n : ℕ) : value (msb (zeros n + 1) (n + 1)) = n + 1 := by
  rw [value_msb, Nat.mod_eq_of_lt (lt_pow_zeros n)]

end ExpGolomb

/-! ### Bits at a place -/

namespace BitString

variable (b : BitString)

/-- Bits stand at a place. -/
def Spells (pos : ℕ) (l : List Bool) : Prop :=
  ∀ i < l.length, b.bit? (pos + i) = l[i]?

instance (pos : ℕ) (l : List Bool) : Decidable (b.Spells pos l) :=
  inferInstanceAs (Decidable (∀ i < l.length, b.bit? (pos + i) = l[i]?))

variable {b} {pos : ℕ}

theorem spells_cons {x : Bool} {l : List Bool} :
    b.Spells pos (x :: l) ↔ b.bit? pos = some x ∧ b.Spells (pos + 1) l := by
  constructor
  · intro h
    refine ⟨h 0 (Nat.succ_pos _), fun i hi => ?_⟩
    have hnext := h (i + 1) (Nat.succ_lt_succ hi)
    rwa [List.getElem?_cons_succ, ← Nat.add_assoc, Nat.add_right_comm] at hnext
  · rintro ⟨hx, hl⟩ i hi
    cases i with
    | zero => exact hx
    | succ i =>
      rw [List.getElem?_cons_succ, ← hl i (Nat.lt_of_succ_lt_succ hi), Nat.add_right_comm]
      rfl

theorem spells_append {l l' : List Bool} :
    b.Spells pos (l ++ l') ↔ b.Spells pos l ∧ b.Spells (pos + l.length) l' := by
  induction l generalizing pos with
  | nil => simp [Spells]
  | cons x l ih =>
    rw [List.cons_append, spells_cons, ih, spells_cons, and_assoc, List.length_cons,
      Nat.add_right_comm, Nat.add_assoc pos]

/-- **What is read at a place** is what stands there. -/
theorem next?_eq_some_iff {l : List Bool} : b.next? l.length pos = some l ↔ b.Spells pos l := by
  induction l generalizing pos with
  | nil => simp [next?, Spells]
  | cons x l ih =>
    rw [spells_cons, ← ih, List.length_cons, next?]
    cases hbit : b.bit? pos with
    | none => simp
    | some y =>
      rw [Option.bind_some, Option.map_eq_some_iff]
      constructor
      · rintro ⟨l', hl', heq⟩
        cases heq
        exact ⟨rfl, hl'⟩
      · rintro ⟨hy, hl⟩
        cases hy
        exact ⟨l, hl, rfl⟩

theorem zerosUpTo_eq {left k : ℕ} (hzeros : b.Spells pos (List.replicate k false))
    (hone : b.bit? (pos + k) = some true) (hleft : k < left) : b.zerosUpTo left pos = k := by
  induction k generalizing pos left with
  | zero =>
    obtain ⟨left, rfl⟩ := Nat.exists_eq_add_one.2 hleft
    rw [Nat.add_zero] at hone
    rw [zerosUpTo, hone, if_neg (by simp)]
  | succ k ih =>
    obtain ⟨left, rfl⟩ := Nat.exists_eq_add_one.2 (Nat.zero_lt_of_lt hleft)
    obtain ⟨hzero, hrest⟩ := spells_cons.1 hzeros
    rw [zerosUpTo, if_pos hzero, ih hrest (by rwa [Nat.add_right_comm, Nat.add_assoc]) (by omega)]

theorem spells_zerosUpTo (left pos : ℕ) :
    b.Spells pos (List.replicate (b.zerosUpTo left pos) false) := by
  induction left generalizing pos with
  | zero => exact fun i hi => absurd hi (by simp [zerosUpTo])
  | succ left ih =>
    rw [zerosUpTo]
    split
    case isTrue hbit => exact spells_cons.2 ⟨hbit, ih (pos + 1)⟩
    case isFalse => exact fun i hi => absurd hi (by simp)

/-- **The zeros in front of a code.** -/
theorem Spells.zeros_code {n : ℕ} (h : b.Spells pos (ExpGolomb.code n))
    (hlength : pos + (2 * ExpGolomb.zeros n + 1) ≤ b.length) :
    b.zeros pos = ExpGolomb.zeros n := by
  obtain ⟨hzeros, hrest⟩ := spells_append.1 h
  rw [ExpGolomb.msb_eq_cons, List.length_replicate] at hrest
  exact zerosUpTo_eq hzeros (spells_cons.1 hrest).1 (by omega)

end BitString
