import Mathlib.Tactic.NormNum

/-!
# Numbers of 32 bits

The numbers that a signed type of 32 bits has, as a predicate on the integers. Programs can then
compute with integers, and a number that does not fit is an event of its own. The division is the
one that cuts its result off towards zero.
-/

namespace Int32s

/-- A number from `-2 ^ 31` on and below `2 ^ 31`. -/
def Fits (n : ℤ) : Prop := -2 ^ 31 ≤ n ∧ n < 2 ^ 31

instance (n : ℤ) : Decidable (Fits n) := inferInstanceAs (Decidable (_ ∧ _))

/-- A result that has to fit. -/
def checked {ε : Type*} (fault : ε) (n : ℤ) : Except ε ℤ :=
  if Fits n then .ok n else .error fault

variable {n s : ℤ} {k m : ℕ}

theorem checked_eq_ok_iff {ε : Type*} {fault : ε} {a : ℤ} :
    checked fault n = .ok a ↔ Fits n ∧ n = a := by
  rw [checked]
  split_ifs with h
  · rw [Except.ok.injEq]
    exact (and_iff_right h).symm
  · exact iff_of_false (fun heq => by cases heq) fun heq => h heq.1

theorem fits_of_natAbs_le (h : n.natAbs ≤ m) (hm : m < 2 ^ 31) : Fits n := by
  have hcast : (m : ℤ) < 2 ^ 31 := by exact_mod_cast hm
  exact ⟨by omega, by omega⟩

theorem fits_sub_one (hm : m < 2 ^ 31) : Fits (m - 1) := by
  have hcast : (m : ℤ) < 2 ^ 31 := by exact_mod_cast hm
  exact ⟨by omega, by omega⟩

/-! ### Numbers that get a sign -/

theorem bmod_le_self (k m : ℕ) : (k : ℤ).bmod m ≤ k := by
  have hle : (k : ℤ) % m ≤ k := by exact_mod_cast Nat.mod_le k m
  rw [Int.bmod_def]
  split_ifs <;> omega

theorem bmod_of_lt (h : 2 * k < m) : (k : ℤ).bmod m = k := by
  rw [Int.bmod_def, Int.emod_eq_of_lt (Int.natCast_nonneg k) (by omega), if_pos (by omega)]

theorem bmod_eq_of_nonneg (hlt : k < m) (h : 0 ≤ (k : ℤ).bmod m) : (k : ℤ).bmod m = k := by
  rw [Int.bmod_def, Int.emod_eq_of_lt (Int.natCast_nonneg k) (by omega)] at h ⊢
  split_ifs at h ⊢ with hsmall
  · rfl
  · omega

/-! ### Quotients -/

theorem tdiv_pos_iff (hs : 0 < s) : 0 < n.tdiv s ↔ s ≤ n := by
  constructor
  · intro h
    by_contra hlt
    rcases le_total 0 n with hn | hn
    · rw [Int.tdiv_eq_zero_of_lt hn (not_le.1 hlt)] at h
      exact lt_irrefl 0 h
    · have hnonneg := Int.tdiv_nonneg (neg_nonneg.2 hn) hs.le
      rw [Int.neg_tdiv, neg_nonneg] at hnonneg
      exact h.not_ge hnonneg
  · intro h
    exact Int.le_tdiv_of_mul_le hs (by rwa [zero_add, one_mul])

theorem tdiv_neg_iff (hs : 0 < s) : n.tdiv s < 0 ↔ n ≤ -s := by
  rw [← neg_pos, ← Int.neg_tdiv, tdiv_pos_iff hs, le_neg]

end Int32s
