import DepthaiCore.Lib.Numerals
import Mathlib.Algebra.Order.Round
import Mathlib.Data.Int.ConditionallyCompleteOrder
import Mathlib.Tactic.Positivity
import Mathlib.Tactic.Ring

/-!
# Rounding

A number becomes an integer by cutting it off towards zero, or by taking the nearest integer and of
two that are equally near the one farther from zero. Adding one half and cutting off is the nearest
integer for numbers that are not negative. For negative numbers it is one too much, unless the
nearest integer is zero.
-/

open scoped Numerals

namespace Rounding

variable {K : Type*} [Field K] [LinearOrder K] [FloorRing K]

/-- Towards zero. -/
def trunc (x : K) : ℤ :=
  if 0 ≤ x then ⌊x⌋ else ⌈x⌉

/-- The nearest integer. Of two that are equally near, the one that is farther from zero. -/
def nearest (x : K) : ℤ :=
  if 0 ≤ x then ⌊x + 1 / 2⌋ else ⌈x - 1 / 2⌉

variable [IsStrictOrderedRing K] {x : K}

theorem nearest_neg (x : K) : nearest (-x) = -nearest x := by
  rcases lt_trichotomy x 0 with hx | rfl | hx
  · rw [nearest, nearest, if_pos (by linarith), if_neg hx.not_ge, ← Int.floor_neg]
    congr 1
    ring
  · have hhalf : ⌊(1 / 2 : K)⌋ = 0 := Int.floor_eq_zero_iff.2 ⟨by norm_num, by norm_num⟩
    rw [neg_zero, nearest, if_pos le_rfl, zero_add, hhalf, neg_zero]
  · rw [nearest, nearest, if_neg (by linarith), if_pos hx.le, ← Int.ceil_neg]
    congr 1
    ring

theorem nearest_mono : Monotone (nearest : K → ℤ) := by
  intro x y hxy
  rw [nearest, nearest]
  split_ifs with hx hy hy
  · exact Int.floor_le_floor (by linarith)
  · exact absurd (hx.trans hxy) hy
  · exact (Int.ceil_le.2 (by push_cast; linarith)).trans (Int.floor_nonneg.2 (by positivity))
  · exact Int.ceil_le_ceil (by linarith)

theorem nearest_intCast (n : ℤ) : nearest (n : K) = n := by
  rw [nearest]
  split_ifs
  · exact Int.floor_eq_iff.2 ⟨by linarith, by linarith⟩
  · exact Int.ceil_eq_iff.2 ⟨by linarith, by linarith⟩

theorem nearest_nonneg (hx : 0 ≤ x) : 0 ≤ nearest x := by
  rw [nearest, if_pos hx]
  exact Int.floor_nonneg.2 (by positivity)

/-- One half more, cut off, is the nearest integer for a number that is not negative. -/
theorem trunc_of_nonneg (hx : 0 ≤ x) : trunc (x + 1 / 2) = nearest x := by
  rw [trunc, nearest, if_pos (by positivity), if_pos hx]

/-- For a negative number it is one too much, unless it is zero. -/
theorem trunc_of_neg (hx : x < 0) :
    trunc (x + 1 / 2) = if nearest x = 0 then 0 else nearest x + 1 := by
  have hceil : nearest x + 1 = ⌈x + 1 / 2⌉ := by
    rw [nearest, if_neg hx.not_ge, ← Int.ceil_add_one]
    congr 1
    ring
  have hle : ⌈x + 1 / 2⌉ ≤ 1 := Int.ceil_le.2 (by push_cast; linarith)
  rw [trunc]
  by_cases hhalf : 0 < x + 1 / 2
  · have hone : ⌈x + 1 / 2⌉ = 1 := le_antisymm hle (Int.ceil_pos.2 hhalf)
    rw [if_pos hhalf.le, if_pos (by omega)]
    exact Int.floor_eq_zero_iff.2 ⟨hhalf.le, by linarith⟩
  · have hnonpos : ⌈x + 1 / 2⌉ ≤ 0 := Int.ceil_le.2 (by push_cast; linarith)
    have hne : nearest x ≠ 0 := by omega
    rw [if_neg hne, hceil]
    by_cases hzero : 0 ≤ x + 1 / 2
    · have hx0 : x + 1 / 2 = 0 := le_antisymm (not_lt.1 hhalf) hzero
      rw [if_pos hzero, hx0, Int.floor_zero, Int.ceil_zero]
    · rw [if_neg hzero]

theorem trunc_mem {m n : ℤ} (hm : (m : K) ≤ x) (hn : x ≤ n) : m ≤ trunc x ∧ trunc x ≤ n := by
  rw [trunc]
  split_ifs
  · exact ⟨Int.le_floor.2 hm, Int.cast_le.1 ((Int.floor_le x).trans hn)⟩
  · exact ⟨Int.cast_le.1 (hm.trans (Int.le_ceil x)), Int.ceil_le.2 hn⟩

end Rounding
