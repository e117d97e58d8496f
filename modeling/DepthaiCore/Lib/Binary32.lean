import Mathlib.Data.Int.Log
import Mathlib.Data.Rat.Floor

/-!
# Rounding to single precision

A positive number in the range of the normal numbers of the format binary32 is rounded to 24
significant bits: to the nearest multiple of the unit in the last place, and to the even one of two
that are equally near.
-/

namespace Binary32

/-- The nearest integer, the even one of two. -/
def roundTiesToEven (x : ℚ) : ℤ :=
  let below := ⌊x⌋
  if x - below < 1 / 2 then below
  else if 1 / 2 < x - below then below + 1
  else if below % 2 = 0 then below else below + 1

/-- The number of binary32 nearest to a positive number. -/
def ofRat (x : ℚ) : ℚ :=
  let ulp : ℚ := 2 ^ (Int.log 2 x - 23)
  roundTiesToEven (x / ulp) * ulp

theorem floor_le_roundTiesToEven (x : ℚ) : ⌊x⌋ ≤ roundTiesToEven x := by
  simp only [roundTiesToEven]
  split
  · exact le_rfl
  split
  · omega
  split <;> omega

theorem le_roundTiesToEven {n : ℤ} {x : ℚ} (h : (n : ℚ) ≤ x) : n ≤ roundTiesToEven x :=
  (Int.le_floor.2 h).trans (floor_le_roundTiesToEven x)

/-- **A number is not rounded below a power of two.** -/
theorem two_zpow_log_le_ofRat {x : ℚ} (hx : 0 < x) : (2 : ℚ) ^ Int.log 2 x ≤ ofRat x := by
  set e := Int.log 2 x with he
  have hulp : (0 : ℚ) < 2 ^ (e - 23) := zpow_pos two_pos _
  have hpow : (2 : ℚ) ^ e = 2 ^ 23 * 2 ^ (e - 23) := by
    rw [← zpow_natCast (2 : ℚ) 23, ← zpow_add₀ two_ne_zero]
    congr 1
    omega
  have hlog : (2 : ℚ) ^ e ≤ x := by
    have hself := Int.zpow_log_le_self (by norm_num : 1 < 2) hx
    simpa [he] using hself
  have hmantissa : ((2 ^ 23 : ℤ) : ℚ) ≤ x / 2 ^ (e - 23) := by
    rw [le_div_iff₀ hulp, Int.cast_pow, Int.cast_ofNat, ← hpow]
    exact hlog
  have hround : ((2 ^ 23 : ℤ) : ℚ) ≤ roundTiesToEven (x / 2 ^ (e - 23)) :=
    Int.cast_le.2 (le_roundTiesToEven hmantissa)
  calc (2 : ℚ) ^ e = ((2 ^ 23 : ℤ) : ℚ) * 2 ^ (e - 23) := by rw [hpow, Int.cast_pow, Int.cast_ofNat]
    _ ≤ roundTiesToEven (x / 2 ^ (e - 23)) * 2 ^ (e - 23) :=
      mul_le_mul_of_nonneg_right hround hulp.le

/-- **What is at least one is rounded to something that is at least one.** -/
theorem one_le_ofRat {x : ℚ} (hx : 1 ≤ x) : 1 ≤ ofRat x := by
  have hlog : 0 ≤ Int.log 2 x := by
    rw [Int.log_of_one_le_right 2 hx]
    exact Int.natCast_nonneg _
  calc (1 : ℚ) ≤ 2 ^ Int.log 2 x := one_le_zpow₀ one_le_two hlog
    _ ≤ ofRat x := two_zpow_log_le_ofRat (zero_lt_one.trans_le hx)

example : ofRat (1 / 10) = 13421773 / 134217728 := by decide +kernel

end Binary32
