import DepthaiCore.Lib.Numerals
import Mathlib.Algebra.Order.Field.Basic
import Mathlib.LinearAlgebra.Matrix.NonsingularInverse
import Mathlib.Tactic.LinearCombination

/-!
# Rotation matrices

A rotation of space is a matrix with three orthonormal columns and determinant one. It is its own
matrix of cofactors.

The sums and differences of its entries are four times the products of two coordinates of a unit
quaternion: the table of them is of rank one and has trace four. Any column with a positive entry on
the diagonal gives the quaternion.
-/

open scoped Numerals

namespace DepthaiCore.Rotations

open Matrix

variable {K : Type} [Field K]

/-- Three orthonormal columns, and determinant one. -/
structure Rotation (R : Matrix (Fin 3) (Fin 3) K) : Prop where
  orthonormal : Rᵀ * R = 1
  det : R.det = 1

namespace Rotation

variable {R : Matrix (Fin 3) (Fin 3) K}

theorem column (h : Rotation R) (i j : Fin 3) :
    R 0 i * R 0 j + R 1 i * R 1 j + R 2 i * R 2 j = if i = j then 1 else 0 := by
  rw [← Matrix.one_apply, ← h.orthonormal, mul_apply, Fin.sum_univ_three]
  rfl

theorem row (h : Rotation R) (i j : Fin 3) :
    R i 0 * R j 0 + R i 1 * R j 1 + R i 2 * R j 2 = if i = j then 1 else 0 := by
  rw [← Matrix.one_apply, ← mul_eq_one_comm.1 h.orthonormal, mul_apply, Fin.sum_univ_three]
  rfl

theorem adjugate_eq (h : Rotation R) : adjugate R = Rᵀ := by
  have hinv : R * adjugate R = 1 := by rw [mul_adjugate, h.det, one_smul]
  rw [← Matrix.one_mul (adjugate R), ← h.orthonormal, Matrix.mul_assoc, hinv, Matrix.mul_one]

/-- **Every entry is its own cofactor.** -/
theorem cofactor (h : Rotation R) (i j : Fin 3) :
    R i j = R (i + 1) (j + 1) * R (i + 2) (j + 2) - R (i + 1) (j + 2) * R (i + 2) (j + 1) := by
  have hentry : R i j = adjugate R j i := by rw [h.adjugate_eq, transpose_apply]
  rw [hentry, adjugate_fin_three]
  fin_cases i <;> fin_cases j <;> simp <;> ring

/-- The square of the length of a row, from the diagonal on. -/
theorem row_sq (h : Rotation R) (i : Fin 3) :
    R i i ^ 2 + R i (i + 1) ^ 2 + R i (i + 2) ^ 2 = 1 := by
  have hrow := h.row i i
  rw [if_pos rfl] at hrow
  rw [← hrow]
  fin_cases i <;> simp <;> ring

theorem column_sq (h : Rotation R) (i : Fin 3) :
    R i i ^ 2 + R (i + 1) i ^ 2 + R (i + 2) i ^ 2 = 1 := by
  have hcolumn := h.column i i
  rw [if_pos rfl] at hcolumn
  rw [← hcolumn]
  fin_cases i <;> simp <;> ring

theorem row_mul_row (h : Rotation R) (i : Fin 3) :
    R i i * R (i + 1) i + R i (i + 1) * R (i + 1) (i + 1) + R i (i + 2) * R (i + 1) (i + 2) = 0 := by
  have hrow := h.row i (i + 1)
  rw [if_neg (by fin_cases i <;> decide)] at hrow
  rw [← hrow]
  fin_cases i <;> simp <;> ring

theorem column_mul_column (h : Rotation R) (i : Fin 3) :
    R i i * R i (i + 1) + R (i + 1) i * R (i + 1) (i + 1) + R (i + 2) i * R (i + 2) (i + 1) = 0 := by
  have hcolumn := h.column i (i + 1)
  rw [if_neg (by fin_cases i <;> decide)] at hcolumn
  rw [← hcolumn]
  fin_cases i <;> simp <;> ring

end Rotation

/-! ### Sums and differences of entries -/

section Table

variable (R : Matrix (Fin 3) (Fin 3) K)

/-- The sum of the diagonal. -/
def diagonalSum : K :=
  R 0 0 + R 1 1 + R 2 2

/-- The difference of two entries across the diagonal, beside an axis. -/
def difference (i : Fin 3) : K :=
  R (i + 2) (i + 1) - R (i + 1) (i + 2)

/-- The sum of two entries across the diagonal. -/
def across (i j : Fin 3) : K :=
  R i j + R j i

/-- An entry of the diagonal against the others. -/
def excess (i : Fin 3) : K :=
  1 + R i i - R (i + 1) (i + 1) - R (i + 2) (i + 2)

end Table

theorem add_one_one (i : Fin 3) : i + 1 + 1 = i + 2 := by fin_cases i <;> rfl

theorem add_one_two (i : Fin 3) : i + 1 + 2 = i := by fin_cases i <;> rfl

theorem add_two_one (i : Fin 3) : i + 2 + 1 = i := by fin_cases i <;> rfl

theorem add_two_two (i : Fin 3) : i + 2 + 2 = i + 1 := by fin_cases i <;> rfl

theorem diagonalSum_eq (R : Matrix (Fin 3) (Fin 3) K) (i : Fin 3) :
    diagonalSum R = R i i + R (i + 1) (i + 1) + R (i + 2) (i + 2) := by
  rw [diagonalSum]
  fin_cases i <;> simp <;> ring

namespace Rotation

variable {R : Matrix (Fin 3) (Fin 3) K} (h : Rotation R) (i : Fin 3)
include h

/-- The entries that stand beside the diagonal, as cofactors. -/
theorem cofactor_next :
    R i (i + 1) = R (i + 1) (i + 2) * R (i + 2) i - R (i + 1) i * R (i + 2) (i + 2) ∧
      R (i + 1) i = R (i + 2) (i + 1) * R i (i + 2) - R (i + 2) (i + 2) * R i (i + 1) := by
  have hij := h.cofactor i (i + 1)
  have hji := h.cofactor (i + 1) i
  simp only [add_one_one, add_one_two] at hij hji
  exact ⟨hij, hji⟩

theorem difference_sq : difference R i ^ 2 = (1 + diagonalSum R) * excess R i := by
  have hcolumn := h.column_sq i
  have hrow := h.row_sq (i + 1)
  have hrow' := h.row_sq (i + 2)
  have hcofactor := h.cofactor i i
  simp only [add_one_one, add_one_two, add_two_one, add_two_two] at hrow hrow'
  rw [difference, diagonalSum_eq R i, excess]
  linear_combination hrow + hrow' - hcolumn - 2 * hcofactor

theorem difference_mul_difference :
    difference R i * difference R (i + 1) = (1 + diagonalSum R) * across R i (i + 1) := by
  have hrow := h.row_mul_row i
  have hcolumn := h.column_mul_column i
  obtain ⟨hij, hji⟩ := h.cofactor_next i
  rw [difference, difference, diagonalSum_eq R i, across, add_one_one, add_one_two]
  linear_combination -hrow - hcolumn - hij - hji

theorem difference_mul_across :
    difference R i * across R i (i + 1) = excess R i * difference R (i + 1) := by
  have hrow := h.row_mul_row (i + 2)
  have hcolumn := h.column_mul_column (i + 2)
  obtain ⟨hki, hik⟩ := h.cofactor_next (i + 2)
  simp only [add_two_one, add_two_two] at hrow hcolumn hki hik
  rw [difference, difference, across, excess, add_one_one, add_one_two]
  linear_combination hrow - hcolumn - hik + hki

theorem difference_mul_across' :
    difference R (i + 1) * across R i (i + 1) = excess R (i + 1) * difference R i := by
  have hrow := h.row_mul_row (i + 1)
  have hcolumn := h.column_mul_column (i + 1)
  obtain ⟨hjk, hkj⟩ := h.cofactor_next (i + 1)
  simp only [add_one_one, add_one_two] at hrow hcolumn hjk hkj
  rw [difference, difference, across, excess, add_one_one, add_one_two]
  linear_combination hcolumn - hrow + hjk - hkj

theorem across_sq : across R i (i + 1) ^ 2 = excess R i * excess R (i + 1) := by
  have hcolumn := h.column_sq i
  have hcolumn' := h.column_sq (i + 1)
  have hrow := h.row_sq (i + 2)
  have hcofactor := h.cofactor (i + 2) (i + 2)
  simp only [add_one_one, add_one_two, add_two_one, add_two_two] at hcolumn' hrow hcofactor
  rw [across, excess, excess, add_one_one, add_one_two]
  linear_combination hcolumn + hcolumn' - hrow + 2 * hcofactor

theorem across_mul_across :
    across R i (i + 1) * across R i (i + 2) = excess R i * across R (i + 1) (i + 2) := by
  have hrow := h.row_mul_row (i + 1)
  have hcolumn := h.column_mul_column (i + 1)
  obtain ⟨hjk, hkj⟩ := h.cofactor_next (i + 1)
  simp only [add_one_one, add_one_two] at hrow hcolumn hjk hkj
  rw [across, across, across, excess]
  linear_combination hrow + hcolumn - hjk - hkj

end Rotation

/-! ### The table -/

/-- What stands in the table for two axes. -/
def pair (R : Matrix (Fin 3) (Fin 3) K) (i j : Fin 3) : K :=
  if i = j then excess R i else across R i j

/-- **Four times the products of the coordinates of a quaternion**, with the scalar first. -/
def table (R : Matrix (Fin 3) (Fin 3) K) : Matrix (Fin 4) (Fin 4) K :=
  !![1 + diagonalSum R, difference R 0, difference R 1, difference R 2;
     difference R 0, excess R 0, across R 0 1, across R 0 2;
     difference R 1, across R 1 0, excess R 1, across R 1 2;
     difference R 2, across R 2 0, across R 2 1, excess R 2]

section Entries

variable (R : Matrix (Fin 3) (Fin 3) K) (i j : Fin 3)

theorem table_zero_succ : table R 0 i.succ = difference R i := by
  fin_cases i <;> rfl

theorem table_succ_zero : table R i.succ 0 = difference R i := by
  fin_cases i <;> rfl

theorem table_succ_succ : table R i.succ j.succ = pair R i j := by
  fin_cases i <;> fin_cases j <;> rfl

theorem pair_self : pair R i i = excess R i := if_pos rfl

theorem pair_next : pair R i (i + 1) = across R i (i + 1) :=
  if_neg (by fin_cases i <;> decide)

theorem pair_comm : pair R i j = pair R j i := by
  by_cases hij : i = j
  · rw [hij]
  · rw [pair, pair, if_neg hij, if_neg (Ne.symm hij), across, across, add_comm]

theorem table_comm (i j : Fin 4) : table R i j = table R j i := by
  cases i using Fin.cases with
  | zero =>
    cases j using Fin.cases with
    | zero => rfl
    | succ j => rw [table_zero_succ, table_succ_zero]
  | succ i =>
    cases j using Fin.cases with
    | zero => rw [table_zero_succ, table_succ_zero]
    | succ j => rw [table_succ_succ, table_succ_succ, pair_comm]

/-- Two axes are the same, or the one is next to the other. -/
theorem eq_or_next : j = i ∨ j = i + 1 ∨ i = j + 1 := by
  fin_cases i <;> fin_cases j <;> decide

theorem table_trace : table R 0 0 + table R 1 1 + table R 2 2 + table R 3 3 = 4 := by
  have hdiagonal : ∀ i : Fin 3, table R i.succ i.succ = excess R i := fun i =>
    (table_succ_succ R i i).trans (pair_self R i)
  show 1 + diagonalSum R + table R (Fin.succ 0) (Fin.succ 0) + table R (Fin.succ 1) (Fin.succ 1) +
    table R (Fin.succ 2) (Fin.succ 2) = 4
  rw [hdiagonal, hdiagonal, hdiagonal, diagonalSum]
  simp only [excess, Fin.isValue, zero_add, show (1 : Fin 3) + 1 = 2 from rfl,
    show (1 : Fin 3) + 2 = 0 from rfl, show (2 : Fin 3) + 1 = 0 from rfl,
    show (2 : Fin 3) + 2 = 1 from rfl]
  ring

end Entries

namespace Rotation

variable {R : Matrix (Fin 3) (Fin 3) K} (h : Rotation R) (i j k : Fin 3)
include h

theorem difference_mul : difference R i * difference R j = (1 + diagonalSum R) * pair R i j := by
  rcases eq_or_next i j with rfl | rfl | rfl
  · rw [pair_self, ← h.difference_sq, sq]
  · rw [pair_next, h.difference_mul_difference]
  · rw [pair_comm, pair_next, ← h.difference_mul_difference, mul_comm]

theorem difference_mul_pair : difference R i * pair R i j = excess R i * difference R j := by
  rcases eq_or_next i j with rfl | rfl | rfl
  · rw [pair_self, mul_comm]
  · rw [pair_next, h.difference_mul_across]
  · rw [pair_comm, pair_next, h.difference_mul_across']

theorem pair_sq : pair R i j * pair R i j = excess R i * excess R j := by
  rcases eq_or_next i j with rfl | rfl | rfl
  · rw [pair_self]
  · rw [pair_next, ← h.across_sq, sq]
  · rw [pair_comm, pair_next, mul_comm (excess R (j + 1)), ← h.across_sq, sq]

theorem pair_mul_pair : pair R i j * pair R i k = excess R i * pair R j k := by
  have hmain : ∀ i, pair R i (i + 1) * pair R i (i + 2) = excess R i * pair R (i + 1) (i + 2) := by
    intro i
    have hlast : pair R i (i + 2) = across R i (i + 2) := if_neg (by fin_cases i <;> decide)
    rw [pair_next, hlast, ← add_one_one, pair_next, add_one_one, h.across_mul_across]
  by_cases hjk : j = k
  · rw [hjk, h.pair_sq, pair_self]
  · by_cases hij : i = j
    · rw [hij, pair_self]
    · by_cases hik : i = k
      · rw [hik, pair_self, pair_comm, mul_comm]
      · -- the two others are the two axes beside the first
        have hothers : j = i + 1 ∧ k = i + 2 ∨ j = i + 2 ∧ k = i + 1 := by
          revert hjk hij hik
          fin_cases i <;> fin_cases j <;> fin_cases k <;> decide
        rcases hothers with ⟨rfl, rfl⟩ | ⟨rfl, rfl⟩
        · exact hmain i
        · rw [mul_comm, hmain i, pair_comm]

/-- **The table is of rank one.** -/
theorem table_mul_table (p i j : Fin 4) :
    table R p i * table R p j = table R p p * table R i j := by
  cases p using Fin.cases with
  | zero =>
    cases i using Fin.cases with
    | zero => rfl
    | succ i =>
      cases j using Fin.cases with
      | zero => rw [table_zero_succ, table_succ_zero, mul_comm]
      | succ j =>
        rw [table_zero_succ, table_zero_succ, table_succ_succ]
        exact h.difference_mul i j
  | succ p =>
    rw [table_succ_succ, pair_self]
    cases i using Fin.cases with
    | zero =>
      cases j using Fin.cases with
      | zero =>
        rw [table_succ_zero, h.difference_mul, pair_self, mul_comm]
        rfl
      | succ j =>
        rw [table_succ_zero, table_succ_succ, table_zero_succ, h.difference_mul_pair]
    | succ i =>
      cases j using Fin.cases with
      | zero =>
        rw [table_succ_zero, table_succ_succ, table_succ_zero, mul_comm, h.difference_mul_pair]
      | succ j =>
        rw [table_succ_succ, table_succ_succ, table_succ_succ, h.pair_mul_pair]

/-- **A quaternion from one row of the table**: the row, divided by twice the root of four times the
entry on the diagonal. -/
theorem products_of_pivot {p : Fin 4} {S : K} (hS : S ≠ 0) (hsq : S ^ 2 = 4 * table R p p)
    (i j : Fin 4) : 4 * (table R p i / S * (table R p j / S)) = table R i j := by
  rw [div_mul_div_comm, ← sq, h.table_mul_table, mul_div_assoc', ← mul_assoc, ← hsq,
    mul_div_cancel_left₀ _ (pow_ne_zero 2 hS)]

omit h in
theorem excess_sum (R : Matrix (Fin 3) (Fin 3) K) :
    excess R 0 + excess R 1 + excess R 2 = 3 - diagonalSum R := by
  simp only [excess, diagonalSum, Fin.isValue, zero_add, show (1 : Fin 3) + 1 = 2 from rfl,
    show (1 : Fin 3) + 2 = 0 from rfl, show (2 : Fin 3) + 1 = 0 from rfl,
    show (2 : Fin 3) + 2 = 1 from rfl]
  ring

theorem difference_sum_sq :
    difference R 0 ^ 2 + difference R 1 ^ 2 + difference R 2 ^ 2 =
      (1 + diagonalSum R) * (3 - diagonalSum R) := by
  rw [h.difference_sq, h.difference_sq, h.difference_sq, ← excess_sum]
  ring

end Rotation

/-! ### The angle -/

section Angle

variable [LinearOrder K] [IsStrictOrderedRing K] {R : Matrix (Fin 3) (Fin 3) K}

namespace Rotation

theorem diagonal_le_one (h : Rotation R) (i : Fin 3) : R i i ≤ 1 := by
  have hrow := h.row_sq i
  refine le_of_sq_le_sq ?_ zero_le_one
  have hfirst := sq_nonneg (R i (i + 1))
  have hsecond := sq_nonneg (R i (i + 2))
  linarith

/-- **The range of the trace.** -/
theorem diagonalSum_mem (h : Rotation R) : -1 ≤ diagonalSum R ∧ diagonalSum R ≤ 3 := by
  constructor
  · by_contra hlt
    rw [not_le] at hlt
    have hneg : 1 + diagonalSum R < 0 := by linarith
    have hexcess : ∀ i, excess R i ≤ 0 := by
      intro i
      by_contra hpos
      have hsq := h.difference_sq i
      have hprod := mul_neg_of_neg_of_pos hneg (not_le.1 hpos)
      have hnonneg := sq_nonneg (difference R i)
      linarith
    have hsum := excess_sum R
    linarith [hexcess 0, hexcess 1, hexcess 2]
  · rw [diagonalSum]
    linarith [h.diagonal_le_one 0, h.diagonal_le_one 1, h.diagonal_le_one 2]

/-- **The rotation by nothing.** -/
theorem eq_one_of_trace (h : Rotation R) (htrace : diagonalSum R = 3) : R = 1 := by
  have hdiagonal : ∀ i, R i i = 1 := by
    have h0 := h.diagonal_le_one 0
    have h1 := h.diagonal_le_one 1
    have h2 := h.diagonal_le_one 2
    rw [diagonalSum] at htrace
    intro i
    fin_cases i <;> simp only [Fin.isValue, Fin.zero_eta, Fin.mk_one, Fin.reduceFinMk] <;> linarith
  have hbeside : ∀ i, R i (i + 1) = 0 ∧ R i (i + 2) = 0 := by
    intro i
    have hrow := h.row_sq i
    rw [hdiagonal] at hrow
    have hfirst := sq_nonneg (R i (i + 1))
    have hsecond := sq_nonneg (R i (i + 2))
    exact ⟨pow_eq_zero_iff two_ne_zero |>.1 (by linarith),
      pow_eq_zero_iff two_ne_zero |>.1 (by linarith)⟩
  funext i j
  rcases eq_or_next i j with rfl | rfl | rfl
  · rw [hdiagonal, one_apply_eq]
  · rw [(hbeside i).1, one_apply_ne (by fin_cases i <;> decide)]
  · have hlast := (hbeside (j + 1)).2
    rw [add_one_two] at hlast
    rw [hlast, one_apply_ne (by fin_cases j <;> decide)]

end Rotation

end Angle

/-! ### Turns about an axis -/

section Axis

/-- The turn about an axis, by the cosine and the sine of the angle. -/
def rodrigues (u : Fin 3 → K) (c s : K) : Matrix (Fin 3) (Fin 3) K :=
  !![c + u 0 * u 0 * (1 - c), u 0 * u 1 * (1 - c) - u 2 * s, u 0 * u 2 * (1 - c) + u 1 * s;
     u 1 * u 0 * (1 - c) + u 2 * s, c + u 1 * u 1 * (1 - c), u 1 * u 2 * (1 - c) - u 0 * s;
     u 2 * u 0 * (1 - c) - u 1 * s, u 2 * u 1 * (1 - c) + u 0 * s, c + u 2 * u 2 * (1 - c)]

variable (u : Fin 3 → K) (c s : K) (i : Fin 3)

theorem rodrigues_self : rodrigues u c s i i = c + u i * u i * (1 - c) := by
  fin_cases i <;> rfl

theorem rodrigues_next :
    rodrigues u c s i (i + 1) = u i * u (i + 1) * (1 - c) - u (i + 2) * s := by
  fin_cases i
  · rfl
  · rfl
  · show u 2 * u 0 * (1 - c) - u 1 * s = _
    rfl

theorem rodrigues_prev :
    rodrigues u c s (i + 1) i = u i * u (i + 1) * (1 - c) + u (i + 2) * s := by
  rw [mul_comm (u i)]
  fin_cases i <;> rfl

/-- Across the diagonal stand the products with the axis. -/
theorem difference_rodrigues : difference (rodrigues u c s) i = 2 * s * u i := by
  have hnext := rodrigues_next u c s (i + 1)
  have hprev := rodrigues_prev u c s (i + 1)
  simp only [add_one_one, add_one_two] at hnext hprev
  rw [difference, hnext, hprev]
  ring

theorem diagonalSum_rodrigues {u : Fin 3 → K} (hu : u 0 * u 0 + u 1 * u 1 + u 2 * u 2 = 1) :
    diagonalSum (rodrigues u c s) = 1 + 2 * c := by
  rw [diagonalSum, rodrigues_self, rodrigues_self, rodrigues_self]
  linear_combination (1 - c) * hu

/-- **A rotation is the turn about the axis of its differences.** Of a half turn they are zero. -/
theorem Rotation.rodrigues_difference [NeZero (2 : K)] {R : Matrix (Fin 3) (Fin 3) K}
    (h : Rotation R) {c s : K} (hs : s ≠ 0) (hsq : s ^ 2 = 1 - c ^ 2)
    (htrace : diagonalSum R = 1 + 2 * c) :
    rodrigues (fun i => difference R i / (2 * s)) c s = R := by
  have htwo : (2 : K) ≠ 0 := NeZero.ne 2
  have hpair : ∀ i j, difference R i / (2 * s) * (difference R j / (2 * s)) * (1 - c) =
      pair R i j / 2 := by
    intro i j
    have hmul : difference R i * difference R j * (1 - c) = 2 * s ^ 2 * pair R i j := by
      rw [h.difference_mul, htrace, hsq]
      ring
    field_simp
    linear_combination hmul
  have hsin : ∀ i, difference R i / (2 * s) * s = difference R i / 2 := by
    intro i
    field_simp
  funext i j
  rcases eq_or_next i j with rfl | rfl | rfl
  · have hdiagonal := diagonalSum_eq R j
    rw [rodrigues_self, hpair, pair_self, excess]
    field_simp
    linear_combination hdiagonal - htrace
  · rw [rodrigues_next, hpair, hsin, pair_next, across, difference, add_two_one, add_two_two]
    field_simp
    ring
  · rw [rodrigues_prev, hpair, hsin, pair_next, across, difference, add_two_one, add_two_two]
    field_simp
    ring

end Axis

end DepthaiCore.Rotations
