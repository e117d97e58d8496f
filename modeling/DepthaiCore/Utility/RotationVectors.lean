import DepthaiCore.Lib.Rotations
import DepthaiCore.Utility.MatrixOps
import Mathlib.Analysis.SpecialFunctions.Trigonometric.Inverse

/-!
# Rotation vectors

A rotation as a vector: its direction is the axis and its length the angle. The matrix is made of
the vector by the formula of Rodrigues, and the vector of the matrix by its trace, which gives the
angle, and by its differences across the diagonal, which give the axis.

The differences of a half turn are all zero, so its axis is not found: the quotient by the sine of
the angle has no value. The numbers are real.
-/

open scoped Numerals

namespace DepthaiCore.MatrixOps

open Matrix Rotations

noncomputable def matrixToVector (R : List (List ℝ)) : Except Failure (List ℝ) :=
  if ¬IsThreeByThree R then
    .error (.invalidArgument "Expected a 3x3 rotation matrix.")
  else
    let trace := entry R 0 0 + entry R 1 1 + entry R 2 2
    let cos_angle := (trace - 1) * 0.5
    let cos_angle := max (-1) (min 1 cos_angle)
    let angle := Real.arccos cos_angle
    if |angle| < 1 / 1000000 then
      .ok [0, 0, 0]
    else do
      let rx := entry R 2 1 - entry R 1 2
      let ry := entry R 0 2 - entry R 2 0
      let rz := entry R 1 0 - entry R 0 1
      let sin_angle := √(rx * rx + ry * ry + rz * rz) * 0.5
      let k ← quotient 1 (2 * sin_angle)
      let x := k * rx
      let y := k * ry
      let z := k * rz
      return [x * angle, y * angle, z * angle]

noncomputable def rotationMatrixToVector (R : List (List ℝ)) : Except Failure (List ℝ) :=
  matrixToVector R

noncomputable def rvecToRotationMatrix (rvec : Fin 3 → ℝ) : List (List ℝ) :=
  let theta := √(rvec 0 * rvec 0 + rvec 1 * rvec 1 + rvec 2 * rvec 2)
  if theta < 1 / 10000000000 then
    [[1, 0, 0], [0, 1, 0], [0, 0, 1]]
  else
    let ux := rvec 0 / theta
    let uy := rvec 1 / theta
    let uz := rvec 2 / theta
    let c := Real.cos theta
    let s := Real.sin theta
    let one_minus_c := 1 - c
    [[c + ux * ux * one_minus_c, ux * uy * one_minus_c - uz * s, ux * uz * one_minus_c + uy * s],
     [uy * ux * one_minus_c + uz * s, c + uy * uy * one_minus_c, uy * uz * one_minus_c - ux * s],
     [uz * ux * one_minus_c - uy * s, uz * uy * one_minus_c + ux * s, c + uz * uz * one_minus_c]]

/-- The elements of a vector of three. -/
def rvecOf (v : List ℝ) : Fin 3 → ℝ :=
  fun i => v.getD i 0

/-- The length of a rotation vector. -/
noncomputable def rvecLength (rvec : Fin 3 → ℝ) : ℝ :=
  √(rvec 0 * rvec 0 + rvec 1 * rvec 1 + rvec 2 * rvec 2)

/-- The angle of a rotation. -/
noncomputable def angleOf (R : Matrix3 ℝ) : ℝ :=
  Real.arccos ((diagonalSum R - 1) / 2)

/-- A matrix as a vector of rows. -/
def rowsOf (R : Matrix3 ℝ) : List (List ℝ) :=
  [[R 0 0, R 0 1, R 0 2], [R 1 0, R 1 1, R 1 2], [R 2 0, R 2 1, R 2 2]]

theorem eq_rowsOf {rows : List (List ℝ)} (h : IsThreeByThree rows) :
    rows = rowsOf (rotationOf rows) := by
  obtain ⟨hlength, h0, h1, h2⟩ := h
  obtain ⟨a, b, c, rfl⟩ := List.length_eq_three.1 hlength
  obtain ⟨a0, a1, a2, rfl⟩ := List.length_eq_three.1 h0
  obtain ⟨b0, b1, b2, rfl⟩ := List.length_eq_three.1 h1
  obtain ⟨c0, c1, c2, rfl⟩ := List.length_eq_three.1 h2
  rfl

theorem isThreeByThree_rowsOf (R : Matrix3 ℝ) : IsThreeByThree (rowsOf R) :=
  ⟨rfl, rfl, rfl, rfl⟩

theorem rvecLength_mul_self (v : Fin 3 → ℝ) :
    rvecLength v * rvecLength v = v 0 * v 0 + v 1 * v 1 + v 2 * v 2 :=
  Real.mul_self_sqrt <| by
    linarith [mul_self_nonneg (v 0), mul_self_nonneg (v 1), mul_self_nonneg (v 2)]

/-- **What `rvecToRotationMatrix` makes of a vector** is the turn about it. -/
theorem rvecToRotationMatrix_of_le {v : Fin 3 → ℝ} (hv : 1 / 10000000000 ≤ rvecLength v) :
    rvecToRotationMatrix v = rowsOf (rodrigues (fun i => v i / rvecLength v)
      (Real.cos (rvecLength v)) (Real.sin (rvecLength v))) :=
  if_neg (not_lt.2 hv)

theorem rvecToRotationMatrix_zero {v : Fin 3 → ℝ} (hv : rvecLength v = 0) :
    rvecToRotationMatrix v = rowsOf 1 := by
  refine (if_pos ?_).trans ?_
  · show rvecLength v < 1 / 10000000000
    rw [hv]
    norm_num
  · simp [rowsOf]

section Angle

variable {R : Matrix3 ℝ}

theorem angleOf_nonneg (R : Matrix3 ℝ) : 0 ≤ angleOf R := Real.arccos_nonneg _

theorem angleOf_le_pi (R : Matrix3 ℝ) : angleOf R ≤ Real.pi := Real.arccos_le_pi _

theorem cos_angleOf (hR : -1 ≤ diagonalSum R ∧ diagonalSum R ≤ 3) :
    diagonalSum R = 1 + 2 * Real.cos (angleOf R) := by
  rw [angleOf, Real.cos_arccos (by linarith [hR.1]) (by linarith [hR.2])]
  ring

theorem arccos_clamp (hR : -1 ≤ diagonalSum R ∧ diagonalSum R ≤ 3) :
    Real.arccos (max (-1) (min 1 ((diagonalSum R - 1) * 0.5))) = angleOf R := by
  have hhalf : (diagonalSum R - 1) * 0.5 = (diagonalSum R - 1) / 2 := by ring
  rw [hhalf, min_eq_right (by linarith [hR.2]), max_eq_right (by linarith [hR.1]), angleOf]

theorem matrixToVector_of_lt (hR : -1 ≤ diagonalSum R ∧ diagonalSum R ≤ 3)
    (hlt : angleOf R < 1 / 1000000) : matrixToVector (rowsOf R) = .ok [0, 0, 0] := by
  refine (if_neg (not_not_intro (isThreeByThree_rowsOf R))).trans (if_pos ?_)
  show |Real.arccos (max (-1) (min 1 ((diagonalSum R - 1) * 0.5)))| < 1 / 1000000
  rw [arccos_clamp hR, abs_of_nonneg (angleOf_nonneg R)]
  exact hlt

/-- **What `matrixToVector` makes of a matrix** whose differences have the length of the sine. -/
theorem matrixToVector_of_le (hR : -1 ≤ diagonalSum R ∧ diagonalSum R ≤ 3)
    (hle : 1 / 1000000 ≤ angleOf R)
    (hsum : difference R 0 * difference R 0 + difference R 1 * difference R 1 +
      difference R 2 * difference R 2 = (2 * Real.sin (angleOf R)) ^ 2) :
    matrixToVector (rowsOf R) = do
      let k ← quotient 1 (2 * Real.sin (angleOf R))
      return [k * difference R 0 * angleOf R, k * difference R 1 * angleOf R,
        k * difference R 2 * angleOf R] := by
  have hsin : √(difference R 0 * difference R 0 + difference R 1 * difference R 1 +
      difference R 2 * difference R 2) * 0.5 = Real.sin (angleOf R) := by
    have hnonneg := Real.sin_nonneg_of_nonneg_of_le_pi (angleOf_nonneg R) (angleOf_le_pi R)
    rw [hsum, Real.sqrt_sq (by linarith)]
    ring
  have hangle : ¬|Real.arccos (max (-1) (min 1 ((diagonalSum R - 1) * 0.5)))| < 1 / 1000000 := by
    rw [arccos_clamp hR, abs_of_nonneg (angleOf_nonneg R), not_lt]
    exact hle
  rw [← hsin, ← arccos_clamp hR]
  exact (if_neg (not_not_intro (isThreeByThree_rowsOf R))).trans (if_neg hangle)

/-! ### From a matrix and back -/

theorem difference_mul_self_sum (h : Rotation R) :
    difference R 0 * difference R 0 + difference R 1 * difference R 1 +
      difference R 2 * difference R 2 = (2 * Real.sin (angleOf R)) ^ 2 := by
  have hsum := h.difference_sum_sq
  have htrace := cos_angleOf h.diagonalSum_mem
  have hcircle := Real.sin_sq_add_cos_sq (angleOf R)
  rw [htrace] at hsum
  linear_combination hsum - 4 * hcircle

theorem eq_one_of_angleOf (h : Rotation R) (hangle : angleOf R = 0) : R = 1 := by
  have htrace := cos_angleOf h.diagonalSum_mem
  rw [hangle, Real.cos_zero] at htrace
  refine h.eq_one_of_trace ?_
  linarith

/-- The vector of a rotation that is made again. -/
def ComesBack (rows : List (List ℝ)) : Prop :=
  ∃ v, matrixToVector rows = .ok v ∧ rvecToRotationMatrix (rvecOf v) = rows

theorem matrixToVector_one : matrixToVector (rowsOf 1) = .ok [0, 0, 0] := by
  have hrange : (-1 : ℝ) ≤ diagonalSum 1 ∧ diagonalSum (1 : Matrix3 ℝ) ≤ 3 := by
    norm_num [diagonalSum]
  have hangle : angleOf 1 = 0 := by
    rw [angleOf, Real.arccos_eq_zero]
    norm_num [diagonalSum]
  refine matrixToVector_of_lt hrange ?_
  rw [hangle]
  norm_num

/-- **A half turn has no vector.** Its differences are all zero. -/
theorem matrixToVector_half (h : Rotation R) (hangle : angleOf R = Real.pi) :
    matrixToVector (rowsOf R) = .error .divisionByZero := by
  have hle : 1 / 1000000 ≤ angleOf R := by
    rw [hangle]
    linarith [Real.two_le_pi]
  rw [matrixToVector_of_le h.diagonalSum_mem hle (difference_mul_self_sum h), hangle, Real.sin_pi,
    mul_zero, quotient, if_pos rfl]
  rfl

/-- **The vector of a rotation by less than a half turn** makes the rotation again. -/
theorem comesBack_of_lt (h : Rotation R) (hle : 1 / 1000000 ≤ angleOf R)
    (hlt : angleOf R < Real.pi) : ComesBack (rowsOf R) := by
  have hpos : 0 < angleOf R := by linarith
  have hsin : 0 < Real.sin (angleOf R) := Real.sin_pos_of_pos_of_lt_pi hpos hlt
  have hsum := difference_mul_self_sum h
  have hvector := matrixToVector_of_le h.diagonalSum_mem hle hsum
  rw [quotient_of_ne (mul_pos two_pos hsin).ne'] at hvector
  refine ⟨_, hvector, ?_⟩
  -- the vector is the axis, times the angle
  have hentry : ∀ i, rvecOf [1 / (2 * Real.sin (angleOf R)) * difference R 0 * angleOf R,
      1 / (2 * Real.sin (angleOf R)) * difference R 1 * angleOf R,
      1 / (2 * Real.sin (angleOf R)) * difference R 2 * angleOf R] i =
      difference R i / (2 * Real.sin (angleOf R)) * angleOf R := by
    intro i
    have hdiv : difference R i / (2 * Real.sin (angleOf R)) =
        1 / (2 * Real.sin (angleOf R)) * difference R i := by ring
    rw [hdiv]
    fin_cases i <;> rfl
  generalize rvecOf _ = v at hentry
  have hlength : rvecLength v = angleOf R := by
    have hsq : v 0 * v 0 + v 1 * v 1 + v 2 * v 2 = angleOf R ^ 2 := by
      rw [hentry, hentry, hentry]
      field_simp
      linear_combination hsum
    rw [rvecLength, hsq, Real.sqrt_sq hpos.le]
  have haxis : (fun i => v i / angleOf R) =
      fun i => difference R i / (2 * Real.sin (angleOf R)) := by
    funext i
    rw [hentry, mul_div_cancel_right₀ _ hpos.ne']
  rw [rvecToRotationMatrix_of_le (by rw [hlength]; linarith), hlength, haxis,
    h.rodrigues_difference hsin.ne' (Real.sin_sq _) (cos_angleOf h.diagonalSum_mem)]

/-- **The rotations that come back** are all but the half turns. -/
theorem comesBack_iff (h : Rotation R) (hangle : angleOf R = 0 ∨ 1 / 1000000 ≤ angleOf R) :
    ComesBack (rowsOf R) ↔ angleOf R ≠ Real.pi := by
  constructor
  · intro hback hhalf
    obtain ⟨v, hv, -⟩ := hback
    rw [matrixToVector_half h hhalf] at hv
    cases hv
  · intro hne
    rcases hangle with hzero | hle
    · rw [eq_one_of_angleOf h hzero]
      refine ⟨[0, 0, 0], matrixToVector_one, rvecToRotationMatrix_zero ?_⟩
      simp [rvecLength, rvecOf]
    · exact comesBack_of_lt h hle ((angleOf_le_pi R).lt_of_ne hne)

end Angle

/-! ### From a vector and back -/

/-- **A vector that is shorter than a half turn** is made again of its matrix. -/
theorem matrixToVector_rvecToRotationMatrix {v : Fin 3 → ℝ} (hle : 1 / 1000000 ≤ rvecLength v)
    (hlt : rvecLength v < Real.pi) :
    matrixToVector (rvecToRotationMatrix v) = .ok [v 0, v 1, v 2] := by
  have hpos : 0 < rvecLength v := by linarith
  have hsin : 0 < Real.sin (rvecLength v) := Real.sin_pos_of_pos_of_lt_pi hpos hlt
  rw [rvecToRotationMatrix_of_le (by linarith)]
  have haxis : v 0 / rvecLength v * (v 0 / rvecLength v) +
      v 1 / rvecLength v * (v 1 / rvecLength v) +
      v 2 / rvecLength v * (v 2 / rvecLength v) = 1 := by
    field_simp
    linear_combination -rvecLength_mul_self v
  generalize hR : rodrigues (fun i => v i / rvecLength v) (Real.cos (rvecLength v))
    (Real.sin (rvecLength v)) = R
  have htrace : diagonalSum R = 1 + 2 * Real.cos (rvecLength v) := by
    rw [← hR]
    exact diagonalSum_rodrigues _ _ haxis
  have hdifference : ∀ i, difference R i = 2 * Real.sin (rvecLength v) * (v i / rvecLength v) := by
    intro i
    rw [← hR, difference_rodrigues]
  have hrange : -1 ≤ diagonalSum R ∧ diagonalSum R ≤ 3 := by
    rw [htrace]
    constructor <;> linarith [Real.neg_one_le_cos (rvecLength v), Real.cos_le_one (rvecLength v)]
  have hangle : angleOf R = rvecLength v := by
    have hhalf : (1 + 2 * Real.cos (rvecLength v) - 1) / 2 = Real.cos (rvecLength v) := by ring
    rw [angleOf, htrace, hhalf, Real.arccos_cos hpos.le hlt.le]
  have hsum : difference R 0 * difference R 0 + difference R 1 * difference R 1 +
      difference R 2 * difference R 2 = (2 * Real.sin (angleOf R)) ^ 2 := by
    rw [hangle, hdifference, hdifference, hdifference]
    linear_combination (2 * Real.sin (rvecLength v)) ^ 2 * haxis
  have hcancel : ∀ i, 1 / (2 * Real.sin (rvecLength v)) *
      (2 * Real.sin (rvecLength v) * (v i / rvecLength v)) * rvecLength v = v i := by
    intro i
    field_simp
  rw [matrixToVector_of_le hrange (hangle ▸ hle) hsum, hangle,
    quotient_of_ne (mul_pos two_pos hsin).ne', hdifference, hdifference, hdifference]
  show Except.ok _ = _
  rw [hcancel, hcancel, hcancel]

theorem matrixToVector_rvecToRotationMatrix_zero {v : Fin 3 → ℝ} (hv : rvecLength v = 0) :
    matrixToVector (rvecToRotationMatrix v) = .ok [v 0, v 1, v 2] := by
  have hsum := rvecLength_mul_self v
  rw [hv, mul_zero] at hsum
  have h0 : v 0 = 0 := by nlinarith [mul_self_nonneg (v 1), mul_self_nonneg (v 2)]
  have h1 : v 1 = 0 := by nlinarith [mul_self_nonneg (v 0), mul_self_nonneg (v 2)]
  have h2 : v 2 = 0 := by nlinarith [mul_self_nonneg (v 0), mul_self_nonneg (v 1)]
  rw [rvecToRotationMatrix_zero hv, matrixToVector_one, h0, h1, h2]

/-- **Rotations and their vectors** make each other again, the half turns aside. -/
theorem rotationVectors_iff {rows : List (List ℝ)} (v : Fin 3 → ℝ) (hrows : IsThreeByThree rows)
    (hrotation : Rotation (rotationOf rows))
    (hangle : angleOf (rotationOf rows) = 0 ∨ 1 / 1000000 ≤ angleOf (rotationOf rows)) :
    (ComesBack rows ↔ angleOf (rotationOf rows) ≠ Real.pi) ∧
      (rvecLength v = 0 ∨ 1 / 1000000 ≤ rvecLength v ∧ rvecLength v < Real.pi →
        matrixToVector (rvecToRotationMatrix v) = .ok [v 0, v 1, v 2]) := by
  constructor
  · have hback := comesBack_iff hrotation hangle
    rwa [← eq_rowsOf hrows] at hback
  · intro hv
    rcases hv with hzero | ⟨hle, hlt⟩
    · exact matrixToVector_rvecToRotationMatrix_zero hzero
    · exact matrixToVector_rvecToRotationMatrix hle hlt

/-- A quarter turn, and a turn by one. -/
theorem comesBack_quarter : ComesBack [[0, -1, 0], [1, 0, 0], [0, 0, 1]] ∧
    matrixToVector (rvecToRotationMatrix ![0, 0, 1]) = .ok [0, 0, 1] := by
  have hrotation : Rotation (rotationOf [[0, -1, 0], [1, 0, 0], [0, 0, 1]] : Matrix3 ℝ) := by
    constructor
    · ext i j
      fin_cases i <;> fin_cases j <;> simp [mul_apply, Fin.sum_univ_three, rotationOf, entry]
    · simp [det_fin_three, rotationOf, entry]
  have hangle : angleOf (rotationOf [[0, -1, 0], [1, 0, 0], [0, 0, 1]]) = Real.pi / 2 := by
    have hzero : (diagonalSum (rotationOf [[0, -1, 0], [1, 0, 0], [0, 0, 1]] : Matrix3 ℝ) - 1) / 2 =
        0 := by
      norm_num [diagonalSum, rotationOf, entry]
    rw [angleOf, hzero, Real.arccos_zero]
  have hlength : rvecLength ![0, 0, 1] = 1 := by simp [rvecLength]
  have hright : (1 : ℝ) / 1000000 ≤ Real.pi / 2 := by linarith [Real.two_le_pi]
  obtain ⟨hback, hvector⟩ := rotationVectors_iff ![0, 0, 1] ⟨rfl, rfl, rfl, rfl⟩ hrotation
    (.inr (hangle ▸ hright))
  refine ⟨hback.2 ?_, hvector (.inr ⟨?_, ?_⟩)⟩
  · rw [hangle]
    linarith [Real.two_le_pi]
  · rw [hlength]
    norm_num
  · rw [hlength]
    linarith [Real.two_le_pi]

/-- **A half turn about the first axis**, which has no vector. -/
theorem not_comesBack_half :
    Rotation (rotationOf [[1, 0, 0], [0, -1, 0], [0, 0, -1]] : Matrix3 ℝ) ∧
      matrixToVector [[1, 0, 0], [0, -1, 0], [0, 0, -1]] = .error .divisionByZero ∧
      ¬ComesBack [[1, 0, 0], [0, -1, 0], [0, 0, -1]] := by
  have hrotation : Rotation (rotationOf [[1, 0, 0], [0, -1, 0], [0, 0, -1]] : Matrix3 ℝ) := by
    constructor
    · ext i j
      fin_cases i <;> fin_cases j <;> simp [mul_apply, Fin.sum_univ_three, rotationOf, entry]
    · simp [det_fin_three, rotationOf, entry]
  have hangle : angleOf (rotationOf [[1, 0, 0], [0, -1, 0], [0, 0, -1]]) = Real.pi := by
    rw [angleOf, Real.arccos_eq_pi]
    norm_num [diagonalSum, rotationOf, entry]
  have hhalf := matrixToVector_half hrotation hangle
  rw [← eq_rowsOf ⟨rfl, rfl, rfl, rfl⟩] at hhalf
  refine ⟨hrotation, hhalf, ?_⟩
  rintro ⟨v, hv, -⟩
  rw [hhalf] at hv
  cases hv

end DepthaiCore.MatrixOps
