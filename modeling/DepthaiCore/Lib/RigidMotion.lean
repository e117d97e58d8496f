import DepthaiCore.Lib.Numerals
import Mathlib.LinearAlgebra.Matrix.NonsingularInverse

/-!
# Rigid motions in homogeneous coordinates

A motion of space is a matrix with four rows: a linear part, a shift beside it, and a last row that
keeps the last coordinate. It is rigid if the linear part is orthonormal, and then its inverse has
the transposed linear part.

Frames that are known relative to one common frame are known relative to each other. The relative
motions are those of a groupoid.
-/

open scoped Numerals

namespace RigidMotion

open Matrix

variable {K : Type*} [CommRing K]

/-- The matrix with a linear part and a shift. -/
def motion (R : Matrix (Fin 3) (Fin 3) K) (t : Fin 3 → K) : Matrix (Fin 4) (Fin 4) K :=
  !![R 0 0, R 0 1, R 0 2, t 0;
     R 1 0, R 1 1, R 1 2, t 1;
     R 2 0, R 2 1, R 2 2, t 2;
     0, 0, 0, 1]

/-- The linear part. -/
def linear (M : Matrix (Fin 4) (Fin 4) K) : Matrix (Fin 3) (Fin 3) K :=
  fun i j => M i.castSucc j.castSucc

/-- The shift. -/
def shift (M : Matrix (Fin 4) (Fin 4) K) : Fin 3 → K :=
  fun i => M i.castSucc 3

@[simp] theorem linear_motion (R : Matrix (Fin 3) (Fin 3) K) (t : Fin 3 → K) :
    linear (motion R t) = R := by
  funext i j
  fin_cases i <;> fin_cases j <;> rfl

@[simp] theorem shift_motion (R : Matrix (Fin 3) (Fin 3) K) (t : Fin 3 → K) :
    shift (motion R t) = t := by
  funext i
  fin_cases i <;> rfl

theorem motion_mul_motion (R S : Matrix (Fin 3) (Fin 3) K) (t u : Fin 3 → K) :
    motion R t * motion S u = motion (R * S) (R *ᵥ u + t) := by
  funext i j
  fin_cases i <;> fin_cases j <;>
    simp [motion, Matrix.mul_apply, Matrix.mulVec, dotProduct, Fin.sum_univ_four,
      Fin.sum_univ_three]

theorem motion_one : motion (1 : Matrix (Fin 3) (Fin 3) K) 0 = 1 := by
  funext i j
  fin_cases i <;> fin_cases j <;> rfl

/-- The last row keeps the last coordinate. -/
def Motion (M : Matrix (Fin 4) (Fin 4) K) : Prop :=
  M = motion (linear M) (shift M)

theorem motion_isMotion (R : Matrix (Fin 3) (Fin 3) K) (t : Fin 3 → K) : Motion (motion R t) := by
  rw [Motion, linear_motion, shift_motion]

theorem Motion.mul {M N : Matrix (Fin 4) (Fin 4) K} (hM : Motion M) (hN : Motion N) :
    Motion (M * N) := by
  rw [hM, hN, motion_mul_motion]
  exact motion_isMotion _ _

/-! ### Inverses -/

/-- The inverse of a rigid motion. -/
def reverse (M : Matrix (Fin 4) (Fin 4) K) : Matrix (Fin 4) (Fin 4) K :=
  motion (linear M)ᵀ (-((linear M)ᵀ *ᵥ shift M))

/-- A motion with an orthonormal linear part. -/
structure Rigid (M : Matrix (Fin 4) (Fin 4) K) : Prop where
  motion : Motion M
  orthonormal : (linear M)ᵀ * linear M = 1

variable {M N : Matrix (Fin 4) (Fin 4) K}

theorem reverse_isMotion (M : Matrix (Fin 4) (Fin 4) K) : Motion (reverse M) :=
  motion_isMotion _ _

theorem Rigid.one : Rigid (1 : Matrix (Fin 4) (Fin 4) K) := by
  rw [← motion_one]
  exact ⟨motion_isMotion _ _, by simp⟩

theorem Rigid.mul (hM : Rigid M) (hN : Rigid N) : Rigid (M * N) := by
  refine ⟨hM.motion.mul hN.motion, ?_⟩
  have hlinear : linear (M * N) = linear M * linear N := by
    conv_lhs => rw [hM.motion, hN.motion]
    rw [motion_mul_motion, linear_motion]
  rw [hlinear, Matrix.transpose_mul, Matrix.mul_assoc, ← Matrix.mul_assoc (linear M)ᵀ,
    hM.orthonormal, Matrix.one_mul, hN.orthonormal]

/-- **The inverse of a rigid motion**, from the left. -/
theorem Rigid.reverse_mul (h : Rigid M) : reverse M * M = 1 := by
  conv_lhs => rw [reverse, h.motion]
  rw [linear_motion, shift_motion, motion_mul_motion, h.orthonormal, add_neg_cancel, motion_one]

/-- **The inverse of a rigid motion**, from the right. -/
theorem Rigid.mul_reverse (h : Rigid M) : M * reverse M = 1 :=
  mul_eq_one_comm.mp h.reverse_mul

/-! ### Points -/

/-- A point of space with the last coordinate that a motion keeps. -/
def extend (v : Fin 3 → K) : Fin 4 → K :=
  ![v 0, v 1, v 2, 1]

/-- **A motion of a point.** -/
theorem motion_mulVec_extend (R : Matrix (Fin 3) (Fin 3) K) (t v : Fin 3 → K) :
    motion R t *ᵥ extend v = extend (R *ᵥ v + t) := by
  funext i
  fin_cases i <;>
    simp [motion, extend, Matrix.mulVec, dotProduct, Fin.sum_univ_four, Fin.sum_univ_three]

/-- **Back from where a frame is.** -/
theorem reverse_motion_mulVec_extend (R : Matrix (Fin 3) (Fin 3) K) (t v : Fin 3 → K) :
    reverse (motion R t) *ᵥ extend v = extend (Rᵀ *ᵥ (v - t)) := by
  rw [reverse, linear_motion, shift_motion, motion_mulVec_extend, Matrix.mulVec_sub, sub_eq_add_neg]

/-! ### Units of length -/

/-- The motion in a unit of length that is `scale` times as small. -/
def scaleShift (scale : K) (M : Matrix (Fin 4) (Fin 4) K) : Matrix (Fin 4) (Fin 4) K :=
  fun i j => if i ≠ 3 ∧ j = 3 then M i j * scale else M i j

theorem scaleShift_motion (scale : K) (R : Matrix (Fin 3) (Fin 3) K) (t : Fin 3 → K) :
    scaleShift scale (motion R t) = motion R fun i => t i * scale := by
  funext i j
  fin_cases i <;> fin_cases j <;> simp [scaleShift, motion]

@[simp] theorem scaleShift_one (M : Matrix (Fin 4) (Fin 4) K) : scaleShift 1 M = M := by
  funext i j
  simp [scaleShift]

theorem scaleShift_scaleShift (a b : K) (M : Matrix (Fin 4) (Fin 4) K) :
    scaleShift a (scaleShift b M) = scaleShift (b * a) M := by
  funext i j
  by_cases h : i ≠ 3 ∧ j = 3 <;> simp [scaleShift, h, mul_assoc]

theorem scaleShift_one_right (scale : K) :
    scaleShift scale (1 : Matrix (Fin 4) (Fin 4) K) = 1 := by
  rw [← motion_one, scaleShift_motion]
  simp only [Pi.zero_apply, zero_mul]
  rfl

/-- **A change of the unit goes through a product.** -/
theorem Motion.scaleShift_mul (hM : Motion M) (hN : Motion N) (scale : K) :
    scaleShift scale (M * N) = scaleShift scale M * scaleShift scale N := by
  rw [hM, hN, motion_mul_motion, scaleShift_motion, scaleShift_motion, scaleShift_motion,
    motion_mul_motion]
  congr 1
  funext i
  simp only [Pi.add_apply, Matrix.mulVec, dotProduct, Fin.sum_univ_three]
  ring

/-- **The unit of an inverse.** -/
theorem scaleShift_reverse (scale : K) (M : Matrix (Fin 4) (Fin 4) K) :
    scaleShift scale (reverse M) = reverse (scaleShift scale M) := by
  have hlinear : linear (scaleShift scale M) = linear M := by
    funext i j
    have hj : j.castSucc ≠ 3 := (Fin.castSucc_lt_last j).ne
    simp [linear, scaleShift, hj]
  have hshift : shift (scaleShift scale M) = fun i => shift M i * scale := by
    funext i
    have hi : i.castSucc ≠ 3 := (Fin.castSucc_lt_last i).ne
    simp [shift, scaleShift, hi]
  rw [reverse, reverse, scaleShift_motion, hlinear, hshift]
  congr 1
  funext i
  simp only [Pi.neg_apply, Matrix.mulVec, dotProduct, Fin.sum_univ_three]
  ring

theorem Motion.scaleShift (hM : Motion M) (scale : K) : Motion (scaleShift scale M) := by
  rw [hM, scaleShift_motion]
  exact motion_isMotion _ _

/-! ### Frames -/

section Frames

variable {ι : Type*} (T : ι → Matrix (Fin 4) (Fin 4) K) {i j k : ι}

/-- From one frame to another, through the common one. -/
def relative (i j : ι) : Matrix (Fin 4) (Fin 4) K :=
  reverse (T j) * T i

theorem relative_self (hi : Rigid (T i)) : relative T i i = 1 :=
  hi.reverse_mul

/-- **The way over a third frame is the direct one.** -/
theorem relative_mul_relative (hj : Rigid (T j)) :
    relative T j k * relative T i j = relative T i k := by
  rw [relative, relative, relative, Matrix.mul_assoc, ← Matrix.mul_assoc (T j), hj.mul_reverse,
    Matrix.one_mul]

theorem relative_isMotion (hi : Motion (T i)) : Motion (relative T i j) :=
  (reverse_isMotion _).mul hi

end Frames

end RigidMotion
