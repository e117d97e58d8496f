import DepthaiCore.Lib.Homography
import DepthaiCore.Lib.Numerals
import Mathlib.Algebra.Order.Field.Basic

/-!
# Matrices of floats

The part of `depthai/utility/matrixOps.hpp` that image transformations and extrinsics are made of. The
arithmetic is exact, in an ordered field. A quotient by zero has no value there; the source goes on
with an infinity.
-/

open scoped Numerals

namespace DepthaiCore

/-- How an evaluation ends without a result. -/
inductive Failure
  /-- A `std::runtime_error`. -/
  | runtimeError (what : String)
  /-- A `std::invalid_argument`. -/
  | invalidArgument (what : String)
  /-- A quotient by zero, which has no exact value. -/
  | divisionByZero
  deriving DecidableEq, Repr

structure Point3f (K : Type) where
  x : K
  y : K
  z : K
  deriving DecidableEq, Repr

/-- A quotient that has a value. -/
def quotient {K : Type} [Field K] [DecidableEq K] (a b : K) : Except Failure K :=
  if b = 0 then .error .divisionByZero else .ok (a / b)

theorem quotient_of_ne {K : Type} [Field K] [DecidableEq K] {a b : K} (h : b ≠ 0) :
    quotient a b = .ok (a / b) :=
  if_neg h

namespace MatrixOps

open Matrix

abbrev Matrix3 (K : Type) := Matrix (Fin 3) (Fin 3) K

abbrev Matrix4 (K : Type) := Matrix (Fin 4) (Fin 4) K

variable {K : Type} [Field K]

/-! ### Products -/

/-- `matVecMul`, for three and for four rows. -/
def matVecMul {n : ℕ} (matrix : Matrix (Fin n) (Fin n) K) (vec : Fin n → K) : Fin n → K :=
  fun i => (List.finRange n).foldl (fun res j => res + matrix i j * vec j) 0

/-- `matMul`, for three and for four rows. -/
def matMul {n : ℕ} (A B : Matrix (Fin n) (Fin n) K) : Matrix (Fin n) (Fin n) K :=
  fun i j => (List.finRange n).foldl (fun res k => res + A i k * B k j) 0

/-- An accumulator that starts from zero ends with the sum. -/
theorem foldl_finRange {n : ℕ} (f : Fin n → K) :
    (List.finRange n).foldl (fun res k => res + f k) 0 = ∑ k, f k := by
  rw [Fin.sum_univ_def, List.sum_eq_foldl, List.foldl_map]

theorem matVecMul_eq {n : ℕ} (M : Matrix (Fin n) (Fin n) K) (v : Fin n → K) :
    matVecMul M v = M *ᵥ v := by
  funext i
  exact foldl_finRange fun j => M i j * v j

theorem matMul_eq {n : ℕ} (A B : Matrix (Fin n) (Fin n) K) : matMul A B = A * B := by
  funext i j
  exact foldl_finRange fun k => A i k * B k j

/-! ### Inverses -/

/-- The determinant that `getMatrixInverse` computes. -/
def getMatrixInverse.det (matrix : Matrix3 K) : K :=
  matrix 0 0 * (matrix 1 1 * matrix 2 2 - matrix 1 2 * matrix 2 1)
    - matrix 0 1 * (matrix 1 0 * matrix 2 2 - matrix 1 2 * matrix 2 0)
    + matrix 0 2 * (matrix 1 0 * matrix 2 1 - matrix 1 1 * matrix 2 0)

/-- The adjugate that `getMatrixInverse` computes. -/
def getMatrixInverse.adj (matrix : Matrix3 K) : Matrix3 K :=
  !![matrix 1 1 * matrix 2 2 - matrix 1 2 * matrix 2 1,
     -(matrix 0 1 * matrix 2 2 - matrix 0 2 * matrix 2 1),
     matrix 0 1 * matrix 1 2 - matrix 0 2 * matrix 1 1;
     -(matrix 1 0 * matrix 2 2 - matrix 1 2 * matrix 2 0),
     matrix 0 0 * matrix 2 2 - matrix 0 2 * matrix 2 0,
     -(matrix 0 0 * matrix 1 2 - matrix 0 2 * matrix 1 0);
     matrix 1 0 * matrix 2 1 - matrix 1 1 * matrix 2 0,
     -(matrix 0 0 * matrix 2 1 - matrix 0 1 * matrix 2 0),
     matrix 0 0 * matrix 1 1 - matrix 0 1 * matrix 1 0]

/-- `getMatrixInverse` of a matrix with three rows. -/
def getMatrixInverse [DecidableEq K] (matrix : Matrix3 K) : Except Failure (Matrix3 K) :=
  let det := getMatrixInverse.det matrix
  if det = 0 then
    .error (.runtimeError "Matrix is singular and cannot be inverted.")
  else
    let invDet := 1 / det
    .ok fun i j => getMatrixInverse.adj matrix i j * invDet

theorem getMatrixInverse.det_eq (M : Matrix3 K) : getMatrixInverse.det M = M.det := by
  rw [getMatrixInverse.det, det_fin_three]
  ring

theorem getMatrixInverse.adj_eq (M : Matrix3 K) : getMatrixInverse.adj M = adjugate M := by
  rw [getMatrixInverse.adj, adjugate_fin_three]
  simp only [neg_sub, neg_add_eq_sub]

/-- **What it returns is the inverse.** It throws for the singular matrices. -/
theorem getMatrixInverse_eq_ok_iff [DecidableEq K] {M N : Matrix3 K} :
    getMatrixInverse M = .ok N ↔ IsUnit M.det ∧ N = M⁻¹ := by
  have hinv : M⁻¹ = fun i j => getMatrixInverse.adj M i j * (1 / M.det) := by
    funext i j
    rw [inv_def, Ring.inverse_eq_inv', getMatrixInverse.adj_eq, Matrix.smul_apply, smul_eq_mul,
      one_div, mul_comm]
  rw [getMatrixInverse, getMatrixInverse.det_eq, isUnit_iff_ne_zero, hinv]
  by_cases h : M.det = 0
  · simp [h]
  · rw [if_neg h]
    exact ⟨fun hok => ⟨h, (Except.ok.inj hok).symm⟩, fun ⟨_, hN⟩ => congrArg Except.ok hN.symm⟩

/-! ### Homogeneous coordinates -/

section Order

variable [LinearOrder K]

def MATRIX_EQ_EPSILON : K := 1 / 1000000

def dehomogenizePoint3 (point : Fin 3 → K) : Except Failure (Fin 3 → K) :=
  if |point 2| < 1 / 1000000 then
    .error (.runtimeError "Cannot dehomogenize point with z close to zero.")
  else
    .ok ![point 0 / point 2, point 1 / point 2, 1]

theorem dehomogenizePoint3_eq {v : Fin 3 → K} (hv : 1 / 1000000 ≤ |v 2|) :
    dehomogenizePoint3 v = .ok (Homography.lift (Homography.point v)) :=
  if_neg (not_lt.mpr hv)

/-! ### Comparisons -/

/-- `mateq` of matrices with three rows. -/
def mateq (A B : Matrix3 K) (epsilon : K) : Bool :=
  (List.finRange 3).all fun i => (List.finRange 3).all fun j => decide (|A i j - B i j| ≤ epsilon)

/-- `mateq` of vectors of rows. -/
def mateqRows (A B : List (List K)) (epsilon : K) : Bool :=
  A.length = B.length &&
    match A with
    | [] => true
    | row :: _ =>
      let columns := row.length
      (A.zip B).all fun (a, b) =>
        a.length = columns && b.length = columns &&
          (a.zip b).all fun (x, y) => decide (|x - y| ≤ epsilon)

end Order

/-! ### Poses -/

/-- The element of a vector of rows. -/
def entry (rows : List (List K)) (i j : ℕ) : K :=
  (rows.getD i []).getD j 0

/-- The rows are three of three elements. -/
def IsThreeByThree (rows : List (List K)) : Prop :=
  rows.length = 3 ∧ (rows.getD 0 []).length = 3 ∧ (rows.getD 1 []).length = 3 ∧
    (rows.getD 2 []).length = 3

instance (rows : List (List K)) : Decidable (IsThreeByThree rows) :=
  inferInstanceAs (Decidable (_ ∧ _ ∧ _ ∧ _))

/-- The matrix of a vector of three rows. -/
def rotationOf (rows : List (List K)) : Matrix3 K :=
  fun i j => entry rows i j

def createTransformationMatrixInternal (rotation : Matrix3 K) (translation : Point3f K) : Matrix4 K :=
  !![rotation 0 0, rotation 0 1, rotation 0 2, translation.x;
     rotation 1 0, rotation 1 1, rotation 1 2, translation.y;
     rotation 2 0, rotation 2 1, rotation 2 2, translation.z;
     0, 0, 0, 1]

def createTransformationMatrix (rotation : List (List K)) (translation : Point3f K) :
    Except Failure (Matrix4 K) :=
  if ¬IsThreeByThree rotation then
    .error (.invalidArgument "Expected a 3x3 rotation matrix.")
  else
    .ok (createTransformationMatrixInternal (rotationOf rotation) translation)

theorem createTransformationMatrix_eq {rotation : List (List K)} (h : IsThreeByThree rotation)
    (translation : Point3f K) :
    createTransformationMatrix rotation translation =
      .ok (createTransformationMatrixInternal (rotationOf rotation) translation) :=
  if_neg (not_not_intro h)

def invertSe3Matrix4x4 (matrix : Matrix4 K) : Matrix4 K :=
  let newTrans (i : Fin 4) : K :=
    0 - matrix 0 i * matrix 0 3 - matrix 1 i * matrix 1 3 - matrix 2 i * matrix 2 3
  !![matrix 0 0, matrix 1 0, matrix 2 0, newTrans 0;
     matrix 0 1, matrix 1 1, matrix 2 1, newTrans 1;
     matrix 0 2, matrix 1 2, matrix 2 2, newTrans 2;
     0, 0, 0, 1]

def getRotationMatrixFromProjection4x4 (projection : Matrix4 K) : Matrix3 K :=
  !![projection 0 0, projection 0 1, projection 0 2;
     projection 1 0, projection 1 1, projection 1 2;
     projection 2 0, projection 2 1, projection 2 2]

/-- **The rotation from one pose to another.** The translations have no part in it. -/
theorem rotation_relative (R S : Matrix3 K) (t u : Point3f K) :
    getRotationMatrixFromProjection4x4 (matMul
      (invertSe3Matrix4x4 (createTransformationMatrixInternal S u))
      (createTransformationMatrixInternal R t)) = Sᵀ * R := by
  rw [matMul_eq]
  funext i j
  fin_cases i <;> fin_cases j <;>
    simp [getRotationMatrixFromProjection4x4, invertSe3Matrix4x4,
      createTransformationMatrixInternal, Matrix.mul_apply, Fin.sum_univ_three, Fin.sum_univ_four]

end MatrixOps

end DepthaiCore
