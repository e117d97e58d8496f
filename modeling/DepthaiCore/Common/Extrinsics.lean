import DepthaiCore.Common.Geometry

/-!
# Extrinsics

The pose of a camera relative to the camera at another socket. `AUTO` stands for a socket that is not
known. Translations come in a unit of length and are asked for in another.
-/

open scoped Numerals

namespace DepthaiCore

open MatrixOps Matrix

inductive CameraBoardSocket
  | AUTO | CAM_A | CAM_B | CAM_C | CAM_D | CAM_E | CAM_F | CAM_G | CAM_H | CAM_I | CAM_J | CBA
  deriving DecidableEq, Repr

inductive LengthUnit
  | METER | CENTIMETER | MILLIMETER | INCH | FOOT | CUSTOM
  deriving DecidableEq, Repr

variable {K : Type} [Field K]

def getLengthUnitMultiplier : LengthUnit → K
  | .METER => 1
  | .CENTIMETER => 100
  | .MILLIMETER => 1000
  | .INCH => 393701 / 10000
  | .FOOT => 328084 / 100000
  | .CUSTOM => 1

theorem getLengthUnitMultiplier_ne_zero [CharZero K] (unit : LengthUnit) :
    (getLengthUnitMultiplier unit : K) ≠ 0 := by
  cases unit <;> simp [getLengthUnitMultiplier]

def getDistanceUnitScale (targetUnit sourceUnit : LengthUnit) : K :=
  getLengthUnitMultiplier targetUnit / getLengthUnitMultiplier sourceUnit

structure Extrinsics (K : Type) where
  rotationMatrix : List (List K)
  translation : Point3f K
  specTranslation : Point3f K
  toCameraSocket : CameraBoardSocket
  lengthUnit : LengthUnit
  deriving DecidableEq, Repr

namespace Extrinsics

/-! ### What the source computes -/

/-- The default constructor. -/
def default : Extrinsics K :=
  ⟨[], ⟨0, 0, 0⟩, ⟨0, 0, 0⟩, .AUTO, .CENTIMETER⟩

def getTranslationInUnit (self : Extrinsics K) (useSpec : Bool) (targetUnit : LengthUnit) :
    Point3f K :=
  let translationToUse := if useSpec then self.specTranslation else self.translation
  let scale := getDistanceUnitScale targetUnit self.lengthUnit
  ⟨translationToUse.x * scale, translationToUse.y * scale, translationToUse.z * scale⟩

def getTranslationVector (self : Extrinsics K) (useSpecTranslation : Bool) (unit : LengthUnit) :
    List K :=
  let translationToUse := self.getTranslationInUnit useSpecTranslation unit
  [translationToUse.x, translationToUse.y, translationToUse.z]

def getTransformationMatrix (self : Extrinsics K) (useSpecTranslation : Bool)
    (unit : LengthUnit) : Except Failure (Matrix4 K) :=
  if ¬IsThreeByThree self.rotationMatrix then
    .error (.runtimeError ("The full extrinsics transformation matrix can only be obtained if both " ++
      "the rotation matrix and the translation vector are properly set. Please " ++
      "ensure that the rotation matrix is a valid rotation matrix and that the translation vector is " ++
      "set."))
  else
    createTransformationMatrix self.rotationMatrix
      (self.getTranslationInUnit useSpecTranslation unit)

def getInverseTransformationMatrix (self : Extrinsics K) (useSpecTranslation : Bool)
    (unit : LengthUnit) : Except Failure (Matrix4 K) := do
  let transformMatrix ← self.getTransformationMatrix useSpecTranslation unit
  return invertSe3Matrix4x4 transformMatrix

def getExtrinsicsTransformationTo (self target : Extrinsics K) (useSpecTranslation : Bool := false)
    (sourceUnit : LengthUnit := .CENTIMETER) : Except Failure (Matrix4 K) := do
  if self.toCameraSocket = .AUTO ∨ target.toCameraSocket = .AUTO then
    throw (.runtimeError ("Cannot get extrinsics transformation to or from an extrinsics with AUTO " ++
      "camera socket. Please specify the camera socket for both extrinsics."))
  if self.toCameraSocket ≠ target.toCameraSocket then
    throw (.runtimeError
      "Cannot get extrinsics to a transformation with a different base camera socket.")
  let thisTransformationMatrix ← self.getTransformationMatrix useSpecTranslation sourceUnit
  let toInverseTransformationMatrix ← target.getInverseTransformationMatrix useSpecTranslation sourceUnit
  return matMul toInverseTransformationMatrix thisTransformationMatrix

def isEqualExtrinsics [LinearOrder K] (self other : Extrinsics K)
    (epsilon : K := MATRIX_EQ_EPSILON) : Bool :=
  mateqRows self.rotationMatrix other.rotationMatrix epsilon &&
    decide (self.toCameraSocket = other.toCameraSocket) &&
    ((self.getTranslationVector false .CENTIMETER).zip
      (other.getTranslationVector false .CENTIMETER)).all fun (a, b) => decide (|a - b| ≤ epsilon)

/-! ### Poses relative to one socket -/

/-- The rotation is three by three and orthonormal. -/
structure Orthonormal (e : Extrinsics K) : Prop where
  shape : IsThreeByThree e.rotationMatrix
  transpose_mul_self : (rotationOf e.rotationMatrix)ᵀ * rotationOf e.rotationMatrix = 1

theorem Orthonormal.mul_transpose_self {e : Extrinsics K} (h : e.Orthonormal) :
    rotationOf e.rotationMatrix * (rotationOf e.rotationMatrix)ᵀ = 1 :=
  mul_eq_one_comm.mp h.transpose_mul_self

theorem getTransformationMatrix_eq {self : Extrinsics K} (h : IsThreeByThree self.rotationMatrix)
    (useSpecTranslation : Bool) (unit : LengthUnit) :
    self.getTransformationMatrix useSpecTranslation unit =
      createTransformationMatrix self.rotationMatrix
        (self.getTranslationInUnit useSpecTranslation unit) :=
  if_neg (not_not_intro h)

/-- **From one pose to another.** Both are relative to one socket, which is known. -/
theorem getExtrinsicsTransformationTo_rotation {self target : Extrinsics K}
    (hs : IsThreeByThree self.rotationMatrix) (ht : IsThreeByThree target.rotationMatrix)
    (hauto : self.toCameraSocket ≠ .AUTO) (hsame : self.toCameraSocket = target.toCameraSocket) :
    ∃ M, self.getExtrinsicsTransformationTo target = .ok M ∧
      getRotationMatrixFromProjection4x4 M =
        (rotationOf target.rotationMatrix)ᵀ * rotationOf self.rotationMatrix := by
  have hrot := rotation_relative (rotationOf self.rotationMatrix) (rotationOf target.rotationMatrix)
    (self.getTranslationInUnit false .CENTIMETER) (target.getTranslationInUnit false .CENTIMETER)
  refine ⟨_, ?_, hrot⟩
  have hguard : ¬(self.toCameraSocket = .AUTO ∨ target.toCameraSocket = .AUTO) := by
    rw [← hsame, or_self]
    exact hauto
  rw [getExtrinsicsTransformationTo, if_neg hguard, if_neg (not_not_intro hsame),
    getInverseTransformationMatrix, getTransformationMatrix_eq hs, getTransformationMatrix_eq ht,
    createTransformationMatrix_eq hs, createTransformationMatrix_eq ht]
  rfl

end Extrinsics

end DepthaiCore
