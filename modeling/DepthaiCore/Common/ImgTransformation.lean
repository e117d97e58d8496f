import DepthaiCore.Common.Extrinsics
import Mathlib.Algebra.Order.Floor.Ring

/-!
# Image transformations

An `ImgTransformation` says how a frame came from the image of its source: the matrix that maps points
of the source to points of the frame, the inverse of that matrix, and the intrinsics, distortion and
pose of the source. `remapPointTo` maps a point of one frame to the point of another that shows the
same direction.

The lens models of the source and the rectangle that it fits around points are a parameter, with the
functions on angles. Sizes are numbers below `2 ^ 64`. A float that becomes a size is cut down to a
whole number, and is negative for none.
-/

open scoped Numerals

namespace DepthaiCore

open MatrixOps Matrix

inductive CameraModel
  | Perspective | Fisheye | Equirectangular | RadialDivision
  deriving DecidableEq, Repr

variable {K : Type} [Field K]

/-- The functions of the source on floats. -/
structure Numerics (K : Type) [Field K] extends Trigonometry K where
  getOuterRotatedRect : List (K × K) → RotatedRect K
  distortPerspective : (Fin 3 → K) → List K → Fin 3 → K
  distortFisheye : (Fin 3 → K) → List K → Fin 3 → K
  undistortPerspective : (Fin 3 → K) → List K → Fin 3 → K
  undistortFisheye : (Fin 3 → K) → List K → Fin 3 → K

structure ImgTransformation (K : Type) [Field K] where
  transformationMatrix : Matrix3 K := 1
  transformationMatrixInv : Matrix3 K := 1
  sourceIntrinsicMatrix : Matrix3 K := 1
  sourceIntrinsicMatrixInv : Matrix3 K := 1
  distortionModel : CameraModel := .Perspective
  distortionCoefficients : List K := []
  extrinsics : Extrinsics K := Extrinsics.default
  srcWidth : ℕ := 0
  srcHeight : ℕ := 0
  width : ℕ := 0
  height : ℕ := 0
  srcCrops : List (RotatedRect K) := []
  cropsValid : Bool := false

namespace ImgTransformation

/-! ### Construction -/

/-- The constructor from sizes alone. -/
def ofSizes (srcWidth srcHeight width height : ℕ) : ImgTransformation K :=
  { srcWidth, srcHeight, width, height }

variable [LinearOrder K]

/-- The constructors from the intrinsics. Those that leave arguments out pass the defaults. -/
def ofIntrinsics (width height : ℕ) (sourceIntrinsicMatrix : Matrix3 K)
    (distortionModel : CameraModel := .Perspective) (distortionCoefficients : List K := [])
    (extrinsics : Extrinsics K := Extrinsics.default) : Except Failure (ImgTransformation K) := do
  let sourceIntrinsicMatrixInv ← getMatrixInverse sourceIntrinsicMatrix
  return { sourceIntrinsicMatrix, sourceIntrinsicMatrixInv, distortionModel, distortionCoefficients,
           extrinsics, srcWidth := width, srcHeight := height, width, height }

/-! ### Operations -/

/-- An `int` as a `size_t`. -/
def toSize (n : ℤ) : ℕ :=
  (n % 2 ^ 64).toNat

def addTransformation (self : ImgTransformation K) (matrix : Matrix3 K) :
    Except Failure (ImgTransformation K) := do
  let transformationMatrix := matMul matrix self.transformationMatrix
  let transformationMatrixInv ← getMatrixInverse transformationMatrix
  return { self with transformationMatrix, transformationMatrixInv, cropsValid := false }

/-- A matrix about a point: what the flips and the rotation add. -/
def addAbout (self : ImgTransformation K) (x y : K) (matrix : Matrix3 K) :
    Except Failure (ImgTransformation K) := do
  let self ← self.addTransformation !![1, 0, -x; 0, 1, -y; 0, 0, 1]
  let self ← self.addTransformation matrix
  self.addTransformation !![1, 0, x; 0, 1, y; 0, 0, 1]

/-- A translation by whole pixels, unless it is none: what the crop and the padding add. -/
def addTranslation (self : ImgTransformation K) (x y : ℤ) : Except Failure (ImgTransformation K) :=
  if x ≠ 0 ∨ y ≠ 0 then self.addTransformation !![1, 0, (x : K); 0, 1, (y : K); 0, 0, 1]
  else .ok self

def addCrop (num : Numerics K) (self : ImgTransformation K) (x y width height : ℤ) :
    Except Failure (ImgTransformation K) := do
  let self := { self with width := toSize width, height := toSize height }
  let self ← self.addTranslation (-x) (-y)
  let corners : List (Fin 3 → K) := [![0, 0, 1], ![width, 0, 1], ![width, height, 1],
    ![0, height, 1]]
  let srcCorners ← corners.mapM fun corner => do
    let corner ← dehomogenizePoint3 (matVecMul self.transformationMatrix corner)
    return (corner 0, corner 1)
  return { self with
    srcCrops := self.srcCrops ++ [num.getOuterRotatedRect srcCorners]
    cropsValid := false }

def addPadding (self : ImgTransformation K) (top bottom left right : ℤ) :
    Except Failure (ImgTransformation K) := do
  let self := { self with
    width := toSize (self.width + (left + right)), height := toSize (self.height + (top + bottom)) }
  let self ← self.addTranslation left top
  return { self with cropsValid := false }

def addFlipVertical (self : ImgTransformation K) : Except Failure (ImgTransformation K) :=
  self.addAbout (self.width / 2) (self.height / 2) !![1, 0, 0; 0, -1, 0; 0, 0, 1]

def addFlipHorizontal (self : ImgTransformation K) : Except Failure (ImgTransformation K) :=
  self.addAbout (self.width / 2) (self.height / 2) !![-1, 0, 0; 0, 1, 0; 0, 0, 1]

def addRotation (num : Numerics K) (self : ImgTransformation K) (angle : K)
    (rotationPoint : Point2f K) : Except Failure (ImgTransformation K) :=
  let angleRad := angle * num.pi / 180
  let rotationPoint :=
    if rotationPoint.isNormalized then
      { rotationPoint with
        x := rotationPoint.x * self.width
        y := rotationPoint.y * self.height
        normalized := false }
    else
      rotationPoint
  self.addAbout rotationPoint.x rotationPoint.y
    !![num.cos angleRad, -num.sin angleRad, 0; num.sin angleRad, num.cos angleRad, 0; 0, 0, 1]

def ROUND_UP_EPS : K := 1 / 1000

def addScale [FloorRing K] (self : ImgTransformation K) (scaleX scaleY : K) :
    Except Failure (ImgTransformation K) :=
  let self := { self with
    width := ⌊self.width * scaleX + ROUND_UP_EPS⌋.toNat
    height := ⌊self.height * scaleY + ROUND_UP_EPS⌋.toNat }
  self.addTransformation !![scaleX, 0, 0; 0, scaleY, 0; 0, 0, 1]

end ImgTransformation

/-- A call that adds to a transformation. -/
inductive Operation (K : Type)
  | addTransformation (matrix : Matrix3 K)
  | addCrop (x y width height : ℤ)
  | addPadding (top bottom left right : ℤ)
  | addFlipVertical
  | addFlipHorizontal
  | addRotation (angle : K) (rotationPoint : Point2f K)
  | addScale (scaleX scaleY : K)

namespace ImgTransformation

variable [LinearOrder K]

/-- One call. -/
def perform [FloorRing K] (num : Numerics K) (self : ImgTransformation K) :
    Operation K → Except Failure (ImgTransformation K)
  | .addTransformation matrix => self.addTransformation matrix
  | .addCrop x y width height => self.addCrop num x y width height
  | .addPadding top bottom left right => self.addPadding top bottom left right
  | .addFlipVertical => self.addFlipVertical
  | .addFlipHorizontal => self.addFlipHorizontal
  | .addRotation angle rotationPoint => self.addRotation num angle rotationPoint
  | .addScale scaleX scaleY => self.addScale scaleX scaleY

/-! ### Points -/

def transformPoint (self : ImgTransformation K) (point : Point2f K) :
    Except Failure (Point2f K) := do
  let transformed ← dehomogenizePoint3 (matVecMul self.transformationMatrix ![point.x, point.y, 1])
  return { x := transformed 0, y := transformed 1 }

def invTransformPoint (self : ImgTransformation K) (point : Point2f K) :
    Except Failure (Point2f K) := do
  let transformed ←
    dehomogenizePoint3 (matVecMul self.transformationMatrixInv ![point.x, point.y, 1])
  return { x := transformed 0, y := transformed 1 }

def getIntrinsicMatrix (self : ImgTransformation K) : Matrix3 K :=
  matMul self.transformationMatrix self.sourceIntrinsicMatrix

def isEqualTransformation (self other : ImgTransformation K) : Bool :=
  mateq self.getIntrinsicMatrix other.getIntrinsicMatrix MATRIX_EQ_EPSILON &&
    mateq self.sourceIntrinsicMatrix other.sourceIntrinsicMatrix MATRIX_EQ_EPSILON &&
    decide (self.distortionModel = other.distortionModel) &&
    decide (self.distortionCoefficients = other.distortionCoefficients) &&
    self.extrinsics.isEqualExtrinsics other.extrinsics &&
    decide ((self.width, self.height) = (other.width, other.height)) &&
    decide ((self.srcWidth, self.srcHeight) = (other.srcWidth, other.srcHeight))

/-! ### Lenses -/

def hasNonZeroDistortion (coeffs : List K) : Bool :=
  coeffs.any fun value => decide (0 < |value|)

def distortPoint (num : Numerics K) (point : Fin 3 → K) (model : CameraModel) (coeffs : List K) :
    Except Failure (Fin 3 → K) :=
  if coeffs.isEmpty || !hasNonZeroDistortion coeffs then .ok point
  else do
    let homogeneousPoint ← dehomogenizePoint3 point
    match model with
    | .Perspective => return num.distortPerspective homogeneousPoint coeffs
    | .Fisheye => return num.distortFisheye homogeneousPoint coeffs
    | .RadialDivision => throw (.invalidArgument "Unsupported distortion model: RadialDivision")
    | .Equirectangular => throw (.invalidArgument "Unsupported distortion model: Equirectangular")

def undistortPoint (num : Numerics K) (point : Fin 3 → K) (model : CameraModel) (coeffs : List K) :
    Except Failure (Fin 3 → K) :=
  if coeffs.isEmpty || !hasNonZeroDistortion coeffs then .ok point
  else
    match model with
    | .Perspective => .ok (num.undistortPerspective point coeffs)
    | .Fisheye => .ok (num.undistortFisheye point coeffs)
    | .RadialDivision => .error (.invalidArgument "Unsupported distortion model: RadialDivision")
    | .Equirectangular => .error (.invalidArgument "Unsupported distortion model: Equirectangular")

def pixelToRay (num : Numerics K) (px : Point2f K) (transformation : ImgTransformation K) :
    Except Failure (Fin 3 → K) := do
  let pxSensor := matVecMul transformation.sourceIntrinsicMatrixInv ![px.x, px.y, 1]
  let undistortedRay ← undistortPoint num pxSensor transformation.distortionModel
    transformation.distortionCoefficients
  let x ← quotient (undistortedRay 0) (undistortedRay 2)
  let y ← quotient (undistortedRay 1) (undistortedRay 2)
  return ![x, y, 1]

def rayToPixel (num : Numerics K) (ray : Fin 3 → K) (transformation : ImgTransformation K) :
    Except Failure (Point2f K) := do
  let distortedRay ← distortPoint num ray transformation.distortionModel
    transformation.distortionCoefficients
  let x ← quotient (distortedRay 0) (distortedRay 2)
  let y ← quotient (distortedRay 1) (distortedRay 2)
  let pxHomogeneous := matVecMul transformation.sourceIntrinsicMatrix ![x, y, 1]
  return { x := ← quotient (pxHomogeneous 0) (pxHomogeneous 2)
           y := ← quotient (pxHomogeneous 1) (pxHomogeneous 2) }

/-! ### From frame to frame -/

/-- The rotation of `interSourceFrameTransform`. -/
def interSourceRotation (source target : ImgTransformation K) : Except Failure (Matrix3 K) :=
  if source.extrinsics.toCameraSocket ≠ .AUTO ∧ target.extrinsics.toCameraSocket ≠ .AUTO then do
    let extrinsicTransformation ← source.extrinsics.getExtrinsicsTransformationTo target.extrinsics
    return getRotationMatrixFromProjection4x4 extrinsicTransformation
  else
    .ok 1

/-- `interSourceFrameTransform` of a point. -/
def interSourceFrameTransform (num : Numerics K) (sourcePt : Point2f K)
    (source target : ImgTransformation K) : Except Failure (Point2f K) := do
  if source.isEqualTransformation target then
    return sourcePt
  let normalizedUndistortedRay ← pixelToRay num sourcePt source
  let rotationMatrix ← interSourceRotation source target
  rayToPixel num (matVecMul rotationMatrix normalizedUndistortedRay) target

def remapPointTo (num : Numerics K) (self target : ImgTransformation K) (point : Point2f K) :
    Except Failure (Point2f K) := do
  let normalized := point.isNormalized
  let point :=
    if normalized then
      { point with x := point.x * self.width, y := point.y * self.height, normalized := false }
    else
      point
  let sourcePointFrom ← self.invTransformPoint point
  let sourcePointTo ← interSourceFrameTransform num sourcePointFrom self target
  let transformed ← target.transformPoint sourcePointTo
  if normalized then
    return { x := ← quotient transformed.x target.width
             y := ← quotient transformed.y target.height
             normalized := true
             hasNormalized := true }
  return transformed

def remapPointFrom (num : Numerics K) (self source : ImgTransformation K) (point : Point2f K) :
    Except Failure (Point2f K) :=
  source.remapPointTo num self point

def isValid (self : ImgTransformation K) : Bool :=
  decide (0 < self.srcWidth ∧ 0 < self.srcHeight ∧ 0 < self.width ∧ 0 < self.height)

end ImgTransformation

end DepthaiCore
