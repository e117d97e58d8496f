import DepthaiCore.Utility.MatrixOps

/-!
# Points, sizes and rectangles

A point and a size may say that their coordinates are fractions of the size of a frame. Where they say
nothing, `isNormalized` decides by the coordinates.

The functions of the C library on angles are a parameter, with the one identity that the geometry
rests on.
-/

open scoped Numerals

namespace DepthaiCore

/-- The numbers and functions on angles. -/
structure Trigonometry (K : Type) [Field K] where
  pi : K
  cos : K → K
  sin : K → K
  cos_sq_add_sin_sq : ∀ angle, cos angle ^ 2 + sin angle ^ 2 = 1

variable {K : Type} [Field K] [LinearOrder K]

/-! ### Points -/

structure Point2f (K : Type) where
  x : K
  y : K
  normalized : Bool := false
  hasNormalized : Bool := false
  deriving DecidableEq, Repr

/-- What two coordinates without a flag are taken for. -/
def guessNormalized (x y : K) : Bool :=
  if (x = 0 ∨ x = 1) ∧ (y = 0 ∨ y = 1) then false
  else decide (0 ≤ x ∧ x ≤ 1 ∧ 0 ≤ y ∧ y ≤ 1)

def Point2f.isNormalized (self : Point2f K) : Bool :=
  if self.hasNormalized then self.normalized else guessNormalized self.x self.y

/-- The two coordinates. -/
def Point2f.coordinates {K : Type} (self : Point2f K) : K × K :=
  (self.x, self.y)

structure Keypoint (K : Type) where
  imageCoordinates : Point3f K
  confidence : K
  label : ℕ := 0
  labelName : String := ""
  deriving DecidableEq, Repr

/-! ### Sizes -/

structure Size2f (K : Type) where
  width : K
  height : K
  normalized : Bool := false
  hasNormalized : Bool := false
  deriving DecidableEq, Repr

def Size2f.isNormalized (self : Size2f K) : Bool :=
  if self.hasNormalized then self.normalized else guessNormalized self.width self.height

/-! ### Rectangles -/

structure RotatedRect (K : Type) where
  center : Point2f K
  size : Size2f K
  angle : K
  deriving DecidableEq, Repr

namespace RotatedRect

def isNormalized (self : RotatedRect K) : Except Failure Bool :=
  if self.size.isNormalized ≠ self.center.isNormalized then
    .error (.runtimeError
      "Cannot determine normalization as size and center have mixed normalization.")
  else
    .ok self.size.isNormalized

def normalize (self : RotatedRect K) (width height : ℕ) : Except Failure (RotatedRect K) := do
  if width = 0 ∨ height = 0 then
    throw (.runtimeError "Width and height must be non-zero to denormalize RotatedRect")
  if ← self.isNormalized then
    return self
  return { self with
    center := ⟨self.center.x / width, self.center.y / height, true, true⟩
    size := ⟨self.size.width / width, self.size.height / height, true, true⟩ }

def denormalize (self : RotatedRect K) (width height : ℕ) (force : Bool := false) :
    Except Failure (RotatedRect K) := do
  if width = 0 ∨ height = 0 then
    throw (.runtimeError "Width and height must be non-zero to denormalize RotatedRect")
  unless force do
    unless ← self.isNormalized do
      return self
  return { self with
    center := ⟨self.center.x * width, self.center.y * height, false, true⟩
    size := ⟨self.size.width * width, self.size.height * height, false, true⟩ }

def getPoints (trig : Trigonometry K) (self : RotatedRect K) : List (Point2f K) :=
  let angleRad := self.angle * trig.pi / 180
  let halfWidth := self.size.width / 2
  let halfHeight := self.size.height / 2
  let cosAngle := trig.cos angleRad
  let sinAngle := trig.sin angleRad
  [(-halfWidth, -halfHeight), (halfWidth, -halfHeight), (halfWidth, halfHeight),
    (-halfWidth, halfHeight)].map fun (x, y) =>
      { x := x * cosAngle - y * sinAngle + self.center.x
        y := x * sinAngle + y * cosAngle + self.center.y }

/-- The coordinates of the corners. -/
def corners {K : Type} [Field K] (trig : Trigonometry K) (rect : RotatedRect K) : List (K × K) :=
  (rect.getPoints trig).map Point2f.coordinates

theorem length_corners {K : Type} [Field K] (trig : Trigonometry K) (rect : RotatedRect K) :
    (rect.corners trig).length = 4 := rfl

end RotatedRect

end DepthaiCore
