import DepthaiCore.Common.RectRemap

/-!
# Detections

A detection has a box, which may be turned, and the upright box around it in four numbers of its
own. Messages from before there were turned boxes have the four numbers alone. It may have
keypoints, whose coordinates carry no flag.
-/

open scoped Numerals

namespace DepthaiCore

variable {K : Type} [Field K] [LinearOrder K]

/-! ### Boxes -/

namespace RotatedRect

/-- `RotatedRect::getOuterRect`: the least and the greatest coordinates of the corners, of which
there are four. -/
def getOuterRect (trig : Trigonometry K) (self : RotatedRect K) : K × K × K × K :=
  let points := self.getPoints trig
  let minx := (points.map Point2f.x).min?.getD 0
  let maxx := (points.map Point2f.x).max?.getD 0
  let miny := (points.map Point2f.y).min?.getD 0
  let maxy := (points.map Point2f.y).max?.getD 0
  (minx, miny, maxx, maxy)

/-- The constructor from a `Rect` between two points, of which neither says what it is. -/
def ofCorners (xmin ymin xmax ymax : K) : RotatedRect K :=
  let x := min xmin xmax
  let y := min ymin ymax
  let width := max xmin xmax - x
  let height := max ymin ymax - y
  let normalized := decide (x + width ≤ 1 ∧ y + height ≤ 1)
  ⟨⟨x + width / 2, y + height / 2, normalized, true⟩, ⟨width, height, normalized, true⟩, 0⟩

end RotatedRect

/-- What the detections of both messages have, and do with it. -/
structure DetectionBox (K : Type) where
  label : ℕ
  labelName : String
  confidence : K
  xmin : K
  ymin : K
  xmax : K
  ymax : K
  boundingBox : Option (RotatedRect K)
  deriving DecidableEq, Repr

namespace DetectionBox

/-- `ImgDetection::setBoundingBox` and `SpatialImgDetection::setBoundingBox` -/
def setBoundingBox (trig : Trigonometry K) (self : DetectionBox K) (boundingBox : RotatedRect K) :
    DetectionBox K :=
  let (xmin, ymin, xmax, ymax) := boundingBox.getOuterRect trig
  { self with xmin, ymin, xmax, ymax, boundingBox := some boundingBox }

/-- `ImgDetection::getBoundingBox` and `SpatialImgDetection::getBoundingBox` -/
def getBoundingBox (self : DetectionBox K) : Except Failure (RotatedRect K) :=
  match self.boundingBox with
  | some boundingBox => .ok boundingBox
  | none =>
    if self.xmin = 0 ∧ self.xmax = 0 ∧ self.ymin = 0 ∧ self.ymax = 0 then
      .error (.runtimeError "All bounding box values are zero, no bounding box can be built.")
    else .ok (.ofCorners self.xmin self.ymin self.xmax self.ymax)

end DetectionBox

/-! ### Keypoints -/

/-- `KeypointsListT`. The edges may have been written without `validateEdges`. -/
structure KeypointsListT (KeypointT : Type) where
  keypoints : List KeypointT
  edges : List (ℕ × ℕ)
  deriving DecidableEq, Repr

namespace Keypoint

/-- The first two image coordinates, as a point that does not say what it is. -/
def imgCoordinates2f {K : Type} (self : Keypoint K) : Point2f K :=
  { x := self.imageCoordinates.x, y := self.imageCoordinates.y }

/-- The keypoint with the image coordinates of a point. -/
def setPoint {K : Type} (self : Keypoint K) (point : Point2f K) : Keypoint K :=
  { self with imageCoordinates := { self.imageCoordinates with x := point.x, y := point.y } }

def transform (num : Numerics K) (self : Keypoint K) (source target : ImgTransformation K) :
    Except Failure (Keypoint K) := do
  let remappedPoint ← source.remapPointTo num target self.imgCoordinates2f
  return self.setPoint remappedPoint

end Keypoint

def KeypointsListT.transformTo (num : Numerics K) (self : KeypointsListT (Keypoint K))
    (source target : ImgTransformation K) : Except Failure (KeypointsListT (Keypoint K)) := do
  let keypoints ← self.keypoints.mapM fun kp => kp.transform num source target
  return { self with keypoints }

/-! ### Messages -/

structure ImgDetection (K : Type) extends DetectionBox K where
  keypoints : Option (KeypointsListT (Keypoint K))
  deriving DecidableEq, Repr

def ImgDetection.transform (num : Numerics K) (self : ImgDetection K)
    (source target : ImgTransformation K) : Except Failure (ImgDetection K) := do
  let boundingBox ← self.getBoundingBox
  let boundingBox ← source.remapRectTo num target boundingBox
  let box := self.setBoundingBox num.toTrigonometry boundingBox
  match self.keypoints with
  | none => return { self with toDetectionBox := box }
  | some keypoints =>
    let keypoints ← keypoints.transformTo num source target
    return { toDetectionBox := box, keypoints := some keypoints }

structure ImgDetections (K : Type) [Field K] where
  detections : List (ImgDetection K)
  transformation : Option (ImgTransformation K)

def ImgDetections.transformTo (num : Numerics K) (self : ImgDetections K)
    (target : ImgTransformation K) : Except Failure (ImgDetections K) :=
  match self.transformation with
  | none =>
    .error (.runtimeError "Source transformation is not set, cannot transform detections.")
  | some source => do
    let detections ← self.detections.mapM fun detection => detection.transform num source target
    return { detections, transformation := some target }

end DepthaiCore
