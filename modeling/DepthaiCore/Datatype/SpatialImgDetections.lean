import DepthaiCore.Datatype.ImgDetections

/-!
# Detections in space

A detection in space has coordinates in the unit of its message, and each of its keypoints has
coordinates in the unit of its list. Points are projected by their depth, in millimetres. Where a
keypoint has no depth, that of the detection is taken for it, in the unit of the list.

The unit is one of presentation. To change it first and transform then is to transform first and
change it then.
-/

namespace DepthaiCore

open MatrixOps Matrix RigidMotion

variable {K : Type} [Field K] [LinearOrder K]

/-! ### What the source computes -/

structure SpatialKeypoint (K : Type) extends Keypoint K where
  spatialCoordinates : Point3f K
  deriving DecidableEq, Repr

/-- The keypoint with the image coordinates of a point. -/
def SpatialKeypoint.setPoint {K : Type} (self : SpatialKeypoint K) (point : Point2f K) :
    SpatialKeypoint K :=
  { self with toKeypoint := self.toKeypoint.setPoint point }

/-- What `SpatialKeypointsList::transformTo` does with a keypoint. -/
def SpatialKeypoint.transform (num : Numerics K) (source target : ImgTransformation K)
    (transMatrix : Matrix4 K) (depthScale : K) (self : SpatialKeypoint K) :
    Except Failure (SpatialKeypoint K) := do
  if 0 < self.spatialCoordinates.z then
    let depth := self.spatialCoordinates.z * depthScale
    let remappedImgCoordinates ← source.projectPointTo num target self.imgCoordinates2f depth
    let spatialCoordinates ← transformPoint3f transMatrix self.spatialCoordinates
    return { self.setPoint remappedImgCoordinates with spatialCoordinates }
  else
    let remappedPoint ← source.remapPointTo num target self.imgCoordinates2f
    return self.setPoint remappedPoint

structure SpatialKeypointsList (K : Type) extends KeypointsListT (SpatialKeypoint K) where
  unit : LengthUnit
  deriving DecidableEq, Repr

namespace SpatialKeypointsList

def transformTo (num : Numerics K) (self : SpatialKeypointsList K)
    (source target : ImgTransformation K) : Except Failure (SpatialKeypointsList K) := do
  let transMatrix ←
    source.extrinsics.getExtrinsicsTransformationTo target.extrinsics false self.unit
  let depthScale := getDistanceUnitScale .MILLIMETER self.unit
  let keypoints ←
    self.keypoints.mapM (SpatialKeypoint.transform num source target transMatrix depthScale)
  return { self with keypoints }

/-- A keypoint without a depth gets the fallback. -/
def withFallback (spatialCoordinates : Point3f K) (kp : SpatialKeypoint K) : SpatialKeypoint K :=
  if kp.spatialCoordinates.z ≤ 0 then { kp with spatialCoordinates } else kp

/-- A keypoint without a depth gets back what it had. -/
def restore (original kp : SpatialKeypoint K) : SpatialKeypoint K :=
  if original.spatialCoordinates.z ≤ 0 then
    { kp with spatialCoordinates := original.spatialCoordinates }
  else kp

/-- `SpatialImgDetection::transformKeypointsFallback`, of the keypoints that it is called for. -/
def transformKeypointsFallback (num : Numerics K) (self : SpatialKeypointsList K)
    (source target : ImgTransformation K) (spatialCoordinates : Point3f K) :
    Except Failure (SpatialKeypointsList K) := do
  let kpCopy := { self with keypoints := self.keypoints.map (withFallback spatialCoordinates) }
  let kpTransformed ← kpCopy.transformTo num source target
  return { kpTransformed with
    keypoints := List.zipWith restore self.keypoints kpTransformed.keypoints }

end SpatialKeypointsList

/-- The point with all coordinates scaled. -/
def Point3f.scaledBy (p : Point3f K) (scale : K) : Point3f K :=
  ⟨p.x * scale, p.y * scale, p.z * scale⟩

structure SpatialImgDetection (K : Type) extends DetectionBox K where
  keypoints : Option (SpatialKeypointsList K)
  spatialCoordinates : Point3f K
  deriving DecidableEq, Repr

namespace SpatialImgDetection

/-- The first part of `SpatialImgDetection::transform`: the box and the spatial coordinates. -/
def transformBox (num : Numerics K) (self : SpatialImgDetection K)
    (source target : ImgTransformation K) (lengthUnit : LengthUnit) :
    Except Failure (SpatialImgDetection K) := do
  let depth := self.spatialCoordinates.z * getDistanceUnitScale .MILLIMETER lengthUnit
  let rect ← self.getBoundingBox
  if 0 < depth then
    let transMatrix ←
      source.extrinsics.getExtrinsicsTransformationTo target.extrinsics false lengthUnit
    let boundingBox ← source.projectRectTo num target rect depth
    let spatialCoordinates ← transformPoint3f transMatrix self.spatialCoordinates
    return { self with
      toDetectionBox := self.setBoundingBox num.toTrigonometry boundingBox
      spatialCoordinates }
  else
    let boundingBox ← source.remapRectTo num target rect
    return { self with toDetectionBox := self.setBoundingBox num.toTrigonometry boundingBox }

def transform (num : Numerics K) (self : SpatialImgDetection K)
    (source target : ImgTransformation K) (lengthUnit : LengthUnit := .MILLIMETER) :
    Except Failure (SpatialImgDetection K) := do
  let transformed ← self.transformBox num source target lengthUnit
  match self.keypoints with
  | none => return transformed
  | some keypoints =>
    let s := getDistanceUnitScale keypoints.unit lengthUnit
    let scaledFallbackCoordinates := self.spatialCoordinates.scaledBy s
    let keypoints ←
      keypoints.transformKeypointsFallback num source target scaledFallbackCoordinates
    return { transformed with keypoints := some keypoints }

end SpatialImgDetection

structure SpatialImgDetections (K : Type) [Field K] where
  detections : List (SpatialImgDetection K)
  transformation : Option (ImgTransformation K)
  unit : LengthUnit

def SpatialImgDetections.transformTo (num : Numerics K) (self : SpatialImgDetections K)
    (target : ImgTransformation K) : Except Failure (SpatialImgDetections K) :=
  match self.transformation with
  | none =>
    .error (.runtimeError
      "Source transformation is not set, cannot transform spatial image detections.")
  | some source => do
    let detections ←
      self.detections.mapM fun detection => detection.transform num source target self.unit
    return { self with detections, transformation := some target }

/-! ### Other units -/

/-- The keypoint with its spatial coordinates scaled. -/
def SpatialKeypoint.scaledBy (self : SpatialKeypoint K) (scale : K) : SpatialKeypoint K :=
  { self with spatialCoordinates := self.spatialCoordinates.scaledBy scale }

/-- The list in another unit. -/
def SpatialKeypointsList.inUnit (unit : LengthUnit) (self : SpatialKeypointsList K) :
    SpatialKeypointsList K :=
  { self with
    keypoints := self.keypoints.map (·.scaledBy (getDistanceUnitScale unit self.unit))
    unit }

/-- The detection with its coordinates in another unit than that of the message, and its keypoints
in yet another. -/
def SpatialImgDetection.inUnits (lengthUnit unit keypointUnit : LengthUnit)
    (self : SpatialImgDetection K) : SpatialImgDetection K :=
  { self with
    spatialCoordinates := self.spatialCoordinates.scaledBy (getDistanceUnitScale unit lengthUnit)
    keypoints := self.keypoints.map (.inUnit keypointUnit) }

/-- **The message in other units**, with one for the keypoints of each detection. -/
def SpatialImgDetections.inUnits (self : SpatialImgDetections K) (unit : LengthUnit)
    (keypointUnit : ℕ → LengthUnit) : SpatialImgDetections K :=
  { self with
    detections := self.detections.mapIdx fun i => .inUnits self.unit unit (keypointUnit i)
    unit }
/-! ### Lengths in two units -/

variable [IsStrictOrderedRing K]

theorem getDistanceUnitScale_pos (unit unit' : LengthUnit) :
    0 < (getDistanceUnitScale unit unit' : K) := by
  have hpos : ∀ unit, 0 < (getLengthUnitMultiplier unit : K) := by
    intro unit
    cases unit <;> norm_num [getLengthUnitMultiplier]
  exact div_pos (hpos unit) (hpos unit')

/-- **By way of a third unit.** -/
theorem getDistanceUnitScale_mul (a b c : LengthUnit) :
    (getDistanceUnitScale b a : K) * getDistanceUnitScale c b = getDistanceUnitScale c a := by
  have hb := getLengthUnitMultiplier_ne_zero (K := K) b
  rw [getDistanceUnitScale, getDistanceUnitScale, getDistanceUnitScale, div_mul_div_comm,
    mul_comm, mul_div_mul_right _ _ hb]

omit [LinearOrder K] [IsStrictOrderedRing K] in
@[simp] theorem Point3f.scaledBy_z (p : Point3f K) (scale : K) :
    (p.scaledBy scale).z = p.z * scale := rfl

omit [LinearOrder K] [IsStrictOrderedRing K] in
theorem Point3f.scaledBy_scaledBy (p : Point3f K) (a b : K) :
    (p.scaledBy a).scaledBy b = p.scaledBy (a * b) := by
  simp only [Point3f.scaledBy, mul_assoc]

/-- A change of the unit leaves it open or not whether there is a depth. -/
theorem mul_scale_pos_iff (z : K) (unit unit' : LengthUnit) :
    0 < z * getDistanceUnitScale unit unit' ↔ 0 < z :=
  mul_pos_iff_of_pos_right (getDistanceUnitScale_pos unit unit')

/-! ### Motions in two units -/

omit [LinearOrder K] [IsStrictOrderedRing K] in
theorem Extrinsics.getTransformationMatrix_eq_motion [CharZero K] {self : Extrinsics K}
    (h : IsThreeByThree self.rotationMatrix) (useSpec : Bool) (unit : LengthUnit) :
    self.getTransformationMatrix useSpec unit =
      .ok (scaleShift (getLengthUnitMultiplier unit) (motion (rotationOf self.rotationMatrix)
        (self.getTranslationInUnit useSpec .METER).coordinates)) := by
  have htranslation : (self.getTranslationInUnit useSpec unit).coordinates = fun i =>
      (self.getTranslationInUnit useSpec .METER).coordinates i * getLengthUnitMultiplier unit := by
    funext i
    fin_cases i <;>
      simp [getTranslationInUnit, getDistanceUnitScale, getLengthUnitMultiplier,
        Point3f.coordinates, mul_assoc, div_eq_inv_mul]
  rw [getTransformationMatrix_eq h, createTransformationMatrix_eq h,
    ImgTransformation.createTransformationMatrixInternal_eq_motion, scaleShift_motion, htranslation]

omit [LinearOrder K] [IsStrictOrderedRing K] in
/-- **From one pose to another in any unit.** There is no way in any, or there is one motion. -/
theorem Extrinsics.getExtrinsicsTransformationTo_cases [CharZero K] (self target : Extrinsics K)
    (useSpec : Bool) :
    (∃ failure, ∀ unit, self.getExtrinsicsTransformationTo target useSpec unit =
      .error failure) ∨
    ∃ M, Motion M ∧ ∀ unit, self.getExtrinsicsTransformationTo target useSpec unit =
      .ok (scaleShift (getLengthUnitMultiplier unit) M) := by
  unfold getExtrinsicsTransformationTo getInverseTransformationMatrix
  by_cases hauto : self.toCameraSocket = .AUTO ∨ target.toCameraSocket = .AUTO
  · simp only [if_pos hauto]
    exact .inl ⟨_, fun unit => rfl⟩
  by_cases hsame : self.toCameraSocket ≠ target.toCameraSocket
  · simp only [if_neg hauto, if_pos hsame]
    exact .inl ⟨_, fun unit => rfl⟩
  simp only [if_neg hauto, if_neg hsame]
  by_cases hself : IsThreeByThree self.rotationMatrix
  · simp only [getTransformationMatrix_eq_motion hself]
    by_cases htarget : IsThreeByThree target.rotationMatrix
    · -- the two matrices are motions, and a change of the unit goes through the product
      refine .inr ⟨reverse (motion (rotationOf target.rotationMatrix)
        (target.getTranslationInUnit useSpec .METER).coordinates) *
          motion (rotationOf self.rotationMatrix)
            (self.getTranslationInUnit useSpec .METER).coordinates,
        (reverse_isMotion _).mul (motion_isMotion _ _), fun unit => ?_⟩
      rw [getTransformationMatrix_eq_motion htarget, (reverse_isMotion _).scaleShift_mul
        (motion_isMotion _ _), scaleShift_reverse, scaleShift_motion, scaleShift_motion,
        ← ImgTransformation.invertSe3Matrix4x4_motion, ← matMul_eq]
      rfl
    · simp only [getTransformationMatrix, if_pos htarget]
      exact .inl ⟨_, fun unit => rfl⟩
  · simp only [getTransformationMatrix, if_pos hself]
    exact .inl ⟨_, fun unit => rfl⟩

theorem scaleShift_unit (M : Matrix4 K) (unit unit' : LengthUnit) :
    scaleShift (getLengthUnitMultiplier unit') M =
      scaleShift (getDistanceUnitScale unit' unit)
        (scaleShift (getLengthUnitMultiplier unit) M) := by
  rw [scaleShift_scaleShift, getDistanceUnitScale,
    mul_div_cancel₀ _ (getLengthUnitMultiplier_ne_zero (K := K) unit)]

theorem transformPoint3f_motion {M : Matrix4 K} (hM : Motion M) (p : Point3f K) :
    transformPoint3f M p =
      .ok ⟨(linear M *ᵥ p.coordinates + shift M) 0, (linear M *ᵥ p.coordinates + shift M) 1,
        (linear M *ᵥ p.coordinates + shift M) 2⟩ := by
  have hmoved : matVecMul M ![p.x, p.y, p.z, 1] =
      extend (linear M *ᵥ p.coordinates + shift M) := by
    have hextend : (![p.x, p.y, p.z, 1] : Fin 4 → K) = extend p.coordinates := rfl
    conv_lhs => rw [matVecMul_eq, hextend, hM, motion_mulVec_extend]
  rw [transformPoint3f, hmoved, ImgTransformation.dehomogenizePoint4_extend]
  rfl

/-- **A motion in another unit** takes the point in that unit to the image in that unit. -/
theorem transformPoint3f_scaledBy {M : Matrix4 K} (hM : Motion M) (p : Point3f K) (scale : K) :
    transformPoint3f (scaleShift scale M) (p.scaledBy scale) =
      (transformPoint3f M p).map (·.scaledBy scale) := by
  have hcoordinates : linear (scaleShift scale M) *ᵥ (p.scaledBy scale).coordinates +
      shift (scaleShift scale M) = fun i => (linear M *ᵥ p.coordinates + shift M) i * scale := by
    rw [hM, scaleShift_motion, linear_motion, linear_motion, shift_motion, shift_motion]
    funext i
    simp only [Pi.add_apply, Matrix.mulVec, dotProduct, Fin.sum_univ_three, Point3f.coordinates,
      Point3f.scaledBy, Matrix.cons_val_zero, Matrix.cons_val_one, Matrix.cons_val]
    ring
  rw [transformPoint3f_motion (hM.scaleShift scale), transformPoint3f_motion hM, hcoordinates]
  rfl

/-! ### Keypoints -/

section Keypoints

variable {num : Numerics K} {source target : ImgTransformation K}

/-- **A keypoint in another unit.** -/
theorem SpatialKeypoint.transform_scaledBy {M : Matrix4 K} (hM : Motion M) {scale depthScale : K}
    (hscale : 0 < scale) (kp : SpatialKeypoint K) :
    (kp.scaledBy scale).transform num source target (scaleShift scale M) (depthScale / scale) =
      (kp.transform num source target M depthScale).map (·.scaledBy scale) := by
  have hdepth : kp.spatialCoordinates.z * scale * (depthScale / scale) =
      kp.spatialCoordinates.z * depthScale := by
    rw [mul_assoc, mul_div_cancel₀ _ hscale.ne']
  rw [SpatialKeypoint.transform, SpatialKeypoint.transform]
  simp only [SpatialKeypoint.scaledBy, Point3f.scaledBy_z, mul_pos_iff_of_pos_right hscale, hdepth,
    transformPoint3f_scaledBy hM]
  by_cases hz : 0 < kp.spatialCoordinates.z
  · rw [if_pos hz, if_pos hz]
    cases source.projectPointTo num target kp.imgCoordinates2f
        (kp.spatialCoordinates.z * depthScale) with
    | error e => rfl
    | ok point => cases transformPoint3f M kp.spatialCoordinates <;> rfl
  · rw [if_neg hz, if_neg hz]
    cases source.remapPointTo num target kp.imgCoordinates2f <;> rfl

namespace SpatialKeypointsList

/-- What becomes of a keypoint with a fallback. -/
def transformed (num : Numerics K) (source target : ImgTransformation K) (M : Matrix4 K)
    (depthScale : K) (fallback : Point3f K) (kp : SpatialKeypoint K) :
    Except Failure (SpatialKeypoint K) :=
  ((withFallback fallback kp).transform num source target M depthScale).map (restore kp)

omit [IsStrictOrderedRing K] in
/-- **The keypoints one by one.** -/
theorem transformKeypointsFallback_eq (self : SpatialKeypointsList K) (fallback : Point3f K) :
    self.transformKeypointsFallback num source target fallback =
      source.extrinsics.getExtrinsicsTransformationTo target.extrinsics false self.unit >>= fun M =>
        (self.keypoints.mapM (transformed num source target M
          (getDistanceUnitScale .MILLIMETER self.unit) fallback)).map fun keypoints =>
            { self with keypoints } := by
  rw [transformKeypointsFallback, transformTo]
  dsimp only
  cases source.extrinsics.getExtrinsicsTransformationTo target.extrinsics false self.unit with
  | error e => rfl
  | ok M =>
    have hrounds : _ = self.keypoints.mapM (transformed num source target M
        (getDistanceUnitScale .MILLIMETER self.unit) fallback) :=
      Loop.zipWith_mapM self.keypoints
    rw [Loop.ok_bind, Loop.ok_bind, ← hrounds]
    cases (self.keypoints.map (withFallback fallback)).mapM (SpatialKeypoint.transform num source
      target M (getDistanceUnitScale .MILLIMETER self.unit)) <;> rfl

theorem transformed_scaledBy {M : Matrix4 K} (hM : Motion M) {scale depthScale : K}
    (hscale : 0 < scale) (fallback : Point3f K) (kp : SpatialKeypoint K) :
    transformed num source target (scaleShift scale M) (depthScale / scale)
        (fallback.scaledBy scale) (kp.scaledBy scale) =
      (transformed num source target M depthScale fallback kp).map (·.scaledBy scale) := by
  have hz : kp.spatialCoordinates.z * scale ≤ 0 ↔ kp.spatialCoordinates.z ≤ 0 := by
    rw [← not_lt, ← not_lt, mul_pos_iff_of_pos_right hscale]
  have hfallback : withFallback (fallback.scaledBy scale) (kp.scaledBy scale) =
      (withFallback fallback kp).scaledBy scale := by
    rw [withFallback, withFallback, SpatialKeypoint.scaledBy, Point3f.scaledBy_z]
    by_cases h : kp.spatialCoordinates.z ≤ 0
    · rw [if_pos (hz.2 h), if_pos h]
      rfl
    · rw [if_neg (mt hz.1 h), if_neg h]
      rfl
  have hrestore : ∀ kp', restore (kp.scaledBy scale) (kp'.scaledBy scale) =
      (restore kp kp').scaledBy scale := by
    intro kp'
    rw [restore, restore, SpatialKeypoint.scaledBy, Point3f.scaledBy_z]
    by_cases h : kp.spatialCoordinates.z ≤ 0
    · rw [if_pos (hz.2 h), if_pos h]
      rfl
    · rw [if_neg (mt hz.1 h), if_neg h]
  rw [transformed, transformed, hfallback, SpatialKeypoint.transform_scaledBy hM hscale]
  cases (withFallback fallback kp).transform num source target M depthScale with
  | error e => rfl
  | ok kp' => exact congrArg Except.ok (hrestore kp')

/-- **Keypoints in another unit**, with the fallback in that unit. -/
theorem transformKeypointsFallback_inUnit (self : SpatialKeypointsList K) (unit : LengthUnit)
    (fallback : Point3f K) :
    (self.inUnit unit).transformKeypointsFallback num source target
        (fallback.scaledBy (getDistanceUnitScale unit self.unit)) =
      (self.transformKeypointsFallback num source target fallback).map (.inUnit unit) := by
  rw [transformKeypointsFallback_eq, transformKeypointsFallback_eq]
  obtain ⟨failure, herror⟩ | ⟨M, hM, hok⟩ :=
    source.extrinsics.getExtrinsicsTransformationTo_cases target.extrinsics false
  · rw [herror, herror]
    rfl
  · have hscale := getDistanceUnitScale_pos (K := K) unit self.unit
    have hunit : (self.inUnit unit).unit = unit := rfl
    have hdepth : (getDistanceUnitScale .MILLIMETER unit : K) =
        getDistanceUnitScale .MILLIMETER self.unit / getDistanceUnitScale unit self.unit := by
      rw [eq_div_iff hscale.ne', mul_comm, getDistanceUnitScale_mul]
    rw [hunit, hok, hok, Loop.ok_bind, Loop.ok_bind, inUnit, List.mapM_map,
      scaleShift_unit M self.unit unit, hdepth]
    have hrounds := @Loop.mapM_congr _ _ _ _ _ self.keypoints fun kp _ =>
      @transformed_scaledBy K _ _ _ num source target _
        (hM.scaleShift (getLengthUnitMultiplier self.unit)) _
        (getDistanceUnitScale .MILLIMETER self.unit) hscale fallback kp
    rw [Loop.mapM_map] at hrounds
    simp only [Function.comp_def, hrounds]
    cases self.keypoints.mapM (transformed num source target
      (scaleShift (getLengthUnitMultiplier self.unit) M)
      (getDistanceUnitScale .MILLIMETER self.unit) fallback) <;> rfl

end SpatialKeypointsList

end Keypoints

/-! ### Detections -/

namespace SpatialImgDetection

variable {num : Numerics K} {source target : ImgTransformation K}

theorem transformBox_inUnits (self : SpatialImgDetection K)
    (lengthUnit unit keypointUnit : LengthUnit) :
    (self.inUnits lengthUnit unit keypointUnit).transformBox num source target unit =
      (self.transformBox num source target lengthUnit).map
        (.inUnits lengthUnit unit keypointUnit) := by
  have hscale := getDistanceUnitScale_pos (K := K) unit lengthUnit
  have hdepth : self.spatialCoordinates.z * getDistanceUnitScale unit lengthUnit *
      getDistanceUnitScale .MILLIMETER unit =
        self.spatialCoordinates.z * getDistanceUnitScale .MILLIMETER lengthUnit := by
    rw [mul_assoc, getDistanceUnitScale_mul]
  rw [transformBox, transformBox]
  simp only [inUnits, Point3f.scaledBy_z, hdepth]
  cases self.getBoundingBox with
  | error e => rfl
  | ok rect =>
    rw [Loop.ok_bind, Loop.ok_bind]
    by_cases hz : 0 < self.spatialCoordinates.z * getDistanceUnitScale .MILLIMETER lengthUnit
    · rw [if_pos hz, if_pos hz]
      obtain ⟨failure, herror⟩ | ⟨M, hM, hok⟩ :=
        source.extrinsics.getExtrinsicsTransformationTo_cases target.extrinsics false
      · rw [herror, herror]
        rfl
      · rw [hok, hok, Loop.ok_bind, Loop.ok_bind]
        cases source.projectRectTo num target rect
            (self.spatialCoordinates.z * getDistanceUnitScale .MILLIMETER lengthUnit) with
        | error e => rfl
        | ok boundingBox =>
          rw [Loop.ok_bind, Loop.ok_bind, scaleShift_unit M lengthUnit unit,
            transformPoint3f_scaledBy (hM.scaleShift _)]
          cases transformPoint3f (scaleShift (getLengthUnitMultiplier lengthUnit) M)
            self.spatialCoordinates <;> rfl
    · rw [if_neg hz, if_neg hz]
      cases source.remapRectTo num target rect <;> rfl

/-- **A detection in other units.** -/
theorem transform_inUnits (self : SpatialImgDetection K)
    (lengthUnit unit keypointUnit : LengthUnit) :
    (self.inUnits lengthUnit unit keypointUnit).transform num source target unit =
      (self.transform num source target lengthUnit).map
        (.inUnits lengthUnit unit keypointUnit) := by
  rw [transform, transform, transformBox_inUnits]
  cases self.transformBox num source target lengthUnit with
  | error e => rfl
  | ok transformed =>
    cases hkeypoints : self.keypoints with
    | none =>
      have hnone : (self.inUnits lengthUnit unit keypointUnit).keypoints = none := by
        rw [inUnits, hkeypoints]
        rfl
      simp only [Except.map, Loop.ok_bind, hnone]
      rfl
    | some keypoints =>
      have hsome : (self.inUnits lengthUnit unit keypointUnit).keypoints =
          some (keypoints.inUnit keypointUnit) := by
        rw [inUnits, hkeypoints]
        rfl
      -- the fallback in the unit of the keypoints, by way of either unit of the message
      have hfallback : (self.inUnits lengthUnit unit keypointUnit).spatialCoordinates.scaledBy
          (getDistanceUnitScale keypointUnit unit) =
            (self.spatialCoordinates.scaledBy
              (getDistanceUnitScale keypoints.unit lengthUnit)).scaledBy
                (getDistanceUnitScale keypointUnit keypoints.unit) := by
        rw [inUnits, Point3f.scaledBy_scaledBy, Point3f.scaledBy_scaledBy,
          getDistanceUnitScale_mul, getDistanceUnitScale_mul]
      have hunit : (keypoints.inUnit keypointUnit).unit = keypointUnit := rfl
      simp only [Except.map, Loop.ok_bind, hsome, hunit, hfallback,
        keypoints.transformKeypointsFallback_inUnit]
      cases keypoints.transformKeypointsFallback num source target
        (self.spatialCoordinates.scaledBy (getDistanceUnitScale keypoints.unit lengthUnit)) <;> rfl

/-- **What goes without a depth of its own.** A detection without one keeps its coordinates. A
keypoint without one keeps its own too, and its point goes by the depth of the detection if there is
one. -/
structure FallsBack (num : Numerics K) (source target : ImgTransformation K)
    (lengthUnit : LengthUnit) (self transformed : SpatialImgDetection K) : Prop where
  spatialCoordinates : self.spatialCoordinates.z ≤ 0 →
    transformed.spatialCoordinates = self.spatialCoordinates
  keypoints : ∀ before ∈ self.keypoints, ∃ after ∈ transformed.keypoints,
    List.Forall₂ (fun kp kp' => kp.spatialCoordinates.z ≤ 0 → ∃ point,
      (if 0 < self.spatialCoordinates.z then
        source.projectPointTo num target kp.imgCoordinates2f
          (self.spatialCoordinates.z * getDistanceUnitScale .MILLIMETER lengthUnit)
      else source.remapPointTo num target kp.imgCoordinates2f) = .ok point ∧
      kp' = kp.setPoint point) before.keypoints after.keypoints

omit [IsStrictOrderedRing K] in
theorem transformBox_keypoints {self transformed : SpatialImgDetection K} {lengthUnit : LengthUnit}
    (h : self.transformBox num source target lengthUnit = .ok transformed) :
    transformed.keypoints = self.keypoints := by
  rw [transformBox] at h
  obtain ⟨rect, -, h⟩ := Loop.bind_eq_ok.1 h
  split_ifs at h
  · obtain ⟨M, -, h⟩ := Loop.bind_eq_ok.1 h
    obtain ⟨boundingBox, -, h⟩ := Loop.bind_eq_ok.1 h
    obtain ⟨spatialCoordinates, -, h⟩ := Loop.bind_eq_ok.1 h
    rw [← Except.ok.inj h]
  · obtain ⟨boundingBox, -, h⟩ := Loop.bind_eq_ok.1 h
    rw [← Except.ok.inj h]

theorem transformBox_spatialCoordinates {self transformed : SpatialImgDetection K}
    {lengthUnit : LengthUnit} (hz : self.spatialCoordinates.z ≤ 0)
    (h : self.transformBox num source target lengthUnit = .ok transformed) :
    transformed.spatialCoordinates = self.spatialCoordinates := by
  rw [transformBox] at h
  obtain ⟨rect, -, h⟩ := Loop.bind_eq_ok.1 h
  rw [if_neg ((mul_scale_pos_iff _ _ _).not.2 (not_lt.2 hz))] at h
  obtain ⟨boundingBox, -, h⟩ := Loop.bind_eq_ok.1 h
  rw [← Except.ok.inj h]

end SpatialImgDetection

omit [IsStrictOrderedRing K] in
theorem SpatialKeypointsList.transformed_eq_ok {num : Numerics K}
    {source target : ImgTransformation K} {M : Matrix4 K} {depthScale : K} {fallback : Point3f K}
    {kp kp' : SpatialKeypoint K}
    (h : transformed num source target M depthScale fallback kp = .ok kp')
    (hz : kp.spatialCoordinates.z ≤ 0) : ∃ point,
      (if 0 < fallback.z then
        source.projectPointTo num target kp.imgCoordinates2f (fallback.z * depthScale)
      else source.remapPointTo num target kp.imgCoordinates2f) = .ok point ∧
      kp' = kp.setPoint point := by
  obtain ⟨kp'', hkp, rfl⟩ := Loop.map_eq_ok.1 h
  rw [withFallback, if_pos hz, SpatialKeypoint.transform] at hkp
  rw [restore, if_pos hz]
  by_cases hfallback : 0 < fallback.z
  · rw [if_pos hfallback] at hkp ⊢
    obtain ⟨point, hpoint, hkp⟩ := Loop.bind_eq_ok.1 hkp
    obtain ⟨spatialCoordinates, -, hkp⟩ := Loop.bind_eq_ok.1 hkp
    obtain rfl := Except.ok.inj hkp
    exact ⟨point, hpoint, rfl⟩
  · rw [if_neg hfallback] at hkp ⊢
    obtain ⟨point, hpoint, hkp⟩ := Loop.bind_eq_ok.1 hkp
    obtain rfl := Except.ok.inj hkp
    exact ⟨point, hpoint, rfl⟩

theorem SpatialImgDetection.fallsBack_of_transform {num : Numerics K}
    {source target : ImgTransformation K} {lengthUnit : LengthUnit}
    {self result : SpatialImgDetection K}
    (h : self.transform num source target lengthUnit = .ok result) :
    FallsBack num source target lengthUnit self result := by
  rw [transform] at h
  obtain ⟨box, hbox, h⟩ := Loop.bind_eq_ok.1 h
  have hspatial := fun hz => transformBox_spatialCoordinates hz hbox
  cases hkeypoints : self.keypoints with
  | none =>
    rw [hkeypoints] at h
    obtain rfl := Except.ok.inj h
    refine ⟨hspatial, fun before hbefore => ?_⟩
    rw [hkeypoints] at hbefore
    cases hbefore
  | some keypoints =>
    rw [hkeypoints] at h
    obtain ⟨after, hafter, h⟩ := Loop.bind_eq_ok.1 h
    obtain rfl := Except.ok.inj h
    refine ⟨hspatial, fun before hbefore => ?_⟩
    obtain rfl : keypoints = before := Option.some.inj (hkeypoints.symm.trans hbefore)
    rw [SpatialKeypointsList.transformKeypointsFallback_eq] at hafter
    obtain ⟨M, -, hafter⟩ := Loop.bind_eq_ok.1 hafter
    obtain ⟨kps, hkps, rfl⟩ := Loop.map_eq_ok.1 hafter
    refine ⟨_, rfl, (Loop.mapM_eq_ok_iff.1 hkps).imp fun kp kp' hkp hz => ?_⟩
    have hfalls := SpatialKeypointsList.transformed_eq_ok hkp hz
    simp only [Point3f.scaledBy_z, mul_scale_pos_iff, mul_assoc,
      getDistanceUnitScale_mul] at hfalls
    exact hfalls

/-! ### Messages -/

/-- **Transformation and unit.** To change the units of a message and transform it then is to
transform it first and change them then, and one throws as the other does. What has no depth of its
own keeps its coordinates, and its point goes by the depth of the detection. -/
theorem SpatialImgDetections.transformTo_inUnits {num : Numerics K} (self : SpatialImgDetections K)
    (target : ImgTransformation K) (unit : LengthUnit) (keypointUnit : ℕ → LengthUnit) :
    (self.inUnits unit keypointUnit).transformTo num target =
        (self.transformTo num target).map (·.inUnits unit keypointUnit) ∧
      ∀ source ∈ self.transformation, ∀ transformed, self.transformTo num target = .ok transformed →
        List.Forall₂ (SpatialImgDetection.FallsBack num source target self.unit) self.detections
          transformed.detections := by
  rw [transformTo, transformTo]
  constructor
  · have htransformation : (self.inUnits unit keypointUnit).transformation = self.transformation :=
      rfl
    rw [htransformation]
    cases self.transformation with
    | none => rfl
    | some source =>
      have hrounds : (self.detections.mapIdx fun i => .inUnits self.unit unit (keypointUnit i)).mapM
          (SpatialImgDetection.transform num · source target unit) =
            (self.detections.mapM (SpatialImgDetection.transform num · source target self.unit)).map
              (List.mapIdx fun i => .inUnits self.unit unit (keypointUnit i)) :=
        Loop.mapM_mapIdx (fun i d => d.transform_inUnits self.unit unit (keypointUnit i)) _
      have hdetections : (self.inUnits unit keypointUnit).detections = self.detections.mapIdx
        fun i => .inUnits self.unit unit (keypointUnit i) := rfl
      have hunit : (self.inUnits unit keypointUnit).unit = unit := rfl
      dsimp only
      rw [hdetections, hunit, hrounds]
      cases self.detections.mapM
        (SpatialImgDetection.transform num · source target self.unit) <;> rfl
  · intro source hsource transformed h
    rw [Option.mem_def.1 hsource] at h
    obtain ⟨detections, hdetections, h⟩ := Loop.bind_eq_ok.1 h
    obtain rfl := Except.ok.inj h
    exact (Loop.mapM_eq_ok_iff.1 hdetections).imp
      fun d d' hd => SpatialImgDetection.fallsBack_of_transform hd

/-- A message in metres with keypoints in centimetres, of which the second has no depth. -/
def threeUnits : SpatialImgDetections ℚ where
  detections := [{
    label := 0, labelName := "", confidence := 1, xmin := 25, ymin := 35, xmax := 35, ymax := 45
    boundingBox := some ⟨⟨30, 40, false, true⟩, ⟨10, 10, false, true⟩, 0⟩
    keypoints := some {
      keypoints := [⟨⟨⟨30, 40, 0⟩, 1, 0, ""⟩, ⟨-40, -20, 100⟩⟩,
        ⟨⟨⟨35, 45, 0⟩, 1, 0, ""⟩, ⟨0, 0, 0⟩⟩]
      edges := [(0, 1)]
      unit := .CENTIMETER }
    spatialCoordinates := ⟨-2 / 5, -1 / 5, 1⟩ }]
  transformation := some ImgTransformation.leftFrame
  unit := .METER

/-- In millimetres with keypoints in inches it goes to a turned camera all the same. -/
theorem transformTo_inUnits_threeUnits :
    (threeUnits.inUnits .MILLIMETER fun _ => .INCH).transformTo ImgTransformation.sampleNumerics
        ImgTransformation.rightFrame =
      (threeUnits.transformTo ImgTransformation.sampleNumerics ImgTransformation.rightFrame).map
        (·.inUnits .MILLIMETER fun _ => .INCH) ∧
    (threeUnits.transformTo ImgTransformation.sampleNumerics ImgTransformation.rightFrame).map
        (fun m => m.detections.map (·.spatialCoordinates)) = .ok [⟨-1 / 5, 43 / 100, 1⟩] :=
  ⟨(SpatialImgDetections.transformTo_inUnits threeUnits _ .MILLIMETER fun _ => .INCH).1,
    by decide +kernel⟩

end DepthaiCore
