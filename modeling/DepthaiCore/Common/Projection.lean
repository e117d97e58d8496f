import DepthaiCore.Common.AlignedFrames
import DepthaiCore.Lib.RigidMotion

/-!
# Points at a depth

`projectPointTo` takes a pixel and its depth to the frame of another camera: along the ray of the pixel
into space, by the motion between the cameras, and down to the image. There and back, at the depth in
the other frame, leads to the point in space again. Cameras in one place see every point in one
direction, at any depth, so there it is a remapping.

What comes out as a pixel carries no flag. The way back reads it again, by its coordinates.
-/

open scoped Numerals

namespace DepthaiCore

open MatrixOps Matrix Homography

variable {K : Type} [Field K] [LinearOrder K]

/-! ### What the source computes -/

def dehomogenizePoint4 (point : Fin 4 → K) : Except Failure (Fin 4 → K) :=
  if |point 3| < 1 / 1000000 then
    .error (.runtimeError "Cannot dehomogenize point with w close to zero.")
  else do
    return ![← quotient (point 0) (point 3), ← quotient (point 1) (point 3),
      ← quotient (point 2) (point 3), 1]

def transformPoint3f (matrix : Matrix4 K) (point : Point3f K) : Except Failure (Point3f K) := do
  let res := matVecMul matrix ![point.x, point.y, point.z, 1]
  let dehomogenized ← dehomogenizePoint4 res
  return ⟨dehomogenized 0, dehomogenized 1, dehomogenized 2⟩

namespace ImgTransformation

/-- The first part of `projectPointTo`: the point in space, at the other camera. The texts of the
exceptions leave out the numbers. -/
def target3dPoint (num : Numerics K) (self target : ImgTransformation K) (point : Point2f K)
    (depth : K) : Except Failure (Point3f K) := do
  if depth ≤ 0 then
    throw (.runtimeError "Depth must be greater than 0.")
  let copyPoint :=
    if point.isNormalized then
      { point with x := point.x * self.width, y := point.y * self.height, normalized := false }
    else
      point
  let sourcePointFrom ← self.invTransformPoint copyPoint
  let thisRay ← pixelToRay num sourcePointFrom self
  let extrinsicTransformation ←
    self.extrinsics.getExtrinsicsTransformationTo target.extrinsics false .MILLIMETER
  transformPoint3f extrinsicTransformation ⟨thisRay 0 * depth, thisRay 1 * depth, depth⟩

def projectPointTo (num : Numerics K) (self target : ImgTransformation K) (point : Point2f K)
    (depth : K) : Except Failure (Point2f K) := do
  let normalized := point.isNormalized
  let target3dPoint ← self.target3dPoint num target point depth
  if target3dPoint.z ≤ 0 then
    throw (.runtimeError
      "Projected point is behind the target camera socket. Cannot project to 2D.")
  let x ← quotient target3dPoint.x target3dPoint.z
  let y ← quotient target3dPoint.y target3dPoint.z
  let distortedTargetSourcePoint ← rayToPixel num ![x, y, 1] target
  let targetPoint ← target.transformPoint distortedTargetSourcePoint
  if normalized then
    return { x := ← quotient targetPoint.x target.width
             y := ← quotient targetPoint.y target.height
             normalized := true
             hasNormalized := true }
  return targetPoint

end ImgTransformation

/-! ### Points in space -/

/-- The three coordinates. -/
def Point3f.coordinates {K : Type} (p : Point3f K) : Fin 3 → K :=
  ![p.x, p.y, p.z]

namespace ImgTransformation

/-- Where the camera is, in millimetres. -/
def position (t : ImgTransformation K) : Fin 3 → K :=
  (t.extrinsics.getTranslationInUnit false .MILLIMETER).coordinates

/-- How the camera is turned. -/
def rotation (t : ImgTransformation K) : Matrix3 K :=
  rotationOf t.extrinsics.rotationMatrix

/-- A point in space, from one camera to the other. -/
def moved (t u : ImgTransformation K) (X : Fin 3 → K) : Fin 3 → K :=
  (rotation u)ᵀ *ᵥ (rotation t *ᵥ X + (position t - position u))

/-- The direction in which a pixel of the frame is seen. -/
def sight (t : ImgTransformation K) (q : K × K) : K × K :=
  image t.sourceIntrinsicMatrixInv (image t.transformationMatrixInv q)

/-- The point in space at a depth behind a pixel. -/
def space (t : ImgTransformation K) (q : K × K) (depth : K) : Fin 3 → K :=
  depth • lift (sight t q)

/-- The pixel of a point in space. -/
def seen (u : ImgTransformation K) (X : Fin 3 → K) : K × K :=
  image u.transformationMatrix (image u.sourceIntrinsicMatrix (point X))

/-! ### From camera to camera -/

open RigidMotion

variable {num : Numerics K} {socket : CameraBoardSocket} {t u : ImgTransformation K}

/-- The pose of the camera as a motion. -/
def pose (t : ImgTransformation K) : Matrix4 K :=
  motion (rotation t) (position t)

omit [LinearOrder K] in
theorem createTransformationMatrixInternal_eq_motion (rotation : Matrix3 K)
    (translation : Point3f K) :
    createTransformationMatrixInternal rotation translation =
      motion rotation translation.coordinates := rfl

omit [LinearOrder K] in
theorem invertSe3Matrix4x4_motion (R : Matrix3 K) (v : Fin 3 → K) :
    invertSe3Matrix4x4 (motion R v) = reverse (motion R v) := by
  rw [reverse, linear_motion, shift_motion]
  funext i j
  fin_cases i <;> fin_cases j <;>
    simp [invertSe3Matrix4x4, motion, Matrix.mulVec, dotProduct, Fin.sum_univ_three] <;> ring

omit [LinearOrder K] in
/-- **From one pose to the other**, in millimetres. -/
theorem getExtrinsicsTransformationTo_eq_relative (ht : RelativeTo socket t)
    (hu : RelativeTo socket u) (hauto : socket ≠ .AUTO) :
    t.extrinsics.getExtrinsicsTransformationTo u.extrinsics false .MILLIMETER =
      .ok (reverse (pose u) * pose t) := by
  have hguard : ¬(t.extrinsics.toCameraSocket = .AUTO ∨ u.extrinsics.toCameraSocket = .AUTO) := by
    rw [ht.toCameraSocket, hu.toCameraSocket, or_self]
    exact hauto
  have hsame : t.extrinsics.toCameraSocket = u.extrinsics.toCameraSocket :=
    ht.toCameraSocket.trans hu.toCameraSocket.symm
  have hshape := (ht.orthonormal hauto).shape
  have hshape' := (hu.orthonormal hauto).shape
  rw [Extrinsics.getExtrinsicsTransformationTo, if_neg hguard, if_neg (not_not_intro hsame),
    Extrinsics.getInverseTransformationMatrix, Extrinsics.getTransformationMatrix_eq hshape,
    Extrinsics.getTransformationMatrix_eq hshape', createTransformationMatrix_eq hshape,
    createTransformationMatrix_eq hshape']
  simp only [createTransformationMatrixInternal_eq_motion, Loop.ok_bind, matMul_eq,
    invertSe3Matrix4x4_motion]
  rfl

theorem dehomogenizePoint4_extend [IsStrictOrderedRing K] (v : Fin 3 → K) :
    dehomogenizePoint4 (extend v) = .ok (extend v) := by
  have hlast : ¬|(1 : K)| < 1 / 1000000 := by
    rw [abs_one, not_lt, div_le_one (by positivity)]
    norm_num
  have hone : extend v 3 = 1 := rfl
  rw [dehomogenizePoint4, hone, if_neg hlast]
  simp only [quotient_eq one_ne_zero, div_one]
  rfl

theorem transformPoint3f_relative [IsStrictOrderedRing K] (p : Point3f K) :
    transformPoint3f (reverse (pose u) * pose t) p =
      .ok ⟨moved t u p.coordinates 0, moved t u p.coordinates 1, moved t u p.coordinates 2⟩ := by
  have hmoved : matVecMul (reverse (pose u) * pose t) ![p.x, p.y, p.z, 1] =
      extend (moved t u p.coordinates) := by
    have hextend : (![p.x, p.y, p.z, 1] : Fin 4 → K) = extend p.coordinates := rfl
    rw [matVecMul_eq, hextend, ← mulVec_mulVec, pose, pose, motion_mulVec_extend,
      reverse_motion_mulVec_extend, add_sub_assoc]
    rfl
  rw [transformPoint3f, hmoved, dehomogenizePoint4_extend]
  rfl

omit [LinearOrder K] in
/-- **There and back.** -/
theorem moved_moved (ht : RelativeTo socket t) (hu : RelativeTo socket u) (hauto : socket ≠ .AUTO)
    (X : Fin 3 → K) : moved u t (moved t u X) = X := by
  have hback : rotation u * (rotation u)ᵀ = 1 := (hu.orthonormal hauto).mul_transpose_self
  have hthere : (rotation t)ᵀ * rotation t = 1 := (ht.orthonormal hauto).transpose_mul_self
  rw [moved, moved, mulVec_mulVec, hback, one_mulVec, add_assoc, sub_add_sub_cancel, sub_self,
    add_zero, mulVec_mulVec, hthere, one_mulVec]

/-! ### From pixels to space and to pixels again -/

omit [LinearOrder K] in
theorem Inverted.seen_space (ht : t.Inverted) {q : K × K} {d : K} (hd : d ≠ 0)
    (hframe : (t.transformationMatrixInv *ᵥ lift q) 2 ≠ 0)
    (hsensor : (t.sourceIntrinsicMatrixInv *ᵥ lift (image t.transformationMatrixInv q)) 2 ≠ 0) :
    seen t (space t q d) = q := by
  rw [seen, space, point_smul hd, point_lift, sight, image_image _ _ hsensor,
    ht.sourceIntrinsicMatrixInv, mul_nonsing_inv _ ht.isUnit_source, image_one,
    image_image _ _ hframe, ht.transformationMatrixInv, mul_nonsing_inv _ ht.isUnit_det, image_one]

omit [LinearOrder K] in
theorem Inverted.space_seen (hu : u.Inverted) {X : Fin 3 → K} (hX : X 2 ≠ 0)
    (hsensor : (u.sourceIntrinsicMatrix *ᵥ lift (point X)) 2 ≠ 0)
    (hframe : (u.transformationMatrix *ᵥ lift (image u.sourceIntrinsicMatrix (point X))) 2 ≠ 0) :
    space u (seen u X) (X 2) = X := by
  rw [space, sight, seen, image_image _ _ hframe, hu.transformationMatrixInv,
    nonsing_inv_mul _ hu.isUnit_det, image_one, image_image _ _ hsensor,
    hu.sourceIntrinsicMatrixInv, nonsing_inv_mul _ hu.isUnit_source, image_one, lift_point hX,
    smul_smul, mul_inv_cancel₀ hX, one_smul]

/-! ### What the calls return -/

/-- The steps of `projectPointTo` from a pixel to the point in space. -/
def spacePixel (num : Numerics K) (t u : ImgTransformation K) (q : K × K) (depth : K) :
    Except Failure (Point3f K) := do
  let sourcePointFrom ← t.invTransformPoint (.ofCoordinates q)
  let thisRay ← pixelToRay num sourcePointFrom t
  let extrinsicTransformation ←
    t.extrinsics.getExtrinsicsTransformationTo u.extrinsics false .MILLIMETER
  transformPoint3f extrinsicTransformation ⟨thisRay 0 * depth, thisRay 1 * depth, depth⟩

/-- The steps of `projectPointTo` from the point in space to the other pixel. -/
def seenPixel (num : Numerics K) (u : ImgTransformation K) (X : Point3f K) :
    Except Failure (Point2f K) := do
  if X.z ≤ 0 then
    throw (.runtimeError
      "Projected point is behind the target camera socket. Cannot project to 2D.")
  let x ← quotient X.x X.z
  let y ← quotient X.y X.z
  let distortedTargetSourcePoint ← rayToPixel num ![x, y, 1] u
  u.transformPoint distortedTargetSourcePoint

theorem depth_pos_of_target3dPoint {p : Point2f K} {d : K} {X : Point3f K}
    (h : t.target3dPoint num u p d = .ok X) : 0 < d := by
  by_contra hd
  rw [target3dPoint, if_pos (not_lt.1 hd)] at h
  cases h

theorem target3dPoint_eq_spacePixel (p : Point2f K) {d : K} (hd : 0 < d) :
    t.target3dPoint num u p d = spacePixel num t u (t.pixel p) d := by
  rw [target3dPoint, if_neg (not_le.2 hd), spacePixel, pixel]
  by_cases hn : p.isNormalized
  · simp only [hn, if_true]
    rfl
  · simp only [hn]
    rfl

/-- **The two halves.** Fractions are scaled before and after. -/
theorem projectPointTo_eq_seenPixel (p : Point2f K) (d : K) :
    t.projectPointTo num u p d = t.target3dPoint num u p d >>= fun X => seenPixel num u X >>=
      fun q => if p.isNormalized then u.rescale q else .ok q := by
  rw [projectPointTo]
  refine congrArg (t.target3dPoint num u p d >>= ·) (funext fun X => ?_)
  rw [seenPixel]
  by_cases hz : X.z ≤ 0
  · simp only [hz, if_true]
    rfl
  · simp only [hz, if_false, bind_assoc]
    by_cases hn : p.isNormalized
    · simp only [hn, if_true]
      rfl
    · simp only [hn]
      rfl

variable [IsStrictOrderedRing K]

/-- **The point in space** that the first half returns. -/
theorem target3dPoint_eq_ok (ht : RelativeTo socket t) (hu : RelativeTo socket u)
    (hauto : socket ≠ .AUTO) (htu : t.Undistorted) {p : Point2f K} {d : K} {X : Point3f K}
    (h : t.target3dPoint num u p d = .ok X) :
    1 / 1000000 ≤ |(t.transformationMatrixInv *ᵥ lift (t.pixel p)) 2| ∧
      (t.sourceIntrinsicMatrixInv *ᵥ lift (image t.transformationMatrixInv (t.pixel p))) 2 ≠ 0 ∧
      X.coordinates = moved t u (space t (t.pixel p) d) := by
  rw [target3dPoint_eq_spacePixel p (depth_pos_of_target3dPoint h), spacePixel] at h
  obtain ⟨s, hs, h⟩ := Loop.bind_eq_ok.1 h
  obtain ⟨hframe, rfl⟩ := invTransformPoint_eq_ok hs
  obtain ⟨ray, hray, h⟩ := Loop.bind_eq_ok.1 h
  obtain ⟨hsensor, rfl⟩ := pixelToRay_eq_ok htu hray
  rw [Point2f.coordinates_ofCoordinates] at hframe hsensor h
  rw [getExtrinsicsTransformationTo_eq_relative ht hu hauto, Loop.ok_bind,
    transformPoint3f_relative] at h
  obtain rfl := Except.ok.inj h
  refine ⟨hframe, hsensor, ?_⟩
  have hspace : (⟨lift (sight t (t.pixel p)) 0 * d, lift (sight t (t.pixel p)) 1 * d, d⟩ :
      Point3f K).coordinates = space t (t.pixel p) d := by
    funext i
    fin_cases i <;> simp [Point3f.coordinates, space, lift, mul_comm]
  rw [← hspace]
  funext i
  fin_cases i <;> rfl

omit [IsStrictOrderedRing K] in
theorem seenPixel_eq_bind {X : Point3f K} (hz : 0 < X.z) :
    seenPixel num u X = rayToPixel num (lift (point X.coordinates)) u >>= u.transformPoint := by
  rw [seenPixel, if_neg (not_le.2 hz), quotient_eq hz.ne', quotient_eq hz.ne']
  rfl

/-- **The pixel** that the second half returns. -/
theorem seenPixel_eq_ok (huu : u.Undistorted) {X : Point3f K} {r : Point2f K}
    (h : seenPixel num u X = .ok r) :
    0 < X.z ∧ (u.sourceIntrinsicMatrix *ᵥ lift (point X.coordinates)) 2 ≠ 0 ∧
      (u.transformationMatrix *ᵥ
        lift (image u.sourceIntrinsicMatrix (point X.coordinates))) 2 ≠ 0 ∧
      r = .ofCoordinates (seen u X.coordinates) := by
  have hz : 0 < X.z := by
    by_contra hz
    rw [seenPixel, if_pos (not_lt.1 hz)] at h
    cases h
  rw [seenPixel_eq_bind hz] at h
  obtain ⟨s, hs, h⟩ := Loop.bind_eq_ok.1 h
  obtain ⟨-, hsensor, rfl⟩ := rayToPixel_eq_ok huu hs
  have hframe := transformPoint_eq_ok h
  rw [transformPoint_eq hframe] at h
  obtain rfl := Except.ok.inj h
  rw [point_lift] at hsensor hframe ⊢
  exact ⟨hz, hsensor, ne_zero_of_test hframe, rfl⟩

/-- **What is projected**: the pixel at the other camera, by fractions if the point is. -/
theorem projectPointTo_eq_ok (huu : u.Undistorted) {p r : Point2f K} {d : K} {X : Point3f K}
    (hX : t.target3dPoint num u p d = .ok X) (h : t.projectPointTo num u p d = .ok r) :
    0 < X.z ∧ (u.sourceIntrinsicMatrix *ᵥ lift (point X.coordinates)) 2 ≠ 0 ∧
      (u.transformationMatrix *ᵥ
        lift (image u.sourceIntrinsicMatrix (point X.coordinates))) 2 ≠ 0 ∧
      (p.isNormalized → u.HasSize) ∧
      r = u.ofPixel p.isNormalized (seen u X.coordinates) := by
  rw [projectPointTo_eq_seenPixel, hX, Loop.ok_bind] at h
  obtain ⟨s, hs, h⟩ := Loop.bind_eq_ok.1 h
  obtain ⟨hz, hsensor, hframe, rfl⟩ := seenPixel_eq_ok huu hs
  refine ⟨hz, hsensor, hframe, ?_⟩
  cases hn : p.isNormalized with
  | false =>
    rw [hn] at h
    exact ⟨fun hfalse => absurd hfalse (by simp), (Except.ok.inj h).symm⟩
  | true =>
    rw [hn, if_pos rfl, rescale] at h
    obtain ⟨x, hx, h⟩ := Loop.bind_eq_ok.1 h
    obtain ⟨y, hy, h⟩ := Loop.bind_eq_ok.1 h
    have hwidth := ne_zero_of_quotient hx
    have hheight := ne_zero_of_quotient hy
    rw [quotient_eq hwidth] at hx
    rw [quotient_eq hheight] at hy
    obtain rfl := Except.ok.inj hx
    obtain rfl := Except.ok.inj hy
    exact ⟨fun _ => ⟨hwidth, hheight⟩, (Except.ok.inj h).symm⟩

/-! ### There and back -/

omit [IsStrictOrderedRing K] in
theorem isNormalized_ofPixel_true (q : K × K) : (u.ofPixel true q).isNormalized = true := rfl

omit [IsStrictOrderedRing K] in
/-- A pixel that comes out has no flag, and its coordinates decide. -/
theorem isNormalized_ofPixel_false (q : K × K) :
    (u.ofPixel false q).isNormalized = guessNormalized q.1 q.2 := rfl

/-- The way back from a pixel that is read as it was meant. -/
theorem seen_space_back (ht : Remapping socket t) (hu : Remapping socket u)
    (hauto : socket ≠ .AUTO) {p r q : Point2f K} {d : K} {X : Point3f K}
    (hX : t.target3dPoint num u p d = .ok X) (hr : t.projectPointTo num u p d = .ok r)
    (hread : r.isNormalized = p.isNormalized) (hq : u.projectPointTo num t r X.z = .ok q) :
    q = t.ofPixel p.isNormalized (t.pixel p) := by
  obtain ⟨hframe, hsensor, hspace⟩ :=
    target3dPoint_eq_ok ht.relativeTo hu.relativeTo hauto ht.undistorted hX
  obtain ⟨hz, hsensor', hframe', hsize, rfl⟩ := projectPointTo_eq_ok hu.undistorted hX hr
  -- the point in space at the second camera, by its pixel and its depth
  have hback : space u (u.pixel (u.ofPixel p.isNormalized (seen u X.coordinates))) X.z =
      X.coordinates := by
    rw [pixel_ofPixel hsize hread]
    exact hu.inverted.space_seen hz.ne' hsensor' hframe'
  rw [projectPointTo_eq_seenPixel] at hq
  obtain ⟨Y, hY, -⟩ := Loop.bind_eq_ok.1 hq
  rw [← projectPointTo_eq_seenPixel] at hq
  obtain ⟨-, -, hspace'⟩ :=
    target3dPoint_eq_ok hu.relativeTo ht.relativeTo hauto hu.undistorted hY
  obtain ⟨-, -, -, -, rfl⟩ := projectPointTo_eq_ok ht.undistorted hY hq
  rw [hread, hspace', hback, hspace, moved_moved ht.relativeTo hu.relativeTo hauto,
    ht.inverted.seen_space (depth_pos_of_target3dPoint hX).ne' (ne_zero_of_test hframe) hsensor]

/-! ### Cameras in one place -/

omit [LinearOrder K] [IsStrictOrderedRing K] in
/-- **The turn alone.** -/
theorem moved_eq_turn (ht : RelativeTo socket t) (hu : RelativeTo socket u)
    (hauto : socket ≠ .AUTO) (hposition : position t = position u) (X : Fin 3 → K) :
    moved t u X = turn t u *ᵥ X := by
  have horientation : ∀ v : ImgTransformation K, RelativeTo socket v →
      orientation v = rotation v := by
    intro v hv
    rw [orientation, if_neg (by rw [hv.toCameraSocket]; exact hauto)]
    rfl
  rw [moved, hposition, sub_self, add_zero, mulVec_mulVec, turn, horientation t ht,
    horientation u hu]

theorem rayToPixel_eq_point (huu : u.Undistorted) {v : Fin 3 → K} (hv : v 2 ≠ 0) :
    rayToPixel num v u = rayToPixel num (lift (point v)) u := by
  have hdis : ∀ w, distortPoint num w u.distortionModel u.distortionCoefficients = .ok w := by
    intro w
    rw [Undistorted] at huu
    simp [distortPoint, huu]
  rw [rayToPixel, rayToPixel, hdis, hdis]
  simp only [Loop.ok_bind, quotient_eq hv, lift_two, quotient_eq one_ne_zero, div_one]
  rfl

omit [IsStrictOrderedRing K] in
/-- By the shortcut a point of one source is the point of the other in its direction. -/
theorem rayToPixel_eq_of_same (ht : t.Inverted) (huu : u.Undistorted) (hsame : SameCompared t u)
    {s : K × K} (hs : (t.sourceIntrinsicMatrixInv *ᵥ lift s) 2 ≠ 0) :
    rayToPixel num (lift (image t.sourceIntrinsicMatrixInv s)) u = .ok (.ofCoordinates s) := by
  have hmatrix : u.sourceIntrinsicMatrix * t.sourceIntrinsicMatrixInv = 1 := by
    rw [ht.sourceIntrinsicMatrixInv, ← hsame.sourceIntrinsicMatrix,
      mul_nonsing_inv _ ht.isUnit_source]
  have hsensor : (u.sourceIntrinsicMatrix *ᵥ
      lift (image t.sourceIntrinsicMatrixInv s)) 2 ≠ 0 := by
    rw [image, mulVec_lift_point _ hs, mulVec_mulVec, hmatrix, one_mulVec]
    simpa using hs
  rw [rayToPixel_eq huu (by simp) (by rwa [point_lift]), point_lift, image_image _ _ hs, hmatrix,
    image_one]

/-- **Without a translation** the point of the other source is that in the direction of the point in
space, by the shortcut and by way of the ray. -/
theorem interSourceFrameTransform_eq (ht : Remapping socket t) (hu : Remapping socket u)
    (hexact : t.isEqualTransformation u → SameCompared t u)
    {s : K × K} (hs : (t.sourceIntrinsicMatrixInv *ᵥ lift s) 2 ≠ 0) {d : K} {X : Fin 3 → K}
    (hX : X = d • (turn t u *ᵥ lift (image t.sourceIntrinsicMatrixInv s))) (hz : X 2 ≠ 0) :
    interSourceFrameTransform num (.ofCoordinates s) t u = rayToPixel num (lift (point X)) u := by
  obtain ⟨hd, hturned⟩ : d ≠ 0 ∧
      (turn t u *ᵥ lift (image t.sourceIntrinsicMatrixInv s)) 2 ≠ 0 := by
    rw [hX, Pi.smul_apply, smul_eq_mul] at hz
    exact mul_ne_zero_iff.1 hz
  rw [hX, point_smul hd, interSourceFrameTransform]
  by_cases heq : t.isEqualTransformation u
  · rw [if_pos heq, (hexact heq).turn_eq_one ht.relativeTo hu.relativeTo, one_mulVec, point_lift,
      rayToPixel_eq_of_same ht.inverted hu.undistorted (hexact heq) hs]
    rfl
  · have hray : pixelToRay num (.ofCoordinates s) t =
        .ok (lift (image t.sourceIntrinsicMatrixInv s)) := pixelToRay_eq ht.undistorted hs
    rw [if_neg heq, hray, Loop.ok_bind, interSourceRotation_eq ht.relativeTo hu.relativeTo,
      Loop.ok_bind, matVecMul_eq, rayToPixel_eq_point hu.undistorted hturned]

/-- **Without a translation** a point is remapped, whatever its depth is. -/
theorem projectPointTo_eq_remapPointTo (ht : Remapping socket t) (hu : Remapping socket u)
    (hauto : socket ≠ .AUTO) (hexact : t.isEqualTransformation u → SameCompared t u)
    (hposition : position t = position u) {p : Point2f K} {d : K} {X : Point3f K}
    (hX : t.target3dPoint num u p d = .ok X) (hz : 0 < X.z) :
    t.projectPointTo num u p d = t.remapPointTo num u p := by
  obtain ⟨hframe, hsensor, hspace⟩ :=
    target3dPoint_eq_ok ht.relativeTo hu.relativeTo hauto ht.undistorted hX
  have hturn : X.coordinates =
      d • (turn t u *ᵥ lift (image t.sourceIntrinsicMatrixInv
        (image t.transformationMatrixInv (t.pixel p)))) := by
    rw [hspace, moved_eq_turn ht.relativeTo hu.relativeTo hauto hposition, space, mulVec_smul]
    rfl
  have hinter : interSourceFrameTransform num
      (.ofCoordinates (image t.transformationMatrixInv (t.pixel p))) t u =
        rayToPixel num (lift (point X.coordinates)) u :=
    interSourceFrameTransform_eq ht hu hexact hsensor hturn hz.ne'
  have hsource : t.invTransformPoint (.ofCoordinates (t.pixel p)) =
      .ok (.ofCoordinates (image t.transformationMatrixInv (t.pixel p))) :=
    invTransformPoint_eq (p := .ofCoordinates (t.pixel p)) hframe
  rw [projectPointTo_eq_seenPixel, remapPointTo_eq_remapPixel, hX, Loop.ok_bind,
    seenPixel_eq_bind hz, remapPixel, hsource, Loop.ok_bind, hinter]

/-! ### The laws -/

/-- **What is read as it was meant**, there and back: a point by fractions, or a pixel that is none by
its coordinates and is not seen at a pixel that is. -/
def ReadAlike (t u : ImgTransformation K) (p : Point2f K) (d : K) : Prop :=
  p.isNormalized ∨
    guessNormalized p.x p.y = false ∧
      guessNormalized (seen u (moved t u (space t (t.pixel p) d))).1
        (seen u (moved t u (space t (t.pixel p) d))).2 = false

/-- **There and back.** -/
theorem project_back_of_ok (ht : Remapping socket t) (hu : Remapping socket u)
    (hauto : socket ≠ .AUTO) {p r q : Point2f K} {d : K} {X : Point3f K}
    (hX : t.target3dPoint num u p d = .ok X) (hr : t.projectPointTo num u p d = .ok r)
    (hq : u.projectPointTo num t r X.z = .ok q) :
    (q.coordinates = p.coordinates ∧ q.isNormalized = p.isNormalized) ↔ ReadAlike t u p d := by
  obtain ⟨-, -, hspace⟩ := target3dPoint_eq_ok ht.relativeTo hu.relativeTo hauto ht.undistorted hX
  obtain ⟨-, -, -, -, hseen⟩ := projectPointTo_eq_ok hu.undistorted hX hr
  obtain ⟨Y, hY, -⟩ := Loop.bind_eq_ok.1 (projectPointTo_eq_seenPixel r X.z ▸ hq)
  obtain ⟨-, -, -, hsize, hlast⟩ := projectPointTo_eq_ok ht.undistorted hY hq
  rw [ReadAlike, ← hspace]
  cases hn : p.isNormalized with
  | true =>
    have hread : r.isNormalized = p.isNormalized := by rw [hseen, hn, isNormalized_ofPixel_true]
    have hback := seen_space_back ht hu hauto hX hr hread hq
    rw [hread] at hsize
    have hcoordinates : q.coordinates = p.coordinates := by
      rw [hback, coordinates_ofPixel_pixel hsize]
    have hnormalized : q.isNormalized = true := by rw [hback, hn, isNormalized_ofPixel_true]
    simp [hcoordinates, hnormalized]
  | false =>
    have hread : r.isNormalized = guessNormalized (seen u X.coordinates).1
        (seen u X.coordinates).2 := by
      rw [hseen, hn, isNormalized_ofPixel_false]
    cases hguess : guessNormalized (seen u X.coordinates).1 (seen u X.coordinates).2 with
    | true =>
      rw [hlast, hread, hguess, isNormalized_ofPixel_true]
      simp
    | false =>
      have hback := seen_space_back ht hu hauto hX hr (by rw [hread, hguess, hn]) hq
      rw [hn, ofPixel, if_neg (by simp), pixel, if_neg (by simp [hn])] at hback
      simp [hback, Point2f.ofCoordinates, Point2f.coordinates, Point2f.isNormalized]

/-- **Projecting there and back, and in one place.** No lens distorts, the stored inverses are inverses
and the poses are relative to one socket that is known. A point comes back, with its coordinates and
its reading, exactly if it is read alike on the way. Without a translation between the cameras it
is remapped, by any depth with which it is in front of the target. -/
theorem project_back_iff (ht : Remapping socket t) (hu : Remapping socket u) (hauto : socket ≠ .AUTO)
    (hexact : t.isEqualTransformation u → SameCompared t u) :
    (∀ p d X r q, t.target3dPoint num u p d = .ok X → t.projectPointTo num u p d = .ok r →
      u.projectPointTo num t r X.z = .ok q →
        ((q.coordinates = p.coordinates ∧ q.isNormalized = p.isNormalized) ↔
          ReadAlike t u p d)) ∧
    (position t = position u → ∀ p d X, t.target3dPoint num u p d = .ok X → 0 < X.z →
      t.projectPointTo num u p d = t.remapPointTo num u p) :=
  ⟨fun _ _ _ _ _ hX hr hq => project_back_of_ok ht hu hauto hX hr hq,
    fun hposition _ _ _ hX hz => projectPointTo_eq_remapPointTo ht hu hauto hexact hposition hX hz⟩

/-! ### A camera and a part of its frame -/

/-- A part of the frame of a camera. -/
def croppedCamera : ImgTransformation ℚ :=
  returned (leftFrame.perform sampleNumerics (.addCrop 10 10 50 50)) (by decide +kernel)

theorem built_leftFrame : Built sampleNumerics leftFrame :=
  .intrinsics (eq_ok_returned _)

theorem remapping_leftFrame : Remapping .CAM_A leftFrame :=
  ⟨built_leftFrame.inverted, relativeTo_leftFrame, by unfold Undistorted; decide +kernel⟩

theorem remapping_croppedCamera : Remapping .CAM_A croppedCamera :=
  ⟨(built_leftFrame.call (eq_ok_returned _)).inverted,
    ⟨by decide +kernel, fun _ => ⟨by decide +kernel, by decide +kernel⟩⟩,
    by unfold Undistorted; decide +kernel⟩

theorem not_isEqualTransformation_croppedCamera :
    ¬leftFrame.isEqualTransformation croppedCamera := by
  decide +kernel

/-- A pixel of both frames comes back, and is remapped. -/
theorem project_back_iff_cropped :
    ReadAlike leftFrame croppedCamera { x := 30, y := 40 } 1000 ∧
    leftFrame.projectPointTo sampleNumerics croppedCamera { x := 30, y := 40 } 1000 =
      leftFrame.remapPointTo sampleNumerics croppedCamera { x := 30, y := 40 } := by
  have h := @project_back_iff ℚ _ _ sampleNumerics _ _ _ _ remapping_leftFrame
    remapping_croppedCamera (by decide)
    fun heq => absurd heq not_isEqualTransformation_croppedCamera
  exact ⟨(h.1 { x := 30, y := 40 } 1000 ⟨-400, -200, 1000⟩ { x := 20, y := 30 }
      { x := 30, y := 40 } (by decide +kernel) (by decide +kernel) (by decide +kernel)).1
        ⟨rfl, by decide +kernel⟩,
    h.2 (by decide +kernel) { x := 30, y := 40 } 1000 ⟨-400, -200, 1000⟩ (by decide +kernel)
      (by decide +kernel)⟩

/-- **Within the first pixel.** The point comes out with no flag, and the way back takes it for
fractions. -/
theorem not_project_back :
    (Remapping .CAM_A leftFrame ∧ Remapping .CAM_A croppedCamera ∧
      ¬leftFrame.isEqualTransformation croppedCamera) ∧
    leftFrame.target3dPoint sampleNumerics croppedCamera { x := 21 / 2, y := 21 / 2 } 1000 =
      .ok ⟨-790, -790, 1000⟩ ∧
    leftFrame.projectPointTo sampleNumerics croppedCamera { x := 21 / 2, y := 21 / 2 } 1000 =
      .ok { x := 1 / 2, y := 1 / 2 } ∧
    croppedCamera.projectPointTo sampleNumerics leftFrame { x := 1 / 2, y := 1 / 2 } 1000 =
      .ok ⟨7 / 20, 7 / 20, true, true⟩ :=
  ⟨⟨remapping_leftFrame, remapping_croppedCamera, not_isEqualTransformation_croppedCamera⟩,
    by decide +kernel, by decide +kernel, by decide +kernel⟩

end ImgTransformation

end DepthaiCore
