import DepthaiCore.Common.Camera
import Mathlib.Data.Rat.Floor

/-!
# Remapping is a groupoid

A point that is remapped goes through the matrices of a route, and what comes out is the image of the
transfer between the cameras of the two frames. Transfers compose, so remapping does, wherever the
coordinates that a route divides by let it through.

A point that comes out as a pixel carries no flag. When it is remapped again, its coordinates decide
whether it is read as a pixel.
-/

open scoped Numerals

namespace DepthaiCore

open MatrixOps Matrix Homography

variable {K : Type} [Field K] [LinearOrder K] {num : Numerics K}

/-- The point with two coordinates and no flag. -/
def Point2f.ofCoordinates {K : Type} (q : K × K) : Point2f K :=
  { x := q.1, y := q.2 }

@[simp] theorem Point2f.coordinates_ofCoordinates {K : Type} (q : K × K) :
    (Point2f.ofCoordinates q).coordinates = q := rfl

theorem quotient_eq {a b : K} (hb : b ≠ 0) : quotient a b = .ok (a / b) :=
  if_neg hb

namespace ImgTransformation

/-! ### What the steps compute -/

/-- No distortion. -/
def Undistorted (t : ImgTransformation K) : Prop :=
  hasNonZeroDistortion t.distortionCoefficients = false

theorem transformPoint_eq {t : ImgTransformation K} {p : Point2f K}
    (h : 1 / 1000000 ≤ |(t.transformationMatrix *ᵥ lift p.coordinates) 2|) :
    t.transformPoint p = .ok (.ofCoordinates (image t.transformationMatrix p.coordinates)) := by
  rw [transformPoint, matVecMul_eq]
  change (dehomogenizePoint3 (t.transformationMatrix *ᵥ lift p.coordinates) >>= _) = _
  rw [dehomogenizePoint3_eq h]
  rfl

theorem invTransformPoint_eq {t : ImgTransformation K} {p : Point2f K}
    (h : 1 / 1000000 ≤ |(t.transformationMatrixInv *ᵥ lift p.coordinates) 2|) :
    t.invTransformPoint p = .ok (.ofCoordinates (image t.transformationMatrixInv p.coordinates)) := by
  rw [invTransformPoint, matVecMul_eq]
  change (dehomogenizePoint3 (t.transformationMatrixInv *ᵥ lift p.coordinates) >>= _) = _
  rw [dehomogenizePoint3_eq h]
  rfl

theorem pixelToRay_eq {t : ImgTransformation K} (ht : t.Undistorted) {px : Point2f K}
    (h : (t.sourceIntrinsicMatrixInv *ᵥ lift px.coordinates) 2 ≠ 0) :
    pixelToRay num px t = .ok (lift (image t.sourceIntrinsicMatrixInv px.coordinates)) := by
  have hund : undistortPoint num (t.sourceIntrinsicMatrixInv *ᵥ lift px.coordinates) t.distortionModel
      t.distortionCoefficients = .ok (t.sourceIntrinsicMatrixInv *ᵥ lift px.coordinates) := by
    rw [Undistorted] at ht
    simp [undistortPoint, ht]
  rw [pixelToRay, matVecMul_eq]
  change (undistortPoint num (t.sourceIntrinsicMatrixInv *ᵥ lift px.coordinates) _ _ >>= _) = _
  rw [hund]
  change (quotient _ _ >>= _) = _
  rw [quotient_eq h, quotient_eq h]
  rfl

theorem rayToPixel_eq {t : ImgTransformation K} (ht : t.Undistorted) {ray : Fin 3 → K}
    (hray : ray 2 ≠ 0) (h : (t.sourceIntrinsicMatrix *ᵥ lift (point ray)) 2 ≠ 0) :
    rayToPixel num ray t = .ok (.ofCoordinates (image t.sourceIntrinsicMatrix (point ray))) := by
  have hdis : distortPoint num ray t.distortionModel t.distortionCoefficients = .ok ray := by
    rw [Undistorted] at ht
    simp [distortPoint, ht]
  rw [rayToPixel, hdis, Loop.ok_bind, quotient_eq hray, Loop.ok_bind, quotient_eq hray, Loop.ok_bind]
  simp only [matVecMul_eq]
  change (quotient ((t.sourceIntrinsicMatrix *ᵥ lift (point ray)) 0)
    ((t.sourceIntrinsicMatrix *ᵥ lift (point ray)) 2) >>= _) = _
  rw [quotient_eq h, Loop.ok_bind]
  change (quotient ((t.sourceIntrinsicMatrix *ᵥ lift (point ray)) 1)
    ((t.sourceIntrinsicMatrix *ᵥ lift (point ray)) 2) >>= _) = _
  rw [quotient_eq h]
  rfl

omit [LinearOrder K] in
theorem interSourceRotation_eq {socket : CameraBoardSocket} {t u : ImgTransformation K}
    (ht : RelativeTo socket t) (hu : RelativeTo socket u) :
    interSourceRotation t u = .ok (turn t u) := by
  rw [interSourceRotation, turn, orientation, orientation, ht.toCameraSocket, hu.toCameraSocket]
  by_cases hauto : socket = .AUTO
  · simp [hauto]
  · obtain ⟨M, hM, hrot⟩ := Extrinsics.getExtrinsicsTransformationTo_rotation
      (ht.orthonormal hauto).shape (hu.orthonormal hauto).shape
      (by rw [ht.toCameraSocket]; exact hauto) (by rw [ht.toCameraSocket, hu.toCameraSocket])
    rw [if_pos ⟨hauto, hauto⟩, if_neg hauto, if_neg hauto, hM, Loop.ok_bind, hrot]
    rfl

/-! ### What a remapped point is -/

/-- The coordinates that a remapping divides by are not zero, and the first and the last, those of the
two frames, pass the test of `dehomogenizePoint3`. -/
structure Clear (t u : ImgTransformation K) (p : K × K) : Prop where
  ne_zero : ∀ z ∈ Homography.coordinates (route t u) p, z ≠ 0
  head : ∀ z ∈ (Homography.coordinates (route t u) p).head?, 1 / 1000000 ≤ |z|
  getLast : ∀ z ∈ (Homography.coordinates (route t u) p).getLast?, 1 / 1000000 ≤ |z|

variable {socket : CameraBoardSocket} {t u : ImgTransformation K}

/-- The steps of `remapPointTo` between the two pixels. -/
def remapPixel (num : Numerics K) (t u : ImgTransformation K) (q : K × K) :
    Except Failure (Point2f K) := do
  let sourcePointFrom ← t.invTransformPoint (.ofCoordinates q)
  let sourcePointTo ← interSourceFrameTransform num sourcePointFrom t u
  u.transformPoint sourcePointTo

/-- **The steps follow the route**, whichever of the two it is. -/
theorem remapPixel_eq (ht : RelativeTo socket t) (hu : RelativeTo socket u) (htu : t.Undistorted)
    (huu : u.Undistorted) {q : K × K} (h : Clear t u q) :
    remapPixel num t u q = .ok (.ofCoordinates (along (route t u) q)) := by
  obtain ⟨hne, hhead, hlast⟩ := h
  rw [route] at hne hhead hlast ⊢
  by_cases heq : t.isEqualTransformation u
  · rw [if_pos heq] at hhead hlast ⊢
    rw [remapPixel, invTransformPoint_eq (hhead _ rfl), Loop.ok_bind, interSourceFrameTransform, if_pos heq]
    exact transformPoint_eq (hlast _ rfl)
  · rw [if_neg heq] at hne hhead hlast ⊢
    simp only [Homography.coordinates, List.mem_cons, List.not_mem_nil, or_false, forall_eq_or_imp,
      forall_eq] at hne
    obtain ⟨-, hray, hturn, hsensor, -⟩ := hne
    have hpixelToRay : pixelToRay num (.ofCoordinates (image t.transformationMatrixInv q)) t =
        .ok (lift (image t.sourceIntrinsicMatrixInv (image t.transformationMatrixInv q))) :=
      pixelToRay_eq htu hray
    rw [remapPixel, invTransformPoint_eq (hhead _ rfl), Loop.ok_bind,
      Point2f.coordinates_ofCoordinates, interSourceFrameTransform, if_neg heq, hpixelToRay, Loop.ok_bind, interSourceRotation_eq ht hu, Loop.ok_bind, matVecMul_eq,
      rayToPixel_eq huu hturn hsensor]
    exact transformPoint_eq (hlast _ rfl)

/-- The pixel of the frame that a point means. -/
def pixel (t : ImgTransformation K) (p : Point2f K) : K × K :=
  if p.isNormalized then (p.x * t.width, p.y * t.height) else p.coordinates

/-- The point that means a pixel of the frame, by fractions of its size or as it is. -/
def ofPixel (t : ImgTransformation K) (normalized : Bool) (q : K × K) : Point2f K :=
  if normalized then ⟨q.1 / t.width, q.2 / t.height, true, true⟩ else .ofCoordinates q

/-- The size of the frame is not zero. -/
def HasSize (t : ImgTransformation K) : Prop :=
  (t.width : K) ≠ 0 ∧ (t.height : K) ≠ 0

/-- A point of the frame as a point by fractions of its size. -/
def rescale (t : ImgTransformation K) (q : Point2f K) : Except Failure (Point2f K) := do
  return { x := ← quotient q.x t.width
           y := ← quotient q.y t.height
           normalized := true
           hasNormalized := true }

/-- **Fractions and pixels go the same way.** Fractions are scaled before and after. -/
theorem remapPointTo_eq_remapPixel (p : Point2f K) :
    t.remapPointTo num u p =
      remapPixel num t u (t.pixel p) >>= fun q => if p.isNormalized then u.rescale q else .ok q := by
  rw [remapPointTo, remapPixel, pixel]
  by_cases hn : p.isNormalized
  · simp only [hn, if_true, bind_assoc]
    rfl
  · simp only [hn, bind_assoc]
    rfl

/-- What it takes to remap a point: the coordinates on the way, and a size for fractions of it. -/
structure Remappable (t u : ImgTransformation K) (p : Point2f K) : Prop where
  clear : Clear t u (t.pixel p)
  hasSize : p.isNormalized → t.HasSize ∧ u.HasSize

/-- **What a remapped point is**: the end of the route from the pixel that the point means. -/
theorem remapPointTo_eq (ht : RelativeTo socket t) (hu : RelativeTo socket u) (htu : t.Undistorted)
    (huu : u.Undistorted) {p : Point2f K} (h : Remappable t u p) :
    t.remapPointTo num u p =
      .ok (u.ofPixel p.isNormalized (along (route t u) (t.pixel p))) := by
  rw [remapPointTo_eq_remapPixel, remapPixel_eq ht hu htu huu h.clear, Loop.ok_bind, ofPixel]
  split
  · next hn =>
    obtain ⟨-, hwidth, hheight⟩ := h.hasSize hn
    rw [rescale, quotient_eq hwidth, Loop.ok_bind, quotient_eq hheight]
    rfl
  · rfl

/-! ### The laws -/

theorem pixel_ofPixel {n : Bool} (hsize : n → u.HasSize) {q : K × K}
    (hread : (u.ofPixel n q).isNormalized = n) : u.pixel (u.ofPixel n q) = q := by
  rw [pixel, hread]
  cases n with
  | false => rfl
  | true =>
    obtain ⟨hwidth, hheight⟩ := hsize rfl
    simp [ofPixel, div_mul_cancel₀ _ hwidth, div_mul_cancel₀ _ hheight]

theorem coordinates_ofPixel_pixel {p : Point2f K} (hsize : p.isNormalized → t.HasSize) :
    (t.ofPixel p.isNormalized (t.pixel p)).coordinates = p.coordinates := by
  rw [ofPixel, pixel]
  split
  · next hn =>
    obtain ⟨hwidth, hheight⟩ := hsize hn
    simp [Point2f.coordinates, mul_div_cancel_right₀ _ hwidth, mul_div_cancel_right₀ _ hheight]
  · rfl

/-- The transformations that the laws are about. -/
structure Remapping (socket : CameraBoardSocket) (t : ImgTransformation K) : Prop where
  inverted : t.Inverted
  relativeTo : RelativeTo socket t
  undistorted : t.Undistorted

theorem along_route (ht : Remapping socket t) (hu : Remapping socket u)
    (hexact : t.isEqualTransformation u → SameCompared t u) {q : K × K} (h : Clear t u q) :
    along (route t u) q = image (transfer camera t u) q ∧
      (transfer camera t u *ᵥ lift q) 2 ≠ 0 := by
  rw [along_eq_image _ h.ne_zero, ← product_route ht.inverted ht.relativeTo hu.relativeTo hexact]
  exact ⟨rfl, product_ne_zero _ h.ne_zero⟩

theorem along_along {v : ImgTransformation K} (ht : Remapping socket t) (hu : Remapping socket u)
    (hv : Remapping socket v) (htu : t.isEqualTransformation u → SameCompared t u)
    (huv : u.isEqualTransformation v → SameCompared u v) {q : K × K} (h : Clear t u q)
    (h' : Clear u v (along (route t u) q)) :
    along (route u v) (along (route t u) q) = image (transfer camera t v) q := by
  obtain ⟨hroute, hne⟩ := along_route ht hu htu h
  rw [(along_route hu hv huv h').1, hroute,
    image_transfer_transfer (hu.inverted.isUnit_camera hu.relativeTo) hne]

theorem along_self (ht : Remapping socket t)
    (hexact : t.isEqualTransformation t → SameCompared t t) {q : K × K} (h : Clear t t q) :
    along (route t t) q = q := by
  rw [(along_route ht ht hexact h).1, transfer_self (ht.inverted.isUnit_camera ht.relativeTo),
    image_one]

omit [LinearOrder K] in
theorem SameCompared.refl (t : ImgTransformation K) : SameCompared t t :=
  ⟨rfl, rfl, rfl, rfl⟩

/-- **Remapping is a groupoid.** The transformations are built by any calls, their poses are relative to
one socket and no lens distorts; comparisons with a tolerance find only what is equal. Then the stored
inverse is one, on both sides, and for every point that can be remapped: to its own frame it stays;
there and back it returns; by way of another frame it ends where it ends directly. The way on starts
from the point that came out, and that must be read as the point that went in was, by fractions or as
a pixel. Fractions and pixels give the same answer, up to the sizes. -/
theorem remap_groupoid [FloorRing K] {a b c : ImgTransformation K} (ha : Built num a)
    (hb : Built num b) (hc : Built num c) (hsocket : ∀ t ∈ [a, b, c], RelativeTo socket t)
    (hundistorted : ∀ t ∈ [a, b, c], t.Undistorted)
    (hexact : ∀ t ∈ [a, b, c], ∀ u ∈ [a, b, c], t.isEqualTransformation u → SameCompared t u) :
    (a.transformationMatrix * a.transformationMatrixInv = 1 ∧
      a.transformationMatrixInv * a.transformationMatrix = 1) ∧
    (∀ p, Remappable a a p →
      ∃ q, a.remapPointTo num a p = .ok q ∧ q.coordinates = p.coordinates) ∧
    (∀ p, Remappable a b p →
      ∃ q, a.remapPointTo num b p = .ok q ∧
        (q.isNormalized = p.isNormalized → Remappable b a q →
          ∃ r, b.remapPointTo num a q = .ok r ∧ r.coordinates = p.coordinates)) ∧
    (∀ p, Remappable a b p → Remappable a c p →
      ∃ q r, a.remapPointTo num b p = .ok q ∧ a.remapPointTo num c p = .ok r ∧
        (q.isNormalized = p.isNormalized → Remappable b c q → b.remapPointTo num c q = .ok r)) ∧
    (∀ p, p.isNormalized →
      a.remapPointTo num b p =
        a.remapPointTo num b ⟨p.x * a.width, p.y * a.height, false, true⟩ >>= b.rescale) := by
  have remapping : ∀ t ∈ [a, b, c], Remapping socket t := by
    intro t ht
    refine ⟨?_, hsocket t ht, hundistorted t ht⟩
    rcases List.mem_cons.mp ht with rfl | ht
    · exact ha.inverted
    rcases List.mem_cons.mp ht with rfl | ht
    · exact hb.inverted
    · exact (List.mem_singleton.mp ht) ▸ hc.inverted
  have ma : a ∈ [a, b, c] := by simp
  have mb : b ∈ [a, b, c] := by simp
  have mc : c ∈ [a, b, c] := by simp
  have ra := remapping a ma
  have rb := remapping b mb
  have rc := remapping c mc
  have eq : ∀ {t u}, t ∈ [a, b, c] → u ∈ [a, b, c] → ∀ {p}, Remappable t u p →
      t.remapPointTo num u p = .ok (u.ofPixel p.isNormalized (along (route t u) (t.pixel p))) :=
    fun ht hu => remapPointTo_eq (remapping _ ht).relativeTo (remapping _ hu).relativeTo
      (remapping _ ht).undistorted (remapping _ hu).undistorted
  refine ⟨?_, ?_, ?_, ?_, ?_⟩
  · rw [ra.inverted.transformationMatrixInv]
    exact ⟨mul_nonsing_inv _ ra.inverted.isUnit_det, nonsing_inv_mul _ ra.inverted.isUnit_det⟩
  · intro p hp
    refine ⟨_, eq ma ma hp, ?_⟩
    rw [along_self ra (hexact a ma a ma) hp.clear]
    exact coordinates_ofPixel_pixel fun hn => (hp.hasSize hn).1
  · intro p hp
    refine ⟨_, eq ma mb hp, fun hread hq => ⟨_, eq mb ma hq, ?_⟩⟩
    have hclear := hq.clear
    rw [pixel_ofPixel (fun hn => (hp.hasSize hn).2) hread] at hclear ⊢
    rw [along_along ra rb ra (hexact a ma b mb) (hexact b mb a ma) hp.clear hclear,
      transfer_self (ra.inverted.isUnit_camera ra.relativeTo), image_one, hread]
    exact coordinates_ofPixel_pixel fun hn => (hp.hasSize hn).1
  · intro p hp hpc
    refine ⟨_, _, eq ma mb hp, eq ma mc hpc, fun hread hq => ?_⟩
    have hclear := hq.clear
    rw [eq mb mc hq]
    rw [pixel_ofPixel (fun hn => (hp.hasSize hn).2) hread] at hclear ⊢
    rw [along_along ra rb rc (hexact a ma b mb) (hexact b mb c mc) hp.clear hclear, hread,
      (along_route ra rc (hexact a ma c mc) hpc.clear).1]
  · intro p hn
    have hflag : (⟨p.x * a.width, p.y * a.height, false, true⟩ : Point2f K).isNormalized = false := rfl
    simp only [remapPointTo_eq_remapPixel, pixel, hn, hflag, if_true, Bool.false_eq_true, if_false,
      bind_assoc]
    rfl

/-! ### Cameras of rational numbers -/

/-- Numbers for turns by no angle and for rectangles that are not turned. -/
def sampleNumerics : Numerics ℚ where
  pi := 355 / 113
  cos := fun _ => 1
  sin := fun _ => 0
  cos_sq_add_sin_sq := by simp
  getOuterRotatedRect := fun points =>
    let xs := points.map Prod.fst
    let ys := points.map Prod.snd
    let minx := xs.foldl min (xs.headD 0)
    let maxx := xs.foldl max (xs.headD 0)
    let miny := ys.foldl min (ys.headD 0)
    let maxy := ys.foldl max (ys.headD 0)
    { center := { x := (minx + maxx) / 2, y := (miny + maxy) / 2 }
      size := { width := maxx - minx, height := maxy - miny }
      angle := 0 }
  distortPerspective := fun point _ => point
  distortFisheye := fun point _ => point
  undistortPerspective := fun point _ => point
  undistortFisheye := fun point _ => point

/-- What a constructor or a call returned. -/
def returned {α : Type} (x : Except Failure α) (h : x.toOption.isSome) : α :=
  x.toOption.get h

theorem eq_ok_returned {α : Type} {x : Except Failure α} (h : x.toOption.isSome) :
    x = .ok (returned x h) := by
  cases x with
  | error e => cases h
  | ok a => rfl

/-- A camera at a socket. -/
def leftFrame : ImgTransformation ℚ :=
  returned (ofIntrinsics 100 100 !![50, 0, 50; 0, 50, 50; 0, 0, 1] .Perspective []
    ⟨[[1, 0, 0], [0, 1, 0], [0, 0, 1]], ⟨0, 0, 0⟩, ⟨0, 0, 0⟩, .CAM_A, .CENTIMETER⟩)
    (by decide +kernel)

/-- A camera that is turned by a right angle. -/
def rightFrame : ImgTransformation ℚ :=
  returned (ofIntrinsics 100 100 !![40, 0, 50; 0, 40, 50; 0, 0, 1] .Perspective []
    ⟨[[0, -1, 0], [1, 0, 0], [0, 0, 1]], ⟨3, 0, 0⟩, ⟨0, 0, 0⟩, .CAM_A, .CENTIMETER⟩)
    (by decide +kernel)

/-- The frame of the first camera, scaled. -/
def scaledFrame : ImgTransformation ℚ :=
  returned (leftFrame.perform sampleNumerics (.addScale 2 2)) (by decide +kernel)

theorem remap_groupoid_cameras :
    ∃ q r, leftFrame.remapPointTo sampleNumerics rightFrame { x := 30, y := 40 } = .ok q ∧
      leftFrame.remapPointTo sampleNumerics scaledFrame { x := 30, y := 40 } = .ok r ∧
      (q.isNormalized = false → Remappable rightFrame scaledFrame q →
        rightFrame.remapPointTo sampleNumerics scaledFrame q = .ok r) := by
  have hleft : Built sampleNumerics leftFrame := .intrinsics (eq_ok_returned _)
  have hright : Built sampleNumerics rightFrame := .intrinsics (eq_ok_returned _)
  have hscaled : Built sampleNumerics scaledFrame := .call hleft (eq_ok_returned _)
  have hsocket : ∀ t ∈ [leftFrame, rightFrame, scaledFrame], RelativeTo .CAM_A t := by
    intro t ht
    simp only [List.mem_cons, List.not_mem_nil, or_false] at ht
    rcases ht with rfl | rfl | rfl <;>
      exact ⟨by decide +kernel, fun _ => ⟨by decide +kernel, by decide +kernel⟩⟩
  have hundistorted : ∀ t ∈ [leftFrame, rightFrame, scaledFrame], t.Undistorted := by
    intro t ht
    simp only [List.mem_cons, List.not_mem_nil, or_false] at ht
    rcases ht with rfl | rfl | rfl <;> unfold Undistorted <;> decide +kernel
  have hexact : ∀ t ∈ [leftFrame, rightFrame, scaledFrame],
      ∀ u ∈ [leftFrame, rightFrame, scaledFrame], t.isEqualTransformation u → SameCompared t u := by
    intro t ht u hu h
    simp only [List.mem_cons, List.not_mem_nil, or_false] at ht hu
    rcases ht with rfl | rfl | rfl <;> rcases hu with rfl | rfl | rfl <;>
      first
        | exact SameCompared.refl _
        | exact absurd h (by decide +kernel)
  have hp : Remappable leftFrame rightFrame { x := 30, y := 40 } :=
    ⟨⟨by decide +kernel, by decide +kernel, by decide +kernel⟩,
      fun h => absurd h (by decide +kernel)⟩
  have hpc : Remappable leftFrame scaledFrame { x := 30, y := 40 } :=
    ⟨⟨by decide +kernel, by decide +kernel, by decide +kernel⟩,
      fun h => absurd h (by decide +kernel)⟩
  exact (remap_groupoid hleft hright hscaled hsocket hundistorted hexact).2.2.2.1 _ hp hpc

/-- A frame of two hundred by two hundred. -/
def wholeFrame : ImgTransformation ℚ :=
  ofSizes 200 200 200 200

/-- A part of it. -/
def croppedFrame : ImgTransformation ℚ :=
  returned (wholeFrame.perform sampleNumerics (.addCrop 10 10 100 100)) (by decide +kernel)

/-- The frame by a matrix that moves no point and is small. -/
def smallFrame : ImgTransformation ℚ :=
  returned (wholeFrame.perform sampleNumerics
    (.addTransformation !![1 / 10000000, 0, 0; 0, 1 / 10000000, 0; 0, 0, 1 / 10000000]))
    (by decide +kernel)

/-- **What a groupoid would not do.** No coordinate on the way is zero. A small one is rejected, so a
point is not remapped to its own frame; a pixel that comes out within the first pixel of a frame has no
flag, so the way back takes it for fractions; and fractions of a frame without a size have no value. -/
theorem not_remap_groupoid :
    (Built sampleNumerics smallFrame ∧
      (∀ z ∈ Homography.coordinates (route smallFrame smallFrame) (1, 1), z ≠ 0) ∧
      smallFrame.remapPointTo sampleNumerics smallFrame ⟨1, 1, false, true⟩ =
        .error (.runtimeError "Cannot dehomogenize point with z close to zero.")) ∧
    (Built sampleNumerics wholeFrame ∧ Built sampleNumerics croppedFrame ∧
      (∀ z ∈ Homography.coordinates (route wholeFrame croppedFrame) (21 / 2, 21 / 2), z ≠ 0) ∧
      wholeFrame.remapPointTo sampleNumerics croppedFrame ⟨21 / 2, 21 / 2, false, true⟩ =
        .ok { x := 1 / 2, y := 1 / 2 } ∧
      (∀ z ∈ Homography.coordinates (route croppedFrame wholeFrame) (1 / 2, 1 / 2), z ≠ 0) ∧
      croppedFrame.remapPointTo sampleNumerics wholeFrame { x := 1 / 2, y := 1 / 2 } =
        .ok ⟨3 / 10, 3 / 10, true, true⟩) ∧
    (Built sampleNumerics (ofSizes 0 0 0 0) ∧
      (ofSizes 0 0 0 0).remapPointTo sampleNumerics (ofSizes 0 0 0 0) ⟨1 / 2, 1 / 2, true, true⟩ =
        .error .divisionByZero) :=
  ⟨⟨.call (.sizes 200 200 200 200) (eq_ok_returned _), by decide +kernel, by decide +kernel⟩,
    ⟨.sizes 200 200 200 200, .call (.sizes 200 200 200 200) (eq_ok_returned _), by decide +kernel,
      by decide +kernel, by decide +kernel, by decide +kernel⟩,
    .sizes 0 0 0 0, by decide +kernel⟩

end ImgTransformation

end DepthaiCore
