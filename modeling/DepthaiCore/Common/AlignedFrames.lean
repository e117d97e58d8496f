import DepthaiCore.Common.RemapGroupoid

/-!
# Aligned frames

Callers that have two aligned frames do not remap points from one to the other. Frames are aligned
if their sizes, their lenses and the products of their matrices with their intrinsics are equal, up
to a tolerance. How the product is split into the two does not matter, but the poses do, and they
are not compared: a point is remapped to itself only if the turn from one source to the other keeps
its ray on its line.
-/

open scoped Numerals

namespace DepthaiCore

open MatrixOps Matrix Homography

variable {K : Type} [Field K] [LinearOrder K] {num : Numerics K}

namespace ImgTransformation

/-! ### What the source computes -/

/-- The comparison of `isAlignedTo`. -/
def approxEqual (a b : K) (absTol : K := ROUND_UP_EPS) (relTol : K := 2 * ROUND_UP_EPS) : Bool :=
  decide (|a - b| ≤ absTol + relTol * max |a| |b|)

def isAlignedTo (self target : ImgTransformation K) : Bool :=
  let maxCoeffCount :=
    max self.distortionCoefficients.length target.distortionCoefficients.length
  decide (self.width = target.width ∧ self.height = target.height) &&
    decide (self.distortionModel = target.distortionModel) &&
    ((List.range maxCoeffCount).all fun i => approxEqual (self.distortionCoefficients.getD i 0)
      (target.distortionCoefficients.getD i 0)) &&
    (List.finRange 3).all fun i => (List.finRange 3).all fun j =>
      approxEqual (target.getIntrinsicMatrix i j) (self.getIntrinsicMatrix i j)

/-! ### Frames that are aligned without tolerance -/

/-- What `isAlignedTo` compares is equal. -/
structure AlignedExactly (t u : ImgTransformation K) : Prop where
  width : t.width = u.width
  height : t.height = u.height
  distortionModel : t.distortionModel = u.distortionModel
  distortionCoefficients : ∀ i,
    t.distortionCoefficients.getD i 0 = u.distortionCoefficients.getD i 0
  intrinsicMatrix : t.getIntrinsicMatrix = u.getIntrinsicMatrix

theorem approxEqual_self [IsStrictOrderedRing K] (a : K) : approxEqual a a := by
  have heps : (0 : K) ≤ ROUND_UP_EPS := by
    rw [ROUND_UP_EPS]
    positivity
  have habs : (0 : K) ≤ 2 * ROUND_UP_EPS * max |a| |a| := by
    rw [max_self]
    exact mul_nonneg (mul_nonneg two_pos.le heps) (abs_nonneg a)
  rw [approxEqual, sub_self, abs_zero]
  exact decide_eq_true (add_nonneg heps habs)

theorem AlignedExactly.isAlignedTo [IsStrictOrderedRing K] {t u : ImgTransformation K}
    (h : AlignedExactly t u) : t.isAlignedTo u := by
  simp only [ImgTransformation.isAlignedTo, h.width, h.height, h.distortionModel,
    h.distortionCoefficients, h.intrinsicMatrix, approxEqual_self]
  simp

/-! ### Points that are remapped -/

section Remapped

variable {socket : CameraBoardSocket} {t u : ImgTransformation K}

theorem le_of_dehomogenizePoint3 {v w : Fin 3 → K} (h : dehomogenizePoint3 v = .ok w) :
    1 / 1000000 ≤ |v 2| := by
  by_contra hlt
  rw [dehomogenizePoint3, if_pos (not_le.1 hlt)] at h
  cases h

theorem ne_zero_of_test [IsStrictOrderedRing K] {a : K} (h : 1 / 1000000 ≤ |a|) : a ≠ 0 := by
  rintro rfl
  rw [abs_zero] at h
  exact absurd h (not_le.2 (by positivity))

theorem ne_zero_of_quotient {a b c : K} (h : quotient a b = .ok c) : b ≠ 0 := by
  rintro rfl
  rw [quotient, if_pos rfl] at h
  cases h

theorem invTransformPoint_eq_ok {p q : Point2f K} (h : t.invTransformPoint p = .ok q) :
    1 / 1000000 ≤ |(t.transformationMatrixInv *ᵥ lift p.coordinates) 2| ∧
      q = .ofCoordinates (image t.transformationMatrixInv p.coordinates) := by
  have htest : 1 / 1000000 ≤ |(t.transformationMatrixInv *ᵥ lift p.coordinates) 2| := by
    rw [invTransformPoint, matVecMul_eq] at h
    obtain ⟨w, hw, -⟩ := Loop.bind_eq_ok.1 h
    exact le_of_dehomogenizePoint3 hw
  exact ⟨htest, Except.ok.inj (h.symm.trans (invTransformPoint_eq htest))⟩

theorem transformPoint_eq_ok {p q : Point2f K} (h : t.transformPoint p = .ok q) :
    1 / 1000000 ≤ |(t.transformationMatrix *ᵥ lift p.coordinates) 2| := by
  rw [transformPoint, matVecMul_eq] at h
  obtain ⟨w, hw, -⟩ := Loop.bind_eq_ok.1 h
  exact le_of_dehomogenizePoint3 hw

theorem pixelToRay_eq_ok (ht : t.Undistorted) {px : Point2f K} {ray : Fin 3 → K}
    (h : pixelToRay num px t = .ok ray) :
    (t.sourceIntrinsicMatrixInv *ᵥ lift px.coordinates) 2 ≠ 0 ∧
      ray = lift (image t.sourceIntrinsicMatrixInv px.coordinates) := by
  have hne : (t.sourceIntrinsicMatrixInv *ᵥ lift px.coordinates) 2 ≠ 0 := by
    have hund : undistortPoint num (t.sourceIntrinsicMatrixInv *ᵥ lift px.coordinates)
        t.distortionModel t.distortionCoefficients =
          .ok (t.sourceIntrinsicMatrixInv *ᵥ lift px.coordinates) := by
      rw [Undistorted] at ht
      simp [undistortPoint, ht]
    rw [pixelToRay, matVecMul_eq] at h
    obtain ⟨w, hw, h⟩ := Loop.bind_eq_ok.1 h
    obtain rfl := Except.ok.inj (hund.symm.trans hw)
    obtain ⟨x, hx, -⟩ := Loop.bind_eq_ok.1 h
    exact ne_zero_of_quotient hx
  exact ⟨hne, Except.ok.inj (h.symm.trans (pixelToRay_eq ht hne))⟩

theorem rayToPixel_eq_ok (ht : t.Undistorted) {ray : Fin 3 → K} {px : Point2f K}
    (h : rayToPixel num ray t = .ok px) :
    ray 2 ≠ 0 ∧ (t.sourceIntrinsicMatrix *ᵥ lift (point ray)) 2 ≠ 0 ∧
      px = .ofCoordinates (image t.sourceIntrinsicMatrix (point ray)) := by
  have hdis : distortPoint num ray t.distortionModel t.distortionCoefficients = .ok ray := by
    rw [Undistorted] at ht
    simp [distortPoint, ht]
  have hne : ray 2 ≠ 0 ∧ (t.sourceIntrinsicMatrix *ᵥ lift (point ray)) 2 ≠ 0 := by
    rw [rayToPixel, hdis, Loop.ok_bind] at h
    obtain ⟨x, hx, h⟩ := Loop.bind_eq_ok.1 h
    have hray := ne_zero_of_quotient hx
    rw [quotient_eq hray] at hx
    rw [quotient_eq hray, Loop.ok_bind] at h
    obtain rfl := Except.ok.inj hx
    simp only [matVecMul_eq] at h
    obtain ⟨px, hpx, -⟩ := Loop.bind_eq_ok.1 h
    exact ⟨hray, ne_zero_of_quotient hpx⟩
  exact ⟨hne.1, hne.2, Except.ok.inj (h.symm.trans (rayToPixel_eq ht hne.1 hne.2))⟩

theorem clear_iff_of_equal [IsStrictOrderedRing K] (heq : t.isEqualTransformation u) (q : K × K) :
    Clear t u q ↔ 1 / 1000000 ≤ |(t.transformationMatrixInv *ᵥ lift q) 2| ∧
      1 / 1000000 ≤ |(u.transformationMatrix *ᵥ lift (image t.transformationMatrixInv q)) 2| := by
  constructor
  · rintro ⟨-, hhead, hlast⟩
    rw [route, if_pos heq] at hhead hlast
    exact ⟨hhead _ rfl, hlast _ rfl⟩
  · rintro ⟨hhead, hlast⟩
    refine ⟨?_, ?_, ?_⟩ <;> rw [route, if_pos heq]
    · simp [Homography.coordinates, ne_zero_of_test hhead, ne_zero_of_test hlast]
    · rintro z ⟨⟩
      exact hhead
    · rintro z ⟨⟩
      exact hlast

theorem clear_iff_of_ne [IsStrictOrderedRing K] (hne : ¬t.isEqualTransformation u) (q : K × K) :
    Clear t u q ↔
      (∀ z ∈ Homography.coordinates [t.transformationMatrixInv, t.sourceIntrinsicMatrixInv,
        t.turn u, u.sourceIntrinsicMatrix, u.transformationMatrix] q, z ≠ 0) ∧
      1 / 1000000 ≤ |(t.transformationMatrixInv *ᵥ lift q) 2| ∧
      1 / 1000000 ≤ |(u.transformationMatrix *ᵥ lift (image u.sourceIntrinsicMatrix
        (image (t.turn u) (image t.sourceIntrinsicMatrixInv
          (image t.transformationMatrixInv q))))) 2| := by
  constructor
  · rintro ⟨hzero, hhead, hlast⟩
    rw [route, if_neg hne] at hzero hhead hlast
    exact ⟨hzero, hhead _ rfl, hlast _ rfl⟩
  · rintro ⟨hzero, hhead, hlast⟩
    refine ⟨?_, ?_, ?_⟩ <;> rw [route, if_neg hne]
    · exact hzero
    · rintro z ⟨⟩
      exact hhead
    · rintro z ⟨⟩
      exact hlast

/-- A pixel that is remapped is divided by no zero on its way. -/
theorem clear_of_remapPixel [IsStrictOrderedRing K] (ht : RelativeTo socket t)
    (hu : RelativeTo socket u) (htu : t.Undistorted) (huu : u.Undistorted) {q : K × K}
    {r : Point2f K} (h : remapPixel num t u q = .ok r) : Clear t u q := by
  rw [remapPixel] at h
  obtain ⟨s, hs, hrest⟩ := Loop.bind_eq_ok.1 h
  obtain ⟨hhead, rfl⟩ := invTransformPoint_eq_ok hs
  obtain ⟨s', hs', hframe⟩ := Loop.bind_eq_ok.1 hrest
  rw [Point2f.coordinates_ofCoordinates] at hhead hs'
  have hlast := transformPoint_eq_ok hframe
  rw [interSourceFrameTransform] at hs'
  by_cases heq : t.isEqualTransformation u
  · rw [if_pos heq] at hs'
    obtain rfl := Except.ok.inj hs'
    exact (clear_iff_of_equal heq q).2 ⟨hhead, hlast⟩
  · rw [if_neg heq] at hs'
    obtain ⟨ray, hray, hs'⟩ := Loop.bind_eq_ok.1 hs'
    obtain ⟨hsensor, rfl⟩ := pixelToRay_eq_ok htu hray
    rw [interSourceRotation_eq ht hu, Loop.ok_bind, matVecMul_eq] at hs'
    obtain ⟨hturn, htarget, rfl⟩ := rayToPixel_eq_ok huu hs'
    refine (clear_iff_of_ne heq q).2 ⟨?_, hhead, hlast⟩
    simp only [Homography.coordinates, List.mem_cons, List.not_mem_nil, or_false, forall_eq_or_imp,
      forall_eq]
    exact ⟨ne_zero_of_test hhead, hsensor, hturn, htarget, ne_zero_of_test hlast⟩

end Remapped

/-! ### Points that stay -/

section Stay

variable {socket : CameraBoardSocket} {t u : ImgTransformation K}

/-- The direction at the source of a pixel of the frame. -/
def ray (t : ImgTransformation K) (q : K × K) : Fin 3 → K :=
  t.sourceIntrinsicMatrixInv *ᵥ (t.transformationMatrixInv *ᵥ lift q)

/-- **The points that stay.** Both frames have a point of the source for the pixel, which
`dehomogenizePoint3` accepts; it has a ray, unless the shortcut needs none; and the turn between the
sources keeps the ray on its line. -/
structure Keeps (t u : ImgTransformation K) (p : Point2f K) : Prop where
  source : 1 / 1000000 ≤ |(t.transformationMatrixInv *ᵥ lift (t.pixel p)) 2|
  target_ne_zero : (u.transformationMatrixInv *ᵥ lift (t.pixel p)) 2 ≠ 0
  target : |(u.transformationMatrixInv *ᵥ lift (t.pixel p)) 2| ≤ 1000000
  ray : t.isEqualTransformation u ∨ t.ray (t.pixel p) 2 ≠ 0
  turn : ∃ c : K, turn t u *ᵥ t.ray (t.pixel p) = c • t.ray (t.pixel p)

omit [LinearOrder K] in
theorem mul_inv_mul_self {b c : K} (hc : c ≠ 0) : (c * b)⁻¹ * c = b⁻¹ := by
  rw [mul_inv, mul_right_comm, inv_mul_cancel₀ hc, one_mul]

theorem le_abs_inv_iff [IsStrictOrderedRing K] {a : K} (ha : a ≠ 0) :
    1 / 1000000 ≤ |a⁻¹| ↔ |a| ≤ 1000000 := by
  rw [abs_inv, one_div, inv_le_inv₀ (by positivity) (abs_pos.2 ha)]

omit [LinearOrder K] in
theorem Inverted.matrix_ray (ht : t.Inverted) (q : K × K) :
    t.sourceIntrinsicMatrix *ᵥ t.ray q = t.transformationMatrixInv *ᵥ lift q := by
  rw [ray, mulVec_mulVec, ht.sourceIntrinsicMatrixInv, mul_nonsing_inv _ ht.isUnit_source,
    one_mulVec]

omit [LinearOrder K] in
theorem Inverted.matrix_inv (ht : t.Inverted) (v : Fin 3 → K) :
    t.transformationMatrix *ᵥ (t.transformationMatrixInv *ᵥ v) = v := by
  rw [mulVec_mulVec, ht.transformationMatrixInv, mul_nonsing_inv _ ht.isUnit_det, one_mulVec]

omit [LinearOrder K] in
theorem Inverted.ray_matrix (ht : t.Inverted) (v : Fin 3 → K) :
    t.sourceIntrinsicMatrixInv *ᵥ (t.transformationMatrixInv *ᵥ
      (t.transformationMatrix *ᵥ (t.sourceIntrinsicMatrix *ᵥ v))) = v := by
  rw [mulVec_mulVec _ t.transformationMatrixInv, ht.transformationMatrixInv,
    nonsing_inv_mul _ ht.isUnit_det, one_mulVec, mulVec_mulVec, ht.sourceIntrinsicMatrixInv,
    nonsing_inv_mul _ ht.isUnit_source, one_mulVec]

omit [LinearOrder K] in
theorem AlignedExactly.ray_eq (h : AlignedExactly t u) (ht : t.Inverted) (hu : u.Inverted)
    (q : K × K) : t.ray q = u.ray q := by
  have hinv : ∀ w : ImgTransformation K, w.Inverted → ∀ q,
      w.ray q = w.getIntrinsicMatrix⁻¹ *ᵥ lift q := by
    intro w hw q
    rw [ray, mulVec_mulVec, getIntrinsicMatrix, matMul_eq, Matrix.mul_inv_rev,
      hw.transformationMatrixInv, hw.sourceIntrinsicMatrixInv]
  rw [hinv t ht, hinv u hu, h.intrinsicMatrix]

/-- **By the shortcut** every accepted pixel stays. -/
theorem keeps_iff_of_equal [IsStrictOrderedRing K] {p : Point2f K} (ht : t.Inverted)
    (hu : u.Inverted) (heq : t.isEqualTransformation u)
    (hmatrix : t.transformationMatrix = u.transformationMatrix) (hturn : t.turn u = 1) :
    Keeps t u p ↔ Clear t u (t.pixel p) ∧ along (route t u) (t.pixel p) = t.pixel p := by
  have hinv : u.transformationMatrixInv = t.transformationMatrixInv := by
    rw [hu.transformationMatrixInv, ht.transformationMatrixInv, hmatrix]
  have hlast : ∀ q : K × K, (t.transformationMatrixInv *ᵥ lift q) 2 ≠ 0 →
      (u.transformationMatrix *ᵥ lift (image t.transformationMatrixInv q)) 2 =
        ((t.transformationMatrixInv *ᵥ lift q) 2)⁻¹ := by
    intro q hq
    rw [image, mulVec_lift_point _ hq, ← hmatrix, ht.matrix_inv]
    simp
  rw [clear_iff_of_equal heq]
  constructor
  · intro h
    have hne := ne_zero_of_test h.source
    have hback := (le_abs_inv_iff h.target_ne_zero).2 h.target
    rw [hinv] at hback
    refine ⟨⟨h.source, by rwa [hlast _ hne]⟩, ?_⟩
    rw [route, if_pos heq, along, along, along, image_image _ _ hne, ← hmatrix,
      ht.transformationMatrixInv, mul_nonsing_inv _ ht.isUnit_det, image_one]
  · rintro ⟨⟨hhead, hback⟩, -⟩
    have hne := ne_zero_of_test hhead
    rw [hlast _ hne, le_abs_inv_iff hne] at hback
    exact ⟨hhead, hinv ▸ hne, hinv ▸ hback, .inl heq, 1, by rw [hturn, one_mulVec, one_smul]⟩

omit [LinearOrder K] in
theorem RelativeTo.turn_ne_zero (ht : RelativeTo socket t) (hu : RelativeTo socket u)
    {v : Fin 3 → K} {c : K} (hv : v 2 ≠ 0) (h : t.turn u *ᵥ v = c • v) : c ≠ 0 := by
  rintro rfl
  have hback : (t.turn u)ᵀ * t.turn u = 1 := by
    have hu' := mul_eq_one_comm.1 hu.transpose_mul
    rw [turn, Matrix.transpose_mul, Matrix.transpose_transpose, Matrix.mul_assoc,
      ← Matrix.mul_assoc u.orientation, hu', Matrix.one_mul, ht.transpose_mul]
  apply hv
  rw [← one_mulVec v, ← hback, ← mulVec_mulVec, h, zero_smul, mulVec_zero, Pi.zero_apply]

theorem clear_iff_heights [IsStrictOrderedRing K] (hne : ¬t.isEqualTransformation u) (q : K × K) :
    Clear t u q ↔
      ((t.transformationMatrixInv *ᵥ lift q) 2 ≠ 0 ∧ t.ray q 2 ≠ 0 ∧ (t.turn u *ᵥ t.ray q) 2 ≠ 0 ∧
        (u.sourceIntrinsicMatrix *ᵥ (t.turn u *ᵥ t.ray q)) 2 ≠ 0 ∧
        (u.transformationMatrix *ᵥ (u.sourceIntrinsicMatrix *ᵥ (t.turn u *ᵥ t.ray q))) 2 ≠ 0) ∧
      1 / 1000000 ≤ |(t.transformationMatrixInv *ᵥ lift q) 2| ∧
      1 / 1000000 ≤ |((u.sourceIntrinsicMatrix *ᵥ (t.turn u *ᵥ t.ray q)) 2)⁻¹ *
        (u.transformationMatrix *ᵥ (u.sourceIntrinsicMatrix *ᵥ (t.turn u *ᵥ t.ray q))) 2| := by
  have hzero := coordinates_ne_zero_iff [t.transformationMatrixInv, t.sourceIntrinsicMatrixInv,
    t.turn u, u.sourceIntrinsicMatrix, u.transformationMatrix] (v := lift q) (by simp)
  rw [point_lift] at hzero
  simp only [heights, List.mem_cons, List.not_mem_nil, or_false, forall_eq_or_imp,
    forall_eq] at hzero
  rw [clear_iff_of_ne hne, hzero]
  refine and_congr_right ?_
  rintro ⟨ha, hv, hturn, hsensor, -⟩
  refine and_congr_right fun _ => ?_
  have hfirst : image t.transformationMatrixInv q = point (t.transformationMatrixInv *ᵥ lift q) :=
    rfl
  rw [hfirst, image_point _ ha, image_point _ hv, image_point _ hturn, mulVec_lift_point _ hsensor]
  rfl

theorem along_route_eq_point (hne : ¬t.isEqualTransformation u) {q : K × K}
    (h : Clear t u q) : along (route t u) q =
      point (u.transformationMatrix *ᵥ (u.sourceIntrinsicMatrix *ᵥ (t.turn u *ᵥ t.ray q))) := by
  rw [along_eq_image _ h.ne_zero, route, if_neg hne, image, ray]
  simp only [product, one_mul, mulVec_mulVec, Matrix.mul_assoc]

/-- **By way of the ray** a pixel stays if its ray does. -/
theorem keeps_iff_of_ne [IsStrictOrderedRing K] {p : Point2f K} (ht : t.Inverted) (hu : u.Inverted)
    (hts : RelativeTo socket t) (hus : RelativeTo socket u) (h : AlignedExactly t u)
    (hne : ¬t.isEqualTransformation u) :
    Keeps t u p ↔ Clear t u (t.pixel p) ∧ along (route t u) (t.pixel p) = t.pixel p := by
  have hsensor : u.sourceIntrinsicMatrix *ᵥ t.ray (t.pixel p) =
      u.transformationMatrixInv *ᵥ lift (t.pixel p) := by
    rw [h.ray_eq ht hu, hu.matrix_ray]
  constructor
  · rintro ⟨hsource, htarget, hbound, hray, c, hc⟩
    have hray := hray.resolve_left hne
    have hcne := hts.turn_ne_zero hus hray hc
    have hclear : Clear t u (t.pixel p) := by
      rw [clear_iff_heights hne, hc, mulVec_smul, hsensor, mulVec_smul, hu.matrix_inv]
      refine ⟨⟨ne_zero_of_test hsource, hray, by simp [hcne, hray], by simp [hcne, htarget],
        by simp [hcne]⟩, hsource, ?_⟩
      rw [Pi.smul_apply, Pi.smul_apply, lift_two, smul_eq_mul, smul_eq_mul, mul_one,
        mul_inv_mul_self hcne, le_abs_inv_iff htarget]
      exact hbound
    refine ⟨hclear, ?_⟩
    rw [along_route_eq_point hne hclear, hc, mulVec_smul, hsensor, mulVec_smul, hu.matrix_inv,
      point_smul hcne, point_lift]
  · rintro ⟨hclear, halong⟩
    rw [along_route_eq_point hne hclear] at halong
    obtain ⟨⟨-, hray, -, hheight, hlast⟩, hsource, hbound⟩ := (clear_iff_heights hne _).1 hclear
    have hend := (point_eq_iff hlast).1 halong
    generalize (u.transformationMatrix *ᵥ (u.sourceIntrinsicMatrix *ᵥ
      (t.turn u *ᵥ t.ray (t.pixel p)))) 2 = c at hend hlast hbound
    have hturn : t.turn u *ᵥ t.ray (t.pixel p) = c • t.ray (t.pixel p) := by
      rw [← hu.ray_matrix (t.turn u *ᵥ t.ray (t.pixel p)), hend, mulVec_smul, mulVec_smul,
        h.ray_eq ht hu]
      rfl
    rw [hturn, mulVec_smul, hsensor] at hheight hbound
    have htarget : (u.transformationMatrixInv *ᵥ lift (t.pixel p)) 2 ≠ 0 :=
      fun hzero => hheight (by simp [hzero])
    refine ⟨hsource, htarget, ?_, .inr hray, c, hturn⟩
    rwa [Pi.smul_apply, smul_eq_mul, mul_inv_mul_self hlast, le_abs_inv_iff htarget] at hbound

omit [LinearOrder K] in
theorem SameCompared.turn_eq_one (h : SameCompared t u) (ht : RelativeTo socket t)
    (hu : RelativeTo socket u) : t.turn u = 1 := by
  have horientation : u.orientation = t.orientation := by
    rw [orientation, orientation, h.rotationMatrix, ht.toCameraSocket, hu.toCameraSocket]
  rw [turn, horientation, ht.transpose_mul]

theorem hasSize_of_isValid [IsStrictOrderedRing K] (h : t.isValid) : t.HasSize := by
  obtain ⟨-, -, hwidth, hheight⟩ := of_decide_eq_true h
  exact ⟨Nat.cast_ne_zero.2 hwidth.ne', Nat.cast_ne_zero.2 hheight.ne'⟩

omit [LinearOrder K] in
theorem coordinates_ofPixel_inj {n : Bool} (hsize : n → u.HasSize) {q r : K × K} :
    (u.ofPixel n q).coordinates = (u.ofPixel n r).coordinates ↔ q = r := by
  cases n with
  | false => simp [ofPixel]
  | true =>
    obtain ⟨hwidth, hheight⟩ := hsize rfl
    simp [ofPixel, Point2f.coordinates, Prod.ext_iff, div_left_inj' hwidth, div_left_inj' hheight]

/-- **Which points are remapped to themselves** between frames that are aligned: those that both
frames accept and whose ray is kept on its line by the turn between the sources. The frames are
valid, their lenses do not distort, their poses are relative to one socket and comparisons are
exact. -/
theorem remapPointTo_aligned_iff [IsStrictOrderedRing K] (ht : t.Inverted) (hu : u.Inverted)
    (htv : t.isValid) (huv : u.isValid) (hts : RelativeTo socket t) (hus : RelativeTo socket u)
    (htu : t.Undistorted) (huu : u.Undistorted)
    (hexact : t.isEqualTransformation u → SameCompared t u) (h : AlignedExactly t u)
    (p : Point2f K) :
    t.isAlignedTo u ∧
      ((∃ q, t.remapPointTo num u p = .ok q ∧ q.coordinates = p.coordinates) ↔ Keeps t u p) := by
  have hkeeps : Keeps t u p ↔
      Clear t u (t.pixel p) ∧ along (route t u) (t.pixel p) = t.pixel p := by
    by_cases heq : t.isEqualTransformation u
    · have hsame := hexact heq
      exact keeps_iff_of_equal ht hu heq (hsame.camera_eq ht hts hus).2 (hsame.turn_eq_one hts hus)
    · exact keeps_iff_of_ne ht hu hts hus h heq
  have hsizes := hasSize_of_isValid huv
  have hback : (u.ofPixel p.isNormalized (t.pixel p)).coordinates = p.coordinates := by
    have hsame : u.ofPixel p.isNormalized (t.pixel p) = t.ofPixel p.isNormalized (t.pixel p) := by
      rw [ofPixel, ofPixel, h.width, h.height]
    rw [hsame, coordinates_ofPixel_pixel fun _ => hasSize_of_isValid htv]
  have heq : Clear t u (t.pixel p) → t.remapPointTo num u p =
      .ok (u.ofPixel p.isNormalized (along (route t u) (t.pixel p))) := fun hclear =>
    remapPointTo_eq hts hus htu huu ⟨hclear, fun _ => ⟨hasSize_of_isValid htv, hsizes⟩⟩
  refine ⟨h.isAlignedTo, ?_⟩
  rw [hkeeps]
  constructor
  · rintro ⟨q, hq, hcoordinates⟩
    have hclear : Clear t u (t.pixel p) := by
      rw [remapPointTo_eq_remapPixel] at hq
      obtain ⟨r, hr, -⟩ := Loop.bind_eq_ok.1 hq
      exact clear_of_remapPixel hts hus htu huu hr
    obtain rfl := Except.ok.inj ((heq hclear).symm.trans hq)
    rw [← hback, coordinates_ofPixel_inj fun _ => hsizes] at hcoordinates
    exact ⟨hclear, hcoordinates⟩
  · rintro ⟨hclear, halong⟩
    exact ⟨_, heq hclear, by rw [halong, hback]⟩

end Stay

/-! ### Two cameras with one matrix -/

/-- A camera at the same place as `leftFrame`, which is turned by a right angle. -/
def turnedFrame : ImgTransformation ℚ :=
  returned (ofIntrinsics 100 100 !![50, 0, 50; 0, 50, 50; 0, 0, 1] .Perspective []
    ⟨[[0, -1, 0], [1, 0, 0], [0, 0, 1]], ⟨0, 0, 0⟩, ⟨0, 0, 0⟩, .CAM_A, .CENTIMETER⟩)
    (by decide +kernel)

theorem relativeTo_turnedFrame : RelativeTo .CAM_A turnedFrame :=
  ⟨by decide +kernel, fun _ => ⟨by decide +kernel, by decide +kernel⟩⟩

theorem relativeTo_leftFrame : RelativeTo .CAM_A leftFrame :=
  ⟨by decide +kernel, fun _ => ⟨by decide +kernel, by decide +kernel⟩⟩

theorem alignedExactly_turnedFrame : AlignedExactly leftFrame turnedFrame :=
  ⟨by decide +kernel, by decide +kernel, by decide +kernel,
    fun i => congrArg (·.getD i 0) (show leftFrame.distortionCoefficients =
      turnedFrame.distortionCoefficients by decide +kernel), by decide +kernel⟩

/-- The centre of the frame stays. -/
theorem remapPointTo_aligned_iff_center :
    leftFrame.isAlignedTo turnedFrame ∧
      ((∃ q, leftFrame.remapPointTo sampleNumerics turnedFrame { x := 50, y := 50 } = .ok q ∧
        q.coordinates = (50, 50)) ↔ Keeps leftFrame turnedFrame { x := 50, y := 50 }) := by
  have hleft : Built sampleNumerics leftFrame := .intrinsics (eq_ok_returned _)
  have hturned : Built sampleNumerics turnedFrame := .intrinsics (eq_ok_returned _)
  exact remapPointTo_aligned_iff hleft.inverted hturned.inverted (by decide +kernel)
    (by decide +kernel) relativeTo_leftFrame relativeTo_turnedFrame
    (by unfold Undistorted; decide +kernel) (by unfold Undistorted; decide +kernel)
    (fun h => absurd h (by decide +kernel)) alignedExactly_turnedFrame { x := 50, y := 50 }

/-- **Aligned frames with other poses.** A pixel of one is another pixel of the other. -/
theorem not_remapPointTo_aligned :
    (leftFrame.isValid ∧ turnedFrame.isValid ∧ RelativeTo .CAM_A leftFrame ∧
      RelativeTo .CAM_A turnedFrame ∧ AlignedExactly leftFrame turnedFrame) ∧
    leftFrame.isAlignedTo turnedFrame ∧
      leftFrame.remapPointTo sampleNumerics turnedFrame { x := 30, y := 40 } =
        .ok { x := 40, y := 70 } :=
  ⟨⟨by decide +kernel, by decide +kernel, relativeTo_leftFrame, relativeTo_turnedFrame,
    alignedExactly_turnedFrame⟩, by decide +kernel, by decide +kernel⟩

end ImgTransformation

end DepthaiCore
