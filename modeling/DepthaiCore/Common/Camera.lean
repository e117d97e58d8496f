import DepthaiCore.Common.ImgTransformation
import DepthaiCore.Lib.Loops

/-!
# The camera of a transformation

Whatever calls build a transformation, the inverses that it stores are inverses. So its matrix, its
intrinsics and the turn of its pose make one invertible matrix, from directions at the common socket to
points of the frame. A point that is remapped goes through the inverse of one such matrix and through
another, by one of two routes.
-/

open scoped Numerals

namespace DepthaiCore

open MatrixOps Matrix Homography

variable {K : Type} [Field K]

namespace ImgTransformation

/-! ### What a call does to a transformation -/

/-- What every call does: the source stays, and the matrix stays with its inverse or has a new one. -/
structure Extends (t u : ImgTransformation K) : Prop where
  sourceIntrinsicMatrix : u.sourceIntrinsicMatrix = t.sourceIntrinsicMatrix
  sourceIntrinsicMatrixInv : u.sourceIntrinsicMatrixInv = t.sourceIntrinsicMatrixInv
  matrix : u.transformationMatrix = t.transformationMatrix ∧
      u.transformationMatrixInv = t.transformationMatrixInv ∨
    IsUnit u.transformationMatrix.det ∧ u.transformationMatrixInv = u.transformationMatrix⁻¹

theorem Extends.trans {t u v : ImgTransformation K} (h : Extends t u) (h' : Extends u v) :
    Extends t v where
  sourceIntrinsicMatrix := h'.sourceIntrinsicMatrix.trans h.sourceIntrinsicMatrix
  sourceIntrinsicMatrixInv := h'.sourceIntrinsicMatrixInv.trans h.sourceIntrinsicMatrixInv
  matrix := by
    obtain ⟨hM, hI⟩ | hnew := h'.matrix
    · rw [hM, hI]
      exact h.matrix
    · exact .inr hnew

variable [LinearOrder K] {num : Numerics K}

theorem addTransformation_extends {t u : ImgTransformation K} {M : Matrix3 K}
    (h : t.addTransformation M = .ok u) : Extends t u := by
  obtain ⟨N, hinv, h⟩ := Loop.bind_eq_ok.1 h
  cases h
  exact ⟨rfl, rfl, .inr (getMatrixInverse_eq_ok_iff.mp hinv)⟩

theorem addAbout_extends {t u : ImgTransformation K} {x y : K} {M : Matrix3 K}
    (h : t.addAbout x y M = .ok u) : Extends t u := by
  obtain ⟨t₁, h₁, h⟩ := Loop.bind_eq_ok.1 h
  obtain ⟨t₂, h₂, h₃⟩ := Loop.bind_eq_ok.1 h
  exact ((addTransformation_extends h₁).trans (addTransformation_extends h₂)).trans
    (addTransformation_extends h₃)

theorem addTranslation_extends {t u : ImgTransformation K} {x y : ℤ}
    (h : t.addTranslation x y = .ok u) : Extends t u := by
  rw [addTranslation] at h
  split at h
  · exact addTransformation_extends h
  · cases h
    exact ⟨rfl, rfl, .inl ⟨rfl, rfl⟩⟩

theorem addCrop_extends {t u : ImgTransformation K} {x y width height : ℤ}
    (h : t.addCrop num x y width height = .ok u) : Extends t u := by
  rw [addCrop] at h
  obtain ⟨t₁, h₁, h⟩ := Loop.bind_eq_ok.1 h
  obtain ⟨srcCorners, -, h⟩ := Loop.bind_eq_ok.1 h
  cases h
  obtain ⟨hsource, hsourceInv, hmatrix⟩ := addTranslation_extends h₁
  exact ⟨hsource, hsourceInv, hmatrix⟩

theorem addPadding_extends {t u : ImgTransformation K} {top bottom left right : ℤ}
    (h : t.addPadding top bottom left right = .ok u) : Extends t u := by
  rw [addPadding] at h
  obtain ⟨t₁, h₁, h⟩ := Loop.bind_eq_ok.1 h
  cases h
  obtain ⟨hsource, hsourceInv, hmatrix⟩ := addTranslation_extends h₁
  exact ⟨hsource, hsourceInv, hmatrix⟩

/-- **One call.** -/
theorem perform_extends [FloorRing K] {t u : ImgTransformation K} {op : Operation K}
    (h : t.perform num op = .ok u) : Extends t u := by
  cases op with
  | addTransformation M => exact addTransformation_extends h
  | addCrop x y width height => exact addCrop_extends h
  | addPadding top bottom left right => exact addPadding_extends h
  | addFlipVertical => exact addAbout_extends h
  | addFlipHorizontal => exact addAbout_extends h
  | addRotation angle rotationPoint => exact addAbout_extends h
  | addScale scaleX scaleY =>
    obtain ⟨hsource, hsourceInv, hmatrix⟩ := addTransformation_extends h
    exact ⟨hsource, hsourceInv, hmatrix⟩

/-! ### What holds of every transformation that is built -/

/-- A constructor and any calls. -/
inductive Built [FloorRing K] (num : Numerics K) : ImgTransformation K → Prop
  | sizes (srcWidth srcHeight width height : ℕ) : Built num (ofSizes srcWidth srcHeight width height)
  | intrinsics {width height : ℕ} {sourceIntrinsicMatrix : Matrix3 K} {model : CameraModel}
      {coefficients : List K} {extrinsics : Extrinsics K} {t : ImgTransformation K}
      (h : ofIntrinsics width height sourceIntrinsicMatrix model coefficients extrinsics = .ok t) :
      Built num t
  | call {t u : ImgTransformation K} {op : Operation K} (ht : Built num t)
      (h : t.perform num op = .ok u) : Built num u

/-- The stored inverses are inverses. -/
structure Inverted (t : ImgTransformation K) : Prop where
  isUnit_det : IsUnit t.transformationMatrix.det
  transformationMatrixInv : t.transformationMatrixInv = t.transformationMatrix⁻¹
  isUnit_source : IsUnit t.sourceIntrinsicMatrix.det
  sourceIntrinsicMatrixInv : t.sourceIntrinsicMatrixInv = t.sourceIntrinsicMatrix⁻¹

omit [LinearOrder K] in
theorem Inverted.extends {t u : ImgTransformation K} (ht : Inverted t) (h : Extends t u) :
    Inverted u where
  isUnit_det := by
    obtain ⟨hM, -⟩ | hnew := h.matrix
    · rw [hM]
      exact ht.isUnit_det
    · exact hnew.1
  transformationMatrixInv := by
    obtain ⟨hM, hI⟩ | hnew := h.matrix
    · rw [hM, hI]
      exact ht.transformationMatrixInv
    · exact hnew.2
  isUnit_source := by
    rw [h.sourceIntrinsicMatrix]
    exact ht.isUnit_source
  sourceIntrinsicMatrixInv := by
    rw [h.sourceIntrinsicMatrix, h.sourceIntrinsicMatrixInv]
    exact ht.sourceIntrinsicMatrixInv

/-- **The stored inverses stay inverses.** By induction on the calls. -/
theorem Built.inverted [FloorRing K] {t : ImgTransformation K} (h : Built num t) : Inverted t := by
  induction h with
  | sizes srcWidth srcHeight width height =>
    exact ⟨by simp [ofSizes], by simp [ofSizes], by simp [ofSizes], by simp [ofSizes]⟩
  | intrinsics h =>
    obtain ⟨N, hinv, h⟩ := Loop.bind_eq_ok.1 h
    cases h
    obtain ⟨hunit, hN⟩ := getMatrixInverse_eq_ok_iff.mp hinv
    exact ⟨by simp, by simp, hunit, hN⟩
  | call _ h ih => exact ih.extends (perform_extends h)

/-! ### The matrices on the way -/

/-- The turn to the common socket. An unknown socket stands for no turn. -/
def orientation (t : ImgTransformation K) : Matrix3 K :=
  if t.extrinsics.toCameraSocket = .AUTO then 1 else rotationOf t.extrinsics.rotationMatrix

/-- From directions at the common socket to points of the frame. -/
def camera (t : ImgTransformation K) : Matrix3 K :=
  t.transformationMatrix * t.sourceIntrinsicMatrix * (orientation t)ᵀ

/-- The turn from one source to the other. -/
def turn (source target : ImgTransformation K) : Matrix3 K :=
  (orientation target)ᵀ * orientation source

/-- The matrices that a point goes through. -/
def route (source target : ImgTransformation K) : List (Matrix3 K) :=
  if source.isEqualTransformation target then
    [source.transformationMatrixInv, target.transformationMatrix]
  else
    [source.transformationMatrixInv, source.sourceIntrinsicMatrixInv, turn source target,
      target.sourceIntrinsicMatrix, target.transformationMatrix]

/-- The pose is relative to the camera at a socket, and is orthonormal unless the socket is unknown. -/
structure RelativeTo (socket : CameraBoardSocket) (t : ImgTransformation K) : Prop where
  toCameraSocket : t.extrinsics.toCameraSocket = socket
  orthonormal : socket ≠ .AUTO → t.extrinsics.Orthonormal

/-- What `isEqualTransformation` compares with a tolerance is equal. -/
structure SameCompared (t u : ImgTransformation K) : Prop where
  intrinsicMatrix : t.getIntrinsicMatrix = u.getIntrinsicMatrix
  sourceIntrinsicMatrix : t.sourceIntrinsicMatrix = u.sourceIntrinsicMatrix
  rotationMatrix : t.extrinsics.rotationMatrix = u.extrinsics.rotationMatrix
  translation : t.extrinsics.getTranslationVector false .CENTIMETER =
    u.extrinsics.getTranslationVector false .CENTIMETER

variable {socket : CameraBoardSocket}

omit [LinearOrder K] in
theorem RelativeTo.transpose_mul {t : ImgTransformation K} (h : RelativeTo socket t) :
    (orientation t)ᵀ * orientation t = 1 := by
  rw [orientation]
  split
  · simp
  · next hauto => exact (h.orthonormal fun hs => hauto (h.toCameraSocket.trans hs)).transpose_mul_self

omit [LinearOrder K] in
theorem Inverted.isUnit_camera {t : ImgTransformation K} (h : Inverted t) (hs : RelativeTo socket t) :
    IsUnit (camera t).det := by
  have hO : IsUnit (orientation t)ᵀ.det := isUnit_det_of_right_inverse hs.transpose_mul
  rw [camera, det_mul, det_mul]
  exact (h.isUnit_det.mul h.isUnit_source).mul hO

omit [LinearOrder K] in
theorem Inverted.camera_inv {t : ImgTransformation K} (h : Inverted t) (hs : RelativeTo socket t) :
    (camera t)⁻¹ = orientation t * t.sourceIntrinsicMatrixInv * t.transformationMatrixInv := by
  rw [camera, Matrix.mul_inv_rev, Matrix.mul_inv_rev, inv_eq_right_inv hs.transpose_mul,
    h.sourceIntrinsicMatrixInv, h.transformationMatrixInv, Matrix.mul_assoc]

omit [LinearOrder K] in
/-- Transformations that agree in what is compared have one camera. -/
theorem SameCompared.camera_eq {t u : ImgTransformation K} (h : SameCompared t u) (ht : Inverted t)
    (hts : RelativeTo socket t) (hus : RelativeTo socket u) :
    camera t = camera u ∧ t.transformationMatrix = u.transformationMatrix := by
  have hM : t.transformationMatrix * t.sourceIntrinsicMatrix =
      u.transformationMatrix * t.sourceIntrinsicMatrix := by
    have := h.intrinsicMatrix
    rwa [getIntrinsicMatrix, getIntrinsicMatrix, matMul_eq, matMul_eq, ← h.sourceIntrinsicMatrix]
      at this
  have hO : orientation t = orientation u := by
    rw [orientation, orientation, h.rotationMatrix, hts.toCameraSocket, hus.toCameraSocket]
  refine ⟨?_, ?_⟩
  · rw [camera, camera, hM, hO, h.sourceIntrinsicMatrix]
  · exact (mul_left_injective_of_inv _ _ (mul_nonsing_inv _ ht.isUnit_source)) hM

/-- **The shortcut and the way through the rays have one product.** -/
theorem product_route {t u : ImgTransformation K} (ht : Inverted t) (hts : RelativeTo socket t)
    (hus : RelativeTo socket u) (hexact : t.isEqualTransformation u → SameCompared t u) :
    product (route t u) = transfer camera t u := by
  rw [route, transfer]
  split
  · next heq =>
    obtain ⟨hcamera, hM⟩ := (hexact heq).camera_eq ht hts hus
    rw [← hcamera, mul_nonsing_inv _ (ht.isUnit_camera hts), product, product, product, one_mul, ← hM,
      ht.transformationMatrixInv, mul_nonsing_inv _ ht.isUnit_det]
  · rw [ht.camera_inv hts, camera]
    simp only [product, one_mul, turn, Matrix.mul_assoc]

end ImgTransformation

end DepthaiCore
