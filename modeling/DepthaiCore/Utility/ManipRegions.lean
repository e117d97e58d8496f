import DepthaiCore.Utility.ManipTransform

/-!
# What an image manipulation cuts out

A `Crop` cuts a rectangle out of the image that the operations before it made, and at the end the
output is one more. `getFullTransform` keeps the corners of these rectangles where they lie in the
image that comes in. What they surround there is what the matrices take into the rectangles.
-/

namespace DepthaiCore.ImageManip

open MatrixOps Rectangles Matrix Homography

variable {K : Type} [Field K]

/-- Translations, rotations, flips, resizes and crops. -/
def ManipOp.IsPlain {F : Type} : ManipOp F → Prop
  | .Translate _ _ _ | .Rotate _ _ _ _ _ | .Resize _ _ _ _ | .Flip _ _ | .Crop _ _ _ _ => True
  | .Affine _ | .Perspective _ | .FourPoints _ _ _ => False

/-- A crop. -/
def ManipOp.isCrop {F : Type} : ManipOp F → Bool
  | .Crop _ _ _ _ => true
  | _ => false

variable [LinearOrder K]

/-- What a matrix takes into the rectangle of a size. -/
def takenInto (M : Matrix3 K) (width height : UInt32) : Set (K × K) :=
  {p | image M p ∈ frame (width.toNat : K) height.toNat}

/-- What is left of the image after a crop. -/
def TransformState.region (st : TransformState K) : Set (K × K) :=
  takenInto st.transform st.outputWidth st.outputHeight

/-- What four corners surround. -/
def hull (corners : Corners K) : Set (K × K) :=
  convexHull K {p | p ∈ corners.toList}

section Run

variable [FloorRing K] (num : WarpNumerics K)

/-- What the crops among the operations leave, from a state on. -/
def regions : TransformState K → List (ManipOp K) → List (Set (K × K))
  | _, [] => []
  | st, op :: ops =>
    match getTransformImpl num st op with
    | .error _ => []
    | .ok st' => (if op.isCrop then [st'.region] else []) ++ regions st' ops

variable [IsStrictOrderedRing K] {num} {st st' : TransformState K} {op : ManipOp K}

omit [FloorRing K] in
/-- **The corners of a frame, taken back**, surround what is taken into it. -/
theorem hull_inv {M : Matrix3 K} (h : Affine M) (hdet : IsUnit M.det) (width height : UInt32) :
    hull (image M⁻¹ ∘ cornersOf (width.toNat : K) height.toNat) = takenInto M width height := by
  rw [hull, Corners.toList_comp, Corners.toList_cornersOf,
    convexHull_inv_frame h hdet (Nat.cast_nonneg _) (Nat.cast_nonneg _), takenInto]

omit [FloorRing K] [IsStrictOrderedRing K] in
theorem exists_scaling {o : Resize K} {width height : K} {outputWidth outputHeight : UInt32}
    {mat : Matrix3 K} (h : getResizeMat o width height outputWidth outputHeight = .ok mat) :
    ∃ x y, mat = scaling x y := by
  obtain ⟨size, -, h⟩ := Loop.bind_eq_ok.1 h
  split at h
  · cases h
    exact ⟨_, _, rfl⟩
  · obtain ⟨x, -, h⟩ := Loop.bind_eq_ok.1 h
    obtain ⟨y, -, h⟩ := Loop.bind_eq_ok.1 h
    cases h
    exact ⟨x, y, rfl⟩

/-- **What a crop does** to the matrix and to the corners that are kept. -/
theorem crop_hull {w h : K} {normalized center : Bool} (hst : Affine st.transform)
    (hcrop : crop st w h normalized center = .ok st') :
    Affine st'.transform ∧ st'.srcCorners.map hull = st.srcCorners.map hull ++ [st'.region] := by
  obtain ⟨size, -, hmoved⟩ := Loop.bind_eq_ok.1 hcrop
  obtain ⟨transformInv, hinv, hkept⟩ := Loop.bind_eq_ok.1 hmoved
  obtain ⟨corners, hcorners, hlast⟩ := Loop.bind_eq_ok.1 hkept
  obtain ⟨hdet, rfl⟩ := getMatrixInverse_eq_ok_iff.1 hinv
  obtain rfl := Except.ok.inj hlast
  generalize hT : (if center = true then _ else st.transform : Matrix3 K) = T at *
  have haffine : Affine T := by
    rw [← hT]
    split
    · rw [matmul_eq]
      exact (affine_translation _ _).mul hst
    · exact hst
  rw [Corners.mulBy_of_affine (haffine.inv hdet)] at hcorners
  obtain rfl := Except.ok.inj hcorners
  refine ⟨haffine, ?_⟩
  rw [List.map_append, List.map_singleton, hull_inv haffine hdet]
  rfl

omit [IsStrictOrderedRing K] in
/-- The operations but a crop give a matrix and change nothing. -/
theorem visit_of_not_isCrop {mat : Matrix3 K} (hop : op.IsPlain) (hcrop : op.isCrop = false)
    (h : visit num st op = .ok (mat, st')) : Affine mat ∧ st' = st := by
  cases op with
  | Translate =>
    obtain ⟨rfl, rfl⟩ := Prod.mk.inj (Except.ok.inj h)
    exact ⟨affine_translation _ _, rfl⟩
  | Rotate =>
    obtain ⟨rfl, rfl⟩ := Prod.mk.inj (Except.ok.inj h)
    exact ⟨affine_about (affine_rotation _ _) _ _ _, rfl⟩
  | Resize =>
    obtain ⟨scale, hscale, h⟩ := Loop.bind_eq_ok.1 h
    obtain ⟨rfl, rfl⟩ := Prod.mk.inj (Except.ok.inj h)
    obtain ⟨x, y, rfl⟩ := exists_scaling hscale
    exact ⟨affine_scaling x y, rfl⟩
  | Flip direction =>
    cases direction <;>
    · obtain ⟨rfl, rfl⟩ := Prod.mk.inj (Except.ok.inj h)
      exact ⟨affine_about (affine_scaling _ _) _ _ _, rfl⟩
  | Crop => cases hcrop
  | Affine | Perspective | FourPoints => exact hop.elim

/-- **One operation.** A crop adds the corners of what it leaves. -/
theorem getTransformImpl_hull (hop : op.IsPlain) (hst : Affine st.transform)
    (h : getTransformImpl num st op = .ok st') :
    Affine st'.transform ∧ st'.srcCorners.map hull =
      st.srcCorners.map hull ++ if op.isCrop then [st'.region] else [] := by
  obtain ⟨⟨mat, st₁⟩, hvisit, h⟩ := Loop.bind_eq_ok.1 h
  obtain ⟨corners, -, h⟩ := Loop.bind_eq_ok.1 h
  obtain rfl := Except.ok.inj h
  cases hcrop : op.isCrop with
  | false =>
    obtain ⟨hmat, rfl⟩ := visit_of_not_isCrop hop hcrop hvisit
    refine ⟨?_, by simp⟩
    rw [matmul_eq]
    exact hmat.mul hst
  | true =>
    cases op with
    | Crop =>
      obtain ⟨cropped, hcropped, hvisit⟩ := Loop.bind_eq_ok.1 hvisit
      obtain ⟨rfl, rfl⟩ := Prod.mk.inj (Except.ok.inj hvisit)
      obtain ⟨haffine, hkept⟩ := crop_hull hst hcropped
      simp only [matmul_eq, Matrix.one_mul, if_true]
      exact ⟨haffine, hkept⟩
    | _ => cases hcrop

/-- **A run of operations.** -/
theorem foldlM_hull {ops : List (ManipOp K)} (hops : ∀ op ∈ ops, op.IsPlain)
    (hst : Affine st.transform) (h : ops.foldlM (getTransformImpl num) st = .ok st') :
    Affine st'.transform ∧
      st'.srcCorners.map hull = st.srcCorners.map hull ++ regions num st ops := by
  induction ops generalizing st with
  | nil =>
    obtain rfl := Except.ok.inj h
    exact ⟨hst, (List.append_nil _).symm⟩
  | cons op ops ih =>
    rw [List.foldlM_cons] at h
    obtain ⟨st₁, hstep, h⟩ := Loop.bind_eq_ok.1 h
    obtain ⟨haffine, hkept⟩ := getTransformImpl_hull (hops op (by simp)) hst hstep
    obtain ⟨haffine', hkept'⟩ :=
      ih (fun op' hop' => hops op' (List.mem_cons_of_mem _ hop')) haffine h
    refine ⟨haffine', ?_⟩
    rw [hkept', hkept, List.append_assoc, regions, hstep]

omit [FloorRing K] [IsStrictOrderedRing K] in
theorem Placement.affine_resize {pl pl' : Placement K} {base : ImageManipOpsBase K}
    {outputWidth outputHeight : UInt32} (hpl : Affine pl.matrix)
    (h : pl.resize base outputWidth outputHeight = .ok pl') : Affine pl'.matrix := by
  rw [Placement.resize] at h
  split at h
  · obtain rfl := Except.ok.inj h
    exact hpl
  · obtain ⟨mat, hmat, h⟩ := Loop.bind_eq_ok.1 h
    obtain ⟨x, y, rfl⟩ := exists_scaling hmat
    simp only [matvecmul_of_affine (affine_scaling x y), Loop.ok_bind] at h
    obtain rfl := Except.ok.inj h
    simp only [matmul_eq]
    exact (affine_scaling x y).mul hpl

omit [FloorRing K] [IsStrictOrderedRing K] in
theorem Placement.affine_centerIn {pl pl' : Placement K} {outputWidth outputHeight : UInt32}
    (hpl : Affine pl.matrix) (h : pl.centerIn outputWidth outputHeight = .ok pl') :
    Affine pl'.matrix := by
  obtain ⟨corners, -, h⟩ := Loop.bind_eq_ok.1 h
  obtain rfl := Except.ok.inj h
  simp only [matmul_eq]
  exact (affine_translation _ _).mul hpl

omit [FloorRing K] in
theorem output_hull {M : Matrix3 K} (hM : Affine M) (kept : List (Corners K))
    (width height : UInt32) {full : Corners K → FullTransform K (Matrix3 K)}
    {last : FullTransform K (Matrix3 K)}
    (h : (do
      let matrixInv ← getMatrixInverse M
      let corners ← (cornersOf (width.toNat : K) height.toNat).mulBy matrixInv
      return full corners) = .ok last)
    (hfull : ∀ corners, (full corners).matrix = M ∧ (full corners).srcCorners = kept ++ [corners] ∧
      (full corners).outputWidth = width ∧ (full corners).outputHeight = height) :
    Affine last.matrix ∧ last.srcCorners.map hull = kept.map hull ++
      [takenInto last.matrix last.outputWidth last.outputHeight] := by
  obtain ⟨matrixInv, hinv, h⟩ := Loop.bind_eq_ok.1 h
  obtain ⟨corners, hcorners, h⟩ := Loop.bind_eq_ok.1 h
  obtain rfl := Except.ok.inj h
  obtain ⟨hdet, rfl⟩ := getMatrixInverse_eq_ok_iff.1 hinv
  rw [Corners.mulBy_of_affine (hM.inv hdet)] at hcorners
  obtain rfl := Except.ok.inj hcorners
  obtain ⟨hmatrix, hkept, hwidth, hheight⟩ := hfull
    (image M⁻¹ ∘ cornersOf (width.toNat : K) height.toNat)
  rw [hmatrix, hkept, hwidth, hheight, List.map_append, List.map_singleton, hull_inv hM hdet]
  exact ⟨hM, rfl⟩

/-- **The corners that `getFullTransform` keeps** surround what the crops and the output leave. -/
theorem getFullTransform_hull {base : ImageManipOpsBase K} {inputWidth inputHeight : UInt32}
    {type outputFrameType : ImgFrameType} {full : FullTransform K (Matrix3 K)}
    (hops : ∀ op ∈ base.operations, op.IsPlain)
    (h : getFullTransform num base inputWidth inputHeight type outputFrameType = .ok full) :
    Affine full.matrix ∧ full.srcCorners.map hull =
      regions num (.initial inputWidth inputHeight base.outputWidth base.outputHeight)
          base.operations ++
        [takenInto full.matrix full.outputWidth full.outputHeight] := by
  obtain ⟨st, hrun, h⟩ := Loop.bind_eq_ok.1 h
  obtain ⟨inverse, -, h⟩ := Loop.bind_eq_ok.1 h
  obtain ⟨⟨width, height⟩, -, h⟩ := Loop.bind_eq_ok.1 h
  obtain ⟨pl, hresize, h⟩ := Loop.bind_eq_ok.1 h
  obtain ⟨haffine, hkept⟩ := foldlM_hull hops .refl hrun
  have hresized : Affine pl.matrix := Placement.affine_resize haffine hresize
  have hregions : st.srcCorners.map hull =
      regions num (.initial inputWidth inputHeight base.outputWidth base.outputHeight)
        base.operations := hkept
  rw [← hregions]
  dsimp only at h
  by_cases hcenter : base.center = true
  · rw [if_pos hcenter] at h
    obtain ⟨pl', hmoved, h⟩ := Loop.bind_eq_ok.1 h
    exact output_hull (Placement.affine_centerIn hresized hmoved) _ _ _ h
      fun _ => ⟨rfl, rfl, rfl, rfl⟩
  · rw [if_neg hcenter, Loop.ok_bind] at h
    exact output_hull hresized _ _ _ h fun _ => ⟨rfl, rfl, rfl, rfl⟩

end Run

end DepthaiCore.ImageManip
