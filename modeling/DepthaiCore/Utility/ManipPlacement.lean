import DepthaiCore.Utility.ManipTransform
import Mathlib.Analysis.SpecialFunctions.Complex.Arg

/-!
# Where an image manipulation places the image

Translations, rotations, flips and uniform resizes carry a rectangle to a rectangle. The corners
that are kept beside the matrix are those of the source under it, so that the box they are fitted by
is the one around the image.

When the image is resized at the end, the corner that is written last is the third one again. The
box by which the image is moved to the centre is then that of three corners.
-/

open scoped Numerals

namespace DepthaiCore.ImageManip

open MatrixOps Rectangles Matrix Homography

variable {K : Type} [Field K]

/-! ### Turns -/

/-- The part of an operation that turns or mirrors. -/
def turn (trig : Trigonometry K) : ManipOp K → Matrix3 K
  | .Rotate angle _ _ _ _ => rotation trig angle
  | .Flip .HORIZONTAL _ => scaling (-1) 1
  | .Flip .VERTICAL _ => scaling 1 (-1)
  | _ => 1

/-- The turns of a list of operations, one after the other. -/
def turnOf (trig : Trigonometry K) : List (ManipOp K) → Matrix3 K
  | [] => 1
  | op :: ops => turnOf trig ops * turn trig op

/-- **The sides of the image stay along the axes**, if only by turning into each other. -/
def Upright (trig : Trigonometry K) (ops : List (ManipOp K)) : Prop :=
  turnOf trig ops 0 0 = 0 ∨ turnOf trig ops 0 1 = 0

theorem isometry_rotation (trig : Trigonometry K) (angle : K) : Isometry (rotation trig angle) where
  toAffine := affine_rotation trig angle
  sqNorm_eq v := by
    have hunit := trig.cos_sq_add_sin_sq angle
    simp only [linear_apply, sqNorm, rotation, of_apply, cons_val', cons_val_zero, cons_val_one,
      cons_val_fin_one]
    linear_combination (v.1 ^ 2 + v.2 ^ 2) * hunit

theorem isometry_turn (trig : Trigonometry K) (op : ManipOp K) : Isometry (turn trig op) := by
  unfold turn
  split
  · exact isometry_rotation trig _
  · exact ⟨affine_scaling _ _, fun v => by simp [sqNorm]⟩
  · exact ⟨affine_scaling _ _, fun v => by simp [sqNorm]⟩
  · exact .refl

theorem isometry_turnOf (trig : Trigonometry K) (ops : List (ManipOp K)) :
    Isometry (turnOf trig ops) := by
  induction ops with
  | nil => exact .refl
  | cons op ops ih => exact ih.mul (isometry_turn trig op)

variable [LinearOrder K]

/-! ### Operations that carry rectangles to rectangles -/

/-- **What is expected of the rectangle that is fitted around points**: it leaves a rectangle as it
is, with its corners in some order. -/
def KeepsRectangles (num : Numerics K) : Prop :=
  ∀ points, IsRectangle points →
    ((num.getOuterRotatedRect points).corners num.toTrigonometry).Perm points

/-- An operation turns, mirrors, moves or scales the image that it finds. -/
def UniformOp (st : TransformState K) : ManipOp K → Prop
  | .Translate _ _ _ | .Rotate _ _ _ _ _ | .Flip _ _ => True
  | .Resize width height normalized mode => ∃ k, k ≠ 0 ∧
      getResizeMat ⟨width, height, normalized, mode⟩
        ((getOuterRect st.imageCorners.toList).maxx - (getOuterRect st.imageCorners.toList).minx)
        ((getOuterRect st.imageCorners.toList).maxy - (getOuterRect st.imageCorners.toList).miny)
        st.outputWidth st.outputHeight = .ok (scaling k k)
  | _ => False

section Run

variable [IsStrictOrderedRing K] [FloorRing K] {num : WarpNumerics K} {width height : K}

/-- Every operation does so, from a state on. -/
def Uniform (num : WarpNumerics K) : TransformState K → List (ManipOp K) → Prop
  | _, [] => True
  | st, op :: ops =>
    UniformOp st op ∧ ∀ st', getTransformImpl num st op = .ok st' → Uniform num st' ops

/-- **The corners are in step with the matrix.** The matrix turns the image by `Q` and scales it by
`k`, and the corners are those of the source under it. -/
structure Follows (width height k : K) (Q : Matrix3 K) (st : TransformState K) : Prop where
  multiple : Multiple k Q st.transform
  corners : st.imageCorners.toList.Perm ((frameCorners width height).map (image st.transform))

omit [IsStrictOrderedRing K] in
/-- **The matrix of such an operation** turns as the operation does. -/
theorem visit_of_uniformOp {st : TransformState K} {op : ManipOp K} (h : UniformOp st op) :
    ∃ mat k, visit num st op = .ok (mat, st) ∧ k ≠ 0 ∧
      Multiple k (turn num.toTrigonometry op) mat := by
  have habout : ∀ (center : Bool) (x y : K) {Q : Matrix3 K}, Affine Q →
      Multiple 1 Q (about center x y Q) := fun center x y Q hQ =>
    ⟨affine_about hQ center x y, fun v => by rw [linear_about hQ, one_smul]⟩
  cases op with
  | Translate offsetX offsetY normalized =>
    exact ⟨_, 1, rfl, one_ne_zero, affine_translation _ _, fun v => by simp [turn]⟩
  | Rotate angle center offsetX offsetY normalized =>
    exact ⟨_, 1, rfl, one_ne_zero, habout _ _ _ (affine_rotation _ _)⟩
  | Resize w h normalized mode =>
    obtain ⟨k, hk, hmat⟩ := h
    refine ⟨_, k, by rw [visit, hmat, Loop.ok_bind], hk, affine_scaling k k, fun v => ?_⟩
    simp [turn, Prod.smul_def]
  | Flip direction center =>
    cases direction <;> exact ⟨_, 1, rfl, one_ne_zero, habout _ _ _ (affine_scaling _ _)⟩
  | Affine | Perspective | FourPoints | Crop => exact h.elim

/-- **One operation.** The rectangle goes to a rectangle, so that its corners stay in step. -/
theorem Follows.step (hkeeps : KeepsRectangles num.toNumerics) {k : K} {Q : Matrix3 K}
    (hQ : Isometry Q) {st : TransformState K} (h : Follows width height k Q st) {op : ManipOp K}
    (hop : UniformOp st op) :
    ∃ st' l, getTransformImpl num st op = .ok st' ∧ l ≠ 0 ∧
      Follows width height (l * k) (turn num.toTrigonometry op * Q) st' ∧
      st'.outputWidth = st.outputWidth ∧ st'.outputHeight = st.outputHeight := by
  obtain ⟨mat, l, hvisit, hl, hmat⟩ := @visit_of_uniformOp K _ _ _ num _ _ hop
  have hmul := hmat.mul h.multiple hQ.toAffine
  have hperm : (st.imageCorners.toList.map (image mat)).Perm
      ((frameCorners width height).map (image (mat * st.transform))) := by
    refine (h.corners.map _).trans (.of_eq ?_)
    rw [List.map_map]
    exact List.map_congr_left fun p _ => h.multiple.toAffine.image_image p
  have hrectangle : IsRectangle (st.imageCorners.toList.map (image mat)) := by
    refine ⟨_, _, _, ?_, hperm.trans (.of_eq (map_frameCorners hmul.toAffine width height))⟩
    have hturned := (isometry_turn num.toTrigonometry op).mul hQ
    rw [hmul.sqNorm_eq hturned, hmul.sqNorm_eq hturned, sqNorm_frame]
  have hgo : getTransformImpl num st op = .ok { st with
      imageCorners := .ofList ((num.getOuterRotatedRect
        (Corners.toList (image mat ∘ st.imageCorners))).corners num.toTrigonometry)
      transform := matmul mat st.transform } := by
    rw [getTransformImpl, hvisit, Loop.ok_bind]
    show (st.imageCorners.mulBy mat >>= _) = _
    rw [Corners.mulBy_of_affine hmat.toAffine]
    rfl
  refine ⟨_, l, hgo, hl, ⟨?_, ?_⟩, rfl, rfl⟩
  · simpa only [matmul_eq] using hmul
  · rw [Corners.toList_ofList (RotatedRect.length_corners _ _), Corners.toList_comp, matmul_eq]
    exact (hkeeps _ hrectangle).trans hperm

/-- **A run of operations.** -/
theorem foldlM_follows (hkeeps : KeepsRectangles num.toNumerics) {ops : List (ManipOp K)} {k : K}
    {Q : Matrix3 K} (hQ : Isometry Q) (hk : k ≠ 0) {st : TransformState K}
    (h : Follows width height k Q st) (hops : Uniform num st ops) :
    ∃ st' l, ops.foldlM (getTransformImpl num) st = .ok st' ∧ l ≠ 0 ∧
      Follows width height l (turnOf num.toTrigonometry ops * Q) st' ∧
      st'.outputWidth = st.outputWidth ∧ st'.outputHeight = st.outputHeight := by
  induction ops generalizing st k Q with
  | nil =>
    refine ⟨st, k, rfl, hk, ?_, rfl, rfl⟩
    rwa [turnOf, Matrix.one_mul]
  | cons op ops ih =>
    obtain ⟨st₁, l₁, hstep, hl₁, hfollows, hwidth, hheight⟩ := h.step hkeeps hQ hops.1
    obtain ⟨st', l, hrun, hl, hfollows', hwidth', hheight'⟩ :=
      ih ((isometry_turn _ op).mul hQ) (mul_ne_zero hl₁ hk) hfollows (hops.2 _ hstep)
    refine ⟨st', l, ?_, hl, ?_, hwidth'.trans hwidth, hheight'.trans hheight⟩
    · rw [List.foldlM_cons, hstep, Loop.ok_bind, hrun]
    · rwa [turnOf, Matrix.mul_assoc]

omit [LinearOrder K] [IsStrictOrderedRing K] [FloorRing K] in
theorem follows_initial (inputWidth inputHeight outputWidth outputHeight : UInt32) :
    Follows (inputWidth.toNat : K) inputHeight.toNat 1 1
      (.initial inputWidth inputHeight outputWidth outputHeight) where
  multiple := ⟨.refl, fun v => by rw [TransformState.initial, one_smul]⟩
  corners := by
    have hone : image (1 : Matrix3 K) = id := funext image_one
    rw [TransformState.initial, Corners.toList_cornersOf, hone, List.map_id]

/-- **The corners stay in step with the matrix.** -/
theorem getTransform_follows (hkeeps : KeepsRectangles num.toNumerics) {ops : List (ManipOp K)}
    {inputWidth inputHeight outputWidth outputHeight : UInt32}
    (hops : Uniform num (.initial inputWidth inputHeight outputWidth outputHeight) ops) :
    ∃ st k, getTransform num ops inputWidth inputHeight outputWidth outputHeight = .ok st ∧ k ≠ 0 ∧
      Follows (inputWidth.toNat : K) inputHeight.toNat k (turnOf num.toTrigonometry ops) st := by
  obtain ⟨st, k, hrun, hk, hfollows, -⟩ :=
    foldlM_follows hkeeps .refl one_ne_zero (follows_initial _ _ _ _) hops
  rw [Matrix.mul_one] at hfollows
  exact ⟨st, k, hrun, hk, hfollows⟩

end Run

/-! ### The resize at the end -/

section Output

variable [IsStrictOrderedRing K] {outputWidth outputHeight : UInt32} {c q u : K × K}

omit [IsStrictOrderedRing K] in
/-- The factors of a resize mode, where the output is so many times the image. -/
def factors (mode : ResizeMode) (x y : K) : K × K :=
  match mode with
  | .NONE => (1, 1)
  | .STRETCH => (x, y)
  | .LETTERBOX => (min x y, min x y)
  | .CENTER_CROP => (max x y, max x y)

theorem factors_pos (mode : ResizeMode) {x y : K} (hx : 0 < x) (hy : 0 < y) :
    0 < (factors mode x y).1 ∧ 0 < (factors mode x y).2 := by
  cases mode <;> simp [factors, hx, hy]

/-- The box of the corners that are kept. -/
def Placement.box (pl : Placement K) : Box K :=
  getOuterRect pl.imageCorners.toList

omit [IsStrictOrderedRing K] in
theorem Placement.box_eq {pl : Placement K} {points : List (K × K)} {b : Box K}
    (hsame : ∀ p, p ∈ pl.imageCorners.toList ↔ p ∈ points) (hbox : IsBoxOf {p | p ∈ points} b) :
    pl.box = b := by
  have hset : {p | p ∈ pl.imageCorners.toList} = {p | p ∈ points} := Set.ext hsame
  refine IsBoxOf.unique ?_ hbox
  rw [← hset]
  exact isBoxOf_getOuterRect (List.cons_ne_nil _ _)

/-- **The box after a resize** has the centre in its middle only if the sides are along the axes:
one of the corners is written twice, and another is not. -/
theorem Placement.resizeBy_around {pl : Placement K} (hnorm : sqNorm q = sqNorm u)
    (hcorners : pl.imageCorners.toList.Perm (diagonals c q u)) {res : Resize K} {x y : K}
    (hx : 0 < x) (hy : 0 < y)
    (hmat : getResizeMat res (pl.box.maxx - pl.box.minx) (pl.box.maxy - pl.box.miny) outputWidth
      outputHeight = .ok (scaling x y)) :
    ∃ pl', pl.resizeBy res outputWidth outputHeight = .ok pl' ∧
      pl'.matrix = scaling x y * pl.matrix ∧
      (pl'.box.Around (image (scaling x y) c) ↔ q.1 ^ 2 = u.1 ^ 2) := by
  obtain ⟨q', u', -, hrest, hname⟩ := exists_first
    ((List.perm_append_singleton (pl.imageCorners 3)
      [pl.imageCorners 0, pl.imageCorners 1, pl.imageCorners 2]).symm.trans hcorners)
  have haffine := affine_scaling x y
  refine ⟨⟨scaling x y * pl.matrix, ![image (scaling x y) (pl.imageCorners 0),
    image (scaling x y) (pl.imageCorners 1), image (scaling x y) (pl.imageCorners 2),
    image (scaling x y) (pl.imageCorners 2)], pl.outputOps ++ [res.op]⟩, ?_, rfl, ?_⟩
  · rw [resizeBy]
    show (getResizeMat res (pl.box.maxx - pl.box.minx) (pl.box.maxy - pl.box.miny) outputWidth
      outputHeight >>= _) = _
    rw [hmat, Loop.ok_bind]
    simp only [matvecmul_of_affine haffine, matmul_eq, Loop.ok_bind]
    rfl
  · -- three of the four corners are left, scaled
    have hthree := hrest.map (image (scaling x y))
    simp only [List.map_cons, List.map_nil, haffine.image_add, haffine.image_sub] at hthree
    rw [Placement.box_eq (fun p => ?_) (isBoxOf_three hthree), around_threeBoxOf]
    · have hscaled : ∀ {k a b : K}, 0 < k → (|k * a| ≤ |k * b| ↔ |a| ≤ |b|) := by
        intro k a b hk
        rw [abs_mul, abs_mul, mul_le_mul_iff_right₀ (abs_pos.2 hk.ne')]
      rw [linear_scaling, linear_scaling, hscaled hx, hscaled hy]
      rcases hname with ⟨rfl, rfl⟩ | ⟨rfl, rfl⟩ | ⟨rfl, rfl⟩ | ⟨rfl, rfl⟩
      · exact inner_iff hnorm
      · rw [inner_iff (by simpa [sqNorm] using hnorm.symm)]
        simp [eq_comm]
      · rw [inner_iff (by simpa [sqNorm] using hnorm)]
        simp
      · rw [inner_iff (by simpa [sqNorm] using hnorm.symm)]
        simp [eq_comm]
    · simp [Corners.toList]

/-- How far a parallelogram reaches from its centre. -/
def reach (q u : K × K) : K × K :=
  (max |q.1| |u.1|, max |q.2| |u.2|)

/-- **The image after the resize mode.** It is scaled by the factors of the mode, and the box by
which it is centred is the one around it if nothing is resized or the sides are along the axes. -/
theorem Placement.resize_around (base : ImageManipOpsBase K) {pl : Placement K}
    (hnorm : sqNorm q = sqNorm u) (hcorners : pl.imageCorners.toList.Perm (diagonals c q u))
    (hx : 0 < (reach q u).1) (hy : 0 < (reach q u).2) (houtW : 0 < outputWidth)
    (houtH : 0 < outputHeight) {f : K × K}
    (hf : f = factors base.resizeMode (outputWidth.toNat / (2 * (reach q u).1))
      (outputHeight.toNat / (2 * (reach q u).2))) :
    ∃ pl', pl.resize base outputWidth outputHeight = .ok pl' ∧
      pl'.matrix = scaling f.1 f.2 * pl.matrix ∧
      (pl'.box.Around (image (scaling f.1 f.2) c) ↔
        base.resizeMode = .NONE ∨ q.1 ^ 2 = u.1 ^ 2) := by
  have hbox : pl.box = boxOf c q u :=
    pl.box_eq (fun _ => hcorners.mem_iff) (isBoxOf_diagonals c q u)
  have hwidth : pl.box.maxx - pl.box.minx = 2 * (reach q u).1 := by
    rw [hbox, boxOf, reach]
    ring
  have hheight : pl.box.maxy - pl.box.miny = 2 * (reach q u).2 := by
    rw [hbox, boxOf, reach]
    ring
  have hposw : 0 < 2 * (reach q u).1 := mul_pos two_pos hx
  have hposh : 0 < 2 * (reach q u).2 := mul_pos two_pos hy
  obtain ⟨hf1, hf2⟩ := factors_pos base.resizeMode (div_pos (toNat_pos houtW) hposw)
    (div_pos (toNat_pos houtH) hposh)
  have hgo : ∀ {res : Resize K}, base.resize outputWidth outputHeight = some res →
      base.resizeMode ≠ .NONE →
      getResizeMat res (2 * (reach q u).1) (2 * (reach q u).2) outputWidth outputHeight =
        .ok (scaling f.1 f.2) →
      ∃ pl', pl.resize base outputWidth outputHeight = .ok pl' ∧
        pl'.matrix = scaling f.1 f.2 * pl.matrix ∧
        (pl'.box.Around (image (scaling f.1 f.2) c) ↔
          base.resizeMode = .NONE ∨ q.1 ^ 2 = u.1 ^ 2) := by
    intro res hres hmode hmat
    rw [← hwidth, ← hheight] at hmat
    rw [or_iff_right hmode, resize, hres]
    exact pl.resizeBy_around hnorm hcorners (hf ▸ hf1) (hf ▸ hf2) hmat
  cases hmode : base.resizeMode with
  | NONE =>
    rw [hmode] at hf
    subst hf
    have hone : scaling (1 : K) 1 = 1 := by
      funext i j
      fin_cases i <;> fin_cases j <;> rfl
    simp only [factors, hone, image_one, Matrix.one_mul, true_or, iff_true]
    refine ⟨pl, ?_, rfl, ?_⟩
    · rw [resize, ImageManipOpsBase.resize, hmode]
    · rw [hbox]
      exact around_boxOf c q u
  | STRETCH =>
    rw [← hmode]
    refine hgo (by rw [ImageManipOpsBase.resize, hmode]) (by simp [hmode]) ?_
    rw [hf, hmode]
    exact getResizeMat_stretch hposw hposh houtW houtH
  | LETTERBOX =>
    rw [← hmode]
    refine hgo (by rw [ImageManipOpsBase.resize, hmode]) (by simp [hmode]) ?_
    rw [hf, hmode]
    exact getResizeMat_fit hposw hposh houtW houtH
  | CENTER_CROP =>
    rw [← hmode]
    refine hgo (by rw [ImageManipOpsBase.resize, hmode]) (by simp [hmode]) ?_
    rw [hf, hmode]
    exact getResizeMat_fill hposw hposh houtW houtH

/-- **The image after it is moved**, so that the box that was kept lies in the middle. -/
theorem Placement.centerIn_eq (pl : Placement K) (outputWidth outputHeight : UInt32) :
    ∃ pl', pl.centerIn outputWidth outputHeight = .ok pl' ∧
      pl'.matrix = translation ((outputWidth.toNat - (pl.box.minx + pl.box.maxx)) / 2)
        ((outputHeight.toNat - (pl.box.miny + pl.box.maxy)) / 2) * pl.matrix := by
  have hx : -pl.box.minx + (outputWidth.toNat - (pl.box.maxx - pl.box.minx)) / 2 =
      (outputWidth.toNat - (pl.box.minx + pl.box.maxx)) / 2 := by ring
  have hy : -pl.box.miny + (outputHeight.toNat - (pl.box.maxy - pl.box.miny)) / 2 =
      (outputHeight.toNat - (pl.box.miny + pl.box.maxy)) / 2 := by ring
  rw [← hx, ← hy, centerIn]
  simp only [Corners.mulBy_of_affine (affine_translation _ _), matmul_eq, Loop.ok_bind]
  exact ⟨_, rfl, rfl⟩

end Output

/-! ### Where the image is -/

/-- **A box is in the output as the resize mode says.** -/
def Fitted (mode : ResizeMode) (b : Box K) (width height : K) : Prop :=
  match mode with
  | .NONE => True
  | .STRETCH => b = ⟨0, width, 0, height⟩
  | .LETTERBOX => (0 ≤ b.minx ∧ b.maxx ≤ width ∧ 0 ≤ b.miny ∧ b.maxy ≤ height) ∧
      (b.minx = 0 ∧ b.maxx = width ∨ b.miny = 0 ∧ b.maxy = height)
  | .CENTER_CROP => (b.minx ≤ 0 ∧ width ≤ b.maxx ∧ b.miny ≤ 0 ∧ height ≤ b.maxy) ∧
      (b.minx = 0 ∧ b.maxx = width ∨ b.miny = 0 ∧ b.maxy = height)

/-- A matrix scales all lengths by one factor. -/
def OneFactor (M : Matrix3 K) : Prop :=
  ∃ k, 0 < k ∧ ∀ p p', sqNorm (image M p - image M p') = k * sqNorm (p - p')

/-- **The image is placed**: the box around it is centred in the output and fitted as the resize
mode says, and a mode that keeps the ratio of the sides scales by one factor. -/
def Placed (mode : ResizeMode) (inputWidth inputHeight : UInt32)
    (full : FullTransform K (Matrix3 K)) : Prop :=
  let outputW : K := full.outputWidth.toNat
  let outputH : K := full.outputHeight.toNat
  ∃ b, IsBoxOf (image full.matrix '' frame (inputWidth.toNat : K) inputHeight.toNat) b ∧
    (b.minx + b.maxx = outputW ∧ b.miny + b.maxy = outputH) ∧
    Fitted mode b outputW outputH ∧
    (mode = .LETTERBOX ∨ mode = .CENTER_CROP → OneFactor full.matrix)

section Place

variable [IsStrictOrderedRing K]

/-- A box in the middle of the output that is scaled by the factors of its mode is fitted. -/
theorem fitted_of_factors (mode : ResizeMode) {width height x y : K} (hx : 0 < x) (hy : 0 < y)
    {f : K × K} (hf : f = factors mode (width / (2 * x)) (height / (2 * y))) :
    Fitted mode ⟨width / 2 - f.1 * x, width / 2 + f.1 * x, height / 2 - f.2 * y,
      height / 2 + f.2 * y⟩ width height := by
  have hwidth : width / (2 * x) * x = width / 2 := by field_simp
  have hheight : height / (2 * y) * y = height / 2 := by field_simp
  subst hf
  cases mode with
  | NONE => trivial
  | STRETCH =>
    simp only [Fitted, factors, hwidth, hheight]
    ext <;> ring
  | LETTERBOX =>
    have hlex := mul_le_mul_of_nonneg_right (min_le_left (width / (2 * x)) (height / (2 * y))) hx.le
    have hley :=
      mul_le_mul_of_nonneg_right (min_le_right (width / (2 * x)) (height / (2 * y))) hy.le
    rw [hwidth] at hlex
    rw [hheight] at hley
    simp only [Fitted, factors]
    refine ⟨⟨by linarith, by linarith, by linarith, by linarith⟩, ?_⟩
    rcases min_choice (width / (2 * x)) (height / (2 * y)) with h | h <;> rw [h]
    · exact .inl ⟨by rw [hwidth, sub_self], by rw [hwidth, add_halves]⟩
    · exact .inr ⟨by rw [hheight, sub_self], by rw [hheight, add_halves]⟩
  | CENTER_CROP =>
    have hlex := mul_le_mul_of_nonneg_right (le_max_left (width / (2 * x)) (height / (2 * y))) hx.le
    have hley :=
      mul_le_mul_of_nonneg_right (le_max_right (width / (2 * x)) (height / (2 * y))) hy.le
    rw [hwidth] at hlex
    rw [hheight] at hley
    simp only [Fitted, factors]
    refine ⟨⟨by linarith, by linarith, by linarith, by linarith⟩, ?_⟩
    rcases max_choice (width / (2 * x)) (height / (2 * y)) with h | h <;> rw [h]
    · exact .inl ⟨by rw [hwidth, sub_self], by rw [hwidth, add_halves]⟩
    · exact .inr ⟨by rw [hheight, sub_self], by rw [hheight, add_halves]⟩

/-- What the modes that keep the ratio of the sides do to lengths. -/
theorem oneFactor_of_multiple {k : K} {Q M : Matrix3 K} (h : Multiple k Q M) (hQ : Isometry Q)
    (hk : k ≠ 0) {f : K} (hf : 0 < f) (x y : K) :
    OneFactor (translation x y * (scaling f f * M)) := by
  have hscaled : Affine (scaling f f * M) := (affine_scaling f f).mul h.toAffine
  have hplaced : Affine (translation x y * (scaling f f * M)) :=
    (affine_translation x y).mul hscaled
  refine ⟨(f * k) ^ 2, by positivity, fun p p' => ?_⟩
  rw [hplaced.image_eq, hplaced.image_eq, add_sub_add_right_eq_sub, ← map_sub, hscaled.linear_mul,
    h.toAffine.linear_mul, linear_translation, linear_scaling, mul_pow, mul_assoc,
    ← h.sqNorm_eq hQ]
  simp only [sqNorm]
  ring

theorem max_abs_mul {f : K} (hf : 0 ≤ f) (a b : K) : max |f * a| |f * b| = f * max |a| |b| := by
  rw [abs_mul, abs_mul, abs_of_nonneg hf, mul_max_of_nonneg _ _ hf]

/-- **The box around the image** after it is scaled and moved. -/
theorem isBoxOf_placed {M : Matrix3 K} (hM : Affine M) {width height : K} (hwidth : 0 ≤ width)
    (hheight : 0 ≤ height) {f : K × K} (hf1 : 0 ≤ f.1) (hf2 : 0 ≤ f.2) {r c : K × K}
    (hr : r = reach (linear M (toFirst width height)) (linear M (toSecond width height)))
    (hc : c = image (scaling f.1 f.2) (image M (middle width height))) (x y : K) :
    IsBoxOf (image (translation x y * (scaling f.1 f.2 * M)) '' frame width height)
      ⟨c.1 + x - f.1 * r.1, c.1 + x + f.1 * r.1, c.2 + y - f.2 * r.2, c.2 + y + f.2 * r.2⟩ := by
  have hscaled : Affine (scaling f.1 f.2 * M) := (affine_scaling _ _).mul hM
  have hplaced : Affine (translation x y * (scaling f.1 f.2 * M)) :=
    (affine_translation x y).mul hscaled
  have hmiddle : image (translation x y * (scaling f.1 f.2 * M)) (middle width height) =
      c + (x, y) := by
    rw [← hscaled.image_image, ← hM.image_image, image_translation, hc]
  have hlinear : ∀ v, linear (translation x y * (scaling f.1 f.2 * M)) v =
      (f.1 * (linear M v).1, f.2 * (linear M v).2) := by
    intro v
    rw [hscaled.linear_mul, hM.linear_mul, linear_translation, linear_scaling]
  have hbox := isBoxOf_image_frame hplaced hwidth hheight
  rw [hmiddle, hlinear, hlinear] at hbox
  simpa only [boxOf, max_abs_mul hf1, max_abs_mul hf2, hr, reach, Prod.fst_add, Prod.snd_add]
    using hbox

/-- **When the image is placed**: when the box by which it was centred has the middle of the image
in its middle. -/
theorem placed_iff_around {mode : ResizeMode} {inputWidth inputHeight : UInt32}
    {full : FullTransform K (Matrix3 K)} {k : K} {Q M : Matrix3 K} (hM : Multiple k Q M)
    (hQ : Isometry Q) (hk : k ≠ 0) (hinW : 0 < inputWidth) (hinH : 0 < inputHeight)
    (houtW : 0 < full.outputWidth) (houtH : 0 < full.outputHeight) {r f : K × K} {b : Box K}
    (hr : r = reach (linear M (toFirst (inputWidth.toNat : K) inputHeight.toNat))
      (linear M (toSecond (inputWidth.toNat : K) inputHeight.toNat)))
    (hf : f = factors mode (full.outputWidth.toNat / (2 * r.1))
      (full.outputHeight.toNat / (2 * r.2)))
    (hmatrix : full.matrix = translation ((full.outputWidth.toNat - (b.minx + b.maxx)) / 2)
      ((full.outputHeight.toNat - (b.miny + b.maxy)) / 2) * (scaling f.1 f.2 * M)) :
    Placed mode inputWidth inputHeight full ↔
      b.Around (image (scaling f.1 f.2)
        (image M (middle (inputWidth.toNat : K) inputHeight.toNat))) := by
  have hw := toNat_pos (K := K) hinW
  have hh := toNat_pos (K := K) hinH
  obtain ⟨hr1, hr2⟩ := hM.reach_pos hQ hk hw hh
  have hr1' : 0 < r.1 := hr ▸ hr1
  have hr2' : 0 < r.2 := hr ▸ hr2
  obtain ⟨hf1, hf2⟩ := factors_pos mode (div_pos (toNat_pos houtW) (mul_pos two_pos hr1'))
    (div_pos (toNat_pos houtH) (mul_pos two_pos hr2'))
  rw [← hf] at hf1 hf2
  have hbox := isBoxOf_placed hM.toAffine hw.le hh.le hf1.le hf2.le hr rfl
    ((full.outputWidth.toNat - (b.minx + b.maxx)) / 2)
    ((full.outputHeight.toNat - (b.miny + b.maxy)) / 2)
  rw [← hmatrix] at hbox
  generalize image (scaling f.1 f.2)
    (image M (middle (inputWidth.toNat : K) inputHeight.toNat)) = c at hbox ⊢
  constructor
  · rintro ⟨b', hb', ⟨hx, hy⟩, -⟩
    rw [hb'.unique hbox] at hx hy
    exact ⟨by linear_combination -hx, by linear_combination -hy⟩
  · rintro ⟨hx, hy⟩
    -- the middle of the image is in the middle of the output
    have hcx : c.1 + (full.outputWidth.toNat - (b.minx + b.maxx)) / 2 =
        (full.outputWidth.toNat : K) / 2 := by linear_combination -hx / 2
    have hcy : c.2 + (full.outputHeight.toNat - (b.miny + b.maxy)) / 2 =
        (full.outputHeight.toNat : K) / 2 := by linear_combination -hy / 2
    rw [hcx, hcy] at hbox
    refine ⟨_, hbox, ⟨by ring, by ring⟩, fitted_of_factors mode hr1' hr2' hf, fun hmode => ?_⟩
    have hsame : f.2 = f.1 := by
      rcases hmode with rfl | rfl <;> rw [hf] <;> rfl
    rw [hmatrix, hsame]
    exact oneFactor_of_multiple hM hQ hk hf1 _ _

end Place

/-! ### The configurations that place the image -/

section Full

variable [IsStrictOrderedRing K] [FloorRing K] {num : WarpNumerics K} {base : ImageManipOpsBase K}
  {inputWidth inputHeight : UInt32} {type outputFrameType : ImgFrameType}

/-- **What `getFullTransform` returns** when the size of the output is given. -/
theorem getFullTransform_eq (hkeeps : KeepsRectangles num.toNumerics) (hinW : 0 < inputWidth)
    (hinH : 0 < inputHeight) (houtW : 0 < base.outputWidth) (houtH : 0 < base.outputHeight)
    (hcenter : base.center = true) (heven : needsEven type = false)
    (heven' : needsEven outputFrameType = false)
    (hops : Uniform num (.initial inputWidth inputHeight base.outputWidth base.outputHeight)
      base.operations) :
    ∃ full, ∃ M : Matrix3 K, ∃ k : K, ∃ r f : K × K, ∃ b : Box K,
      getFullTransform num base inputWidth inputHeight type outputFrameType = .ok full ∧
      (full.outputWidth = base.outputWidth ∧ full.outputHeight = base.outputHeight) ∧
      k ≠ 0 ∧ Multiple k (turnOf num.toTrigonometry base.operations) M ∧
      r = reach (linear M (toFirst (inputWidth.toNat : K) inputHeight.toNat))
        (linear M (toSecond (inputWidth.toNat : K) inputHeight.toNat)) ∧
      f = factors base.resizeMode (base.outputWidth.toNat / (2 * r.1))
        (base.outputHeight.toNat / (2 * r.2)) ∧
      full.matrix = translation ((base.outputWidth.toNat - (b.minx + b.maxx)) / 2)
        ((base.outputHeight.toNat - (b.miny + b.maxy)) / 2) * (scaling f.1 f.2 * M) ∧
      (b.Around (image (scaling f.1 f.2)
          (image M (middle (inputWidth.toNat : K) inputHeight.toNat))) ↔
        base.resizeMode = .NONE ∨ Upright num.toTrigonometry base.operations) := by
  have hw := toNat_pos (K := K) hinW
  have hh := toNat_pos (K := K) hinH
  obtain ⟨st, k, hrun, hk, hmultiple, hcorners⟩ := getTransform_follows hkeeps hops
  have hturn := isometry_turnOf num.toTrigonometry base.operations
  have haffine := hmultiple.toAffine
  have hdet := hmultiple.isUnit_det hturn hk
  rw [map_frameCorners haffine] at hcorners
  obtain ⟨hr1, hr2⟩ := hmultiple.reach_pos hturn hk hw hh
  obtain ⟨hf1, hf2⟩ := factors_pos base.resizeMode (div_pos (toNat_pos houtW) (mul_pos two_pos hr1))
    (div_pos (toNat_pos houtH) (mul_pos two_pos hr2))
  obtain ⟨size, hsize, hgiven⟩ := getOutputSizeFromCorners_of_affine (haffine.inv hdet)
    st.imageCorners base.center inputWidth inputHeight base.outputWidth base.outputHeight
  obtain rfl := hgiven houtW houtH
  have hkept : (Placement.mk st.transform st.imageCorners []).imageCorners.toList.Perm _ := hcorners
  obtain ⟨pl, hresize, hmatrix, haround⟩ := Placement.resize_around base
    (by rw [hmultiple.sqNorm_eq hturn, hmultiple.sqNorm_eq hturn, sqNorm_frame]) hkept hr1 hr2
    houtW houtH rfl
  obtain ⟨pl', hcenterIn, hmatrix'⟩ := pl.centerIn_eq base.outputWidth base.outputHeight
  rw [hmatrix] at hmatrix'
  -- nothing that is divided by is zero, up to the corners of the output
  have haffine' : Affine pl'.matrix := by
    rw [hmatrix']
    exact (affine_translation _ _).mul ((affine_scaling _ _).mul haffine)
  have hdet' : IsUnit pl'.matrix.det := by
    rw [hmatrix', det_mul, det_mul, det_translation, det_scaling, one_mul]
    exact ((mul_pos hf1 hf2).ne'.isUnit).mul hdet
  refine ⟨{ matrix := pl'.matrix
            srcCorners := st.srcCorners ++ [image pl'.matrix⁻¹ ∘
              cornersOf (base.outputWidth.toNat : K) base.outputHeight.toNat]
            outputWidth := base.outputWidth
            outputHeight := base.outputHeight
            outputOps := pl'.outputOps }, st.transform, k, _, _, pl.box, ?_, ⟨rfl, rfl⟩, hk,
    hmultiple, rfl, rfl, hmatrix', haround.trans (or_congr_right ?_)⟩
  · rw [getFullTransform, hrun, Loop.ok_bind, getMatrixInverse_eq_ok_iff.2 ⟨hdet, rfl⟩,
      Loop.ok_bind, hsize, Loop.ok_bind]
    show (Placement.resize _ base base.outputWidth base.outputHeight >>= _) = _
    rw [hresize, Loop.ok_bind, if_pos hcenter, hcenterIn]
    show (getMatrixInverse pl'.matrix >>= _) = _
    rw [getMatrixInverse_eq_ok_iff.2 ⟨hdet', rfl⟩, Loop.ok_bind]
    simp only [heven, heven', Bool.or_self, Bool.false_eq_true, if_false,
      Corners.mulBy_of_affine (haffine'.inv hdet'), Loop.ok_bind]
    rfl
  · exact hmultiple.upright_iff hk hw hh

/-- **Which configurations place the image.** Without a resize at the end they all do. With one, it
is those that leave the sides along the axes. -/
theorem getFullTransform_placed_iff (hkeeps : KeepsRectangles num.toNumerics)
    (hinW : 0 < inputWidth) (hinH : 0 < inputHeight) (houtW : 0 < base.outputWidth)
    (houtH : 0 < base.outputHeight) (hcenter : base.center = true) (heven : needsEven type = false)
    (heven' : needsEven outputFrameType = false)
    (hops : Uniform num (.initial inputWidth inputHeight base.outputWidth base.outputHeight)
      base.operations) :
    ∃ full, getFullTransform num base inputWidth inputHeight type outputFrameType = .ok full ∧
      (full.outputWidth = base.outputWidth ∧ full.outputHeight = base.outputHeight) ∧
      (Placed base.resizeMode inputWidth inputHeight full ↔
        base.resizeMode = .NONE ∨ Upright num.toTrigonometry base.operations) := by
  obtain ⟨full, M, k, r, f, b, hfull, ⟨hw, hh⟩, hk, hM, hr, hf, hmatrix, haround⟩ :=
    getFullTransform_eq hkeeps hinW hinH houtW houtH hcenter heven heven' hops
  refine ⟨full, hfull, ⟨hw, hh⟩, ?_⟩
  rw [← hw, ← hh] at hf hmatrix
  rw [← hw] at houtW
  rw [← hh] at houtH
  rw [← haround]
  exact placed_iff_around hM (isometry_turnOf _ _) hk hinW hinH houtW houtH hr hf hmatrix

end Full

/-! ### Turns by an eighth and by a quarter -/

/-- The functions of the C library on the real numbers. -/
noncomputable def realTrigonometry : Trigonometry ℝ where
  pi := Real.pi
  cos := Real.cos
  sin := Real.sin
  cos_sq_add_sin_sq := Real.cos_sq_add_sin_sq

noncomputable instance : Nonempty (RotatedRect ℝ) :=
  ⟨⟨⟨0, 0, false, false⟩, ⟨0, 0, false, false⟩, 0⟩⟩

/-- With a rectangle that has the points as its corners, if there is one. No lens distorts. -/
noncomputable def realNumerics : WarpNumerics ℝ where
  toTrigonometry := realTrigonometry
  getOuterRotatedRect points :=
    Classical.epsilon fun rect => (rect.corners realTrigonometry).Perm points
  distortPerspective point _ := point
  distortFisheye point _ := point
  undistortPerspective point _ := point
  undistortFisheye point _ := point
  getPerspectiveTransform _ _ := 1

theorem exists_polar (x y : ℝ) : ∃ θ s : ℝ, x = s * Real.cos θ ∧ y = s * Real.sin θ := by
  have hre := Complex.norm_mul_cos_arg ⟨x, y⟩
  have him := Complex.norm_mul_sin_arg ⟨x, y⟩
  exact ⟨_, _, hre.symm, him.symm⟩

/-- Two vectors at right angles are multiples of a direction and of the one across. -/
theorem exists_directions {a b : ℝ × ℝ} (h : a.1 * b.1 + a.2 * b.2 = 0) :
    ∃ θ s t : ℝ,
      a = (s * Real.cos θ, s * Real.sin θ) ∧ b = (-(t * Real.sin θ), t * Real.cos θ) := by
  obtain ⟨θ, s, hx, hy⟩ := exists_polar a.1 a.2
  by_cases hs : s = 0
  · -- the first vector is zero, and the second one gives the direction
    obtain ⟨θ', t, hx', hy'⟩ := exists_polar b.2 (-b.1)
    refine ⟨θ', 0, t, Prod.ext ?_ ?_, Prod.ext ?_ hx'⟩
    · rw [hx, hs, zero_mul, zero_mul]
    · rw [hy, hs, zero_mul]
      exact (zero_mul _).symm
    · linear_combination -hy'
  · refine ⟨θ, s, -b.1 * Real.sin θ + b.2 * Real.cos θ, Prod.ext hx hy, Prod.ext ?_ ?_⟩
    all_goals
      have hunit := Real.cos_sq_add_sin_sq θ
      have hacross : b.1 * Real.cos θ + b.2 * Real.sin θ = 0 := by
        refine (mul_eq_zero.1 ?_).resolve_left hs
        rw [← h, hx, hy]
        ring
    · linear_combination -b.1 * hunit + Real.cos θ * hacross
    · linear_combination -b.2 * hunit + Real.sin θ * hacross

theorem keepsRectangles_real : KeepsRectangles realNumerics.toNumerics := by
  rintro points ⟨c, q, u, hnorm, hperm⟩
  refine Classical.epsilon_spec
    (p := fun rect : RotatedRect ℝ => (rect.corners realTrigonometry).Perm points) ?_
  -- the sides are at right angles since the diagonals are of one length
  have hright : (u - q).1 * (-q - u).1 + (u - q).2 * (-q - u).2 = 0 := by
    simp only [sqNorm] at hnorm
    simp only [Prod.fst_sub, Prod.snd_sub, Prod.fst_neg, Prod.snd_neg]
    linear_combination hnorm
  obtain ⟨θ, s, t, ha, hb⟩ := exists_directions hright
  refine ⟨⟨⟨c.1, c.2, false, false⟩, ⟨s, t, false, false⟩, θ * 180 / Real.pi⟩, ?_⟩
  refine .trans (.of_eq ?_) hperm.symm
  have hangle : θ * 180 / Real.pi * Real.pi / 180 = θ := by
    field_simp
  have hax := congrArg Prod.fst ha
  have hay := congrArg Prod.snd ha
  have hbx := congrArg Prod.fst hb
  have hby := congrArg Prod.snd hb
  simp only [Prod.fst_sub, Prod.snd_sub, Prod.fst_neg, Prod.snd_neg] at hax hay hbx hby
  have hqx : q.1 = -(s * Real.cos θ) / 2 + t * Real.sin θ / 2 := by
    linear_combination -(hax + hbx) / 2
  have hqy : q.2 = -(s * Real.sin θ) / 2 - t * Real.cos θ / 2 := by
    linear_combination -(hay + hby) / 2
  have hux : u.1 = s * Real.cos θ / 2 + t * Real.sin θ / 2 := by
    linear_combination (hax - hbx) / 2
  have huy : u.2 = s * Real.sin θ / 2 - t * Real.cos θ / 2 := by
    linear_combination (hay - hby) / 2
  simp only [RotatedRect.corners, RotatedRect.getPoints, realTrigonometry, hangle, List.map_cons,
    List.map_nil, Point2f.coordinates, diagonals, List.cons.injEq, Prod.ext_iff, Prod.fst_add,
    Prod.snd_add, Prod.fst_sub, Prod.snd_sub, hqx, hqy, hux, huy, and_true]
  refine ⟨⟨?_, ?_⟩, ⟨?_, ?_⟩, ⟨?_, ?_⟩, ?_, ?_⟩ <;> ring

/-- A quarter of a turn about the centre and a resize to twice the size, fitted into a square. -/
noncomputable def quarterTurn : ImageManipOpsBase ℝ where
  outputWidth := 100
  outputHeight := 100
  resizeMode := .LETTERBOX
  operations := [.Rotate (Real.pi / 2) true 0 0 false, .Resize 2 2 true .VALUE]

/-- An eighth of a turn about the centre, fitted into a square. -/
noncomputable def eighthTurn : ImageManipOpsBase ℝ where
  outputWidth := 100
  outputHeight := 100
  resizeMode := .LETTERBOX
  operations := [.Rotate (Real.pi / 4) true 0 0 false]

theorem placed_quarterTurn :
    ∃ full, getFullTransform realNumerics quarterTurn 100 50 .RGB888i .RGB888i = .ok full ∧
      Placed .LETTERBOX 100 50 full := by
  have huniform : Uniform realNumerics (.initial 100 50 100 100) quarterTurn.operations := by
    refine ⟨trivial, fun st' _ => ⟨⟨2, two_ne_zero, ?_⟩, fun _ _ => trivial⟩⟩
    simp [getResizeMat, Resize.size]
  have hupright : Upright realTrigonometry quarterTurn.operations := by
    left
    simp [quarterTurn, turnOf, turn, rotation, realTrigonometry]
  obtain ⟨full, hfull, -, hplaced⟩ := @getFullTransform_placed_iff ℝ _ _ _ _ realNumerics
    quarterTurn 100 50 .RGB888i .RGB888i keepsRectangles_real (by decide) (by decide) (by decide)
    (by decide) rfl rfl rfl huniform
  exact ⟨full, hfull, hplaced.2 (.inr hupright)⟩

theorem not_placed_eighthTurn :
    KeepsRectangles realNumerics.toNumerics ∧
      Uniform realNumerics (.initial 100 50 100 100) eighthTurn.operations ∧
      ∃ full, getFullTransform realNumerics eighthTurn 100 50 .RGB888i .RGB888i = .ok full ∧
        ¬Placed .LETTERBOX 100 50 full := by
  have huniform : Uniform realNumerics (.initial 100 50 100 100) eighthTurn.operations :=
    ⟨trivial, fun _ _ => trivial⟩
  have htilted : ¬Upright realTrigonometry eighthTurn.operations := by
    simp [Upright, eighthTurn, turnOf, turn, rotation, realTrigonometry]
  obtain ⟨full, M, k, r, f, b, hfull, ⟨hw, hh⟩, hk, hM, hr, hf, hmatrix, haround⟩ :=
    @getFullTransform_eq ℝ _ _ _ _ realNumerics eighthTurn 100 50 .RGB888i .RGB888i
      keepsRectangles_real (by decide) (by decide) (by decide) (by decide) rfl rfl rfl huniform
  refine ⟨keepsRectangles_real, huniform, full, hfull, ?_⟩
  rw [← hw, ← hh] at hf hmatrix
  have hplaced := placed_iff_around hM (isometry_turnOf _ _) hk (by decide) (by decide)
    (hw ▸ by decide) (hh ▸ by decide) hr hf hmatrix
  intro h
  rcases haround.1 (hplaced.1 h) with hmode | hupright
  · cases hmode
  · exact htilted hupright

end DepthaiCore.ImageManip
