import DepthaiCore.Common.ImgTransformation
import DepthaiCore.Lib.Loops
import DepthaiCore.Lib.Rectangles
import DepthaiCore.Utility.ImageManip

/-!
# The matrix of an image manipulation

`getFullTransform` goes through the operations of a configuration. Beside the matrix it keeps the
corners of the image, as those of the rectangle that is fitted around where the operation takes
them. By these corners it then resizes to the output and moves to its centre.

The arithmetic is exact. A float that becomes a size is cut down to a whole number, and is negative
for none. The functions of the C library, the rectangle around points and the map of four points to
four others are a parameter.
-/

open scoped Numerals

namespace DepthaiCore.ImageManip

open MatrixOps Rectangles Matrix

variable {K : Type} [Field K]

/-- The functions of the source on floats, and the map of four points to four others. -/
structure WarpNumerics (K : Type) [Field K] extends Numerics K where
  getPerspectiveTransform : Corners K → Corners K → Matrix3 K

/-! ### Matrices and corners -/

def matmul (A B : Matrix3 K) : Matrix3 K :=
  fun i j => A i 0 * B 0 j + A i 1 * B 1 j + A i 2 * B 2 j

def matvecmul [DecidableEq K] (M : Matrix3 K) (vec : K × K) : Except Failure (K × K) := do
  let x := M 0 0 * vec.1 + M 0 1 * vec.2 + M 0 2
  let y := M 1 0 * vec.1 + M 1 1 * vec.2 + M 1 2
  let z := M 2 0 * vec.1 + M 2 1 * vec.2 + M 2 2
  return (← quotient x z, ← quotient y z)

theorem matmul_eq (A B : Matrix3 K) : matmul A B = A * B := by
  funext i j
  rw [matmul, Matrix.mul_apply, Fin.sum_univ_three]

theorem matvecmul_of_affine [DecidableEq K] {M : Matrix3 K} (h : Affine M) (p : K × K) :
    matvecmul M p = .ok (Homography.image M p) := by
  have hx : M 0 0 * p.1 + M 0 1 * p.2 + M 0 2 = (linear M p + shift M).1 := rfl
  have hy : M 1 0 * p.1 + M 1 1 * p.2 + M 1 2 = (linear M p + shift M).2 := rfl
  have hz : M 2 0 * p.1 + M 2 1 * p.2 + M 2 2 = 1 := by
    rw [h.zero, h.one, h.two]
    ring
  rw [matvecmul, hx, hy, hz, quotient, quotient, if_neg one_ne_zero, if_neg one_ne_zero, div_one,
    div_one, h.image_eq]
  rfl

/-- A matrix that moves every point by one vector. -/
def translation (x y : K) : Matrix3 K :=
  !![1, 0, x; 0, 1, y; 0, 0, 1]

/-- A matrix that scales along the axes. -/
def scaling (x y : K) : Matrix3 K :=
  !![x, 0, 0; 0, y, 0; 0, 0, 1]

/-- A matrix that turns by an angle. -/
def rotation (trig : Trigonometry K) (angle : K) : Matrix3 K :=
  !![trig.cos angle, -trig.sin angle, 0; trig.sin angle, trig.cos angle, 0; 0, 0, 1]

theorem affine_translation (x y : K) : Affine (translation x y) := ⟨rfl, rfl, rfl⟩

theorem affine_scaling (x y : K) : Affine (scaling x y) := ⟨rfl, rfl, rfl⟩

theorem affine_rotation (trig : Trigonometry K) (angle : K) : Affine (rotation trig angle) :=
  ⟨rfl, rfl, rfl⟩

@[simp] theorem linear_translation (x y : K) (v : K × K) : linear (translation x y) v = v := by
  simp [linear_apply, translation]

@[simp] theorem linear_scaling (x y : K) (v : K × K) :
    linear (scaling x y) v = (x * v.1, y * v.2) := by
  simp [linear_apply, scaling]

theorem det_translation (x y : K) : (translation x y).det = 1 := by
  rw [(affine_translation x y).det_eq]
  simp [translation]

theorem det_scaling (x y : K) : (scaling x y).det = x * y := by
  rw [(affine_scaling x y).det_eq]
  simp [scaling]

@[simp] theorem image_translation (x y : K) (p : K × K) :
    Homography.image (translation x y) p = p + (x, y) := by
  rw [(affine_translation x y).image_eq, linear_translation]
  rfl

@[simp] theorem image_scaling (x y : K) (p : K × K) :
    Homography.image (scaling x y) p = (x * p.1, y * p.2) := by
  rw [(affine_scaling x y).image_eq, linear_scaling, shift]
  simp [scaling]

/-- The corners of a rectangle of a size at the origin. -/
def cornersOf (width height : K) : Corners K :=
  ![(0, 0), (width, 0), (width, height), (0, height)]

namespace Corners

/-- The corners as a vector. -/
def toList (corners : Corners K) : List (K × K) :=
  [corners 0, corners 1, corners 2, corners 3]

/-- The first four points of a vector. -/
def ofList (points : List (K × K)) : Corners K :=
  ![points.getD 0 (0, 0), points.getD 1 (0, 0), points.getD 2 (0, 0), points.getD 3 (0, 0)]

/-- Where a matrix takes the corners. -/
def mulBy [DecidableEq K] (corners : Corners K) (M : Matrix3 K) : Except Failure (Corners K) := do
  return ![← matvecmul M (corners 0), ← matvecmul M (corners 1), ← matvecmul M (corners 2),
    ← matvecmul M (corners 3)]

theorem mulBy_of_affine [DecidableEq K] {M : Matrix3 K} (h : Affine M) (corners : Corners K) :
    corners.mulBy M = .ok (Homography.image M ∘ corners) := by
  simp only [mulBy, matvecmul_of_affine h]
  refine congrArg Except.ok (funext fun i => ?_)
  fin_cases i <;> rfl

omit [Field K] in
theorem toList_comp (f : K × K → K × K) (corners : Corners K) :
    toList (f ∘ corners) = (toList corners).map f := rfl

theorem toList_ofList {points : List (K × K)} (h : points.length = 4) :
    toList (ofList points) = points := by
  obtain ⟨p, q, r, t, rfl⟩ := List.length_eq_four.1 h
  rfl

theorem toList_cornersOf (width height : K) :
    toList (cornersOf width height) = frameCorners width height := rfl

end Corners

variable [LinearOrder K]

def getOuterRect (points : List (K × K)) : Box K :=
  let first := points.headD (0, 0)
  points.foldl (fun rect point =>
    { minx := min point.1 rect.minx
      maxx := max point.1 rect.maxx
      miny := min point.2 rect.miny
      maxy := max point.2 rect.maxy }) ⟨first.1, first.1, first.2, first.2⟩

omit [Field K] in
theorem isBoxOf_foldl (points : List (K × K)) {s : Set (K × K)} {b : Box K} (h : IsBoxOf s b) :
    IsBoxOf (s ∪ {p | p ∈ points}) (points.foldl (fun rect point =>
      { minx := min point.1 rect.minx
        maxx := max point.1 rect.maxx
        miny := min point.2 rect.miny
        maxy := max point.2 rect.maxy }) b) := by
  induction points generalizing s b with
  | nil => simpa using h
  | cons p points ih =>
    have hset : s ∪ {q | q ∈ p :: points} = insert p s ∪ {q | q ∈ points} := by
      ext q
      simp only [List.mem_cons, Set.mem_union, Set.mem_ofPred_eq, Set.mem_insert_iff]
      tauto
    rw [hset, List.foldl_cons]
    exact ih (h.insert p)

/-- **What it returns is the box around the points.** -/
theorem isBoxOf_getOuterRect {points : List (K × K)} (h : points ≠ []) :
    IsBoxOf {p | p ∈ points} (getOuterRect points) := by
  obtain ⟨first, rest, rfl⟩ := List.exists_cons_of_ne_nil h
  have hset : ({p | p ∈ first :: rest} : Set (K × K)) = {first} ∪ {p | p ∈ first :: rest} := by
    ext q
    simp
  rw [hset]
  exact isBoxOf_foldl _ (isBoxOf_singleton first)

/-! ### Sizes -/

structure Resize (K : Type) where
  width : K
  height : K
  normalized : Bool := false
  mode : ResizeOpMode := .VALUE

def Resize.fit : Resize K where
  width := 0
  height := 0
  mode := .FIT

def Resize.fill : Resize K where
  width := 0
  height := 0
  mode := .FILL

/-- The operation that resizes so. -/
def Resize.op {K : Type} (o : Resize K) : ManipOp K :=
  .Resize o.width o.height o.normalized o.mode

/-- The size that an image is resized to, or the factors if the operation is by fractions. -/
def Resize.size (o : Resize K) (width height : K) (outputWidth outputHeight : UInt32) :
    Except Failure (K × K) :=
  let outputW : K := outputWidth.toNat
  let outputH : K := outputHeight.toNat
  match o.mode with
  | .VALUE =>
    if 0 < o.width ∧ o.height ≤ 0 then
      if o.normalized then .ok (o.width, o.width)
      else do
        let factor ← quotient o.width width
        .ok (o.width, height * factor)
    else if o.width ≤ 0 ∧ 0 < o.height then
      if o.normalized then .ok (o.height, o.height)
      else do
        let factor ← quotient o.height height
        .ok (width * factor, o.height)
    else .ok (o.width, o.height)
  | mode =>
    if 0 < outputWidth ∧ 0 < outputHeight then do
      let ratio ← quotient width height
      if outputW / outputH > ratio then
        if mode = .FIT then .ok (outputH * ratio, outputH)
        else do
          let h ← quotient outputW ratio
          .ok (outputW, h)
      else
        if mode = .FIT then do
          let h ← quotient outputW ratio
          .ok (outputW, h)
        else .ok (outputH * ratio, outputH)
    else .error (.runtimeError "Neither output size nor resize dimensions are set")

def getResizeMat (o : Resize K) (width height : K) (outputWidth outputHeight : UInt32) :
    Except Failure (Matrix3 K) := do
  let size ← o.size width height outputWidth outputHeight
  if o.normalized then
    return scaling size.1 size.2
  else
    let x ← quotient size.1 width
    let y ← quotient size.2 height
    return scaling x y

section Factors

variable [IsStrictOrderedRing K] {width height : K} {outputWidth outputHeight : UInt32}

theorem toNat_pos {n : UInt32} (h : 0 < n) : (0 : K) < n.toNat :=
  Nat.cast_pos.2 (UInt32.lt_iff_toNat_lt.1 h)

/-- An output is the wider one if its height is what bounds the image. -/
theorem wider_iff (hwidth : 0 < width) (hheight : 0 < height) (houtH : 0 < outputHeight) :
    (outputWidth.toNat : K) / outputHeight.toNat > width / height ↔
      (outputHeight.toNat : K) / height < outputWidth.toNat / width := by
  rw [gt_iff_lt, div_lt_div_iff₀ hheight (toNat_pos houtH), div_lt_div_iff₀ hheight hwidth,
    mul_comm width]

omit [IsStrictOrderedRing K] in
/-- The matrix that resizes to a size that is a multiple of the one before. -/
theorem getResizeMat_of_size {o : Resize K} {x y : K} (hwidth : 0 < width) (hheight : 0 < height)
    (hnormalized : o.normalized = false)
    (hsize : o.size width height outputWidth outputHeight = .ok (x * width, y * height)) :
    getResizeMat o width height outputWidth outputHeight = .ok (scaling x y) := by
  rw [getResizeMat, hsize, Loop.ok_bind, if_neg (by simp [hnormalized]),
    quotient_of_ne hwidth.ne', quotient_of_ne hheight.ne', mul_div_cancel_right₀ _ hwidth.ne',
    mul_div_cancel_right₀ _ hheight.ne']
  rfl

/-- **What fits** is scaled by the smaller factor. -/
theorem getResizeMat_fit (hwidth : 0 < width) (hheight : 0 < height) (houtW : 0 < outputWidth)
    (houtH : 0 < outputHeight) :
    getResizeMat .fit width height outputWidth outputHeight =
      .ok (scaling (min (outputWidth.toNat / width) (outputHeight.toNat / height))
        (min (outputWidth.toNat / width) (outputHeight.toNat / height))) := by
  refine getResizeMat_of_size hwidth hheight rfl ?_
  rw [Resize.size]
  simp only [Resize.fit, if_pos (And.intro houtW houtH), quotient_of_ne hheight.ne',
    quotient_of_ne (div_pos hwidth hheight).ne', Loop.ok_bind, if_true,
    wider_iff hwidth hheight houtH]
  split_ifs with hwider
  · rw [min_eq_right hwider.le]
    field_simp
  · rw [min_eq_left (not_lt.1 hwider)]
    field_simp

/-- **What fills** is scaled by the larger factor. -/
theorem getResizeMat_fill (hwidth : 0 < width) (hheight : 0 < height) (houtW : 0 < outputWidth)
    (houtH : 0 < outputHeight) :
    getResizeMat .fill width height outputWidth outputHeight =
      .ok (scaling (max (outputWidth.toNat / width) (outputHeight.toNat / height))
        (max (outputWidth.toNat / width) (outputHeight.toNat / height))) := by
  refine getResizeMat_of_size hwidth hheight rfl ?_
  rw [Resize.size]
  simp only [Resize.fill, if_pos (And.intro houtW houtH), quotient_of_ne hheight.ne',
    quotient_of_ne (div_pos hwidth hheight).ne', Loop.ok_bind, reduceCtorEq, if_false,
    wider_iff hwidth hheight houtH]
  split_ifs with hwider
  · rw [max_eq_left hwider.le]
    field_simp
  · rw [max_eq_right (not_lt.1 hwider)]
    field_simp

/-- **What stretches** is scaled to the output along each axis. -/
theorem getResizeMat_stretch (hwidth : 0 < width) (hheight : 0 < height) (houtW : 0 < outputWidth)
    (houtH : 0 < outputHeight) :
    getResizeMat ({ width := outputWidth.toNat, height := outputHeight.toNat } : Resize K) width
        height outputWidth outputHeight =
      .ok (scaling (outputWidth.toNat / width) (outputHeight.toNat / height)) := by
  refine getResizeMat_of_size hwidth hheight rfl ?_
  have hw := toNat_pos (K := K) houtW
  have hh := toNat_pos (K := K) houtH
  rw [div_mul_cancel₀ _ hwidth.ne', div_mul_cancel₀ _ hheight.ne', Resize.size]
  simp only [not_le.2 hw, not_le.2 hh, and_false, false_and, if_false]

end Factors

section Rounding

variable [FloorRing K]

def roundf (x : K) : K :=
  if 0 ≤ x then ⌊x + 1 / 2⌋ else ⌈x - 1 / 2⌉

/-- A float as a `size_t`. -/
def toSize (x : K) : ℕ :=
  ⌊x⌋.toNat

def MAX_AUTO_WIDTH : ℕ := 4000

def MAX_AUTO_HEIGHT : ℕ := 3000

/-- The corners of a box. -/
def boxCorners {K : Type} (rect : Box K) : Corners K :=
  ![(rect.minx, rect.miny), (rect.maxx, rect.miny), (rect.maxx, rect.maxy), (rect.minx, rect.maxy)]

/-- `getOutputSizeFromCorners`: the size of the output, where it is not given. -/
def getOutputSizeFromCorners (corners : Corners K) (center : Bool) (transformInv : Matrix3 K)
    (srcWidth srcHeight outputWidth outputHeight : UInt32) : Except Failure (UInt32 × UInt32) := do
  let dst := getOuterRect corners.toList
  let inner : Box K := ⟨⌈dst.minx⌉, ⌊dst.maxx⌋, ⌈dst.miny⌉, ⌊dst.maxy⌋⟩
  let outer : Box K := ⟨roundf dst.minx, roundf dst.maxx, roundf dst.miny, roundf dst.maxy⟩
  let srcInnerCorners ← (boxCorners inner).mulBy transformInv
  let srcOuterCorners ← (boxCorners outer).mulBy transformInv
  let srcInner := getOuterRect srcInnerCorners.toList
  let srcOuter := getOuterRect srcOuterCorners.toList
  let srcW : K := srcWidth.toNat
  let srcH : K := srcHeight.toNat
  let rminx := if srcOuter.minx < 0 ∧ srcInner.minx ≥ 0 then inner.minx else outer.minx
  let rmaxx := if srcOuter.maxx ≥ srcW ∧ srcInner.maxx < srcW then inner.maxx else outer.maxx
  let rminy := if srcOuter.miny < 0 ∧ srcInner.miny ≥ 0 then inner.miny else outer.miny
  let rmaxy := if srcOuter.maxy ≥ srcH ∧ srcInner.maxy < srcH then inner.maxy else outer.maxy
  if 0 < outputWidth ∧ 0 < outputHeight then
    return (outputWidth, outputHeight)
  let autoWidth := toSize (if center then max (rmaxx - rminx) 0 else rmaxx)
  let autoHeight := toSize (if center then max (rmaxy - rminy) 0 else rmaxy)
  return (if outputWidth = 0 then .ofNat (min autoWidth MAX_AUTO_WIDTH) else outputWidth,
    if outputHeight = 0 then .ofNat (min autoHeight MAX_AUTO_HEIGHT) else outputHeight)

/-- **A size that is given stays.** With an inverse that is affine there is always one. -/
theorem getOutputSizeFromCorners_of_affine {transformInv : Matrix3 K} (h : Affine transformInv)
    (corners : Corners K) (center : Bool) (srcWidth srcHeight outputWidth outputHeight : UInt32) :
    ∃ size, getOutputSizeFromCorners corners center transformInv srcWidth srcHeight outputWidth
      outputHeight = .ok size ∧
        (0 < outputWidth → 0 < outputHeight → size = (outputWidth, outputHeight)) := by
  simp only [getOutputSizeFromCorners, Corners.mulBy_of_affine h, Loop.ok_bind]
  by_cases hgiven : 0 < outputWidth ∧ 0 < outputHeight
  · exact ⟨_, if_pos hgiven, fun _ _ => rfl⟩
  · exact ⟨_, if_neg hgiven, fun hw hh => absurd ⟨hw, hh⟩ hgiven⟩

/-! ### The operations -/

/-- What `getTransformImpl` changes. -/
structure TransformState (K : Type) where
  transform : Matrix3 K
  imageCorners : Corners K
  srcCorners : List (Corners K)
  outputWidth : UInt32
  outputHeight : UInt32

/-- The mean of the corners. -/
def TransformState.center (st : TransformState K) : K × K :=
  let c := st.imageCorners
  (((c 0).1 + (c 1).1 + (c 2).1 + (c 3).1) / 4, ((c 0).2 + (c 1).2 + (c 2).2 + (c 3).2) / 4)

/-- A matrix about a point, or about the origin. -/
def about (center : Bool) (moveX moveY : K) (mat : Matrix3 K) : Matrix3 K :=
  let before := if center then translation (-moveX) (-moveY) else 1
  let turned := matmul mat before
  if center then matmul (translation moveX moveY) turned else turned

omit [LinearOrder K] [FloorRing K] in
theorem affine_about {mat : Matrix3 K} (h : Affine mat) (center : Bool) (x y : K) :
    Affine (about center x y mat) := by
  cases center with
  | false => simpa [about, matmul_eq] using h
  | true =>
    simp only [about, matmul_eq, if_true]
    exact (affine_translation x y).mul (h.mul (affine_translation _ _))

omit [LinearOrder K] [FloorRing K] in
/-- About which point it is makes no difference to vectors. -/
theorem linear_about {mat : Matrix3 K} (h : Affine mat) (center : Bool) (x y : K) (v : K × K) :
    linear (about center x y mat) v = linear mat v := by
  cases center with
  | false => simp [about, matmul_eq]
  | true =>
    have hbefore := affine_translation (-x) (-y)
    simp only [about, matmul_eq, if_true]
    rw [(h.mul hbefore).linear_mul, hbefore.linear_mul, linear_translation, linear_translation]

/-- The size that a `Crop` leaves of an image in a box. -/
def cropSize (oWidth oHeight : K) (normalized : Bool) (rect : Box K) : Except Failure (K × K) :=
  let width := rect.maxx - rect.minx
  let height := rect.maxy - rect.miny
  if ¬normalized ∧ (0 < oWidth ∧ oWidth < 1 ∨ 0 < oHeight ∧ oHeight < 1) then
    .error (.runtimeError ("Crop not marked as normalized, but values seem to be normalized " ++
      "(height or width is less than 1)"))
  else
    let oWidth := if normalized then oWidth * width else oWidth
    let oHeight := if normalized then oHeight * height else oHeight
    if 0 < oWidth ∧ oHeight ≤ 0 then do
      let factor ← quotient oWidth width
      .ok (oWidth, roundf (height * factor))
    else if 0 < oHeight ∧ oWidth ≤ 0 then do
      let factor ← quotient oHeight height
      .ok (roundf (width * factor), oHeight)
    else if oHeight ≤ 0 ∧ oWidth ≤ 0 then .ok (roundf rect.maxx, roundf rect.maxy)
    else .ok (oWidth, oHeight)

/-- What a `Crop` does: it moves the image if it is centred, and leaves the corners of what is cut
out in the coordinates of the source. -/
def crop (st : TransformState K) (width height : K) (normalized center : Bool) :
    Except Failure (TransformState K) := do
  let rect := getOuterRect st.imageCorners.toList
  let size ← cropSize width height normalized rect
  let outputWidth := UInt32.ofNat (toSize size.1)
  let outputHeight := UInt32.ofNat (toSize size.2)
  let outputW : K := outputWidth.toNat
  let outputH : K := outputHeight.toNat
  let transform := if center then
      matmul (translation (-rect.minx + (outputW - (rect.maxx - rect.minx)) / 2)
        (-rect.miny + (outputH - (rect.maxy - rect.miny)) / 2)) st.transform
    else st.transform
  let imageCorners := cornersOf outputW outputH
  let transformInv ← getMatrixInverse transform
  let corners ← imageCorners.mulBy transformInv
  return { transform, imageCorners, srcCorners := st.srcCorners ++ [corners], outputWidth,
           outputHeight }

/-- The matrix of an operation, and what it does beside it. -/
def visit (num : WarpNumerics K) (st : TransformState K) :
    ManipOp K → Except Failure (Matrix3 K × TransformState K)
  | .Translate offsetX offsetY normalized =>
    let rect := getOuterRect st.imageCorners.toList
    let offsetX := if normalized then offsetX * (rect.maxx - rect.minx) else offsetX
    let offsetY := if normalized then offsetY * (rect.maxy - rect.miny) else offsetY
    .ok (translation offsetX offsetY, st)
  | .Rotate angle center offsetX offsetY normalized =>
    let rect := getOuterRect st.imageCorners.toList
    let offsetX := if normalized then offsetX * (rect.maxx - rect.minx) else offsetX
    let offsetY := if normalized then offsetY * (rect.maxy - rect.miny) else offsetY
    let c := st.center
    .ok (about center (c.1 + offsetX) (c.2 + offsetY) (rotation num.toTrigonometry angle), st)
  | .Resize width height normalized mode => do
    let rect := getOuterRect st.imageCorners.toList
    let mat ← getResizeMat ⟨width, height, normalized, mode⟩ (rect.maxx - rect.minx)
      (rect.maxy - rect.miny) st.outputWidth st.outputHeight
    .ok (mat, st)
  | .Flip .HORIZONTAL center => .ok (about center st.center.1 st.center.2 (scaling (-1) 1), st)
  | .Flip .VERTICAL center => .ok (about center st.center.1 st.center.2 (scaling 1 (-1)), st)
  | .Affine m => .ok (!![m 0, m 1, 0; m 2, m 3, 0; 0, 0, 1], st)
  | .Perspective m => .ok (!![m 0, m 1, m 2; m 3, m 4, m 5; m 6, m 7, m 8], st)
  | .FourPoints src dst normalized =>
    let rect := getOuterRect st.imageCorners.toList
    let scaled (p : K × K) := if normalized then
      (p.1 * (rect.maxx - rect.minx), p.2 * (rect.maxy - rect.miny)) else p
    .ok (num.getPerspectiveTransform (scaled ∘ src) (scaled ∘ dst), st)
  | .Crop width height normalized center => do
    .ok (1, ← crop st width height normalized center)

def getTransformImpl (num : WarpNumerics K) (st : TransformState K) (op : ManipOp K) :
    Except Failure (TransformState K) := do
  let (mat, st) ← visit num st op
  let corners ← st.imageCorners.mulBy mat
  let outerRectPoints := (num.getOuterRotatedRect corners.toList).corners num.toTrigonometry
  return { st with
    imageCorners := .ofList outerRectPoints
    transform := matmul mat st.transform }

/-- The state before the first operation. -/
def TransformState.initial (inputWidth inputHeight outputWidth outputHeight : UInt32) :
    TransformState K where
  transform := 1
  imageCorners := cornersOf inputWidth.toNat inputHeight.toNat
  srcCorners := []
  outputWidth := outputWidth
  outputHeight := outputHeight

def getTransform (num : WarpNumerics K) (ops : List (ManipOp K))
    (inputWidth inputHeight outputWidth outputHeight : UInt32) :
    Except Failure (TransformState K) :=
  ops.foldlM (getTransformImpl num) (.initial inputWidth inputHeight outputWidth outputHeight)

/-! ### The output -/

/-- A matrix, the corners of the image under it, and the operations that are added at the end. -/
structure Placement (K : Type) where
  matrix : Matrix3 K
  imageCorners : Corners K
  outputOps : List (ManipOp K)

/-- What the image is resized to at the end. -/
def ImageManipOpsBase.resize {K : Type} [Field K] (base : ImageManipOpsBase K)
    (outputWidth outputHeight : UInt32) : Option (Resize K) :=
  match base.resizeMode with
  | .NONE => none
  | .STRETCH => some { width := outputWidth.toNat, height := outputHeight.toNat }
  | .LETTERBOX => some .fit
  | .CENTER_CROP => some .fill

/-- The part of `getFullTransform` that resizes. The last corner is the third one again. -/
def Placement.resizeBy (pl : Placement K) (res : Resize K) (outputWidth outputHeight : UInt32) :
    Except Failure (Placement K) := do
  let rect := getOuterRect pl.imageCorners.toList
  let mat ← getResizeMat res (rect.maxx - rect.minx) (rect.maxy - rect.miny) outputWidth
    outputHeight
  let imageCorners : Corners K := ![← matvecmul mat (pl.imageCorners 0),
    ← matvecmul mat (pl.imageCorners 1), ← matvecmul mat (pl.imageCorners 2),
    ← matvecmul mat (pl.imageCorners 2)]
  return { matrix := matmul mat pl.matrix, imageCorners, outputOps := pl.outputOps ++ [res.op] }

/-- The resize at the end, if there is one. -/
def Placement.resize (pl : Placement K) (base : ImageManipOpsBase K)
    (outputWidth outputHeight : UInt32) : Except Failure (Placement K) :=
  match base.resize outputWidth outputHeight with
  | none => .ok pl
  | some res => pl.resizeBy res outputWidth outputHeight

/-- The part of `getFullTransform` that moves to the centre. -/
def Placement.centerIn (pl : Placement K) (outputWidth outputHeight : UInt32) :
    Except Failure (Placement K) := do
  let width : K := outputWidth.toNat
  let height : K := outputHeight.toNat
  let rect := getOuterRect pl.imageCorners.toList
  let tx := -rect.minx + (width - (rect.maxx - rect.minx)) / 2
  let ty := -rect.miny + (height - (rect.maxy - rect.miny)) / 2
  let mat := translation tx ty
  let imageCorners ← pl.imageCorners.mulBy mat
  return { matrix := matmul mat pl.matrix
           imageCorners
           outputOps := pl.outputOps ++ [.Translate tx ty false] }

/-- A format of which only even sizes are used. -/
def needsEven (type : ImgFrameType) : Bool :=
  type == .NV12 || type == .YUV420p

/-- **`getFullTransform`.** -/
def getFullTransform (num : WarpNumerics K) (base : ImageManipOpsBase K)
    (inputWidth inputHeight : UInt32) (type outputFrameType : ImgFrameType) :
    Except Failure (FullTransform K (Matrix3 K)) := do
  let st ← getTransform num base.operations inputWidth inputHeight base.outputWidth
    base.outputHeight
  let inverse ← getMatrixInverse st.transform
  let (outputWidth, outputHeight) ← getOutputSizeFromCorners st.imageCorners base.center inverse
    inputWidth inputHeight base.outputWidth base.outputHeight
  let placed ← Placement.resize ⟨st.transform, st.imageCorners, []⟩ base outputWidth outputHeight
  let placed ← if base.center then placed.centerIn outputWidth outputHeight else .ok placed
  let matrixInv ← getMatrixInverse placed.matrix
  let even := needsEven type || needsEven outputFrameType
  let outputWidth := if even then outputWidth - outputWidth % 2 else outputWidth
  let outputHeight := if even then outputHeight - outputHeight % 2 else outputHeight
  let corners ← (cornersOf (outputWidth.toNat : K) outputHeight.toNat).mulBy matrixInv
  return { matrix := placed.matrix
           srcCorners := st.srcCorners ++ [corners]
           outputWidth
           outputHeight
           outputOps := placed.outputOps }

end Rounding

end DepthaiCore.ImageManip
