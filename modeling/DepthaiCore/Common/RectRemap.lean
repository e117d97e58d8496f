import DepthaiCore.Common.Projection

/-!
# Rectangles to another frame

A rectangle goes to another frame by its corners, and comes out as the outer rectangle of where they
go. The corners that `getPoints` returns carry no flag, and neither do the centre and the size of an
outer rectangle. So what the rectangle says of itself is forgotten twice, and the coordinates decide
again: a corner within the first pixel is taken for fractions, and an outer rectangle that is small
is not scaled, or is none at all for `normalize`.
-/

namespace DepthaiCore

open MatrixOps

variable {K : Type} [Field K] [LinearOrder K]

namespace ImgTransformation

/-! ### What the source computes -/

/-- A `size_t` as an `unsigned int`. -/
def toUnsigned (n : ℕ) : ℕ :=
  n % 2 ^ 32

/-- What the two functions on rectangles do, by what they do with a corner. -/
def carryRect (num : Numerics K) (self target : ImgTransformation K)
    (carry : Point2f K → Except Failure (Point2f K)) (rect : RotatedRect K) :
    Except Failure (RotatedRect K) := do
  let normalized ← rect.isNormalized
  let rect ←
    if normalized then rect.denormalize (toUnsigned self.width) (toUnsigned self.height)
    else pure rect
  let points := rect.getPoints num.toTrigonometry
  let vPoints ← points.mapM fun point => do
    let point ← carry point
    return point.coordinates
  let transformed := num.getOuterRotatedRect vPoints
  if normalized then
    transformed.normalize (toUnsigned target.width) (toUnsigned target.height)
  else return transformed

def remapRectTo (num : Numerics K) (self target : ImgTransformation K) (rect : RotatedRect K) :
    Except Failure (RotatedRect K) :=
  carryRect num self target (self.remapPointTo num target) rect

/-- `ImgTransformation::projectRectTo`. It leaves the denormalized rectangle in its argument, which
no caller reads. -/
def projectRectTo (num : Numerics K) (self target : ImgTransformation K) (rect : RotatedRect K)
    (depth : K) : Except Failure (RotatedRect K) :=
  carryRect num self target (fun point => self.projectPointTo num target point depth) rect

end ImgTransformation

/-! ### What should come out -/

namespace RotatedRect

/-- The centre and the size say that they are fractions, or that they are pixels. -/
structure Says (rect : RotatedRect K) (normalized : Bool) : Prop where
  center : rect.center.hasNormalized ∧ rect.center.normalized = normalized
  size : rect.size.hasNormalized ∧ rect.size.normalized = normalized

/-- Neither says anything. -/
structure Unflagged (rect : RotatedRect K) : Prop where
  center : rect.center.hasNormalized = false
  size : rect.size.hasNormalized = false

/-- Where it is. -/
def place (rect : RotatedRect K) : (K × K) × (K × K) × K :=
  (rect.center.coordinates, (rect.size.width, rect.size.height), rect.angle)

/-- The rectangle with all lengths scaled. -/
def scaledBy (rect : RotatedRect K) (x y : K) (normalized : Bool) : RotatedRect K :=
  { rect with
    center := ⟨rect.center.x * x, rect.center.y * y, normalized, true⟩
    size := ⟨rect.size.width * x, rect.size.height * y, normalized, true⟩ }

end RotatedRect

namespace ImgTransformation

/-- The rectangle in pixels. -/
def pixelRect (t : ImgTransformation K) (normalized : Bool) (rect : RotatedRect K) :
    RotatedRect K :=
  if normalized then rect.scaledBy t.width t.height false else rect

/-- The corners as points in pixels. -/
def pixelCorners (num : Numerics K) (t : ImgTransformation K) (normalized : Bool)
    (rect : RotatedRect K) : List (K × K) :=
  ((t.pixelRect normalized rect).getPoints num.toTrigonometry).map Point2f.coordinates

/-- Where the corners go, as points that say that they are pixels. -/
def Images (num : Numerics K) (t : ImgTransformation K)
    (carry : Point2f K → Except Failure (Point2f K)) (normalized : Bool) (rect : RotatedRect K)
    (images : List (K × K)) : Prop :=
  List.Forall₂ (fun corner image => ∃ point, carry ⟨corner.1, corner.2, false, true⟩ = .ok point ∧
    point.coordinates = image) (t.pixelCorners num normalized rect) images

/-- **The outer rectangle of where the corners go**, flagged and scaled like the input. -/
def Carried (num : Numerics K) (u : ImgTransformation K) (normalized : Bool)
    (images : List (K × K)) (result : Except Failure (RotatedRect K)) : Prop :=
  ∃ rect, result = .ok rect ∧ rect.isNormalized = .ok normalized ∧
    rect.place = (if normalized then
      (num.getOuterRotatedRect images).scaledBy (u.width : K)⁻¹ (u.height : K)⁻¹ true
    else num.getOuterRotatedRect images).place

/-- The coordinates of the corners are read as pixels, and the sizes of the frames fit the calls. -/
structure Plain (num : Numerics K) (t u : ImgTransformation K) (normalized : Bool)
    (rect : RotatedRect K) : Prop where
  corners : ∀ corner ∈ t.pixelCorners num normalized rect,
    guessNormalized corner.1 corner.2 = false
  sizes : normalized → t.width < 2 ^ 32 ∧ t.height < 2 ^ 32 ∧ u.width < 2 ^ 32 ∧ u.height < 2 ^ 32

/-- **What is read of an outer rectangle.** Neither its centre nor its size is taken for fractions,
or both are and it makes no difference. -/
def Settled (u : ImgTransformation K) (normalized : Bool) (outer : RotatedRect K) : Prop :=
  guessNormalized outer.center.x outer.center.y = false ∧
      guessNormalized outer.size.width outer.size.height = false ∨
    normalized ∧ guessNormalized outer.center.x outer.center.y = true ∧
      guessNormalized outer.size.width outer.size.height = true ∧
      (outer.scaledBy (u.width : K)⁻¹ (u.height : K)⁻¹ true).place = outer.place

end ImgTransformation

/-! ### What rectangles say -/

namespace RotatedRect

theorem Says.isNormalized {rect : RotatedRect K} {n : Bool} (h : rect.Says n) :
    rect.isNormalized = .ok n := by
  obtain ⟨⟨hcenter, hcenter'⟩, hsize, hsize'⟩ := h
  have hs : rect.size.isNormalized = n := by rw [Size2f.isNormalized, if_pos hsize, hsize']
  have hc : rect.center.isNormalized = n := by rw [Point2f.isNormalized, if_pos hcenter, hcenter']
  rw [RotatedRect.isNormalized, hs, hc, if_neg (not_not_intro rfl)]

omit [LinearOrder K] in
theorem says_scaledBy (rect : RotatedRect K) (x y : K) (n : Bool) : (rect.scaledBy x y n).Says n :=
  ⟨⟨rfl, rfl⟩, rfl, rfl⟩

theorem Unflagged.isNormalized {rect : RotatedRect K} (h : rect.Unflagged) :
    rect.isNormalized =
      if guessNormalized rect.size.width rect.size.height ≠
          guessNormalized rect.center.x rect.center.y then
        .error (.runtimeError
          "Cannot determine normalization as size and center have mixed normalization.")
      else .ok (guessNormalized rect.size.width rect.size.height) := by
  have hs : rect.size.isNormalized = guessNormalized rect.size.width rect.size.height := by
    rw [Size2f.isNormalized, h.size, if_neg (by simp)]
  have hc : rect.center.isNormalized = guessNormalized rect.center.x rect.center.y := by
    rw [Point2f.isNormalized, h.center, if_neg (by simp)]
  rw [RotatedRect.isNormalized, hs, hc]

theorem denormalize_eq {rect : RotatedRect K} (h : rect.isNormalized = .ok true) {width height : ℕ}
    (hwidth : width ≠ 0) (hheight : height ≠ 0) :
    rect.denormalize width height = .ok (rect.scaledBy width height false) := by
  rw [denormalize, if_neg (not_or.2 ⟨hwidth, hheight⟩), h]
  rfl

theorem normalize_eq (rect : RotatedRect K) {width height : ℕ} (hwidth : width ≠ 0)
    (hheight : height ≠ 0) : rect.normalize width height =
      rect.isNormalized >>= fun normalized =>
        if normalized then .ok rect
        else .ok (rect.scaledBy (width : K)⁻¹ (height : K)⁻¹ true) := by
  rw [normalize, if_neg (not_or.2 ⟨hwidth, hheight⟩)]
  simp only [scaledBy, ← div_eq_mul_inv]
  rfl

omit [LinearOrder K] in
theorem hasNormalized_getPoints (trig : Trigonometry K) (rect : RotatedRect K) :
    ∀ point ∈ rect.getPoints trig, point.hasNormalized = false := by
  intro point hpoint
  obtain ⟨q, -, rfl⟩ := List.mem_map.1 hpoint
  rfl

end RotatedRect

namespace ImgTransformation

section Carry

variable {num : Numerics K} {t u : ImgTransformation K} {n : Bool} {rect : RotatedRect K}
  {carry : Point2f K → Except Failure (Point2f K)} {images : List (K × K)}

theorem toUnsigned_of_lt {k : ℕ} (h : k < 2 ^ 32) : toUnsigned k = k :=
  Nat.mod_eq_of_lt h

/-! ### Points -/

/-- What a point goes to depends on its coordinates and on how they are read. -/
def Reads (carry : Point2f K → Except Failure (Point2f K)) : Prop :=
  ∀ p q : Point2f K, p.coordinates = q.coordinates → p.isNormalized = q.isNormalized →
    carry p = carry q

theorem pixel_eq_of_coordinates {p q : Point2f K} (h : p.coordinates = q.coordinates)
    (hread : p.isNormalized = q.isNormalized) : t.pixel p = t.pixel q := by
  obtain ⟨hx, hy⟩ := Prod.mk.inj h
  rw [pixel, pixel, hread, h, hx, hy]

theorem reads_remapPointTo : Reads (t.remapPointTo num u) := by
  intro p q h hread
  rw [remapPointTo_eq_remapPixel, remapPointTo_eq_remapPixel, pixel_eq_of_coordinates h hread,
    hread]

theorem reads_projectPointTo (depth : K) :
    Reads fun point => t.projectPointTo num u point depth := by
  intro p q h hread
  have htarget : t.target3dPoint num u p depth = t.target3dPoint num u q depth := by
    rcases le_or_gt depth 0 with hle | hpos
    · rw [target3dPoint, target3dPoint, if_pos hle, if_pos hle]
      rfl
    · rw [target3dPoint_eq_spacePixel p hpos, target3dPoint_eq_spacePixel q hpos,
        pixel_eq_of_coordinates h hread]
  dsimp only
  rw [projectPointTo_eq_seenPixel, projectPointTo_eq_seenPixel, htarget, hread]

/-! ### Corners -/

/-- **The corners go where they should** if none is taken for fractions. -/
theorem Images.mapM_eq (himages : Images num t carry n rect images) (hreads : Reads carry)
    (hplain : ∀ corner ∈ t.pixelCorners num n rect, guessNormalized corner.1 corner.2 = false) :
    ((t.pixelRect n rect).getPoints num.toTrigonometry).mapM (fun point => do
      let point ← carry point
      return point.coordinates) = .ok images := by
  obtain ⟨hlength, hgo⟩ := List.forall₂_iff_zip.1 (List.forall₂_map_left_iff.1 himages)
  refine Loop.mapM_eq_ok_iff.2 (List.forall₂_iff_zip.2 ⟨hlength, fun {point image} hmem => ?_⟩)
  obtain ⟨hpoint, -⟩ := List.of_mem_zip hmem
  obtain ⟨q, hq, rfl⟩ := hgo hmem
  have hguess := hplain _ (List.mem_map_of_mem hpoint)
  have hread : point.isNormalized = false := by
    rw [Point2f.isNormalized, RotatedRect.hasNormalized_getPoints _ _ _ hpoint, if_neg (by simp)]
    exact hguess
  rw [hreads point ⟨point.x, point.y, false, true⟩ rfl hread]
  exact Loop.bind_eq_ok.2 ⟨q, hq, rfl⟩

theorem carryRect_eq (hread : rect.isNormalized = .ok n) (ht : t.isValid)
    (hsizes : n → t.width < 2 ^ 32 ∧ t.height < 2 ^ 32)
    (hgo : ((t.pixelRect n rect).getPoints num.toTrigonometry).mapM (fun point => do
      let point ← carry point
      return point.coordinates) = .ok images) :
    carryRect num t u carry rect =
      if n then
        (num.getOuterRotatedRect images).normalize (toUnsigned u.width) (toUnsigned u.height)
      else .ok (num.getOuterRotatedRect images) := by
  obtain ⟨-, -, hwidth, hheight⟩ := of_decide_eq_true ht
  rw [carryRect, hread, Loop.ok_bind]
  cases n with
  | false =>
    rw [pixelRect, if_neg (by simp)] at hgo
    simp only [Bool.false_eq_true, if_false, pure_bind, hgo, Loop.ok_bind]
    rfl
  | true =>
    obtain ⟨hwidth', hheight'⟩ := hsizes rfl
    rw [pixelRect, if_pos rfl] at hgo
    rw [toUnsigned_of_lt hwidth', toUnsigned_of_lt hheight', if_pos rfl, if_pos rfl,
      RotatedRect.denormalize_eq hread hwidth.ne' hheight.ne', Loop.ok_bind]
    dsimp only
    rw [hgo, Loop.ok_bind, if_pos rfl]

/-- **Which rectangles are carried**, of those whose corners are read as pixels. -/
theorem carried_iff_settled (hmeans : rect.Says n) (ht : t.isValid) (hu : u.isValid)
    (hreads : Reads carry) (hunflagged : (num.getOuterRotatedRect images).Unflagged)
    (himages : Images num t carry n rect images) (hplain : Plain num t u n rect) :
    Carried num u n images (carryRect num t u carry rect) ↔
      Settled u n (num.getOuterRotatedRect images) := by
  rw [carryRect_eq hmeans.isNormalized ht (fun hn => ⟨(hplain.sizes hn).1, (hplain.sizes hn).2.1⟩)
    (himages.mapM_eq hreads hplain.corners), Carried, Settled]
  obtain ⟨-, -, hwidth, hheight⟩ := of_decide_eq_true hu
  generalize num.getOuterRotatedRect images = outer at hunflagged
  have hread := hunflagged.isNormalized
  cases n with
  | false =>
    rw [if_neg (by simp), if_neg (by simp)]
    constructor
    · rintro ⟨result, hresult, hnormalized, -⟩
      obtain rfl := Except.ok.inj hresult
      rw [hread] at hnormalized
      split_ifs at hnormalized with hmixed
      have hsize := Except.ok.inj hnormalized
      exact .inl ⟨(not_not.1 hmixed).symm.trans hsize, hsize⟩
    · rintro (⟨hcenter, hsize⟩ | ⟨hfalse, -⟩)
      · refine ⟨outer, rfl, ?_, rfl⟩
        rw [hread, hsize, hcenter, if_neg (by simp)]
      · cases hfalse
  | true =>
    obtain ⟨-, -, hwidth', hheight'⟩ := hplain.sizes rfl
    rw [if_pos rfl, if_pos rfl, toUnsigned_of_lt hwidth', toUnsigned_of_lt hheight',
      RotatedRect.normalize_eq _ hwidth.ne' hheight.ne', hread]
    cases hcenter : guessNormalized outer.center.x outer.center.y <;>
      cases hsize : guessNormalized outer.size.width outer.size.height
    · -- neither is taken for fractions, and the rectangle is scaled
      refine iff_of_true ⟨_, rfl, (RotatedRect.says_scaledBy _ _ _ _).isNormalized, rfl⟩
        (.inl ⟨rfl, rfl⟩)
    · rw [if_pos (by simp)]
      refine iff_of_false (fun ⟨_, h, _⟩ => by cases h) (by simp)
    · rw [if_pos (by simp)]
      refine iff_of_false (fun ⟨_, h, _⟩ => by cases h) (by simp)
    · -- both are, and it comes out as it is
      constructor
      · rintro ⟨result, hresult, -, hplace⟩
        obtain rfl := Except.ok.inj hresult
        exact .inr ⟨rfl, rfl, rfl, hplace.symm⟩
      · rintro (⟨hfalse, -⟩ | ⟨-, -, -, hplace⟩)
        · cases hfalse
        · refine ⟨outer, rfl, ?_, hplace.symm⟩
          rw [hread, hsize, hcenter, if_neg (by simp)]
end Carry

/-- **Which rectangles are carried.** The frames are valid, the rectangle says what it is, and its
corners are read as pixels and go somewhere as pixels. Then the outer rectangle of where they go
comes out, flagged and scaled like the input, exactly if its coordinates are read as they are meant.
-/
theorem carried_iff {num : Numerics K} {t u : ImgTransformation K} {n : Bool} {rect : RotatedRect K}
    (ht : t.isValid) (hu : u.isValid)
    (hunflagged : ∀ points, (num.getOuterRotatedRect points).Unflagged) (hmeans : rect.Says n)
    (hplain : Plain num t u n rect) :
    (∀ images, Images num t (t.remapPointTo num u) n rect images →
      (Carried num u n images (t.remapRectTo num u rect) ↔
        Settled u n (num.getOuterRotatedRect images))) ∧
    (∀ depth images, Images num t (fun point => t.projectPointTo num u point depth) n rect images →
      (Carried num u n images (t.projectRectTo num u rect depth) ↔
        Settled u n (num.getOuterRotatedRect images))) :=
  ⟨fun images himages => carried_iff_settled hmeans ht hu reads_remapPointTo (hunflagged images)
      himages hplain,
    fun depth images himages => carried_iff_settled hmeans ht hu (reads_projectPointTo depth)
      (hunflagged images) himages hplain⟩

/-! ### Boxes -/

/-- A box in the middle of a frame, by fractions. -/
def middleBox : RotatedRect ℚ :=
  ⟨⟨1 / 2, 1 / 2, true, true⟩, ⟨1 / 4, 1 / 4, true, true⟩, 0⟩

theorem images_middleBox : Images sampleNumerics wholeFrame
    (wholeFrame.remapPointTo sampleNumerics croppedFrame) true middleBox
    [(65, 65), (115, 65), (115, 115), (65, 115)] := by
  have hcorners : wholeFrame.pixelCorners sampleNumerics true middleBox =
      [(75, 75), (125, 75), (125, 125), (75, 125)] := by decide +kernel
  rw [Images, hcorners]
  exact .cons ⟨{ x := 65, y := 65 }, by decide +kernel, rfl⟩ (.cons ⟨{ x := 115, y := 65 },
    by decide +kernel, rfl⟩ (.cons ⟨{ x := 115, y := 115 }, by decide +kernel, rfl⟩ (.cons
      ⟨{ x := 65, y := 115 }, by decide +kernel, rfl⟩ .nil)))

/-- It comes out of a crop as it should. -/
theorem carried_iff_middleBox : Carried sampleNumerics croppedFrame true
    [(65, 65), (115, 65), (115, 115), (65, 115)]
    (wholeFrame.remapRectTo sampleNumerics croppedFrame middleBox) := by
  have hwhole : wholeFrame.isValid := by decide +kernel
  have hcropped : croppedFrame.isValid := by decide +kernel
  have hplain : Plain sampleNumerics wholeFrame croppedFrame true middleBox :=
    ⟨by decide +kernel, fun _ => by decide +kernel⟩
  have hsettled : Settled croppedFrame true (sampleNumerics.getOuterRotatedRect
      [(65, 65), (115, 65), (115, 115), (65, 115)]) :=
    .inl ⟨by decide +kernel, by decide +kernel⟩
  have hunflagged : ∀ points, (sampleNumerics.getOuterRotatedRect points).Unflagged :=
    fun _ => ⟨rfl, rfl⟩
  have hmeans : middleBox.Says true := ⟨⟨rfl, rfl⟩, rfl, rfl⟩
  have hboth := carried_iff hwhole hcropped hunflagged hmeans hplain
  exact (hboth.1 _ images_middleBox).2 hsettled

/-- A box of less than a pixel in the middle of a frame, by fractions. -/
def tinyBox : RotatedRect ℚ :=
  ⟨⟨1 / 2, 1 / 2, true, true⟩, ⟨1 / 1000, 1 / 1000, true, true⟩, 0⟩

/-- A box within the first pixel of a frame. -/
def firstBox : RotatedRect ℚ :=
  ⟨⟨1 / 2, 1 / 2, false, true⟩, ⟨1 / 2, 1 / 2, false, true⟩, 0⟩

theorem images_tinyBox : Images sampleNumerics wholeFrame
    (wholeFrame.remapPointTo sampleNumerics croppedFrame) true tinyBox
    [(899 / 10, 899 / 10), (901 / 10, 899 / 10), (901 / 10, 901 / 10), (899 / 10, 901 / 10)] := by
  have hcorners : wholeFrame.pixelCorners sampleNumerics true tinyBox =
      [(999 / 10, 999 / 10), (1001 / 10, 999 / 10), (1001 / 10, 1001 / 10),
        (999 / 10, 1001 / 10)] := by decide +kernel
  rw [Images, hcorners]
  exact .cons ⟨{ x := 899 / 10, y := 899 / 10 }, by decide +kernel, rfl⟩
    (.cons ⟨{ x := 901 / 10, y := 899 / 10 }, by decide +kernel, rfl⟩
      (.cons ⟨{ x := 901 / 10, y := 901 / 10 }, by decide +kernel, rfl⟩
        (.cons ⟨{ x := 899 / 10, y := 901 / 10 }, by decide +kernel, rfl⟩ .nil)))

theorem images_firstBox : Images sampleNumerics wholeFrame
    (wholeFrame.remapPointTo sampleNumerics croppedFrame) false firstBox
    [(-39 / 4, -39 / 4), (-37 / 4, -39 / 4), (-37 / 4, -37 / 4), (-39 / 4, -37 / 4)] := by
  have hcorners : wholeFrame.pixelCorners sampleNumerics false firstBox =
      [(1 / 4, 1 / 4), (3 / 4, 1 / 4), (3 / 4, 3 / 4), (1 / 4, 3 / 4)] := by decide +kernel
  rw [Images, hcorners]
  exact .cons ⟨{ x := -39 / 4, y := -39 / 4 }, by decide +kernel, rfl⟩
    (.cons ⟨{ x := -37 / 4, y := -39 / 4 }, by decide +kernel, rfl⟩
      (.cons ⟨{ x := -37 / 4, y := -37 / 4 }, by decide +kernel, rfl⟩
        (.cons ⟨{ x := -39 / 4, y := -37 / 4 }, by decide +kernel, rfl⟩ .nil)))

/-- **Boxes that are guessed.** The outer rectangle of a box of less than a pixel has a size that is
taken for fractions and a centre that is not. A box within the first pixel comes out by the
fractions that its corners are taken for. -/
theorem not_carried :
    (tinyBox.Says true ∧ Images sampleNumerics wholeFrame
      (wholeFrame.remapPointTo sampleNumerics croppedFrame) true tinyBox
      [(899 / 10, 899 / 10), (901 / 10, 899 / 10), (901 / 10, 901 / 10), (899 / 10, 901 / 10)] ∧
      wholeFrame.remapRectTo sampleNumerics croppedFrame tinyBox = .error (.runtimeError
        "Cannot determine normalization as size and center have mixed normalization.")) ∧
    firstBox.Says false ∧ Images sampleNumerics wholeFrame
      (wholeFrame.remapPointTo sampleNumerics croppedFrame) false firstBox
      [(-39 / 4, -39 / 4), (-37 / 4, -39 / 4), (-37 / 4, -37 / 4), (-39 / 4, -37 / 4)] ∧
      wholeFrame.remapRectTo sampleNumerics croppedFrame firstBox =
        .ok ⟨{ x := 9 / 10, y := 9 / 10 }, { width := 1, height := 1 }, 0⟩ :=
  ⟨⟨⟨⟨rfl, rfl⟩, rfl, rfl⟩, images_tinyBox, by decide +kernel⟩, ⟨⟨rfl, rfl⟩, rfl, rfl⟩,
    images_firstBox, by decide +kernel⟩

end ImgTransformation

end DepthaiCore
