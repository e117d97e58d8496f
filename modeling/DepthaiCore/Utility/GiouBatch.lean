import DepthaiCore.Lib.Boxes
import DepthaiCore.Utility.Associate

/-!
# The generalised intersection over the union of two lists of boxes

`giou_batch` returns the plain values if all enclosing boxes have a positive width and a positive
height, and the generalised ones otherwise. Boxes of positive area have enclosing boxes of positive
area, so between such boxes the generalised values are never returned.
-/

open scoped Numerals

namespace DepthaiCore

namespace ObjectTracker

open Boxes (Span Box)

variable {K : Type} [Field K] [LinearOrder K] (bboxes1 bboxes2 : MatrixXf K)

/-! ### The function -/

/-- `wh`: the areas of the intersections. -/
def wh (i j : ℕ) : K :=
  let xx1 := max (bboxes1 i 0) (bboxes2 j 0)
  let yy1 := max (bboxes1 i 1) (bboxes2 j 1)
  let xx2 := min (bboxes1 i 2) (bboxes2 j 2)
  let yy2 := min (bboxes1 i 3) (bboxes2 j 3)
  max (xx2 - xx1) 0 * max (yy2 - yy1) 0

/-- `wc`: the widths of the enclosing boxes. -/
def wc (i j : ℕ) : K :=
  let xxc1 := min (bboxes1 i 0) (bboxes2 j 0)
  let xxc2 := max (bboxes1 i 2) (bboxes2 j 2)
  xxc2 - xxc1

/-- `hc`: the heights of the enclosing boxes. -/
def hc (i j : ℕ) : K :=
  let yyc1 := min (bboxes1 i 1) (bboxes2 j 1)
  let yyc2 := max (bboxes1 i 3) (bboxes2 j 3)
  yyc2 - yyc1

/-- `(m > 0).all()` for a matrix with a row for each of the first boxes and a column for each of
the second ones. -/
def allPositive (m : ℕ → ℕ → K) : Bool :=
  (List.range bboxes1.rows).all fun i => (List.range bboxes2.rows).all fun j => decide (m i j > 0)

def giou_batch : MatrixXf K where
  rows := bboxes1.rows
  cols := bboxes2.rows
  coeff i j :=
    let iou := iou_batch bboxes1 bboxes2 i j
    if allPositive bboxes1 bboxes2 (wc bboxes1 bboxes2) &&
        allPositive bboxes1 bboxes2 (hc bboxes1 bboxes2) then iou
    else
      let area_enclose := wc bboxes1 bboxes2 i j * hc bboxes1 bboxes2 i j
      let giou := iou - (area_enclose - wh bboxes1 bboxes2 i j) / area_enclose
      (giou + 1) / 2

variable {bboxes1 bboxes2} {i j : ℕ}

theorem allPositive_of {m : ℕ → ℕ → K}
    (h : ∀ i < bboxes1.rows, ∀ j < bboxes2.rows, 0 < m i j) :
    allPositive bboxes1 bboxes2 m = true := by
  rw [allPositive, List.all_eq_true]
  intro i hi
  rw [List.all_eq_true]
  intro j hj
  exact decide_eq_true (h i (List.mem_range.mp hi) j (List.mem_range.mp hj))

/-! ### Rows that are boxes -/

/-- The rows of a matrix are boxes. -/
structure BoxRows (bboxes : MatrixXf K) where
  box : ℕ → Box K
  row : ∀ i < bboxes.rows, bboxes i 0 = (box i).x.lo ∧ bboxes i 1 = (box i).y.lo ∧
    bboxes i 2 = (box i).x.hi ∧ bboxes i 3 = (box i).y.hi

variable (boxes1 : BoxRows bboxes1) (boxes2 : BoxRows bboxes2)

section Rows

variable (hi : i < bboxes1.rows) (hj : j < bboxes2.rows)
include hi hj

theorem iou_batch_eq : iou_batch bboxes1 bboxes2 i j = (boxes1.box i).iou (boxes2.box j) := by
  obtain ⟨h₁, h₂, h₃, h₄⟩ := boxes1.row i hi
  obtain ⟨k₁, k₂, k₃, k₄⟩ := boxes2.row j hj
  rw [iou_batch, h₁, h₂, h₃, h₄, k₁, k₂, k₃, k₄]
  rfl

theorem wc_eq : wc bboxes1 bboxes2 i j = (boxes1.box i).x.hull (boxes2.box j).x := by
  obtain ⟨h₁, -, h₃, -⟩ := boxes1.row i hi
  obtain ⟨k₁, -, k₃, -⟩ := boxes2.row j hj
  rw [wc, h₁, h₃, k₁, k₃]
  rfl

theorem hc_eq : hc bboxes1 bboxes2 i j = (boxes1.box i).y.hull (boxes2.box j).y := by
  obtain ⟨-, h₂, -, h₄⟩ := boxes1.row i hi
  obtain ⟨-, k₂, -, k₄⟩ := boxes2.row j hj
  rw [hc, h₂, h₄, k₂, k₄]
  rfl

end Rows

variable [IsStrictOrderedRing K]

include boxes1 boxes2 in
/-- The enclosing boxes of boxes have a positive width and height. -/
theorem allPositive_enclosing : allPositive bboxes1 bboxes2 (wc bboxes1 bboxes2) = true ∧
    allPositive bboxes1 bboxes2 (hc bboxes1 bboxes2) = true := by
  refine ⟨allPositive_of fun i hi j hj => ?_, allPositive_of fun i hi j hj => ?_⟩
  · rw [wc_eq boxes1 boxes2 hi hj]
    exact Span.hull_pos _ _
  · rw [hc_eq boxes1 boxes2 hi hj]
    exact Span.hull_pos _ _

/-- **For boxes the plain value is returned.** -/
theorem giou_batch_eq_iou (hi : i < bboxes1.rows) (hj : j < bboxes2.rows) :
    giou_batch bboxes1 bboxes2 i j = (boxes1.box i).iou (boxes2.box j) := by
  obtain ⟨hw, hh⟩ := allPositive_enclosing boxes1 boxes2
  have h : giou_batch bboxes1 bboxes2 i j = iou_batch bboxes1 bboxes2 i j :=
    if_pos (Bool.and_eq_true_iff.mpr ⟨hw, hh⟩)
  rw [h, iou_batch_eq boxes1 boxes2 hi hj]

/-- **An entry is the generalised value in the unit interval only between a box and itself.** -/
theorem giou_batch_generalised_iff :
    (∀ i < bboxes1.rows, ∀ j < bboxes2.rows, giou_batch bboxes1 bboxes2 i j =
      ((boxes1.box i).giou (boxes2.box j) + 1) / 2) ↔
      ∀ i < bboxes1.rows, ∀ j < bboxes2.rows, boxes1.box i = boxes2.box j := by
  refine forall₂_congr fun i hi => forall₂_congr fun j hj => ?_
  rw [giou_batch_eq_iou boxes1 boxes2 hi hj]
  exact Box.iou_eq_unitGiou_iff

/-! ### Two boxes side by side -/

/-- The unit square, moved to the right. -/
def squareAt (x : ℚ) : Box ℚ where
  x := ⟨x, x + 1, lt_add_one x⟩
  y := ⟨0, 1, zero_lt_one⟩

/-- A matrix with one row. -/
def oneSquare (x : ℚ) : MatrixXf ℚ where
  rows := 1
  cols := 4
  coeff _ k := [x, 0, x + 1, 1].getD k 0

def oneSquareRows (x : ℚ) : BoxRows (oneSquare x) where
  box _ := squareAt x
  row _ _ := ⟨rfl, rfl, rfl, rfl⟩

theorem giou_batch_generalised_iff_apart :
    (∀ i < 1, ∀ j < 1, giou_batch (oneSquare 0) (oneSquare 2) i j =
      ((squareAt 0).giou (squareAt 2) + 1) / 2) ↔
      ∀ i < 1, ∀ j < 1, squareAt 0 = squareAt 2 :=
  giou_batch_generalised_iff (oneSquareRows 0) (oneSquareRows 2)

/-- Squares that lie apart: the entry is `0`, and the generalised value says how far apart. -/
theorem giou_batch_apart : giou_batch (oneSquare 0) (oneSquare 2) 0 0 = 0 ∧
    ((squareAt 0).giou (squareAt 2) + 1) / 2 = 1 / 3 := by
  decide +kernel

end ObjectTracker

end DepthaiCore
