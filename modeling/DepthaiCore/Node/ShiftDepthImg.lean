import DepthaiCore.Lib.Grids
import DepthaiCore.Lib.Painting
import DepthaiCore.Lib.Rounding
import DepthaiCore.Lib.RowMajor
import Mathlib.Data.Rat.Floor
import Mathlib.Data.UInt

/-!
# Shifting a depth image

`shiftDepthImg` moves every pixel of a depth image along its row, the farther the smaller its depth
is, and paints it on two neighbouring pixels. A table has the shift of every depth, and the order of
the loop makes the nearer surface overwrite the other.

The table rounds a shift with `+ 0.5f` and a conversion to `int`. This is the nearest integer when
the shift is to the right. When it is to the left, the conversion goes the other way, and every
shift that rounds to a pixel or more comes out one pixel too short.

The arithmetic is exact. A write outside of its row counts as a fault.
-/

open scoped Numerals

namespace DepthaiCore

namespace ImageAlign

/-! ### The function -/

/-- A write to a pixel that the row does not have. -/
inductive RowFault
  | outside
  deriving DecidableEq, Repr

section Code

variable {K : Type*} [Field K] [LinearOrder K] [FloorRing K]

/-- The entry of `depthLut` for a depth. -/
def depthLut (width : ℕ) (shiftX depthFx : K) (depth : UInt16) : ℤ :=
  if depth = 0 then if 0 < shiftX then width else -width
  else Rounding.trunc (shiftX * depthFx / depth.toNat + 1 / 2)

end Code

/-- `alignedLine[u] = depth`. -/
def store (alignedLine : List UInt16) (u : ℤ) (depth : UInt16) : Except RowFault (List UInt16) :=
  if 0 ≤ u ∧ u < alignedLine.length then .ok (alignedLine.set u.toNat depth) else .error .outside

/-- `currentLine[j]`. -/
def load (currentLine : List UInt16) (j : ℕ) : Except RowFault UInt16 :=
  match currentLine[j]? with
  | some depth => .ok depth
  | none => .error .outside

section Loops

variable (lut : UInt16 → ℤ) (width : ℕ) (currentLine alignedLine : List UInt16) (j : ℕ)

/-- A round of the loop for a shift to the right. -/
def shiftRight : Except RowFault (List UInt16) := do
  let depth ← load currentLine j
  let int_u := j + lut depth
  if int_u < width - 1 then
    let alignedLine ← store alignedLine int_u depth
    store alignedLine (int_u + 1) depth
  else return alignedLine

/-- A round of the loop for a shift to the left. -/
def shiftLeft : Except RowFault (List UInt16) := do
  let depth ← load currentLine j
  let int_u := j + lut depth
  if 0 < int_u then
    let alignedLine ← store alignedLine int_u depth
    store alignedLine (int_u - 1) depth
  else return alignedLine

end Loops

section Code

variable {K : Type*} [Field K] [LinearOrder K] [FloorRing K]

/-- The body of the loop over the rows. -/
def shiftLine (width : ℕ) (shiftX depthFx : K) (currentLine : List UInt16) :
    Except RowFault (List UInt16) :=
  let lut := depthLut width shiftX depthFx
  let alignedLine := List.replicate width 0
  if 0 < shiftX then
    (List.range width).reverse.foldlM (shiftRight lut width currentLine) alignedLine
  else (List.range width).foldlM (shiftLeft lut currentLine) alignedLine

/-- A row of a plane. -/
def line (width : ℕ) (plane : List UInt16) (i : ℕ) : List UInt16 :=
  (plane.drop (i * width)).take width

/-- **`shiftDepthImg`.** -/
def shiftDepthImg (width height : ℕ) (shiftX depthFx : K) (plane : List UInt16) :
    Except RowFault (List UInt16) := do
  let lines ← (List.range height).mapM fun i => shiftLine width shiftX depthFx (line width plane i)
  return lines.flatten

end Code

/-! ### The nearest surface -/

/-- The footprint of a pixel that is shifted to `u` lies in the row and has `p`. -/
def Lands (width : ℕ) (side u p : ℤ) : Prop :=
  (0 ≤ u ∧ u < width ∧ 0 ≤ u + side ∧ u + side < width) ∧ (p = u ∨ p = u + side)

instance (width : ℕ) (side u p : ℤ) : Decidable (Lands width side u p) :=
  inferInstanceAs (Decidable (_ ∧ _))

/-- Pixel `j` of a row has depth `depth`, and it lands at `p`. -/
structure Shows (width : ℕ) (side : ℤ) (offset : UInt16 → ℤ) (row : List UInt16) (p : ℤ) (j : ℕ)
    (depth : UInt16) : Prop where
  depth_eq : row[j]? = some depth
  ne_zero : depth ≠ 0
  lands : Lands width side (j + offset depth) p

/-- **What a row becomes.** A pixel is set if some pixel lands there, and it has the depth of one
that is shifted farthest. -/
structure NearestSurface (width : ℕ) (side : ℤ) (offset : UInt16 → ℤ) (row out : List UInt16) :
    Prop where
  length_eq : out.length = width
  ne_zero_iff : ∀ (p : ℕ) v, out[p]? = some v →
    (v ≠ 0 ↔ ∃ j depth, Shows width side offset row p j depth)
  farthest : ∀ (p : ℕ) v, out[p]? = some v → v ≠ 0 → ∃ j, Shows width side offset row p j v ∧
    ∀ k depth, Shows width side offset row p k depth → |offset depth| ≤ |offset v|

/-- The rows backwards. -/
def mirror (width height : ℕ) (plane : List UInt16) : List UInt16 :=
  (List.range height).flatMap fun i => (line width plane i).reverse

section Spec

variable {K : Type*} [Field K] [LinearOrder K] [FloorRing K]

/-- The shift of a depth. -/
def offset (shiftX depthFx : K) (depth : UInt16) : ℤ :=
  Rounding.nearest (shiftX * depthFx / depth.toNat)

/-- Where the second pixel of a footprint is. -/
def side (shiftX : K) : ℤ :=
  if 0 < shiftX then 1 else -1

/-- **What `shiftDepthImg` should do.** It writes into the rows, each of them shows the nearest
surface, and the mirror image with the shift the other way gives the mirror image. -/
structure KeepsNearest (width height : ℕ) (shiftX depthFx : K) (plane : List UInt16) : Prop where
  nearestSurface : ∃ out, shiftDepthImg width height shiftX depthFx plane = .ok out ∧
    out.length = width * height ∧ ∀ i < height, NearestSurface width (side shiftX)
      (offset shiftX depthFx) (line width plane i) (line width out i)
  mirror_eq : shiftDepthImg width height (-shiftX) depthFx (mirror width height plane) =
    (shiftDepthImg width height shiftX depthFx plane).map (mirror width height)

/-- The shift of a depth rounds to nothing, or it leads out of every row. -/
def Exact (width : ℕ) (shiftX depthFx : K) (depth : UInt16) : Prop :=
  offset shiftX depthFx depth = 0 ∨ (width : ℤ) ≤ |offset shiftX depthFx depth|

end Spec

/-! ### The table -/

section Side

variable {K : Type*} [Field K] [LinearOrder K] {shiftX : K}

theorem side_of_pos (hshift : 0 < shiftX) : side shiftX = 1 :=
  if_pos hshift

theorem side_of_neg (hshift : shiftX < 0) : side shiftX = -1 :=
  if_neg hshift.not_gt

variable [FloorRing K] {depthFx : K} {width : ℕ}

theorem not_lands_zero {j : ℕ} {p : ℤ} (hj : j < width) :
    ¬ Lands width (side shiftX) (j + depthLut width shiftX depthFx 0) p := by
  rintro ⟨⟨hlow, hhigh, -, -⟩, -⟩
  rw [depthLut, if_pos rfl] at hlow hhigh
  split_ifs at hlow hhigh <;> omega

end Side

section Table

variable {K : Type*} [Field K] [LinearOrder K] [IsStrictOrderedRing K] [FloorRing K]
  {shiftX depthFx : K} {width : ℕ} {depth : UInt16}

theorem offset_neg (shiftX depthFx : K) (depth : UInt16) :
    offset (-shiftX) depthFx depth = -offset shiftX depthFx depth := by
  rw [offset, offset, ← Rounding.nearest_neg]
  congr 1
  ring

theorem exact_neg : Exact width (-shiftX) depthFx depth ↔ Exact width shiftX depthFx depth := by
  rw [Exact, Exact, offset_neg, abs_neg, neg_eq_zero]

theorem offset_nonneg (hshift : 0 < shiftX) (hfx : 0 < depthFx) (depth : UInt16) :
    0 ≤ offset shiftX depthFx depth :=
  Rounding.nearest_nonneg (by positivity)

theorem offset_nonpos (hshift : shiftX < 0) (hfx : 0 < depthFx) (depth : UInt16) :
    offset shiftX depthFx depth ≤ 0 := by
  have hneg := offset_nonneg (neg_pos.2 hshift) hfx depth
  rw [offset_neg] at hneg
  omega

theorem depthLut_of_pos (hshift : 0 < shiftX) (hfx : 0 < depthFx) (hdepth : depth ≠ 0) :
    depthLut width shiftX depthFx depth = offset shiftX depthFx depth := by
  rw [depthLut, if_neg hdepth, Rounding.trunc_of_nonneg (by positivity), offset]

theorem depthLut_of_neg (hshift : shiftX < 0) (hfx : 0 < depthFx) (hdepth : depth ≠ 0) :
    depthLut width shiftX depthFx depth =
      if offset shiftX depthFx depth = 0 then 0 else offset shiftX depthFx depth + 1 := by
  have hpos : (0 : K) < depth.toNat := by
    rw [Nat.cast_pos]
    exact Nat.pos_of_ne_zero fun hzero => hdepth (UInt16.toNat_inj.1 hzero)
  rw [depthLut, if_neg hdepth, offset]
  exact Rounding.trunc_of_neg (div_neg_of_neg_of_pos (mul_neg_of_neg_of_pos hshift hfx) hpos)

theorem depthLut_nonneg (hshift : 0 < shiftX) (hfx : 0 < depthFx) :
    0 ≤ depthLut width shiftX depthFx depth := by
  by_cases hdepth : depth = 0
  · rw [depthLut, if_pos hdepth, if_pos hshift]
    exact Int.natCast_nonneg width
  · rw [depthLut_of_pos hshift hfx hdepth]
    exact offset_nonneg hshift hfx depth

theorem depthLut_nonpos (hshift : shiftX < 0) (hfx : 0 < depthFx) :
    depthLut width shiftX depthFx depth ≤ 0 := by
  by_cases hdepth : depth = 0
  · rw [depthLut, if_pos hdepth, if_neg hshift.not_gt]
    exact Int.neg_nonpos_of_nonneg (Int.natCast_nonneg width)
  · rw [depthLut_of_neg hshift hfx hdepth]
    have hoffset := offset_nonpos hshift hfx depth
    split_ifs <;> omega

/-- **Where the table is right,** it says the same of every pixel that is to be seen. -/
theorem lands_depthLut_iff (hshift : shiftX ≠ 0) (hfx : 0 < depthFx) (hdepth : depth ≠ 0)
    (hexact : 0 < shiftX ∨ Exact width shiftX depthFx depth) {j : ℕ} (hj : j < width) {p : ℤ} :
    Lands width (side shiftX) (j + depthLut width shiftX depthFx depth) p ↔
      Lands width (side shiftX) (j + offset shiftX depthFx depth) p := by
  rcases lt_or_gt_of_ne hshift with hneg | hpos
  · have hoffset := offset_nonpos hneg hfx depth
    rw [depthLut_of_neg hneg hfx hdepth, side_of_neg hneg]
    rcases hexact.resolve_left hneg.not_gt with hzero | hfar
    · rw [if_pos hzero, hzero]
    · rw [abs_of_nonpos hoffset] at hfar
      rw [if_neg (by omega)]
      simp only [Lands]
      omega
  · rw [depthLut_of_pos hpos hfx hdepth]

theorem depthLut_eq_of_lands (hshift : shiftX ≠ 0) (hfx : 0 < depthFx) (hdepth : depth ≠ 0)
    (hexact : 0 < shiftX ∨ Exact width shiftX depthFx depth) {j : ℕ} (hj : j < width) {p : ℤ}
    (hlands : Lands width (side shiftX) (j + offset shiftX depthFx depth) p) :
    depthLut width shiftX depthFx depth = offset shiftX depthFx depth := by
  rcases lt_or_gt_of_ne hshift with hneg | hpos
  · have hoffset := offset_nonpos hneg hfx depth
    rw [depthLut_of_neg hneg hfx hdepth]
    rcases hexact.resolve_left hneg.not_gt with hzero | hfar
    · rw [if_pos hzero, hzero]
    · rw [abs_of_nonpos hoffset] at hfar
      obtain ⟨⟨hlow, -, -, -⟩, -⟩ := hlands
      omega
  · exact depthLut_of_pos hpos hfx hdepth

end Table

/-! ### A row -/

/-- A pixel of a row as a stroke. -/
def Covers (width : ℕ) (side : ℤ) (lut : UInt16 → ℤ) (row : List UInt16) (j p : ℕ) : Prop :=
  Lands width side (j + lut (row.getD j 0)) p

instance (width : ℕ) (side : ℤ) (lut : UInt16 → ℤ) (row : List UInt16) (j p : ℕ) :
    Decidable (Covers width side lut row j p) :=
  inferInstanceAs (Decidable (Lands _ _ _ _))

section Row

variable {lut : UInt16 → ℤ} {width : ℕ} {row : List UInt16} {j : ℕ}

theorem getElem?_eq_getD (hrow : row.length = width) (hj : j < width) :
    row[j]? = some (row.getD j 0) := by
  rw [List.getD_eq_getElem?_getD, List.getElem?_eq_getElem (by omega), Option.getD_some]

theorem load_eq (hrow : row.length = width) (hj : j < width) : load row j = .ok (row.getD j 0) := by
  rw [load, getElem?_eq_getD hrow hj]

theorem store_cells (canvas : ℕ → UInt16) {u : ℤ} (depth : UInt16) (hlow : 0 ≤ u)
    (hhigh : u < width) :
    store (Grid.cells width canvas) u depth =
      .ok (Grid.cells width (Function.update canvas u.toNat depth)) := by
  rw [store, Grid.length_cells, if_pos ⟨hlow, hhigh⟩, Grid.set_cells]

theorem update_update_eq (width : ℕ) (canvas : ℕ → UInt16) {side u : ℤ}
    (hu : u = j + lut (row.getD j 0))
    (hinside : 0 ≤ u ∧ u < width ∧ 0 ≤ u + side ∧ u + side < width) :
    Function.update (Function.update canvas u.toNat (row.getD j 0)) (u + side).toNat
        (row.getD j 0) =
      Painting.stroke (Covers width side lut row) (row.getD · 0) canvas j := by
  funext p
  have hcovers : Covers width side lut row j p ↔ p = (u + side).toNat ∨ p = u.toNat := by
    rw [Covers, Lands, ← hu]
    omega
  rw [Painting.stroke, Function.update_apply, Function.update_apply]
  by_cases hsecond : p = (u + side).toNat
  · rw [if_pos hsecond, if_pos (hcovers.2 (.inl hsecond))]
  · rw [if_neg hsecond]
    exact if_congr (by rw [hcovers]; exact (or_iff_right hsecond).symm) rfl rfl

theorem stroke_eq_self (canvas : ℕ → UInt16) {side : ℤ}
    (h : ∀ p : ℕ, ¬ Covers width side lut row j p) :
    Painting.stroke (Covers width side lut row) (row.getD · 0) canvas j = canvas :=
  funext fun p => if_neg (h p)

theorem shiftRight_eq (hrow : row.length = width) (hlut : ∀ depth, 0 ≤ lut depth) (hj : j < width)
    (canvas : ℕ → UInt16) : shiftRight lut width row (Grid.cells width canvas) j = .ok
      (Grid.cells width (Painting.stroke (Covers width 1 lut row) (row.getD · 0) canvas j)) := by
  obtain ⟨u, hu⟩ : ∃ u, u = j + lut (row.getD j 0) := ⟨_, rfl⟩
  have hnonneg : 0 ≤ u := by have := hlut (row.getD j 0); omega
  rw [shiftRight, load_eq hrow hj, Loop.ok_bind]
  dsimp only
  rw [← hu]
  by_cases hinside : u < width - 1
  · rw [if_pos hinside, store_cells canvas _ hnonneg (by omega), Loop.ok_bind,
      store_cells _ _ (by omega) (by omega), update_update_eq width canvas hu (by omega)]
  · rw [if_neg hinside, stroke_eq_self canvas]
    · rfl
    · intro p hcovers
      rw [Covers, Lands, ← hu] at hcovers
      omega

theorem shiftLeft_eq (hrow : row.length = width) (hlut : ∀ depth, lut depth ≤ 0) (hj : j < width)
    (canvas : ℕ → UInt16) : shiftLeft lut row (Grid.cells width canvas) j = .ok
      (Grid.cells width (Painting.stroke (Covers width (-1) lut row) (row.getD · 0) canvas j)) := by
  obtain ⟨u, hu⟩ : ∃ u, u = j + lut (row.getD j 0) := ⟨_, rfl⟩
  have hlt : u < width := by have := hlut (row.getD j 0); omega
  rw [shiftLeft, load_eq hrow hj, Loop.ok_bind]
  dsimp only
  rw [← hu]
  by_cases hinside : 0 < u
  · rw [if_pos hinside, store_cells canvas _ (by omega) hlt, Loop.ok_bind, Int.sub_eq_add_neg,
      store_cells _ _ (by omega) (by omega), update_update_eq width canvas hu (by omega)]
  · rw [if_neg hinside, stroke_eq_self canvas]
    · rfl
    · intro p hcovers
      rw [Covers, Lands, ← hu] at hcovers
      omega

end Row

section Order

variable {K : Type*} [Field K] [LinearOrder K]

/-- The order in which the pixels of a row are painted. -/
def order (shiftX : K) (width : ℕ) : List ℕ :=
  if 0 < shiftX then (List.range width).reverse else List.range width

theorem mem_order {shiftX : K} {width j : ℕ} : j ∈ order shiftX width ↔ j < width := by
  rw [order]
  split_ifs
  · rw [List.mem_reverse, List.mem_range]
  · exact List.mem_range

end Order

section Line

variable {K : Type*} [Field K] [LinearOrder K] [FloorRing K] {shiftX depthFx : K} {width : ℕ}
  {row : List UInt16}

/-- What is seen of a pixel of a row. -/
def seen (width : ℕ) (shiftX depthFx : K) (row : List UInt16) : ℕ → UInt16 :=
  Painting.paint (Covers width (side shiftX) (depthLut width shiftX depthFx) row) (row.getD · 0)
    (fun _ => 0) (order shiftX width)

theorem shows_iff {side : ℤ} {lut : UInt16 → ℤ} {p j : ℕ} {depth : UInt16} :
    Shows width side lut row p j depth ↔
      row[j]? = some depth ∧ depth ≠ 0 ∧ Covers width side lut row j p := by
  constructor
  · rintro ⟨hdepth, hne, hlands⟩
    refine ⟨hdepth, hne, ?_⟩
    rwa [Covers, List.getD_eq_getElem?_getD, hdepth]
  · rintro ⟨hdepth, hne, hcovers⟩
    rw [Covers, List.getD_eq_getElem?_getD, hdepth] at hcovers
    exact ⟨hdepth, hne, hcovers⟩

theorem shows_getD (hrow : row.length = width) {p j : ℕ} (hj : j < width)
    (hcovers : Covers width (side shiftX) (depthLut width shiftX depthFx) row j p) :
    Shows width (side shiftX) (depthLut width shiftX depthFx) row p j (row.getD j 0) := by
  refine shows_iff.2 ⟨getElem?_eq_getD hrow hj, fun hzero => ?_, hcovers⟩
  rw [Covers, hzero] at hcovers
  exact not_lands_zero hj hcovers

theorem covers_of_shows (hrow : row.length = width) {p j : ℕ} {depth : UInt16}
    (hshows : Shows width (side shiftX) (depthLut width shiftX depthFx) row p j depth) :
    j ∈ order shiftX width ∧ row.getD j 0 = depth ∧
      Covers width (side shiftX) (depthLut width shiftX depthFx) row j p := by
  obtain ⟨hdepth, -, hcovers⟩ := shows_iff.1 hshows
  refine ⟨mem_order.2 (hrow ▸ (List.getElem?_eq_some_iff.1 hdepth).1), ?_, hcovers⟩
  rw [List.getD_eq_getElem?_getD, hdepth, Option.getD_some]

theorem seen_of_bare {p : ℕ} (hbare : ¬ ∃ j ∈ order shiftX width,
    Covers width (side shiftX) (depthLut width shiftX depthFx) row j p) :
    seen width shiftX depthFx row p = 0 :=
  Painting.paint_of_bare fun j hj hcovers => hbare ⟨j, hj, hcovers⟩

variable [IsStrictOrderedRing K]

/-- **The loop over a row paints its pixels.** It writes into the row only. -/
theorem shiftLine_eq (hshift : shiftX ≠ 0) (hfx : 0 < depthFx) (hrow : row.length = width) :
    shiftLine width shiftX depthFx row =
      .ok (Grid.cells width (seen width shiftX depthFx row)) := by
  have hpaint : ∀ (strokes : List ℕ) (round : List UInt16 → ℕ → Except RowFault (List UInt16)),
      (∀ j ∈ strokes, ∀ canvas, round (Grid.cells width canvas) j = .ok (Grid.cells width
        (Painting.stroke (Covers width (side shiftX) (depthLut width shiftX depthFx) row)
          (row.getD · 0) canvas j))) →
      ∀ canvas, strokes.foldlM round (Grid.cells width canvas) = .ok (Grid.cells width
        (Painting.paint (Covers width (side shiftX) (depthLut width shiftX depthFx) row)
          (row.getD · 0) canvas strokes)) := by
    intro strokes round hround
    induction strokes with
    | nil => exact fun canvas => rfl
    | cons j strokes ih =>
      intro canvas
      rw [List.foldlM_cons, hround j List.mem_cons_self, Loop.ok_bind]
      exact ih (fun k hk => hround k (List.mem_cons_of_mem _ hk)) _
  rw [shiftLine, Grid.replicate_eq_cells, seen, order]
  rcases lt_or_gt_of_ne hshift with hneg | hpos
  · rw [if_neg hneg.not_gt, if_neg hneg.not_gt]
    refine hpaint _ _ (fun j hj canvas => ?_) _
    rw [side_of_neg hneg]
    exact shiftLeft_eq hrow (fun _ => depthLut_nonpos hneg hfx) (List.mem_range.1 hj) canvas
  · rw [if_pos hpos, if_pos hpos]
    refine hpaint _ _ (fun j hj canvas => ?_) _
    rw [side_of_pos hpos]
    exact shiftRight_eq hrow (fun _ => depthLut_nonneg hpos hfx)
      (List.mem_range.1 (List.mem_reverse.1 hj)) canvas

/-- **Of two pixels that land at one place, the one that is painted later is shifted farther.** -/
theorem pairwise_order (hshift : shiftX ≠ 0) (hfx : 0 < depthFx) (row : List UInt16) :
    (order shiftX width).Pairwise fun k j => ∀ p,
      Covers width (side shiftX) (depthLut width shiftX depthFx) row k p →
      Covers width (side shiftX) (depthLut width shiftX depthFx) row j p →
      |depthLut width shiftX depthFx (row.getD k 0)| ≤
        |depthLut width shiftX depthFx (row.getD j 0)| := by
  rw [order]
  rcases lt_or_gt_of_ne hshift with hneg | hpos
  · rw [if_neg hneg.not_gt, side_of_neg hneg]
    refine List.pairwise_lt_range.imp fun hlt p hk hj => ?_
    rw [abs_of_nonpos (depthLut_nonpos hneg hfx), abs_of_nonpos (depthLut_nonpos hneg hfx)]
    simp only [Covers, Lands] at hk hj
    omega
  · rw [if_pos hpos, side_of_pos hpos, List.pairwise_reverse]
    refine List.pairwise_lt_range.imp fun hlt p hk hj => ?_
    rw [abs_of_nonneg (depthLut_nonneg hpos hfx), abs_of_nonneg (depthLut_nonneg hpos hfx)]
    simp only [Covers, Lands] at hk hj
    omega

/-- What is seen is the pixel that is shifted farthest. -/
theorem exists_farthest (hshift : shiftX ≠ 0) (hfx : 0 < depthFx) {p : ℕ}
    (h : ∃ j ∈ order shiftX width,
      Covers width (side shiftX) (depthLut width shiftX depthFx) row j p) :
    ∃ j ∈ order shiftX width,
      Covers width (side shiftX) (depthLut width shiftX depthFx) row j p ∧
      seen width shiftX depthFx row p = row.getD j 0 ∧ ∀ k ∈ order shiftX width,
        Covers width (side shiftX) (depthLut width shiftX depthFx) row k p →
        |depthLut width shiftX depthFx (row.getD k 0)| ≤
          |depthLut width shiftX depthFx (row.getD j 0)| :=
  Painting.exists_highest (pairwise_order hshift hfx row) h

/-- **The nearest surface in terms of the table.** -/
theorem nearestSurface_seen (hshift : shiftX ≠ 0) (hfx : 0 < depthFx) (hrow : row.length = width) :
    NearestSurface width (side shiftX) (depthLut width shiftX depthFx) row
      (Grid.cells width (seen width shiftX depthFx row)) := by
  have hvalue : ∀ p v, (Grid.cells width (seen width shiftX depthFx row))[p]? = some v →
      seen width shiftX depthFx row p = v := by
    intro p v hv
    have hp : p < width := by
      have := (List.getElem?_eq_some_iff.1 hv).1
      rwa [Grid.length_cells] at this
    rw [Grid.getElem?_cells hp] at hv
    exact Option.some.inj hv
  have hpainted : ∀ p v, seen width shiftX depthFx row p = v →
      (∃ j ∈ order shiftX width,
        Covers width (side shiftX) (depthLut width shiftX depthFx) row j p) →
      ∃ j, Shows width (side shiftX) (depthLut width shiftX depthFx) row p j v ∧
        ∀ k depth, Shows width (side shiftX) (depthLut width shiftX depthFx) row p k depth →
          |depthLut width shiftX depthFx depth| ≤ |depthLut width shiftX depthFx v| := by
    intro p v hv hcovered
    obtain ⟨j, hj, hcovers, hseen, hfarthest⟩ := exists_farthest hshift hfx hcovered
    obtain rfl : row.getD j 0 = v := hseen.symm.trans hv
    refine ⟨j, shows_getD hrow (mem_order.1 hj) hcovers, fun k depth hk => ?_⟩
    obtain ⟨hmem, rfl, hkp⟩ := covers_of_shows hrow hk
    exact hfarthest k hmem hkp
  refine ⟨Grid.length_cells _ _, fun p v hv => ⟨fun hne => ?_, ?_⟩, fun p v hv hne => ?_⟩
  · by_contra hnone
    refine hne ((hvalue p v hv).symm.trans (seen_of_bare ?_))
    rintro ⟨j, hj, hcovers⟩
    exact hnone ⟨j, _, shows_getD hrow (mem_order.1 hj) hcovers⟩
  · rintro ⟨j, depth, hshows⟩
    obtain ⟨hmem, -, hcovers⟩ := covers_of_shows hrow hshows
    obtain ⟨k, hk, -⟩ := hpainted p v (hvalue p v hv) ⟨j, hmem, hcovers⟩
    exact hk.ne_zero
  · refine hpainted p v (hvalue p v hv) (not_not.1 fun hbare => hne ?_)
    exact (hvalue p v hv).symm.trans (seen_of_bare hbare)

/-- **The nearest surface,** where the table is right. -/
theorem nearestSurface_of_exact (hshift : shiftX ≠ 0) (hfx : 0 < depthFx)
    (hrow : row.length = width)
    (hexact : 0 < shiftX ∨ ∀ depth ∈ row, depth ≠ 0 → Exact width shiftX depthFx depth) :
    NearestSurface width (side shiftX) (offset shiftX depthFx) row
      (Grid.cells width (seen width shiftX depthFx row)) := by
  have hright : ∀ (j : ℕ) depth, row[j]? = some depth → depth ≠ 0 →
      (0 < shiftX ∨ Exact width shiftX depthFx depth) ∧ j < width := fun j depth hdepth hne =>
    ⟨hexact.imp_right fun h => h depth (List.mem_of_getElem? hdepth) hne,
      hrow ▸ (List.getElem?_eq_some_iff.1 hdepth).1⟩
  have hiff : ∀ (p j : ℕ) depth,
      Shows width (side shiftX) (depthLut width shiftX depthFx) row p j depth ↔
        Shows width (side shiftX) (offset shiftX depthFx) row p j depth := by
    intro p j depth
    constructor
    · rintro ⟨hdepth, hne, hlands⟩
      obtain ⟨hcase, hj⟩ := hright j depth hdepth hne
      exact ⟨hdepth, hne, (lands_depthLut_iff hshift hfx hne hcase hj).1 hlands⟩
    · rintro ⟨hdepth, hne, hlands⟩
      obtain ⟨hcase, hj⟩ := hright j depth hdepth hne
      exact ⟨hdepth, hne, (lands_depthLut_iff hshift hfx hne hcase hj).2 hlands⟩
  have heq : ∀ (p j : ℕ) depth, Shows width (side shiftX) (offset shiftX depthFx) row p j depth →
      depthLut width shiftX depthFx depth = offset shiftX depthFx depth := by
    rintro p j depth ⟨hdepth, hne, hlands⟩
    obtain ⟨hcase, hj⟩ := hright j depth hdepth hne
    exact depthLut_eq_of_lands hshift hfx hne hcase hj hlands
  obtain ⟨hlength, hne_zero, hfarthest⟩ := nearestSurface_seen hshift hfx hrow
  simp only [hiff] at hne_zero hfarthest
  refine ⟨hlength, hne_zero, fun p v hv hne => ?_⟩
  obtain ⟨j, hj, hle⟩ := hfarthest p v hv hne
  refine ⟨j, hj, fun k depth hk => ?_⟩
  have habs := hle k depth hk
  rwa [heq p k depth hk, heq p j v hj] at habs

end Line

/-! ### The mirror image -/

section Mirror

variable {K : Type*} [Field K] [LinearOrder K] [IsStrictOrderedRing K] [FloorRing K]
  {shiftX depthFx : K} {width : ℕ} {row : List UInt16}

theorem reverse_range_eq_map (n : ℕ) : (List.range n).reverse = (List.range n).map (n - 1 - ·) := by
  rw [List.range_eq_range', List.reverse_range', List.range_eq_range', Nat.zero_add]

theorem getD_reverse (hrow : row.length = width) {j : ℕ} (hj : j < width) :
    row.reverse.getD (width - 1 - j) 0 = row.getD j 0 := by
  rw [List.getD_eq_getElem?_getD, List.getD_eq_getElem?_getD,
    List.getElem?_reverse' (by omega : width - 1 - j + j + 1 = row.length)]

/-- The other way, the pixels of the mirror image cover the mirror image of what they cover. -/
theorem covers_mirror (hpos : 0 < shiftX) (hfx : 0 < depthFx) (hrow : row.length = width)
    (hexact : ∀ depth ∈ row, depth ≠ 0 → Exact width shiftX depthFx depth) {j p : ℕ}
    (hj : j < width) (hp : p < width) :
    Covers width (side (-shiftX)) (depthLut width (-shiftX) depthFx) row.reverse (width - 1 - j)
        (width - 1 - p) ↔
      Covers width (side shiftX) (depthLut width shiftX depthFx) row j p := by
  have hmem : row.getD j 0 ∈ row := List.mem_of_getElem? (getElem?_eq_getD hrow hj)
  rw [Covers, Covers, getD_reverse hrow hj]
  by_cases hzero : row.getD j 0 = 0
  · rw [hzero]
    exact iff_of_false (not_lands_zero (by omega)) (not_lands_zero hj)
  · have hdepth := hexact _ hmem hzero
    have hneg := neg_ne_zero.2 hpos.ne'
    rw [lands_depthLut_iff hneg hfx hzero (.inr (exact_neg.2 hdepth)) (by omega),
      lands_depthLut_iff hpos.ne' hfx hzero (.inr hdepth) hj, offset_neg, side_of_pos hpos,
      side_of_neg (neg_neg_of_pos hpos), Lands, Lands]
    omega

theorem seen_mirror (hpos : 0 < shiftX) (hfx : 0 < depthFx) (hrow : row.length = width)
    (hexact : ∀ depth ∈ row, depth ≠ 0 → Exact width shiftX depthFx depth) {p : ℕ}
    (hp : p < width) :
    seen width (-shiftX) depthFx row.reverse (width - 1 - p) = seen width shiftX depthFx row p := by
  have horder : order (-shiftX) width = (order shiftX width).map (width - 1 - ·) := by
    rw [order, order, if_neg (neg_neg_of_pos hpos).not_gt, if_pos hpos, List.map_reverse,
      ← reverse_range_eq_map, List.reverse_reverse]
  rw [seen, seen, horder]
  refine Painting.paint_map rfl fun j hj => ?_
  have hlt := mem_order.1 hj
  exact ⟨covers_mirror hpos hfx hrow hexact hlt hp, getD_reverse hrow hlt⟩

theorem reverse_cells (canvas : ℕ → UInt16) :
    (Grid.cells width canvas).reverse = Grid.cells width fun p => canvas (width - 1 - p) := by
  rw [Grid.cells, ← List.map_reverse, reverse_range_eq_map, List.map_map]
  rfl

/-- **The mirror image of a row,** shifted the other way, becomes the mirror image. -/
theorem shiftLine_reverse (hshift : shiftX ≠ 0) (hfx : 0 < depthFx) (hrow : row.length = width)
    (hexact : ∀ depth ∈ row, depth ≠ 0 → Exact width shiftX depthFx depth) :
    shiftLine width (-shiftX) depthFx row.reverse =
      (shiftLine width shiftX depthFx row).map List.reverse := by
  have hright : ∀ (s : K) (line : List UInt16), 0 < s → line.length = width →
      (∀ depth ∈ line, depth ≠ 0 → Exact width s depthFx depth) →
      shiftLine width (-s) depthFx line.reverse =
        (shiftLine width s depthFx line).map List.reverse := by
    intro s line hpos hline hexact
    rw [shiftLine_eq (neg_ne_zero.2 hpos.ne') hfx (by rwa [List.length_reverse]),
      shiftLine_eq hpos.ne' hfx hline, Except.map, reverse_cells]
    refine congrArg Except.ok (Grid.cells_congr fun p hp => ?_)
    rw [← seen_mirror hpos hfx hline hexact (by omega : width - 1 - p < width)]
    congr 1
    omega
  rcases lt_or_gt_of_ne hshift with hneg | hpos
  · have hback := hright (-shiftX) row.reverse (neg_pos.2 hneg) (by rwa [List.length_reverse])
      fun depth hdepth hne => exact_neg.2 (hexact depth (List.mem_reverse.1 hdepth) hne)
    rw [neg_neg, List.reverse_reverse] at hback
    rw [hback]
    cases shiftLine width (-shiftX) depthFx row.reverse with
    | error e => rfl
    | ok out => rw [Except.map, Except.map, List.reverse_reverse]
  · exact hright shiftX row hpos hrow hexact

end Mirror

/-! ### The image -/

section Image

variable {width height : ℕ} {plane : List UInt16}

theorem length_line (hplane : plane.length = width * height) {i : ℕ} (hi : i < height) :
    (line width plane i).length = width := by
  have hle := Nat.mul_le_mul_right width (Nat.succ_le_of_lt hi)
  rw [Nat.succ_mul, Nat.mul_comm height] at hle
  rw [line, List.length_take, List.length_drop]
  omega

theorem mem_of_mem_line {i : ℕ} {depth : UInt16} (h : depth ∈ line width plane i) : depth ∈ plane :=
  List.mem_of_mem_drop (List.mem_of_mem_take h)

/-- The rows of a plane that is put together from rows. -/
theorem line_flatMap {f : ℕ → List UInt16} (hf : ∀ i < height, (f i).length = width) {i : ℕ}
    (hi : i < height) : line width ((List.range height).flatMap f) i = f i :=
  RowMajor.take_drop_flatMap (fun k hk => hf k (List.mem_range.1 hk)) (List.getElem?_range hi)

theorem length_plane {f : ℕ → List UInt16} (hf : ∀ i < height, (f i).length = width) :
    ((List.range height).flatMap f).length = width * height := by
  rw [RowMajor.length_flatMap fun k hk => hf k (List.mem_range.1 hk), List.length_range,
    Nat.mul_comm]

theorem line_mirror (hplane : plane.length = width * height) {i : ℕ} (hi : i < height) :
    line width (mirror width height plane) i = (line width plane i).reverse :=
  line_flatMap (fun k hk => by rw [List.length_reverse, length_line hplane hk]) hi

variable {K : Type*} [Field K] [LinearOrder K] [IsStrictOrderedRing K] [FloorRing K]
  {shiftX depthFx : K}

/-- **All rows are painted.** -/
theorem shiftDepthImg_eq (hshift : shiftX ≠ 0) (hfx : 0 < depthFx)
    (hplane : plane.length = width * height) :
    shiftDepthImg width height shiftX depthFx plane = .ok ((List.range height).flatMap fun i =>
      Grid.cells width (seen width shiftX depthFx (line width plane i))) := by
  rw [shiftDepthImg, Loop.mapM_eq_ok fun i hi =>
    shiftLine_eq hshift hfx (length_line hplane (List.mem_range.1 hi)), Loop.ok_bind,
    List.flatMap_def]
  rfl

theorem shiftDepthImg_mirror (hshift : shiftX ≠ 0) (hfx : 0 < depthFx)
    (hplane : plane.length = width * height)
    (hexact : ∀ depth ∈ plane, depth ≠ 0 → Exact width shiftX depthFx depth) :
    shiftDepthImg width height (-shiftX) depthFx (mirror width height plane) =
      (shiftDepthImg width height shiftX depthFx plane).map (mirror width height) := by
  have hlines : ∀ i ∈ List.range height,
      shiftLine width (-shiftX) depthFx (line width (mirror width height plane) i) =
        .ok (Grid.cells width (seen width shiftX depthFx (line width plane i))).reverse := by
    intro i hi
    have hline := length_line hplane (List.mem_range.1 hi)
    rw [line_mirror hplane (List.mem_range.1 hi), shiftLine_reverse hshift hfx hline
      fun depth hdepth => hexact depth (mem_of_mem_line hdepth), shiftLine_eq hshift hfx hline]
    rfl
  rw [shiftDepthImg, Loop.mapM_eq_ok hlines, shiftDepthImg_eq hshift hfx hplane, Loop.ok_bind,
    Except.map, mirror, ← List.flatMap_def]
  refine congrArg Except.ok (List.flatMap_congr fun i hi => ?_)
  rw [line_flatMap (fun k _ => Grid.length_cells _ _) (List.mem_range.1 hi)]

/-- **An image whose depths the table has right.** -/
theorem keepsNearest_of_exact (hshift : shiftX ≠ 0) (hfx : 0 < depthFx)
    (hplane : plane.length = width * height)
    (hexact : ∀ depth ∈ plane, depth ≠ 0 → Exact width shiftX depthFx depth) :
    KeepsNearest width height shiftX depthFx plane where
  nearestSurface := by
    refine ⟨_, shiftDepthImg_eq hshift hfx hplane, ?_, fun i hi => ?_⟩
    · exact length_plane fun _ _ => Grid.length_cells _ _
    · rw [line_flatMap (fun k _ => Grid.length_cells _ _) hi]
      exact nearestSurface_of_exact hshift hfx (length_line hplane hi)
        (.inr fun depth hdepth => hexact depth (mem_of_mem_line hdepth))
  mirror_eq := shiftDepthImg_mirror hshift hfx hplane hexact

end Image

/-! ### Where the table is wrong -/

/-- A row with one pixel, at its end. -/
def lone (width : ℕ) (depth : UInt16) : List UInt16 :=
  Grid.cells width fun p => if p = width - 1 then depth else 0

section Wrong

variable {K : Type*} [Field K] [LinearOrder K] [IsStrictOrderedRing K] [FloorRing K]
  {shiftX depthFx : K} {width height : ℕ} {depth : UInt16}

theorem length_lone : (lone width depth).length = width :=
  Grid.length_cells _ _

theorem mem_lone {v : UInt16} (hv : v ∈ lone width depth) (hne : v ≠ 0) : v = depth := by
  obtain ⟨p, -, rfl⟩ := List.mem_map.1 hv
  split_ifs at hne ⊢
  · rfl
  · exact absurd rfl hne

theorem getElem?_lone {j : ℕ} {v : UInt16} (hv : (lone width depth)[j]? = some v) (hne : v ≠ 0) :
    j = width - 1 ∧ v = depth := by
  have hj := (List.getElem?_eq_some_iff.1 hv).1
  rw [length_lone] at hj
  rw [lone, Grid.getElem?_cells hj, Option.some.injEq] at hv
  split_ifs at hv with hlast
  · exact ⟨hlast, hv.symm⟩
  · exact absurd hv.symm hne

theorem getElem?_lone_reverse {j : ℕ} {v : UInt16} (hv : (lone width depth).reverse[j]? = some v)
    (hne : v ≠ 0) : j = 0 ∧ v = depth := by
  have hj := (List.getElem?_eq_some_iff.1 hv).1
  rw [List.length_reverse, length_lone] at hj
  rw [List.getElem?_reverse' (by rw [length_lone]; omega : j + (width - 1 - j) + 1 = _)] at hv
  obtain ⟨hlast, hdepth⟩ := getElem?_lone hv hne
  exact ⟨by omega, hdepth⟩

/-- The place where the pixel is painted, one too far from its end of the row. -/
theorem seen_lone_ne_zero (hneg : shiftX < 0) (hfx : 0 < depthFx) (hdepth : depth ≠ 0) {r : ℕ}
    (hr : offset shiftX depthFx depth = -r) (hpos : 0 < r) (hlt : r < width) :
    seen width shiftX depthFx (lone width depth) (width - r) ≠ 0 := by
  have hget : (lone width depth)[width - 1]? = some depth := by
    rw [lone, Grid.getElem?_cells (by omega), if_pos rfl]
  have hlands : Lands width (side shiftX) ((width - 1 : ℕ) + depthLut width shiftX depthFx depth)
      (width - r : ℕ) := by
    rw [side_of_neg hneg, depthLut_of_neg hneg hfx hdepth, if_neg (by omega), hr, Lands]
    omega
  refine ((nearestSurface_seen hneg.ne hfx length_lone).ne_zero_iff (width - r) _
    (Grid.getElem?_cells (by omega) _)).2 ⟨width - 1, depth, hget, hdepth, hlands⟩

/-- A shift to the left that rounds to a pixel or more, within the row. -/
theorem not_nearestSurface_lone (hneg : shiftX < 0) (hfx : 0 < depthFx) (hdepth : depth ≠ 0) {r : ℕ}
    (hr : offset shiftX depthFx depth = -r) (hpos : 0 < r) (hlt : r < width) :
    ¬ NearestSurface width (side shiftX) (offset shiftX depthFx) (lone width depth)
      (Grid.cells width (seen width shiftX depthFx (lone width depth))) := by
  intro h
  obtain ⟨j, v, hget, hne, hlands⟩ := (h.ne_zero_iff (width - r) _
    (Grid.getElem?_cells (by omega) _)).1 (seen_lone_ne_zero hneg hfx hdepth hr hpos hlt)
  obtain ⟨rfl, rfl⟩ := getElem?_lone hget hne
  rw [side_of_neg hneg, hr, Lands] at hlands
  omega

/-- To the right, the mirror image of that pixel is not painted there. -/
theorem seen_lone_reverse (hpos : 0 < shiftX) (hfx : 0 < depthFx) {r : ℕ}
    (hr : offset shiftX depthFx depth = r) (hlow : 0 < r) (hlt : r < width) :
    seen width shiftX depthFx (lone width depth).reverse (r - 1) = 0 := by
  by_contra hne
  have hrow : (lone width depth).reverse.length = width := by rw [List.length_reverse, length_lone]
  obtain ⟨j, v, hget, hv, hlands⟩ := ((nearestSurface_of_exact hpos.ne' hfx hrow
    (.inl hpos)).ne_zero_iff (r - 1) _ (Grid.getElem?_cells (by omega) _)).1 hne
  obtain ⟨rfl, rfl⟩ := getElem?_lone_reverse hget hv
  rw [side_of_pos hpos, hr, Lands] at hlands
  omega

theorem exact_of_keepsNearest (hshift : shiftX ≠ 0) (hfx : 0 < depthFx) (hheight : 0 < height)
    (hdepth : depth ≠ 0)
    (h : ∀ plane, plane.length = width * height → (∀ v ∈ plane, v ≠ 0 → v = depth) →
      KeepsNearest width height shiftX depthFx plane) : Exact width shiftX depthFx depth := by
  by_contra hexact
  obtain ⟨hne, hlt⟩ := not_or.1 hexact
  obtain ⟨r, hr⟩ : ∃ r : ℕ, |offset shiftX depthFx depth| = r := ⟨_, Int.abs_eq_natAbs _⟩
  have hlow : 0 < r := by have := abs_pos.2 hne; omega
  have hhigh : r < width := by omega
  have hrow : ∀ i < height, (lone width depth).length = width := fun _ _ => length_lone
  have hback : ∀ i < height, (lone width depth).reverse.length = width := fun _ _ => by
    rw [List.length_reverse, length_lone]
  rcases lt_or_gt_of_ne hshift with hneg | hpos
  · rw [abs_of_nonpos (offset_nonpos hneg hfx depth)] at hr
    have hmem : ∀ v ∈ (List.range height).flatMap fun _ => lone width depth, v ≠ 0 → v = depth := by
      intro v hv
      obtain ⟨-, -, hv⟩ := List.mem_flatMap.1 hv
      exact mem_lone hv
    obtain ⟨out, hout, -, hlaw⟩ := (h _ (length_plane hrow) hmem).nearestSurface
    rw [shiftDepthImg_eq hshift hfx (length_plane hrow), Except.ok.injEq] at hout
    have hfirst := hlaw 0 hheight
    rw [← hout, line_flatMap (fun _ _ => Grid.length_cells _ _) hheight,
      line_flatMap hrow hheight] at hfirst
    exact not_nearestSurface_lone hneg hfx hdepth (by omega) hlow hhigh hfirst
  · rw [abs_of_nonneg (offset_nonneg hpos hfx depth)] at hr
    have hmem : ∀ v ∈ (List.range height).flatMap fun _ => (lone width depth).reverse,
        v ≠ 0 → v = depth := by
      intro v hv
      obtain ⟨-, -, hv⟩ := List.mem_flatMap.1 hv
      exact mem_lone (List.mem_reverse.1 hv)
    have hmirror := (h _ (length_plane hback) hmem).mirror_eq
    have hplane : mirror width height
        ((List.range height).flatMap fun _ => (lone width depth).reverse) =
          (List.range height).flatMap fun _ => lone width depth := by
      refine List.flatMap_congr fun i hi => ?_
      rw [line_flatMap hback (List.mem_range.1 hi), List.reverse_reverse]
    rw [hplane, shiftDepthImg_eq (neg_ne_zero.2 hshift) hfx (length_plane hrow),
      shiftDepthImg_eq hshift hfx (length_plane hback), Except.map, Except.ok.injEq] at hmirror
    have hfirst := congrArg (fun plane => line width plane 0) hmirror
    rw [line_flatMap (fun _ _ => Grid.length_cells _ _) hheight, line_flatMap hrow hheight,
      line_mirror (length_plane fun _ _ => Grid.length_cells _ _) hheight,
      line_flatMap (fun _ _ => Grid.length_cells _ _) hheight, line_flatMap hback hheight,
      reverse_cells, Grid.cells_eq_iff] at hfirst
    have hseen := hfirst (width - r) (by omega)
    rw [(by omega : width - 1 - (width - r) = r - 1), seen_lone_reverse hpos hfx hr hlow hhigh]
      at hseen
    exact seen_lone_ne_zero (neg_neg_of_pos hpos) hfx hdepth (by rw [offset_neg, hr]) hlow hhigh
      hseen

/-- **The nearest surface is kept by all images with certain depths** exactly if none of these
depths has a shift that rounds to a pixel or more and to less than the width. -/
theorem keepsNearest_iff (hshift : shiftX ≠ 0) (hfx : 0 < depthFx) (depths : Set UInt16) :
    (∀ plane, plane.length = width * height → (∀ depth ∈ plane, depth ≠ 0 → depth ∈ depths) →
      KeepsNearest width height shiftX depthFx plane) ↔
      height = 0 ∨ ∀ depth ∈ depths, depth ≠ 0 → Exact width shiftX depthFx depth := by
  constructor
  · intro h
    refine height.eq_zero_or_pos.imp_right fun hheight depth hmem hdepth => ?_
    refine exact_of_keepsNearest hshift hfx hheight hdepth fun plane hplane hdepths => ?_
    exact h plane hplane fun v hv hne => (hdepths v hv hne).symm ▸ hmem
  · rintro hcond plane hplane hdepths
    refine keepsNearest_of_exact hshift hfx hplane fun depth hmem hne => ?_
    obtain rfl | hexact := hcond
    · rw [List.eq_nil_of_length_eq_zero hplane] at hmem
      cases hmem
    · exact hexact depth (hdepths depth hmem hne) hne

/-- A shift to the left by four pixels, and the depth at which it comes to one. -/
theorem keepsNearest_iff_four :
    (∀ plane, plane.length = 4 * 1 → (∀ depth ∈ plane, depth ≠ 0 → depth ∈ ({4} : Set UInt16)) →
      KeepsNearest 4 1 (-4 : ℚ) 1 plane) ↔
      1 = 0 ∨ ∀ depth ∈ ({4} : Set UInt16), depth ≠ 0 → Exact 4 (-4 : ℚ) 1 depth :=
  keepsNearest_iff (by decide) (by decide) {4}

/-- **A near pixel at the end of a row,** shifted to the left by one. It is painted where it was and
on its left neighbour. -/
theorem not_keepsNearest : ¬ KeepsNearest 4 1 (-1 : ℚ) 1 [0, 0, 0, 1] := by
  intro h
  have hneg : (-1 : ℚ) < 0 := by decide
  have hfx : (0 : ℚ) < 1 := by decide
  obtain ⟨out, hout, -, hlaw⟩ := h.nearestSurface
  rw [shiftDepthImg_eq hneg.ne hfx rfl, Except.ok.injEq] at hout
  have hfirst := hlaw 0 one_pos
  rw [← hout, line_flatMap (fun _ _ => Grid.length_cells _ _) one_pos] at hfirst
  have hoffset : offset (-1 : ℚ) 1 1 = -(1 : ℕ) := by decide +kernel
  exact not_nearestSurface_lone hneg hfx (by decide) hoffset one_pos (by decide) hfirst

end Wrong

end ImageAlign

end DepthaiCore
