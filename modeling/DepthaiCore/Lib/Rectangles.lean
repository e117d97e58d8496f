import DepthaiCore.Lib.Homography
import DepthaiCore.Lib.Numerals
import Mathlib.Analysis.Convex.Combination

/-!
# Rectangles of the plane and the boxes around them

A matrix whose last row is that of the identity maps the plane by a linear part and a shift. Four
points are the corners of a parallelogram if they lie around a centre at the ends of two diagonals;
it is a rectangle if the diagonals are of one length.

The box around points is that of their convex hull. Around a parallelogram it has the same centre.
Of a rectangle with one corner left out, it has the centre of the rectangle exactly if the sides
are along the axes.
-/

open scoped Numerals

namespace DepthaiCore.Rectangles

open Matrix Homography

variable {K : Type} [Field K]

/-! ### Linear parts and shifts -/

/-- The linear part. -/
def linear (M : Matrix (Fin 3) (Fin 3) K) : K × K →ₗ[K] K × K where
  toFun v := (M 0 0 * v.1 + M 0 1 * v.2, M 1 0 * v.1 + M 1 1 * v.2)
  map_add' v w := by
    ext <;> simp only [Prod.fst_add, Prod.snd_add] <;> ring
  map_smul' c v := by
    ext <;> simp only [Prod.smul_fst, Prod.smul_snd, smul_eq_mul, RingHom.id_apply] <;> ring

theorem linear_apply (M : Matrix (Fin 3) (Fin 3) K) (v : K × K) :
    linear M v = (M 0 0 * v.1 + M 0 1 * v.2, M 1 0 * v.1 + M 1 1 * v.2) := rfl

@[simp] theorem linear_one (v : K × K) : linear (1 : Matrix (Fin 3) (Fin 3) K) v = v := by
  simp [linear_apply]

/-- The shift. -/
def shift (M : Matrix (Fin 3) (Fin 3) K) : K × K :=
  (M 0 2, M 1 2)

/-- The last row is that of the identity. -/
structure Affine (M : Matrix (Fin 3) (Fin 3) K) : Prop where
  zero : M 2 0 = 0
  one : M 2 1 = 0
  two : M 2 2 = 1

namespace Affine

variable {M N : Matrix (Fin 3) (Fin 3) K}

theorem refl : Affine (1 : Matrix (Fin 3) (Fin 3) K) :=
  ⟨rfl, rfl, rfl⟩

theorem mulVec_lift_two (h : Affine M) (p : K × K) : (M *ᵥ lift p) 2 = 1 := by
  simp [mulVec, dotProduct, Fin.sum_univ_three, lift, h.zero, h.one, h.two]

theorem image_eq (h : Affine M) (p : K × K) : image M p = linear M p + shift M := by
  have htwo := h.mulVec_lift_two p
  rw [image, point, htwo, div_one, div_one]
  simp [mulVec, dotProduct, Fin.sum_univ_three, lift, linear_apply, shift]

theorem image_add (h : Affine M) (p v : K × K) : image M (p + v) = image M p + linear M v := by
  rw [h.image_eq, h.image_eq, map_add, add_right_comm]

theorem image_sub (h : Affine M) (p v : K × K) : image M (p - v) = image M p - linear M v := by
  rw [sub_eq_add_neg, h.image_add, map_neg, ← sub_eq_add_neg]

theorem mul (hM : Affine M) (hN : Affine N) : Affine (M * N) := by
  constructor <;>
    simp [mul_apply, Fin.sum_univ_three, hM.zero, hM.one, hM.two, hN.zero, hN.one, hN.two]

theorem det_eq (h : Affine M) : M.det = M 0 0 * M 1 1 - M 0 1 * M 1 0 := by
  rw [det_fin_three, h.zero, h.one, h.two]
  ring

theorem inv (h : Affine M) (hdet : IsUnit M.det) : Affine M⁻¹ := by
  have hrow : ∀ j, M⁻¹ 2 j = (1 : Matrix (Fin 3) (Fin 3) K) 2 j := by
    intro j
    rw [← mul_nonsing_inv M hdet, mul_apply, Fin.sum_univ_three, h.zero, h.one, h.two]
    ring
  exact ⟨hrow 0, hrow 1, hrow 2⟩

theorem linear_mul (hN : Affine N) (v : K × K) : linear (M * N) v = linear M (linear N v) := by
  simp only [linear_apply, mul_apply, Fin.sum_univ_three, hN.zero, hN.one]
  ext <;> ring

theorem image_image (hN : Affine N) (p : K × K) : image M (image N p) = image (M * N) p := by
  rw [Homography.image_image]
  rw [hN.mulVec_lift_two]
  exact one_ne_zero

/-- The map of points as an affine map. -/
def toAffineMap (M : Matrix (Fin 3) (Fin 3) K) : K × K →ᵃ[K] K × K :=
  (linear M).toAffineMap + AffineMap.const K (K × K) (shift M)

theorem coe_toAffineMap (h : Affine M) : ⇑(toAffineMap M) = image M := by
  funext p
  rw [h.image_eq]
  rfl

/-- **An affine map carries convex hulls to convex hulls.** -/
theorem image_convexHull [LinearOrder K] [IsStrictOrderedRing K] (h : Affine M)
    (s : Set (K × K)) : image M '' convexHull K s = convexHull K (image M '' s) := by
  rw [← h.coe_toAffineMap]
  exact (toAffineMap M).image_convexHull s

end Affine

/-! ### Parallelograms -/

/-- The square of the length. -/
def sqNorm (v : K × K) : K :=
  v.1 ^ 2 + v.2 ^ 2

/-- A matrix that keeps lengths. -/
structure Isometry (Q : Matrix (Fin 3) (Fin 3) K) : Prop extends Affine Q where
  sqNorm_eq : ∀ v, sqNorm (linear Q v) = sqNorm v

namespace Isometry

variable {Q R : Matrix (Fin 3) (Fin 3) K}

theorem refl : Isometry (1 : Matrix (Fin 3) (Fin 3) K) where
  toAffine := .refl
  sqNorm_eq v := by rw [linear_one]

theorem mul (hQ : Isometry Q) (hR : Isometry R) : Isometry (Q * R) where
  toAffine := hQ.toAffine.mul hR.toAffine
  sqNorm_eq v := by rw [hR.toAffine.linear_mul, hQ.sqNorm_eq, hR.sqNorm_eq]

/-- The columns of the linear part are of length one, and at right angles. -/
theorem columns [NeZero (2 : K)] (h : Isometry Q) :
    Q 0 0 ^ 2 + Q 1 0 ^ 2 = 1 ∧ Q 0 1 ^ 2 + Q 1 1 ^ 2 = 1 ∧ Q 0 0 * Q 0 1 + Q 1 0 * Q 1 1 = 0 := by
  have hx := h.sqNorm_eq (1, 0)
  have hy := h.sqNorm_eq (0, 1)
  have hxy := h.sqNorm_eq (1, 1)
  simp only [linear_apply, sqNorm, mul_one, mul_zero, add_zero, zero_add] at hx hy hxy
  refine ⟨by linear_combination hx, by linear_combination hy, ?_⟩
  have htwice : 2 * (Q 0 0 * Q 0 1 + Q 1 0 * Q 1 1) = 0 := by
    linear_combination hxy - hx - hy
  exact (mul_eq_zero.1 htwice).resolve_left two_ne_zero

end Isometry

/-- **A matrix that turns and scales**: its linear part is a multiple of that of another. -/
structure Multiple (k : K) (Q M : Matrix (Fin 3) (Fin 3) K) : Prop extends Affine M where
  linear_eq : ∀ v, linear M v = k • linear Q v

namespace Multiple

variable {k l : K} {Q R M N : Matrix (Fin 3) (Fin 3) K}

theorem mul (hN : Multiple l R N) (hM : Multiple k Q M) (hQ : Affine Q) :
    Multiple (l * k) (R * Q) (N * M) where
  toAffine := hN.toAffine.mul hM.toAffine
  linear_eq v := by
    rw [hM.toAffine.linear_mul, hN.linear_eq, hM.linear_eq, map_smul, smul_smul, hQ.linear_mul]

theorem sqNorm_eq (h : Multiple k Q M) (hQ : Isometry Q) (v : K × K) :
    sqNorm (linear M v) = k ^ 2 * sqNorm v := by
  rw [h.linear_eq, ← hQ.sqNorm_eq v]
  simp only [sqNorm, Prod.smul_fst, Prod.smul_snd, smul_eq_mul]
  ring

theorem entries (h : Multiple k Q M) :
    (M 0 0 = k * Q 0 0 ∧ M 0 1 = k * Q 0 1) ∧ M 1 0 = k * Q 1 0 ∧ M 1 1 = k * Q 1 1 := by
  have hx := h.linear_eq (1, 0)
  have hy := h.linear_eq (0, 1)
  simp only [linear_apply, mul_one, mul_zero, add_zero, zero_add, Prod.smul_mk, smul_eq_mul,
    Prod.mk.injEq] at hx hy
  exact ⟨⟨hx.1, hy.1⟩, hx.2, hy.2⟩

theorem isUnit_det [NeZero (2 : K)] (h : Multiple k Q M) (hQ : Isometry Q) (hk : k ≠ 0) :
    IsUnit M.det := by
  obtain ⟨⟨h00, h01⟩, h10, h11⟩ := h.entries
  obtain ⟨hx, hy, hxy⟩ := hQ.columns
  have hsq : (Q 0 0 * Q 1 1 - Q 0 1 * Q 1 0) ^ 2 = 1 := by
    linear_combination (Q 0 1 ^ 2 + Q 1 1 ^ 2) * hx + hy -
      (Q 0 0 * Q 0 1 + Q 1 0 * Q 1 1) * hxy
  have hdet : M.det = k ^ 2 * (Q 0 0 * Q 1 1 - Q 0 1 * Q 1 0) := by
    rw [h.toAffine.det_eq, h00, h01, h10, h11]
    ring
  rw [hdet, isUnit_iff_ne_zero]
  refine mul_ne_zero (pow_ne_zero 2 hk) fun hzero => ?_
  rw [hzero, zero_pow two_ne_zero] at hsq
  exact zero_ne_one hsq

end Multiple

/-- The corners at the ends of two diagonals. -/
def diagonals (c q u : K × K) : List (K × K) :=
  [c + q, c + u, c - q, c - u]

/-- Four points in any order are the corners of a rectangle. -/
def IsRectangle (points : List (K × K)) : Prop :=
  ∃ c q u, sqNorm q = sqNorm u ∧ points.Perm (diagonals c q u)

theorem map_image_diagonals {M : Matrix (Fin 3) (Fin 3) K} (h : Affine M) (c q u : K × K) :
    (diagonals c q u).map (image M) = diagonals (image M c) (linear M q) (linear M u) := by
  simp [diagonals, h.image_add, h.image_sub]

/-- The corners of a parallelogram in the order of a walk around it, from the next one. -/
theorem diagonals_rotate (c q u : K × K) :
    (diagonals c q u).Perm (diagonals c u (-q)) := by
  simp only [diagonals, sub_neg_eq_add, ← sub_eq_add_neg]
  exact (List.perm_append_singleton (c + q) [c + u, c - q, c - u]).symm

/-- **One corner and the three others**, with the diagonals named so that it is the first. -/
theorem exists_first {points : List (K × K)} {p c q u : K × K}
    (h : (p :: points).Perm (diagonals c q u)) :
    ∃ q' u', p = c + q' ∧ points.Perm [c + u', c - q', c - u'] ∧
      (q' = q ∧ u' = u ∨ q' = u ∧ u' = -q ∨ q' = -q ∧ u' = -u ∨ q' = -u ∧ u' = q) := by
  have hfirst : ∀ q' u' : K × K, (diagonals c q u).Perm (diagonals c q' u') → p = c + q' →
      points.Perm [c + u', c - q', c - u'] := by
    rintro q' u' hperm rfl
    exact (h.trans hperm).cons_inv
  have hturn := diagonals_rotate c q u
  have hturn' := hturn.trans (diagonals_rotate c u (-q))
  have hturn'' := hturn'.trans (diagonals_rotate c (-q) (-u))
  have hmem : p ∈ diagonals c q u := h.mem_iff.1 List.mem_cons_self
  simp only [diagonals, List.mem_cons, List.not_mem_nil, or_false] at hmem
  rcases hmem with hp | hp | hp | hp
  · exact ⟨q, u, hp, hfirst q u (.refl _) hp, .inl ⟨rfl, rfl⟩⟩
  · exact ⟨u, -q, hp, hfirst u (-q) hturn hp, .inr (.inl ⟨rfl, rfl⟩)⟩
  · rw [sub_eq_add_neg] at hp
    exact ⟨-q, -u, hp, hfirst (-q) (-u) hturn' hp, .inr (.inr (.inl ⟨rfl, rfl⟩))⟩
  · rw [sub_eq_add_neg] at hp
    rw [neg_neg] at hturn''
    exact ⟨-u, q, hp, hfirst (-u) q hturn'' hp, .inr (.inr (.inr ⟨rfl, rfl⟩))⟩

/-! ### Boxes -/

/-- The sides of a box. -/
@[ext]
structure Box (K : Type) where
  minx : K
  maxx : K
  miny : K
  maxy : K

section Order

variable [LinearOrder K]

/-- **The least box around a set**, whose every side is touched. -/
structure IsBoxOf (s : Set (K × K)) (b : Box K) : Prop where
  minx : IsLeast (Prod.fst '' s) b.minx
  maxx : IsGreatest (Prod.fst '' s) b.maxx
  miny : IsLeast (Prod.snd '' s) b.miny
  maxy : IsGreatest (Prod.snd '' s) b.maxy

omit [Field K] in
theorem IsBoxOf.unique {s : Set (K × K)} {b b' : Box K} (h : IsBoxOf s b) (h' : IsBoxOf s b') :
    b = b' :=
  Box.ext (h.minx.unique h'.minx) (h.maxx.unique h'.maxx) (h.miny.unique h'.miny)
    (h.maxy.unique h'.maxy)

omit [Field K] in
theorem IsBoxOf.insert {s : Set (K × K)} {b : Box K} (h : IsBoxOf s b) (p : K × K) :
    IsBoxOf (insert p s) ⟨min p.1 b.minx, max p.1 b.maxx, min p.2 b.miny, max p.2 b.maxy⟩ := by
  constructor <;> rw [Set.image_insert_eq]
  · exact h.minx.insert p.1
  · exact h.maxx.insert p.1
  · exact h.miny.insert p.2
  · exact h.maxy.insert p.2

omit [Field K] in
theorem isBoxOf_singleton (p : K × K) : IsBoxOf {p} ⟨p.1, p.1, p.2, p.2⟩ := by
  constructor <;> rw [Set.image_singleton]
  · exact isLeast_singleton
  · exact isGreatest_singleton
  · exact isLeast_singleton
  · exact isGreatest_singleton

variable [IsStrictOrderedRing K]

theorem isLeast_convexHull (f : K × K →ₗ[K] K) {s : Set (K × K)} {m : K} (h : IsLeast (f '' s) m) :
    IsLeast (f '' convexHull K s) m := by
  refine ⟨Set.image_mono (subset_convexHull K s) h.1, ?_⟩
  rintro - ⟨p, hp, rfl⟩
  refine convexHull_min (fun q hq => ?_) (convex_halfSpace_ge f.isLinear m) hp
  exact h.2 (Set.mem_image_of_mem f hq)

theorem isGreatest_convexHull (f : K × K →ₗ[K] K) {s : Set (K × K)} {m : K}
    (h : IsGreatest (f '' s) m) : IsGreatest (f '' convexHull K s) m := by
  refine ⟨Set.image_mono (subset_convexHull K s) h.1, ?_⟩
  rintro - ⟨p, hp, rfl⟩
  refine convexHull_min (fun q hq => ?_) (convex_halfSpace_le f.isLinear m) hp
  exact h.2 (Set.mem_image_of_mem f hq)

/-- **The box around points is that of their convex hull.** -/
theorem IsBoxOf.convexHull {s : Set (K × K)} {b : Box K} (h : IsBoxOf s b) :
    IsBoxOf (convexHull K s) b where
  minx := isLeast_convexHull (LinearMap.fst K K K) h.minx
  maxx := isGreatest_convexHull (LinearMap.fst K K K) h.maxx
  miny := isLeast_convexHull (LinearMap.snd K K K) h.miny
  maxy := isGreatest_convexHull (LinearMap.snd K K K) h.maxy

/-! ### The boxes of four and of three corners -/

theorem isLeast_four (c q u : K) : IsLeast {c + q, c + u, c - q, c - u} (c - max |q| |u|) := by
  constructor
  · rcases max_choice |q| |u| with h | h <;> rw [h]
    · rcases abs_choice q with hq | hq <;> simp [hq]
    · rcases abs_choice u with hu | hu <;> simp [hu]
  · have hq := (abs_le.1 (le_max_left |q| |u|))
    have hu := (abs_le.1 (le_max_right |q| |u|))
    rintro x (rfl | rfl | rfl | rfl) <;> linarith

theorem isGreatest_four (c q u : K) :
    IsGreatest {c + q, c + u, c - q, c - u} (c + max |q| |u|) := by
  constructor
  · rcases max_choice |q| |u| with h | h <;> rw [h]
    · rcases abs_choice q with hq | hq <;> simp [hq, sub_eq_add_neg]
    · rcases abs_choice u with hu | hu <;> simp [hu, sub_eq_add_neg]
  · have hq := (abs_le.1 (le_max_left |q| |u|))
    have hu := (abs_le.1 (le_max_right |q| |u|))
    rintro x (rfl | rfl | rfl | rfl) <;> linarith

theorem isLeast_three (c q u : K) : IsLeast {c + u, c - q, c - u} (c - max q |u|) := by
  constructor
  · rcases max_choice q |u| with h | h <;> rw [h]
    · simp
    · rcases abs_choice u with hu | hu <;> simp [hu]
  · have hq := le_max_left q |u|
    have hu := (abs_le.1 (le_max_right q |u|))
    rintro x (rfl | rfl | rfl) <;> linarith

theorem isGreatest_three (c q u : K) : IsGreatest {c + u, c - q, c - u} (c + max (-q) |u|) := by
  constructor
  · rcases max_choice (-q) |u| with h | h <;> rw [h]
    · simp [sub_eq_add_neg]
    · rcases abs_choice u with hu | hu <;> simp [hu, sub_eq_add_neg]
  · have hq := le_max_left (-q) |u|
    have hu := (abs_le.1 (le_max_right (-q) |u|))
    rintro x (rfl | rfl | rfl) <;> linarith

/-- The box around a parallelogram. -/
def boxOf (c q u : K × K) : Box K where
  minx := c.1 - max |q.1| |u.1|
  maxx := c.1 + max |q.1| |u.1|
  miny := c.2 - max |q.2| |u.2|
  maxy := c.2 + max |q.2| |u.2|

/-- **The box around a parallelogram.** -/
theorem isBoxOf_diagonals (c q u : K × K) : IsBoxOf {p | p ∈ diagonals c q u} (boxOf c q u) := by
  have hset : {p | p ∈ diagonals c q u} = {c + q, c + u, c - q, c - u} := by
    ext p
    simp [diagonals]
  rw [hset]
  constructor <;> simp only [Set.image_insert_eq, Set.image_singleton, boxOf]
  · exact isLeast_four c.1 q.1 u.1
  · exact isGreatest_four c.1 q.1 u.1
  · exact isLeast_four c.2 q.2 u.2
  · exact isGreatest_four c.2 q.2 u.2

/-- The box around a parallelogram without its first corner. -/
def threeBoxOf (c q u : K × K) : Box K where
  minx := c.1 - max q.1 |u.1|
  maxx := c.1 + max (-q.1) |u.1|
  miny := c.2 - max q.2 |u.2|
  maxy := c.2 + max (-q.2) |u.2|

/-- **The box around three corners.** -/
theorem isBoxOf_three {points : List (K × K)} {c q u : K × K}
    (h : points.Perm [c + u, c - q, c - u]) :
    IsBoxOf {p | p ∈ points} (threeBoxOf c q u) := by
  have hset : {p | p ∈ points} = {c + u, c - q, c - u} := by
    ext p
    simp [h.mem_iff]
  rw [hset]
  constructor <;> simp only [Set.image_insert_eq, Set.image_singleton, threeBoxOf]
  · exact isLeast_three c.1 q.1 u.1
  · exact isGreatest_three c.1 q.1 u.1
  · exact isLeast_three c.2 q.2 u.2
  · exact isGreatest_three c.2 q.2 u.2

/-- Without one corner the extent stays in the middle if the others reach as far. -/
theorem max_neg_eq_iff (q u : K) : max (-q) |u| = max q |u| ↔ |q| ≤ |u| := by
  constructor
  · intro h
    by_contra hlt
    rw [not_le] at hlt
    have hu := abs_nonneg u
    rcases abs_cases q with ⟨hq, hq'⟩ | ⟨hq, hq'⟩
    · rw [max_eq_left (a := q) (by linarith)] at h
      rcases max_choice (-q) |u| with hmax | hmax <;> linarith
    · rw [max_eq_left (a := -q) (by linarith)] at h
      rcases max_choice q |u| with hmax | hmax <;> linarith
  · intro h
    rw [max_eq_right ((neg_le_abs q).trans h), max_eq_right ((le_abs_self q).trans h)]

/-- A box has a point in its middle. -/
def Box.Around (b : Box K) (c : K × K) : Prop :=
  b.minx + b.maxx = 2 * c.1 ∧ b.miny + b.maxy = 2 * c.2

omit [IsStrictOrderedRing K] in
theorem around_boxOf (c q u : K × K) : (boxOf c q u).Around c :=
  ⟨by rw [boxOf]; ring, by rw [boxOf]; ring⟩

/-- The box around three corners has the centre in its middle if no corner reaches further than
the two beside it. -/
theorem around_threeBoxOf (c q u : K × K) :
    (threeBoxOf c q u).Around c ↔ |q.1| ≤ |u.1| ∧ |q.2| ≤ |u.2| := by
  have hmiddle : ∀ a q u : K, a - max q |u| + (a + max (-q) |u|) = 2 * a ↔ |q| ≤ |u| := by
    intro a q u
    rw [← max_neg_eq_iff]
    constructor <;> intro h <;> linear_combination h
  rw [Box.Around, threeBoxOf, hmiddle, hmiddle]

/-- **Which rectangles have a box that three corners determine**: those whose diagonals reach
equally far along the axes. -/
theorem inner_iff {q u : K × K} (h : sqNorm q = sqNorm u) :
    |q.1| ≤ |u.1| ∧ |q.2| ≤ |u.2| ↔ q.1 ^ 2 = u.1 ^ 2 := by
  rw [← sq_le_sq, ← sq_le_sq]
  simp only [sqNorm] at h
  constructor
  · rintro ⟨hx, hy⟩
    linarith
  · intro hx
    exact ⟨hx.le, by linarith⟩

/-! ### Frames -/

/-- The rectangle of a size at the origin. -/
def frame (width height : K) : Set (K × K) :=
  Set.Icc 0 width ×ˢ Set.Icc 0 height

/-- Its corners. -/
def frameCorners (width height : K) : List (K × K) :=
  [(0, 0), (width, 0), (width, height), (0, height)]

theorem frame_eq_convexHull {width height : K} (hwidth : 0 ≤ width) (hheight : 0 ≤ height) :
    frame width height = convexHull K {p | p ∈ frameCorners width height} := by
  have hset : {p | p ∈ frameCorners width height} =
      ({0, width} : Set K) ×ˢ ({0, height} : Set K) := by
    ext ⟨x, y⟩
    simp only [frameCorners, List.mem_cons, List.not_mem_nil, or_false, Prod.mk.injEq, Set.mem_prod,
      Set.mem_insert_iff, Set.mem_singleton_iff, Set.mem_ofPred_eq]
    tauto
  rw [hset, convexHull_prod, convexHull_pair, convexHull_pair, segment_eq_Icc hwidth,
    segment_eq_Icc hheight, frame]

/-- The middle of a frame. -/
def middle (width height : K) : K × K :=
  (width / 2, height / 2)

/-- From the middle to the first corner. -/
def toFirst (width height : K) : K × K :=
  (-(width / 2), -(height / 2))

/-- From the middle to the second corner. -/
def toSecond (width height : K) : K × K :=
  (width / 2, -(height / 2))

omit [LinearOrder K] [IsStrictOrderedRing K] in
theorem frameCorners_eq [NeZero (2 : K)] (width height : K) :
    frameCorners width height =
      diagonals (middle width height) (toFirst width height) (toSecond width height) := by
  simp [frameCorners, diagonals, middle, toFirst, toSecond, add_halves]

/-! ### Frames that are turned -/

section Turned

variable {k width height : K} {Q M : Matrix (Fin 3) (Fin 3) K}

omit [LinearOrder K] [IsStrictOrderedRing K] in
theorem sqNorm_frame (width height : K) :
    sqNorm (toFirst width height) = sqNorm (toSecond width height) := by
  simp [sqNorm, toFirst, toSecond]

/-- **The corners of a frame under a matrix.** -/
theorem map_frameCorners (h : Affine M) (width height : K) :
    (frameCorners width height).map (image M) = diagonals (image M (middle width height))
      (linear M (toFirst width height)) (linear M (toSecond width height)) := by
  rw [frameCorners_eq, map_image_diagonals h]

theorem image_frame (h : Affine M) (hwidth : 0 ≤ width) (hheight : 0 ≤ height) :
    image M '' frame width height =
      convexHull K {p | p ∈ (frameCorners width height).map (image M)} := by
  have hset : {p | p ∈ (frameCorners width height).map (image M)} =
      image M '' {p | p ∈ frameCorners width height} := by
    ext p
    simp
  rw [frame_eq_convexHull hwidth hheight, h.image_convexHull, hset]

/-- **What a matrix takes into a frame**, as the hull of the corners that are taken back. -/
theorem convexHull_inv_frame (h : Affine M) (hdet : IsUnit M.det) (hwidth : 0 ≤ width)
    (hheight : 0 ≤ height) :
    convexHull K {p | p ∈ (frameCorners width height).map (image M⁻¹)} =
      {p | image M p ∈ frame width height} := by
  have hinv := h.inv hdet
  rw [← image_frame hinv hwidth hheight]
  ext p
  constructor
  · rintro ⟨p', hp', rfl⟩
    show image M (image M⁻¹ p') ∈ frame width height
    rwa [hinv.image_image, mul_nonsing_inv _ hdet, image_one]
  · intro hp
    refine ⟨image M p, hp, ?_⟩
    rw [h.image_image, nonsing_inv_mul _ hdet, image_one]

/-- **The box around the image of a frame.** -/
theorem isBoxOf_image_frame (h : Affine M) (hwidth : 0 ≤ width) (hheight : 0 ≤ height) :
    IsBoxOf (image M '' frame width height) (boxOf (image M (middle width height))
      (linear M (toFirst width height)) (linear M (toSecond width height))) := by
  rw [image_frame h hwidth hheight, map_frameCorners h]
  exact (isBoxOf_diagonals _ _ _).convexHull

/-- **Which frames stay along the axes**: a side that is not turned, or turned by a right angle. -/
theorem Multiple.upright_iff (h : Multiple k Q M) (hk : k ≠ 0) (hwidth : 0 < width)
    (hheight : 0 < height) :
    (linear M (toFirst width height)).1 ^ 2 = (linear M (toSecond width height)).1 ^ 2 ↔
      Q 0 0 = 0 ∨ Q 0 1 = 0 := by
  obtain ⟨⟨h00, h01⟩, -⟩ := h.entries
  have hdifference : (linear M (toFirst width height)).1 ^ 2 -
      (linear M (toSecond width height)).1 ^ 2 =
        k ^ 2 * width * height * (Q 0 0 * Q 0 1) := by
    simp only [linear_apply, toFirst, toSecond, h00, h01]
    ring
  rw [← sub_eq_zero, hdifference, mul_eq_zero, mul_eq_zero (a := Q 0 0)]
  have hfactor : k ^ 2 * width * height ≠ 0 :=
    mul_ne_zero (mul_ne_zero (pow_ne_zero 2 hk) hwidth.ne') hheight.ne'
  simp only [hfactor, false_or]

omit [IsStrictOrderedRing K] in
theorem max_abs_pos [IsOrderedRing K] {a b : K} (hwidth : 0 < width) (hheight : 0 < height)
    (h : a ≠ 0 ∨ b ≠ 0) :
    0 < max |a * -(width / 2) + b * -(height / 2)| |a * (width / 2) + b * -(height / 2)| := by
  rw [lt_max_iff, abs_pos, abs_pos]
  by_contra hzero
  push Not at hzero
  obtain ⟨hq, hu⟩ := hzero
  have ha : a * width = 0 := by linear_combination hu - hq
  have hb : b * height = 0 := by linear_combination -hq - hu
  rcases h with h | h
  · exact h ((mul_eq_zero.1 ha).resolve_right hwidth.ne')
  · exact h ((mul_eq_zero.1 hb).resolve_right hheight.ne')

/-- The box around a frame that is turned and scaled has an extent along both axes. -/
theorem Multiple.reach_pos (h : Multiple k Q M) (hQ : Isometry Q) (hk : k ≠ 0)
    (hwidth : 0 < width) (hheight : 0 < height) :
    0 < max |(linear M (toFirst width height)).1| |(linear M (toSecond width height)).1| ∧
      0 < max |(linear M (toFirst width height)).2| |(linear M (toSecond width height)).2| := by
  have hdet := (h.isUnit_det hQ hk).ne_zero
  rw [h.toAffine.det_eq] at hdet
  constructor <;> refine max_abs_pos hwidth hheight (not_and_or.1 fun hrow => hdet ?_) <;>
    rw [hrow.1, hrow.2] <;> ring

end Turned

end Order

end DepthaiCore.Rectangles
