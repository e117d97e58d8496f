import Mathlib.Tactic.FieldSimp
import Mathlib.Tactic.Linarith
import Mathlib.Tactic.LinearCombination
import Mathlib.Tactic.Positivity
import Mathlib.Tactic.Ring

/-!
# How two boxes overlap

A span has a positive length, and a box is a span in each direction. The intersection over the
union of two boxes, and its generalisation, which takes off what the smallest enclosing box has
beside the union. Brought to the unit interval, the generalised value is above the plain one,
except where the boxes are the same.
-/

namespace Boxes

variable {K : Type} [Field K] [LinearOrder K]

/-! ### Spans -/

/-- What lies between two numbers. -/
@[ext]
structure Span (K : Type) [LT K] where
  lo : K
  hi : K
  lo_lt_hi : lo < hi

namespace Span

variable (s t : Span K)

def length : K := s.hi - s.lo

/-- The length of what two spans have in common. -/
def overlap : K := max (min s.hi t.hi - max s.lo t.lo) 0

/-- The length of the smallest span around both. -/
def hull : K := max s.hi t.hi - min s.lo t.lo

theorem overlap_comm : s.overlap t = t.overlap s := by
  rw [overlap, overlap, min_comm, max_comm s.lo]

theorem hull_comm : s.hull t = t.hull s := by
  rw [hull, hull, max_comm, min_comm]

theorem overlap_nonneg : 0 ≤ s.overlap t := le_max_right _ _

variable [IsStrictOrderedRing K]

theorem length_pos : 0 < s.length := sub_pos.mpr s.lo_lt_hi

theorem overlap_le_length : s.overlap t ≤ s.length :=
  max_le (sub_le_sub (min_le_left _ _) (le_max_left _ _)) s.length_pos.le

theorem length_le_hull : s.length ≤ s.hull t :=
  sub_le_sub (le_max_left _ _) (min_le_left _ _)

theorem hull_pos : 0 < s.hull t := s.length_pos.trans_le (s.length_le_hull t)

variable {s t}

/-- Spans that meet: what they have in common is counted twice. -/
theorem overlap_add_hull (h : 0 < s.overlap t) :
    s.overlap t + s.hull t = s.length + t.length := by
  have hpos : 0 < min s.hi t.hi - max s.lo t.lo := by
    by_contra hle
    exact h.ne' (max_eq_right (not_lt.mp hle))
  rw [overlap, max_eq_left hpos.le, hull, length, length]
  linear_combination min_add_max s.hi t.hi - min_add_max s.lo t.lo

theorem eq_of_hull_le_overlap (h : s.hull t ≤ s.overlap t) : s = t := by
  have hpos : 0 < s.overlap t := (s.hull_pos t).trans_le h
  have hsum := overlap_add_hull hpos
  have hs : s.hull t = s.length :=
    le_antisymm (h.trans (s.overlap_le_length t)) (s.length_le_hull t)
  have ht : s.hull t = t.length := by
    refine le_antisymm (h.trans ?_) ?_
    · rw [overlap_comm]
      exact t.overlap_le_length s
    · rw [hull_comm]
      exact t.length_le_hull s
  rw [hull, length] at hs
  rw [hull, length] at ht
  have := le_max_left s.hi t.hi
  have := le_max_right s.hi t.hi
  have := min_le_left s.lo t.lo
  have := min_le_right s.lo t.lo
  ext <;> linarith

end Span

/-! ### Boxes -/

/-- A span in each direction. -/
@[ext]
structure Box (K : Type) [LT K] where
  x : Span K
  y : Span K

namespace Box

variable (b c : Box K)

def area : K := b.x.length * b.y.length

/-- The area of the intersection. -/
def inter : K := b.x.overlap c.x * b.y.overlap c.y

/-- The area of the union. -/
def union : K := b.area + c.area - b.inter c

/-- The area of the smallest enclosing box. -/
def enclosing : K := b.x.hull c.x * b.y.hull c.y

/-- The intersection over the union. -/
def iou : K := b.inter c / b.union c

/-- The generalised intersection over the union. -/
def giou : K := b.iou c - (b.enclosing c - b.union c) / b.enclosing c

variable [IsStrictOrderedRing K]

theorem area_pos : 0 < b.area := mul_pos b.x.length_pos b.y.length_pos

theorem enclosing_pos : 0 < b.enclosing c := mul_pos (b.x.hull_pos c.x) (b.y.hull_pos c.y)

theorem inter_le_area : b.inter c ≤ b.area :=
  mul_le_mul (b.x.overlap_le_length c.x) (b.y.overlap_le_length c.y) (b.y.overlap_nonneg c.y)
    b.x.length_pos.le

theorem union_pos : 0 < b.union c := by
  have h := b.inter_le_area c
  have hc := c.area_pos
  rw [union]
  linarith

variable {b c}

/-- **Different boxes:** their intersection times what encloses them is less than the square of
their union. -/
theorem inter_mul_enclosing_lt (h : b ≠ c) : b.inter c * b.enclosing c < b.union c ^ 2 := by
  have hU := b.union_pos c
  obtain hx | hx := (b.x.overlap_nonneg c.x).eq_or_lt
  · have hI : b.inter c = 0 := by rw [inter, ← hx, zero_mul]
    rw [hI, zero_mul]
    positivity
  obtain hy | hy := (b.y.overlap_nonneg c.y).eq_or_lt
  · have hI : b.inter c = 0 := by rw [inter, ← hy, mul_zero]
    rw [hI, zero_mul]
    positivity
  -- The boxes meet: `P` and `Q` are what they have beside the intersection in each direction.
  have hsx := Span.overlap_add_hull hx
  have hsy := Span.overlap_add_hull hy
  have hbx := b.x.overlap_le_length c.x
  have hby := b.y.overlap_le_length c.y
  have hcx := c.x.overlap_le_length b.x
  have hcy := c.y.overlap_le_length b.y
  rw [Span.overlap_comm] at hcx hcy
  obtain ⟨P, hP⟩ : ∃ P, P = b.x.hull c.x - b.x.overlap c.x := ⟨_, rfl⟩
  obtain ⟨Q, hQ⟩ : ∃ Q, Q = b.y.hull c.y - b.y.overlap c.y := ⟨_, rfl⟩
  have hP0 : 0 ≤ P := by linarith
  have hQ0 : 0 ≤ Q := by linarith
  have hPQ : 0 < P ∨ 0 < Q := by
    by_contra hn
    obtain ⟨hp, hq⟩ := not_or.mp hn
    refine h (Box.ext ?_ ?_)
    · exact Span.eq_of_hull_le_overlap (by linarith)
    · exact Span.eq_of_hull_le_overlap (by linarith)
  have hux : b.x.hull c.x = b.x.overlap c.x + P := by linarith
  have huy : b.y.hull c.y = b.y.overlap c.y + Q := by linarith
  have hV : b.x.overlap c.x * b.y.overlap c.y + b.x.overlap c.x * Q + b.y.overlap c.y * P ≤
      b.union c := by
    have h₁ := mul_nonneg (sub_nonneg.mpr hbx) (sub_nonneg.mpr hby)
    have h₂ := mul_nonneg (sub_nonneg.mpr hcx) (sub_nonneg.mpr hcy)
    have hPe : P = b.x.length + c.x.length - 2 * b.x.overlap c.x := by linarith
    have hQe : Q = b.y.length + c.y.length - 2 * b.y.overlap c.y := by linarith
    rw [union, area, area, inter, hPe, hQe]
    linarith
  have hV0 : 0 ≤ b.x.overlap c.x * b.y.overlap c.y + b.x.overlap c.x * Q +
      b.y.overlap c.y * P := by positivity
  refine lt_of_lt_of_le ?_ (pow_le_pow_left₀ hV0 hV 2)
  rw [inter, enclosing, hux, huy]
  have hgap : 0 < (b.x.overlap c.x * Q) ^ 2 + (b.y.overlap c.y * P) ^ 2 := by
    obtain hp | hq := hPQ
    · positivity
    · positivity
  have hrest : 0 ≤ b.x.overlap c.x ^ 2 * b.y.overlap c.y * Q +
      b.x.overlap c.x * b.y.overlap c.y ^ 2 * P +
      b.x.overlap c.x * b.y.overlap c.y * P * Q := by positivity
  linarith

/-- The generalised value in the unit interval is the mean of two quotients. -/
theorem unitGiou_eq : (b.giou c + 1) / 2 = (b.iou c + b.union c / b.enclosing c) / 2 := by
  have hC := (b.enclosing_pos c).ne'
  rw [giou, sub_div, div_self hC]
  ring

theorem iou_lt_unitGiou (h : b ≠ c) : b.iou c < (b.giou c + 1) / 2 := by
  have hlt : b.iou c < b.union c / b.enclosing c := by
    rw [iou, div_lt_div_iff₀ (b.union_pos c) (b.enclosing_pos c), ← sq]
    exact inter_mul_enclosing_lt h
  rw [unitGiou_eq]
  linarith

theorem inter_self (b : Box K) : b.inter b = b.area := by
  have hs : ∀ s : Span K, s.overlap s = s.length := fun s => by
    rw [Span.overlap, min_self, max_self]
    exact max_eq_left s.length_pos.le
  rw [inter, hs, hs, area]

theorem unitGiou_self (b : Box K) : (b.giou b + 1) / 2 = b.iou b := by
  have hU : b.union b = b.area := by rw [union, inter_self, add_sub_cancel_right]
  have hC : b.enclosing b = b.area := by
    rw [enclosing, Span.hull, Span.hull, max_self, min_self, max_self, min_self]
    rfl
  rw [unitGiou_eq, iou, inter_self, hU, hC, div_self b.area_pos.ne']
  norm_num

/-- **The plain value is the generalised one in the unit interval only for the same box.** -/
theorem iou_eq_unitGiou_iff : b.iou c = (b.giou c + 1) / 2 ↔ b = c := by
  refine ⟨fun h => ?_, ?_⟩
  · by_contra hne
    exact (iou_lt_unitGiou hne).ne h
  · rintro rfl
    exact (unitGiou_self b).symm

end Box

end Boxes
