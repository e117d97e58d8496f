import Mathlib.Algebra.Order.BigOperators.Group.List
import Mathlib.Tactic.Ring

/-!
# Arrays in row-major order

The elements of an array with several axes are in one list: the last axis runs fastest. A stride is
the distance in that list between neighbours along an axis; along an axis of extent 1 there are
none, and its stride is zero.
-/

namespace RowMajor

/-- The strides of a shape. -/
def strides : List ℕ → List ℕ
  | [] => []
  | extent :: shape => (if extent = 1 then 0 else shape.prod) :: strides shape

/-- The place of the element with these coordinates. -/
def place : List ℕ → List ℕ → ℕ
  | _ :: shape, x :: coords => x * shape.prod + place shape coords
  | _, _ => 0

/-- There is a coordinate for each axis, and it is below the extent. -/
abbrev Within (coords shape : List ℕ) : Prop :=
  List.Forall₂ (· < ·) coords shape

variable {shape coords : List ℕ} {k : ℕ}

theorem place_lt (h : Within coords shape) : place shape coords < shape.prod := by
  induction h with
  | nil => decide
  | @cons x extent coords shape hx _ ih =>
    rw [place, List.prod_cons]
    calc x * shape.prod + place shape coords < x * shape.prod + shape.prod := by omega
      _ = (x + 1) * shape.prod := (Nat.succ_mul x _).symm
      _ ≤ extent * shape.prod := Nat.mul_le_mul_right _ hx

/-- **The strides lead to the place.** -/
theorem sum_strides (h : Within coords shape) :
    (List.zipWith (· * ·) (strides shape) coords).sum = place shape coords := by
  induction h with
  | nil => rfl
  | @cons x extent coords shape hx _ ih =>
    rw [strides, List.zipWith_cons_cons, List.sum_cons, ih, place]
    split
    · have hzero : x = 0 := by omega
      rw [hzero, Nat.mul_zero, Nat.zero_mul]
    · rw [Nat.mul_comm]

/-- **Every place is that of some coordinates.** -/
theorem exists_place (hk : k < shape.prod) : ∃ coords, Within coords shape ∧ place shape coords = k := by
  induction shape generalizing k with
  | nil =>
    exact ⟨[], .nil, (Nat.lt_one_iff.1 hk).symm⟩
  | cons extent shape ih =>
    rw [List.prod_cons] at hk
    have hpos : 0 < shape.prod := Nat.pos_of_mul_pos_left (Nat.zero_lt_of_lt hk)
    obtain ⟨coords, hcoords, hplace⟩ := ih (Nat.mod_lt k hpos)
    refine ⟨k / shape.prod :: coords, .cons (Nat.div_lt_of_lt_mul (Nat.mul_comm _ _ ▸ hk)) hcoords, ?_⟩
    rw [place, hplace, Nat.mul_comm]
    exact Nat.div_add_mod k shape.prod

/-- **Different coordinates have different places.** -/
theorem place_injective {coords' : List ℕ} (h : Within coords shape) (h' : Within coords' shape)
    (hplace : place shape coords = place shape coords') : coords = coords' := by
  induction h generalizing coords' with
  | nil =>
    cases h'
    rfl
  | @cons x extent coords shape hx hcoords ih =>
    cases h' with
    | @cons x' _ coords' _ hx' hcoords' =>
      have hlt := place_lt hcoords
      have hlt' := place_lt hcoords'
      rw [place, place] at hplace
      have hpos : 0 < shape.prod := Nat.zero_lt_of_lt hlt
      have hhead : x = x' := by
        rw [Nat.mul_comm x, Nat.mul_comm x'] at hplace
        have hdiv := congrArg (· / shape.prod) hplace
        simp only [Nat.mul_add_div hpos, Nat.div_eq_of_lt hlt, Nat.div_eq_of_lt hlt'] at hdiv
        exact hdiv
      subst hhead
      rw [ih hcoords' (Nat.add_left_cancel hplace)]

/-- **The places of the coordinates are the numbers below the product of the extents.** -/
theorem bijOn_place (shape : List ℕ) :
    Set.BijOn (place shape) {coords | Within coords shape} (Set.Iio shape.prod) :=
  ⟨fun _ h => place_lt h, fun _ h _ h' => place_injective h h', fun _ hk => exists_place hk⟩

/-! ### Elements of one size -/

/-- The distances between neighbours, when an element takes `size`. -/
def spans (size : ℕ) : List ℕ → List ℕ
  | [] => []
  | _ :: shape => shape.prod * size :: spans size shape

theorem length_spans (size : ℕ) (shape : List ℕ) : (spans size shape).length = shape.length := by
  induction shape with
  | nil => rfl
  | cons extent shape ih => rw [spans, List.length_cons, List.length_cons, ih]

theorem sum_spans (size : ℕ) (h : Within coords shape) :
    (List.zipWith (· * ·) coords (spans size shape)).sum = place shape coords * size := by
  induction h with
  | nil => exact (Nat.zero_mul size).symm
  | @cons x extent coords shape _ _ ih =>
    rw [spans, List.zipWith_cons_cons, List.sum_cons, ih, place, Nat.add_mul, Nat.mul_assoc]

/-- At the first distance that is not zero, extent and distance multiply to the size of the array.
-/
theorem exists_findIdx?_spans {size : ℕ} (hsize : 0 < size) (hshape : shape ≠ []) :
    ∃ i, (spans size shape).findIdx? (0 < ·) = some i ∧
      shape.getD i 0 * (spans size shape).getD i 0 = shape.prod * size := by
  induction shape with
  | nil => exact absurd rfl hshape
  | cons extent shape ih =>
    rw [spans, List.findIdx?_cons, List.prod_cons]
    by_cases hpos : 0 < shape.prod * size
    · exact ⟨0, by rw [decide_eq_true hpos]; rfl, (Nat.mul_assoc extent _ _).symm⟩
    · have hzero : shape.prod = 0 := by
        rw [Nat.pos_iff_ne_zero, not_not, Nat.mul_eq_zero] at hpos
        exact hpos.resolve_right hsize.ne'
      have hne : shape ≠ [] := by
        rintro rfl
        exact absurd hzero Nat.one_ne_zero
      obtain ⟨i, hi, hmul⟩ := ih hne
      refine ⟨i + 1, by rw [decide_eq_false hpos, hi]; rfl, ?_⟩
      rw [List.getD_cons_succ, List.getD_cons_succ, hmul, hzero, Nat.mul_zero]

/-! ### Blocks -/

/-- **The block of the element at a place,** when every element has a block of the same length. -/
theorem take_drop_flatMap {α β : Type*} {f : α → List β} {n : ℕ} {l : List α}
    (hf : ∀ a ∈ l, (f a).length = n) {a : α} (ha : l[k]? = some a) :
    ((l.flatMap f).drop (k * n)).take n = f a := by
  induction l generalizing k with
  | nil => cases ha
  | cons b l ih =>
    obtain ⟨hb, hl⟩ := List.forall_mem_cons.1 hf
    rw [List.flatMap_cons]
    cases k with
    | zero =>
      obtain rfl := Option.some.inj ha
      rw [Nat.zero_mul, List.drop_zero, List.take_append_of_le_length hb.ge, ← hb, List.take_length]
    | succ k =>
      rw [Nat.succ_mul, Nat.add_comm, ← List.drop_drop, ← hb, List.drop_left, hb]
      exact ih hl ha

theorem length_flatMap {α β : Type*} {f : α → List β} {n : ℕ} {l : List α}
    (hf : ∀ a ∈ l, (f a).length = n) : (l.flatMap f).length = l.length * n := by
  induction l with
  | nil => simp
  | cons b l ih =>
    obtain ⟨hb, hl⟩ := List.forall_mem_cons.1 hf
    rw [List.flatMap_cons, List.length_append, hb, ih hl, List.length_cons, Nat.succ_mul,
      Nat.add_comm]

end RowMajor
