import Mathlib.Data.List.Basic
import Mathlib.Tactic.Linarith
import Mathlib.Tactic.Ring

/-!
# Strided views

A view shows rows of elements in a list. They all have the same length and begin at the same
distance from one another, so between two rows there may be elements that belong to none.
-/

/-- Rows of `cols` elements. -/
structure StridedView (α : Type*) where
  data : List α
  offset : ℕ
  stride : ℕ
  rows : ℕ
  cols : ℕ
  cols_le_stride : cols ≤ stride
  within : 0 < rows → 0 < cols → offset + (rows - 1) * stride + cols ≤ data.length

namespace StridedView

variable {α : Type*} (v : StridedView α)

def row (y : ℕ) : List α := (v.data.drop (v.offset + y * v.stride)).take v.cols

/-- The elements, one row after the other. -/
def elements : List α := (List.range v.rows).flatMap v.row

/-- The rows follow one another. -/
def Packed : Prop := v.rows ≤ 1 ∨ v.stride = v.cols

instance : Decidable v.Packed := inferInstanceAs (Decidable (_ ∨ _))

variable {v} {y : ℕ}

theorem row_le (hy : y < v.rows) (hcols : 0 < v.cols) :
    v.offset + y * v.stride + v.cols ≤ v.data.length := by
  have hwithin := v.within (Nat.zero_lt_of_lt hy) hcols
  have hle : y * v.stride ≤ (v.rows - 1) * v.stride := Nat.mul_le_mul_right _ (Nat.le_pred_of_lt hy)
  omega

theorem length_row (hy : y < v.rows) : (v.row y).length = v.cols := by
  rw [row, List.length_take, List.length_drop]
  obtain hzero | hpos := v.cols.eq_zero_or_pos
  · omega
  · have := row_le hy hpos
    omega

theorem length_flatMap_row {n : ℕ} (hn : n ≤ v.rows) :
    ((List.range n).flatMap v.row).length = n * v.cols := by
  induction n with
  | zero => simp
  | succ n ih =>
    rw [List.range_succ, List.flatMap_append, List.length_append, ih (by omega),
      List.flatMap_singleton, length_row hn, Nat.succ_mul]

variable (v) in
theorem length_elements : v.elements.length = v.rows * v.cols :=
  length_flatMap_row le_rfl

/-- **Rows that follow one another** are one stretch of the list. -/
theorem elements_of_packed (h : v.Packed) :
    v.elements = (v.data.drop v.offset).take (v.rows * v.cols) := by
  have hrows : ∀ n ≤ v.rows, (List.range n).flatMap v.row =
      (v.data.drop v.offset).take (n * v.cols) := by
    intro n hn
    induction n with
    | zero => simp
    | succ n ih =>
      have hstep : n * v.stride = n * v.cols := by
        obtain hone | heq := h
        · obtain rfl : n = 0 := by omega
          rw [Nat.zero_mul, Nat.zero_mul]
        · rw [heq]
      rw [List.range_succ, List.flatMap_append, ih (by omega), List.flatMap_singleton, row, hstep,
        Nat.succ_mul, List.take_add, List.drop_drop]
  exact hrows v.rows le_rfl

theorem eq_of_length (hlength : v.data.length = v.rows * v.cols) (hpos : 0 < v.data.length) :
    v.offset = 0 ∧ v.Packed := by
  rw [hlength] at hpos
  have hrows : 0 < v.rows := Nat.pos_of_mul_pos_right hpos
  have hcols : 0 < v.cols := Nat.pos_of_mul_pos_left hpos
  have hwithin := v.within hrows hcols
  obtain ⟨n, hn⟩ : ∃ n, v.rows = n + 1 := ⟨v.rows - 1, by omega⟩
  rw [hlength, hn, Nat.add_sub_cancel, Nat.succ_mul] at hwithin
  have hle := Nat.mul_le_mul_left n v.cols_le_stride
  refine ⟨by omega, ?_⟩
  obtain rfl | hn0 := n.eq_zero_or_pos
  · exact .inl hn.le
  · have heq : n * v.stride = n * v.cols := by omega
    exact .inr (Nat.eq_of_mul_eq_mul_left hn0 heq)

/-- **A view that takes up a list** shows it as it is. -/
theorem elements_of_length (hlength : v.data.length = v.rows * v.cols) : v.elements = v.data := by
  obtain hzero | hpos := v.data.length.eq_zero_or_pos
  · have hempty : v.elements.length = 0 := by rw [length_elements, ← hlength, hzero]
    rw [List.length_eq_zero_iff.1 hempty, List.length_eq_zero_iff.1 hzero]
  · obtain ⟨hoffset, hpacked⟩ := eq_of_length hlength hpos
    rw [elements_of_packed hpacked, hoffset, List.drop_zero, ← hlength, List.take_length]

theorem elements_eq_data_iff : v.elements = v.data ↔ v.data.length = v.rows * v.cols :=
  ⟨fun h => by rw [← v.length_elements, h], elements_of_length⟩

end StridedView
