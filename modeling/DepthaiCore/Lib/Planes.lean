import Mathlib.Data.Nat.Bitwise
import Mathlib.Order.CompletePartialOrder
import Mathlib.Order.Interval.Set.Disjoint
import Mathlib.Tactic.Linarith
import Mathlib.Tactic.Ring

/-!
# Planes of rows

A plane of an image is in memory as rows of equally many bytes, with one row every stride. The bytes
between the end of a row and the next row belong to no pixel.
-/

/-- Rows of `bytes` bytes, one every `stride`. -/
structure Plane where
  offset : ℕ
  stride : ℕ
  rows : ℕ
  bytes : ℕ
  deriving DecidableEq, Repr

namespace Plane

variable {p q : Plane} {n i j : ℕ}

/-- The addresses of a row. -/
def row (p : Plane) (i : ℕ) : Set ℕ :=
  Set.Ico (p.offset + i * p.stride) (p.offset + i * p.stride + p.bytes)

/-- The address behind the last stride. -/
def stop (p : Plane) : ℕ :=
  p.offset + p.rows * p.stride

/-- No two rows overlap. -/
def Separate (p : Plane) : Prop :=
  ∀ i < p.rows, ∀ j < p.rows, i ≠ j → Disjoint (p.row i) (p.row j)

/-- No row of one plane overlaps a row of the other. -/
def Apart (p q : Plane) : Prop :=
  ∀ i < p.rows, ∀ j < q.rows, Disjoint (p.row i) (q.row j)

/-- All rows are below the address. -/
def Below (p : Plane) (n : ℕ) : Prop :=
  ∀ i < p.rows, p.row i ⊆ Set.Iio n

theorem row_stop_le (h : i < j) : p.offset + i * p.stride + p.stride ≤ p.offset + j * p.stride := by
  have := Nat.mul_le_mul_right p.stride (Nat.succ_le_of_lt h)
  rw [Nat.succ_mul] at this
  omega

theorem disjoint_row (hbytes : p.bytes ≤ p.stride) (h : i < j) : Disjoint (p.row i) (p.row j) := by
  have := row_stop_le (p := p) h
  rw [row, row, Set.Ico_disjoint_Ico]
  exact (min_le_left _ _).trans ((by omega : _ ≤ p.offset + j * p.stride).trans (le_max_right _ _))

theorem separate_of_le (hbytes : p.bytes ≤ p.stride) : p.Separate := by
  intro i hi j hj hij
  rcases Nat.lt_or_gt_of_ne hij with h | h
  · exact disjoint_row hbytes h
  · exact (disjoint_row hbytes h).symm

theorem below_stop (hbytes : p.bytes ≤ p.stride) : p.Below p.stop := by
  intro i hi x hx
  have := row_stop_le (p := p) hi
  have := hx.2
  rw [Set.mem_Iio, stop]
  omega

theorem below_of_le (hbytes : p.bytes ≤ p.stride) (h : p.stop ≤ n) : p.Below n :=
  fun i hi _ hx => lt_of_lt_of_le (below_stop hbytes i hi hx) h

/-- A plane that ends where the other starts, or before. -/
theorem apart_of_le (hbytes : p.bytes ≤ p.stride) (h : p.stop ≤ q.offset) : p.Apart q := by
  intro i hi j hj
  rw [Set.disjoint_left]
  intro x hx hx'
  have hlt : x < p.stop := below_stop hbytes i hi hx
  have := hx'.1
  omega

/-- Of rows that do not overlap, none is longer than the stride. -/
theorem Separate.bytes_le (h : p.Separate) (hrows : 2 ≤ p.rows) (hpos : 0 < p.bytes) :
    p.bytes ≤ p.stride := by
  by_contra hlt
  have hfirst : p.offset + p.stride ∈ p.row 0 := ⟨by omega, by omega⟩
  have hsecond : p.offset + p.stride ∈ p.row 1 := ⟨by omega, by omega⟩
  exact Set.disjoint_left.1 (h 0 (by omega) 1 (by omega) (by omega)) hfirst hsecond

/-! ### Rows and columns exchanged -/

/-- The addresses of all rows. -/
def addresses (p : Plane) : Set ℕ :=
  {x | ∃ i < p.rows, x ∈ p.row i}

/-- **Rows and columns exchanged.** A plane of `w` rows of `h` bytes, from zero on, has the addresses of
one of `h` rows of `w` bytes, if and only if the two are one. -/
theorem addresses_eq_iff {offset stride w h : ℕ} (hw : 0 < w) (hh : 0 < h) (hstride : w ≤ stride)
    (htwo : 2 ≤ stride) :
    addresses ⟨0, stride, w, h⟩ = addresses ⟨offset, stride, h, w⟩ ↔ w = h ∧ offset = 0 := by
  constructor
  · intro heq
    have hzero : 0 ∈ addresses ⟨offset, stride, h, w⟩ := by
      rw [← heq]
      exact ⟨0, hw, by simp [row, hh]⟩
    obtain ⟨i, -, hi, -⟩ := hzero
    obtain rfl : offset = 0 := by
      simp only at hi
      omega
    refine ⟨?_, rfl⟩
    rcases Nat.lt_trichotomy w h with hlt | rfl | hlt
    · -- The last row of the one reaches beyond the other.
      have hmem : (h - 1) * stride + (w - 1) ∈ addresses ⟨0, stride, w, h⟩ := by
        rw [heq]
        exact ⟨h - 1, by simp only; omega, by simp only [row, Set.mem_Ico]; omega⟩
      obtain ⟨j, hj, -, hj'⟩ := hmem
      simp only at hj hj'
      obtain ⟨d, rfl⟩ := Nat.exists_eq_add_of_lt hlt
      have hrow := Nat.mul_le_mul_right stride (Nat.le_sub_one_of_lt hj)
      have hsplit : (w + d + 1 - 1) * stride = (w - 1) * stride + (d + 1) * stride := by
        rw [← Nat.add_mul]
        congr 1
        omega
      have hmul := Nat.mul_le_mul_left (d + 1) htwo
      omega
    · rfl
    · -- And the first byte of the last row lies behind it.
      have hmem : (w - 1) * stride ∈ addresses ⟨0, stride, h, w⟩ := by
        rw [← heq]
        exact ⟨w - 1, by simp only; omega, by simp only [row, Set.mem_Ico]; omega⟩
      obtain ⟨j, hj, -, hj'⟩ := hmem
      simp only at hj hj'
      have hrow := Nat.mul_le_mul_right stride (show j + 1 ≤ w - 1 by omega)
      rw [Nat.succ_mul] at hrow
      omega
  · rintro ⟨rfl, rfl⟩
    rfl

theorem mem_addresses_zero {w h x : ℕ} (hw : 0 < w) : x ∈ addresses ⟨0, 0, w, h⟩ ↔ x < h := by
  constructor
  · rintro ⟨i, -, -, hx⟩
    simpa using hx
  · intro hx
    exact ⟨0, hw, by simpa [row] using hx⟩

/-! ### Planes one after the other -/

/-- Planes one after the other, up to an address. -/
structure Stacked (planes : List Plane) (n : ℕ) : Prop where
  bytes_le : ∀ p ∈ planes, p.bytes ≤ p.stride
  ordered : planes.Pairwise fun p q => p.stop ≤ q.offset
  stop_le : ∀ p ∈ planes, p.stop ≤ n

/-- No two rows of a plane overlap, nor do rows of different planes. -/
structure Laid (planes : List Plane) : Prop where
  separate : ∀ p ∈ planes, p.Separate
  apart : planes.Pairwise Apart

variable {planes : List Plane}

theorem Stacked.laid (h : Stacked planes n) : Laid planes where
  separate p hp := separate_of_le (h.bytes_le p hp)
  apart := h.ordered.imp_of_mem fun hp _ hle => apart_of_le (h.bytes_le _ hp) hle

theorem Stacked.below (h : Stacked planes n) {m : ℕ} (hm : n ≤ m) (hp : p ∈ planes) : p.Below m :=
  below_of_le (h.bytes_le p hp) ((h.stop_le p hp).trans hm)

end Plane

/-- **A multiple by a mask.** To clear the lower bits rounds down to a multiple of a power of two. -/
theorem mask_eq_div_mul {n k width : ℕ} (hn : n < 2 ^ width) (hk : k ≤ width) :
    n &&& (2 ^ width - 1 - (2 ^ k - 1)) = n / 2 ^ k * 2 ^ k := by
  have hmask : 2 ^ k - 1 < 2 ^ width :=
    lt_of_lt_of_le (Nat.sub_lt (Nat.two_pow_pos k) one_pos) (Nat.pow_le_pow_right two_pos hk)
  refine Nat.eq_of_testBit_eq fun i => ?_
  rw [Nat.testBit_and, Nat.sub_sub, Nat.add_comm 1, Nat.testBit_two_pow_sub_succ hmask,
    Nat.testBit_two_pow_sub_one, Nat.testBit_mul_two_pow, Nat.testBit_div_two_pow]
  by_cases hik : i < k
  · simp [hik, Nat.not_le.2 hik]
  · rw [Nat.not_lt] at hik
    by_cases hiw : i < width
    · simp [hik, hiw, Nat.not_lt.2 hik]
    · have hbit : n.testBit i = false :=
        Nat.testBit_eq_false_of_lt (hn.trans_le (Nat.pow_le_pow_right two_pos (Nat.not_lt.1 hiw)))
      simp [hik, hbit]
