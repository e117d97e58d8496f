import Mathlib.Algebra.BigOperators.Ring.Finset
import Mathlib.Algebra.Order.BigOperators.Group.Finset
import Mathlib.Data.Fintype.BigOperators
import Mathlib.Data.PEquiv
import Mathlib.Tactic.Linarith
import Mathlib.Tactic.Ring

/-!
# The assignment problem

Rows are assigned to columns at a cost. An assignment is optimal if the columns have prices at which
no row would rather have another column. Prices are what a shortest augmenting path changes: columns
that are closer than its end get cheaper by what they are closer.

A partial assignment in which a row or a column that is left out costs the same is a full assignment
of an extended matrix, with a column more for each row and a row more for each column.
-/

namespace Assignment

variable {α β K : Type*}

section Prices

variable [Field K] [LinearOrder K]

/-! ### Prices -/

/-- At these prices, row `i` would not rather have another of the columns than `j`. -/
def Cheapest (cost : α → β → K) (price : β → K) (columns : Set β) (i : α) (j : β) : Prop :=
  ∀ j' ∈ columns, cost i j - price j ≤ cost i j' - price j'

variable [IsStrictOrderedRing K] {cost : α → β → K} {price price' : β → K} {columns : Set β} {i : α}
  {j : β}

theorem Cheapest.mono (h : Cheapest cost price columns i j) (hsame : price' j = price j)
    (hle : ∀ j' ∈ columns, price' j' ≤ price j') : Cheapest cost price' columns i j := by
  intro j' hj'
  rw [hsame]
  exact (h j' hj').trans (sub_le_sub_left (hle j' hj') _)

/-- **Prices show that an assignment is optimal.** -/
theorem sum_le_of_cheapest [Fintype α] [Fintype β] (σ τ : α ≃ β)
    (h : ∀ i, Cheapest cost price Set.univ i (σ i)) :
    ∑ i, cost i (σ i) ≤ ∑ i, cost i (τ i) := by
  have hprices : ∑ i, price (σ i) = ∑ i, price (τ i) :=
    (Equiv.sum_comp σ price).trans (Equiv.sum_comp τ price).symm
  have hle : ∑ i, (cost i (σ i) - price (σ i)) ≤ ∑ i, (cost i (τ i) - price (τ i)) :=
    Finset.sum_le_sum fun i _ => h i (τ i) (Set.mem_univ _)
  rw [Finset.sum_sub_distrib, Finset.sum_sub_distrib, hprices] at hle
  exact (sub_le_sub_iff_right _).1 hle

/-! ### Shortest augmenting paths -/

/-- Distances of the columns from a row. Up to the radius, they respect the steps from a column to
its row and on to another column. -/
structure Distances (cost : α → β → K) (price : β → K) (columns : Set β) (row : β → Option α)
    (start : α) (d : β → K) (radius : K) : Prop where
  start_le : ∀ j ∈ columns, d j ≤ cost start j - price j
  step_le : ∀ j₀ ∈ columns, d j₀ < radius → ∀ i, row j₀ = some i → ∀ j ∈ columns,
    d j ≤ d j₀ + (cost i j - price j) - (cost i j₀ - price j₀)

/-- The prices after a search: what is within the radius gets cheaper. -/
def lowered (price d : β → K) (radius : K) (j : β) : K :=
  price j + (min (d j) radius - radius)

namespace Distances

variable {d : β → K} {row : β → Option α} {start : α} {radius : K} {j₀ : β}

theorem cheapest_assigned (h : Distances cost price columns row start d radius) (hj₀ : j₀ ∈ columns)
    (hrow : row j₀ = some i) (hcheapest : Cheapest cost price columns i j₀) :
    Cheapest cost (lowered price d radius) columns i j₀ := by
  intro j hj
  rw [lowered, lowered]
  have hold := hcheapest j hj
  have hmin := min_le_right (d j) radius
  rcases lt_or_ge (d j₀) radius with hlt | hge
  · have hstep := h.step_le j₀ hj₀ hlt i hrow j hj
    have hmin' := min_le_left (d j) radius
    rw [min_eq_left hlt.le]
    linarith
  · rw [min_eq_right hge]
    linarith

/-- A row may have the next column on a shortest path instead. -/
theorem cheapest_next (h : Distances cost price columns row start d radius) (hj₀ : j₀ ∈ columns)
    (hrow : row j₀ = some i) (hcheapest : Cheapest cost price columns i j₀) (hle : d j₀ ≤ d j)
    (hradius : d j ≤ radius)
    (hstep : d j = d j₀ + (cost i j - price j) - (cost i j₀ - price j₀)) :
    Cheapest cost (lowered price d radius) columns i j := by
  intro j' hj'
  have hkeep := h.cheapest_assigned hj₀ hrow hcheapest j' hj'
  refine le_trans (le_of_eq ?_) hkeep
  rw [lowered, lowered, min_eq_left hradius, min_eq_left (hle.trans hradius), hstep]
  ring

/-- The free row may have the first column on a shortest path. -/
theorem cheapest_start (h : Distances cost price columns row start d radius)
    (hradius : d j ≤ radius) (hstep : d j = cost start j - price j) :
    Cheapest cost (lowered price d radius) columns start j := by
  intro j' hj'
  have hstart := h.start_le j' hj'
  rw [lowered, lowered, min_eq_left hradius]
  rcases le_total (d j') radius with hle | hle
  · rw [min_eq_left hle]
    linarith
  · rw [min_eq_right hle]
    linarith

end Distances

end Prices

/-! ### Partial assignments -/

/-- A column more for each row, and a row more for each column. -/
def extended [Zero K] (cost : α → β → K) (w : K) : α ⊕ β → β ⊕ α → K
  | .inl i, .inl j => cost i j
  | .inl _, .inr _ => w
  | .inr _, .inl _ => w
  | .inr _, .inr _ => 0

/-- The pairs of old rows and old columns. -/
def restrict (σ : α ⊕ β ≃ β ⊕ α) : α ≃. β where
  toFun i := (σ (.inl i)).getLeft?
  invFun j := (σ.symm (.inl j)).getLeft?
  inv i j := by
    rw [Sum.getLeft?_eq_some_iff, Sum.getLeft?_eq_some_iff, Equiv.symm_apply_eq, eq_comm]

/-- A row that is left out gets its new column, and a column that is left out its new row. -/
def complete (f : α ≃. β) : α ⊕ β ≃ β ⊕ α where
  toFun := Sum.elim (fun i => (f i).elim (.inr i) .inl) fun j => (f.symm j).elim (.inl j) .inr
  invFun := Sum.elim (fun j => (f.symm j).elim (.inr j) .inl) fun i => (f i).elim (.inl i) .inr
  left_inv := by
    rintro (i | j)
    · cases hi : f i with
      | none => simp [hi]
      | some j => simp [hi, f.eq_some_iff.2 hi]
    · cases hj : f.symm j with
      | none => simp [hj]
      | some i => simp [hj, f.eq_some_iff.1 hj]
  right_inv := by
    rintro (j | i)
    · cases hj : f.symm j with
      | none => simp [hj]
      | some i => simp [hj, f.eq_some_iff.1 hj]
    · cases hi : f i with
      | none => simp [hi]
      | some j => simp [hi, f.eq_some_iff.2 hi]

theorem restrict_complete (f : α ≃. β) : restrict (complete f) = f := by
  refine PEquiv.ext fun i => ?_
  show (complete f (.inl i)).getLeft? = f i
  cases hi : f i with
  | none => simp [complete, hi]
  | some j => simp [complete, hi]

section Values

variable [Field K]

theorem sum_none {γ δ : Type*} [Fintype γ] (w : K) (g : γ → Option δ) :
    ∑ c, (if g c = none then w else 0) = w * (Finset.univ.filter fun c => g c = none).card := by
  rw [← Finset.sum_filter, Finset.sum_const, nsmul_eq_mul, mul_comm]

variable [Fintype α] [Fintype β]

/-- The costs of the pairs, and `w` for each row and each column that is left out. -/
def value (cost : α → β → K) (w : K) (f : α ≃. β) : K :=
  (∑ i, (f i).elim 0 (cost i)) +
    w * ((Finset.univ.filter fun i => f i = none).card +
      (Finset.univ.filter fun j => f.symm j = none).card)

variable {cost : α → β → K} {w : K}

theorem value_restrict (σ : α ⊕ β ≃ β ⊕ α) :
    value cost w (restrict σ) = ∑ r, extended cost w r (σ r) := by
  -- The pairs with an old row, and those of a new row and an old column.
  let old : α ⊕ β → β ⊕ α → K := fun r c => r.elim (fun i => extended cost w (.inl i) c) 0
  let new : α ⊕ β → β ⊕ α → K := fun r c =>
    c.elim (fun _ => if r.getLeft? = none then w else 0) 0
  have hsplit (r : α ⊕ β) (c : β ⊕ α) : extended cost w r c = old r c + new r c := by
    rcases r with i | j <;> rcases c with j' | i' <;> simp [extended, old, new]
  have hold : ∑ r, old r (σ r) = (∑ i, (restrict σ i).elim 0 (cost i)) +
      ∑ i, if restrict σ i = none then w else 0 := by
    rw [Fintype.sum_sum_type, ← Finset.sum_add_distrib]
    have hzero : ∑ j, old (.inr j) (σ (.inr j)) = 0 := Finset.sum_eq_zero fun _ _ => rfl
    rw [hzero, add_zero]
    refine Finset.sum_congr rfl fun i _ => ?_
    show extended cost w (.inl i) (σ (.inl i)) = ((σ (.inl i)).getLeft?).elim 0 (cost i) +
      if (σ (.inl i)).getLeft? = none then w else 0
    rcases σ (.inl i) with j | i' <;> simp [extended]
  have hnew : ∑ r, new r (σ r) = ∑ j, if (restrict σ).symm j = none then w else 0 := by
    have hcolumns : ∑ r, new r (σ r) = ∑ c, new (σ.symm c) c := by
      rw [← Equiv.sum_comp σ]
      simp only [Equiv.symm_apply_apply]
    have hzero : ∑ i, new (σ.symm (.inr i)) (.inr i) = 0 := Finset.sum_eq_zero fun _ _ => rfl
    rw [hcolumns, Fintype.sum_sum_type, hzero, add_zero]
    rfl
  simp only [hsplit]
  rw [Finset.sum_add_distrib, hold, hnew, sum_none, sum_none, value]
  ring

/-- **Full assignments are enough.** If prices show that one is optimal, then its restriction is as
good as any partial assignment. -/
theorem value_restrict_le [LinearOrder K] [IsStrictOrderedRing K] {price : β ⊕ α → K}
    {σ : α ⊕ β ≃ β ⊕ α} (h : ∀ r, Cheapest (extended cost w) price Set.univ r (σ r)) (g : α ≃. β) :
    value cost w (restrict σ) ≤ value cost w g := by
  rw [← restrict_complete g, value_restrict, value_restrict]
  exact sum_le_of_cheapest σ (complete g) h

end Values

end Assignment
