import Mathlib.Algebra.BigOperators.Group.List.Basic
import Mathlib.Algebra.Order.Group.Defs
import Mathlib.Order.Bounds.Basic
import Mathlib.Tactic.Abel

/-!
# Least aligned tuples

Several sequences of time stamps, one for each index, are read from the front. A *tuple* picks a
position in each sequence, and is aligned when the stamps at its positions lie within a window of
each other. The way to the least aligned tuple is to drop, as long as the stamps at the front are
not aligned, a front with the smallest stamp: when the stamps of a sequence never decrease, such a
front belongs to no aligned tuple that is still to come.

The argument splits in two. For any set of tuples, a lower bound may be moved past a position at
which no tuple of the set stays; this is a fact about lower bounds in a product of copies of `ℕ`.
And a front with the smallest stamp is such a position.
-/

namespace Alignment

variable {ι τ : Type*}

/-! ### Lower bounds -/

/-- A lower bound may move on at an index at which no tuple stays. -/
theorem update_mem_lowerBounds [DecidableEq ι] {G : Set (ι → ℕ)} {v : ι → ℕ} {i : ι}
    (h : v ∈ lowerBounds G) (hne : ∀ T ∈ G, T i ≠ v i) :
    Function.update v i (v i + 1) ∈ lowerBounds G := by
  intro T hT j
  have hle := h hT j
  by_cases hj : j = i
  · subst hj
    rw [Function.update_self]
    exact Nat.lt_of_le_of_ne hle (hne T hT).symm
  · rwa [Function.update_of_ne hj]

/-- A lower bound may move on at all of `names` for the tuples that stay at none of them. -/
theorem succ_mem_lowerBounds {G : Set (ι → ℕ)} {v w : ι → ℕ} {names : List ι}
    (h : v ∈ lowerBounds G) (hsucc : ∀ i ∈ names, w i = v i + 1)
    (hsame : ∀ i, i ∉ names → w i = v i) :
    w ∈ lowerBounds {T ∈ G | ∀ i ∈ names, T i ≠ v i} := by
  rintro T ⟨hT, hne⟩ i
  have hle := h hT i
  by_cases hi : i ∈ names
  · rw [hsucc i hi]
    exact Nat.lt_of_le_of_ne hle (hne i hi).symm
  · rwa [hsame i hi]

/-! ### Aligned tuples -/

section Aligned

variable [AddCommGroup τ] [LinearOrder τ] [IsOrderedAddMonoid τ]

/-- The stamps of a sequence never decrease. -/
def NonDecreasing (ts : ι → ℕ → Option τ) : Prop :=
  ∀ i m n a b, m ≤ n → ts i m = some a → ts i n = some b → a ≤ b

/-- The stamps at the positions of `T` exist, and any two of them differ by less than `w`. -/
structure Aligned (ts : ι → ℕ → Option τ) (names : List ι) (w : τ) (T : ι → ℕ) : Prop where
  exists_stamp : ∀ i ∈ names, ∃ a, ts i (T i) = some a
  sub_lt : ∀ i ∈ names, ∀ j ∈ names, ∀ a b, ts i (T i) = some a → ts j (T j) = some b → a - b < w

/-- An aligned tuple that is not behind `v` does not stay at the oldest front of `v`, if the newest
front of `v` is too far away from it. -/
theorem ne_of_oldest {ts : ι → ℕ → Option τ} {names : List ι} {w : τ} {v T : ι → ℕ}
    (hmono : NonDecreasing ts) (hT : Aligned ts names w T) (hle : v ≤ T) {i j : ι}
    (hi : i ∈ names) (hj : j ∈ names) {oldest newest : τ} (holdest : ts i (v i) = some oldest)
    (hnewest : ts j (v j) = some newest) (hfar : w ≤ newest - oldest) : T i ≠ v i := by
  intro heq
  obtain ⟨b, hb⟩ := hT.exists_stamp j hj
  have hnewer : newest ≤ b := hmono j (v j) (T j) newest b (hle j) hnewest hb
  have hlt : b - oldest < w := hT.sub_lt j hj i hi b oldest hb (by rw [heq, holdest])
  have hge : newest - oldest ≤ b - oldest := sub_le_sub_right hnewer oldest
  exact absurd hlt (not_lt.mpr (hfar.trans hge))

end Aligned

/-! ### Distances -/

/-- The number of positions by which `T` is ahead of `v` at the indices `names`. -/
def distance (names : List ι) (v T : ι → ℕ) : ℕ := (names.map fun i => T i - v i).sum

theorem distance_le_of_le (names : List ι) {v v' T : ι → ℕ} (h : v ≤ v') :
    distance names v' T ≤ distance names v T := by
  induction names with
  | nil => exact Nat.le_refl _
  | cons i names ih =>
    have hi : v i ≤ v' i := h i
    simp only [distance, List.map_cons, List.sum_cons] at ih ⊢
    omega

/-- Moving on towards `T` at one of the indices reduces the distance. -/
theorem distance_update_lt [DecidableEq ι] {names : List ι} {v T : ι → ℕ} {i : ι} (hi : i ∈ names)
    (hlt : v i < T i) : distance names (Function.update v i (v i + 1)) T < distance names v T := by
  have hle : v ≤ Function.update v i (v i + 1) := by
    intro j
    by_cases hj : j = i
    · subst hj
      rw [Function.update_self]
      exact Nat.le_succ _
    · rw [Function.update_of_ne hj]
  induction names with
  | nil => cases hi
  | cons j names ih =>
    have hrest := distance_le_of_le names (T := T) hle
    have hj : v j ≤ Function.update v i (v i + 1) j := hle j
    simp only [distance, List.map_cons, List.sum_cons] at hrest ih ⊢
    rcases List.mem_cons.mp hi with rfl | hi
    · rw [Function.update_self]
      omega
    · have := ih hi
      omega

end Alignment
