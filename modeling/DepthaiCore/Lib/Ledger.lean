import Mathlib.Data.List.Basic

/-!
# Ledgers of first-in first-out stores

A store takes elements in at one end and settles them at the other, each in one of several ways: it
may hand an element out, throw it away, and so on. A `Ledger` is the history of such a store up to
some moment, with the one fact that makes it a history: what was accepted is what has been settled,
in that order, followed by what is still held.

Elements may repeat, so an element is identified by its position in the order of acceptance. Under
the balance equation a position has exactly one whereabouts, and everything settled in a given way
is a subsequence of what was accepted.
-/

/-- The history of a first-in first-out store whose elements are settled in the ways `τ`. -/
structure Ledger (α τ : Type*) where
  /-- Everything ever taken in, in order. -/
  accepted : List α
  /-- Everything that has left, in order, and how. -/
  settled : List (α × τ)
  /-- What is still inside, in order. -/
  held : List α
  /-- Nothing is lost, duplicated or reordered. -/
  balance : accepted = settled.map Prod.fst ++ held

namespace Ledger

variable {α τ : Type*}

/-! ### Selecting by the way of settling -/

section Select

variable [DecidableEq τ]

/-- The elements of a list of settlements that were settled as `t`. -/
def select (t : τ) (xs : List (α × τ)) : List α := (xs.filter fun p => p.2 = t).map Prod.fst

@[simp] theorem select_nil (t : τ) : select t ([] : List (α × τ)) = [] := rfl

@[simp] theorem select_append (t : τ) (xs ys : List (α × τ)) :
    select t (xs ++ ys) = select t xs ++ select t ys := by
  simp [select]

@[simp] theorem select_map_same (t : τ) (xs : List α) : select t (xs.map (·, t)) = xs := by
  simp [select, List.filter_map, Function.comp_def]

@[simp] theorem select_map_of_ne {t t' : τ} (h : t' ≠ t) (xs : List α) :
    select t (xs.map (·, t')) = [] := by
  simp [select, List.filter_map, Function.comp_def, h]

theorem select_eq_map_of_forall {t : τ} {xs : List (α × τ)} (h : ∀ p ∈ xs, p.2 = t) :
    select t xs = xs.map Prod.fst := by
  rw [select, List.filter_eq_self.mpr fun p hp => by simpa using h p hp]

end Select

variable (l : Ledger α τ)

/-! ### The whereabouts of an element -/

/-- Position `k` of the order of acceptance holds `x`, and is settled as `t` (`some t`) or still
inside (`none`). -/
def At (k : ℕ) (x : α) : Option τ → Prop
  | some t => l.settled[k]? = some (x, t)
  | none => l.settled.length ≤ k ∧ l.held[k - l.settled.length]? = some x

/-- **Exactly one place.** An accepted element has been settled in one way, or is still held, and
never both. -/
theorem existsUnique_at {k : ℕ} {x : α} (h : l.accepted[k]? = some x) : ∃! w, l.At k x w := by
  rw [l.balance] at h
  rcases Nat.lt_or_ge k l.settled.length with hk | hk
  · rw [List.getElem?_append_left (by simpa using hk), List.getElem?_map,
      Option.map_eq_some_iff] at h
    obtain ⟨⟨y, t⟩, hy, rfl⟩ := h
    refine ⟨some t, hy, fun w hw => ?_⟩
    cases w with
    | none => exact absurd hw.1 (by omega)
    | some t' =>
      have heq : some (y, t') = some (y, t) := hw.symm.trans hy
      simpa using heq
  · rw [List.getElem?_append_right (by simpa using hk), List.length_map] at h
    refine ⟨none, ⟨hk, h⟩, fun w hw => ?_⟩
    cases w with
    | none => rfl
    | some t =>
      have hnone : l.settled[k]? = none := List.getElem?_eq_none hk
      exact absurd (hnone.symm.trans hw) (by simp)

variable [DecidableEq τ]

/-- What was settled in one way is a subsequence of what was accepted. -/
theorem select_sublist (t : τ) : (select t l.settled).Sublist l.accepted := by
  rw [l.balance]
  exact (List.filter_sublist.map _).trans (List.sublist_append_left _ _)

/-- If everything was settled in the same way, then what was accepted is what was settled in that
way followed by what is held. -/
theorem accepted_eq_of_forall {t : τ} (h : ∀ p ∈ l.settled, p.2 = t) :
    l.accepted = select t l.settled ++ l.held := by
  rw [select_eq_map_of_forall h, l.balance]

end Ledger
