import Mathlib.Data.List.Range
import Mathlib.Order.Lattice

/-!
# The first of the greatest values

A pass over a range of indices keeps the best value so far and replaces it by a greater one. It ends
with the greatest value and the first index that has it, if that is greater than the value it
started with.

The values need not be ordered themselves. It is enough that those that occur are compared as
elements of a linear order.
-/

/-- Index `i` has the greatest value of `lo ≤ j < hi`, and no index before it has. -/
structure FirstMaximum {α : Type*} [LinearOrder α] (score : ℕ → α) (lo hi i : ℕ) : Prop where
  lo_le : lo ≤ i
  lt_hi : i < hi
  le : ∀ j, lo ≤ j → j < hi → score j ≤ score i
  lt : ∀ j, lo ≤ j → j < i → score j < score i

namespace FirstMaximum

section Order

variable {α : Type*} [LinearOrder α] {score : ℕ → α} {lo hi i j : ℕ}

theorem unique (h : FirstMaximum score lo hi i) (h' : FirstMaximum score lo hi j) : i = j := by
  rcases Nat.lt_trichotomy i j with hlt | heq | hlt
  · exact absurd (h'.lt i h.lo_le hlt) (not_lt.2 (h.le j h'.lo_le h'.lt_hi))
  · exact heq
  · exact absurd (h.lt j h'.lo_le hlt) (not_lt.2 (h'.le i h.lo_le h.lt_hi))

theorem self (score : ℕ → α) (lo : ℕ) : FirstMaximum score lo (lo + 1) lo where
  lo_le := le_rfl
  lt_hi := Nat.lt_succ_self lo
  le j hlo hhi := by rw [Nat.le_antisymm (Nat.le_of_lt_succ hhi) hlo]
  lt j hlo hlt := absurd hlo (Nat.not_le.2 hlt)

/-- One more index: it is the first if its value is greater. -/
theorem succ (h : FirstMaximum score lo hi i) :
    FirstMaximum score lo (hi + 1) (if score i < score hi then hi else i) := by
  split
  case isTrue hgreater =>
    have hbelow : ∀ j, lo ≤ j → j < hi → score j < score hi :=
      fun j hlo hhi => (h.le j hlo hhi).trans_lt hgreater
    refine ⟨h.lo_le.trans h.lt_hi.le, Nat.lt_succ_self hi, fun j hlo hhi => ?_, hbelow⟩
    rcases Nat.lt_succ_iff_lt_or_eq.1 hhi with hhi | rfl
    · exact (hbelow j hlo hhi).le
    · exact le_rfl
  case isFalse hgreater =>
    refine ⟨h.lo_le, Nat.lt_succ_of_lt h.lt_hi, fun j hlo hhi => ?_, h.lt⟩
    rcases Nat.lt_succ_iff_lt_or_eq.1 hhi with hhi | rfl
    · exact h.le j hlo hhi
    · exact not_lt.1 hgreater

theorem exists_of_lt (score : ℕ → α) (hlt : lo < hi) : ∃ i, FirstMaximum score lo hi i := by
  induction hi, hlt using Nat.le_induction with
  | base => exact ⟨lo, self score lo⟩
  | succ hi _ ih =>
    obtain ⟨i, hi⟩ := ih
    exact ⟨_, hi.succ⟩

theorem of_lt_iff {β : Type*} [LinearOrder β] {score' : ℕ → β} (h : FirstMaximum score lo hi i)
    (hiff : ∀ j k, lo ≤ j → j < hi → lo ≤ k → k < hi → (score' j < score' k ↔ score j < score k)) :
    FirstMaximum score' lo hi i := by
  refine ⟨h.lo_le, h.lt_hi, fun j hlo hhi => ?_, fun j hlo hlt => ?_⟩
  · refine not_lt.1 fun hgreater => ?_
    exact absurd ((hiff i j h.lo_le h.lt_hi hlo hhi).1 hgreater) (not_lt.2 (h.le j hlo hhi))
  · exact (hiff j i hlo (hlt.trans h.lt_hi) h.lo_le h.lt_hi).2 (h.lt j hlo hlt)

end Order

/-! ### The pass -/

variable {τ κ : Type*} (lt : τ → τ → Bool) (value : ℕ → τ) (label : ℕ → κ)

/-- One round: a greater value takes the place of the best one. -/
def pass (best : τ × κ) (i : ℕ) : τ × κ :=
  if lt best.1 (value i) then (value i, label i) else best

variable {lt value label} {α : Type*} [LinearOrder α] {good : τ → Prop} {key : τ → α} {lo i : ℕ}
  {start : τ × κ}

theorem pass_eq (hlt : ∀ a b, good a → good b → (lt a b = true ↔ key a < key b)) {best : τ × κ}
    (hbest : good best.1) (hvalue : good (value i)) : pass lt value label best i =
      if key best.1 < key (value i) then (value i, label i) else best := by
  rw [pass]
  exact if_congr (hlt _ _ hbest hvalue) rfl rfl

/-- **The pass ends with the first of the greatest values,** if it is greater than the first one. -/
theorem foldl_pass (hlt : ∀ a b, good a → good b → (lt a b = true ↔ key a < key b))
    (hstart : good start.1) {n : ℕ} (hvalue : ∀ j, lo ≤ j → j < lo + n → good (value j))
    (hfirst : FirstMaximum (fun j => key (value j)) lo (lo + n) i) :
    (List.range' lo n).foldl (pass lt value label) start =
      if key start.1 < key (value i) then (value i, label i) else start := by
  induction n generalizing i with
  | zero => exact absurd hfirst.lt_hi (Nat.not_lt.2 hfirst.lo_le)
  | succ n ih =>
    have hlast : good (value (lo + n)) := hvalue _ (Nat.le_add_right _ _) (Nat.lt_succ_self _)
    rw [List.range'_1_concat, List.foldl_append, List.foldl_cons, List.foldl_nil]
    rcases Nat.eq_zero_or_pos n with rfl | hpos
    · obtain rfl : lo = i := (self _ lo).unique hfirst
      exact pass_eq hlt hstart hlast
    · obtain ⟨k, hk⟩ := exists_of_lt (fun j => key (value j)) (Nat.lt_add_of_pos_right (n := lo) hpos)
      have hgood : good (value k) := hvalue k hk.lo_le (Nat.lt_succ_of_lt hk.lt_hi)
      obtain rfl := hfirst.unique hk.succ
      rw [ih (fun j hlo hhi => hvalue j hlo (Nat.lt_succ_of_lt hhi)) hk]
      by_cases hbetter : key start.1 < key (value k)
      · -- The best value so far is that of `k`.
        rw [if_pos hbetter, pass_eq hlt hgood hlast]
        by_cases hgreater : key (value k) < key (value (lo + n))
        · rw [if_pos hgreater, if_pos hgreater, if_pos (hbetter.trans hgreater)]
        · rw [if_neg hgreater, if_neg hgreater, if_pos hbetter]
      · -- The best value so far is the one at the start.
        rw [if_neg hbetter, pass_eq hlt hstart hlast]
        by_cases hgreater : key start.1 < key (value (lo + n))
        · rw [if_pos ((not_lt.1 hbetter).trans_lt hgreater)]
        · rw [if_neg hgreater]
          by_cases hlater : key (value k) < key (value (lo + n))
          · rw [if_pos hlater, if_neg hgreater]
          · rw [if_neg hlater, if_neg hbetter]

end FirstMaximum
