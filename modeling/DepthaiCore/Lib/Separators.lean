import Mathlib.Data.List.Basic
import Mathlib.Data.Int.Basic

/-!
# Names put together with a separator

A name that is put together from parts with a separator between them can be taken apart again if the
separator is not in the parts. If it may be, two names are equal when the first part of one is the
first part of the other, a separator, and a rest that the other has in front of its second part.

The decimal text of a number has no underscore in it.
-/

namespace Separators

section List

variable {α : Type*} {sep : α} {a a' b b' : List α}

theorem append_cons_inj (ha : sep ∉ a) (ha' : sep ∉ a') :
    a ++ sep :: b = a' ++ sep :: b' ↔ a = a' ∧ b = b' := by
  induction a generalizing a' with
  | nil =>
    cases a' with
    | nil => simp
    | cons y a' =>
      have hy : sep ≠ y := fun heq => ha' (heq ▸ List.mem_cons_self)
      simp [hy]
  | cons x a ih =>
    rw [List.mem_cons, not_or] at ha
    cases a' with
    | nil => simp [Ne.symm ha.1]
    | cons y a' =>
      rw [List.mem_cons, not_or] at ha'
      simp [ih ha.2 ha'.2, and_assoc]

/-- **Two names are equal if their parts are, or if one first part goes on into the other name.** -/
theorem append_cons_eq_iff :
    a ++ sep :: b = a' ++ sep :: b' ↔ (a = a' ∧ b = b') ∨
      (∃ r, a' = a ++ sep :: r ∧ b = r ++ sep :: b') ∨
        ∃ r, a = a' ++ sep :: r ∧ b' = r ++ sep :: b := by
  constructor
  · intro h
    rcases List.append_eq_append_iff.1 h with ⟨r, rfl, hr⟩ | ⟨r, rfl, hr⟩
    · cases r with
      | nil => simpa using hr
      | cons x r =>
        obtain ⟨rfl, rfl⟩ := List.cons.inj hr
        exact .inr (.inl ⟨r, rfl, rfl⟩)
    · cases r with
      | nil => simpa [eq_comm] using hr
      | cons x r =>
        obtain ⟨rfl, rfl⟩ := List.cons.inj hr
        exact .inr (.inr ⟨r, rfl, rfl⟩)
  · rintro (⟨rfl, rfl⟩ | ⟨r, rfl, rfl⟩ | ⟨r, rfl, rfl⟩) <;> simp

end List

/-! ### Strings -/

theorem toList_underscore (a b : String) :
    (a ++ "_" ++ b).toList = a.toList ++ '_' :: b.toList := by
  simp

/-- The names that are put together from strings with an underscore. -/
theorem append_underscore_eq_iff {a a' b b' : String} :
    a ++ "_" ++ b = a' ++ "_" ++ b' ↔ (a = a' ∧ b = b') ∨
      (∃ r, a' = a ++ "_" ++ r ∧ b = r ++ "_" ++ b') ∨
        ∃ r, a = a' ++ "_" ++ r ∧ b' = r ++ "_" ++ b := by
  simp only [← String.toList_inj, toList_underscore]
  rw [append_cons_eq_iff]
  refine or_congr_right (or_congr ?_ ?_)
  all_goals
    constructor
    · rintro ⟨r, h⟩
      exact ⟨String.ofList r, by simpa using h⟩
    · rintro ⟨r, h⟩
      exact ⟨r.toList, h⟩

theorem repr_injective {m n : ℕ} (h : m.repr = n.repr) : m = n := by
  have hlist : Nat.toDigits 10 m = Nat.toDigits 10 n := by
    rw [← Nat.toList_repr, ← Nat.toList_repr, h]
  have hvalue := congrArg (Nat.ofDigitChars 10 · 0) hlist
  simpa only [Nat.ofDigitChars_ten_toDigits] using hvalue

theorem notMem_repr {c : Char} (hc : c.isDigit = false) (n : ℕ) : c ∉ n.repr.toList := by
  rw [Nat.toList_repr]
  intro h
  exact absurd (Nat.isDigit_of_mem_toDigits (by decide) (by decide) h) (by simp [hc])

theorem toString_injective {i j : ℤ} (h : toString i = toString j) : i = j := by
  have hlist := congrArg String.toList h
  have hminus : ∀ (m n : ℕ), m.repr.toList ≠ '-' :: n.repr.toList := by
    intro m n heq
    refine notMem_repr (c := '-') rfl m ?_
    rw [heq]
    exact List.mem_cons_self
  rcases i with m | m <;> rcases j with n | n
  · exact congrArg _ (repr_injective h)
  · exact absurd hlist (by simpa [toString, Int.repr] using hminus m (n + 1))
  · exact absurd hlist.symm (by simpa [toString, Int.repr] using hminus n (m + 1))
  · have hrepr : (m + 1).repr = (n + 1).repr := by
      simpa [toString, Int.repr] using h
    have := repr_injective hrepr
    rw [Nat.succ.inj this]

/-- There are only digits and a minus in the text of a number. -/
theorem notMem_toString {c : Char} (hc : c.isDigit = false) (hminus : c ≠ '-') (i : ℤ) :
    c ∉ (toString i).toList := by
  cases i with
  | ofNat n => exact notMem_repr hc n
  | negSucc n =>
    have hn := notMem_repr hc (n + 1)
    simpa [toString, Int.repr, hminus] using hn

theorem underscore_notMem_toString (i : ℤ) : '_' ∉ (toString i).toList :=
  notMem_toString rfl (by decide) i

theorem slash_notMem_toString (i : ℤ) : '/' ∉ (toString i).toList :=
  notMem_toString rfl (by decide) i

/-- **A number in front of the underscore can be read off.** -/
theorem toString_append_inj {i j : ℤ} {a b : String} :
    toString i ++ "_" ++ a = toString j ++ "_" ++ b ↔ i = j ∧ a = b := by
  rw [← String.toList_inj, toList_underscore, toList_underscore,
    append_cons_inj (underscore_notMem_toString i) (underscore_notMem_toString j),
    String.toList_inj, String.toList_inj]
  exact and_congr_left fun _ => ⟨toString_injective, congrArg _⟩

end Separators
