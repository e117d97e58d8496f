import DepthaiCore.Lib.Loops
import Mathlib.Data.List.FinRange

/-!
# Greedy suppression

Elements `0, …, n - 1` are gone through in order. One that is still kept is selected, and what comes
after it and conflicts with it is not kept any longer. Whether two elements conflict may fail to
have an answer.

What is selected is free of conflicts, and whatever is not selected conflicts with something before
it that is.
-/

namespace Suppression

variable {ε : Type} {n : ℕ}

/-! ### The loop -/

section Loop

variable (conflict : Fin n → Fin n → Except ε Bool)

/-- One round of the inner loop: `j` is compared with `i` if it is still kept. -/
def suppressOne (i : Fin n) (keep : Fin n → Bool) (j : Fin n) : Except ε (Fin n → Bool) :=
  if keep j then do
    if ← conflict i j then return Function.update keep j false
    return keep
  else return keep

/-- The inner loop: what comes after `i` and conflicts with it is not kept. -/
def suppress (i : Fin n) (keep : Fin n → Bool) : Except ε (Fin n → Bool) :=
  ((List.finRange n).filter (i < ·)).foldlM (suppressOne conflict i) keep

/-- One round of the outer loop: `i` is selected if it is still kept. -/
def selectOne (s : (Fin n → Bool) × List (Fin n)) (i : Fin n) :
    Except ε ((Fin n → Bool) × List (Fin n)) :=
  if s.1 i then do
    let keep ← suppress conflict i s.1
    return (keep, s.2 ++ [i])
  else return s

/-- **The loop.** -/
def select : Except ε (List (Fin n)) := do
  let s ← (List.finRange n).foldlM (selectOne conflict) (fun _ => true, [])
  return s.2

end Loop

/-! ### The selection -/

/-- A list is in order and free of conflicts, and what is not in it conflicts with something before
it that is. -/
structure Selection (conflict : Fin n → Fin n → Bool) (kept : List (Fin n)) : Prop where
  sorted : kept.Pairwise (· < ·)
  free : ∀ i ∈ kept, ∀ j ∈ kept, i < j → conflict i j = false
  covered : ∀ j ∉ kept, ∃ i ∈ kept, i < j ∧ conflict i j = true

variable {conflict : Fin n → Fin n → Bool} {kept : List (Fin n)}

theorem Selection.nodup (h : Selection conflict kept) : kept.Nodup :=
  h.sorted.imp fun hlt => hlt.ne

/-! ### The loop selects it -/

variable {conflict? : Fin n → Fin n → Except ε Bool}

/-- What is kept after a round of the outer loop. -/
def keepAfter (conflict : Fin n → Fin n → Bool) (i : Fin n) (keep : Fin n → Bool) (j : Fin n) :
    Bool :=
  keep j && !(decide (i < j) && conflict i j)

/-- The inner loop over some elements, each of which comes once. -/
theorem foldlM_suppressOne (h : ∀ i j, conflict? i j = .ok (conflict i j)) (i : Fin n)
    {l : List (Fin n)} (hl : l.Nodup) (keep : Fin n → Bool) :
    l.foldlM (suppressOne conflict? i) keep =
      .ok fun j => keep j && !(decide (j ∈ l) && conflict i j) := by
  induction l generalizing keep with
  | nil => simp [pure, Except.pure]
  | cons a l ih =>
    obtain ⟨ha, hl⟩ := List.nodup_cons.1 hl
    have hone : suppressOne conflict? i keep a =
        .ok (if keep a && conflict i a then Function.update keep a false else keep) := by
      rw [suppressOne, h]
      cases keep a <;> cases conflict i a <;> rfl
    rw [List.foldlM_cons, hone, Loop.ok_bind, ih hl, Except.ok.injEq]
    funext j
    by_cases hja : j = a
    · subst hja
      cases hkeep : keep j <;> cases hconflict : conflict i j <;> simp [hkeep, ha]
    · have hsame : (if keep a && conflict i a then Function.update keep a false else keep) j =
          keep j := by
        split_ifs
        · exact Function.update_of_ne hja _ _
        · rfl
      rw [hsame]
      simp [hja]

theorem suppress_eq (h : ∀ i j, conflict? i j = .ok (conflict i j)) (i : Fin n)
    (keep : Fin n → Bool) : suppress conflict? i keep = .ok (keepAfter conflict i keep) := by
  rw [suppress, foldlM_suppressOne h i ((List.nodup_finRange n).filter _), Except.ok.injEq]
  funext j
  simp [keepAfter]

/-- Where the loop is after some elements: those of them that are kept are selected, and an element
is kept if nothing selected comes before it and conflicts with it. -/
structure Suppressed (conflict : Fin n → Fin n → Bool) (done : List (Fin n))
    (s : (Fin n → Bool) × List (Fin n)) : Prop where
  selected : s.2 = done.filter s.1
  keep : ∀ j, s.1 j = true ↔ ∀ i ∈ s.2, i < j → conflict i j = false

theorem Suppressed.round (h : ∀ i j, conflict? i j = .ok (conflict i j)) {done rest : List (Fin n)}
    {i : Fin n} {s : (Fin n → Bool) × List (Fin n)} (hs : Suppressed conflict done s)
    (hsplit : List.finRange n = done ++ i :: rest) :
    Loop.Post (Suppressed conflict (done ++ [i])) (fun _ => False) (selectOne conflict? s i) := by
  -- What comes before `i` is not touched any more.
  have hbefore : ∀ j ∈ done, ¬ i < j := by
    have hsorted := List.pairwise_lt_finRange n
    rw [hsplit, List.pairwise_append] at hsorted
    exact fun j hj => not_lt.2 (hsorted.2.2 j hj i List.mem_cons_self).le
  obtain ⟨keep, selected⟩ := s
  obtain ⟨hselected, hkeep⟩ := hs
  dsimp only at hselected hkeep
  dsimp only [selectOne]
  by_cases hi : keep i = true
  case neg =>
    rw [if_neg hi]
    exact ⟨by simp [hselected, hi], hkeep⟩
  case pos =>
    rw [if_pos hi, suppress_eq h]
    show Suppressed conflict (done ++ [i]) (keepAfter conflict i keep, selected ++ [i])
    refine ⟨?_, fun j => ?_⟩
    · have hdone : done.filter (keepAfter conflict i keep) = done.filter keep :=
        List.filter_congr fun j hj => by simp [keepAfter, hbefore j hj]
      rw [List.filter_append, hdone, hselected]
      simp [keepAfter, hi]
    · show keepAfter conflict i keep j = true ↔ _
      simp only [keepAfter, Bool.and_eq_true, Bool.not_eq_true', Bool.and_eq_false_iff,
        decide_eq_false_iff_not, hkeep, List.mem_append, List.mem_singleton]
      constructor
      · rintro ⟨hold, hnew⟩ k (hk | rfl) hlt
        · exact hold k hk hlt
        · exact hnew.resolve_left (not_not_intro hlt)
      · intro hall
        refine ⟨fun k hk => hall k (.inl hk), ?_⟩
        by_cases hlt : i < j
        · exact .inr (hall i (.inr rfl) hlt)
        · exact .inl hlt

/-- **The loop selects what it should.** -/
theorem select_eq (h : ∀ i j, conflict? i j = .ok (conflict i j)) :
    ∃ kept, select conflict? = .ok kept ∧ Selection conflict kept := by
  have hpost := Loop.post (f := selectOne conflict?) (l := List.finRange n)
    (I := Suppressed conflict) (E := fun _ => False) (s := (fun _ => true, []))
    (fun done i rest s hsplit hs => hs.round h hsplit) ⟨rfl, by simp⟩
  unfold select
  cases hloop : (List.finRange n).foldlM (selectOne conflict?) (fun _ => true, []) with
  | error e =>
    rw [hloop] at hpost
    exact hpost.elim
  | ok s =>
    rw [hloop] at hpost
    obtain ⟨hselected, hkeep⟩ := hpost
    have hmem (j : Fin n) : j ∈ s.2 ↔ s.1 j = true := by
      rw [hselected]
      simp
    refine ⟨s.2, rfl, ?_, fun i hi j hj => (hkeep j).1 ((hmem j).1 hj) i hi, fun j hj => ?_⟩
    · rw [hselected]
      exact (List.pairwise_lt_finRange n).filter _
    · have hdropped : ¬ ∀ i ∈ s.2, i < j → conflict i j = false := by
        rw [← hkeep, ← hmem]
        exact hj
      push Not at hdropped
      obtain ⟨i, hi, hlt, hconflict⟩ := hdropped
      exact ⟨i, hi, hlt, by simpa using hconflict⟩

end Suppression
