import Mathlib.Data.List.Basic

/-!
# Runs of a partial step function

A concurrent component is given by a partial function `step : σ → α → Option σ`: `step s a` is the
state after action `a`, and `none` when `a` is not enabled in `s`. All nondeterminism sits in the
action, so a run is determined by its start and the list of actions, and a concrete run can be
evaluated.

A run keeps, for every step, the state it was taken in together with the action. Statements about
*every step of a run* are then statements about the members of that list, and a history is a
function of it.
-/

namespace Transition

variable {σ α β : Type*}

/-- `Run step s tr t`: from `s` the steps recorded in `tr` lead to `t`. Each entry of `tr` is the
state a step was taken in and its action. -/
inductive Run (step : σ → α → Option σ) (s : σ) : List (σ × α) → σ → Prop
  | nil : Run step s [] s
  | snoc {t u : σ} {a : α} {tr : List (σ × α)} :
      Run step s tr t → step t a = some u → Run step s (tr ++ [(t, a)]) u

variable {step : σ → α → Option σ} {s t u : σ} {a : α} {tr tr' : List (σ × α)}

theorem Run.single (h : step s a = some t) : Run step s [(s, a)] t :=
  .snoc .nil h

theorem Run.append (h : Run step s tr t) (h' : Run step t tr' u) : Run step s (tr ++ tr') u := by
  induction h' with
  | nil => simpa using h
  | snoc _ hstep ih => rw [← List.append_assoc]; exact .snoc ih hstep

theorem Run.cons (h : step s a = some t) (h' : Run step t tr u) : Run step s ((s, a) :: tr) u :=
  (Run.single h).append h'

/-! ### Invariants -/

/-- A property kept by every step whose entry meets `G` holds at the end of a run all of whose
entries meet `G`. -/
theorem Run.invariant_of_forall {G : σ → α → Prop} {I : σ → Prop}
    (hI : ∀ s a t, G s a → I s → step s a = some t → I t) (h : Run step s tr t)
    (hG : ∀ p ∈ tr, G p.1 p.2) (hs : I s) : I t := by
  induction h with
  | nil => exact hs
  | snoc _ hstep ih =>
    have hlast := hG _ (List.mem_append_right _ (List.mem_singleton_self _))
    exact hI _ _ _ hlast (ih fun p hp => hG p (List.mem_append_left _ hp)) hstep

/-- A property kept by every step holds at the end of every run from a state that has it. -/
theorem Run.invariant {I : σ → Prop} (hI : ∀ s a t, I s → step s a = some t → I t)
    (h : Run step s tr t) (hs : I s) : I t :=
  h.invariant_of_forall (G := fun _ _ => True) (fun s a t _ => hI s a t) (fun _ _ => trivial) hs

theorem Run.exists_of_mem (h : Run step s tr t) {p : σ × α} (hp : p ∈ tr) :
    ∃ tr₁ tr₂ u, tr = tr₁ ++ p :: tr₂ ∧ Run step s tr₁ p.1 ∧ step p.1 p.2 = some u := by
  induction h with
  | nil => simp at hp
  | @snoc t u a tr hrun hstep ih =>
    rcases List.mem_append.mp hp with hp | hp
    · obtain ⟨tr₁, tr₂, v, rfl, hv, hs⟩ := ih hp
      exact ⟨tr₁, tr₂ ++ [(t, a)], v, by simp, hv, hs⟩
    · obtain rfl := List.mem_singleton.mp hp
      exact ⟨tr, [], u, rfl, hrun, hstep⟩

/-- A run up to a step of its trace, that step, and the rest. -/
theorem Run.split {p : σ × α} (h : Run step s (tr ++ p :: tr') t) :
    Run step s tr p.1 ∧ ∃ u, step p.1 p.2 = some u ∧ Run step u tr' t := by
  generalize hall : tr ++ p :: tr' = all at h
  induction h generalizing tr' with
  | nil => simp at hall
  | @snoc v w a all hrun hstep ih =>
    rcases List.eq_nil_or_concat tr' with rfl | ⟨tr', q, rfl⟩
    · obtain ⟨rfl, hp⟩ := List.append_inj' hall rfl
      obtain rfl := List.singleton_inj.1 hp
      exact ⟨hrun, w, hstep, .nil⟩
    · rw [List.concat_eq_append, ← List.cons_append, ← List.append_assoc] at hall
      obtain ⟨hfirst, hq⟩ := List.append_inj' hall rfl
      obtain rfl := List.singleton_inj.1 hq
      obtain ⟨hbefore, u, hu, hafter⟩ := ih hfirst
      exact ⟨hbefore, u, hu, by rw [List.concat_eq_append]; exact .snoc hafter hstep⟩

theorem Run.step_of_mem (h : Run step s tr t) {p : σ × α} (hp : p ∈ tr) :
    ∃ u, step p.1 p.2 = some u := by
  obtain ⟨_, _, u, _, _, hu⟩ := h.exists_of_mem hp
  exact ⟨u, hu⟩

/-! ### Evaluated runs -/

/-- The run of a list of actions: its trace and its last state, if every action is enabled. -/
def exec (step : σ → α → Option σ) (s : σ) : List α → Option (List (σ × α) × σ)
  | [] => some ([], s)
  | a :: as =>
    match step s a with
    | none => none
    | some t => (exec step t as).map fun r => ((s, a) :: r.1, r.2)

theorem Run.of_exec {as : List α} (h : exec step s as = some (tr, t)) : Run step s tr t := by
  induction as generalizing s tr t with
  | nil =>
    obtain ⟨rfl, rfl⟩ : [] = tr ∧ s = t := by simpa [exec] using h
    exact .nil
  | cons a as ih =>
    cases hs : step s a with
    | none => simp [exec, hs] at h
    | some u =>
      simp only [exec, hs, Option.map_eq_some_iff, Prod.exists, Prod.mk.injEq] at h
      obtain ⟨tr₁, v, hrun, rfl, rfl⟩ := h
      exact .cons hs (ih hrun)

/-- The run of a list of actions that is known to be enabled throughout. -/
theorem Run.of_isSome {as : List α} (h : (exec step s as).isSome) :
    Run step s ((exec step s as).get h).1 ((exec step s as).get h).2 :=
  .of_exec (Option.some_get h).symm

end Transition
