import Mathlib.Data.ENat.Basic
import Mathlib.Data.List.Induction

/-!
# Allowances

A log of events, some of which grant an allowance and some of which spend one unit of it. A grant
replaces what was left of the grant before. A log is legal if every unit was there when it was
spent.
-/

namespace DepthaiCore

namespace Allowance

variable {ε : Type*}

/-- What an event does to the allowance. -/
inductive Effect
  | grant (units : ℕ∞)
  | spend
  | neutral

/-- The allowance behind an event. -/
def Effect.apply (before : ℕ∞) : Effect → ℕ∞
  | .grant units => units
  | .spend => before - 1
  | .neutral => before

def Effect.isSpend : Effect → Bool
  | .spend => true
  | _ => false

section Logs

variable (effect : ε → Effect)

/-- What is left behind a log that begins with nothing. -/
def left (log : List ε) : ℕ∞ :=
  log.foldl (fun before e => (effect e).apply before) 0

/-- The units spent. -/
def spent (log : List ε) : ℕ :=
  log.countP fun e => (effect e).isSpend

/-- Every event of the log stands in the relation `P` to the log before it. -/
def Everywhere (P : List ε → ε → Prop) (log : List ε) : Prop :=
  ∀ pre e post, log = pre ++ e :: post → P pre e

/-- Every unit was there when it was spent. -/
def Legal (log : List ε) : Prop :=
  Everywhere (fun pre e => effect e = .spend → 0 < left effect pre) log

end Logs

variable {effect : ε → Effect} {log pre mid : List ε} {e : ε}

@[simp]
theorem left_concat (log : List ε) (e : ε) :
    left effect (log ++ [e]) = (effect e).apply (left effect log) := by
  simp [left]

@[simp]
theorem spent_concat (log : List ε) (e : ε) :
    spent effect (log ++ [e]) = spent effect log + if (effect e).isSpend then 1 else 0 := by
  simp [spent, List.countP_append, List.countP_cons]

theorem everywhere_nil {P : List ε → ε → Prop} : Everywhere P [] := by
  intro pre e post h
  simp at h

theorem everywhere_concat_iff {P : List ε → ε → Prop} :
    Everywhere P (log ++ [e]) ↔ Everywhere P log ∧ P log e := by
  constructor
  · refine fun h => ⟨fun pre e' post heq => ?_, h log e [] rfl⟩
    exact h pre e' (post ++ [e]) (by rw [heq, List.append_assoc, List.cons_append])
  · rintro ⟨hlog, he⟩ pre e' post heq
    rcases List.eq_nil_or_concat post with rfl | ⟨post, last, rfl⟩
    · obtain ⟨rfl, hlast⟩ := List.append_inj' heq rfl
      obtain rfl := List.singleton_inj.1 hlast
      exact he
    · rw [List.concat_eq_append, ← List.cons_append, ← List.append_assoc] at heq
      exact hlog pre e' post (List.append_inj' heq rfl).1

theorem Effect.apply_add (before : ℕ∞) {f : Effect} (hspend : f = .spend → 0 < before)
    (hgrant : ∀ units, f = .grant units → units = before) :
    ((if f.isSpend then 1 else 0 : ℕ) : ℕ∞) + f.apply before = before := by
  cases f with
  | grant units => simp [Effect.isSpend, Effect.apply, hgrant units rfl]
  | spend =>
    rw [add_comm]
    exact tsub_add_cancel_of_le (Order.one_le_iff_pos.2 (hspend rfl))
  | neutral => simp [Effect.isSpend, Effect.apply]

theorem Effect.apply_add_le (before : ℕ∞) {f : Effect} (hspend : f = .spend → 0 < before)
    (hgrant : ∀ units, f = .grant units → units ≤ before) :
    ((if f.isSpend then 1 else 0 : ℕ) : ℕ∞) + f.apply before ≤ before := by
  cases f with
  | grant units => simpa [Effect.isSpend, Effect.apply] using hgrant units rfl
  | spend => exact (apply_add before hspend nofun).le
  | neutral => simp [Effect.isSpend, Effect.apply]

/-- **A stretch without larger grants spends at most what was left.** -/
theorem spent_add_left_le (h : Legal effect (pre ++ mid))
    (hgrant : Everywhere (fun l e => ∀ units, effect e = .grant units →
      units ≤ left effect (pre ++ l)) mid) :
    (spent effect mid : ℕ∞) + left effect (pre ++ mid) ≤ left effect pre := by
  induction mid using List.reverseRecOn with
  | nil => simp [spent]
  | append_singleton mid e ih =>
    rw [← List.append_assoc] at h ⊢
    obtain ⟨hmid, he⟩ := everywhere_concat_iff.1 h
    obtain ⟨hbefore, hgrant⟩ := everywhere_concat_iff.1 hgrant
    have hstep := Effect.apply_add_le _ he hgrant
    rw [spent_concat, left_concat, Nat.cast_add, add_assoc]
    exact (add_le_add le_rfl hstep).trans (ih hmid hbefore)

/-- **Where grants change nothing, all that is not left was spent.** -/
theorem spent_add_left (h : Legal effect (pre ++ mid))
    (hgrant : Everywhere (fun l e => ∀ units, effect e = .grant units →
      units = left effect (pre ++ l)) mid) :
    (spent effect mid : ℕ∞) + left effect (pre ++ mid) = left effect pre := by
  induction mid using List.reverseRecOn with
  | nil => simp [spent]
  | append_singleton mid e ih =>
    rw [← List.append_assoc] at h ⊢
    obtain ⟨hmid, he⟩ := everywhere_concat_iff.1 h
    obtain ⟨hbefore, hgrant⟩ := everywhere_concat_iff.1 hgrant
    have hstep := Effect.apply_add _ he hgrant
    rw [spent_concat, left_concat, Nat.cast_add, add_assoc, hstep, ih hmid hbefore]

end Allowance

end DepthaiCore
