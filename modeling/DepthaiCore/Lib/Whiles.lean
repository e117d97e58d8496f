import Mathlib.Data.Nat.Basic
import DepthaiCore.Lib.Loops

/-!
# Loops without a bound

A loop goes round as long as its body says so. Here it gets a number of rounds that it may take at
most; when they are used up it is still pending. A loop terminates if some number of rounds is
enough, and then every larger number gives the same result.
-/

universe u

/-- How an evaluation ends without a result. -/
inductive Stop (ε : Type*)
  | throws (what : ε)
  | pending
  deriving DecidableEq, Repr

/-- The result of something that always ends. -/
def Stop.lift {ε α : Type*} (x : Except ε α) : Except (Stop ε) α :=
  x.mapError .throws

@[simp] theorem Stop.lift_ok {ε α : Type*} (a : α) :
    Stop.lift (.ok a : Except ε α) = .ok a := rfl

@[simp] theorem Stop.lift_error {ε α : Type*} (e : ε) :
    Stop.lift (.error e : Except ε α) = .error (.throws e) := rfl

theorem Stop.lift_ne_pending {ε α : Type*} (x : Except ε α) :
    Stop.lift x ≠ .error .pending := by
  cases x <;> simp

/-- What is put together from evaluations that end ends. -/
theorem Stop.bind_ne_pending {ε : Type*} {α β : Type u} {x : Except (Stop ε) α}
    {g : α → Except (Stop ε) β} (hx : x ≠ .error .pending)
    (hg : ∀ a, x = .ok a → g a ≠ .error .pending) : (x >>= g) ≠ .error .pending := by
  intro h
  rcases Loop.bind_eq_error.1 h with herror | ⟨a, hok, herror⟩
  · exact hx herror
  · exact hg a hok herror

theorem Stop.lift_eq_ok {ε α : Type*} {x : Except ε α} {a : α} :
    Stop.lift x = .ok a ↔ x = .ok a := by
  cases x <;> simp

namespace Whiles

variable {ε σ : Type*} {β : Type u} (body : σ → Except (Stop ε) (σ ⊕ β))

/-- The loop, with at most so many rounds. A round ends the loop with a result, or it gives the
state of the next one. -/
def loop : ℕ → σ → Except (Stop ε) β
  | 0, _ => .error .pending
  | n + 1, s =>
    match body s with
    | .error e => .error e
    | .ok (.inl s') => loop n s'
    | .ok (.inr b) => .ok b

variable {body} {n : ℕ} {s : σ}

theorem loop_of_error {e : Stop ε} (h : body s = .error e) : loop body (n + 1) s = .error e := by
  rw [loop, h]

theorem loop_of_next {s' : σ} (h : body s = .ok (.inl s')) :
    loop body (n + 1) s = loop body n s' := by
  rw [loop, h]

theorem loop_of_done {b : β} (h : body s = .ok (.inr b)) : loop body (n + 1) s = .ok b := by
  rw [loop, h]

theorem loop_eq_ok {b : β} (h : loop body n s = .ok b) :
    ∃ m, n = m + 1 ∧
      (body s = .ok (.inr b) ∨ ∃ s', body s = .ok (.inl s') ∧ loop body m s' = .ok b) := by
  cases n with
  | zero => cases h
  | succ m =>
    refine ⟨m, rfl, ?_⟩
    rcases hbody : body s with e | (s' | b')
    · rw [loop_of_error hbody] at h
      cases h
    · rw [loop_of_next hbody] at h
      exact .inr ⟨s', rfl, h⟩
    · rw [loop_of_done hbody, Except.ok.injEq] at h
      rw [h]
      exact .inl rfl

/-- **Rounds are enough if an invariant bounds them.** A round uses one up, and with none left the
invariant cannot hold. -/
theorem loop_ne_pending {I : ℕ → σ → Prop} (hzero : ∀ s, ¬I 0 s)
    (hbody : ∀ s, body s ≠ .error .pending)
    (hstep : ∀ n s s', I (n + 1) s → body s = .ok (.inl s') → I n s') (hs : I n s) :
    loop body n s ≠ .error .pending := by
  induction n generalizing s with
  | zero => exact absurd hs (hzero s)
  | succ n ih =>
    rcases h : body s with e | (s' | b)
    · rw [loop_of_error h]
      intro heq
      cases heq
      exact hbody s h
    · rw [loop_of_next h]
      exact ih (hstep n s s' hs h)
    · rw [loop_of_done h]
      exact fun heq => by cases heq

/-- **A loop ends as its rounds promise** if every round makes something less. -/
theorem exists_loop_eq_ok {I : ℕ → σ → Prop} {Q : β → Prop}
    (hstep : ∀ m s, I m s → (∃ b, body s = .ok (.inr b) ∧ Q b) ∨
      ∃ s', body s = .ok (.inl s') ∧ ∃ m' < m, I m' s')
    {m : ℕ} (hs : I m s) (hn : m < n) : ∃ b, loop body n s = .ok b ∧ Q b := by
  induction n generalizing s m with
  | zero => exact absurd hn (Nat.not_lt_zero _)
  | succ n ih =>
    rcases hstep m s hs with ⟨b, hb, hQ⟩ | ⟨s', hs', m', hlt, hI⟩
    · exact ⟨b, loop_of_done hb, hQ⟩
    · rw [loop_of_next hs']
      exact ih hI (Nat.lt_of_lt_of_le hlt (Nat.le_of_lt_succ hn))

/-- The rounds lead to a result. -/
inductive Ends (body : σ → Except (Stop ε) (σ ⊕ β)) : σ → β → Prop
  | done {s b} (h : body s = .ok (.inr b)) : Ends body s b
  | next {s s' b} (h : body s = .ok (.inl s')) (hrest : Ends body s' b) : Ends body s b

/-- **A loop has a result exactly if its rounds lead to one.** -/
theorem exists_loop_eq_ok_iff {b : β} : (∃ n, loop body n s = .ok b) ↔ Ends body s b := by
  constructor
  · rintro ⟨n, h⟩
    induction n generalizing s with
    | zero => cases h
    | succ n ih =>
      obtain ⟨m, hm, hdone | ⟨s', hnext, hrest⟩⟩ := loop_eq_ok h
      · exact .done hdone
      · obtain rfl := Nat.succ.inj hm
        exact .next hnext (ih hrest)
  · intro h
    induction h with
    | done h => exact ⟨1, loop_of_done h⟩
    | next h _ ih =>
      obtain ⟨n, hn⟩ := ih
      exact ⟨n + 1, (loop_of_next h).trans hn⟩

end Whiles
