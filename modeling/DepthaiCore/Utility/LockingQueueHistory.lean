import DepthaiCore.Lib.Ledger
import DepthaiCore.Lib.Numerals
import DepthaiCore.Utility.LockingQueueThreads

/-!
# What happens to the elements of a `LockingQueue`

The history of a run is read off its trace. An element counts as accepted when the push that carries
it leaves with `true` while the capacity is positive; this is what a caller sees. It is settled when
it leaves the front of the queue, handed to a consumer or discarded.

One visit keeps the balance between the two sides, so a run does, and the run is a `Ledger`.
-/

open scoped Numerals

namespace DepthaiCore

namespace LockingQueue

open Transition

variable {ι α : Type*}

/-! ### One visit -/

/-- The elements a visit removes together with those it leaves are the elements it found together
with the one it appends. -/
theorem Effect.balance {q : LockingQueue α} {op : Op α} {phase : Phase} {v : Visit α}
    (h : Effect q op phase v) :
    v.removed.map Prod.fst ++ v.shared.queue = q.queue ++ v.pushed := by
  cases h with
  | sleep | giveUp | setMaxSize | setBlocking | destruct => simp
  | clear => simp [Function.comp_def]
  | append calls hop hmax hqueue => simp [hqueue, Function.comp_def]
  | take hop hqueue => simp [hqueue, Function.comp_def]

/-- The element that a visit of `op` to `q` accepts: that of a push leaving with `true` while the
capacity is positive. -/
def acceptedIn (q : LockingQueue α) (op : Op α) (v : Visit α) : List α :=
  match op.pushData, v.exit with
  | some data, .leave true _ => if 0 < q.maxSize then [data] else []
  | _, _ => []

/-- What a caller sees accepted is what the visit appends. -/
theorem Effect.acceptedIn_eq {q : LockingQueue α} {op : Op α} {phase : Phase} {v : Visit α}
    (h : Effect q op phase v) :
    acceptedIn q op v = v.pushed := by
  cases h with
  | sleep calls => cases hop : op.pushData <;> simp [acceptedIn, hop]
  | giveUp ret calls hpush =>
    cases hop : op.pushData with
    | none => simp [acceptedIn, hop]
    | some data => simp [acceptedIn, hop, hpush]
  | clear hop hmax => simp [acceptedIn, hop, hmax]
  | append calls hop hmax => simp [acceptedIn, hop, hmax]
  | take hop => simp [acceptedIn, hop]
  | setMaxSize | setBlocking | destruct => simp [acceptedIn, Op.pushData]

/-- **Who discards.** A visit discards only as a push, and then either with capacity zero or in
non-blocking mode on a full queue. What it discards are the oldest elements: all of them in the
first case, as many as leave room for one more in the second. -/
theorem Effect.discarded {q : LockingQueue α} {op : Op α} {phase : Phase} {v : Visit α}
    (h : Effect q op phase v)
    (hne : Ledger.select .discarded v.removed ≠ []) :
    op.pushData ≠ none ∧
      ((q.maxSize = 0 ∧ Ledger.select .discarded v.removed = q.queue) ∨
        (q.blocking = false ∧ q.maxSize ≤ q.queue.length ∧
          Ledger.select .discarded v.removed
            = q.queue.take (q.queue.length + 1 - q.maxSize))) := by
  cases h with
  | sleep | giveUp | setMaxSize | setBlocking | destruct => exact absurd rfl hne
  | take => exact absurd (Ledger.select_map_of_ne (by decide) _) hne
  | clear hop hmax => exact ⟨by simp [hop], .inl ⟨hmax, Ledger.select_map_same _ _⟩⟩
  | append calls hop hmax hqueue hrest hdropped =>
    rw [Ledger.select_map_same] at hne ⊢
    obtain ⟨hblock, hlen⟩ := hdropped hne
    have hpos := List.length_pos_iff.mpr hne
    have hsum := congrArg List.length hqueue
    rw [List.length_append] at hsum
    refine ⟨by simp [hop], .inr ⟨hblock, by omega, ?_⟩⟩
    rw [hqueue, List.take_left' (by rw [List.length_append]; omega)]

/-- A visit never makes the queue longer than the larger of its length and its capacity. -/
theorem Effect.length_le {q : LockingQueue α} {op : Op α} {phase : Phase} {v : Visit α}
    (h : Effect q op phase v) :
    v.shared.queue.length ≤ max q.queue.length q.maxSize := by
  cases h with
  | sleep | giveUp | setMaxSize | setBlocking | destruct => exact Nat.le_max_left _ _
  | clear => simp
  | append calls hop hmax hqueue hrest => simp; omega
  | take hop hqueue =>
    have hlen := congrArg List.length hqueue
    rw [List.length_append] at hlen
    exact Nat.le_trans (by dsimp only; omega) (Nat.le_max_left _ _)

namespace Threads

/-! ### The history of a run -/

/-- The elements a step accepts. -/
def acceptedBy (p : Threads ι α × Action ι α) : List α :=
  match visitOf p with
  | some (op, v) => acceptedIn p.1.shared op v
  | none => []

/-- The elements a step settles, and how. -/
def settledBy (p : Threads ι α × Action ι α) : List (α × Fate) :=
  match visitOf p with
  | some (_, v) => v.removed
  | none => []

/-- The elements appended by pushes that returned `true` with a positive capacity, in order. -/
def accepted (tr : Trace ι α) : List α := tr.flatMap acceptedBy

/-- The elements that have left the queue, in order, and how. -/
def settled (tr : Trace ι α) : List (α × Fate) := tr.flatMap settledBy

/-- The elements handed to consumers, in order. -/
def handed (tr : Trace ι α) : List α := Ledger.select .handed (settled tr)

variable [DecidableEq ι]

/-- A step is a visit with one of the listed outcomes, or leaves the members alone. -/
theorem step_effect {s t : Threads ι α} {a : Action ι α} (h : s.step a = some t) :
    (∃ op phase v, visitOf (s, a) = some (op, v) ∧ Effect s.shared op phase v ∧
        t.shared = v.shared) ∨
      (visitOf (s, a) = none ∧ t.shared = s.shared) := by
  rcases step_cases h with ⟨i, op, phase, hv, rfl⟩ | ⟨i, op, b, hv, -, rfl⟩ |
    ⟨i, c, cs, ret, hv, -, rfl⟩
  · exact .inl ⟨op, phase, _, by simp [visitOf, hv], op.visit_effect _ phase, rfl⟩
  · exact .inr ⟨by simp [visitOf, hv], rfl⟩
  · exact .inr ⟨by simp [visitOf, hv], rfl⟩

theorem step_balance {s t : Threads ι α} {a : Action ι α} (h : s.step a = some t) :
    (settledBy (s, a)).map Prod.fst ++ t.shared.queue = s.shared.queue ++ acceptedBy (s, a) := by
  rcases step_effect h with ⟨op, phase, v, hv, heff, ht⟩ | ⟨hv, ht⟩
  · simp only [settledBy, acceptedBy, hv, ht]
    rw [heff.acceptedIn_eq, heff.balance]
  · simp [settledBy, acceptedBy, hv, ht]

theorem accepted_eq {s₀ s : Threads ι α} {tr : Trace ι α} (h₀ : s₀.Initial)
    (h : Run step s₀ tr s) :
    accepted tr = (settled tr).map Prod.fst ++ s.shared.queue := by
  induction h with
  | nil => simp [accepted, settled, h₀.queue]
  | @snoc t u a tr hrun hstep ih =>
    calc accepted (tr ++ [(t, a)])
        = accepted tr ++ acceptedBy (t, a) := by simp [accepted]
      _ = (settled tr).map Prod.fst ++ (t.shared.queue ++ acceptedBy (t, a)) := by
          rw [ih, List.append_assoc]
      _ = (settled tr).map Prod.fst ++ ((settledBy (t, a)).map Prod.fst ++ u.shared.queue) := by
          rw [step_balance hstep]
      _ = (settled (tr ++ [(t, a)])).map Prod.fst ++ u.shared.queue := by simp [settled]

/-- The history of a run, as a ledger. -/
def ledger {s₀ s : Threads ι α} {tr : Trace ι α} (h₀ : s₀.Initial) (h : Run step s₀ tr s) :
    Ledger α Fate where
  accepted := accepted tr
  settled := settled tr
  held := s.shared.queue
  balance := accepted_eq h₀ h

omit [DecidableEq ι] in
/-- **Who discards, step by step.** -/
theorem discardedBy_eq {p : Threads ι α × Action ι α}
    (hne : Ledger.select .discarded (settledBy p) ≠ []) :
    ∃ i op phase data, p.1.visiting p.2 = some (i, op, phase) ∧ op.pushData = some data ∧
      ((p.1.shared.maxSize = 0 ∧
          Ledger.select .discarded (settledBy p) = p.1.shared.queue) ∨
        (p.1.shared.blocking = false ∧ p.1.shared.maxSize ≤ p.1.shared.queue.length ∧
          Ledger.select .discarded (settledBy p)
            = p.1.shared.queue.take (p.1.shared.queue.length + 1 - p.1.shared.maxSize))) := by
  cases hv : p.1.visiting p.2 with
  | none => exact absurd (by simp [settledBy, visitOf, hv]) hne
  | some x =>
    obtain ⟨i, op, phase⟩ := x
    have hset : settledBy p = (op.visit p.1.shared phase).removed := by
      simp [settledBy, visitOf, hv]
    rw [hset] at hne ⊢
    obtain ⟨hop, hcase⟩ := (op.visit_effect p.1.shared phase).discarded hne
    obtain ⟨data, hdata⟩ := Option.ne_none_iff_exists'.mp hop
    exact ⟨i, op, phase, data, rfl, hdata, hcase⟩

omit [DecidableEq ι] in
/-- In blocking mode with a positive capacity nothing is discarded. -/
theorem settledBy_handed {p : Threads ι α × Action ι α} (hblock : p.1.shared.blocking = true)
    (hmax : 0 < p.1.shared.maxSize) : ∀ x ∈ settledBy p, x.2 = .handed := by
  rintro ⟨x, fate⟩ hx
  cases fate with
  | handed => rfl
  | discarded =>
    have hne : Ledger.select .discarded (settledBy p) ≠ [] := by
      have hmem : x ∈ Ledger.select .discarded (settledBy p) :=
        List.mem_map.mpr ⟨(x, .discarded), List.mem_filter.mpr ⟨hx, by simp⟩, rfl⟩
      exact List.ne_nil_of_mem hmem
    obtain ⟨_, _, _, _, _, _, ⟨h0, _⟩ | ⟨hfalse, _⟩⟩ := discardedBy_eq hne
    · omega
    · rw [hblock] at hfalse; cases hfalse

/-- **The capacity as a bound.** While the capacity stays `m`, the queue does not grow past the
larger of `m` and the length it had. -/
theorem length_queue_le {s t : Threads ι α} {tr : Trace ι α} {m : ℕ} (h : Run step s tr t)
    (hm : ∀ p ∈ tr, p.1.shared.maxSize = m) :
    t.shared.queue.length ≤ max s.shared.queue.length m := by
  refine h.invariant_of_forall (G := fun s _ => s.shared.maxSize = m)
    (I := fun t => t.shared.queue.length ≤ max s.shared.queue.length m) ?_ hm (Nat.le_max_left _ _)
  intro u a v hu hlen hstep
  rcases step_effect hstep with ⟨op, phase, w, -, heff, ht⟩ | ⟨-, ht⟩
  · have := heff.length_le
    rw [ht]
    omega
  · rwa [ht]

/-- **The history of a queue.** In every run from a fresh queue:

* what consumers were handed is a subsequence of what pushes returning `true` with a positive
  capacity appended;
* every appended element is in exactly one place: handed out, discarded, or still in the queue;
* only pushes discard, and only the oldest elements: all of them when the capacity is zero, or in
  non-blocking mode as many of a full queue as make room for one;
* so as long as the mode is blocking and the capacity positive nothing is lost;
* while the capacity keeps one value the queue does not outgrow it, neither from the start nor from
  any later moment at which it is within the bound. -/
theorem run_history {s₀ s : Threads ι α} {tr : Trace ι α} (h₀ : s₀.Initial)
    (h : Run step s₀ tr s) :
    (handed tr).Sublist (accepted tr) ∧
      (∃ l : Ledger α Fate, l.accepted = accepted tr ∧ l.settled = settled tr ∧
        l.held = s.shared.queue ∧ ∀ k x, l.accepted[k]? = some x → ∃! w, l.At k x w) ∧
      (∀ p ∈ tr, Ledger.select .discarded (settledBy p) ≠ [] →
        ∃ i op phase data, p.1.visiting p.2 = some (i, op, phase) ∧ op.pushData = some data ∧
          ((p.1.shared.maxSize = 0 ∧
              Ledger.select .discarded (settledBy p) = p.1.shared.queue) ∨
            (p.1.shared.blocking = false ∧ p.1.shared.maxSize ≤ p.1.shared.queue.length ∧
              Ledger.select .discarded (settledBy p)
                = p.1.shared.queue.take (p.1.shared.queue.length + 1 - p.1.shared.maxSize)))) ∧
      ((∀ p ∈ tr, p.1.shared.blocking = true ∧ 0 < p.1.shared.maxSize) →
        accepted tr = handed tr ++ s.shared.queue) ∧
      (∀ m, (∀ p ∈ tr, p.1.shared.maxSize = m) → s.shared.queue.length ≤ m) ∧
      ∀ tr' t m, Run step s tr' t → (∀ p ∈ tr', p.1.shared.maxSize = m) →
        t.shared.queue.length ≤ max s.shared.queue.length m := by
  refine ⟨(ledger h₀ h).select_sublist .handed,
    ⟨ledger h₀ h, rfl, rfl, rfl, fun k x => (ledger h₀ h).existsUnique_at⟩,
    fun p _ => discardedBy_eq, fun hsafe => ?_, fun m hm => ?_,
    fun tr' t m h' => length_queue_le h'⟩
  · refine (ledger h₀ h).accepted_eq_of_forall fun x hx => ?_
    obtain ⟨p, hp, hxp⟩ := List.mem_flatMap.mp hx
    exact settledBy_handed (hsafe p hp).1 (hsafe p hp).2 x hxp
  · have hlen := length_queue_le h hm
    rw [h₀.queue] at hlen
    simpa using hlen

/-- A non-blocking queue of capacity one, untouched by its two threads. -/
def smallNonBlocking : Threads (Fin 2) ℕ :=
  ⟨{ maxSize := 1, blocking := false }, fun _ => .idle⟩

/-- Thread `0` pushes `7` and then `8`, which drops `7`; thread `1` pops. -/
def overwriteRun : List (Action (Fin 2) ℕ) :=
  [.call 0 (.push 7), .notify 0, .call 0 (.push 8), .notify 0, .call 1 .tryPop]

theorem run_history_overwrite :
    ∃ tr s, Run step smallNonBlocking tr s ∧ accepted tr = [7, 8] ∧ handed tr = [8] ∧
      (handed tr).Sublist (accepted tr) := by
  have hrun := Run.of_isSome (show (exec step smallNonBlocking overwriteRun).isSome by rfl)
  exact ⟨_, _, hrun, by rfl, by rfl, (run_history ⟨rfl, fun _ => rfl⟩ hrun).1⟩

end Threads

end LockingQueue

end DepthaiCore
