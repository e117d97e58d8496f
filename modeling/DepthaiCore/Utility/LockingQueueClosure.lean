import DepthaiCore.Utility.LockingQueueThreads

/-!
# A closed `LockingQueue`

`destruct` sets a flag that nothing resets. A closed queue should take nothing in and hand nothing
out. The functions look at the flag only behind their waits: a push does if it is blocking and the
capacity is not zero, a consumer does if it may wait. The early return of a push at capacity zero,
the push that drops the oldest elements, `tryPop` and `consumeAll` do not look at it.
-/

namespace DepthaiCore

namespace LockingQueue

open Transition

variable {ι α : Type*}

/-! ### One visit -/

/-- Whether an operation may take elements off the queue for its caller. -/
def Op.consumes : Op α → Bool
  | .tryPop | .waitAndPop | .tryWaitAndPop | .consumeAll | .waitAndConsumeAll
  | .waitAndConsumeAllFor => true
  | _ => false

/-- **A visit takes nothing in and hands nothing out.** A push does not return true, discards
nothing and appends nothing. A consumer returns false and leaves the elements in place. -/
structure StaysClosed (q : LockingQueue α) (op : Op α) (v : Visit α) : Prop where
  push : op.pushData ≠ none →
    (∀ notify, v.exit ≠ .leave true notify) ∧ (∀ x ∈ v.removed, x.2 ≠ .discarded) ∧ v.pushed = []
  pop : op.consumes → (∃ notify, v.exit = .leave false notify) ∧ v.shared.queue = q.queue

/-- **The visits that look at the flag**, or find nothing to do. A push looks at it behind its wait,
which it enters if it is blocking and the capacity is not zero. -/
def LooksAtFlag (q : LockingQueue α) : Op α → Phase → Prop
  | .push _, .enter | .tryWaitAndPush _, .enter => q.blocking = true ∧ 0 < q.maxSize
  | .tryPop, _ | .consumeAll, _ => q.queue = []
  | _, _ => True

variable {q : LockingQueue α}

theorem awaitRoom_of_destructed (hq : q.destructed = true) (data : α) (timedOut : Bool)
    (callbacks : List (LockingQueueState × ℕ)) :
    q.awaitRoom data timedOut callbacks = { shared := q, exit := .leave false [], callbacks } := by
  rw [awaitRoom, if_pos (by simp [hasRoom, hq]), if_pos hq]

theorem awaitElement_of_destructed (hq : q.destructed = true) (take : LockingQueue α → Visit α)
    (timedOut : Bool) :
    q.awaitElement take = q.giveUp false ∧ q.awaitElementFor timedOut take = q.giveUp false := by
  have helement : q.hasElement = true := by simp [hasElement, hq]
  rw [awaitElement, awaitElementFor, if_pos helement, if_pos helement, if_pos hq, ite_self]
  exact ⟨rfl, rfl⟩

theorem pushSection_iff (hq : q.destructed = true) (data : α) :
    ((∀ notify, (q.pushSection data).exit ≠ .leave true notify) ∧
        (∀ x ∈ (q.pushSection data).removed, x.2 ≠ Fate.discarded) ∧
        (q.pushSection data).pushed = []) ↔
      q.blocking = true ∧ 0 < q.maxSize := by
  rw [pushSection]
  by_cases hmax : q.maxSize = 0
  · rw [if_pos hmax]
    exact iff_of_false (fun h => h.1 [] rfl) fun h => Nat.ne_of_gt h.2 hmax
  rw [if_neg hmax]
  cases hblock : q.blocking with
  | false => exact iff_of_false (fun h => h.1 [.signalPush] rfl) nofun
  | true =>
    rw [Bool.not_true, if_neg Bool.false_ne_true, awaitRoom_of_destructed hq]
    exact iff_of_true ⟨fun _ => nofun, nofun, rfl⟩ ⟨rfl, Nat.pos_of_ne_zero hmax⟩

theorem staysClosed_push_iff {op : Op α} {v : Visit α} {data : α} (hop : op.pushData = some data)
    (hpop : op.consumes = false) :
    StaysClosed q op v ↔ (∀ notify, v.exit ≠ .leave true notify) ∧
      (∀ x ∈ v.removed, x.2 ≠ .discarded) ∧ v.pushed = [] :=
  ⟨fun h => h.push (by rw [hop]; exact nofun), fun h => ⟨fun _ => h, fun h' => by
    rw [hpop] at h'
    cases h'⟩⟩

theorem staysClosed_pop_iff {op : Op α} {v : Visit α} (hop : op.pushData = none)
    (hpop : op.consumes = true) :
    StaysClosed q op v ↔ (∃ notify, v.exit = .leave false notify) ∧ v.shared.queue = q.queue :=
  ⟨fun h => h.pop hpop, fun h => ⟨fun hne => absurd hop hne, fun _ => h⟩⟩

theorem staysClosed_of_other {op : Op α} (hop : op.pushData = none) (hpop : op.consumes = false)
    (v : Visit α) : StaysClosed q op v :=
  ⟨fun hne => absurd hop hne, fun h => by rw [hpop] at h; cases h⟩

/-- **One visit to a closed queue.** One case for each operation. -/
theorem staysClosed_iff (hq : q.destructed = true) (op : Op α) (phase : Phase) :
    StaysClosed q op (op.visit q phase) ↔ LooksAtFlag q op phase := by
  have hgiveUp : (∃ notify, (q.giveUp false).exit = .leave false notify) ∧
      (q.giveUp false).shared.queue = q.queue := ⟨⟨[], rfl⟩, rfl⟩
  cases op with
  | push data =>
    rw [staysClosed_push_iff rfl rfl]
    cases phase with
    | enter => exact pushSection_iff hq data
    | resume timedOut =>
      rw [Op.visit, awaitRoom_of_destructed hq]
      exact iff_of_true ⟨fun _ => nofun, nofun, rfl⟩ trivial
  | tryWaitAndPush data =>
    rw [staysClosed_push_iff rfl rfl]
    cases phase with
    | enter => exact pushSection_iff hq data
    | resume timedOut =>
      rw [Op.visit, awaitRoom_of_destructed hq]
      exact iff_of_true ⟨fun _ => nofun, nofun, rfl⟩ trivial
  | tryPop =>
    rw [staysClosed_pop_iff rfl rfl, Op.visit, tryPop, LooksAtFlag]
    cases hqueue : q.queue with
    | nil => exact iff_of_true ⟨⟨[], rfl⟩, hqueue⟩ rfl
    | cons x xs =>
      rw [popFront, hqueue]
      exact iff_of_false (fun h => by obtain ⟨⟨_, h⟩, -⟩ := h; cases h) nofun
  | consumeAll =>
    rw [staysClosed_pop_iff rfl rfl, Op.visit, consumeAll, LooksAtFlag]
    cases hqueue : q.queue with
    | nil => exact iff_of_true ⟨⟨[], rfl⟩, hqueue⟩ rfl
    | cons x xs => exact iff_of_false (fun h => by obtain ⟨⟨_, h⟩, -⟩ := h; cases h) nofun
  | waitAndPop =>
    rw [staysClosed_pop_iff rfl rfl, Op.visit, waitAndPop,
      (awaitElement_of_destructed hq popFront false).1]
    exact iff_of_true hgiveUp trivial
  | tryWaitAndPop =>
    rw [staysClosed_pop_iff rfl rfl, Op.visit, tryWaitAndPop,
      (awaitElement_of_destructed hq popFront phase.timedOut).2]
    exact iff_of_true hgiveUp trivial
  | waitAndConsumeAll =>
    rw [staysClosed_pop_iff rfl rfl, Op.visit, waitAndConsumeAll,
      (awaitElement_of_destructed hq drain false).1]
    exact iff_of_true hgiveUp trivial
  | waitAndConsumeAllFor =>
    rw [staysClosed_pop_iff rfl rfl, Op.visit, waitAndConsumeAllFor,
      (awaitElement_of_destructed hq drain phase.timedOut).2]
    exact iff_of_true hgiveUp trivial
  | waitEmpty => exact iff_of_true (staysClosed_of_other rfl rfl _) trivial
  | setMaxSize sz => exact iff_of_true (staysClosed_of_other rfl rfl _) trivial
  | setBlocking bl => exact iff_of_true (staysClosed_of_other rfl rfl _) trivial
  | destruct => exact iff_of_true (staysClosed_of_other rfl rfl _) trivial

/-! ### Runs -/

theorem Effect.destructed {op : Op α} {phase : Phase} {v : Visit α} (h : Effect q op phase v)
    (hq : q.destructed = true) : v.shared.destructed = true := by
  cases h with
  | destruct => rfl
  | _ => exact hq

theorem destructed_destruct (q : LockingQueue α) : q.destruct.shared.destructed = true := by
  rw [destruct]
  split_ifs with hq
  · exact hq
  · rfl

theorem Op.pred_of_destructed (hq : q.destructed = true) (op : Op α) : op.pred q = true := by
  cases op <;> simp [pred, hasRoom, hasElement, hq]

/-- No visit to a closed queue waits. -/
theorem Op.visit_exit_ne_wait (hq : q.destructed = true) (op : Op α) (phase : Phase) :
    (op.visit q phase).exit ≠ .wait := by
  intro hwait
  obtain ⟨-, hpred, -⟩ := (op.visit_effect q phase).of_wait hwait
  rw [op.pred_of_destructed hq] at hpred
  cases hpred

/-- The visit that closes the queue notifies both condition variables. -/
theorem Effect.notified_of_closes {op : Op α} {phase : Phase} {v : Visit α} (h : Effect q op phase v)
    (hq : q.destructed = false) (hv : v.shared.destructed = true) (c : Signal) :
    c ∈ v.notified := by
  cases h with
  | destruct => cases c <;> simp
  | _ =>
    rw [hq] at hv
    cases hv

namespace Threads

variable [DecidableEq ι] {s t : Threads ι α}

theorem destructed_of_step {a : Action ι α} (hs : s.shared.destructed = true)
    (h : s.step a = some t) : t.shared.destructed = true := by
  rcases step_cases h with ⟨i, op, phase, -, rfl⟩ | ⟨i, op, timedOut, -, -, rfl⟩ |
    ⟨i, c, cs, ret, -, -, rfl⟩
  · exact (op.visit_effect s.shared phase).destructed hs
  · exact hs
  · exact hs

/-- **After `destruct` a queue stays closed at exactly the visits that look at the flag**, or find
nothing to do, whatever the queue was before and whatever the threads do in between. -/
theorem run_staysClosed_iff {before after : Trace ι α} {p : Threads ι α × Action ι α}
    {v : Visit α} (h : Run step s (before ++ p :: after) t)
    (hp : visitOf p = some (.destruct, v)) :
    ∀ e ∈ after, ∀ i op phase, e.1.visiting e.2 = some (i, op, phase) →
      (StaysClosed e.1.shared op (op.visit e.1.shared phase) ↔
        LooksAtFlag e.1.shared op phase) := by
  obtain ⟨-, closed, hclosed, hafter⟩ := h.split
  -- The flag is set by the step `p`.
  have hset : closed.shared.destructed = true := by
    obtain ⟨⟨j, op', phase'⟩, hvisiting, hop⟩ := Option.map_eq_some_iff.1 hp
    obtain ⟨rfl, -⟩ := Prod.mk.inj hop
    rw [step_eq_of_visiting hvisiting] at hclosed
    rw [← Option.some.inj hclosed]
    exact destructed_destruct p.1.shared
  intro e he i op phase _
  obtain ⟨tr, -, -, -, hrun, -⟩ := hafter.exists_of_mem he
  exact staysClosed_iff (hrun.invariant (I := fun s => s.shared.destructed = true)
    (fun _ _ _ => destructed_of_step) hset) op phase

/-! ### Nobody sleeps on it -/

/-- A thread sleeps on a condition variable, and only while the queue is open. -/
def SleepsOpen (s : Threads ι α) : Prop :=
  ∀ j op, s.pc j = .parked op → op.signal ≠ none ∧ s.shared.destructed = false

theorem SleepsOpen.step {a : Action ι α} (hs : SleepsOpen s)
    (hstep : s.step a = some t) : SleepsOpen t := by
  intro j op hparked
  rcases step_cases hstep with ⟨i, op', phase, -, rfl⟩ | ⟨i, op', b, -, -, rfl⟩ |
    ⟨i, c, cs, ret, -, -, rfl⟩
  · have heff := op'.visit_effect s.shared phase
    by_cases hji : j = i
    · -- the visitor falls asleep
      subst hji
      rw [visited_pc_self, Pc.after_eq_parked_iff] at hparked
      obtain ⟨rfl, hwait⟩ := hparked
      obtain ⟨hshared, -, hsignal⟩ := heff.of_wait hwait
      refine ⟨hsignal, ?_⟩
      rw [visited_shared, hshared]
      by_contra hclosed
      exact Op.visit_exit_ne_wait (Bool.not_eq_false _ ▸ hclosed) op' phase hwait
    · rw [visited_pc_of_ne hji, Pc.signalled_eq_parked_iff] at hparked
      obtain ⟨hold, hnot⟩ := hparked
      obtain ⟨hsignal, halive⟩ := hs j op hold
      refine ⟨hsignal, ?_⟩
      by_contra hclosed
      obtain ⟨c, hc⟩ := Option.ne_none_iff_exists'.1 hsignal
      exact hnot c (heff.notified_of_closes halive (Bool.not_eq_false _ ▸ hclosed) c) hc
  · have hji : j ≠ i := by
      rintro rfl
      rw [woke_pc_self] at hparked
      cases hparked
    rw [woke_pc_of_ne hji] at hparked
    exact hs j op hparked
  · have hji : j ≠ i := by
      rintro rfl
      rw [signalled_pc_self] at hparked
      exact absurd hparked Pc.leaving_ne_parked
    rw [signalled_pc_of_ne hji, Pc.signalled_eq_parked_iff] at hparked
    exact hs j op hparked.1

/-- **Closing the queue wakes everybody, for good.** -/
theorem run_closed_wakes {s₀ s : Threads ι α} {tr : Trace ι α} (h₀ : s₀.Initial)
    (h : Run step s₀ tr s) (hclosed : s.shared.destructed = true) :
    (∀ j op, s.pc j ≠ .parked op) ∧ ∀ op phase, (Op.visit op s.shared phase).exit ≠ .wait := by
  have hstart : SleepsOpen s₀ := by
    intro j op hparked
    rw [h₀.pc j] at hparked
    cases hparked
  refine ⟨fun j op hparked => ?_, fun op phase => op.visit_exit_ne_wait hclosed phase⟩
  have halive := (h.invariant (fun s a t => SleepsOpen.step) hstart j op hparked).2
  rw [hclosed] at halive
  cases halive

/-- A consumer waits in front of an empty queue, which is then closed. -/
def closeRun : List (Action Bool ℕ) := [.call true .waitAndPop, .call false .destruct]

theorem run_closed_wakes_consumer :
    ∃ tr s, Run step (⟨{}, fun _ => .idle⟩ : Threads Bool ℕ) tr s ∧
      ∀ j op, s.pc j ≠ .parked op := by
  have hrun := Run.of_isSome
    (show (exec step (⟨{}, fun _ => .idle⟩ : Threads Bool ℕ) closeRun).isSome by rfl)
  exact ⟨_, _, hrun, (run_closed_wakes ⟨rfl, fun _ => rfl⟩ hrun (by rfl)).1⟩

/-! ### Samples -/

/-- A queue of capacity two with one element. -/
def oneElement (blocking destructed : Bool) : Threads (Fin 2) ℕ :=
  ⟨{ maxSize := 2, blocking, queue := [7], destructed }, fun _ => .idle⟩

theorem run_closeThenPush (blocking : Bool) :
    ∃ t, Run step (oneElement blocking false)
      ([] ++ (oneElement blocking false, .call 0 .destruct) ::
        [(oneElement blocking true, .call 1 (.push 8))]) t := by
  have hclose : step (oneElement blocking false) (.call 0 .destruct) =
      some (oneElement blocking true) := by
    refine congrArg some (congrArg (Threads.mk _) (funext fun j => ?_))
    match j with
    | 0 => rfl
    | 1 => rfl
  obtain ⟨t, ht⟩ : ∃ t, step (oneElement blocking true) (.call 1 (.push 8)) = some t := ⟨_, rfl⟩
  exact ⟨t, .cons hclose (.single ht)⟩

theorem run_staysClosed_iff_blocking :
    StaysClosed (oneElement true true).shared (.push 8)
        ((Op.push 8).visit (oneElement true true).shared .enter) ↔
      LooksAtFlag (oneElement true true).shared (.push 8) .enter := by
  obtain ⟨t, hrun⟩ := run_closeThenPush true
  exact run_staysClosed_iff hrun rfl _ List.mem_cons_self 1 _ _ rfl

/-- **A closed queue that does not block takes the element.** -/
theorem not_run_staysClosed : ¬∀ (s t : Threads (Fin 2) ℕ) (before after : Trace (Fin 2) ℕ)
    (p : Threads (Fin 2) ℕ × Action (Fin 2) ℕ) (v : Visit ℕ),
    Run step s (before ++ p :: after) t → visitOf p = some (.destruct, v) →
      ∀ e ∈ after, ∀ i op phase, e.1.visiting e.2 = some (i, op, phase) →
        StaysClosed e.1.shared op (op.visit e.1.shared phase) := by
  intro h
  obtain ⟨t, hrun⟩ := run_closeThenPush false
  have hclosed := h _ _ _ _ _ _ hrun rfl _ List.mem_cons_self _ _ _ rfl
  exact (hclosed.push nofun).1 [.signalPush] rfl

end Threads

end LockingQueue

end DepthaiCore
