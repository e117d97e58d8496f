import DepthaiCore.Lib.Numerals
import DepthaiCore.Utility.LockingQueueThreads

/-!
# Wake-ups of a `LockingQueue`

A sleeping thread re-evaluates its predicate only when it is woken, so a step that turns the
predicate true has to notify the condition variable the thread sleeps on, at the step or on the way
out of the function. Two paths do not:

* `setMaxSize` can give a blocked producer room, and notifies nobody;
* a push entered with capacity zero empties the queue and returns before its notification, while a
  thread in `waitEmpty` sleeps until the queue is empty.

Every other path notifies. `Loses` names the states in which one of the two paths does harm, and a
step keeps the rule exactly when it is not one of them. In a run without such a step, a sleeping
thread whose predicate is true always has a notification on the way.
-/

open scoped Numerals

namespace DepthaiCore

namespace LockingQueue

open Transition

variable {ι α : Type*}

/-! ### Predicates of sleeping threads -/

/-- A false predicate is that of a blocked producer, of `waitEmpty`, or of a waiting consumer. -/
theorem Op.waiting_cases {op : Op α} {q : LockingQueue α} (h : op.pred q = false) :
    (op.signal = some .signalPop ∧ op.pushData ≠ none ∧ op.pred = hasRoom) ∨
      op = .waitEmpty ∨
      (op.signal = some .signalPush ∧ op.pushData = none ∧ op.pred = hasElement) := by
  cases op with
  | push data | tryWaitAndPush data => exact .inl ⟨rfl, by simp [pushData], rfl⟩
  | waitEmpty => exact .inr (.inl rfl)
  | waitAndPop | tryWaitAndPop | waitAndConsumeAll | waitAndConsumeAllFor =>
    exact .inr (.inr ⟨rfl, rfl, rfl⟩)
  | tryPop | consumeAll | setMaxSize | setBlocking | destruct => simp [pred] at h

theorem Op.pred_of_pushData {op : Op α} (h : op.pushData ≠ none) : op.pred = hasRoom := by
  cases op with
  | push data | tryWaitAndPush data => rfl
  | _ => exact absurd rfl h

theorem Op.visit_enter_of_pushData {op : Op α} {data : α} (h : op.pushData = some data)
    (q : LockingQueue α) : op.visit q .enter = q.pushSection data := by
  cases op with
  | push data' | tryWaitAndPush data' => cases h; rfl
  | _ => cases h

theorem Op.signal_ne_none_of_pred {op : Op α} {q : LockingQueue α} (h : op.pred q = false) :
    op.signal ≠ none := by
  rcases op.waiting_cases h with ⟨hs, -⟩ | rfl | ⟨hs, -⟩
  · simp [hs]
  · simp [signal]
  · simp [hs]

theorem hasRoom_eq_false_iff {q : LockingQueue α} :
    q.hasRoom = false ↔ q.maxSize ≤ q.queue.length ∧ q.destructed = false := by
  simp [hasRoom]

theorem hasElement_eq_false_iff {q : LockingQueue α} :
    q.hasElement = false ↔ q.queue = [] ∧ q.destructed = false := by
  simp [hasElement]

theorem pred_waitEmpty_eq_false_iff {q : LockingQueue α} :
    (Op.waitEmpty : Op α).pred q = false ↔ q.queue ≠ [] ∧ q.destructed = false := by
  simp [Op.pred]

namespace Threads

/-! ### The rule for one step -/

/-- The condition variables a step notifies, at the step or before its function returns. -/
def notifiesOf (p : Threads ι α × Action ι α) : List Signal :=
  match visitOf p with
  | some (_, v) => v.notifies
  | none => []

/-- Thread `j` sleeps in `op`, and its predicate, false in `s`, is true in `t`. -/
structure TurnsTrue (s t : Threads ι α) (j : ι) (op : Op α) : Prop where
  parked : s.pc j = .parked op
  before : op.pred s.shared = false
  after : op.pred t.shared = true

/-- A step from `s` to `t` that turns the predicate of a sleeping thread true notifies the condition
variable the thread sleeps on. -/
def NoLostWakeup (s : Threads ι α) (a : Action ι α) (t : Threads ι α) : Prop :=
  ∀ j op, TurnsTrue s t j op → ∃ c, op.signal = some c ∧ c ∈ notifiesOf (s, a)

/-- The steps that lose a wake-up: `setMaxSize` making room for a producer that sleeps in front of a
full queue, and a push entered with capacity zero emptying the queue under a thread in
`waitEmpty`. -/
inductive Loses (s : Threads ι α) (a : Action ι α) : Prop
  | raise {i j : ι} {sz : ℕ} {phase : Phase} {op : Op α}
      (hvisit : s.visiting a = some (i, .setMaxSize sz, phase))
      (hfull : s.shared.maxSize ≤ s.shared.queue.length) (hroom : s.shared.queue.length < sz)
      (halive : s.shared.destructed = false) (hparked : s.pc j = .parked op)
      (hop : op.pushData ≠ none)
  | clear {i j : ι} {op : Op α} (hvisit : s.visiting a = some (i, op, .enter))
      (hop : op.pushData ≠ none) (hmax : s.shared.maxSize = 0) (hqueue : s.shared.queue ≠ [])
      (halive : s.shared.destructed = false) (hparked : s.pc j = .parked .waitEmpty)

/-- The visit of a losing step turns a predicate true and notifies nobody. -/
theorem Loses.turnsTrue [DecidableEq ι] {s t : Threads ι α} {a : Action ι α} (h : Loses s a)
    (hstep : s.step a = some t) : ∃ j op, TurnsTrue s t j op ∧ notifiesOf (s, a) = [] := by
  cases h with
  | @raise i j sz phase op hvisit hfull hroom halive hparked hop =>
    have hpred := op.pred_of_pushData hop
    rw [step_eq_of_visiting hvisit] at hstep
    cases hstep
    refine ⟨j, op, ⟨hparked, ?_, ?_⟩, ?_⟩
    · rw [hpred, hasRoom_eq_false_iff]
      exact ⟨hfull, halive⟩
    · simp [hpred, visited, Op.visit, LockingQueue.setMaxSize, giveUp, hasRoom, hroom]
    · simp [notifiesOf, visitOf, hvisit, Op.visit, LockingQueue.setMaxSize, giveUp, Visit.notifies]
  | @clear i j op hvisit hop hmax hqueue halive hparked =>
    obtain ⟨data, hdata⟩ := Option.ne_none_iff_exists'.mp hop
    have hv := op.visit_enter_of_pushData hdata s.shared
    rw [step_eq_of_visiting hvisit, hv] at hstep
    cases hstep
    refine ⟨j, .waitEmpty,
      ⟨hparked, pred_waitEmpty_eq_false_iff.mpr ⟨hqueue, halive⟩, ?_⟩, ?_⟩
    · simp [visited, pushSection, hmax, Op.pred]
    · simp [notifiesOf, visitOf, hvisit, hv, pushSection, hmax, Visit.notifies]

/-- A visit that turns the predicate of a sleeping thread true notifies its condition variable,
unless the step is a losing one. -/
theorem notifies_of_turnsTrue {s : Threads ι α} {a : Action ι α} {i j : ι} {op op' : Op α}
    {phase : Phase} {v : Visit α} (hsafe : ¬ Loses s a)
    (hvisit : s.visiting a = some (i, op, phase)) (heff : Effect s.shared op phase v)
    (hparked : s.pc j = .parked op') (hbefore : op'.pred s.shared = false)
    (hafter : op'.pred v.shared = true) : ∃ c, op'.signal = some c ∧ c ∈ v.notifies := by
  cases heff with
  | sleep | giveUp => rw [hbefore] at hafter; cases hafter
  | clear hop hmax =>
    rcases op'.waiting_cases hbefore with ⟨-, -, hpred⟩ | rfl | ⟨-, -, hpred⟩
    · rw [hpred, hasRoom_eq_false_iff] at hbefore
      simp [hpred, hasRoom, hmax, hbefore.2] at hafter
    · obtain ⟨hne, halive⟩ := pred_waitEmpty_eq_false_iff.mp hbefore
      exact absurd (.clear hvisit (by simp [hop]) hmax hne halive hparked) hsafe
    · rw [hpred, hasElement_eq_false_iff] at hbefore
      simp [hpred, hasElement, hbefore.2] at hafter
  | append calls hop hmax hqueue hrest hdropped =>
    rcases op'.waiting_cases hbefore with ⟨-, -, hpred⟩ | rfl | ⟨hsignal, -, -⟩
    · -- a full queue stays full: it loses only what it has to
      rw [hpred, hasRoom_eq_false_iff] at hbefore
      simp only [hpred, hasRoom, hbefore.2, List.length_append, List.length_singleton,
        Bool.or_false, decide_eq_true_eq] at hafter
      have hlen := congrArg List.length hqueue
      rw [List.length_append] at hlen
      rename_i dropped rest
      cases dropped with
      | nil => simp at hlen; omega
      | cons x xs => have := (hdropped (by simp)).2; omega
    · obtain ⟨-, halive⟩ := pred_waitEmpty_eq_false_iff.mp hbefore
      simp [Op.pred, halive] at hafter
    · exact ⟨.signalPush, hsignal, by simp [Visit.notifies]⟩
  | take hop hqueue htaken =>
    rcases op'.waiting_cases hbefore with ⟨hsignal, -, -⟩ | rfl | ⟨-, -, hpred⟩
    · exact ⟨.signalPop, hsignal, by simp [Visit.notifies]⟩
    · exact ⟨.signalPop, rfl, by simp [Visit.notifies]⟩
    · rw [hpred, hasElement_eq_false_iff, hqueue] at hbefore
      exact absurd (List.append_eq_nil_iff.mp hbefore.1).1 htaken
  | setMaxSize sz =>
    rcases op'.waiting_cases hbefore with ⟨-, hop', hpred⟩ | rfl | ⟨-, -, hpred⟩
    · rw [hpred, hasRoom_eq_false_iff] at hbefore
      have hroom : s.shared.queue.length < sz := by
        simpa [hpred, hasRoom, hbefore.2] using hafter
      exact absurd (.raise hvisit hbefore.1 hroom hbefore.2 hparked hop') hsafe
    · rw [show (Op.waitEmpty : Op α).pred { s.shared with maxSize := sz }
        = Op.waitEmpty.pred s.shared from rfl, hbefore] at hafter
      cases hafter
    · rw [hpred] at hbefore hafter
      exact absurd (hbefore.symm.trans hafter) (by simp)
  | setBlocking bl =>
    rcases op'.waiting_cases hbefore with ⟨-, -, hpred⟩ | rfl | ⟨-, -, hpred⟩
    · rw [hpred] at hbefore hafter
      exact absurd (hbefore.symm.trans hafter) (by simp)
    · exact absurd (hbefore.symm.trans hafter) (by simp)
    · rw [hpred] at hbefore hafter
      exact absurd (hbefore.symm.trans hafter) (by simp)
  | destruct =>
    obtain ⟨c, hc⟩ := Option.ne_none_iff_exists'.mp (op'.signal_ne_none_of_pred hbefore)
    exact ⟨c, hc, by cases c <;> simp [Visit.notifies]⟩

variable [DecidableEq ι]

/-- **The rule, step by step.** A step loses no wake-up exactly when it is not one of the losing
steps. -/
theorem noLostWakeup_iff {s t : Threads ι α} {a : Action ι α} (hstep : s.step a = some t) :
    NoLostWakeup s a t ↔ ¬ Loses s a := by
  constructor
  · intro hrule hloses
    obtain ⟨j, op, hturn, hnone⟩ := hloses.turnsTrue hstep
    obtain ⟨c, -, hc⟩ := hrule j op hturn
    simp [hnone] at hc
  · rintro hsafe j op' ⟨hparked, hbefore, hafter⟩
    rcases step_cases hstep with ⟨i, op, phase, hv, rfl⟩ | ⟨i, op, b, -, -, rfl⟩ |
      ⟨i, c, cs, ret, -, -, rfl⟩
    · obtain ⟨c, hc, hmem⟩ := notifies_of_turnsTrue hsafe hv (op.visit_effect _ phase) hparked
        hbefore hafter
      exact ⟨c, hc, by simpa [notifiesOf, visitOf, hv] using hmem⟩
    · exact absurd (hbefore.symm.trans hafter) (by simp)
    · exact absurd (hbefore.symm.trans hafter) (by simp)

/-! ### The rule over runs -/

/-- Every sleeping thread sleeps on a condition variable, and if its predicate is true then some
thread is on its way to notifying that variable. -/
def Pending (s : Threads ι α) : Prop :=
  ∀ j op, s.pc j = .parked op → ∃ c, op.signal = some c ∧
    (op.pred s.shared = true → ∃ i cs ret, s.pc i = .notifying cs ret ∧ c ∈ cs)

/-- A thread asleep for good: its wait has no timeout, its predicate is true, and no thread is in
the middle of an operation. -/
def Stuck (s : Threads ι α) : Prop :=
  ∃ j op, s.pc j = .parked op ∧ op.timed = false ∧ op.pred s.shared = true ∧
    ∀ i, s.pc i = .idle ∨ ∃ op', s.pc i = .parked op'

omit [DecidableEq ι] in
theorem Pending.not_stuck {s : Threads ι α} (h : Pending s) : ¬ Stuck s := by
  rintro ⟨j, op, hparked, -, hpred, hrest⟩
  obtain ⟨c, -, hnotify⟩ := h j op hparked
  obtain ⟨i, cs, ret, hi, -⟩ := hnotify hpred
  rcases hrest i with hidle | ⟨op', hop'⟩
  · rw [hi] at hidle; cases hidle
  · rw [hi] at hop'; cases hop'

omit [DecidableEq ι] in
theorem Initial.pending {s : Threads ι α} (h : s.Initial) : Pending s := by
  intro j op hparked
  rw [h.pc j] at hparked
  cases hparked

omit [DecidableEq ι] in
/-- A visiting thread is not one that owes a notification. -/
theorem ne_of_visiting {s : Threads ι α} {a : Action ι α} {i j : ι} {op : Op α} {phase : Phase}
    {cs : List Signal} {ret : Bool} (hvisit : s.visiting a = some (i, op, phase))
    (hj : s.pc j = .notifying cs ret) : j ≠ i := by
  rintro rfl
  rcases pc_of_visiting hvisit with ⟨hpc, -⟩ | ⟨b, hpc, -⟩ <;> rw [hj] at hpc <;> cases hpc

theorem Pending.step {s t : Threads ι α} {a : Action ι α} (hs : Pending s)
    (hrule : NoLostWakeup s a t) (hstep : s.step a = some t) : Pending t := by
  intro j op hparked
  rcases step_cases hstep with ⟨i, op', phase, hv, rfl⟩ | ⟨i, op', b, -, hi, rfl⟩ |
    ⟨i, c₀, cs, ret, -, hi, rfl⟩
  · have heff := op'.visit_effect s.shared phase
    by_cases hji : j = i
    · -- the visitor falls asleep only on a false predicate
      subst hji
      rw [visited_pc_self, Pc.after_eq_parked_iff] at hparked
      obtain ⟨rfl, hwait⟩ := hparked
      obtain ⟨hshared, hpred, hsignal⟩ := heff.of_wait hwait
      obtain ⟨c, hc⟩ := Option.ne_none_iff_exists'.mp hsignal
      refine ⟨c, hc, fun htrue => ?_⟩
      rw [visited_shared, hshared, hpred] at htrue
      cases htrue
    · rw [visited_pc_of_ne hji, Pc.signalled_eq_parked_iff] at hparked
      obtain ⟨hold, hnot⟩ := hparked
      obtain ⟨c, hc, hnotify⟩ := hs j op hold
      refine ⟨c, hc, fun htrue => ?_⟩
      cases hpred : op.pred s.shared with
      | true =>
        obtain ⟨k, cs, ret, hk, hmem⟩ := hnotify hpred
        refine ⟨k, cs, ret, ?_, hmem⟩
        rw [visited_pc_of_ne (ne_of_visiting hv hk), Pc.signalled_eq_of_notifying hk]
      | false =>
        -- the predicate has just turned true, so the visitor owes the notification
        obtain ⟨c', hc', hmem⟩ := hrule j op ⟨hold, hpred, htrue⟩
        obtain rfl : c = c' := Option.some.inj (hc.symm.trans hc')
        simp only [notifiesOf, visitOf, hv, Option.map_some] at hmem
        obtain ⟨ret, cs, hexit, hcs⟩ := Visit.exit_of_mem_notifies hmem fun h => hnot c h hc
        exact ⟨i, cs, ret, by rw [visited_pc_self, hexit, Pc.after, Pc.leaving_eq_notifying hcs], hcs⟩
  · have hji : j ≠ i := by
      rintro rfl
      rw [woke_pc_self] at hparked
      cases hparked
    rw [woke_pc_of_ne hji] at hparked
    obtain ⟨c, hc, hnotify⟩ := hs j op hparked
    refine ⟨c, hc, fun htrue => ?_⟩
    obtain ⟨k, cs, ret, hk, hmem⟩ := hnotify htrue
    have hki : k ≠ i := by
      rintro rfl
      rw [hi] at hk
      cases hk
    exact ⟨k, cs, ret, by rwa [woke_pc_of_ne hki], hmem⟩
  · have hji : j ≠ i := by
      rintro rfl
      rw [signalled_pc_self] at hparked
      exact absurd hparked Pc.leaving_ne_parked
    rw [signalled_pc_of_ne hji, Pc.signalled_eq_parked_iff] at hparked
    obtain ⟨hold, hnot⟩ := hparked
    obtain ⟨c, hc, hnotify⟩ := hs j op hold
    have hne : c ≠ c₀ := by
      rintro rfl
      exact hnot c (List.mem_singleton_self c) hc
    refine ⟨c, hc, fun htrue => ?_⟩
    obtain ⟨k, cs', ret', hk, hmem⟩ := hnotify htrue
    by_cases hki : k = i
    · -- the notifying thread has made one call and keeps the rest
      subst hki
      obtain ⟨rfl, rfl⟩ : c₀ :: cs = cs' ∧ ret = ret' := by
        have hsame := hi.symm.trans hk
        simpa using hsame
      have hcs : c ∈ cs := (List.mem_cons.mp hmem).resolve_left hne
      exact ⟨k, cs, ret, by rw [signalled_pc_self, Pc.leaving_eq_notifying hcs], hcs⟩
    · exact ⟨k, cs', ret', by rw [signalled_pc_of_ne hki, Pc.signalled_eq_of_notifying hk], hmem⟩

/-- In a run that loses no wake-up, a true predicate comes with a notification. -/
theorem pending_of_run {s₀ s : Threads ι α} {tr : Trace ι α} (h₀ : s₀.Initial)
    (h : Run step s₀ tr s) (hsafe : ∀ p ∈ tr, ¬ Loses p.1 p.2) : Pending s :=
  h.invariant_of_forall (G := fun s a => ¬ Loses s a)
    (fun _ _ _ hG hs hstep => hs.step ((noLostWakeup_iff hstep).mpr hG) hstep) hsafe h₀.pending

/-- **No lost wake-up.** A run from a fresh queue keeps the rule at every step exactly when none of
its steps is a losing one, and such a run never leaves a thread asleep for good. -/
theorem wakeups_iff {s₀ s : Threads ι α} {tr : Trace ι α} (h₀ : s₀.Initial)
    (h : Run step s₀ tr s) :
    ((∀ p ∈ tr, ∀ t, p.1.step p.2 = some t → NoLostWakeup p.1 p.2 t) ↔
        ∀ p ∈ tr, ¬ Loses p.1 p.2) ∧
      ((∀ p ∈ tr, ¬ Loses p.1 p.2) → ¬ Stuck s) := by
  refine ⟨⟨fun hrule p hp => ?_, fun hsafe p hp t hstep => ?_⟩,
    fun hsafe => (pending_of_run h₀ h hsafe).not_stuck⟩
  · obtain ⟨t, hstep⟩ := h.step_of_mem hp
    exact (noLostWakeup_iff hstep).mp (hrule p hp t hstep)
  · exact (noLostWakeup_iff hstep).mpr (hsafe p hp)

/-- A queue of capacity one, untouched by its two threads. -/
def smallBlocking : Threads (Fin 2) ℕ := ⟨{ maxSize := 1 }, fun _ => .idle⟩

/-- Thread `0` fills the queue and thread `1` blocks in `push`; thread `0` takes the element out. -/
def handOverRun : List (Action (Fin 2) ℕ) :=
  [.call 0 (.push 7), .notify 0, .call 1 (.push 8), .call 0 .tryPop, .notify 0]

theorem wakeups_iff_handOver :
    ∃ tr s, Run step smallBlocking tr s ∧ s.pc 1 = .woken (.push 8) false ∧ ¬ Stuck s := by
  have hrun := Run.of_isSome (show (exec step smallBlocking handOverRun).isSome by rfl)
  refine ⟨_, _, hrun, by rfl, (wakeups_iff ⟨rfl, fun _ => rfl⟩ hrun).2 fun p hp hloses => ?_⟩
  have hsteps : ∀ p ∈ ((exec step smallBlocking handOverRun).get (by rfl)).1,
      p.1.shared.maxSize = 1 ∧ ∀ x ∈ p.1.visiting p.2, x.2.1 ∈ [.push 7, .push 8, .tryPop] := by
    decide
  obtain ⟨hmax, hops⟩ := hsteps p hp
  cases hloses with
  | raise hvisit => simpa using hops _ hvisit
  | clear hvisit hop hzero => omega

/-- Thread `0` fills the queue, thread `1` blocks in `push`, and thread `0` raises the capacity. -/
def raiseRun : List (Action (Fin 2) ℕ) :=
  [.call 0 (.push 7), .notify 0, .call 1 (.push 8), .call 0 (.setMaxSize 2)]

/-- Raising the capacity over a blocked producer turns its predicate true and notifies nobody: the
producer sleeps on in front of a queue with room. -/
theorem setMaxSize_loses_wakeup :
    ∃ tr s, Run step smallBlocking tr s ∧
      (∃ p ∈ tr, ∃ t, p.1.step p.2 = some t ∧ ¬ NoLostWakeup p.1 p.2 t) ∧ Stuck s := by
  have hrun := Run.of_isSome (show (exec step smallBlocking raiseRun).isSome by rfl)
  refine ⟨_, _, hrun, ?_, 1, .push 8, by rfl, by rfl, by rfl, fun i => ?_⟩
  · have hlast : ∃ p ∈ ((exec step smallBlocking raiseRun).get (by rfl)).1,
        p.1.shared = { maxSize := 1, queue := [7] } ∧ p.1.pc 1 = .parked (.push 8) ∧
          p.1.visiting p.2 = some (0, .setMaxSize 2, .enter) := by
      decide
    obtain ⟨p, hp, hshared, hparked, hvisit⟩ := hlast
    have hstep := step_eq_of_visiting hvisit
    refine ⟨p, hp, _, hstep, fun hrule => (noLostWakeup_iff hstep).mp hrule ?_⟩
    exact .raise (j := 1) hvisit (by rw [hshared]; decide) (by rw [hshared]; decide)
      (by rw [hshared]) hparked (by decide)
  · rcases Fin.exists_fin_two.mp ⟨i, rfl⟩ with rfl | rfl
    · exact .inl (by rfl)
    · exact .inr ⟨.push 8, by rfl⟩

end Threads

end LockingQueue

end DepthaiCore
