import DepthaiCore.Lib.Runs
import DepthaiCore.Pipeline.MessageQueue

/-!
# Threads that send, close, take and wait

Any number of threads work on any number of message queues. A thread may call a member function of
one queue, or wait on a list of queues with `waitAny`. The atomic steps are the critical sections:
a visit to a `LockingQueue`, one registration or removal of a notifier, one `release` or `acquire`
of a notifier's semaphore, one test of `isDestroyed` or `empty`. `notifyListeners` holds the mutex
of the notifier table while it makes its releases, one by one and in any order.

Every call of `waitAny` makes a notifier of its own, and nothing refers to it once the call is over,
so it is named by the thread. Its semaphore is the flag `available`.

`waitAny` evaluates its two conditions in four places: before it waits, in the predicate of the
wait, once more after a timeout, and at the end to compute its result. These are its rounds. A
round reads one queue at a time, and the queues may change in between.
-/

namespace DepthaiCore

namespace WaitAny

open LockingQueue (Phase Visit)
open MessageQueue (Call)

variable {ι κ α : Type*}

/-- How `waitAny` ends. -/
inductive Outcome
  | returned (gotMessage : Bool)
  | threw
  deriving DecidableEq, Repr

/-! ### One call of `waitAny` -/

/-- The evaluations of the conditions: `initial` before the wait, `predicate` inside it, `timeout`
after it has run out of time, and `final` for the result. -/
inductive Round
  | initial
  | predicate
  | timeout
  | final
  deriving DecidableEq, Repr

/-- Where a call of `waitAny` is. -/
inductive Stage (κ : Type*)
  /-- The notifier has yet to be added to the queues `todo`. -/
  | registering (todo : List κ)
  /-- `checkAllClosed`, with `todo` left. -/
  | allClosed (r : Round) (todo : List κ)
  /-- `checkForMessages`, about to test `isClosed` of the first of `todo`. -/
  | skipClosed (r : Round) (todo : List κ)
  /-- Inside `has` of queue `q`, about to test `isDestroyed`. -/
  | hasOpen (r : Round) (q : κ) (todo : List κ)
  /-- Inside `has` of queue `q`, about to test `empty`. -/
  | hasMessage (r : Round) (q : κ) (todo : List κ)
  /-- In `acquire`, or `tryAcquireUntil` if there is a timeout. -/
  | acquire
  /-- In `removeNotifiers`, on the way out with this outcome. -/
  | removing (outcome : Outcome)
  deriving DecidableEq, Repr

/-- A call of `waitAny`. -/
structure Waiter (κ : Type*) where
  queues : List κ
  /-- Whether there is a timeout. -/
  timed : Bool
  /-- `notifierIds`, less the entries that have been removed again. -/
  notifierIds : List (κ × ℕ) := []
  stage : Stage κ
  deriving DecidableEq, Repr

namespace Waiter

/-- What follows a round in which every queue was closed or some queue had a message. -/
def onTrue (w : Waiter κ) : Round → Stage κ
  | .initial | .predicate | .timeout => .skipClosed .final w.queues
  | .final => .removing (.returned true)

/-- What follows a round in which some queue was open and none had a message. -/
def onFalse (w : Waiter κ) : Round → Stage κ
  | .initial => .allClosed .predicate w.queues
  | .predicate => .acquire
  | .timeout => .skipClosed .final w.queues
  | .final => .removing (.returned false)

/-- What follows a round in which `has` threw: the predicate catches the exception and answers
true, the other evaluations pass it on. -/
def onThrow (w : Waiter κ) : Round → Stage κ
  | .initial | .final => .removing .threw
  | .predicate | .timeout => .skipClosed .final w.queues

/-- One reading step of a round. -/
def scan (w : Waiter κ) (queue : κ → LockingQueue α) : Stage κ → Stage κ
  | .allClosed r [] => w.onTrue r
  | .allClosed r (q :: todo) =>
    if MessageQueue.isClosed (queue q) then .allClosed r todo else .skipClosed r w.queues
  | .skipClosed r [] => w.onFalse r
  | .skipClosed r (q :: todo) =>
    if MessageQueue.isClosed (queue q) then .skipClosed r todo else .hasOpen r q todo
  | .hasOpen r q todo => if (queue q).isDestroyed then w.onThrow r else .hasMessage r q todo
  | .hasMessage r q todo => if (queue q).empty then .skipClosed r todo else w.onTrue r
  | stage => stage

end Waiter

/-! ### Threads -/

/-- Where a thread is. -/
inductive Pc (ι κ α : Type*)
  /-- Outside every function; `waited` is what its last call came to if that was `waitAny`. -/
  | outside (waited : Option Outcome)
  /-- In a call, with `checks` tests of `isDestroyed` left before the visit to the queue. -/
  | entered (q : κ) (c : Call α) (checks : ℕ)
  /-- In a call, waiting on a condition variable of the queue or for its mutex. -/
  | blocked (q : κ) (c : Call α)
  /-- In a call, about to call `notifyListeners`. -/
  | owing (q : κ)
  /-- In `notifyListeners`, with the notifiers left to release. -/
  | notifying (q : κ) (rest : List (ℕ × ι))
  /-- In `waitAny`. -/
  | waiting (w : Waiter κ)
  deriving DecidableEq

/-- Where a thread is once its visit has ended with `exit`. -/
def Pc.after (q : κ) (c : Call α) : LockingQueue.Exit → Pc ι κ α
  | .wait => .blocked q c
  | .leave ret _ => if c.notifies ret then .owing q else .outside none

/-- The queues and the threads. -/
structure System (ι κ α : Type*) where
  queues : κ → MessageQueue ι α
  /-- The semaphore of the notifier of each thread's call of `waitAny`. -/
  available : ι → Bool
  pc : ι → Pc ι κ α

/-- The atomic steps. -/
inductive Action (ι κ α : Type*)
  /-- Thread `i` calls a member function of queue `q`. -/
  | call (i : ι) (q : κ) (c : Call α)
  /-- Thread `i` tests `isDestroyed`, and throws if it is set. -/
  | check (i : ι)
  /-- Thread `i` visits the queue for the first time in its call. -/
  | visit (i : ι)
  /-- Thread `i`, blocked, has the mutex again. -/
  | resume (i : ι) (timedOut : Bool)
  /-- Thread `i` enters `notifyListeners`. -/
  | lock (i : ι)
  /-- Thread `i` releases the semaphore of one notifier. -/
  | release (i : ι) (e : ℕ × ι)
  /-- Thread `i` leaves `notifyListeners`. -/
  | unlock (i : ι)
  /-- Thread `i` calls `waitAny`. -/
  | waitAny (i : ι) (queues : List κ) (timed : Bool)
  /-- Thread `i` takes the next step inside `waitAny`. -/
  | advance (i : ι)
  /-- A registration by thread `i` throws. -/
  | fail (i : ι)
  /-- The `acquire` of thread `i` runs out of time. -/
  | timeout (i : ι)
  deriving DecidableEq

namespace System

/-- The `LockingQueue` of each message queue. -/
def queue (s : System ι κ α) (q : κ) : LockingQueue α := (s.queues q).queue

section OneThread

variable [DecidableEq ι]

/-- Thread `i` moves to `pc`. -/
def setPc (s : System ι κ α) (i : ι) (pc : Pc ι κ α) : System ι κ α :=
  { s with pc := Function.update s.pc i pc }

/-- The semaphore of thread `i` becomes `b`. -/
def setAvailable (s : System ι κ α) (i : ι) (b : Bool) : System ι κ α :=
  { s with available := Function.update s.available i b }

variable {s : System ι κ α} {i j : ι} {pc : Pc ι κ α} {b : Bool}

@[simp] theorem setPc_queues : (s.setPc i pc).queues = s.queues := rfl
@[simp] theorem setPc_available : (s.setPc i pc).available = s.available := rfl
@[simp] theorem setPc_pc_self : (s.setPc i pc).pc i = pc := by simp [setPc]
theorem setPc_pc_of_ne (h : j ≠ i) : (s.setPc i pc).pc j = s.pc j := by simp [setPc, h]

@[simp] theorem setAvailable_queues : (s.setAvailable i b).queues = s.queues := rfl
@[simp] theorem setAvailable_pc : (s.setAvailable i b).pc = s.pc := rfl
@[simp] theorem setAvailable_available_self : (s.setAvailable i b).available i = b := by
  simp [setAvailable]
theorem setAvailable_available_of_ne (h : j ≠ i) :
    (s.setAvailable i b).available j = s.available j := by
  simp [setAvailable, h]

end OneThread

section OneQueue

variable [DecidableEq κ]

/-- Message queue `q` becomes `mq`. -/
def setQueue (s : System ι κ α) (q : κ) (mq : MessageQueue ι α) : System ι κ α :=
  { s with queues := Function.update s.queues q mq }

variable {s : System ι κ α} {q q' : κ} {mq : MessageQueue ι α}

@[simp] theorem setQueue_pc : (s.setQueue q mq).pc = s.pc := rfl
@[simp] theorem setQueue_available : (s.setQueue q mq).available = s.available := rfl
@[simp] theorem setQueue_queues_self : (s.setQueue q mq).queues q = mq := by simp [setQueue]
theorem setQueue_queues_of_ne (h : q' ≠ q) : (s.setQueue q mq).queues q' = s.queues q' := by
  simp [setQueue, h]

end OneQueue

variable [DecidableEq ι] [DecidableEq κ]

/-- Queue `q` after visit `v` by thread `i` in call `c`. -/
def visited (s : System ι κ α) (i : ι) (q : κ) (c : Call α) (v : Visit α) : System ι κ α :=
  (s.setQueue q { s.queues q with queue := v.shared }).setPc i (.after q c v.exit)

/-- The next step of thread `i` inside `waitAny`. -/
def advance (s : System ι κ α) (i : ι) (w : Waiter κ) : Option (System ι κ α) :=
  match w.stage with
  | .registering [] =>
    some (s.setPc i (.waiting { w with stage := .allClosed .initial w.queues }))
  | .registering (q :: todo) =>
    if (s.queues q).notifierMtx then none
    else
      some ((s.setQueue q ((s.queues q).addNotifier i).2).setPc i (.waiting
        { w with
          notifierIds := w.notifierIds ++ [(q, ((s.queues q).addNotifier i).1)]
          stage := .registering todo }))
  | .acquire =>
    if s.available i then
      some ((s.setAvailable i false).setPc i
        (.waiting { w with stage := .allClosed .predicate w.queues }))
    else none
  | .removing outcome =>
    match w.notifierIds with
    | [] => some (s.setPc i (.outside (some outcome)))
    | (q, notifierId) :: rest =>
      if (s.queues q).notifierMtx then none
      else
        some ((s.setQueue q ((s.queues q).removeNotifier notifierId).2).setPc i
          (.waiting { w with notifierIds := rest }))
  | stage => some (s.setPc i (.waiting { w with stage := w.scan s.queue stage }))

end System

variable [DecidableEq ι] [DecidableEq κ]

scoped instance lawfulBEq_notifier : LawfulBEq (ℕ × ι) := inferInstance

/-- One atomic step. -/
def step (s : System ι κ α) : Action ι κ α → Option (System ι κ α)
  | .call i q c =>
    match s.pc i with
    | .outside _ => some (s.setPc i (.entered q c c.checks))
    | _ => none
  | .check i =>
    match s.pc i with
    | .entered q c (n + 1) =>
      some (s.setPc i (if (s.queue q).isDestroyed then .outside none else .entered q c n))
    | _ => none
  | .visit i =>
    match s.pc i with
    | .entered q c 0 => some (s.visited i q c (c.op.visit (s.queue q) .enter))
    | _ => none
  | .resume i timedOut =>
    match s.pc i with
    | .blocked q c =>
      if timedOut && !c.op.timed then none
      else some (s.visited i q c (c.op.visit (s.queue q) (.resume timedOut)))
    | _ => none
  | .lock i =>
    match s.pc i with
    | .owing q =>
      if (s.queues q).notifierMtx then none
      else
        some ((s.setQueue q { s.queues q with notifierMtx := true }).setPc i
          (.notifying q (s.queues q).notifiers))
    | _ => none
  | .release i e =>
    match s.pc i with
    | .notifying q rest =>
      if e ∈ rest then some ((s.setAvailable e.2 true).setPc i (.notifying q (rest.erase e)))
      else none
    | _ => none
  | .unlock i =>
    match s.pc i with
    | .notifying q [] =>
      some ((s.setQueue q { s.queues q with notifierMtx := false }).setPc i (.outside none))
    | _ => none
  | .waitAny i queues timed =>
    match s.pc i with
    | .outside _ =>
      some ((s.setAvailable i false).setPc i
        (.waiting { queues, timed, stage := .registering queues }))
    | _ => none
  | .advance i =>
    match s.pc i with
    | .waiting w => s.advance i w
    | _ => none
  | .fail i =>
    match s.pc i with
    | .waiting w =>
      match w.stage with
      | .registering (_ :: _) => some (s.setPc i (.waiting { w with stage := .removing .threw }))
      | _ => none
    | _ => none
  | .timeout i =>
    match s.pc i with
    | .waiting w =>
      if w.timed ∧ w.stage = .acquire then
        some (s.setPc i (.waiting { w with stage := .allClosed .timeout w.queues }))
      else none
    | _ => none

/-! ### What a step can do -/

/-- The steps of a call of `waitAny` that touch nothing outside it. -/
inductive Waiter.Turns (w : Waiter κ) (queue : κ → LockingQueue α) : Stage κ → Prop
  | start (hstage : w.stage = .registering []) : Turns w queue (.allClosed .initial w.queues)
  | fail {q : κ} {todo : List κ} (hstage : w.stage = .registering (q :: todo)) :
      Turns w queue (.removing .threw)
  | timeout (hstage : w.stage = .acquire) : Turns w queue (.allClosed .timeout w.queues)
  | scan (hregistering : ∀ todo, w.stage ≠ .registering todo) (hacquire : w.stage ≠ .acquire)
      (hremoving : ∀ outcome, w.stage ≠ .removing outcome) :
      Turns w queue (w.scan queue w.stage)

/-- The possible steps of thread `i`. -/
inductive Moves (s : System ι κ α) (i : ι) : System ι κ α → Prop
  /-- A call is entered, or a test of `isDestroyed` made. -/
  | enter {pc : Pc ι κ α}
      (hold : (∃ o, s.pc i = .outside o) ∨ ∃ q c n, s.pc i = .entered q c n)
      (hnew : (∃ o, pc = .outside o) ∨ ∃ q c n, pc = .entered q c n) : Moves s i (s.setPc i pc)
  | visit {q : κ} {c : Call α} {phase : Phase} {v : Visit α}
      (hpc : s.pc i = .entered q c 0 ∨ s.pc i = .blocked q c)
      (heff : LockingQueue.Effect (s.queue q) c.op phase v) : Moves s i (s.visited i q c v)
  | lock {q : κ} (hpc : s.pc i = .owing q) :
      Moves s i ((s.setQueue q { s.queues q with notifierMtx := true }).setPc i
        (.notifying q (s.queues q).notifiers))
  | release {q : κ} {rest : List (ℕ × ι)} {e : ℕ × ι} (hpc : s.pc i = .notifying q rest) :
      Moves s i ((s.setAvailable e.2 true).setPc i (.notifying q (rest.erase e)))
  | unlock {q : κ} (hpc : s.pc i = .notifying q []) :
      Moves s i ((s.setQueue q { s.queues q with notifierMtx := false }).setPc i (.outside none))
  | waitAny {o : Option Outcome} {queues : List κ} {timed : Bool} (hpc : s.pc i = .outside o) :
      Moves s i ((s.setAvailable i false).setPc i
        (.waiting { queues, timed, stage := .registering queues }))
  | turn {w : Waiter κ} {stage : Stage κ} (hpc : s.pc i = .waiting w)
      (hturn : w.Turns s.queue stage) : Moves s i (s.setPc i (.waiting { w with stage }))
  | register {w : Waiter κ} {q : κ} {todo : List κ} (hpc : s.pc i = .waiting w)
      (hstage : w.stage = .registering (q :: todo)) :
      Moves s i ((s.setQueue q ((s.queues q).addNotifier i).2).setPc i (.waiting
        { w with
          notifierIds := w.notifierIds ++ [(q, ((s.queues q).addNotifier i).1)]
          stage := .registering todo }))
  | acquire {w : Waiter κ} (hpc : s.pc i = .waiting w) (hstage : w.stage = .acquire) :
      Moves s i ((s.setAvailable i false).setPc i
        (.waiting { w with stage := .allClosed .predicate w.queues }))
  | remove {w : Waiter κ} {outcome : Outcome} {q : κ} {notifierId : ℕ} {rest : List (κ × ℕ)}
      (hpc : s.pc i = .waiting w) (hstage : w.stage = .removing outcome)
      (hids : w.notifierIds = (q, notifierId) :: rest) :
      Moves s i ((s.setQueue q ((s.queues q).removeNotifier notifierId).2).setPc i
        (.waiting { w with notifierIds := rest }))
  | leave {w : Waiter κ} {outcome : Outcome} (hpc : s.pc i = .waiting w)
      (hstage : w.stage = .removing outcome) (hids : w.notifierIds = []) :
      Moves s i (s.setPc i (.outside (some outcome)))

theorem System.advance_moves {s t : System ι κ α} {i : ι} {w : Waiter κ} (hpc : s.pc i = .waiting w)
    (h : s.advance i w = some t) : Moves s i t := by
  unfold System.advance at h
  split at h
  case h_1 hstage => cases h; exact .turn hpc (.start hstage)
  case h_2 q todo hstage =>
    split at h
    · cases h
    · cases h; exact .register hpc hstage
  case h_3 hstage =>
    split at h
    · cases h; exact .acquire hpc hstage
    · cases h
  case h_4 outcome hstage =>
    split at h
    case h_1 hids => cases h; exact .leave hpc hstage hids
    case h_2 q notifierId rest hids =>
      split at h
      · cases h
      · cases h; exact .remove hpc hstage hids
  case h_5 hnil hcons hacquire hremoving =>
    cases h
    refine .turn hpc (.scan (fun todo hstage => ?_) hacquire hremoving)
    cases todo with
    | nil => exact hnil hstage
    | cons q todo => exact hcons q todo hstage

/-- **The case analysis of a step.** Every step is one of the outcomes listed in `Moves`. -/
theorem step_moves {s t : System ι κ α} {a : Action ι κ α} (h : step s a = some t) :
    ∃ i, Moves s i t := by
  cases a with
  | call i q c =>
    simp only [step] at h
    split at h
    case h_1 o hpc => cases h; exact ⟨i, .enter (.inl ⟨o, hpc⟩) (.inr ⟨q, c, _, rfl⟩)⟩
    case h_2 => cases h
  | check i =>
    simp only [step] at h
    split at h
    case h_1 q c n hpc =>
      cases h
      refine ⟨i, .enter (.inr ⟨q, c, _, hpc⟩) ?_⟩
      split
      · exact .inl ⟨none, rfl⟩
      · exact .inr ⟨q, c, n, rfl⟩
    case h_2 => cases h
  | visit i =>
    simp only [step] at h
    split at h
    case h_1 q c hpc => cases h; exact ⟨i, .visit (.inl hpc) (c.op.visit_effect _ _)⟩
    case h_2 => cases h
  | resume i timedOut =>
    simp only [step] at h
    split at h
    case h_1 q c hpc =>
      split at h
      · cases h
      · cases h; exact ⟨i, .visit (.inr hpc) (c.op.visit_effect _ _)⟩
    case h_2 => cases h
  | lock i =>
    simp only [step] at h
    split at h
    case h_1 q hpc =>
      split at h
      · cases h
      · cases h; exact ⟨i, .lock hpc⟩
    case h_2 => cases h
  | release i e =>
    simp only [step] at h
    split at h
    case h_1 q rest hpc =>
      split at h
      · cases h; exact ⟨i, .release hpc⟩
      · cases h
    case h_2 => cases h
  | unlock i =>
    simp only [step] at h
    split at h
    case h_1 q hpc => cases h; exact ⟨i, .unlock hpc⟩
    case h_2 => cases h
  | waitAny i queues timed =>
    simp only [step] at h
    split at h
    case h_1 o hpc => cases h; exact ⟨i, .waitAny hpc⟩
    case h_2 => cases h
  | advance i =>
    simp only [step] at h
    split at h
    case h_1 w hpc => exact ⟨i, System.advance_moves hpc h⟩
    case h_2 => cases h
  | fail i =>
    simp only [step] at h
    split at h
    case h_1 w hpc =>
      split at h
      case h_1 q todo hstage => cases h; exact ⟨i, .turn hpc (.fail hstage)⟩
      case h_2 => cases h
    case h_2 => cases h
  | timeout i =>
    simp only [step] at h
    split at h
    case h_1 w hpc =>
      split at h
      case isTrue hw => cases h; exact ⟨i, .turn hpc (.timeout hw.2)⟩
      case isFalse => cases h
    case h_2 => cases h

end WaitAny

end DepthaiCore
