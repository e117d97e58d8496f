import DepthaiCore.Utility.LockingQueue

/-!
# `MessageQueue`

A `MessageQueue` is a `LockingQueue` of messages with a table of notifiers beside it. Its member
functions call one function of the `LockingQueue` each; what they add is a test for a closed queue
before it, and for the functions that put a message in or close the queue a call of
`notifyListeners` after it. The differences are collected in `Call`.

A message is a pointer, and a null one is refused before anything happens; here messages are the
non-null ones. Callbacks, names and the pipeline event dispatcher do not touch the queue or the
notifiers.
-/

namespace DepthaiCore

inductive QueueException
  | closedQueue
  deriving DecidableEq, Repr

/-- `CLOSED_QUEUE_MESSAGE` -/
def QueueException.what : QueueException → String
  | .closedQueue => "MessageQueue was closed"

/-- The members of `MessageQueue` that its operations use; `ν` names the notifiers. -/
structure MessageQueue (ν α : Type*) where
  /-- The messages. -/
  queue : LockingQueue α := {}
  /-- The registered notifiers, by the id each was given. -/
  notifiers : List (ℕ × ν) := []
  /-- The next id. -/
  uniqueNotifierId : ℕ := 0
  /-- Whether a thread holds `notifierMtx`. -/
  notifierMtx : Bool := false
  deriving DecidableEq, Repr

namespace MessageQueue

variable {ν α : Type*}

/-! ### Notifiers -/

/-- `addNotifier`: the id given out, and the queue afterwards. -/
def addNotifier (mq : MessageQueue ν α) (notifier : ν) : ℕ × MessageQueue ν α :=
  (mq.uniqueNotifierId,
    { mq with
      uniqueNotifierId := mq.uniqueNotifierId + 1
      notifiers := (mq.uniqueNotifierId, notifier) ::
        mq.notifiers.filter (·.1 ≠ mq.uniqueNotifierId) })

/-- `removeNotifier`: whether the id was in use, and the queue afterwards. -/
def removeNotifier (mq : MessageQueue ν α) (notifierId : ℕ) : Bool × MessageQueue ν α :=
  if mq.notifiers.any (·.1 = notifierId) then
    (true, { mq with notifiers := mq.notifiers.filter (·.1 ≠ notifierId) })
  else (false, mq)

theorem mem_addNotifier {mq : MessageQueue ν α} {notifier : ν} {e : ℕ × ν}
    (hlt : ∀ e ∈ mq.notifiers, e.1 < mq.uniqueNotifierId) :
    e ∈ (mq.addNotifier notifier).2.notifiers ↔
      e = (mq.uniqueNotifierId, notifier) ∨ e ∈ mq.notifiers := by
  have hfresh : mq.notifiers.filter (·.1 ≠ mq.uniqueNotifierId) = mq.notifiers := by
    rw [List.filter_eq_self]
    intro e he
    exact decide_eq_true (Nat.ne_of_lt (hlt e he))
  simp only [addNotifier, hfresh, List.mem_cons]

theorem mem_removeNotifier {mq : MessageQueue ν α} {notifierId : ℕ} {e : ℕ × ν} :
    e ∈ (mq.removeNotifier notifierId).2.notifiers ↔ e ∈ mq.notifiers ∧ e.1 ≠ notifierId := by
  unfold removeNotifier
  split
  case isTrue => simp
  case isFalse h =>
    simp only [List.any_eq_true, decide_eq_true_eq, not_exists, not_and] at h
    exact ⟨fun he => ⟨he, h e he⟩, fun he => he.1⟩

@[simp] theorem removeNotifier_uniqueNotifierId {mq : MessageQueue ν α} {notifierId : ℕ} :
    (mq.removeNotifier notifierId).2.uniqueNotifierId = mq.uniqueNotifierId := by
  unfold removeNotifier
  split <;> rfl

@[simp] theorem addNotifier_queue {mq : MessageQueue ν α} {notifier : ν} :
    (mq.addNotifier notifier).2.queue = mq.queue := rfl

@[simp] theorem removeNotifier_queue {mq : MessageQueue ν α} {notifierId : ℕ} :
    (mq.removeNotifier notifierId).2.queue = mq.queue := by
  unfold removeNotifier
  split <;> rfl

/-! ### Calls nobody interferes with -/

def isClosed (q : LockingQueue α) : Bool := q.isDestroyed

def has (q : LockingQueue α) : Except QueueException Bool :=
  if q.isDestroyed then .error .closedQueue else .ok !q.empty

/-- `tryGet`: the message taken, if there was one, and the queue afterwards. -/
def tryGet (q : LockingQueue α) : Except QueueException (Option α × LockingQueue α) :=
  if q.isDestroyed then .error .closedQueue else .ok (q.front, q.tryPop.shared)

/-! ### All calls under one name -/

/-- A call of a member function that changes the queue. The timed variants end in `For`. -/
inductive Call (α : Type*)
  | send (msg : α)
  | sendFor (msg : α)
  | trySend (msg : α)
  | close
  | tryGet
  | get
  | getFor
  | tryGetAll
  | getAll
  | getAllFor
  | setMaxSize (sz : ℕ)
  | setBlocking (bl : Bool)
  deriving DecidableEq, Repr

namespace Call

/-- The function of the `LockingQueue` a call ends up in. -/
def op : Call α → LockingQueue.Op α
  | send msg => .push msg
  | sendFor msg | trySend msg => .tryWaitAndPush msg
  | close => .destruct
  | tryGet => .tryPop
  | get => .waitAndPop
  | getFor => .tryWaitAndPop
  | tryGetAll => .consumeAll
  | getAll => .waitAndConsumeAll
  | getAllFor => .waitAndConsumeAllFor
  | setMaxSize sz => .setMaxSize sz
  | setBlocking bl => .setBlocking bl

/-- How often `isDestroyed` is tested before that; `trySend` tests, and calls the timed `send`,
which tests again. -/
def checks : Call α → ℕ
  | send _ | sendFor _ | tryGet | getFor | tryGetAll | getAllFor => 1
  | trySend _ => 2
  | close | get | getAll | setMaxSize _ | setBlocking _ => 0

/-- Whether `notifyListeners` is called once that function has returned `ret`. -/
def notifies : Call α → Bool → Bool
  | send _, _ => true
  | sendFor _, ret | trySend _, ret => ret
  | close, _ => true
  | _, _ => false

/-- **A call that fills or closes a queue notifies.** After a visit, either the call goes on to
notify, or the queue is open if it was and empty if it was. -/
theorem quiet_or_notifies {c : Call α} {q : LockingQueue α} {phase : LockingQueue.Phase}
    {v : LockingQueue.Visit α} (h : LockingQueue.Effect q c.op phase v) :
    (∃ ret notify, v.exit = .leave ret notify ∧ c.notifies ret = true) ∨
      (v.shared.isDestroyed = q.isDestroyed ∧ (q.empty = true → v.shared.empty = true)) := by
  generalize hop : c.op = op at h
  cases h with
  | sleep | giveUp => exact .inr ⟨rfl, id⟩
  | clear => exact .inr ⟨rfl, fun _ => rfl⟩
  | append calls hdata =>
    left
    refine ⟨true, _, rfl, ?_⟩
    cases c with
    | send | sendFor | trySend => rfl
    | _ => rw [← hop] at hdata; cases hdata
  | take hdata hqueue htaken =>
    refine .inr ⟨rfl, fun hempty => absurd ?_ htaken⟩
    have hnil : q.queue = [] := by simpa [LockingQueue.empty] using hempty
    rw [hqueue] at hnil
    exact (List.append_eq_nil_iff.mp hnil).1
  | setMaxSize | setBlocking => exact .inr ⟨rfl, id⟩
  | destruct =>
    refine .inl ⟨true, _, rfl, ?_⟩
    cases c with
    | close => rfl
    | _ => cases hop

end Call

end MessageQueue

end DepthaiCore
