import Mathlib.Algebra.Group.Nat.Defs
import Mathlib.Data.List.Basic

/-!
# The critical sections of `LockingQueue`

`LockingQueue<T>` is a bounded queue behind one mutex and two condition variables. Everything it
does happens while the mutex is held, and a wait gives the mutex up only between two evaluations
of its predicate. So an operation is a sequence of *visits* to the critical section: the first one
enters the function, each later one resumes a wait and evaluates the predicate again.

This file holds the members that the mutex protects and, for every member function, what one visit
does to them. Who visits when is the business of `LockingQueueThreads`.

A visit reports, besides the members it leaves behind, how it ends (asleep on the condition
variable, or out of the function with a result and the notifications that follow the unlock), which
element it appended, and which elements it took off the front and why. The last two are the
function's own effects on `queue`, written down so that a history can be read off a run.
-/

namespace DepthaiCore

/-- What a push tells its callback. -/
inductive LockingQueueState
  | success
  | blocked
  | cancelled
  deriving DecidableEq, Repr

/-- The members of `LockingQueue<T>` that `guard` protects. -/
structure LockingQueue (α : Type*) where
  /-- Capacity; the default is the largest `unsigned`. -/
  maxSize : ℕ := 2 ^ 32 - 1
  /-- Whether a push into a full queue waits or drops the oldest elements. -/
  blocking : Bool := true
  /-- The elements, oldest first. -/
  queue : List α := []
  /-- Set once by `destruct`. -/
  destructed : Bool := false
  deriving DecidableEq, Repr

namespace LockingQueue

variable {α : Type*}

/-- The two condition variables. Producers and `waitEmpty` wait on `signalPop`, consumers on
`signalPush`. -/
inductive Signal
  | signalPop
  | signalPush
  deriving DecidableEq, Repr

/-- How a visit ends. -/
inductive Exit
  /-- The predicate of the wait is false: the mutex is released and the thread sleeps. -/
  | wait
  /-- The function is left with result `ret`; each of `notify` gets its `notify_all` after the
  mutex has been released. -/
  | leave (ret : Bool) (notify : List Signal)
  deriving DecidableEq, Repr

/-- Why an element left the front of the queue. -/
inductive Fate
  | handed
  | discarded
  deriving DecidableEq, Repr

/-- What one visit to the critical section does. -/
structure Visit (α : Type*) where
  /-- The members when the mutex is released. -/
  shared : LockingQueue α
  /-- How the visit ends. -/
  exit : Exit
  /-- The element appended to `queue`, if any. -/
  pushed : List α := []
  /-- The elements taken off the front of `queue`, oldest first. -/
  removed : List (α × Fate) := []
  /-- The condition variables notified while the mutex is held. -/
  notified : List Signal := []
  /-- The calls of the push callback, with the size passed to them. -/
  callbacks : List (LockingQueueState × ℕ) := []
  deriving DecidableEq, Repr

/-- Every condition variable a visit notifies, under the mutex or after it. -/
def Visit.notifies (v : Visit α) : List Signal :=
  match v.exit with
  | .wait => v.notified
  | .leave _ notify => v.notified ++ notify

/-! ### Observers -/

def isDestroyed (q : LockingQueue α) : Bool := q.destructed

def empty (q : LockingQueue α) : Bool := q.queue.isEmpty

/-- `front`: the oldest element, if there is one. -/
def front (q : LockingQueue α) : Option α := q.queue.head?

/-! ### Producers -/

/-- `while(queue.size() >= maxSize) queue.pop();` as the elements popped and the elements left.
On an empty queue the loop is only reached with `maxSize > 0`. -/
def popWhileFull (maxSize : ℕ) : List α → List α × List α
  | [] => ([], [])
  | x :: xs =>
    if maxSize ≤ (x :: xs).length then
      (x :: (popWhileFull maxSize xs).1, (popWhileFull maxSize xs).2)
    else ([], x :: xs)

/-- The common end of the push functions: `queue.push(data)`, the success callback, and
`signalPush.notify_all()` after the unlock. -/
def enqueue (q : LockingQueue α) (data : α) (dropped : List α)
    (callbacks : List (LockingQueueState × ℕ)) : Visit α where
  shared := { q with queue := q.queue ++ [data] }
  exit := .leave true [.signalPush]
  pushed := [data]
  removed := dropped.map (·, .discarded)
  callbacks := callbacks ++ [(.success, (q.queue ++ [data]).length)]

/-- The predicate of a blocked producer. -/
def hasRoom (q : LockingQueue α) : Bool := q.queue.length < q.maxSize || q.destructed

/-- One evaluation of the producers' wait and what follows it. `timedOut` says that `wait_for` has
run out of time, so that a false predicate ends the function. -/
def awaitRoom (q : LockingQueue α) (data : α) (timedOut : Bool)
    (callbacks : List (LockingQueueState × ℕ)) : Visit α :=
  if q.hasRoom then
    if q.destructed then { shared := q, exit := .leave false [], callbacks }
    else q.enqueue data [] callbacks
  else if timedOut then
    { shared := q, exit := .leave false []
      callbacks := callbacks ++ [(.cancelled, q.queue.length)] }
  else { shared := q, exit := .wait, callbacks }

/-- The critical section shared by all four push functions, as a thread enters it. -/
def pushSection (q : LockingQueue α) (data : α) : Visit α :=
  if q.maxSize = 0 then
    -- the early return: nobody is notified that the queue has been emptied
    { shared := { q with queue := [] }, exit := .leave true []
      removed := q.queue.map (·, .discarded) }
  else if !q.blocking then
    { q with queue := (popWhileFull q.maxSize q.queue).2 }.enqueue data
      (popWhileFull q.maxSize q.queue).1 []
  else
    q.awaitRoom data false
      (if q.maxSize ≤ q.queue.length then [(.blocked, q.queue.length)] else [])

/-- `push`, both overloads. -/
def push (q : LockingQueue α) (data : α) : Visit α := q.pushSection data

/-- `tryWaitAndPush`, both overloads: `wait_for` checks the predicate before it waits, so a thread
enters it as it enters `push`. -/
def tryWaitAndPush (q : LockingQueue α) (data : α) : Visit α := q.pushSection data

/-! ### Consumers -/

/-- The predicate of a waiting consumer. -/
def hasElement (q : LockingQueue α) : Bool := !q.queue.isEmpty || q.destructed

/-- The visit that leaves without touching anything. -/
def giveUp (q : LockingQueue α) (ret : Bool) : Visit α := { shared := q, exit := .leave ret [] }

/-- `value = std::move(queue.front()); queue.pop();` and `signalPop.notify_all()` after the
unlock. -/
def popFront (q : LockingQueue α) : Visit α :=
  match q.queue with
  | [] => q.giveUp false
  | x :: xs =>
    { shared := { q with queue := xs }, exit := .leave true [.signalPop]
      removed := [(x, .handed)] }

/-- `while(!queue.empty()) { callback(queue.front()); queue.pop(); }` and `signalPop.notify_all()`
after the unlock. -/
def drain (q : LockingQueue α) : Visit α where
  shared := { q with queue := [] }
  exit := .leave true [.signalPop]
  removed := q.queue.map (·, .handed)

def tryPop (q : LockingQueue α) : Visit α :=
  if q.queue.isEmpty then q.giveUp false else q.popFront

def consumeAll (q : LockingQueue α) : Visit α :=
  if q.queue.isEmpty then q.giveUp false else q.drain

/-- One evaluation of the untimed consumers' wait, followed by `take`. -/
def awaitElement (q : LockingQueue α) (take : LockingQueue α → Visit α) : Visit α :=
  if q.hasElement then
    if q.queue.isEmpty then q.giveUp false
    else if q.destructed then q.giveUp false
    else take q
  else { shared := q, exit := .wait }

/-- One evaluation of the timed consumers' wait, followed by `take`. -/
def awaitElementFor (q : LockingQueue α) (timedOut : Bool) (take : LockingQueue α → Visit α) :
    Visit α :=
  if q.hasElement then
    if q.destructed then q.giveUp false else take q
  else if timedOut then q.giveUp false
  else { shared := q, exit := .wait }

def waitAndPop (q : LockingQueue α) : Visit α := q.awaitElement popFront

def tryWaitAndPop (q : LockingQueue α) (timedOut : Bool) : Visit α :=
  q.awaitElementFor timedOut popFront

/-- `waitAndConsumeAll` without a timeout. -/
def waitAndConsumeAll (q : LockingQueue α) : Visit α := q.awaitElement drain

/-- `waitAndConsumeAll` with a timeout. -/
def waitAndConsumeAllFor (q : LockingQueue α) (timedOut : Bool) : Visit α :=
  q.awaitElementFor timedOut drain

def waitEmpty (q : LockingQueue α) : Visit α :=
  if q.queue.isEmpty || q.destructed then q.giveUp true else { shared := q, exit := .wait }

/-! ### Settings -/

/-- `setMaxSize`: nobody is notified. -/
def setMaxSize (q : LockingQueue α) (sz : ℕ) : Visit α := { q with maxSize := sz }.giveUp true

def setBlocking (q : LockingQueue α) (bl : Bool) : Visit α := { q with blocking := bl }.giveUp true

/-- `destruct`: both condition variables are notified under the mutex, before the flag is set. No
woken thread sees the flag unset, since it needs the mutex. -/
def destruct (q : LockingQueue α) : Visit α :=
  if q.destructed then q.giveUp true
  else
    { shared := { q with destructed := true }, exit := .leave true []
      notified := [.signalPop, .signalPush] }

/-! ### All operations under one name -/

/-- A call of a member function. -/
inductive Op (α : Type*)
  | push (data : α)
  | tryWaitAndPush (data : α)
  | tryPop
  | waitAndPop
  | tryWaitAndPop
  | consumeAll
  | waitAndConsumeAll
  | waitAndConsumeAllFor
  | waitEmpty
  | setMaxSize (sz : ℕ)
  | setBlocking (bl : Bool)
  | destruct
  deriving DecidableEq, Repr

/-- Whether a visit is the first one of a call, or follows a wake-up; after a wake-up of a timed
wait it may have run out of time. -/
inductive Phase
  | enter
  | resume (timedOut : Bool)
  deriving DecidableEq, Repr

/-- Whether the wait has run out of time. -/
def Phase.timedOut : Phase → Bool
  | .enter => false
  | .resume timedOut => timedOut

namespace Op

/-- What a visit by operation `op` does. Operations that never wait are never resumed. -/
def visit : Op α → LockingQueue α → Phase → Visit α
  | .push data, q, .enter => q.push data
  | .push data, q, .resume _ => q.awaitRoom data false []
  | .tryWaitAndPush data, q, .enter => q.tryWaitAndPush data
  | .tryWaitAndPush data, q, .resume timedOut => q.awaitRoom data timedOut []
  | .tryPop, q, _ => q.tryPop
  | .waitAndPop, q, _ => q.waitAndPop
  | .tryWaitAndPop, q, phase => q.tryWaitAndPop phase.timedOut
  | .consumeAll, q, _ => q.consumeAll
  | .waitAndConsumeAll, q, _ => q.waitAndConsumeAll
  | .waitAndConsumeAllFor, q, phase => q.waitAndConsumeAllFor phase.timedOut
  | .waitEmpty, q, _ => q.waitEmpty
  | .setMaxSize sz, q, _ => q.setMaxSize sz
  | .setBlocking bl, q, _ => q.setBlocking bl
  | .destruct, q, _ => q.destruct

/-- The element a push function was called with. -/
def pushData : Op α → Option α
  | .push data | .tryWaitAndPush data => some data
  | _ => none

/-- The condition variable an operation waits on. -/
def signal : Op α → Option Signal
  | .push _ | .tryWaitAndPush _ | .waitEmpty => some .signalPop
  | .waitAndPop | .tryWaitAndPop | .waitAndConsumeAll | .waitAndConsumeAllFor => some .signalPush
  | _ => none

/-- The predicate of an operation's wait. -/
def pred : Op α → LockingQueue α → Bool
  | .push _, q | .tryWaitAndPush _, q => q.hasRoom
  | .waitEmpty, q => q.queue.isEmpty || q.destructed
  | .waitAndPop, q | .tryWaitAndPop, q | .waitAndConsumeAll, q | .waitAndConsumeAllFor, q =>
    q.hasElement
  | _, _ => true

/-- Whether an operation's wait has a timeout. -/
def timed : Op α → Bool
  | .tryWaitAndPush _ | .tryWaitAndPop | .waitAndConsumeAllFor => true
  | _ => false

end Op

/-! ### The trimming loop -/

theorem popWhileFull_append (maxSize : ℕ) (xs : List α) :
    (popWhileFull maxSize xs).1 ++ (popWhileFull maxSize xs).2 = xs := by
  induction xs with
  | nil => rfl
  | cons x xs ih =>
    unfold popWhileFull
    split
    · rw [List.cons_append, ih]
    · rfl

/-- The loop leaves the queue one short of the capacity, or as it was when there was room. -/
theorem length_popWhileFull (maxSize : ℕ) (xs : List α) :
    (popWhileFull maxSize xs).2.length = min xs.length (maxSize - 1) := by
  induction xs with
  | nil => simp [popWhileFull]
  | cons x xs ih =>
    unfold popWhileFull
    split
    case isTrue h => rw [ih]; rw [List.length_cons] at h ⊢; omega
    case isFalse h => rw [List.length_cons] at h ⊢; omega

theorem popWhileFull_fst_eq_nil {maxSize : ℕ} {xs : List α} (h : xs.length < maxSize) :
    (popWhileFull maxSize xs).1 = [] := by
  cases xs with
  | nil => rfl
  | cons x xs => rw [popWhileFull, if_neg (by omega)]

/-! ### What a visit can do -/

/-- The possible outcomes of a visit by an operation to the members `q`. -/
inductive Effect (q : LockingQueue α) : Op α → Phase → Visit α → Prop
  /-- The predicate is false and the thread goes to sleep. -/
  | sleep {op : Op α} {phase : Phase} (calls : List (LockingQueueState × ℕ))
      (hop : op.signal ≠ none) (hpred : op.pred q = false) :
      Effect q op phase { shared := q, exit := .wait, callbacks := calls }
  /-- The function is left with everything as it was. A push that does so has failed. -/
  | giveUp {op : Op α} {phase : Phase} (ret : Bool) (calls : List (LockingQueueState × ℕ))
      (hpush : op.pushData ≠ none → ret = false) :
      Effect q op phase { shared := q, exit := .leave ret [], callbacks := calls }
  /-- A push entered while the capacity is zero empties the queue. -/
  | clear {op : Op α} {data : α} (hop : op.pushData = some data) (hmax : q.maxSize = 0) :
      Effect q op .enter { shared := { q with queue := [] }, exit := .leave true []
                           removed := q.queue.map (·, .discarded) }
  /-- A push appends its element, after dropping the oldest ones if it may and must. -/
  | append {op : Op α} {phase : Phase} {data : α} {dropped rest : List α}
      (calls : List (LockingQueueState × ℕ))
      (hop : op.pushData = some data) (hmax : 0 < q.maxSize) (hqueue : q.queue = dropped ++ rest)
      (hrest : rest.length < q.maxSize)
      (hdropped : dropped ≠ [] → q.blocking = false ∧ rest.length + 1 = q.maxSize) :
      Effect q op phase
        { shared := { q with queue := rest ++ [data] }, exit := .leave true [.signalPush]
          pushed := [data], removed := dropped.map (·, .discarded), callbacks := calls }
  /-- A consumer takes some of the oldest elements. -/
  | take {op : Op α} {phase : Phase} {taken rest : List α} (hop : op.pushData = none)
      (hqueue : q.queue = taken ++ rest) (htaken : taken ≠ []) :
      Effect q op phase { shared := { q with queue := rest }, exit := .leave true [.signalPop]
                          removed := taken.map (·, .handed) }
  | setMaxSize {phase : Phase} (sz : ℕ) :
      Effect q (.setMaxSize sz) phase { shared := { q with maxSize := sz }, exit := .leave true [] }
  | setBlocking {phase : Phase} (bl : Bool) :
      Effect q (.setBlocking bl) phase { shared := { q with blocking := bl }, exit := .leave true [] }
  | destruct {phase : Phase} (hq : q.destructed = false) :
      Effect q .destruct phase
        { shared := { q with destructed := true }, exit := .leave true []
          notified := [.signalPop, .signalPush] }

/-- A visit goes to sleep only on a false predicate, and changes nothing. -/
theorem Effect.of_wait {q : LockingQueue α} {op : Op α} {phase : Phase} {v : Visit α}
    (h : Effect q op phase v) (hwait : v.exit = .wait) :
    v.shared = q ∧ op.pred q = false ∧ op.signal ≠ none := by
  cases h with
  | sleep calls hop hpred => exact ⟨rfl, hpred, hop⟩
  | _ => cases hwait

/-- A notification not made under the mutex is made after it. -/
theorem Visit.exit_of_mem_notifies {v : Visit α} {c : Signal} (h : c ∈ v.notifies)
    (hnot : c ∉ v.notified) : ∃ ret cs, v.exit = .leave ret cs ∧ c ∈ cs := by
  cases hexit : v.exit with
  | wait => exact absurd (by simpa [notifies, hexit] using h) hnot
  | leave ret cs =>
    simp only [notifies, hexit, List.mem_append] at h
    exact ⟨ret, cs, rfl, h.resolve_left hnot⟩

theorem awaitRoom_effect {q : LockingQueue α} {op : Op α} {phase : Phase} {data : α}
    (hop : op.pushData = some data) (hsignal : op.signal ≠ none) (hpred : op.pred q = q.hasRoom)
    (timedOut : Bool) (calls : List (LockingQueueState × ℕ)) :
    Effect q op phase (q.awaitRoom data timedOut calls) := by
  unfold awaitRoom
  split_ifs with hroom hdestr htime
  · exact .giveUp false calls fun _ => rfl
  · have hlt : q.queue.length < q.maxSize := by simpa [hasRoom, hdestr] using hroom
    exact .append _ hop (by omega) (List.nil_append _).symm hlt (fun h => absurd rfl h)
  · exact .giveUp false _ fun _ => rfl
  · exact .sleep calls hsignal (by rw [hpred]; simpa using hroom)

theorem pushSection_effect {q : LockingQueue α} {op : Op α} {data : α}
    (hop : op.pushData = some data) (hsignal : op.signal ≠ none) (hpred : op.pred q = q.hasRoom) :
    Effect q op .enter (q.pushSection data) := by
  unfold pushSection
  by_cases hmax : q.maxSize = 0
  · rw [if_pos hmax]
    exact .clear hop hmax
  rw [if_neg hmax]
  rcases Bool.eq_false_or_eq_true q.blocking with hblock | hblock
  · rw [if_neg (by simp [hblock])]
    exact awaitRoom_effect hop hsignal hpred false _
  · rw [if_pos (by simp [hblock])]
    have hlen : (popWhileFull q.maxSize q.queue).2.length = min q.queue.length (q.maxSize - 1) :=
      length_popWhileFull q.maxSize q.queue
    refine .append _ hop (by omega) (popWhileFull_append q.maxSize q.queue).symm
      (show (popWhileFull q.maxSize q.queue).2.length < q.maxSize by omega)
      fun hne => ⟨hblock, show (popWhileFull q.maxSize q.queue).2.length + 1 = q.maxSize from ?_⟩
    by_cases hlt : q.queue.length < q.maxSize
    · exact absurd (popWhileFull_fst_eq_nil hlt) hne
    · omega

theorem popFront_effect {q : LockingQueue α} {op : Op α} {phase : Phase} (hop : op.pushData = none) :
    Effect q op phase q.popFront := by
  unfold popFront
  split
  case h_1 => exact .giveUp false [] fun _ => rfl
  case h_2 x xs hq => exact .take hop (show q.queue = [x] ++ xs from hq) (by simp)

theorem drain_effect {q : LockingQueue α} {op : Op α} {phase : Phase} (hop : op.pushData = none)
    (hq : q.queue ≠ []) : Effect q op phase q.drain :=
  .take hop (List.append_nil _).symm hq

theorem awaitElement_effect {q : LockingQueue α} {op : Op α} {phase : Phase}
    {take : LockingQueue α → Visit α} (hsignal : op.signal ≠ none) (hpred : op.pred q = q.hasElement)
    (htake : q.queue ≠ [] → Effect q op phase (take q)) : Effect q op phase (q.awaitElement take) := by
  unfold awaitElement
  split_ifs with helem hempty hdestr
  · exact .giveUp false [] fun _ => rfl
  · exact .giveUp false [] fun _ => rfl
  · exact htake (by simpa using hempty)
  · exact .sleep [] hsignal (by rw [hpred]; simpa using helem)

theorem awaitElementFor_effect {q : LockingQueue α} {op : Op α} {phase : Phase}
    {take : LockingQueue α → Visit α} (hsignal : op.signal ≠ none) (hpred : op.pred q = q.hasElement)
    (htake : q.queue ≠ [] → Effect q op phase (take q)) (timedOut : Bool) :
    Effect q op phase (q.awaitElementFor timedOut take) := by
  unfold awaitElementFor
  split_ifs with helem hdestr htime
  · exact .giveUp false [] fun _ => rfl
  · exact htake (by simpa [hasElement, hdestr] using helem)
  · exact .giveUp false [] fun _ => rfl
  · exact .sleep [] hsignal (by rw [hpred]; simpa using helem)

/-- **The case analysis of a visit.** Every visit of every operation is one of the outcomes listed
in `Effect`. -/
theorem Op.visit_effect (op : Op α) (q : LockingQueue α) (phase : Phase) :
    Effect q op phase (op.visit q phase) := by
  cases op with
  | push data =>
    cases phase with
    | enter => exact pushSection_effect rfl (by simp [signal]) rfl
    | resume timedOut => exact awaitRoom_effect rfl (by simp [signal]) rfl false []
  | tryWaitAndPush data =>
    cases phase with
    | enter => exact pushSection_effect rfl (by simp [signal]) rfl
    | resume timedOut => exact awaitRoom_effect rfl (by simp [signal]) rfl timedOut []
  | tryPop =>
    change Effect q _ _ q.tryPop
    unfold LockingQueue.tryPop
    split_ifs
    · exact .giveUp false [] fun _ => rfl
    · exact popFront_effect rfl
  | waitAndPop =>
    exact awaitElement_effect (by simp [signal]) rfl fun _ => popFront_effect rfl
  | tryWaitAndPop =>
    exact awaitElementFor_effect (by simp [signal]) rfl (fun _ => popFront_effect rfl) _
  | consumeAll =>
    change Effect q _ _ q.consumeAll
    unfold LockingQueue.consumeAll
    split_ifs with hempty
    · exact .giveUp false [] fun _ => rfl
    · exact drain_effect rfl (by simpa using hempty)
  | waitAndConsumeAll =>
    exact awaitElement_effect (by simp [signal]) rfl (drain_effect rfl)
  | waitAndConsumeAllFor =>
    exact awaitElementFor_effect (by simp [signal]) rfl (drain_effect rfl) _
  | waitEmpty =>
    change Effect q _ _ q.waitEmpty
    unfold LockingQueue.waitEmpty
    split_ifs with h
    · exact .giveUp true [] fun hne => absurd rfl hne
    · exact .sleep [] (by simp [signal]) (by simpa [pred] using h)
  | setMaxSize sz => exact .setMaxSize sz
  | setBlocking bl => exact .setBlocking bl
  | destruct =>
    change Effect q _ _ q.destruct
    unfold LockingQueue.destruct
    split_ifs with h
    · exact .giveUp true [] fun hne => absurd rfl hne
    · exact .destruct (by simpa using h)

end LockingQueue

end DepthaiCore
