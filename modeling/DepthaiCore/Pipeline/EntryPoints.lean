import DepthaiCore.Pipeline.MessageQueue
import DepthaiCore.Utility.LockingQueueClosure

/-!
# The entry points of a `MessageQueue` while it is closed

Every entry point tests for a closed queue, calls the callbacks, goes to the `LockingQueue` and
notifies, each in an order of its own. The order is written down as the list of the atomic sections
of a call. In between, other threads may do anything to the queue and to the tables of callbacks and
notifiers; what they cannot do is open a queue that is closed.

A send to a closed queue should throw before it has any effect. The timed `send` calls the callbacks
before its test. A call that takes messages should throw if the queue is closed when its wait ends.
The timed `getAll` does not test again, and takes this for a timeout.
-/

namespace DepthaiCore

namespace MessageQueue

open Transition
open LockingQueue (Op Phase Visit Fate)

variable {ν κ α : Type*}

/-! ### The sections of a call -/

/-- An atomic section of a call. -/
inductive Instr
  /-- `if(queue.isDestroyed()) throw QueueException` -/
  | checkOpen
  | callCallbacks
  /-- The function of the `LockingQueue`, with its waits. -/
  | visit
  | notifyListeners
  /-- `if(ret) notifyListeners()` -/
  | notifyIfTrue
  /-- `if(!ret) throw QueueException` -/
  | throwIfFalse
  /-- `if(!ret) { if(queue.isDestroyed()) throw QueueException }` -/
  | recheck
  deriving DecidableEq, Repr

/-- The sections of a call, in their order. -/
def Call.program : Call α → List Instr
  | .send _ => [.checkOpen, .callCallbacks, .visit, .notifyListeners, .throwIfFalse]
  | .sendFor _ => [.callCallbacks, .checkOpen, .visit, .notifyIfTrue]
  | .trySend _ => [.checkOpen, .callCallbacks, .checkOpen, .visit, .notifyIfTrue]
  | .close => [.visit, .notifyListeners]
  | .tryGet | .tryGetAll => [.checkOpen, .visit]
  | .get | .getAll => [.visit, .throwIfFalse]
  | .getFor => [.checkOpen, .visit, .recheck]
  | .getAllFor => [.checkOpen, .visit]
  | .setMaxSize _ | .setBlocking _ => [.visit]

/-- What a call does to others. -/
inductive Event (ν κ α : Type*)
  | called (callback : κ)
  | notified (notifier : ν)
  | pushed (msg : α)
  | removed (msg : α) (fate : Fate)
  deriving DecidableEq, Repr

/-- A call that is being made. -/
structure Entry (ν κ α : Type*) where
  mq : MessageQueue ν α
  /-- The callbacks, by the id each was given. -/
  callbacks : List (ℕ × κ)
  /-- The sections that are left. -/
  todo : List Instr
  /-- Whether the next visit enters or resumes a wait; none while the thread sleeps. -/
  phase : Option Phase := some .enter
  /-- What the function of the `LockingQueue` has returned. -/
  ret : Bool := false
  thrown : Option QueueException := none
  events : List (Event ν κ α) := []
  deriving DecidableEq

/-- The steps of the call itself, and those of others. -/
inductive Action (ν κ α : Type*)
  /-- The next section of the call. -/
  | tick
  /-- The thread of the call wakes up. -/
  | wake (timedOut : Bool)
  /-- Another thread visits the `LockingQueue`. -/
  | other (op : Op α) (phase : Phase)
  /-- Callbacks are added or removed. -/
  | callbacks (callbacks : List (ℕ × κ))
  /-- Notifiers are added or removed. -/
  | notifiers (notifiers : List (ℕ × ν))

namespace Entry

/-- The call is over with an exception. -/
def throw (s : Entry ν κ α) : Entry ν κ α := { s with todo := [], thrown := some .closedQueue }

/-- The notifiers are called. -/
def notify (s : Entry ν κ α) : Entry ν κ α :=
  { s with events := s.events ++ s.mq.notifiers.map fun p => .notified p.2 }

/-- The thread leaves the critical section, with the sections `rest` to go if it leaves the
function. -/
def visited (s : Entry ν κ α) (v : Visit α) (rest : List Instr) : Entry ν κ α :=
  let s := { s with
    mq.queue := v.shared
    events := s.events ++ v.pushed.map Event.pushed ++
      v.removed.map fun p : α × Fate => Event.removed p.1 p.2 }
  match v.exit with
  | .wait => { s with phase := none }
  | .leave ret _ => { s with todo := rest, phase := some .enter, ret }

/-- One section of the call `c`. -/
def tick (c : Call α) (s : Entry ν κ α) : Option (Entry ν κ α) :=
  match s.todo with
  | [] => none
  | .checkOpen :: todo => some (if s.mq.queue.isDestroyed then s.throw else { s with todo })
  | .callCallbacks :: todo =>
    some { s with todo, events := s.events ++ s.callbacks.map fun p => .called p.2 }
  | .visit :: todo => s.phase.map fun phase => s.visited (c.op.visit s.mq.queue phase) todo
  | .notifyListeners :: todo => some { s.notify with todo }
  | .notifyIfTrue :: todo => some (if s.ret then { s.notify with todo } else { s with todo })
  | .throwIfFalse :: todo => some (if s.ret then { s with todo } else s.throw)
  | .recheck :: todo =>
    some (if !s.ret && s.mq.queue.isDestroyed then s.throw else { s with todo })

/-- One step of the call `c` or of others. -/
def step (c : Call α) (s : Entry ν κ α) : Action ν κ α → Option (Entry ν κ α)
  | .tick => s.tick c
  | .wake timedOut =>
    match s.phase with
    | none =>
      if timedOut && !c.op.timed then none else some { s with phase := some (.resume timedOut) }
    | some _ => none
  | .other op phase => some { s with mq.queue := (op.visit s.mq.queue phase).shared }
  | .callbacks callbacks => some { s with callbacks }
  | .notifiers notifiers => some { s with mq.notifiers := notifiers }

/-- A call of `c` begins. -/
def start (c : Call α) (mq : MessageQueue ν α) (callbacks : List (ℕ × κ)) : Entry ν κ α :=
  { mq, callbacks, todo := c.program }

end Entry

/-- A run of one call. -/
abbrev CallTrace (ν κ α : Type*) := List (Entry ν κ α × Action ν κ α)

/-! ### What should hold -/

/-- A call that puts a message in. -/
def Call.sends : Call α → Bool
  | .send _ | .sendFor _ | .trySend _ => true
  | _ => false

/-- A call that waits for messages. -/
def Call.gets : Call α → Bool
  | .get | .getFor | .getAll | .getAllFor => true
  | _ => false

/-- A send is refused: no callback and no notifier was called, the queue is as the call found it at
every step, and the call ends with an exception, without waiting. -/
structure SendRefused (c : Call α) (tr : CallTrace ν κ α) (t : Entry ν κ α) : Prop where
  events : t.events = []
  mq : ∀ p ∈ tr, p.2 = .tick → ∀ u, p.1.step c p.2 = some u → u.mq = p.1.mq
  throws : t.todo = [] → t.thrown = some .closedQueue
  ready : t.todo ≠ [] → ∃ u, t.step c .tick = some u

/-- A call for messages is refused: nothing was taken, and the call ends with an exception. -/
structure TakeRefused (t : Entry ν κ α) : Prop where
  events : ∀ msg fate, .removed msg fate ∉ t.events
  throws : t.todo = [] → t.thrown = some .closedQueue

/-- The call visited the queue while it was closed. -/
def VisitsClosed (tr : CallTrace ν κ α) : Prop :=
  ∃ p ∈ tr, p.2 = .tick ∧ p.1.todo.head? = some .visit ∧ p.1.mq.queue.isDestroyed = true

/-- The call called callbacks. -/
def CallsBack (tr : CallTrace ν κ α) : Prop :=
  ∃ p ∈ tr, p.2 = .tick ∧ p.1.todo.head? = some .callCallbacks ∧ p.1.callbacks ≠ []

/-- **What holds of the calls to a closed queue.** A send that begins on a closed queue is refused,
and so is a call for messages if the queue is closed before or while it waits. -/
structure Agrees (c : Call α) (mq : MessageQueue ν α) (tr : CallTrace ν κ α) (t : Entry ν κ α) :
    Prop where
  send : c.sends → mq.queue.isDestroyed = true → SendRefused c tr t
  take : c.gets → mq.queue.isDestroyed = true ∨ VisitsClosed tr → TakeRefused t

/-! ### One step -/

section Step

variable {c : Call α} {s t u : Entry ν κ α}

theorem Entry.closed_of_step {a : Action ν κ α} (h : s.step c a = some t)
    (hs : s.mq.queue.isDestroyed = true) : t.mq.queue.isDestroyed = true := by
  cases a with
  | tick =>
    simp only [Entry.step, Entry.tick] at h
    split at h
    · cases h
    · rw [if_pos hs] at h
      cases h
      exact hs
    · cases h
      exact hs
    · obtain ⟨phase, -, rfl⟩ := Option.map_eq_some_iff.1 h
      have hvisit := (c.op.visit_effect s.mq.queue phase).destructed hs
      simp only [Entry.visited]
      split <;> exact hvisit
    · cases h
      exact hs
    · split_ifs at h <;> (cases h; exact hs)
    · split_ifs at h <;> (cases h; exact hs)
    · split_ifs at h <;> (cases h; exact hs)
  | wake timedOut =>
    simp only [Entry.step] at h
    split at h
    · split_ifs at h
      cases h
      exact hs
    · cases h
  | other op phase =>
    cases h
    exact (op.visit_effect s.mq.queue phase).destructed hs
  | callbacks callbacks =>
    cases h
    exact hs
  | notifiers notifiers =>
    cases h
    exact hs

theorem Entry.same_of_step {a : Action ν κ α} (h : s.step c a = some t) (ha : a ≠ .tick) :
    t.todo = s.todo ∧ t.ret = s.ret ∧ t.thrown = s.thrown ∧ t.events = s.events ∧
      (t.phase = s.phase ∨ s.phase = none ∧ ∃ timedOut, t.phase = some (.resume timedOut)) := by
  cases a with
  | tick => exact absurd rfl ha
  | wake timedOut =>
    simp only [Entry.step] at h
    split at h
    · next hphase =>
      split_ifs at h
      cases h
      exact ⟨rfl, rfl, rfl, rfl, .inr ⟨hphase, timedOut, rfl⟩⟩
    · cases h
  | other op phase =>
    cases h
    exact ⟨rfl, rfl, rfl, rfl, .inl rfl⟩
  | callbacks callbacks =>
    cases h
    exact ⟨rfl, rfl, rfl, rfl, .inl rfl⟩
  | notifiers notifiers =>
    cases h
    exact ⟨rfl, rfl, rfl, rfl, .inl rfl⟩

/-- **A call for messages leaves a closed queue** with nothing. -/
theorem Call.visit_closed (hc : c.gets = true) {q : LockingQueue α} (hq : q.isDestroyed = true)
    (phase : Phase) : c.op.visit q phase = q.giveUp false := by
  cases c with
  | get => exact (LockingQueue.awaitElement_of_destructed hq LockingQueue.popFront false).1
  | getFor =>
    exact (LockingQueue.awaitElement_of_destructed hq LockingQueue.popFront phase.timedOut).2
  | getAll => exact (LockingQueue.awaitElement_of_destructed hq LockingQueue.drain false).1
  | getAllFor =>
    exact (LockingQueue.awaitElement_of_destructed hq LockingQueue.drain phase.timedOut).2
  | _ => cases hc

/-- A visit of it that removes nothing and does not sleep has failed. -/
theorem Call.visit_cases (hc : c.gets = true) (q : LockingQueue α) (phase : Phase) :
    (c.op.visit q phase).pushed = [] ∧
      ((c.op.visit q phase).removed = [] ∧ (c.op.visit q phase).exit = .wait ∨
        (c.op.visit q phase).removed = [] ∧
          (∃ notify, (c.op.visit q phase).exit = .leave false notify) ∨
        ∃ notify, (c.op.visit q phase).exit = .leave true notify) := by
  have hpush : c.op.pushData = none := by
    cases c <;> simp_all [Call.gets, Call.op, LockingQueue.Op.pushData]
  have hsignal : c.op.signal ≠ none := by
    cases c <;> simp_all [Call.gets, Call.op, LockingQueue.Op.signal]
  have heffect := c.op.visit_effect q phase
  generalize c.op.visit q phase = v at heffect
  generalize c.op = op at hpush hsignal heffect
  cases heffect with
  | sleep calls hop hpred => exact ⟨rfl, .inl ⟨rfl, rfl⟩⟩
  | giveUp ret calls hret =>
    cases ret with
    | false => exact ⟨rfl, .inr (.inl ⟨rfl, [], rfl⟩)⟩
    | true => exact ⟨rfl, .inr (.inr ⟨[], rfl⟩)⟩
  | clear hop hmax => cases hpush.symm.trans hop
  | append calls hop => cases hpush.symm.trans hop
  | take hop hqueue htaken => exact ⟨rfl, .inr (.inr ⟨_, rfl⟩)⟩
  | setMaxSize | setBlocking | destruct => exact absurd rfl hsignal

end Step

/-! ### Runs of a send -/

section Sends

variable {c : Call α} {mq : MessageQueue ν α} {callbacks : List (ℕ × κ)} {s t u : Entry ν κ α}
  {tr : CallTrace ν κ α} {a : Action ν κ α}

theorem callsBack_concat : CallsBack (tr ++ [(s, a)]) ↔
    CallsBack tr ∨ a = .tick ∧ s.todo.head? = some .callCallbacks ∧ s.callbacks ≠ [] := by
  simp [CallsBack, or_and_right, exists_or]

theorem visitsClosed_concat : VisitsClosed (tr ++ [(s, a)]) ↔
    VisitsClosed tr ∨
      a = .tick ∧ s.todo.head? = some .visit ∧ s.mq.queue.isDestroyed = true := by
  simp [VisitsClosed, or_and_right, exists_or]

/-- What has happened in a send that began on a closed queue. Only the timed `send` can be at its
second section. -/
structure SendSoFar (c : Call α) (tr : CallTrace ν κ α) (t : Entry ν κ α) : Prop where
  closed : t.mq.queue.isDestroyed = true
  phase : t.phase = some .enter
  events : t.events = [] ↔ ¬CallsBack tr
  mq : ∀ p ∈ tr, p.2 = .tick → ∀ u, p.1.step c p.2 = some u → u.mq = p.1.mq
  stage : (t.todo = c.program ∧ ¬CallsBack tr) ∨
    (∃ msg, c = .sendFor msg) ∧ t.todo = [.checkOpen, .visit, .notifyIfTrue] ∨
    t.todo = [] ∧ t.thrown = some .closedQueue ∧ ((∀ msg, c ≠ .sendFor msg) → ¬CallsBack tr)

theorem SendSoFar.checkOpen {rest : List Instr} (h : SendSoFar c tr s)
    (htodo : s.todo = .checkOpen :: rest) (hcalls : (∀ msg, c ≠ .sendFor msg) → ¬CallsBack tr)
    (hstep : s.step c .tick = some t) : SendSoFar c (tr ++ [(s, .tick)]) t := by
  have hthrow : t = s.throw := by
    simp only [Entry.step, Entry.tick, htodo, h.closed, if_true] at hstep
    exact (Option.some.inj hstep).symm
  have hsame : CallsBack (tr ++ [(s, .tick)]) ↔ CallsBack tr := by
    rw [callsBack_concat, htodo]
    simp
  subst hthrow
  refine ⟨h.closed, h.phase, by rw [hsame]; exact h.events, ?_,
    .inr (.inr ⟨rfl, rfl, by rwa [hsame]⟩)⟩
  intro p hp hp' u hu
  rcases List.mem_append.1 hp with hp | hp
  · exact h.mq p hp hp' u hu
  · obtain rfl := List.mem_singleton.1 hp
    rw [hstep] at hu
    rw [← Option.some.inj hu]
    rfl

theorem SendSoFar.step (hc : c.sends = true) (h : SendSoFar c tr s)
    (hstep : s.step c a = some t) : SendSoFar c (tr ++ [(s, a)]) t := by
  by_cases ha : a = .tick
  · subst ha
    rcases h.stage with ⟨htodo, hcalls⟩ | ⟨⟨msg, rfl⟩, htodo⟩ | ⟨htodo, -, -⟩
    · cases c with
      | send msg => exact h.checkOpen htodo (fun _ => hcalls) hstep
      | trySend msg => exact h.checkOpen htodo (fun _ => hcalls) hstep
      | sendFor msg =>
        have hcall : t = { s with
            todo := [.checkOpen, .visit, .notifyIfTrue]
            events := s.events ++ s.callbacks.map fun p => .called p.2 } := by
          simp only [Entry.step, Entry.tick, htodo, Call.program] at hstep
          exact (Option.some.inj hstep).symm
        subst hcall
        refine ⟨h.closed, h.phase, ?_, ?_, .inr (.inl ⟨⟨msg, rfl⟩, rfl⟩)⟩
        · rw [callsBack_concat, htodo]
          simp [h.events, Call.program]
        · intro p hp hp' u hu
          rcases List.mem_append.1 hp with hp | hp
          · exact h.mq p hp hp' u hu
          · obtain rfl := List.mem_singleton.1 hp
            rw [hstep] at hu
            rw [← Option.some.inj hu]
      | _ => cases hc
    · exact h.checkOpen htodo (fun hne => absurd rfl (hne msg)) hstep
    · simp [Entry.step, Entry.tick, htodo] at hstep
  · obtain ⟨htodo, -, hthrown, hevents, hphase⟩ := Entry.same_of_step hstep ha
    have hsame : CallsBack (tr ++ [(s, a)]) ↔ CallsBack tr := by
      rw [callsBack_concat]
      simp [ha]
    refine ⟨Entry.closed_of_step hstep h.closed, ?_, by rw [hevents, hsame]; exact h.events, ?_,
      by rw [htodo, hthrown, hsame]; exact h.stage⟩
    · rcases hphase with hphase | ⟨hphase, -⟩
      · exact hphase.trans h.phase
      · exact nomatch hphase.symm.trans h.phase
    · intro p hp hp'
      rcases List.mem_append.1 hp with hp | hp
      · exact h.mq p hp hp'
      · obtain rfl := List.mem_singleton.1 hp
        exact absurd hp' ha

theorem sendSoFar_of_run (hc : c.sends = true) (hmq : mq.queue.isDestroyed = true)
    (h : Run (Entry.step c) (Entry.start c mq callbacks) tr t) : SendSoFar c tr t := by
  induction h with
  | nil =>
    have hnone : ¬CallsBack ([] : CallTrace ν κ α) := fun h => by simp [CallsBack] at h
    refine ⟨hmq, rfl, iff_of_true rfl hnone, ?_, .inl ⟨rfl, hnone⟩⟩
    exact fun _ hp => absurd hp List.not_mem_nil
  | snoc hrun hstep ih => exact ih.step hc hstep

/-- **A send that begins on a closed queue is refused** unless it is a timed one and calls
callbacks. -/
theorem sendRefused_iff (hc : c.sends = true) (hmq : mq.queue.isDestroyed = true)
    (h : Run (Entry.step c) (Entry.start c mq callbacks) tr t) :
    SendRefused c tr t ↔ ∀ msg, c = .sendFor msg → ¬CallsBack tr := by
  have hsofar := sendSoFar_of_run hc hmq h
  have hcalls : (∀ msg, c = .sendFor msg → ¬CallsBack tr) ↔ ¬CallsBack tr := by
    refine ⟨fun hall => ?_, fun hnot _ _ => hnot⟩
    rcases hsofar.stage with ⟨-, hnot⟩ | ⟨⟨msg, rfl⟩, -⟩ | ⟨-, -, hnot⟩
    · exact hnot
    · exact hall msg rfl
    · by_cases hc' : ∃ msg, c = .sendFor msg
      · obtain ⟨msg, rfl⟩ := hc'
        exact hall msg rfl
      · exact hnot fun msg heq => hc' ⟨msg, heq⟩
  rw [hcalls]
  refine ⟨fun h => hsofar.events.1 h.events, fun hnot => ⟨hsofar.events.2 hnot, hsofar.mq, ?_, ?_⟩⟩
  · intro htodo
    rcases hsofar.stage with ⟨hprogram, -⟩ | ⟨-, hprogram⟩ | ⟨-, hthrown, -⟩
    · rw [htodo] at hprogram
      cases c <;> cases hprogram
    · simp [htodo] at hprogram
    · exact hthrown
  · intro htodo
    rcases hsofar.stage with ⟨hprogram, -⟩ | ⟨-, hprogram⟩ | ⟨hnil, -, -⟩
    · cases c with
      | send | sendFor | trySend => exact ⟨_, by simp only [Entry.step, Entry.tick, hprogram]; rfl⟩
      | _ => cases hc
    · exact ⟨_, by simp only [Entry.step, Entry.tick, hprogram]; rfl⟩
    · exact absurd hnil htodo

end Sends

/-! ### Runs of a call for messages -/

section Takes

variable {c : Call α} {mq : MessageQueue ν α} {callbacks : List (ℕ × κ)} {s t u : Entry ν κ α}
  {tr : CallTrace ν κ α} {a : Action ν κ α} {closed visits : Prop}

/-- The sections behind the visit. -/
def Call.rest : Call α → List Instr
  | .get | .getAll => [.throwIfFalse]
  | .getFor => [.recheck]
  | _ => []

/-- Where a call for messages is, if `closed` says that it began on a closed queue and `visits` that
it visited a closed queue. -/
inductive TakeStage (c : Call α) (closed visits : Prop) (t : Entry ν κ α) : Prop
  | testing (htodo : t.todo = .checkOpen :: .visit :: c.rest) (hthrown : t.thrown = none)
      (hevents : t.events = []) (hvisits : ¬visits)
  | waiting (htodo : t.todo = .visit :: c.rest) (hthrown : t.thrown = none)
      (hevents : t.events = []) (hvisits : ¬visits)
      (hclosed : closed → c.program = .visit :: c.rest)
  | failed (htodo : t.todo = c.rest) (hthrown : t.thrown = none) (hevents : t.events = [])
      (hret : t.ret = false) (hvisits : closed → visits)
  | took (htodo : t.todo = c.rest) (hthrown : t.thrown = none) (hret : t.ret = true)
      (hvisits : ¬visits) (hclosed : ¬closed)
  | refused (htodo : t.todo = []) (hthrown : t.thrown = some .closedQueue)
      (hevents : t.events = []) (hvisits : c.rest = [] → ¬visits)
  | finished (htodo : t.todo = []) (hthrown : t.thrown = none) (hrest : c.rest ≠ [])
      (hvisits : ¬visits) (hclosed : ¬closed)

theorem TakeStage.congr {visits' : Prop} (h : TakeStage c closed visits s)
    (htodo : t.todo = s.todo) (hret : t.ret = s.ret) (hthrown : t.thrown = s.thrown)
    (hevents : t.events = s.events) (hvisits : visits' ↔ visits) :
    TakeStage c closed visits' t := by
  rw [propext hvisits]
  cases h with
  | testing h₁ h₂ h₃ h₄ => exact .testing (htodo.trans h₁) (hthrown.trans h₂) (hevents.trans h₃) h₄
  | waiting h₁ h₂ h₃ h₄ h₅ =>
    exact .waiting (htodo.trans h₁) (hthrown.trans h₂) (hevents.trans h₃) h₄ h₅
  | failed h₁ h₂ h₃ h₄ h₅ =>
    exact .failed (htodo.trans h₁) (hthrown.trans h₂) (hevents.trans h₃) (hret.trans h₄) h₅
  | took h₁ h₂ h₃ h₄ h₅ => exact .took (htodo.trans h₁) (hthrown.trans h₂) (hret.trans h₃) h₄ h₅
  | refused h₁ h₂ h₃ h₄ =>
    exact .refused (htodo.trans h₁) (hthrown.trans h₂) (hevents.trans h₃) h₄
  | finished h₁ h₂ h₃ h₄ h₅ => exact .finished (htodo.trans h₁) (hthrown.trans h₂) h₃ h₄ h₅

theorem TakeStage.visit (hc : c.gets = true)
    (hclosed : closed ∨ VisitsClosed tr → s.mq.queue.isDestroyed = true)
    (htodo : s.todo = .visit :: c.rest) (hthrown : s.thrown = none) (hevents : s.events = [])
    (hvisits : ¬VisitsClosed tr) (hprogram : closed → c.program = .visit :: c.rest)
    (hstep : s.step c .tick = some t) :
    TakeStage c closed (VisitsClosed (tr ++ [(s, .tick)])) t := by
  simp only [Entry.step, Entry.tick, htodo] at hstep
  obtain ⟨phase, -, rfl⟩ := Option.map_eq_some_iff.1 hstep
  have hnow : VisitsClosed (tr ++ [(s, .tick)]) ↔ s.mq.queue.isDestroyed = true := by
    rw [visitsClosed_concat, htodo]
    simp [hvisits]
  rw [propext hnow]
  cases hdestroyed : s.mq.queue.isDestroyed with
  | true =>
    rw [Call.visit_closed hc hdestroyed]
    exact .failed rfl hthrown (by simp [Entry.visited, LockingQueue.giveUp, hevents]) rfl
      fun _ => rfl
  | false =>
    have hopen : ¬closed := fun h => by
      rw [hclosed (.inl h)] at hdestroyed
      cases hdestroyed
    obtain ⟨hpushed, ⟨hremoved, hexit⟩ | ⟨hremoved, notify, hexit⟩ | ⟨notify, hexit⟩⟩ :=
      Call.visit_cases hc s.mq.queue phase
    · refine .waiting ?_ ?_ ?_ Bool.false_ne_true hprogram <;>
        simp [Entry.visited, hexit, hpushed, hremoved, htodo, hthrown, hevents]
    · refine .failed ?_ ?_ ?_ ?_ fun h => absurd h hopen <;>
        simp [Entry.visited, hexit, hpushed, hremoved, hthrown, hevents]
    · refine .took ?_ ?_ ?_ Bool.false_ne_true hopen <;>
        simp [Entry.visited, hexit, hthrown]

/-- **One step of a call for messages**, or of others. -/
theorem TakeStage.step (hc : c.gets = true)
    (hclosed : closed ∨ VisitsClosed tr → s.mq.queue.isDestroyed = true)
    (h : TakeStage c closed (VisitsClosed tr) s) (hstep : s.step c a = some t) :
    TakeStage c closed (VisitsClosed (tr ++ [(s, a)])) t := by
  by_cases ha : a = .tick
  swap
  · obtain ⟨htodo, hret, hthrown, hevents, -⟩ := Entry.same_of_step hstep ha
    exact h.congr htodo hret hthrown hevents (by rw [visitsClosed_concat]; simp [ha])
  subst ha
  -- Only the visit may add to the visits of a closed queue.
  have hsame (hhead : s.todo.head? ≠ some .visit) :
      VisitsClosed (tr ++ [(s, .tick)]) ↔ VisitsClosed tr := by
    rw [visitsClosed_concat]
    simp [hhead]
  cases h with
  | testing htodo hthrown hevents hvisits =>
    rw [propext (hsame (by simp [htodo]))]
    simp only [Entry.step, Entry.tick, htodo] at hstep
    split_ifs at hstep with hdestroyed
    · cases hstep
      exact .refused rfl rfl hevents fun _ => hvisits
    · cases hstep
      exact .waiting rfl hthrown hevents hvisits fun h => absurd (hclosed (.inl h)) hdestroyed
  | waiting htodo hthrown hevents hvisits hprogram =>
    exact .visit hc hclosed htodo hthrown hevents hvisits hprogram hstep
  | failed htodo hthrown hevents hret hvisits =>
    cases c with
    | get | getAll =>
      rw [propext (hsame (by simp [htodo, Call.rest]))]
      simp only [Entry.step, Entry.tick, htodo, Call.rest, hret] at hstep
      cases hstep
      exact .refused rfl rfl hevents nofun
    | getFor =>
      rw [propext (hsame (by simp [htodo, Call.rest]))]
      simp only [Entry.step, Entry.tick, htodo, Call.rest, hret, Bool.not_false,
        Bool.true_and] at hstep
      split_ifs at hstep with hdestroyed
      · cases hstep
        exact .refused rfl rfl hevents nofun
      · cases hstep
        exact .finished rfl hthrown nofun (fun h => hdestroyed (hclosed (.inr h)))
          fun h => hdestroyed (hclosed (.inl h))
    | getAllFor => simp [Entry.step, Entry.tick, htodo, Call.rest] at hstep
    | _ => cases hc
  | took htodo hthrown hret hvisits hopen =>
    cases c with
    | get | getAll =>
      rw [propext (hsame (by simp [htodo, Call.rest]))]
      simp only [Entry.step, Entry.tick, htodo, Call.rest, hret] at hstep
      cases hstep
      exact .finished rfl hthrown nofun hvisits hopen
    | getFor =>
      rw [propext (hsame (by simp [htodo, Call.rest]))]
      simp only [Entry.step, Entry.tick, htodo, Call.rest, hret] at hstep
      cases hstep
      exact .finished rfl hthrown nofun hvisits hopen
    | getAllFor => simp [Entry.step, Entry.tick, htodo, Call.rest] at hstep
    | _ => cases hc
  | refused htodo => simp [Entry.step, Entry.tick, htodo] at hstep
  | finished htodo => simp [Entry.step, Entry.tick, htodo] at hstep

theorem closed_of_run (h : Run (Entry.step c) (Entry.start c mq callbacks) tr t)
    (hclosed : mq.queue.isDestroyed = true ∨ VisitsClosed tr) : t.mq.queue.isDestroyed = true := by
  induction h with
  | nil =>
    rcases hclosed with hmq | ⟨p, hp, -⟩
    · exact hmq
    · cases hp
  | snoc _ hstep ih =>
    rw [visitsClosed_concat, ← or_assoc] at hclosed
    rcases hclosed with hbefore | ⟨-, -, hnow⟩
    · exact Entry.closed_of_step hstep (ih hbefore)
    · exact Entry.closed_of_step hstep hnow

theorem takeStage_of_run (hc : c.gets = true)
    (h : Run (Entry.step c) (Entry.start c mq callbacks) tr t) :
    TakeStage c (mq.queue.isDestroyed = true) (VisitsClosed tr) t := by
  induction h with
  | nil =>
    have hnone : ¬VisitsClosed ([] : CallTrace ν κ α) := fun ⟨_, hp, _⟩ => nomatch hp
    cases c with
    | get | getAll => exact .waiting rfl rfl rfl hnone fun _ => rfl
    | getFor | getAllFor => exact .testing rfl rfl rfl hnone
    | _ => cases hc
  | snoc hrun hstep ih => exact ih.step hc (closed_of_run hrun) hstep

/-- **A call for messages that meets a closed queue is refused** unless it is a timed `getAll` and
meets it in the function of the `LockingQueue`. -/
theorem takeRefused_iff (hc : c.gets = true)
    (h : Run (Entry.step c) (Entry.start c mq callbacks) tr t)
    (hclosed : mq.queue.isDestroyed = true ∨ VisitsClosed tr) :
    TakeRefused t ↔ (c = .getAllFor → ¬VisitsClosed tr) := by
  have hrest : c = .getAllFor ↔ c.rest = [] := by
    cases c <;> simp_all [Call.rest, Call.gets]
  cases takeStage_of_run hc h with
  | testing htodo hthrown hevents hvisits =>
    exact iff_of_true ⟨by simp [hevents], by simp [htodo]⟩ fun _ => hvisits
  | waiting htodo hthrown hevents hvisits hprogram =>
    exact iff_of_true ⟨by simp [hevents], by simp [htodo]⟩ fun _ => hvisits
  | failed htodo hthrown hevents hret hvisits =>
    have hvisited : VisitsClosed tr := hclosed.elim hvisits id
    constructor
    · rintro hrefused rfl
      exact nomatch hthrown.symm.trans (hrefused.throws htodo)
    · refine fun hnot => ⟨by simp [hevents], fun hnil => ?_⟩
      exact absurd hvisited (hnot (hrest.2 (htodo.symm.trans hnil)))
  | took htodo hthrown hret hvisits hopen => exact absurd hclosed (not_or.2 ⟨hopen, hvisits⟩)
  | refused htodo hthrown hevents hvisits =>
    exact iff_of_true ⟨by simp [hevents], fun _ => hthrown⟩ fun h => hvisits (hrest.1 h)
  | finished htodo hthrown hrest hvisits hopen => exact absurd hclosed (not_or.2 ⟨hopen, hvisits⟩)

end Takes

/-! ### The entry points -/

/-- **Which calls keep to it**: a timed `send` that begins on a closed queue if it calls no
callback, a timed `getAll` if it does not find the queue closed after its test, and every other
call. -/
theorem agrees_iff {c : Call α} {mq : MessageQueue ν α} {callbacks : List (ℕ × κ)}
    {tr : CallTrace ν κ α} {t : Entry ν κ α}
    (h : Run (Entry.step c) (Entry.start c mq callbacks) tr t) :
    Agrees c mq tr t ↔
      (∀ msg, c = .sendFor msg → mq.queue.isDestroyed = true → ¬CallsBack tr) ∧
        (c = .getAllFor → ¬VisitsClosed tr) := by
  constructor
  · refine fun hagrees => ⟨?_, ?_⟩
    · rintro msg rfl hmq
      exact (sendRefused_iff rfl hmq h).1 (hagrees.send rfl hmq) msg rfl
    · rintro rfl hvisits
      exact (takeRefused_iff rfl h (.inr hvisits)).1 (hagrees.take rfl (.inr hvisits)) rfl hvisits
  · rintro ⟨hsend, htake⟩
    refine ⟨fun hc hmq => ?_, fun hc hclosed => ?_⟩
    · exact (sendRefused_iff hc hmq h).2 fun msg heq => hsend msg heq hmq
    · exact (takeRefused_iff hc h hclosed).2 htake

/-- A queue of capacity two with one message. -/
def oneMessage (destructed : Bool) : MessageQueue ℕ ℕ :=
  { queue := { maxSize := 2, queue := [7], destructed }, notifiers := [(0, 3)] }

/-- A `send` to the closed queue, with a callback. -/
theorem agrees_iff_send :
    let run := exec (Entry.step (Call.send 8)) (Entry.start (.send 8) (oneMessage true) [(0, 5)])
      [.tick, .callbacks []]
    Agrees (.send 8) (oneMessage true) (run.get rfl).1 (run.get rfl).2 ↔
      (∀ msg, Call.send 8 = .sendFor msg → (oneMessage true).queue.isDestroyed = true →
          ¬CallsBack (run.get rfl).1) ∧
        (Call.send 8 = .getAllFor → ¬VisitsClosed (run.get rfl).1) :=
  agrees_iff (Run.of_isSome rfl)

/-- **A timed `send` to a closed queue calls the callbacks.** -/
theorem not_agrees : ¬∀ (c : Call ℕ) (mq : MessageQueue ℕ ℕ) (callbacks : List (ℕ × ℕ))
    (tr : CallTrace ℕ ℕ ℕ) (t : Entry ℕ ℕ ℕ),
    Run (Entry.step c) (Entry.start c mq callbacks) tr t → Agrees c mq tr t := by
  intro h
  have hrun : Run (Entry.step (Call.sendFor 8))
      (Entry.start (.sendFor 8) (oneMessage true) [(0, 5)]) _ _ :=
    .cons (a := .tick) rfl (.single (a := .tick) rfl)
  have hevents := ((h _ _ _ _ _ hrun).send rfl rfl).events
  exact absurd hevents (List.cons_ne_nil _ _)

end MessageQueue

end DepthaiCore
