import DepthaiCore.Lib.Runs
import DepthaiCore.Utility.LockingQueue

/-!
# Threads on a `LockingQueue`

Any number of threads, indexed by an arbitrary type, call the member functions of one queue. The
atomic steps are the visits to the critical section, the `notify_all` calls that follow an unlock,
and the wake-ups of sleeping threads. A wake-up may come from a notification, from the timeout of a
timed wait, or from nowhere; a woken thread has to take the mutex again, and evaluates its predicate
in the visit that does.

A `notify_all` under the mutex belongs to the visit that makes it. One after the unlock is a step of
its own, and until it is taken the thread has not returned.
-/

namespace DepthaiCore

namespace LockingQueue

variable {ι α : Type*}

/-- Where a thread is. -/
inductive Pc (α : Type*)
  /-- Outside every member function. -/
  | idle
  /-- Asleep on the condition variable of `op`. -/
  | parked (op : Op α)
  /-- Woken and about to take the mutex again; `timedOut` if the wait ran out of time. -/
  | woken (op : Op α) (timedOut : Bool)
  /-- Past the unlock, with the notifications still to be made and the result to return. -/
  | notifying (signals : List Signal) (ret : Bool)
  deriving DecidableEq

/-- What the `notify_all` of each condition variable in `cs` does to a thread. -/
def Pc.signalled (cs : List Signal) : Pc α → Pc α
  | .parked op => if ∃ c ∈ cs, op.signal = some c then .woken op false else .parked op
  | pc => pc

/-- A thread past the unlock returns as soon as it has no notification left to make. -/
def Pc.leaving (ret : Bool) : List Signal → Pc α
  | [] => .idle
  | c :: cs => .notifying (c :: cs) ret

/-- Where a thread is after a visit that ends with `exit`. -/
def Pc.after (op : Op α) : Exit → Pc α
  | .wait => .parked op
  | .leave ret notify => .leaving ret notify

/-- One `LockingQueue` and its threads. -/
structure Threads (ι α : Type*) where
  /-- The members of the queue. -/
  shared : LockingQueue α
  /-- The position of every thread. -/
  pc : ι → Pc α

/-- The atomic steps. -/
inductive Action (ι α : Type*)
  /-- Thread `i` calls `op` and visits the critical section for the first time. -/
  | call (i : ι) (op : Op α)
  /-- Thread `i` wakes up without a notification. -/
  | wake (i : ι) (timedOut : Bool)
  /-- Thread `i` takes the mutex again and evaluates its predicate. -/
  | resume (i : ι)
  /-- Thread `i` makes the first of its outstanding notifications. -/
  | notify (i : ι)
  deriving DecidableEq

namespace Threads

/-- A queue no thread has touched. -/
structure Initial (s : Threads ι α) : Prop where
  queue : s.shared.queue = []
  pc : ∀ i, s.pc i = .idle

/-- The thread, operation and phase of the visit that an action makes. -/
def visiting (s : Threads ι α) : Action ι α → Option (ι × Op α × Phase)
  | .call i op =>
    match s.pc i with
    | .idle => some (i, op, .enter)
    | _ => none
  | .resume i =>
    match s.pc i with
    | .woken op timedOut => some (i, op, .resume timedOut)
    | _ => none
  | _ => none

/-- A trace: the steps of a run, each with the state it was taken in. -/
abbrev Trace (ι α : Type*) := List (Threads ι α × Action ι α)

/-- The visit a step makes, if it is one, and its operation. -/
def visitOf (p : Threads ι α × Action ι α) : Option (Op α × Visit α) :=
  (p.1.visiting p.2).map fun x => (x.2.1, x.2.1.visit p.1.shared x.2.2)

/-- A thread that visits was outside every function, or woken inside this one. -/
theorem pc_of_visiting {s : Threads ι α} {a : Action ι α} {i : ι} {op : Op α} {phase : Phase}
    (h : s.visiting a = some (i, op, phase)) :
    (s.pc i = .idle ∧ phase = .enter) ∨
      ∃ timedOut, s.pc i = .woken op timedOut ∧ phase = .resume timedOut := by
  unfold visiting at h
  split at h
  case h_1 j op' =>
    split at h
    case h_1 hpc => cases h; exact .inl ⟨hpc, rfl⟩
    case h_2 => cases h
  case h_2 j =>
    split at h
    case h_1 op' timedOut hpc => cases h; exact .inr ⟨timedOut, hpc, rfl⟩
    case h_2 => cases h
  case h_3 => cases h

variable [DecidableEq ι]

/-- The state after thread `i` has made visit `v` of operation `op`. -/
def visited (s : Threads ι α) (i : ι) (op : Op α) (v : Visit α) : Threads ι α where
  shared := v.shared
  pc := Function.update (fun j => (s.pc j).signalled v.notified) i (.after op v.exit)

/-- The state after thread `i`, asleep in `op`, has woken up. -/
def woke (s : Threads ι α) (i : ι) (op : Op α) (timedOut : Bool) : Threads ι α where
  shared := s.shared
  pc := Function.update s.pc i (.woken op timedOut)

/-- The state after thread `i` has notified `c`, with `cs` still to be notified. -/
def signalled (s : Threads ι α) (i : ι) (c : Signal) (cs : List Signal) (ret : Bool) :
    Threads ι α where
  shared := s.shared
  pc := Function.update (fun j => (s.pc j).signalled [c]) i (.leaving ret cs)

section Fields

variable {s : Threads ι α} {i j : ι} {op : Op α} {v : Visit α} {timedOut ret : Bool} {c : Signal}
  {cs : List Signal}

@[simp] theorem visited_shared : (s.visited i op v).shared = v.shared := rfl

@[simp] theorem visited_pc_self : (s.visited i op v).pc i = .after op v.exit := by
  simp [visited]

theorem visited_pc_of_ne (h : j ≠ i) : (s.visited i op v).pc j = (s.pc j).signalled v.notified := by
  simp [visited, h]

@[simp] theorem woke_shared : (s.woke i op timedOut).shared = s.shared := rfl

@[simp] theorem woke_pc_self : (s.woke i op timedOut).pc i = .woken op timedOut := by
  simp [woke]

theorem woke_pc_of_ne (h : j ≠ i) : (s.woke i op timedOut).pc j = s.pc j := by
  simp [woke, h]

@[simp] theorem signalled_shared : (s.signalled i c cs ret).shared = s.shared := rfl

@[simp] theorem signalled_pc_self : (s.signalled i c cs ret).pc i = .leaving ret cs := by
  simp [signalled]

theorem signalled_pc_of_ne (h : j ≠ i) :
    (s.signalled i c cs ret).pc j = (s.pc j).signalled [c] := by
  simp [signalled, h]

end Fields

/-- One atomic step. -/
def step (s : Threads ι α) (a : Action ι α) : Option (Threads ι α) :=
  match s.visiting a with
  | some (i, op, phase) => some (s.visited i op (op.visit s.shared phase))
  | none =>
    match a with
    | .wake i timedOut =>
      match s.pc i with
      | .parked op =>
        if timedOut && !op.timed then none
        else some (s.woke i op timedOut)
      | _ => none
    | .notify i =>
      match s.pc i with
      | .notifying (c :: cs) ret => some (s.signalled i c cs ret)
      | _ => none
    | _ => none

/-- **The case analysis of a step.** A step is a visit by a thread that was outside or woken, a
spontaneous wake-up of a sleeping thread, or an outstanding notification. -/
theorem step_cases {s t : Threads ι α} {a : Action ι α} (h : s.step a = some t) :
    (∃ i op phase, s.visiting a = some (i, op, phase) ∧
        t = s.visited i op (op.visit s.shared phase)) ∨
      (∃ i op timedOut, s.visiting a = none ∧ s.pc i = .parked op ∧ t = s.woke i op timedOut) ∨
      ∃ i c cs ret, s.visiting a = none ∧ s.pc i = .notifying (c :: cs) ret ∧
        t = s.signalled i c cs ret := by
  unfold step at h
  split at h
  case h_1 i op phase hv => exact .inl ⟨i, op, phase, hv, (Option.some.inj h).symm⟩
  case h_2 hv =>
    right
    split at h
    case h_1 i timedOut =>
      split at h
      case h_1 op hpc =>
        split at h
        · cases h
        · exact .inl ⟨i, op, timedOut, hv, hpc, (Option.some.inj h).symm⟩
      case h_2 => cases h
    case h_2 i =>
      split at h
      case h_1 c cs ret hpc => exact .inr ⟨i, c, cs, ret, hv, hpc, (Option.some.inj h).symm⟩
      case h_2 => cases h
    case h_3 => cases h

theorem step_eq_of_visiting {s : Threads ι α} {a : Action ι α} {i : ι} {op : Op α} {phase : Phase}
    (h : s.visiting a = some (i, op, phase)) :
    s.step a = some (s.visited i op (op.visit s.shared phase)) := by
  unfold step
  rw [h]

end Threads

/-! ### Notified threads -/

theorem Pc.signalled_eq_parked_iff {cs : List Signal} {pc : Pc α} {op : Op α} :
    pc.signalled cs = .parked op ↔ pc = .parked op ∧ ∀ c ∈ cs, op.signal ≠ some c := by
  cases pc with
  | parked op' =>
    simp only [signalled]
    split_ifs with h
    · obtain ⟨c, hc, hop⟩ := h
      simp only [parked.injEq, false_iff, not_and, not_forall]
      rintro rfl
      exact ⟨c, hc, by simpa using hop⟩
    · simp only [parked.injEq, iff_self_and]
      rintro rfl c hc hop
      exact h ⟨c, hc, hop⟩
  | idle => simp [signalled]
  | woken => simp [signalled]
  | notifying => simp [signalled]

theorem Pc.signalled_eq_of_notifying {cs cs' : List Signal} {pc : Pc α} {ret : Bool}
    (h : pc = .notifying cs' ret) : pc.signalled cs = .notifying cs' ret := by
  rw [h, signalled]
  simp

theorem Pc.leaving_ne_parked {ret : Bool} {cs : List Signal} {op : Op α} :
    Pc.leaving ret cs ≠ .parked op := by
  cases cs <;> simp [leaving]

theorem Pc.leaving_eq_notifying {ret : Bool} {cs : List Signal} {c : Signal} (h : c ∈ cs) :
    (Pc.leaving ret cs : Pc α) = .notifying cs ret := by
  cases cs with
  | nil => cases h
  | cons c' cs => rfl

theorem Pc.after_eq_parked_iff {op op' : Op α} {exit : Exit} :
    Pc.after op exit = .parked op' ↔ op = op' ∧ exit = .wait := by
  cases exit with
  | wait => simp [after]
  | leave ret cs => simpa [after] using leaving_ne_parked

end LockingQueue

end DepthaiCore
