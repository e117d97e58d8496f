import DepthaiCore.Lib.Allowances
import DepthaiCore.Lib.Runs
import Mathlib.Data.Nat.Cast.Order.Ring

/-!
# The node `Gate`

The gate reads commands from one queue and data from another, in three loops: `sendMessages` without
a count, `sendMessages` with one, and `waitForCommand`, which blocks on the queue of the commands
alone. Senders append to the queues at any time. A queue that is full and does not block loses its
oldest message. The node may be stopped at any time, and its queues are closed after that.

A command taken by `waitForCommand` is the result of a cast: a message of another datatype becomes a
null pointer. `run` dereferences it. The two `sendMessages` skip such a message.

A command grants an allowance of messages, an automatic closure grants none, and a message forwarded
spends one unit.
-/

namespace DepthaiCore

open Transition

structure GateControl where
  /-- `open` -/
  isOpen : Bool := true
  numMessages : ℤ := -1
  fps : ℤ := -1
  deriving DecidableEq, Repr

namespace Gate

variable {α : Type*}

/-- A message, of the datatype `GateControl` or another. -/
inductive Message (α : Type*)
  | gateControl (command : GateControl)
  | other (msg : α)
  deriving DecidableEq, Repr

/-- `std::dynamic_pointer_cast<GateControl>` -/
def Message.asGateControl : Message α → Option GateControl
  | .gateControl command => some command
  | .other _ => none

/-- The queue of an input. -/
structure Queue (α : Type*) where
  messages : List (Message α) := []
  closed : Bool := false
  deriving DecidableEq, Repr

/-- `has`, for an open queue. -/
def Queue.has (q : Queue α) : Bool :=
  !q.closed && !q.messages.isEmpty

/-- One of the two functions `sendMessages`. -/
inductive Loop
  | continuous
  | counted (numMessages : ℤ) (sentMessages : ℕ)
  deriving DecidableEq, Repr

/-- The command made behind the loop that counts. -/
def closeCmd : GateControl where
  isOpen := false
  numMessages := -1
  fps := -1

/-- Where the thread of the node is. -/
inductive Pc
  /-- At the head of the loop of `run`. -/
  | command (currentCommand : Option GateControl)
  /-- At the head of the loop of `sendMessages`. -/
  | sending (loop : Loop)
  | waitingAny (loop : Loop)
  /-- In front of `inputControl.tryGet`. -/
  | readingControl (loop : Loop)
  /-- In front of `input.tryGet`. -/
  | readingInput (loop : Loop)
  | waitingForCommand
  | returned
  /-- Out of `run` with a `QueueException`. -/
  | threw
  | nullDereferenced
  deriving DecidableEq, Repr

/-- What happens at the node. -/
inductive Event (α : Type*)
  /-- A message arrives on `input`. -/
  | received (msg : Message α)
  /-- `input` loses its oldest message. -/
  | lost
  | took (command : GateControl)
  | autoClosed
  | forwarded (msg : Message α)
  deriving DecidableEq, Repr

end Gate

open Gate

/-- The node and its queues. -/
structure Gate (α : Type*) where
  inputControl : Gate.Queue α := {}
  input : Gate.Queue α := {}
  running : Bool := true
  pc : Pc
  log : List (Event α) := []
  deriving DecidableEq, Repr

namespace Gate

variable {α : Type*}

/-! ### The node -/

/-- The condition of the loop of `sendMessages`. -/
def Loop.goesOn (running : Bool) : Loop → Bool
  | .continuous => running
  | .counted numMessages sentMessages => (sentMessages : ℤ) < numMessages && running

/-- The loop after one more message. -/
def Loop.sent : Loop → Loop
  | .continuous => .continuous
  | .counted numMessages sentMessages => .counted numMessages (sentMessages + 1)

/-- The thread leaves the loop: with a null pointer, or with a command to close. -/
def leave (s : Gate α) : Loop → Gate α
  | .continuous => { s with pc := .command none }
  | .counted _ _ => { s with pc := .command (some closeCmd), log := s.log ++ [.autoClosed] }

/-- A queue is closed, and the thread ends. -/
def throw (s : Gate α) : Gate α := { s with pc := .threw, running := false }

/-- The thread goes back to `run` with what it has taken. -/
def take (s : Gate α) (messages : List (Message α)) (command : GateControl) : Gate α :=
  { s with
    inputControl.messages := messages
    pc := .command (some command)
    log := s.log ++ [.took command] }

/-- The next section of the thread, unless it is over or blocked. -/
def next (s : Gate α) : Option (Gate α) :=
  match s.pc with
  | .command currentCommand =>
    if s.running then
      match currentCommand with
      | none => some { s with pc := .nullDereferenced }
      | some command =>
        if command.isOpen then
          if 0 ≤ command.numMessages then
            some { s with pc := .sending (.counted command.numMessages 0) }
          else some { s with pc := .sending .continuous }
        else some { s with pc := .waitingForCommand }
    else some { s with pc := .returned }
  | .sending loop =>
    if loop.goesOn s.running then some { s with pc := .waitingAny loop } else some (s.leave loop)
  | .waitingAny loop =>
    if s.inputControl.has || s.input.has then some { s with pc := .readingControl loop }
    else if s.inputControl.closed && s.input.closed then some { s with pc := .sending loop }
    else none
  | .readingControl loop =>
    -- Only the loop that counts tests `mainLoop` once more.
    if loop ≠ .continuous ∧ s.running = false then some (s.leave loop)
    else if s.inputControl.closed then some s.throw
    else
      match s.inputControl.messages with
      | [] => some { s with pc := .readingInput loop }
      | msg :: messages =>
        match msg.asGateControl with
        | some command => some (s.take messages command)
        | none => some { s with inputControl.messages := messages, pc := .readingInput loop }
  | .readingInput loop =>
    if s.input.closed then some s.throw
    else
      match s.input.messages with
      | [] => some { s with pc := .sending loop }
      | msg :: messages =>
        some { s with
          input.messages := messages
          pc := .sending loop.sent
          log := s.log ++ [.forwarded msg] }
  | .waitingForCommand =>
    if s.inputControl.closed then some s.throw
    else
      match s.inputControl.messages with
      | [] => none
      | msg :: messages =>
        match msg.asGateControl with
        | some command => some (s.take messages command)
        | none => some { s with inputControl.messages := messages, pc := .command none }
  | .returned | .threw | .nullDereferenced => none

/-- The steps of the node and those of others. -/
inductive Action (α : Type*)
  | node
  | receive (msg : Message α)
  | lose
  | control (msg : Message α)
  | loseControl
  /-- `stop` sets `running` to false. -/
  | stop
  /-- `stop` closes a queue. -/
  | closeControl
  | closeInput

/-- One step. -/
def step (s : Gate α) : Action α → Option (Gate α)
  | .node => s.next
  | .receive msg =>
    some { s with
      input.messages := s.input.messages ++ [msg]
      log := s.log ++ [.received msg] }
  | .lose =>
    match s.input.messages with
    | [] => none
    | _ :: messages => some { s with input.messages := messages, log := s.log ++ [.lost] }
  | .control msg => some { s with inputControl.messages := s.inputControl.messages ++ [msg] }
  | .loseControl => some { s with inputControl.messages := s.inputControl.messages.tail }
  | .stop => some { s with running := false }
  | .closeControl => if s.running then none else some { s with inputControl.closed := true }
  | .closeInput => if s.running then none else some { s with input.closed := true }

/-- The node begins with its initial configuration for a command. -/
def start (initialConfig : GateControl) : Gate α where
  pc := .command (some initialConfig)
  log := [.took initialConfig]

/-- A run of the node among its senders. -/
abbrev Trace (α : Type*) := List (Gate α × Action α)

/-! ### What the gate promises -/

/-- The messages forwarded. -/
def forwards (log : List (Event α)) : List (Message α) :=
  log.filterMap fun
    | .forwarded msg => some msg
    | _ => none

/-- The messages received. -/
def receives (log : List (Event α)) : List (Message α) :=
  log.filterMap fun
    | .received msg => some msg
    | _ => none

/-- How many messages were lost. -/
def losses (log : List (Event α)) : ℕ :=
  log.countP fun
    | .lost => true
    | _ => false

/-- The gate closes. -/
def Event.closes : Event α → Bool
  | .took command => !command.isOpen
  | .autoClosed => true
  | _ => false

/-- The most steps that the thread can take before it is over or blocked, if nothing arrives. -/
def work (s : Gate α) : ℕ :=
  let waiting := s.inputControl.messages.length + s.input.messages.length
  match s.running, s.pc with
  | false, .command _ => 1
  | false, .sending _ => 2
  | false, .readingInput _ => 3
  | false, .readingControl _ => 4
  | false, .waitingAny _ => 5
  | false, .waitingForCommand => 2
  | true, .command (some command) => 8 * waiting + if command.isOpen then 6 else 1
  | true, .command none => 8 * waiting + 1
  | true, .sending _ => 8 * waiting + 5
  | true, .waitingAny _ => 8 * waiting + 4
  | true, .readingControl _ => 8 * waiting + if waiting = 0 then 7 else 3
  | true, .readingInput _ => 8 * waiting + if s.input.messages.length = 0 then 6 else 2
  | true, .waitingForCommand => 8 * waiting
  | _, _ => 0

/-- **What the gate promises.** -/
structure Obeys (s : Gate α) : Prop where
  /-- The messages forwarded are among those received, in order and without repetition. -/
  inOrder : (forwards s.log).Sublist (receives s.log)
  /-- From a closure on nothing is forwarded before a command to open. -/
  closed : ∀ pre e mid, s.log = pre ++ e :: mid → e.closes →
    (∀ command, .took command ∈ mid → command.isOpen = false) → forwards mid = []
  /-- At most as many messages as the command says are forwarded before the next command. -/
  atMost : ∀ pre command mid, s.log = pre ++ .took command :: mid → command.isOpen →
    0 ≤ command.numMessages → (∀ command', .took command' ∉ mid) →
      ((forwards mid).length : ℤ) ≤ command.numMessages
  /-- Without a next command and with that many messages to be had, exactly as many have been
  forwarded when the thread blocks, and then the gate is closed. -/
  exactly : ∀ pre command mid, s.log = pre ++ .took command :: mid → command.isOpen →
    0 ≤ command.numMessages → (∀ command', .took command' ∉ mid) → s.running → s.next = none →
      command.numMessages + (forwards pre).length + losses s.log ≤ ((receives s.log).length : ℤ) →
        ((forwards mid).length : ℤ) = command.numMessages ∧ s.pc = .waitingForCommand
  /-- The thread comes to block. -/
  settles : ∀ (tr : Trace α) t, Run step s tr t → (∀ p ∈ tr, p.2 = .node) → tr.length ≤ s.work
  notNull : s.pc ≠ .nullDereferenced

/-- Whenever `waitForCommand` takes a message, it is a `GateControl`. -/
def TakesCommands (tr : Trace α) : Prop :=
  ∀ p ∈ tr, p.2 = .node → p.1.pc = .waitingForCommand →
    ∀ msg, p.1.inputControl.messages.head? = some msg → msg.asGateControl ≠ none

/-! ### The allowance -/

/-- How many messages a command lets through. -/
def allowance (command : GateControl) : ℕ∞ :=
  if command.isOpen then
    if 0 ≤ command.numMessages then (command.numMessages.toNat : ℕ∞) else ⊤
  else 0

/-- What an event does to the allowance. -/
def effect : Event α → Allowance.Effect
  | .took command => .grant (allowance command)
  | .autoClosed => .grant 0
  | .forwarded _ => .spend
  | .received _ | .lost => .neutral

/-- How many messages a loop has yet to let through. -/
def Loop.left : Loop → ℕ∞
  | .continuous => ⊤
  | .counted numMessages sentMessages => (numMessages.toNat - sentMessages : ℕ)

theorem Loop.goesOn_iff {loop : Loop} {running : Bool} :
    loop.goesOn running = true ↔ 0 < loop.left ∧ running = true := by
  cases loop with
  | continuous => simp [Loop.goesOn, Loop.left]
  | counted numMessages sentMessages =>
    have hlt : (sentMessages : ℤ) < numMessages ↔ 0 < numMessages.toNat - sentMessages := by omega
    simp only [Loop.goesOn, Loop.left, Bool.and_eq_true, decide_eq_true_eq, Nat.cast_pos, hlt]

theorem Loop.left_sent (loop : Loop) : loop.sent.left = loop.left - 1 := by
  cases loop with
  | continuous => rfl
  | counted numMessages sentMessages =>
    simp only [Loop.sent, Loop.left, Nat.sub_add_eq]
    rfl

@[simp]
theorem forwards_append (log log' : List (Event α)) :
    forwards (log ++ log') = forwards log ++ forwards log' :=
  List.filterMap_append

theorem spent_eq (log : List (Event α)) :
    Allowance.spent effect log = (forwards log).length := by
  induction log using List.reverseRecOn with
  | nil => rfl
  | append_singleton log e ih =>
    rw [Allowance.spent_concat, forwards_append, List.length_append, ih]
    cases e <;> rfl

/-- What is left of the allowance at a place of the thread. -/
def Pc.Fits (left : ℕ∞) : Pc → Prop
  | .command (some currentCommand) => left = allowance currentCommand
  | .sending loop => left = loop.left
  | .waitingAny loop | .readingControl loop | .readingInput loop => left = loop.left ∧ 0 < left
  | .waitingForCommand => left = 0
  | .command none | .returned | .threw | .nullDereferenced => True

/-- The invariant of the node. -/
structure Sound (s : Gate α) : Prop where
  legal : Allowance.Legal effect s.log
  fits : s.pc.Fits (Allowance.left effect s.log)
  /-- While the node runs, it closes by itself only when nothing is left. -/
  autoClosed : s.running = true →
    Allowance.Everywhere (fun pre e => e = .autoClosed → Allowance.left effect pre = 0) s.log
  sublist : (forwards s.log ++ s.input.messages).Sublist (receives s.log)
  balance : (receives s.log).length =
    losses s.log + (forwards s.log).length + s.input.messages.length
  closed : s.inputControl.closed = true ∨ s.input.closed = true → s.running = false
  finished : s.pc = .returned ∨ s.pc = .threw → s.running = false

theorem sound_start (initialConfig : GateControl) : Sound (start initialConfig : Gate α) where
  legal := Allowance.everywhere_concat_iff.2 ⟨Allowance.everywhere_nil, nofun⟩
  fits := rfl
  autoClosed _ := Allowance.everywhere_concat_iff.2 ⟨Allowance.everywhere_nil, nofun⟩
  sublist := List.nil_sublist _
  balance := rfl
  closed := by simp [start]
  finished := by simp [start]

section Steps

variable {s t : Gate α}

theorem Sound.quiet (h : Sound s) (hlog : t.log = s.log)
    (hinput : t.input.messages = s.input.messages) (hrunning : t.running = true → s.running = true)
    (hfits : t.pc.Fits (Allowance.left effect s.log))
    (hclosed : t.inputControl.closed = true ∨ t.input.closed = true → t.running = false)
    (hfinished : t.pc = .returned ∨ t.pc = .threw → t.running = false) : Sound t where
  legal := hlog ▸ h.legal
  fits := hlog ▸ hfits
  autoClosed hrun := hlog ▸ h.autoClosed (hrunning hrun)
  sublist := by rw [hlog, hinput]; exact h.sublist
  balance := by rw [hlog, hinput]; exact h.balance
  closed := hclosed
  finished := hfinished

theorem Sound.leave (h : Sound s) (loop : Loop)
    (hzero : s.running = true → Allowance.left effect s.log = 0) : Sound (s.leave loop) := by
  cases loop with
  | continuous => exact h.quiet rfl rfl id trivial h.closed nofun
  | counted numMessages sentMessages =>
    refine ⟨Allowance.everywhere_concat_iff.2 ⟨h.legal, nofun⟩, ?_, ?_, ?_, ?_, h.closed, nofun⟩
    · exact Allowance.left_concat _ _
    · intro hrun
      exact Allowance.everywhere_concat_iff.2 ⟨h.autoClosed hrun, fun _ => hzero hrun⟩
    · simpa [Gate.leave, forwards, receives] using h.sublist
    · simpa [Gate.leave, forwards, receives, losses] using h.balance

theorem Sound.take (h : Sound s) (messages : List (Message α)) (command : GateControl) :
    Sound (s.take messages command) := by
  refine ⟨Allowance.everywhere_concat_iff.2 ⟨h.legal, nofun⟩, ?_, ?_, ?_, ?_, h.closed, nofun⟩
  · exact Allowance.left_concat _ _
  · intro hrun
    exact Allowance.everywhere_concat_iff.2 ⟨h.autoClosed hrun, nofun⟩
  · simpa [Gate.take, forwards, receives] using h.sublist
  · simpa [Gate.take, forwards, receives, losses] using h.balance

theorem Sound.forward (h : Sound s) {msg : Message α} {messages : List (Message α)} {loop : Loop}
    (hmessages : s.input.messages = msg :: messages) (hpc : s.pc = .readingInput loop) :
    Sound { s with
      input.messages := messages
      pc := .sending loop.sent
      log := s.log ++ [.forwarded msg] } := by
  have hfits := h.fits
  rw [hpc] at hfits
  have hsublist := h.sublist
  have hbalance := h.balance
  rw [hmessages] at hsublist hbalance
  refine ⟨Allowance.everywhere_concat_iff.2 ⟨h.legal, fun _ => hfits.2⟩, ?_, ?_, ?_, ?_,
    h.closed, nofun⟩
  · change Allowance.left effect (s.log ++ [.forwarded msg]) = loop.sent.left
    rw [Allowance.left_concat, Loop.left_sent, hfits.1]
    rfl
  · intro hrun
    exact Allowance.everywhere_concat_iff.2 ⟨h.autoClosed hrun, nofun⟩
  · simpa [forwards, receives] using hsublist
  · simp [forwards, receives, losses] at hbalance ⊢
    omega

theorem Sound.receive (h : Sound s) (msg : Message α) :
    Sound { s with
      input.messages := s.input.messages ++ [msg]
      log := s.log ++ [.received msg] } := by
  refine ⟨Allowance.everywhere_concat_iff.2 ⟨h.legal, nofun⟩, ?_, ?_, ?_, ?_, h.closed, h.finished⟩
  · change s.pc.Fits (Allowance.left effect (s.log ++ [.received msg]))
    rw [Allowance.left_concat]
    exact h.fits
  · intro hrun
    exact Allowance.everywhere_concat_iff.2 ⟨h.autoClosed hrun, nofun⟩
  · have happend := h.sublist.append (List.Sublist.refl [msg])
    simpa [forwards, receives] using happend
  · have hbalance := h.balance
    simp [forwards, receives, losses] at hbalance ⊢
    omega

theorem Sound.lose (h : Sound s) {msg : Message α} {messages : List (Message α)}
    (hmessages : s.input.messages = msg :: messages) :
    Sound { s with input.messages := messages, log := s.log ++ [.lost] } := by
  have hsublist := h.sublist
  have hbalance := h.balance
  rw [hmessages] at hsublist hbalance
  refine ⟨Allowance.everywhere_concat_iff.2 ⟨h.legal, nofun⟩, ?_, ?_, ?_, ?_, h.closed, h.finished⟩
  · change s.pc.Fits (Allowance.left effect (s.log ++ [.lost]))
    rw [Allowance.left_concat]
    exact h.fits
  · intro hrun
    exact Allowance.everywhere_concat_iff.2 ⟨h.autoClosed hrun, nofun⟩
  · have hfewer := (List.sublist_cons_self msg messages).append_left (forwards s.log)
    simpa [forwards, receives] using hfewer.trans hsublist
  · simp [forwards, receives, losses] at hbalance ⊢
    omega

/-- **One section of the thread keeps the invariant.** -/
theorem Sound.next (h : Sound s) (hnext : s.next = some t) : Sound t := by
  have hfits := h.fits
  simp only [Gate.next] at hnext
  split at hnext
  · next currentCommand hpc =>
    rw [hpc] at hfits
    split at hnext
    · next hrunning =>
      split at hnext
      · cases hnext
        exact h.quiet rfl rfl id trivial h.closed nofun
      · next command =>
        replace hfits : Allowance.left effect s.log = allowance command := hfits
        split_ifs at hnext with hopen hcount <;> cases hnext
        · refine h.quiet rfl rfl id ?_ h.closed nofun
          simp [Pc.Fits, hfits, allowance, hopen, hcount, Loop.left]
        · refine h.quiet rfl rfl id ?_ h.closed nofun
          simp [Pc.Fits, hfits, allowance, hopen, hcount, Loop.left]
        · refine h.quiet rfl rfl id ?_ h.closed nofun
          simp [Pc.Fits, hfits, allowance, hopen]
    · next hrunning =>
      cases hnext
      exact h.quiet rfl rfl id trivial h.closed fun _ => by simpa using hrunning
  · next loop hpc =>
    rw [hpc] at hfits
    split_ifs at hnext with hgoes <;> cases hnext
    · have hpos := (Loop.goesOn_iff.1 hgoes).1
      exact h.quiet rfl rfl id ⟨hfits, hfits ▸ hpos⟩ h.closed nofun
    · refine h.leave loop fun hrun => ?_
      rw [Loop.goesOn_iff, not_and_or] at hgoes
      exact hfits.trans (not_not.1 fun hne =>
        hgoes.elim (fun hzero => hzero (pos_iff_ne_zero.2 hne)) (absurd hrun))
  · next loop hpc =>
    rw [hpc] at hfits
    split_ifs at hnext <;> cases hnext
    · exact h.quiet rfl rfl id hfits h.closed nofun
    · exact h.quiet rfl rfl id hfits.1 h.closed nofun
  · next loop hpc =>
    rw [hpc] at hfits
    split at hnext
    · next hstopped =>
      cases hnext
      exact h.leave loop fun hrun => absurd hrun (by simp [hstopped.2])
    split at hnext
    · cases hnext
      exact h.quiet rfl rfl nofun trivial (fun _ => rfl) fun _ => rfl
    split at hnext
    · cases hnext
      exact h.quiet rfl rfl id hfits h.closed nofun
    · next msg messages hmessages =>
      split at hnext <;> cases hnext
      · exact h.take messages _
      · exact h.quiet rfl rfl id hfits h.closed nofun
  · next loop hpc =>
    rw [hpc] at hfits
    split at hnext
    · cases hnext
      exact h.quiet rfl rfl nofun trivial (fun _ => rfl) fun _ => rfl
    split at hnext
    · cases hnext
      exact h.quiet rfl rfl id hfits.1 h.closed nofun
    · next msg messages hmessages =>
      cases hnext
      exact h.forward hmessages hpc
  · next hpc =>
    split at hnext
    · cases hnext
      exact h.quiet rfl rfl nofun trivial (fun _ => rfl) fun _ => rfl
    split at hnext
    · cases hnext
    · next msg messages hmessages =>
      split at hnext <;> cases hnext
      · exact h.take messages _
      · exact h.quiet rfl rfl id trivial h.closed nofun
  all_goals cases hnext

/-- **One step keeps the invariant.** -/
theorem Sound.step {a : Action α} (h : Sound s) (hstep : s.step a = some t) : Sound t := by
  cases a with
  | node => exact h.next hstep
  | receive msg =>
    cases hstep
    exact h.receive msg
  | lose =>
    simp only [Gate.step] at hstep
    split at hstep
    · cases hstep
    · next msg messages hmessages =>
      cases hstep
      exact h.lose hmessages
  | control msg =>
    cases hstep
    exact h.quiet rfl rfl id h.fits h.closed h.finished
  | loseControl =>
    cases hstep
    exact h.quiet rfl rfl id h.fits h.closed h.finished
  | stop =>
    cases hstep
    exact h.quiet rfl rfl nofun h.fits (fun _ => rfl) fun _ => rfl
  | closeControl =>
    simp only [Gate.step] at hstep
    split_ifs at hstep with hrunning
    cases hstep
    exact h.quiet rfl rfl id h.fits (fun _ => by simpa using hrunning) h.finished
  | closeInput =>
    simp only [Gate.step] at hstep
    split_ifs at hstep with hrunning
    cases hstep
    exact h.quiet rfl rfl id h.fits (fun _ => by simpa using hrunning) h.finished

end Steps

theorem sound_of_run {initialConfig : GateControl} {tr : Trace α} {t : Gate α}
    (h : Run step (start initialConfig) tr t) : Sound t :=
  h.invariant (fun _ _ _ => Sound.step) (sound_start initialConfig)

/-! ### The thread comes to block -/

section Work

variable {s t : Gate α}

theorem work_throw (s : Gate α) : s.throw.work = 0 := by
  simp [work, throw]

/-- **A section of the thread reduces its work.** -/
theorem work_lt_of_next (h : Sound s) (hnext : s.next = some t) : t.work < s.work := by
  have hclosed := h.closed
  obtain ⟨⟨commands, closedControl⟩, ⟨data, closedInput⟩, running, pc, log⟩ := s
  simp only at hclosed
  cases pc with
  | command currentCommand =>
    cases running with
    | false =>
      cases hnext
      simp [work]
    | true =>
      cases currentCommand with
      | none =>
        cases hnext
        simp [work]
      | some command =>
        simp only [Gate.next, if_true] at hnext
        split_ifs at hnext with hopen <;> (cases hnext; simp [work, hopen])
  | sending loop =>
    simp only [Gate.next] at hnext
    split_ifs at hnext with hgoes <;> cases hnext
    · obtain ⟨-, rfl⟩ := Loop.goesOn_iff.1 hgoes
      simp [work]
    · cases running <;> cases loop <;> simp [work, leave, closeCmd]
  | waitingAny loop =>
    simp only [Gate.next] at hnext
    split_ifs at hnext with hhas hboth <;> cases hnext
    · cases running with
      | false => simp [work]
      | true =>
        have hsome : ¬(commands.length + data.length = 0) := by
          simp only [Queue.has, Bool.or_eq_true, Bool.and_eq_true, Bool.not_eq_true',
            List.isEmpty_eq_false_iff] at hhas
          intro hzero
          rcases hhas with ⟨-, hne⟩ | ⟨-, hne⟩
          · exact hne (List.length_eq_zero_iff.1 (by omega))
          · exact hne (List.length_eq_zero_iff.1 (by omega))
        simp only [work, if_neg hsome]
        omega
    · rw [hclosed (.inl (by simp_all))]
      simp [work]
  | readingControl loop =>
    simp only [Gate.next] at hnext
    split_ifs at hnext with hstopped hthrow
    · cases hnext
      obtain ⟨hloop, rfl⟩ := hstopped
      cases loop <;> simp [work, leave]
    · cases hnext
      rw [work_throw]
      cases running <;> simp [work]
      split_ifs <;> omega
    · cases commands with
      | nil =>
        cases hnext
        cases running with
        | false => simp [work]
        | true =>
          simp only [work, List.length_nil]
          split_ifs <;> omega
      | cons msg commands =>
        cases msg with
        | gateControl command =>
          cases hnext
          cases running with
          | false => simp [work, take]
          | true =>
            simp only [work, take, List.length_cons]
            split_ifs <;> omega
        | other msg =>
          cases hnext
          cases running with
          | false => simp [work]
          | true =>
            simp only [work, List.length_cons]
            split_ifs <;> omega
  | readingInput loop =>
    simp only [Gate.next] at hnext
    split_ifs at hnext with hthrow
    · cases hnext
      rw [work_throw]
      cases running <;> simp [work]
      split_ifs <;> omega
    · cases data with
      | nil =>
        cases hnext
        cases running <;> simp [work]
      | cons msg data =>
        cases hnext
        cases running with
        | false => simp [work]
        | true =>
          simp only [work, List.length_cons]
          split_ifs <;> omega
  | waitingForCommand =>
    simp only [Gate.next] at hnext
    split_ifs at hnext with hthrow
    · cases hnext
      rw [work_throw, hclosed (.inl hthrow)]
      simp [work]
    · cases commands with
      | nil => cases hnext
      | cons msg commands =>
        cases msg with
        | gateControl command =>
          cases hnext
          cases running with
          | false => simp [work, take]
          | true =>
            simp only [work, take, List.length_cons]
            split_ifs <;> omega
        | other msg =>
          cases hnext
          cases running with
          | false => simp [work]
          | true =>
            simp only [work, List.length_cons]
            omega
  | returned | threw | nullDereferenced => cases hnext

/-- **The thread takes no more steps than that.** -/
theorem length_le_work {tr : Trace α} (h : Sound s) (hrun : Run step s tr t)
    (hnode : ∀ p ∈ tr, p.2 = .node) : tr.length + t.work ≤ s.work := by
  induction hrun with
  | nil => simp
  | @snoc t u a tr hrun hstep ih =>
    have hbefore := ih fun p hp => hnode p (List.mem_append_left _ hp)
    obtain rfl : a = .node := hnode _ (List.mem_append_right _ (List.mem_singleton_self _))
    have hsound : Sound t := hrun.invariant (fun _ _ _ => Sound.step) h
    have hlt := work_lt_of_next hsound hstep
    rw [List.length_append, List.length_singleton]
    omega

end Work

/-! ### The null pointer -/

section Null

variable {s t : Gate α}

/-- The null pointer is there only once the node has been stopped. -/
def NullStopped (s : Gate α) : Prop :=
  (s.pc = .command none → s.running = false) ∧ s.pc ≠ .nullDereferenced

theorem NullStopped.congr (h : NullStopped s) (hpc : t.pc = s.pc)
    (hrunning : t.running = true → s.running = true) : NullStopped t := by
  refine ⟨fun hnull => ?_, hpc ▸ h.2⟩
  have hstopped := h.1 (hpc ▸ hnull)
  cases hrun : t.running with
  | false => rfl
  | true => exact absurd (hrunning hrun) (by simp [hstopped])

theorem nullStopped_of_ne (hnull : s.pc ≠ .command none) (hpc : s.pc ≠ .nullDereferenced) :
    NullStopped s :=
  ⟨fun h => absurd h hnull, hpc⟩

theorem nullStopped_leave (loop : Loop) (h : loop = .continuous → s.running = false) :
    NullStopped (s.leave loop) := by
  cases loop with
  | continuous => exact ⟨fun _ => h rfl, nofun⟩
  | counted numMessages sentMessages => exact nullStopped_of_ne nofun nofun

/-- **A section of the thread makes no null pointer** unless `waitForCommand` takes a message of
another datatype. -/
theorem NullStopped.next (h : NullStopped s) (hnext : s.next = some t)
    (htakes : s.pc = .waitingForCommand →
      ∀ msg, s.inputControl.messages.head? = some msg → msg.asGateControl ≠ none) :
    NullStopped t := by
  simp only [Gate.next] at hnext
  split at hnext
  · next currentCommand hpc =>
    split at hnext
    · next hrunning =>
      split at hnext
      · exact absurd hrunning (by simp [h.1 hpc])
      · split_ifs at hnext <;> (cases hnext; exact nullStopped_of_ne nofun nofun)
    · cases hnext
      exact nullStopped_of_ne nofun nofun
  · next loop hpc =>
    split_ifs at hnext with hgoes <;> cases hnext
    · exact nullStopped_of_ne nofun nofun
    · refine nullStopped_leave loop ?_
      rintro rfl
      simpa [Loop.goesOn] using hgoes
  · split_ifs at hnext <;> (cases hnext; exact nullStopped_of_ne nofun nofun)
  · next loop hpc =>
    split at hnext
    · next hstopped =>
      cases hnext
      exact nullStopped_leave loop fun _ => hstopped.2
    split at hnext
    · cases hnext
      exact nullStopped_of_ne nofun nofun
    split at hnext
    · cases hnext
      exact nullStopped_of_ne nofun nofun
    · split at hnext <;> (cases hnext; exact nullStopped_of_ne nofun nofun)
  · split at hnext
    · cases hnext
      exact nullStopped_of_ne nofun nofun
    · split at hnext <;> (cases hnext; exact nullStopped_of_ne nofun nofun)
  · next hpc =>
    split at hnext
    · cases hnext
      exact nullStopped_of_ne nofun nofun
    split at hnext
    · cases hnext
    · next msg messages hmessages =>
      split at hnext
      · cases hnext
        exact nullStopped_of_ne nofun nofun
      · next hother => exact absurd hother (htakes hpc msg (by rw [hmessages]; rfl))
  all_goals cases hnext

theorem nullStopped_of_run {initialConfig : GateControl} {tr : Trace α} {t : Gate α}
    (h : Run step (start initialConfig) tr t) (htakes : TakesCommands tr) : NullStopped t := by
  refine h.invariant_of_forall (G := fun (s : Gate α) (a : Action α) => a = .node →
    s.pc = .waitingForCommand → ∀ msg, s.inputControl.messages.head? = some msg →
      msg.asGateControl ≠ none) ?_ htakes (nullStopped_of_ne nofun nofun)
  intro s a t hnode hs hstep
  cases a with
  | node => exact hs.next hstep (hnode rfl)
  | receive | control | loseControl =>
    cases hstep
    exact hs.congr rfl id
  | lose =>
    simp only [step] at hstep
    split at hstep
    · cases hstep
    · cases hstep
      exact hs.congr rfl id
  | stop =>
    cases hstep
    exact hs.congr rfl nofun
  | closeControl | closeInput =>
    simp only [step] at hstep
    split_ifs at hstep
    cases hstep
    exact hs.congr rfl id

/-- **A null command is dereferenced** if the node still runs. -/
theorem next_of_null (hpc : s.pc = .command none) (hrunning : s.running = true) :
    s.next = some { s with pc := .nullDereferenced } := by
  simp [next, hpc, hrunning]

end Null

/-! ### The promise -/

section Promise

variable {s : Gate α} {pre mid : List (Event α)} {e : Event α} {command : GateControl}

theorem allowance_of_counted (hopen : command.isOpen = true) (hcount : 0 ≤ command.numMessages) :
    allowance command = command.numMessages.toNat := by
  simp [allowance, hopen, hcount]

/-- A stretch without a command to open grants nothing. -/
theorem everywhere_grant_le (hmid : ∀ command, .took command ∈ mid → command.isOpen = false) :
    Allowance.Everywhere (fun l e => ∀ units, effect e = .grant units →
      units ≤ Allowance.left effect (pre ++ l)) mid := by
  rintro l e r rfl units hgrant
  cases e with
  | took command =>
    obtain rfl : allowance command = units := by simpa [effect] using hgrant
    simp [allowance, hmid command (by simp)]
  | autoClosed =>
    obtain rfl : 0 = units := by simpa [effect] using hgrant
    exact zero_le
  | received | lost | forwarded => simp [effect] at hgrant

/-- Without a command, nothing is forwarded beyond what is left. -/
theorem Sound.forwards_le (h : Sound s) (hlog : s.log = pre ++ mid)
    (hmid : ∀ command, .took command ∈ mid → command.isOpen = false) :
    ((forwards mid).length : ℕ∞) ≤ Allowance.left effect pre := by
  have hlegal := h.legal
  rw [hlog] at hlegal
  have hspent := Allowance.spent_add_left_le hlegal (everywhere_grant_le hmid)
  rw [spent_eq] at hspent
  exact le_self_add.trans hspent

/-- While the node runs, what is not left has been forwarded. -/
theorem Sound.forwards_add_left (h : Sound s) (hlog : s.log = pre ++ mid)
    (hmid : ∀ command, .took command ∉ mid) (hrunning : s.running = true) :
    ((forwards mid).length : ℕ∞) + Allowance.left effect s.log = Allowance.left effect pre := by
  have hlegal := h.legal
  have hauto := h.autoClosed hrunning
  rw [hlog] at hlegal hauto ⊢
  rw [← spent_eq]
  refine Allowance.spent_add_left hlegal ?_
  rintro l e r rfl units hgrant
  cases e with
  | took command => exact absurd (by simp) (hmid command)
  | autoClosed =>
    obtain rfl : 0 = units := by simpa [effect] using hgrant
    exact (hauto (pre ++ l) .autoClosed r (by simp) rfl).symm
  | received | lost | forwarded => simp [effect] at hgrant

/-- A thread that is blocked waits for a command, or for any message and has none. -/
theorem blocked_cases (h : Sound s) (hnull : s.pc ≠ .nullDereferenced) (hrunning : s.running = true)
    (hblocked : s.next = none) :
    s.pc = .waitingForCommand ∨ (∃ loop, s.pc = .waitingAny loop) ∧ s.input.messages = [] := by
  have hinput : s.input.closed = false := by
    cases hclosed : s.input.closed with
    | false => rfl
    | true => exact absurd hrunning (by simp [h.closed (.inr hclosed)])
  simp only [Gate.next] at hblocked
  split at hblocked
  · split_ifs at hblocked
    split at hblocked
    · cases hblocked
    · split_ifs at hblocked
  · split_ifs at hblocked
  · next loop hpc =>
    split_ifs at hblocked with hhas
    refine .inr ⟨⟨loop, hpc⟩, ?_⟩
    simp [Queue.has, hinput] at hhas
    exact hhas.2
  · split_ifs at hblocked
    split at hblocked
    · cases hblocked
    · split at hblocked <;> cases hblocked
  · split_ifs at hblocked
    split at hblocked <;> cases hblocked
  · next hpc => exact .inl hpc
  · next hpc => exact absurd hrunning (by simp [h.finished (.inl hpc)])
  · next hpc => exact absurd hrunning (by simp [h.finished (.inr hpc)])
  · next hpc => exact absurd hpc hnull

theorem left_of_closes (hcloses : e.closes = true) : Allowance.left effect (pre ++ [e]) = 0 := by
  rw [Allowance.left_concat]
  cases e with
  | took command =>
    have hopen : command.isOpen = false := by simpa [Event.closes] using hcloses
    simp [effect, allowance, Allowance.Effect.apply, hopen]
  | autoClosed => rfl
  | received | lost | forwarded => cases hcloses

/-- Behind a command with a count that many messages are left. -/
theorem left_of_took (hopen : command.isOpen = true) (hcount : 0 ≤ command.numMessages) :
    Allowance.left effect (pre ++ [(.took command : Event α)]) =
      (command.numMessages.toNat : ℕ∞) := by
  rw [Allowance.left_concat, ← allowance_of_counted hopen hcount]
  rfl

/-- **The whole allowance has been forwarded** when the thread blocks and there were messages
enough. -/
theorem Sound.forwards_of_blocked (h : Sound s) (hnull : s.pc ≠ .nullDereferenced)
    (hlog : s.log = pre ++ .took command :: mid) (hopen : command.isOpen = true)
    (hcount : 0 ≤ command.numMessages) (hmid : ∀ command', .took command' ∉ mid)
    (hrunning : s.running = true) (hblocked : s.next = none)
    (henough : command.numMessages + (forwards pre).length + losses s.log ≤
      ((receives s.log).length : ℤ)) :
    ((forwards mid).length : ℤ) = command.numMessages ∧ s.pc = .waitingForCommand := by
  have hlog' : s.log = pre ++ [.took command] ++ mid := by simpa using hlog
  have hsum := h.forwards_add_left hlog' hmid hrunning
  rw [left_of_took hopen hcount] at hsum
  have hfits := h.fits
  rcases blocked_cases h hnull hrunning hblocked with hpc | ⟨⟨loop, hpc⟩, hinput⟩
  · rw [hpc] at hfits
    have hzero : Allowance.left effect s.log = 0 := hfits
    rw [hzero, add_zero] at hsum
    have hall : (forwards mid).length = command.numMessages.toNat := by exact_mod_cast hsum
    exact ⟨by omega, hpc⟩
  · -- All that was received has been forwarded or lost, so nothing is left of the allowance.
    exfalso
    rw [hpc] at hfits
    have hbalance := h.balance
    have hforwards : (forwards s.log).length = (forwards pre).length + (forwards mid).length := by
      rw [hlog', forwards_append, forwards_append, List.length_append, List.length_append]
      simp [forwards]
    rw [hinput, List.length_nil, hforwards] at hbalance
    have hall : command.numMessages.toNat ≤ (forwards mid).length := by omega
    have hpos := ENat.add_lt_add_of_le_of_lt (ENat.natCast_ne_top _)
      (le_refl ((forwards mid).length : ℕ∞)) hfits.2
    rw [hsum, add_zero] at hpos
    exact absurd hall (not_le.2 (by exact_mod_cast hpos))

end Promise

/-- **The gate keeps its promise** in every run in which `waitForCommand` takes commands only. -/
theorem obeys_of_run {initialConfig : GateControl} {tr : Trace α} {t : Gate α}
    (h : Run step (start initialConfig) tr t) (htakes : TakesCommands tr) : Obeys t := by
  have hsound := sound_of_run h
  have hnull := (nullStopped_of_run h htakes).2
  refine ⟨(List.sublist_append_left _ _).trans hsound.sublist, ?_, ?_, ?_, ?_, hnull⟩
  · intro pre e mid hlog hcloses hmid
    rw [← List.singleton_append, ← List.append_assoc] at hlog
    have hle := hsound.forwards_le hlog hmid
    rw [left_of_closes hcloses] at hle
    exact List.length_eq_zero_iff.1 (by simpa using hle)
  · intro pre command mid hlog hopen hcount hmid
    rw [← List.singleton_append, ← List.append_assoc] at hlog
    have hle := hsound.forwards_le hlog fun command' h => absurd h (hmid command')
    rw [left_of_took hopen hcount] at hle
    have hle' : (forwards mid).length ≤ command.numMessages.toNat := by exact_mod_cast hle
    omega
  · intro pre command mid hlog hopen hcount hmid hrunning hblocked henough
    exact hsound.forwards_of_blocked hnull hlog hopen hcount hmid hrunning hblocked henough
  · intro tr u hrun hnode
    exact (Nat.le_add_right _ _).trans (length_le_work hsound hrun hnode)

/-- A gate that begins closed takes a command to let two messages through. -/
theorem obeys_of_run_opened :
    ∃ (tr : Trace ℕ) (t : Gate ℕ), Run step (start closeCmd) tr t ∧ TakesCommands tr ∧
      t.pc = .command (some { numMessages := 2 }) ∧ Obeys t := by
  have hrun : Run step (start closeCmd : Gate ℕ) _ _ :=
    .cons (a := .node) rfl (.cons (a := .control (.gateControl { numMessages := 2 })) rfl
      (.single (a := .node) rfl))
  refine ⟨_, _, hrun, ?takes, rfl, obeys_of_run hrun ?takes⟩
  intro p hp hnode hpc msg hmsg
  simp only [List.mem_cons, List.not_mem_nil, or_false] at hp
  obtain rfl | rfl | rfl := hp
  · cases hpc
  · cases hnode
  · cases hmsg
    exact nofun

/-- **A message of another datatype crashes a closed gate.** -/
theorem not_obeys : ¬∀ (initialConfig : GateControl) (tr : Trace ℕ) (t : Gate ℕ),
    Run step (start initialConfig) tr t → Obeys t := by
  intro h
  have hrun : Run step (start closeCmd : Gate ℕ) _ _ :=
    .cons (a := .node) rfl (.cons (a := .control (.other 7)) rfl
      (.cons (a := .node) rfl (.single (a := .node) rfl)))
  exact (h _ _ _ hrun).notNull rfl

end Gate

end DepthaiCore
