import DepthaiCore.Node.Sync
import Mathlib.Data.Fintype.Basic

/-!
# The pointers that `Sync` holds

`get` returns a null pointer for a queue element that does not derive from `Buffer`. `Sync` throws
when the first message that it takes from an input is one, and does not look when it replaces a
message. Every pass of the matching loop then reads the time stamps of all the messages in hand, and
so does the sending of a group.

An element of an input is a message or `none` here. A null pointer that is dereferenced leaves the
node crashed. The decision of a pass over messages that are there is `Node.verdict`.
-/

namespace DepthaiCore

namespace Sync

namespace Pointers

open Transition

variable {ι : Type*}

/-- The elements that arrive at each input; `none` is one that does not derive from `Buffer`. -/
abbrev Inputs (ι : Type*) := ι → Stream'.Seq (Option Buffer)

/-- Where the node is. -/
inductive Pc (ι : Type*)
  /-- It has yet to take a message from each of `todo`. -/
  | receiving (todo : List ι)
  /-- It is in the matching loop. -/
  | matching (attempts : ℤ)
  /-- It has thrown, because the first element of this input was null. -/
  | threw (name : ι)
  /-- It has dereferenced a null pointer. -/
  | crashed
  deriving DecidableEq, Repr

/-- The state of the node and its inputs. -/
structure State (ι : Type*) where
  /-- How many elements have been taken from each input. -/
  received : ι → ℕ
  /-- The pointers in hand. -/
  inputFrames : List (ι × Option Buffer)
  pc : Pc ι

/-- The steps of the node. -/
inductive Action (ι : Type*)
  /-- It takes an element from the next input. -/
  | receive
  /-- It makes a pass of the matching loop, with the pointers in hand in this order. -/
  | attempt (order : List (ι × Option Buffer))
  deriving DecidableEq

/-- The messages, unless a pointer is null. -/
def messages : List (ι × Option Buffer) → Option (List (ι × Buffer))
  | [] => some []
  | (name, some msg) :: frames => (messages frames).map ((name, msg) :: ·)
  | (_, none) :: _ => none

/-- The node before it has taken anything. -/
def start (node : Node ι) : State ι where
  received _ := 0
  inputFrames := []
  pc := .receiving node.inputNames

/-- The state after a group has been sent. -/
def sent (node : Node ι) (s : State ι) : State ι :=
  { s with inputFrames := [], pc := .receiving node.inputNames }

variable [DecidableEq ι]

/-- `inputFrames[name] = msg` -/
def assign (name : ι) (msg : Option Buffer) : List (ι × Option Buffer) → List (ι × Option Buffer)
  | [] => [(name, msg)]
  | frame :: frames =>
    if frame.1 = name then (name, msg) :: frames else frame :: assign name msg frames

/-- The state after an element has been taken into the pointers in hand. -/
def State.took (s : State ι) (name : ι) (msg : Option Buffer) (order : List (ι × Option Buffer))
    (pc : Pc ι) : State ι where
  received := Function.update s.received name (s.received name + 1)
  inputFrames := assign name msg order
  pc := pc

/-- The next element of an input. -/
def State.next (s : State ι) (inputs : Inputs ι) (name : ι) : Option (Option Buffer) :=
  (inputs name).get? (s.received name)

/-- The state once an element has been taken from the inputs before `todo`. When there is none left,
the time stamps are printed. -/
def State.received_from (s : State ι) (todo : List ι) : State ι :=
  match todo with
  | [] =>
    match messages s.inputFrames with
    | some _ => { s with pc := .matching 0 }
    | none => { s with pc := .crashed }
  | name :: todo => { s with pc := .receiving (name :: todo) }

/-- What a pass over the pointers in this order does: it crashes, or it decides. -/
def decision (node : Node ι) (s : State ι) (order : List (ι × Option Buffer)) :
    Option (Option (Verdict ι)) :=
  match s.pc with
  | .matching attempts =>
    if order.Perm s.inputFrames then
      match messages order with
      | some frames => (node.verdict attempts frames).map some
      | none => some none
    else none
  | _ => none

/-- One step of the node. -/
def step (node : Node ι) (inputs : Inputs ι) (s : State ι) : Action ι → Option (State ι)
  | .receive =>
    match s.pc with
    | .receiving (name :: todo) =>
      (s.next inputs name).map fun
        | some msg => (s.took name (some msg) s.inputFrames s.pc).received_from todo
        | none => { s with pc := .threw name }
    | _ => none
  | .attempt order =>
    match s.pc, decision node s order with
    | _, some none => some { s with pc := .crashed }
    | _, some (some (.send _)) => some (sent node s)
    | .matching attempts, some (some (.replace name)) =>
      (s.next inputs name).map fun msg => s.took name msg order (.matching (attempts + 1))
    | _, _ => none

/-! ### What a step does besides -/

/-- The group that a step sends. -/
def sends (node : Node ι) (p : State ι × Action ι) : Option (MessageGroup ι) :=
  match p.2 with
  | .receive => none
  | .attempt order =>
    match decision node p.1 order with
    | some (some (.send outputGroup)) => some outputGroup
    | _ => none

/-- The input whose message a step replaces. -/
def replaces (node : Node ι) (p : State ι × Action ι) : Option ι :=
  match p.2 with
  | .receive => none
  | .attempt order =>
    match decision node p.1 order with
    | some (some (.replace name)) => some name
    | _ => none

/-- The pointers whose time stamps a step reads: all in hand, in a pass and once the last of the
inputs has given a message. -/
def reads (inputs : Inputs ι) (p : State ι × Action ι) : List (Option Buffer) :=
  match p.2, p.1.pc with
  | .attempt order, .matching _ => order.map Prod.snd
  | .receive, .receiving [name] =>
    match p.1.next inputs name with
    | some (some msg) => (assign name (some msg) p.1.inputFrames).map Prod.snd
    | _ => []
  | _, _ => []

/-- The step replaces a message by a null pointer. -/
def TakesNull (node : Node ι) (inputs : Inputs ι) (p : State ι × Action ι) : Prop :=
  ∃ name, replaces node p = some name ∧ p.1.next inputs name = some none

instance [Fintype ι] (node : Node ι) (inputs : Inputs ι) (p : State ι × Action ι) :
    Decidable (TakesNull node inputs p) :=
  inferInstanceAs (Decidable (∃ _, _))

/-- How many messages were replaced since the last group was sent. -/
def replacements (node : Node ι) (tr : List (State ι × Action ι)) : ℕ :=
  tr.foldl (fun n p =>
    if (sends node p).isSome then 0 else if (replaces node p).isSome then n + 1 else n) 0

/-- The messages of a group are closer than the threshold. -/
def InSync (node : Node ι) (outputGroup : MessageGroup ι) : Prop :=
  ∀ x ∈ outputGroup.group, ∀ y ∈ outputGroup.group,
    x.2.timestamp - y.2.timestamp < node.properties.syncThresholdNs

/-! ### Messages and pointers -/

section Frames

variable {name : ι} {msg : Option Buffer} {frames : List (ι × Option Buffer)}

omit [DecidableEq ι] in
theorem messages_eq_none_iff : messages frames = none ↔ ∃ frame ∈ frames, frame.2 = none := by
  induction frames with
  | nil => simp [messages]
  | cons frame frames ih =>
    obtain ⟨name, _ | msg⟩ := frame
    · exact iff_of_true rfl ⟨_, List.mem_cons_self, rfl⟩
    · rw [messages, Option.map_eq_none_iff, ih]
      simp

theorem mem_assign {frame : ι × Option Buffer} (h : frame ∈ assign name msg frames) :
    frame = (name, msg) ∨ frame ∈ frames := by
  induction frames with
  | nil => exact .inl (List.mem_singleton.1 h)
  | cons frame' frames ih =>
    rw [assign] at h
    split at h
    · rcases List.mem_cons.1 h with h | h
      · exact .inl h
      · exact .inr (List.mem_cons_of_mem _ h)
    · rcases List.mem_cons.1 h with rfl | h
      · exact .inr List.mem_cons_self
      · exact (ih h).imp_right (List.mem_cons_of_mem _)

theorem mem_assign_self (name : ι) (msg : Option Buffer) (frames : List (ι × Option Buffer)) :
    (name, msg) ∈ assign name msg frames := by
  induction frames with
  | nil => exact List.mem_singleton_self _
  | cons frame frames ih =>
    rw [assign]
    split
    · exact List.mem_cons_self
    · exact List.mem_cons_of_mem _ ih

end Frames

/-- A group is sent when the attempts are used up, or in sync. -/
theorem inSync_or_of_send {node : Node ι} {attempts : ℤ} {frames : List (ι × Buffer)}
    {outputGroup' : MessageGroup ι} (h : node.verdict attempts frames = some (.send outputGroup')) :
    attempts > node.properties.syncAttempts ∧ node.properties.syncAttempts ≠ -1 ∨
      InSync node outputGroup' := by
  cases frames with
  | nil => cases h
  | cons first frames =>
    simp only [Node.verdict] at h
    split at h
    case isTrue hbudget => exact .inl hbudget
    case isFalse =>
      split at h
      case isFalse => simp at h
      case isTrue hlt =>
        have hgroup : outputGroup' = outputGroup node.inputNames (first :: frames) first.2 := by
          simp only [Option.some.injEq, Verdict.send.injEq] at h
          exact h.symm
        have hmem : ∀ x ∈ outputGroup'.group, ∃ name, (name, x.2) ∈ first :: frames := by
          intro x hx
          rw [hgroup] at hx
          obtain ⟨name, -, hx⟩ := List.mem_filterMap.1 hx
          obtain ⟨msg, hlookup, rfl⟩ := Option.map_eq_some_iff.1 hx
          obtain ⟨l, l', heq, -⟩ := List.lookup_eq_some_iff.1 hlookup
          exact ⟨name, heq ▸ List.mem_append_right l List.mem_cons_self⟩
        refine .inr fun x hx y hy => ?_
        obtain ⟨i, hx⟩ := hmem x hx
        obtain ⟨j, hy⟩ := hmem y hy
        have hmax := (exists_eq_maxTs (List.mem_cons_self : first ∈ first :: frames)).2 _ hx
        have hmin := (exists_eq_minTs (List.mem_cons_self : first ∈ first :: frames)).2 _ hy
        dsimp only at hmax hmin
        omega

/-- A message is replaced only while there are attempts left. -/
theorem attempts_le_of_replace {node : Node ι} {attempts : ℤ} {frames : List (ι × Buffer)} {name : ι}
    (h : node.verdict attempts frames = some (.replace name))
    (hlimit : node.properties.syncAttempts ≠ -1) : attempts ≤ node.properties.syncAttempts := by
  cases frames with
  | nil => cases h
  | cons first frames =>
    simp only [Node.verdict] at h
    split at h
    case isTrue => simp at h
    case isFalse hbudget => exact Int.not_lt.1 fun hgt => hbudget ⟨hgt, hlimit⟩

/-! ### What a step can do -/

/-- The possible steps of the node, with the group sent and the input whose message is replaced. -/
inductive Effect (node : Node ι) (inputs : Inputs ι) (s : State ι) :
    Action ι → Option (MessageGroup ι) → Option ι → State ι → Prop
  | receive {name : ι} {todo : List ι} {msg : Buffer} (hpc : s.pc = .receiving (name :: todo))
      (hmsg : s.next inputs name = some (some msg)) :
      Effect node inputs s .receive none none
        ((s.took name (some msg) s.inputFrames s.pc).received_from todo)
  | threw {name : ι} {todo : List ι} (hpc : s.pc = .receiving (name :: todo))
      (hmsg : s.next inputs name = some none) :
      Effect node inputs s .receive none none { s with pc := .threw name }
  | crash {order : List (ι × Option Buffer)} {attempts : ℤ} (hpc : s.pc = .matching attempts)
      (hperm : order.Perm s.inputFrames) (hmessages : messages order = none) :
      Effect node inputs s (.attempt order) none none { s with pc := .crashed }
  | send {order : List (ι × Option Buffer)} {attempts : ℤ} {frames : List (ι × Buffer)}
      {outputGroup : MessageGroup ι} (hpc : s.pc = .matching attempts)
      (hperm : order.Perm s.inputFrames) (hmessages : messages order = some frames)
      (hverdict : node.verdict attempts frames = some (.send outputGroup)) :
      Effect node inputs s (.attempt order) (some outputGroup) none (sent node s)
  | replace {order : List (ι × Option Buffer)} {attempts : ℤ} {frames : List (ι × Buffer)}
      {name : ι} {msg : Option Buffer} (hpc : s.pc = .matching attempts)
      (hperm : order.Perm s.inputFrames) (hmessages : messages order = some frames)
      (hverdict : node.verdict attempts frames = some (.replace name))
      (hmsg : s.next inputs name = some msg) :
      Effect node inputs s (.attempt order) none (some name)
        (s.took name msg order (.matching (attempts + 1)))

theorem decision_eq {node : Node ι} {s : State ι} {order : List (ι × Option Buffer)} {attempts : ℤ}
    (hpc : s.pc = .matching attempts) (hperm : order.Perm s.inputFrames) :
    decision node s order =
      match messages order with
      | some frames => (node.verdict attempts frames).map some
      | none => some none := by
  simp only [decision, hpc, if_pos hperm]

/-- **The case analysis of a step.** -/
theorem step_effect {node : Node ι} {inputs : Inputs ι} {s t : State ι} {a : Action ι}
    (h : step node inputs s a = some t) :
    Effect node inputs s a (sends node (s, a)) (replaces node (s, a)) t := by
  cases a with
  | receive =>
    simp only [step] at h
    split at h
    case h_1 name todo hpc =>
      obtain ⟨msg | msg, hmsg, rfl⟩ := Option.map_eq_some_iff.1 h
      · exact .threw hpc hmsg
      · exact .receive hpc hmsg
    case h_2 => cases h
  | attempt order =>
    cases hpc : s.pc with
    | receiving todo => simp [step, decision, hpc] at h
    | threw name => simp [step, decision, hpc] at h
    | crashed => simp [step, decision, hpc] at h
    | matching attempts =>
      by_cases hperm : order.Perm s.inputFrames
      · simp only [step, decision_eq hpc hperm, hpc] at h
        cases hmessages : messages order with
        | none =>
          simp only [hmessages] at h
          cases h
          simp only [sends, replaces, decision_eq hpc hperm, hmessages]
          exact .crash hpc hperm hmessages
        | some frames =>
          cases hverdict : node.verdict attempts frames with
          | none => simp [hmessages, hverdict] at h
          | some verdict =>
            simp only [hmessages, hverdict, Option.map_some] at h
            cases verdict with
            | send outputGroup =>
              cases h
              simp only [sends, replaces, decision_eq hpc hperm, hmessages, hverdict, Option.map_some]
              exact .send hpc hperm hmessages hverdict
            | replace name =>
              obtain ⟨msg, hmsg, rfl⟩ := Option.map_eq_some_iff.1 h
              simp only [sends, replaces, decision_eq hpc hperm, hmessages, hverdict, Option.map_some]
              exact .replace hpc hperm hmessages hverdict hmsg
      · simp [step, decision, hpc, hperm] at h

theorem exists_effect {node : Node ι} {inputs : Inputs ι} {s t : State ι} {a : Action ι}
    (h : step node inputs s a = some t) :
    ∃ sent replaced, sends node (s, a) = sent ∧ replaces node (s, a) = replaced ∧
      Effect node inputs s a sent replaced t :=
  ⟨_, _, rfl, rfl, step_effect h⟩

/-! ### Runs without a null replacement -/

variable {node : Node ι} {inputs : Inputs ι} {s t : State ι} {a : Action ι}

/-- No pointer in hand is null, and none was dereferenced. -/
structure Intact (s : State ι) : Prop where
  frames : ∀ frame ∈ s.inputFrames, frame.2 ≠ none
  pc : s.pc ≠ .crashed

omit [DecidableEq ι] in
theorem intact_start : Intact (start node) where
  frames _ hmem := absurd hmem List.not_mem_nil
  pc hpc := (nomatch hpc)

omit [DecidableEq ι] in
/-- Without a null pointer in hand a pass does not crash. -/
theorem Intact.messages_ne_none (h : Intact s) {order : List (ι × Option Buffer)}
    (hperm : order.Perm s.inputFrames) : messages order ≠ none := by
  rw [Ne, messages_eq_none_iff]
  rintro ⟨frame, hmem, hnone⟩
  exact h.frames frame (hperm.mem_iff.1 hmem) hnone

theorem Intact.assign (h : Intact s) {name : ι} {msg : Buffer} {order : List (ι × Option Buffer)}
    (hperm : order.Perm s.inputFrames) :
    ∀ frame ∈ Pointers.assign name (some msg) order, frame.2 ≠ none := by
  intro frame hmem
  rcases mem_assign hmem with rfl | hmem
  · exact Option.some_ne_none msg
  · exact h.frames frame (hperm.mem_iff.1 hmem)

omit [DecidableEq ι] in
theorem intact_received_from (hframes : ∀ frame ∈ s.inputFrames, frame.2 ≠ none) (todo : List ι) :
    Intact (s.received_from todo) := by
  cases todo with
  | cons name todo => exact ⟨hframes, fun hpc => (nomatch hpc)⟩
  | nil =>
    rw [State.received_from]
    cases hmessages : messages s.inputFrames with
    | some frames => exact ⟨hframes, fun hpc => (nomatch hpc)⟩
    | none =>
      obtain ⟨frame, hmem, hnone⟩ := messages_eq_none_iff.1 hmessages
      exact absurd hnone (hframes frame hmem)

/-- A step that takes no null replacement leaves the node intact. -/
theorem Intact.step (h : Intact s) (hstep : Pointers.step node inputs s a = some t)
    (hnull : ¬TakesNull node inputs (s, a)) : Intact t := by
  obtain ⟨sent, replaced, -, hreplaces, heffect⟩ := exists_effect hstep
  cases heffect with
  | receive hpc hmsg => exact intact_received_from (h.assign (.refl _)) _
  | threw hpc hmsg => exact ⟨h.frames, fun hpc => (nomatch hpc)⟩
  | crash hpc hperm hmessages => exact absurd hmessages (h.messages_ne_none hperm)
  | send hpc hperm hmessages hverdict => exact ⟨fun _ hmem => absurd hmem List.not_mem_nil, fun hpc => (nomatch hpc)⟩
  | @replace _ _ _ name msg hpc hperm hmessages hverdict hmsg =>
    cases msg with
    | none => exact absurd ⟨name, hreplaces, hmsg⟩ hnull
    | some msg => exact ⟨h.assign hperm, fun hpc => (nomatch hpc)⟩

theorem Intact.reads_ne_none (h : Intact s) (hstep : Pointers.step node inputs s a = some t) :
    ∀ msg ∈ reads inputs (s, a), msg ≠ none := by
  intro msg hmem
  obtain ⟨sent, replaced, -, -, heffect⟩ := exists_effect hstep
  cases heffect with
  | @receive name todo msg' hpc hmsg =>
    cases todo with
    | nil =>
      simp only [reads, hpc, hmsg] at hmem
      obtain ⟨frame, hframe, rfl⟩ := List.mem_map.1 hmem
      exact h.assign (.refl _) frame hframe
    | cons name' todo => simp [reads, hpc] at hmem
  | @threw name todo hpc hmsg =>
    cases todo with
    | nil => simp [reads, hpc, hmsg] at hmem
    | cons name' todo => simp [reads, hpc] at hmem
  | crash hpc hperm hmessages => exact absurd hmessages (h.messages_ne_none hperm)
  | send hpc hperm hmessages hverdict =>
    simp only [reads, hpc] at hmem
    obtain ⟨frame, hframe, rfl⟩ := List.mem_map.1 hmem
    exact h.frames frame (hperm.mem_iff.1 hframe)
  | replace hpc hperm hmessages hverdict hmsg =>
    simp only [reads, hpc] at hmem
    obtain ⟨frame, hframe, rfl⟩ := List.mem_map.1 hmem
    exact h.frames frame (hperm.mem_iff.1 hframe)

/-! ### Counting replacements -/

/-- The counter of the loop is the number of replacements, and stays within the limit and one more. -/
structure Counted (node : Node ι) (tr : List (State ι × Action ι)) (s : State ι) : Prop where
  receiving : ∀ todo, s.pc = .receiving todo → replacements node tr = 0
  matching : ∀ attempts, s.pc = .matching attempts → attempts = replacements node tr
  budget : ∀ k : ℕ, node.properties.syncAttempts = k → ∀ attempts, s.pc = .matching attempts →
    attempts ≤ k + 1

theorem counted_start : Counted node [] (start node) where
  receiving _ _ := rfl
  matching _ hpc := (nomatch hpc)
  budget _ _ _ hpc := (nomatch hpc)

theorem replacements_concat (node : Node ι) (tr : List (State ι × Action ι))
    (p : State ι × Action ι) : replacements node (tr ++ [p]) =
      if (sends node p).isSome then 0
      else if (replaces node p).isSome then replacements node tr + 1 else replacements node tr := by
  rw [replacements, List.foldl_append]
  rfl

theorem Counted.step {tr : List (State ι × Action ι)} (h : Counted node tr s)
    (hstep : Pointers.step node inputs s a = some t) : Counted node (tr ++ [(s, a)]) t := by
  obtain ⟨sent, replaced, hsent, hreplaced, heffect⟩ := exists_effect hstep
  have hcount := replacements_concat node tr (s, a)
  rw [hsent, hreplaced] at hcount
  cases heffect with
  | @receive name todo msg hpc hmsg =>
    have hzero := hcount.trans (h.receiving _ hpc)
    cases todo with
    | cons name' todo =>
      exact ⟨fun _ _ => hzero, fun _ hpc => (nomatch hpc), fun _ _ _ hpc => (nomatch hpc)⟩
    | nil =>
      rw [State.received_from]
      split
      · refine ⟨fun _ hpc => (nomatch hpc), fun attempts hpc => ?_, fun k hk attempts hpc => ?_⟩
        · cases hpc
          rw [hzero]
          rfl
        · cases hpc
          omega
      · exact ⟨fun _ _ => hzero, fun _ hpc => (nomatch hpc), fun _ _ _ hpc => (nomatch hpc)⟩
  | threw hpc hmsg =>
    exact ⟨fun _ hpc => (nomatch hpc), fun _ hpc => (nomatch hpc), fun _ _ _ hpc => (nomatch hpc)⟩
  | crash hpc hperm hmessages =>
    exact ⟨fun _ hpc => (nomatch hpc), fun _ hpc => (nomatch hpc), fun _ _ _ hpc => (nomatch hpc)⟩
  | send hpc hperm hmessages hverdict =>
    exact ⟨fun _ _ => hcount, fun _ hpc => (nomatch hpc), fun _ _ _ hpc => (nomatch hpc)⟩
  | @replace order attempts frames name msg hpc hperm hmessages hverdict hmsg =>
    refine ⟨fun _ hpc => (nomatch hpc), fun attempts' hpc' => ?_, fun k hk attempts' hpc' => ?_⟩
    · cases hpc'
      rw [hcount, h.matching attempts hpc]
      rfl
    · cases hpc'
      have hle := attempts_le_of_replace hverdict (by omega)
      omega

/-- What is sent is in sync or comes after as many replacements as are allowed and one more. -/
theorem Counted.inSync_or {tr : List (State ι × Action ι)} (h : Counted node tr s)
    (hstep : Pointers.step node inputs s a = some t) {k : ℕ} (hk : node.properties.syncAttempts = k)
    {outputGroup : MessageGroup ι} (hsends : sends node (s, a) = some outputGroup) :
    InSync node outputGroup ∨ replacements node tr = k + 1 := by
  obtain ⟨sent, replaced, hsent, -, heffect⟩ := exists_effect hstep
  rw [hsends] at hsent
  subst hsent
  cases heffect with
  | @send order attempts frames _ hpc hperm hmessages hverdict =>
    rcases inSync_or_of_send hverdict with ⟨hgt, -⟩ | hsync
    · have hle := h.budget k hk attempts hpc
      have heq := h.matching attempts hpc
      exact .inr (by omega)
    · exact .inl hsync

theorem counted_of_run {tr : List (State ι × Action ι)}
    (h : Run (step node inputs) (start node) tr t) : Counted node tr t := by
  induction h with
  | nil => exact counted_start
  | snoc _ hstep ih => exact ih.step hstep

/-! ### Main results -/

/-- **After a null replacement the node can only crash.** -/
theorem crashes_after_null {a' : Action ι} {u : State ι} (hstep : step node inputs s a = some t)
    (hnull : TakesNull node inputs (s, a)) (hnext : step node inputs t a' = some u) :
    u.pc = .crashed := by
  obtain ⟨name, hreplaces, hmsg⟩ := hnull
  obtain ⟨sent, replaced, -, hreplaced, heffect⟩ := exists_effect hstep
  rw [hreplaces] at hreplaced
  subst hreplaced
  cases heffect with
  | @replace order attempts frames _ msg hpc hperm hmessages hverdict hmsg' =>
    rw [hmsg] at hmsg'
    cases hmsg'
    have hnone : ∀ {order' : List (ι × Option Buffer)},
        order'.Perm (assign name none order) → messages order' = none := fun hperm' =>
      messages_eq_none_iff.2 ⟨_, hperm'.mem_iff.2 (mem_assign_self name none order), rfl⟩
    obtain ⟨sent', replaced', -, -, hnext⟩ := exists_effect hnext
    cases hnext with
    | receive hpc' => cases hpc'
    | threw hpc' => cases hpc'
    | crash => rfl
    | send _ hperm' hmessages' =>
      rw [hnone hperm'] at hmessages'
      cases hmessages'
    | replace _ hperm' hmessages' =>
      rw [hnone hperm'] at hmessages'
      cases hmessages'

/-- **Without a null replacement every time stamp that is read is that of a message, and every group
is in sync or sent after as many replacements as are allowed and one more.** -/
theorem run_reads_messages {tr : List (State ι × Action ι)}
    (h : Run (step node inputs) (start node) tr t) (hnull : ∀ p ∈ tr, ¬TakesNull node inputs p) :
    t.pc ≠ .crashed ∧ ∀ before p after, tr = before ++ p :: after →
      (∀ msg ∈ reads inputs p, msg ≠ none) ∧
        ∀ k : ℕ, node.properties.syncAttempts = k → ∀ outputGroup, sends node p = some outputGroup →
          InSync node outputGroup ∨ replacements node before = k + 1 := by
  have hintact : ∀ {tr s}, Run (step node inputs) (start node) tr s →
      (∀ p ∈ tr, ¬TakesNull node inputs p) → Intact s := fun hrun hnull =>
    hrun.invariant_of_forall (G := fun s a => ¬TakesNull node inputs (s, a))
      (fun _ _ _ hnull hs hstep => hs.step hstep hnull) hnull intact_start
  refine ⟨(hintact h hnull).pc, ?_⟩
  rintro before p after rfl
  obtain ⟨hbefore, u, hstep, -⟩ := h.split
  have hs := hintact hbefore fun q hq => hnull q (List.mem_append_left _ hq)
  exact ⟨hs.reads_ne_none hstep, fun k hk outputGroup hsends =>
    (counted_of_run hbefore).inSync_or hstep hk hsends⟩

/-! ### Two inputs -/

/-- The first input has a message and then `second`, the other a message 25 ns later. -/
def twoInputs (second : Option Buffer) : Inputs (Fin 2) := fun i =>
  if i = 0 then .ofList [some ⟨0, 0, 0⟩, second] else .ofList [some ⟨25, 0, 0⟩]

/-- A node with a threshold of 10 ns and one attempt. -/
def oneAttempt : Node (Fin 2) :=
  ⟨[0, 1], { syncThresholdNs := 10, syncAttempts := 1 }, zero_one_ne_nil, nodup_zero_one⟩

/-- The node takes a message from each input and replaces the older one. -/
def replacing : List (Action (Fin 2)) :=
  [.receive, .receive, .attempt [(0, some ⟨0, 0, 0⟩), (1, some ⟨25, 0, 0⟩)]]

theorem run_reads_messages_replacing :
    ∃ tr s, Run (step oneAttempt (twoInputs (some ⟨20, 1, 1⟩))) (start oneAttempt) tr s ∧
      (∀ p ∈ tr, ¬TakesNull oneAttempt (twoInputs (some ⟨20, 1, 1⟩)) p) ∧ s.pc ≠ .crashed := by
  have hsome : (exec (step oneAttempt (twoInputs (some ⟨20, 1, 1⟩))) (start oneAttempt)
    (replacing ++ [.attempt [(0, some ⟨20, 1, 1⟩), (1, some ⟨25, 0, 0⟩)]])).isSome := by rfl
  have hnull : ∀ p ∈ ((exec (step oneAttempt (twoInputs (some ⟨20, 1, 1⟩))) (start oneAttempt)
      (replacing ++ [.attempt [(0, some ⟨20, 1, 1⟩), (1, some ⟨25, 0, 0⟩)]])).get hsome).1,
      ¬TakesNull oneAttempt (twoInputs (some ⟨20, 1, 1⟩)) p := by decide +revert
  have hrun := Run.of_isSome hsome
  exact ⟨_, _, hrun, hnull, (run_reads_messages hrun hnull).1⟩

/-- **A null pointer in place of the second message is dereferenced.** -/
theorem not_run_reads_messages :
    ∃ tr s, Run (step oneAttempt (twoInputs none)) (start oneAttempt) tr s ∧ s.pc = .crashed :=
  ⟨_, _, Run.of_isSome (show (exec (step oneAttempt (twoInputs none)) (start oneAttempt)
    (replacing ++ [.attempt [(0, none), (1, some ⟨25, 0, 0⟩)]])).isSome by rfl), by rfl⟩

end Pointers

end Sync

end DepthaiCore
