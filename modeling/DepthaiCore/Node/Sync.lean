import DepthaiCore.Lib.Runs
import Mathlib.Data.List.Nodup
import Mathlib.Data.List.Perm.Basic
import Mathlib.Data.Seq.Defs
import Mathlib.Order.MinMax

/-!
# The `Sync` node

`Sync` collects one message from each of its inputs and sends them on as a group. It first takes a
message from every input. As long as the time stamps of the messages in hand are too far apart, it
replaces the oldest one by the next message of the same input. The messages in hand are kept in an
`unordered_map`; its iteration order decides which of several oldest messages is replaced, and from
which message the search for the newest one starts.

An input is a finite or infinite sequence of messages. A thread that calls `get` on an input that
has ended waits for good, so the node has no step there. The messages are ones that derive from
`Buffer`, of which the node reads the three fields below; logging and the events of the pipeline do
not matter here.
-/

namespace DepthaiCore

namespace Sync

variable {ι : Type*}

/-- The fields of a message that the node reads, in nanoseconds where they are times. -/
structure Buffer where
  timestamp : ℤ
  timestampDevice : ℤ
  sequenceNum : ℤ
  deriving DecidableEq, Repr

structure SyncProperties where
  syncThresholdNs : ℤ := 10000000
  syncAttempts : ℤ := -1
  deriving DecidableEq, Repr

/-- The `MessageGroup` that is sent. -/
structure MessageGroup (ι : Type*) where
  group : List (ι × Buffer)
  timestamp : ℤ
  timestampDevice : ℤ
  sequenceNum : ℤ
  deriving DecidableEq, Repr

/-- The group carries the time stamps and the sequence number of message `msg`. -/
def MessageGroup.HasHeader (g : MessageGroup ι) (msg : Buffer) : Prop :=
  g.timestamp = msg.timestamp ∧ g.timestampDevice = msg.timestampDevice ∧
    g.sequenceNum = msg.sequenceNum

/-- A `Sync` node. Without inputs `run` throws at once. -/
structure Node (ι : Type*) where
  inputNames : List ι
  properties : SyncProperties := {}
  inputNames_ne_nil : inputNames ≠ []
  nodup_inputNames : inputNames.Nodup

theorem zero_one_ne_nil : [(0 : Fin 2), 1] ≠ [] := by decide

theorem nodup_zero_one : [(0 : Fin 2), 1].Nodup := by decide

/-! ### Loops over the messages in hand -/

/-- `inputFrames[name] = msg` -/
def assign [DecidableEq ι] (name : ι) (msg : Buffer) : List (ι × Buffer) → List (ι × Buffer)
  | [] => [(name, msg)]
  | frame :: frames =>
    if frame.1 = name then (name, msg) :: frames else frame :: assign name msg frames

/-- The loop that starts from the time stamp `first` and moves on to any that is `better`. -/
def extremeTs (better : ℤ → ℤ → Prop) [DecidableRel better] (frames : List (ι × Buffer))
    (first : ℤ) : ℤ :=
  frames.foldl (fun m frame => if better frame.2.timestamp m then frame.2.timestamp else m) first

def minTs (frames : List (ι × Buffer)) (first : ℤ) : ℤ := extremeTs (· < ·) frames first

def maxTs (frames : List (ι × Buffer)) (first : ℤ) : ℤ := extremeTs (· > ·) frames first

/-- The newest of the messages of the inputs `names`, starting from `first`. -/
def newestFrame [DecidableEq ι] (frames : List (ι × Buffer)) (first : Buffer) (names : List ι) :
    Buffer :=
  names.foldl (fun newest name =>
    match frames.lookup name with
    | some msg => if msg.timestamp > newest.timestamp then msg else newest
    | none => newest) first

/-- The group made of the messages in hand; `first` is that of `inputFrames.begin()`. -/
def outputGroup [DecidableEq ι] (names : List ι) (frames : List (ι × Buffer)) (first : Buffer) :
    MessageGroup ι where
  group := names.filterMap fun name => (frames.lookup name).map fun msg => (name, msg)
  timestamp := (newestFrame frames first names).timestamp
  timestampDevice := (newestFrame frames first names).timestampDevice
  sequenceNum := (newestFrame frames first names).sequenceNum

/-- What a pass of the matching loop decides. -/
inductive Verdict (ι : Type*)
  /-- The loop is left and the group sent. -/
  | send (outputGroup : MessageGroup ι)
  /-- The message of this input is replaced. -/
  | replace (minTsName : ι)
  deriving DecidableEq, Repr

/-- One pass of the matching loop over the messages in hand, in iteration order. -/
def Node.verdict [DecidableEq ι] (node : Node ι) (attempts : ℤ) (frames : List (ι × Buffer)) :
    Option (Verdict ι) :=
  match frames with
  | [] => none
  | (_, first) :: _ =>
    if attempts > node.properties.syncAttempts ∧ node.properties.syncAttempts ≠ -1 then
      some (.send (outputGroup node.inputNames frames first))
    else if maxTs frames first.timestamp - minTs frames first.timestamp <
        node.properties.syncThresholdNs then
      some (.send (outputGroup node.inputNames frames first))
    else
      (frames.find? fun frame => frame.2.timestamp = minTs frames first.timestamp).map fun frame =>
        .replace frame.1

/-! ### The node at work -/

/-- Where the node is in its loop. -/
inductive Pc (ι : Type*)
  /-- It has yet to take a message from each of `todo`. -/
  | receiving (todo : List ι)
  /-- It is in the matching loop. -/
  | matching (attempts : ℤ)
  deriving DecidableEq, Repr

/-- The node has `todo` left to receive from. -/
def Pc.receive : List ι → Pc ι
  | [] => .matching 0
  | name :: todo => .receiving (name :: todo)

/-- The state of the node and its inputs. -/
structure State (ι : Type*) where
  /-- How many messages have been taken from each input. -/
  received : ι → ℕ
  /-- The messages in hand. -/
  inputFrames : List (ι × Buffer)
  pc : Pc ι

/-- The steps of the node. -/
inductive Action (ι : Type*)
  /-- It takes a message from the next input. -/
  | receive
  /-- It makes a pass of the matching loop, with the messages in hand in this order. -/
  | attempt (order : List (ι × Buffer))
  deriving DecidableEq

/-- The messages that arrive at each input, in order. -/
abbrev Inputs (ι : Type*) := ι → Stream'.Seq Buffer

/-- The node before it has taken anything. -/
def Node.start (node : Node ι) : State ι where
  received _ := 0
  inputFrames := []
  pc := .receive node.inputNames

section Steps

variable [DecidableEq ι]

/-- The decision of a pass that iterates over the messages in hand in this order. -/
def Node.decision (node : Node ι) (s : State ι) (order : List (ι × Buffer)) :
    Option (Verdict ι) :=
  match s.pc with
  | .matching attempts => if order.Perm s.inputFrames then node.verdict attempts order else none
  | .receiving _ => none

/-- The state after message `msg` of input `name` has been taken into the messages in hand. -/
def State.took (s : State ι) (name : ι) (msg : Buffer) (order : List (ι × Buffer)) (pc : Pc ι) :
    State ι where
  received := Function.update s.received name (s.received name + 1)
  inputFrames := assign name msg order
  pc := pc

/-- The state after the messages in hand have been sent. -/
def Node.sent (node : Node ι) (s : State ι) : State ι where
  received := s.received
  inputFrames := []
  pc := .receive node.inputNames

/-- `inputFrames[name] = inputs[name].get()`, with the messages in hand in this order. -/
def State.get (s : State ι) (inputs : Inputs ι) (name : ι) (order : List (ι × Buffer)) (pc : Pc ι) :
    Option (State ι) :=
  ((inputs name).get? (s.received name)).map fun msg => s.took name msg order pc

/-- One step of the node. -/
def Node.step (node : Node ι) (inputs : Inputs ι) (s : State ι) : Action ι → Option (State ι)
  | .receive =>
    match s.pc with
    | .receiving (name :: todo) => s.get inputs name s.inputFrames (.receive todo)
    | _ => none
  | .attempt order =>
    match s.pc, node.decision s order with
    | _, some (.send _) => some (node.sent s)
    | .matching attempts, some (.replace name) => s.get inputs name order (.matching (attempts + 1))
    | _, _ => none

/-- The group that a step sends. -/
def Node.sends (node : Node ι) (p : State ι × Action ι) : Option (MessageGroup ι) :=
  match p.2 with
  | .receive => none
  | .attempt order =>
    match node.decision p.1 order with
    | some (.send outputGroup) => some outputGroup
    | _ => none

/-- The input whose message a step throws away. -/
def Node.drops (node : Node ι) (p : State ι × Action ι) : Option ι :=
  match p.2 with
  | .receive => none
  | .attempt order =>
    match node.decision p.1 order with
    | some (.replace name) => some name
    | _ => none

/-- The input a step calls `get` on. -/
def Node.gets (node : Node ι) (p : State ι × Action ι) : Option ι :=
  match p.2, p.1.pc with
  | .receive, .receiving (name :: _) => some name
  | .receive, _ => none
  | .attempt _, _ => node.drops p

end Steps

/-! ### What the loops compute -/

/-- The loop ends at one of the stamps, and none is better. -/
theorem extremeTs_spec {better : ℤ → ℤ → Prop} [DecidableRel better]
    (hasymm : ∀ a b, better a b → ¬ better b a)
    (htrans : ∀ a b c, ¬ better b a → ¬ better c b → ¬ better c a)
    (frames : List (ι × Buffer)) (first : ℤ) :
    ¬ better first (extremeTs better frames first) ∧
      (∀ frame ∈ frames, ¬ better frame.2.timestamp (extremeTs better frames first)) ∧
      (extremeTs better frames first = first ∨
        ∃ frame ∈ frames, frame.2.timestamp = extremeTs better frames first) := by
  have hirrefl : ∀ a, ¬ better a a := fun a h => hasymm a a h h
  induction frames generalizing first with
  | nil => exact ⟨hirrefl _, by simp, .inl rfl⟩
  | cons frame frames ih =>
    have hcons : extremeTs better (frame :: frames) first = extremeTs better frames
        (if better frame.2.timestamp first then frame.2.timestamp else first) := rfl
    rw [hcons]
    by_cases h : better frame.2.timestamp first
    · rw [if_pos h]
      obtain ⟨hstart, hall, hend⟩ := ih frame.2.timestamp
      refine ⟨htrans _ _ _ hstart (hasymm _ _ h), fun frame' hmem => ?_, .inr ?_⟩
      · rcases List.mem_cons.mp hmem with rfl | hmem
        · exact hstart
        · exact hall frame' hmem
      · rcases hend with hend | ⟨frame', hmem, hend⟩
        · exact ⟨frame, List.mem_cons_self, hend.symm⟩
        · exact ⟨frame', List.mem_cons_of_mem _ hmem, hend⟩
    · rw [if_neg h]
      obtain ⟨hstart, hall, hend⟩ := ih first
      refine ⟨hstart, fun frame' hmem => ?_, hend.imp_right fun ⟨frame', hmem, hend⟩ =>
        ⟨frame', List.mem_cons_of_mem _ hmem, hend⟩⟩
      rcases List.mem_cons.mp hmem with rfl | hmem
      · exact htrans _ _ _ hstart h
      · exact hall frame' hmem

section Loops

variable {frames : List (ι × Buffer)} {frame : ι × Buffer}

/-- The start of the loop is one of the messages in hand, so its end is the stamp of one. -/
theorem exists_eq_minTs (h : frame ∈ frames) :
    (∃ oldest ∈ frames, oldest.2.timestamp = minTs frames frame.2.timestamp) ∧
      ∀ frame' ∈ frames, minTs frames frame.2.timestamp ≤ frame'.2.timestamp := by
  obtain ⟨-, hall, hend⟩ := extremeTs_spec (fun a b (_ : a < b) => by omega)
    (fun a b c _ _ => by omega) frames frame.2.timestamp
  exact ⟨hend.elim (fun hend => ⟨frame, h, hend.symm⟩) id, fun frame' hmem =>
    Int.not_lt.mp (hall frame' hmem)⟩

theorem exists_eq_maxTs (h : frame ∈ frames) :
    (∃ newest ∈ frames, newest.2.timestamp = maxTs frames frame.2.timestamp) ∧
      ∀ frame' ∈ frames, frame'.2.timestamp ≤ maxTs frames frame.2.timestamp := by
  obtain ⟨-, hall, hend⟩ := extremeTs_spec (fun a b (_ : a > b) => by omega)
    (fun a b c _ _ => by omega) frames frame.2.timestamp
  exact ⟨hend.elim (fun hend => ⟨frame, h, hend.symm⟩) id, fun frame' hmem =>
    Int.not_lt.mp (hall frame' hmem)⟩

end Loops

section Frames

variable [DecidableEq ι] {frames : List (ι × Buffer)} {first msg : Buffer} {name : ι}

/-- An entry for a new name is added at the end; one for a name in use is replaced in place. -/
theorem map_fst_assign : (assign name msg frames).map Prod.fst =
    if name ∈ frames.map Prod.fst then frames.map Prod.fst else frames.map Prod.fst ++ [name] := by
  induction frames with
  | nil => simp [assign]
  | cons frame frames ih =>
    by_cases h : frame.1 = name
    · simp [assign, h]
    · have h' : ¬ name = frame.1 := fun heq => h heq.symm
      simp only [assign, if_neg h, List.map_cons, ih, List.mem_cons, h', false_or]
      split <;> rfl

theorem mem_assign (hnodup : (frames.map Prod.fst).Nodup) {frame : ι × Buffer} :
    frame ∈ assign name msg frames ↔
      frame = (name, msg) ∨ frame.1 ≠ name ∧ frame ∈ frames := by
  induction frames with
  | nil => simp [assign]
  | cons frame' frames ih =>
    rw [List.map_cons, List.nodup_cons] at hnodup
    by_cases h : frame'.1 = name
    · have hne : ∀ frame ∈ frames, frame.1 ≠ name := fun frame hmem heq =>
        hnodup.1 (h.trans heq.symm ▸ List.mem_map_of_mem hmem)
      simp only [assign, if_pos h, List.mem_cons]
      refine or_congr_right ⟨fun hmem => ⟨hne frame hmem, .inr hmem⟩, ?_⟩
      rintro ⟨hfst, rfl | hmem⟩
      · exact absurd h hfst
      · exact hmem
    · simp only [assign, if_neg h, List.mem_cons, ih hnodup.2]
      constructor
      · rintro (rfl | hmsg | ⟨hfst, hmem⟩)
        · exact .inr ⟨h, .inl rfl⟩
        · exact .inl hmsg
        · exact .inr ⟨hfst, .inr hmem⟩
      · rintro (hmsg | ⟨hfst, rfl | hmem⟩)
        · exact .inr (.inl hmsg)
        · exact .inl rfl
        · exact .inr (.inr ⟨hfst, hmem⟩)

theorem lookup_eq_some_iff (hnodup : (frames.map Prod.fst).Nodup) :
    frames.lookup name = some msg ↔ (name, msg) ∈ frames := by
  induction frames with
  | nil => simp
  | cons frame frames ih =>
    rw [List.map_cons, List.nodup_cons] at hnodup
    rw [List.lookup_cons]
    by_cases h : name = frame.1
    · have hne : (name, msg) ∉ frames := fun hmem => hnodup.1 (h ▸ List.mem_map_of_mem hmem)
      subst h
      simp [hne, Prod.ext_iff, eq_comm]
    · have hne : (name == frame.1) = false := by simpa using h
      rw [hne, List.mem_cons, ← ih hnodup.2]
      simp [Prod.ext_iff, h]

/-- The newest message of the group is one of the messages in hand, and none is newer. -/
theorem newestFrame_spec (hnodup : (frames.map Prod.fst).Nodup) (names : List ι)
    (first : Buffer) :
    (newestFrame frames first names = first ∨
        ∃ name ∈ names, (name, newestFrame frames first names) ∈ frames) ∧
      first.timestamp ≤ (newestFrame frames first names).timestamp ∧
      ∀ name ∈ names, ∀ msg, (name, msg) ∈ frames →
        msg.timestamp ≤ (newestFrame frames first names).timestamp := by
  induction names generalizing first with
  | nil => exact ⟨.inl rfl, le_refl _, by simp⟩
  | cons name names ih =>
    have hcons : newestFrame frames first (name :: names) = newestFrame frames
        (match frames.lookup name with
        | some msg => if msg.timestamp > first.timestamp then msg else first
        | none => first) names := rfl
    rw [hcons]
    cases hlookup : frames.lookup name with
    | none =>
      obtain ⟨hend, hfirst, hall⟩ := ih first
      refine ⟨hend.imp_right fun ⟨name', hname', hmem⟩ =>
        ⟨name', List.mem_cons_of_mem _ hname', hmem⟩, hfirst, fun name' hname' msg hmem => ?_⟩
      rcases List.mem_cons.mp hname' with rfl | hname'
      · rw [← lookup_eq_some_iff hnodup, hlookup] at hmem
        cases hmem
      · exact hall name' hname' msg hmem
    | some msg =>
      have hin := (lookup_eq_some_iff hnodup).mp hlookup
      have hunique : ∀ msg', (name, msg') ∈ frames → msg' = msg := fun msg' hmem => by
        rw [← lookup_eq_some_iff hnodup, hlookup] at hmem
        exact (Option.some.inj hmem).symm
      by_cases hnewer : msg.timestamp > first.timestamp
      · simp only [if_pos hnewer]
        obtain ⟨hend, hfirst, hall⟩ := ih msg
        refine ⟨.inr ?_, by omega, fun name' hname' msg' hmem => ?_⟩
        · rcases hend with hend | ⟨name', hname', hmem⟩
          · exact ⟨name, List.mem_cons_self, by rw [hend]; exact hin⟩
          · exact ⟨name', List.mem_cons_of_mem _ hname', hmem⟩
        · rcases List.mem_cons.mp hname' with rfl | hname'
          · rw [hunique msg' hmem]
            exact hfirst
          · exact hall name' hname' msg' hmem
      · simp only [if_neg hnewer]
        obtain ⟨hend, hfirst, hall⟩ := ih first
        refine ⟨hend.imp_right fun ⟨name', hname', hmem⟩ =>
          ⟨name', List.mem_cons_of_mem _ hname', hmem⟩, hfirst, fun name' hname' msg' hmem => ?_⟩
        rcases List.mem_cons.mp hname' with rfl | hname'
        · rw [hunique msg' hmem]
          omega
        · exact hall name' hname' msg' hmem

end Frames

/-! ### What a pass decides -/

section Verdicts

variable [DecidableEq ι] {node : Node ι} {attempts : ℤ} {frames : List (ι × Buffer)}

/-- Without a limit on the attempts, a group is sent only when any two messages in hand are close
enough. -/
theorem Node.sub_lt_of_send {outputGroup' : MessageGroup ι}
    (hattempts : node.properties.syncAttempts = -1)
    (h : node.verdict attempts frames = some (.send outputGroup')) :
    (∃ first ∈ frames, outputGroup' = outputGroup node.inputNames frames first.2) ∧
      ∀ x ∈ frames, ∀ y ∈ frames,
        x.2.timestamp - y.2.timestamp < node.properties.syncThresholdNs := by
  cases frames with
  | nil => cases h
  | cons first frames =>
    simp only [Node.verdict, hattempts, ne_eq, not_true_eq_false, and_false, if_false] at h
    split at h
    case isTrue hlt =>
      simp only [Option.some.injEq, Verdict.send.injEq] at h
      refine ⟨⟨first, List.mem_cons_self, h.symm⟩, fun x hx y hy => ?_⟩
      have hmax := (exists_eq_maxTs (List.mem_cons_self : first ∈ first :: frames)).2 x hx
      have hmin := (exists_eq_minTs (List.mem_cons_self : first ∈ first :: frames)).2 y hy
      omega
    case isFalse => simp at h

/-- A message is replaced only when it is an oldest one, and some message in hand is too far away
from it. -/
theorem Node.oldest_of_replace {name : ι}
    (h : node.verdict attempts frames = some (.replace name)) :
    ∃ oldest newest, (name, oldest) ∈ frames ∧ newest ∈ frames ∧
      node.properties.syncThresholdNs ≤ newest.2.timestamp - oldest.timestamp := by
  cases frames with
  | nil => cases h
  | cons first frames =>
    simp only [Node.verdict] at h
    split at h
    case isTrue => simp at h
    case isFalse =>
      split at h
      case isTrue => simp at h
      case isFalse hge =>
        obtain ⟨⟨name', oldest⟩, hfind, hname⟩ := Option.map_eq_some_iff.mp h
        obtain rfl : name' = name := by simpa using hname
        obtain ⟨newest, hnewest, hmax⟩ := (exists_eq_maxTs (List.mem_cons_self : first ∈ first :: frames)).1
        have holdest : oldest.timestamp = minTs (first :: frames) first.2.timestamp := by
          simpa using List.find?_some hfind
        exact ⟨oldest, newest, List.mem_of_find?_eq_some hfind, hnewest, by omega⟩

theorem Node.verdict_isSome (hne : frames ≠ []) : (node.verdict attempts frames).isSome := by
  cases frames with
  | nil => exact absurd rfl hne
  | cons first frames =>
    simp only [Node.verdict]
    split
    · rfl
    · split
      · rfl
      · obtain ⟨oldest, hmem, hmin⟩ := (exists_eq_minTs (List.mem_cons_self : first ∈ first :: frames)).1
        rw [Option.isSome_map, List.find?_isSome]
        exact ⟨oldest, hmem, by simpa using hmin⟩

/-! ### What a step can do -/

/-- The possible steps of the node, with the group sent, the input whose message is thrown away, and
the input a message is taken from. -/
inductive Node.Effect (node : Node ι) (inputs : Inputs ι) (s : State ι) :
    Action ι → Option (MessageGroup ι) → Option ι → Option ι → State ι → Prop
  | receive {name : ι} {todo : List ι} {msg : Buffer} (hpc : s.pc = .receiving (name :: todo))
      (hmsg : (inputs name).get? (s.received name) = some msg) :
      Effect node inputs s .receive none none (some name)
        (s.took name msg s.inputFrames (.receive todo))
  | send {order : List (ι × Buffer)} {attempts : ℤ} {outputGroup : MessageGroup ι}
      (hpc : s.pc = .matching attempts) (hperm : order.Perm s.inputFrames)
      (hverdict : node.verdict attempts order = some (.send outputGroup)) :
      Effect node inputs s (.attempt order) (some outputGroup) none none (node.sent s)
  | replace {order : List (ι × Buffer)} {attempts : ℤ} {name : ι} {msg : Buffer}
      (hpc : s.pc = .matching attempts) (hperm : order.Perm s.inputFrames)
      (hverdict : node.verdict attempts order = some (.replace name))
      (hmsg : (inputs name).get? (s.received name) = some msg) :
      Effect node inputs s (.attempt order) none (some name) (some name)
        (s.took name msg order (.matching (attempts + 1)))

/-- **The case analysis of a step.** The node takes a message from the next input, sends the
messages in hand, or replaces one of them. -/
theorem Node.step_effect {inputs : Inputs ι} {s t : State ι} {a : Action ι}
    (h : node.step inputs s a = some t) :
    node.Effect inputs s a (node.sends (s, a)) (node.drops (s, a)) (node.gets (s, a)) t := by
  cases a with
  | receive =>
    simp only [Node.step] at h
    split at h
    case h_1 name todo hpc =>
      obtain ⟨msg, hmsg, rfl⟩ := Option.map_eq_some_iff.mp h
      have hgets : node.gets (s, .receive) = some name := by simp only [Node.gets, hpc]
      rw [hgets]
      exact .receive hpc hmsg
    case h_2 => cases h
  | attempt order =>
    cases hpc : s.pc with
    | receiving todo => simp [Node.step, Node.decision, hpc] at h
    | matching attempts =>
      by_cases hperm : order.Perm s.inputFrames
      · have hdecision : node.decision s order = node.verdict attempts order := by
          simp only [Node.decision, hpc, if_pos hperm]
        simp only [Node.step, hdecision, hpc] at h
        split at h
        case h_1 outputGroup hverdict =>
          cases h
          simp only [Node.sends, Node.gets, Node.drops, hdecision, hverdict]
          exact .send hpc hperm hverdict
        case h_2 attempts' name hattempts hverdict =>
          cases hattempts
          obtain ⟨msg, hmsg, rfl⟩ := Option.map_eq_some_iff.mp h
          simp only [Node.sends, Node.gets, Node.drops, hdecision, hverdict]
          exact .replace hpc hperm hverdict hmsg
        case h_3 => cases h
      · simp [Node.step, Node.decision, hpc, hperm] at h

end Verdicts

end Sync

end DepthaiCore
