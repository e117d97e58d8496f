import DepthaiCore.Lib.Numerals
import DepthaiCore.Pipeline.BuildBridges
import DepthaiCore.Pipeline.ConnectionHistory

/-!
# The graph before and after `build`

`build` should leave the flow of messages as it was: what an output sends arrives at the inputs and
queues at which it arrived before, on one way each, directly or over one stream. No connection joins
a host node to a device node any more.

The loops see the connections that `getConnectionsInternal` returns. It files them under the ids of
the nodes, so of two nodes with one id it returns the connections of one only. Such nodes can be in
a pipeline: those that were attached below a node of the pipeline have no id. A crossing connection
that is not returned stays.
-/

open scoped Numerals

namespace DepthaiCore

variable {N O I P Q : Type*}

/-! ### Ways -/

/-- What the output sends arrives at the input, or in the queue. -/
def PipelineImpl.Pair (G : Ports N O I) (s : PipelineImpl N O I P) (queueConnections : O → List Q)
    (out : O) : I ⊕ Q → Prop
  | .inl input => s.Joined ⟨out, input⟩
  | .inr queue => G.outNode out ∈ s.getAllNodes ∧ queue ∈ queueConnections out

namespace BuildState

/-- The output is linked to the input, or to the queue. -/
def Reaches (G : Ports N O I) (b : BuildState N O I P Q) (out : BuildOutput O I) : I ⊕ Q → Prop
  | .inl input => b.pipeline.Joined ⟨out, .given input⟩
  | .inr queue =>
    G.withBridges.outNode out ∈ b.pipeline.getAllNodes ∧ queue ∈ b.queueConnections out

/-- A way from an output: directly, or over the stream between the nodes of two bridges. -/
inductive Route (O I : Type*)
  | direct
  | stream (sender receiver : XLinkNode) (first second : Port O I)

/-- Messages go from nodes of the first kind to nodes of the second. -/
def isStream : XLinkNode → XLinkNode → Bool
  | .XLinkOut, .XLinkInHost => true
  | .XLinkOutHost, .XLinkIn => true
  | _, _ => false

/-- The way leads from the output to the input or queue. A stream leads to a node that has the same
stream name. -/
def Route.Joins (G : Ports N O I) (b : BuildState N O I P Q) (out : O) (target : I ⊕ Q) :
    Route O I → Prop
  | .direct => b.Reaches G (.given out) target
  | .stream sender receiver first second => isStream sender receiver ∧
      b.streamName (.created sender first) = b.streamName (.created receiver second) ∧
        b.pipeline.Joined ⟨.given out, .created sender first⟩ ∧
          b.Reaches G (.created receiver second) target

/-- A connection or a queue needs the bridge of the port. -/
def Crosses (G : Ports N O I) (runOnHost : N → Bool) (s : PipelineImpl N O I P)
    (queueConnections : O → List Q) (p : Port O I) : Prop :=
  (∃ c, s.Joined c ∧ G.crossing runOnHost c = some p) ∨
    ∃ q, Device G runOnHost s queueConnections q ∧ p = .output q.1

/-- The ids of the two nodes of a bridge, as they are noted in `xlinkBridges`. -/
def bridgeIds (b : BuildState N O I P Q) (sender receiver : XLinkNode) (p : Port O I) : ℤ × ℤ :=
  (b.pipeline.id (.created sender p), b.pipeline.id (.created receiver p))

/-- **The flow is what it was.** -/
structure Bridged (G : Ports N O I) (runOnHost : N → Bool) (s : PipelineImpl N O I P)
    (queueConnections : O → List Q) (b : BuildState N O I P Q) : Prop where
  /-- No connection joins a host node and a device node. -/
  sides : ∀ c, b.pipeline.Joined c → (G.withBridges.outNode c.out).runOnHost runOnHost =
    (G.withBridges.inNode c.input).runOnHost runOnHost
  /-- Queues are on the host. -/
  queueSides : ∀ out queue, b.Reaches G out (.inr queue) →
    (G.withBridges.outNode out).runOnHost runOnHost = true
  /-- An output, and an input or queue, are joined by one way if they were joined, and otherwise by
  none. -/
  joins : ∀ out target, s.Pair G queueConnections out target →
    ∃! route, Route.Joins G b out target route
  joined : ∀ out target route, Route.Joins G b out target route → s.Pair G queueConnections out target
  /-- Nothing that was on one side differs. -/
  kept : ∀ c, G.crossing runOnHost c = none → (b.pipeline.Joined c.given ↔ s.Joined c)
  queueKept : ∀ out queue, runOnHost (G.outNode out) = true →
    (b.Reaches G (.given out) (.inr queue) ↔ s.Pair G queueConnections out (.inr queue))
  /-- An output that crosses has one bridge, and it is noted once. -/
  outgoing : ∀ out, Crosses G runOnHost s queueConnections (.output out) →
    ∃ p, (∀ p', b.pipeline.Joined ⟨.given out, .created .XLinkOut p'⟩ ↔ p' = p) ∧
      b.xlinkBridges.count (b.bridgeIds .XLinkOut .XLinkInHost p) = 1
  /-- So has an input. -/
  incoming : ∀ input, Crosses G runOnHost s queueConnections (.input input) →
    ∃ p, (∀ p', b.pipeline.Joined ⟨.created .XLinkIn p', .given input⟩ ↔ p' = p) ∧
      b.xlinkBridges.count (b.bridgeIds .XLinkOutHost .XLinkIn p) = 1

/-! ### What the loops leave -/

section Laid

variable [DecidableEq N] [DecidableEq O] [DecidableEq I]
variable {G : Ports N O I} {runOnHost : N → Bool} {s : PipelineImpl N O I P}
  {queueConnections : O → List Q} {order : List (ConnectionInternal O I)} {moved : List (O × Q)}
  {b : BuildState N O I P Q} (h : b.Laid G runOnHost s queueConnections order moved)

include h

theorem Laid.joined_given {c : ConnectionInternal O I} :
    b.pipeline.Joined c.given ↔
      s.Joined c ∧ ¬(c ∈ order ∧ G.crossing runOnHost c ≠ none) := by
  rw [h.joined]
  constructor
  · rintro (⟨c₀, hc₀, heq, hleft⟩ | ⟨p, -, heq | ⟨c₀, -, -, heq⟩⟩)
    · obtain rfl := ConnectionInternal.given_inj.1 heq
      exact ⟨hc₀, hleft⟩
    · exact absurd heq.symm (p.own_ne_given c)
    · exact absurd heq.symm (p.moved_ne_given c₀ c)
  · rintro ⟨hc, hleft⟩
    exact .inl ⟨c, hc, rfl, hleft⟩

/-- An output is linked to its own bridge, if it has one. -/
theorem Laid.joined_XLinkOut {out : O} {p : Port O I} :
    b.pipeline.Joined ⟨.given out, .created .XLinkOut p⟩ ↔ p = .output out ∧ p ∈ b.bridges := by
  rw [h.joined]
  constructor
  · rintro (⟨c₀, -, heq, -⟩ | ⟨p' | p', hp', heq | ⟨c₀, -, -, heq⟩⟩)
    all_goals simp [ConnectionInternal.given, Port.own, Port.moved] at heq
    obtain ⟨rfl, rfl⟩ := heq
    exact ⟨rfl, hp'⟩
  · rintro ⟨rfl, hp⟩
    exact .inr ⟨_, hp, .inl rfl⟩

/-- And it is linked to the bridges of the inputs that its connections crossed to. -/
theorem Laid.joined_XLinkOutHost {out : O} {p : Port O I} :
    b.pipeline.Joined ⟨.given out, .created .XLinkOutHost p⟩ ↔
      ∃ input, p = .input input ∧ ⟨out, input⟩ ∈ order ∧
        G.crossing runOnHost ⟨out, input⟩ = some p := by
  rw [h.joined]
  constructor
  · rintro (⟨c₀, -, heq, -⟩ | ⟨p' | p', hp', heq | ⟨c₀, hc₀, hcross, heq⟩⟩)
    all_goals simp [ConnectionInternal.given, Port.own, Port.moved] at heq
    obtain ⟨rfl, rfl⟩ := heq
    obtain ⟨rfl, -⟩ := Ports.crossing_eq_input.1 hcross
    exact ⟨_, rfl, hc₀, hcross⟩
  · rintro ⟨input, rfl, hc, hcross⟩
    exact .inr ⟨_, h.done_bridges _ hc _ hcross, .inr ⟨_, hc, hcross, rfl⟩⟩

theorem Laid.joined_XLinkIn {input : I} {p : Port O I} :
    b.pipeline.Joined ⟨.created .XLinkIn p, .given input⟩ ↔ p = .input input ∧ p ∈ b.bridges := by
  rw [h.joined]
  constructor
  · rintro (⟨c₀, -, heq, -⟩ | ⟨p' | p', hp', heq | ⟨c₀, -, -, heq⟩⟩)
    all_goals simp [ConnectionInternal.given, Port.own, Port.moved] at heq
    obtain ⟨rfl, rfl⟩ := heq
    exact ⟨rfl, hp'⟩
  · rintro ⟨rfl, hp⟩
    exact .inr ⟨_, hp, .inl rfl⟩

theorem Laid.joined_XLinkInHost {input : I} {p : Port O I} :
    b.pipeline.Joined ⟨.created .XLinkInHost p, .given input⟩ ↔
      ∃ out, p = .output out ∧ ⟨out, input⟩ ∈ order ∧
        G.crossing runOnHost ⟨out, input⟩ = some p := by
  rw [h.joined]
  constructor
  · rintro (⟨c₀, -, heq, -⟩ | ⟨p' | p', hp', heq | ⟨c₀, hc₀, hcross, heq⟩⟩)
    all_goals simp [ConnectionInternal.given, Port.own, Port.moved] at heq
    obtain ⟨rfl, rfl⟩ := heq
    obtain ⟨rfl, -⟩ := Ports.crossing_eq_output.1 hcross
    exact ⟨_, rfl, hc₀, hcross⟩
  · rintro ⟨out, rfl, hc, hcross⟩
    exact .inr ⟨_, h.done_bridges _ hc _ hcross, .inr ⟨_, hc, hcross, rfl⟩⟩

/-- Two nodes with one stream name are the nodes of one bridge. -/
theorem Laid.eq_of_streamName {p p' : Port O I} (hp : p ∈ b.bridges) (hp' : p' ∈ b.bridges)
    (hname : b.streamName (.created p.sender p) = b.streamName (.created p'.receiver p')) :
    p = p' := by
  rw [← h.paired p' hp'] at hname
  have hnodup := h.unique
  rw [h.names] at hnodup
  exact List.inj_on_of_nodup_map hnodup hp hp' hname

/-- A stream joins an output and an input whose connection crosses and has been come to, and it is
the stream of the bridge of that connection. -/
theorem Laid.stream_joins_input {out : O} {input : I} {sender receiver : XLinkNode}
    {first second : Port O I} :
    Route.Joins G b out (.inl input) (.stream sender receiver first second) ↔
      ∃ p, ⟨out, input⟩ ∈ order ∧ G.crossing runOnHost ⟨out, input⟩ = some p ∧
        sender = p.sender ∧ receiver = p.receiver ∧ first = p ∧ second = p := by
  constructor
  · rintro ⟨hstream, hname, hfirst, hsecond⟩
    cases sender <;> cases receiver <;> try cases hstream
    · obtain ⟨rfl, hmem⟩ := h.joined_XLinkOut.1 hfirst
      obtain ⟨out', rfl, hc, hcross⟩ := h.joined_XLinkInHost.1 hsecond
      have heq := h.eq_of_streamName hmem (h.done_bridges _ hc _ hcross) hname
      obtain rfl := Port.output.inj heq
      exact ⟨_, hc, hcross, rfl, rfl, rfl, rfl⟩
    · obtain ⟨input', rfl, hc, hcross⟩ := h.joined_XLinkOutHost.1 hfirst
      obtain ⟨rfl, hmem⟩ := h.joined_XLinkIn.1 hsecond
      have heq := h.eq_of_streamName (h.done_bridges _ hc _ hcross) hmem hname
      obtain rfl := Port.input.inj heq
      exact ⟨_, hc, hcross, rfl, rfl, rfl, rfl⟩
  · rintro ⟨p, hc, hcross, hsender, hreceiver, hfirst, hsecond⟩
    rw [hsender, hreceiver, hfirst, hsecond]
    have hmem := h.done_bridges _ hc _ hcross
    cases p with
    | output o =>
      obtain ⟨rfl, -⟩ := Ports.crossing_eq_output.1 hcross
      exact ⟨rfl, h.paired _ hmem, h.joined_XLinkOut.2 ⟨rfl, hmem⟩,
        h.joined_XLinkInHost.2 ⟨_, rfl, hc, hcross⟩⟩
    | input i =>
      obtain ⟨rfl, -⟩ := Ports.crossing_eq_input.1 hcross
      exact ⟨rfl, h.paired _ hmem, h.joined_XLinkOutHost.2 ⟨_, rfl, hc, hcross⟩,
        h.joined_XLinkIn.2 ⟨rfl, hmem⟩⟩

/-- The queues behind a bridge are those that its output had. -/
theorem Laid.reaches_created {kind : XLinkNode} {p : Port O I} {queue : Q} :
    b.Reaches G (.created kind p) (.inr queue) ↔
      kind = .XLinkInHost ∧ ∃ out, p = .output out ∧ (out, queue) ∈ moved := by
  rw [Reaches, h.queues]
  constructor
  · rintro ⟨-, ⟨out, heq, -⟩ | ⟨out, heq, hq⟩⟩
    · cases heq
    · obtain ⟨rfl, rfl⟩ := BuildOutput.created.inj heq
      exact ⟨rfl, out, rfl, hq⟩
  · rintro ⟨rfl, out, rfl, hq⟩
    exact ⟨(h.nodes _).2 (.inr ⟨_, h.moved_bridges _ hq, .inr rfl⟩), .inr ⟨out, rfl, hq⟩⟩

theorem Laid.reaches_given {out : O} {queue : Q} :
    b.Reaches G (.given out) (.inr queue) ↔ G.outNode out ∈ s.getAllNodes ∧
      queue ∈ queueConnections out ∧ (out, queue) ∉ moved := by
  rw [Reaches, h.queues, h.nodes]
  simp [Ports.withBridges]

/-- A stream joins an output and a queue of it that has been come to. -/
theorem Laid.stream_joins_queue {out : O} {queue : Q} {sender receiver : XLinkNode}
    {first second : Port O I} :
    Route.Joins G b out (.inr queue) (.stream sender receiver first second) ↔
      (out, queue) ∈ moved ∧ sender = .XLinkOut ∧ receiver = .XLinkInHost ∧
        first = .output out ∧ second = .output out := by
  constructor
  · rintro ⟨hstream, hname, hfirst, hsecond⟩
    obtain ⟨rfl, out', rfl, hq⟩ := h.reaches_created.1 hsecond
    cases sender <;> cases hstream
    obtain ⟨rfl, hmem⟩ := h.joined_XLinkOut.1 hfirst
    have heq := h.eq_of_streamName hmem (h.moved_bridges _ hq) hname
    obtain rfl := Port.output.inj heq
    exact ⟨hq, rfl, rfl, rfl, rfl⟩
  · rintro ⟨hq, rfl, rfl, rfl, rfl⟩
    have hmem := h.moved_bridges _ hq
    exact ⟨rfl, h.paired _ hmem, h.joined_XLinkOut.2 ⟨rfl, hmem⟩,
      h.reaches_created.2 ⟨rfl, out, rfl, hq⟩⟩

theorem Laid.count_xlinkBridges {p : Port O I} (hp : p ∈ b.bridges) :
    b.xlinkBridges.count (b.bridgeIds p.sender p.receiver p) = 1 := by
  have hinj : ∀ p ∈ b.bridges, ∀ p' ∈ b.bridges,
      b.bridgeIds p.sender p.receiver p = b.bridgeIds p'.sender p'.receiver p' → p = p' := by
    intro p hp p' hp' heq
    obtain ⟨hparent, hid⟩ := h.owned p hp _ (.inl rfl)
    have hnode := h.ids.injective _ _ hparent (h.owned p' hp' _ (.inl rfl)).1 hid
      (congrArg Prod.fst heq)
    exact (BuildNode.created.inj hnode).2
  rw [h.xlinkBridges]
  refine List.count_eq_one_of_mem (List.Nodup.map_on hinj h.nodup) ?_
  exact List.mem_map_of_mem (f := fun p => b.bridgeIds p.sender p.receiver p) hp

/-- **The flow is what it was exactly when every connection that crosses has been come to.** -/
theorem Laid.bridged_iff (horder : ∀ c ∈ order, s.Joined c)
    (hmoved : ∀ q, q ∈ moved ↔ Device G runOnHost s queueConnections q) :
    b.Bridged G runOnHost s queueConnections ↔
      ∀ c, s.Joined c → G.crossing runOnHost c ≠ none → c ∈ order := by
  constructor
  · intro hbridged c hc hcross
    by_contra hout
    have hstays := h.joined_given.2 ⟨hc, fun hdone => hout hdone.1⟩
    exact hcross (Ports.crossing_eq_none.2 (hbridged.sides _ hstays))
  · intro hall
    have hdirect : ∀ {c}, b.pipeline.Joined (ConnectionInternal.given c) ↔
        s.Joined c ∧ G.crossing runOnHost c = none := by
      intro c
      rw [h.joined_given]
      refine and_congr_right fun hc => ⟨fun hleft => ?_, fun hnone hdone => hdone.2 hnone⟩
      by_contra hcross
      exact hleft ⟨hall c hc hcross, hcross⟩
    have hbridge : ∀ p, Crosses G runOnHost s queueConnections p → p ∈ b.bridges := by
      rintro p (⟨c, hc, hcross⟩ | ⟨q, hq, rfl⟩)
      · exact h.done_bridges c (hall c hc (by simp [hcross])) p hcross
      · exact h.moved_bridges q ((hmoved q).2 hq)
    constructor
    case sides =>
      intro c hc
      rcases (h.joined c).1 hc with ⟨c₀, -, rfl, -⟩ | ⟨p, hp, rfl | ⟨c₀, -, hcross, rfl⟩⟩
      · exact (Ports.crossing_eq_none (G := G)).1 (hdirect.1 hc).2
      · cases p with
        | output out => exact (h.bridgeable _ hp).2
        | input i => exact (h.bridgeable (.input i) hp).symm
      · cases p with
        | output out => exact (Ports.crossing_eq_output.1 hcross).2.2.symm
        | input i => exact (Ports.crossing_eq_input.1 hcross).2.1
    case queueSides =>
      rintro (out | ⟨kind, p⟩ | ⟨kind, p⟩) queue hreach
      · obtain ⟨hlive, hq, hleft⟩ := h.reaches_given.1 hreach
        by_contra hhost
        exact hleft ((hmoved _).2 ⟨hlive, Bool.eq_false_iff.2 hhost, hq⟩)
      · obtain ⟨rfl, -⟩ := h.reaches_created.1 hreach
        rfl
      · simpa using (h.queues _ _).1 hreach.2
    case joins =>
      rintro out (input | queue) hpair
      · cases hcross : G.crossing runOnHost ⟨out, input⟩ with
        | none =>
          refine ⟨.direct, hdirect.2 ⟨hpair, hcross⟩, ?_⟩
          rintro (_ | ⟨sender, receiver, first, second⟩) hroute
          · rfl
          · obtain ⟨p, -, hp, -⟩ := h.stream_joins_input.1 hroute
            rw [hcross] at hp
            cases hp
        | some p =>
          have hc := hall _ hpair (by simp [hcross])
          refine ⟨.stream p.sender p.receiver p p,
            h.stream_joins_input.2 ⟨p, hc, hcross, rfl, rfl, rfl, rfl⟩, ?_⟩
          rintro (_ | ⟨sender, receiver, first, second⟩) hroute
          · rw [((hdirect (c := ⟨out, input⟩)).1 hroute).2] at hcross
            cases hcross
          · obtain ⟨p', -, hp', rfl, rfl, rfl, rfl⟩ := h.stream_joins_input.1 hroute
            rw [Option.some.inj (hcross.symm.trans hp')]
      · by_cases hq : (out, queue) ∈ moved
        · refine ⟨.stream .XLinkOut .XLinkInHost (.output out) (.output out),
            h.stream_joins_queue.2 ⟨hq, rfl, rfl, rfl, rfl⟩, ?_⟩
          rintro (_ | ⟨sender, receiver, first, second⟩) hroute
          · exact absurd hq (h.reaches_given.1 hroute).2.2
          · obtain ⟨-, rfl, rfl, rfl, rfl⟩ := h.stream_joins_queue.1 hroute
            rfl
        · refine ⟨.direct, h.reaches_given.2 ⟨hpair.1, hpair.2, hq⟩, ?_⟩
          rintro (_ | ⟨sender, receiver, first, second⟩) hroute
          · rfl
          · exact absurd (h.stream_joins_queue.1 hroute).1 hq
    case joined =>
      rintro out (input | queue) (_ | ⟨sender, receiver, first, second⟩) hroute
      · exact ((hdirect (c := ⟨out, input⟩)).1 hroute).1
      · obtain ⟨p, hc, -⟩ := h.stream_joins_input.1 hroute
        exact horder _ hc
      · obtain ⟨hlive, hq, -⟩ := h.reaches_given.1 hroute
        exact ⟨hlive, hq⟩
      · have hdevice := (hmoved _).1 (h.stream_joins_queue.1 hroute).1
        exact ⟨hdevice.1, hdevice.2.2⟩
    case kept =>
      intro c hcross
      rw [hdirect, and_iff_left hcross]
    case queueKept =>
      intro out queue hhost
      rw [h.reaches_given]
      refine and_congr_right fun _ => and_iff_left ?_
      intro hq
      rw [((hmoved _).1 hq).2.1] at hhost
      cases hhost
    case outgoing =>
      intro out hcrosses
      have hmem := hbridge _ hcrosses
      refine ⟨.output out, fun p' => ?_, h.count_xlinkBridges hmem⟩
      rw [h.joined_XLinkOut]
      exact ⟨fun hp' => hp'.1, fun hp' => ⟨hp', hp' ▸ hmem⟩⟩
    case incoming =>
      intro input hcrosses
      have hmem := hbridge _ hcrosses
      refine ⟨.input input, fun p' => ?_, h.count_xlinkBridges hmem⟩
      rw [h.joined_XLinkIn]
      exact ⟨fun hp' => hp'.1, fun hp' => ⟨hp', hp' ▸ hmem⟩⟩

end Laid

end BuildState

/-! ### Every pipeline that calls can make -/

/-- A call of the program before `build`: one of a pipeline, or `Node::add`. -/
inductive GraphCall (N O I : Type*)
  | call (c : PipelineCall N O I)
  | attach (node child : N)
  deriving DecidableEq, Repr

namespace PipelineImpl

variable [DecidableEq N] [DecidableEq O] [DecidableEq I]

/-- `Node::add`, of a node that the other is not below. -/
def attach (s : PipelineImpl N O I P) (node child : N) (h : node ∉ s.nodeMap.subtree child) :
    PipelineImpl N O I P :=
  { s with nodeMap := s.nodeMap.attach node child h }

/-- The state after a call. -/
def graphStep [DecidableEq P] (G : Ports N O I) (s : PipelineImpl N O I P) :
    GraphCall N O I → Option (PipelineImpl N O I P)
  | .call c => some (s.call G c).1
  | .attach node child =>
    if h : node ∉ s.nodeMap.subtree child then some (s.attach node child h) else none

/-- A pipeline before the first call. -/
def fresh (self : P) (nodeMap : Hierarchy N) (parent : N → Option P) : PipelineImpl N O I P :=
  (History.fresh self false nodeMap parent).pipeline

variable {G : Ports N O I} {s : PipelineImpl N O I P}

theorem Ids.call [DecidableEq P] (h : s.Ids) (c : PipelineCall N O I) : (s.call G c).1.Ids := by
  cases c with
  | add node => exact h.add node
  | link out input => exact h.of_sameIds (sameIds_call fun node => by simp)
  | unlink out input => exact h.of_sameIds (sameIds_call fun node => by simp)
  | remove toRemove => exact h.of_sameIds (sameIds_call fun node => by simp)

theorem book_ids_graphStep [DecidableEq P] {t : PipelineImpl N O I P} {c : GraphCall N O I}
    (h : s.Book G ∧ s.Ids) (hstep : graphStep G s c = some t) : t.Book G ∧ t.Ids := by
  obtain ⟨hbook, hids⟩ := h
  cases c with
  | call c =>
    obtain rfl := Option.some.inj hstep
    exact ⟨book_call hbook c, hids.call c⟩
  | attach node child =>
    rw [graphStep] at hstep
    split at hstep
    · obtain rfl := Option.some.inj hstep
      exact ⟨⟨hbook.counts, hbook.outNode, hbook.listed, hbook.distinct⟩,
        ⟨hids.nonneg, hids.unowned, hids.range, hids.injective⟩⟩
    · cases hstep

/-- **Calls keep the book and the ids.** -/
theorem book_ids_run [DecidableEq P] {self : P} {nodeMap : Hierarchy N} {parent : N → Option P}
    {tr : List (PipelineImpl N O I P × GraphCall N O I)}
    (hrun : Transition.Run (graphStep G) (fresh self nodeMap parent) tr s) :
    s.Book G ∧ s.Ids := by
  refine hrun.invariant (I := fun s => s.Book G ∧ s.Ids) (fun _ _ _ => book_ids_graphStep) ?_
  exact ⟨(History.sound_fresh self false nodeMap parent).book,
    ⟨le_refl _, fun _ _ => rfl, fun _ _ hne => absurd rfl hne, fun _ _ _ _ hne => absurd rfl hne⟩⟩

/-- **For every pipeline that calls can make, and every order of the enumeration: if `build`
returns, the flow is what it was exactly when the enumeration left out no connection that crosses.**
-/
theorem bridged_run_iff [DecidableEq P] [DecidableEq Q] {self : P} {nodeMap : Hierarchy N}
    {parent : N → Option P} {tr : List (PipelineImpl N O I P × GraphCall N O I)}
    (hrun : Transition.Run (graphStep G) (fresh self nodeMap parent) tr s)
    {runOnHost : N → Bool} {defaultDevice : Bool} {R : OutputRefs G} {queueConnections : O → List Q}
    {walk : N → List N} (hwalk : s.IsWalk walk) {order : List (ConnectionInternal O I)}
    (horder : order.Perm (s.getConnectionsInternal walk)) {b : BuildState N O I P Q}
    (hok : BuildState.createBridges runOnHost defaultDevice R s queueConnections order = .ok b) :
    b.Bridged G runOnHost s queueConnections ↔
      ∀ c, s.Joined c → G.crossing runOnHost c ≠ none → c ∈ s.getConnectionsInternal walk := by
  obtain ⟨hbook, hids⟩ := book_ids_run hrun
  obtain ⟨moved, hlaid, hmoved⟩ := BuildState.laid_createBridges hbook hids hwalk horder hok
  have hjoined : ∀ c ∈ order, s.Joined c := fun c hc =>
    s.joined_of_mem_getConnectionsInternal hwalk (horder.mem_iff.1 hc)
  rw [hlaid.bridged_iff hjoined hmoved]
  simp only [horder.mem_iff]

omit [DecidableEq N] [DecidableEq O] [DecidableEq I] in
theorem eq_ok_get {ε α : Type*} {x : Except ε α} (h : x.toOption.isSome) :
    x = .ok (x.toOption.get h) := by
  cases x with
  | error e => cases h
  | ok a => rfl

/-- A device node with an input, and three host nodes of which the last two have an output. -/
def fourNodes : Ports (Fin 4) (Fin 2) Unit where
  nodeName n := if n = 0 then "device" else "host"
  outNode o := if o = 0 then 2 else 3
  outName _ := "out"
  outGroup _ := ""
  outType _ := .MSender
  outDatatypes _ := [⟨.Buffer, true, DatatypeEnum.buffer_ne⟩]
  inNode _ := 0
  inName _ := "in"
  inGroup _ := ""
  inType _ := .SReceiver
  inDatatypes _ := [⟨.Buffer, true, DatatypeEnum.buffer_ne⟩]

/-- Its outputs. -/
def fourRefs : OutputRefs fourNodes where
  getOutputRefs n := if n = 2 then [0] else if n = 3 then [1] else []
  mem_iff := by decide

/-- The nodes, none of them below another, before the first call. -/
def fourFresh : PipelineImpl (Fin 4) (Fin 2) Unit Unit :=
  fresh () ⟨fun _ => [], fun _ => 0, by simp⟩ fun _ => none

/-- The loops for a pipeline of these nodes. -/
def fourBridges (s : PipelineImpl (Fin 4) (Fin 2) Unit Unit) :
    Except String (BuildState (Fin 4) (Fin 2) Unit Unit Unit) :=
  BuildState.createBridges (· ≠ 0) true fourRefs s (fun _ => [])
    (s.getConnectionsInternal s.nodeMap.subtree)

/-- A host node that is linked to the device node. -/
theorem bridged_run_link :
    let s := ((Transition.exec (graphStep fourNodes) fourFresh
      [.call (.add (some 0)), .call (.add (some 2)), .call (.link 0 ())]).get (by decide)).2
    ((fourBridges s).toOption.get (by decide)).Bridged fourNodes (· ≠ 0) s fun _ => [] := by
  refine (bridged_run_iff (Transition.Run.of_isSome _) (isWalk_subtree _) (List.Perm.refl _)
    (eq_ok_get _)).2 ?_
  rintro ⟨out, ⟨⟩⟩
  revert out
  decide

/-- Two host nodes, both linked to the device node, that were attached below a node of the
pipeline. -/
theorem bridged_run_attach :
    let s := ((Transition.exec (graphStep fourNodes) fourFresh
      [.call (.add (some 0)), .call (.add (some 1)), .attach 1 2, .attach 1 3,
        .call (.link 0 ()), .call (.link 1 ())]).get (by decide)).2
    ¬((fourBridges s).toOption.get (by decide)).Bridged fourNodes (· ≠ 0) s fun _ => [] := by
  intro s hbridged
  exact absurd (hbridged.sides ⟨.given 0, .given ()⟩ (by decide)) (by decide)

end PipelineImpl

end DepthaiCore
