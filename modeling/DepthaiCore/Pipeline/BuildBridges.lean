import DepthaiCore.Lib.Loops
import DepthaiCore.Pipeline.Build
import DepthaiCore.Pipeline.ConnectionViews

/-!
# What the loops of `build` lay

At any time in the loops a connection of the pipeline is one of three. It is a connection that the
pipeline had before, and that crosses nothing or has not been come to; or it joins a port to its
bridge; or it is what became of a connection that crosses and has been come to.
-/

namespace DepthaiCore

variable {N O I P Q : Type*}

/-! ### Connections of a pipeline -/

namespace PipelineImpl

/-- The connection is one of a node of the pipeline. -/
def Joined (s : PipelineImpl N O I P) (c : ConnectionInternal O I) : Prop :=
  ∃ m ∈ s.getAllNodes, c ∈ s.connections m

instance [DecidableEq O] [DecidableEq I] (s : PipelineImpl N O I P) (c : ConnectionInternal O I) :
    Decidable (s.Joined c) :=
  inferInstanceAs (Decidable (∃ m ∈ s.getAllNodes, c ∈ s.connections m))

variable {G : Ports N O I} {s t : PipelineImpl N O I P} [DecidableEq N] [DecidableEq O]
  [DecidableEq I]

theorem joined_linked {c c' : ConnectionInternal O I} (hlive : G.outNode c.out ∈ s.getAllNodes) :
    (s.linked G c.out c.input).Joined c' ↔ s.Joined c' ∨ c' = c := by
  constructor
  · rintro ⟨m, hm, hc⟩
    rcases mem_connections_linked.1 hc with hc | ⟨-, rfl⟩
    · exact .inl ⟨m, hm, hc⟩
    · exact .inr rfl
  · rintro (⟨m, hm, hc⟩ | rfl)
    · exact ⟨m, hm, mem_connections_linked.2 (.inl hc)⟩
    · exact ⟨_, hlive, mem_connections_linked.2 (.inr ⟨rfl, rfl⟩)⟩

/-- Unlinking two ends that are joined takes out their connection and no other. -/
theorem joined_unlinked (hbook : s.Book G) {c c' : ConnectionInternal O I} (hjoined : s.Joined c) :
    (s.unlinked G c.out c.input).Joined c' ↔ s.Joined c' ∧ c' ≠ c := by
  obtain ⟨m, -, hm⟩ := hjoined
  have hnode : G.outNode c.out = m := hbook.outNode m _ hm
  constructor
  · rintro ⟨m', hm', hc⟩
    obtain ⟨hold, hne⟩ := mem_connections_unlinked.1 hc
    refine ⟨⟨m', hm', hold⟩, ?_⟩
    rintro rfl
    exact hne (hbook.outNode m' _ hold).symm (Ports.same_refl _)
  · rintro ⟨⟨m', hm', hc⟩, hne⟩
    refine ⟨m', hm', mem_connections_unlinked.2 ⟨hc, ?_⟩⟩
    rintro rfl hsame
    exact hne (hbook.eq_of_same (hnode ▸ hm) hc hsame).symm

omit [DecidableEq N] [DecidableEq O] [DecidableEq I] in
/-- What is filed under an id comes from a node of the pipeline. -/
theorem exists_of_mem_getConnectionMap {walk : N → List N} (hwalk : s.IsWalk walk) {id : ℤ}
    {c : ConnectionInternal O I} (hc : c ∈ (s.getConnectionMap walk id).getD []) :
    ∃ m ∈ s.getAllNodes, s.id m = id ∧ c ∈ s.connections m := by
  cases hmap : s.getConnectionMap walk id with
  | none => simp [hmap] at hc
  | some connections =>
    rw [hmap, Option.getD_some] at hc
    obtain ⟨m, hm, hid, rfl⟩ := exists_of_getConnectionMap hwalk hmap
    exact ⟨m, hm, hid, hc⟩

omit [DecidableEq N] [DecidableEq O] [DecidableEq I] in
theorem joined_of_mem_getConnectionsInternal {walk : N → List N} (hwalk : s.IsWalk walk)
    {c : ConnectionInternal O I} (hc : c ∈ s.getConnectionsInternal walk) : s.Joined c := by
  obtain ⟨id, -, hc⟩ := List.mem_flatMap.1 hc
  obtain ⟨m, hm, -, hc⟩ := exists_of_mem_getConnectionMap hwalk hc
  exact ⟨m, hm, hc⟩

theorem nodup_getConnectionsInternal (hbook : s.Book G) {walk : N → List N}
    (hwalk : s.IsWalk walk) : (s.getConnectionsInternal walk).Nodup := by
  have hnodup : ∀ m, (s.connections m).Nodup := by
    refine fun m => (hbook.distinct m).imp fun {a b} hne heq => hne ?_
    rw [heq]
    exact Ports.same_refl b
  rw [getConnectionsInternal, List.nodup_flatMap]
  constructor
  · intro id _
    cases hmap : s.getConnectionMap walk id with
    | none => simp
    | some connections =>
      obtain ⟨m, -, -, rfl⟩ := exists_of_getConnectionMap hwalk hmap
      exact hnodup m
  · refine (List.nodup_dedup _).imp fun {a b} hne c hca hcb => hne ?_
    obtain ⟨m, -, rfl, hc⟩ := exists_of_mem_getConnectionMap hwalk hca
    obtain ⟨m', -, rfl, hc'⟩ := exists_of_mem_getConnectionMap hwalk hcb
    rw [← hbook.outNode m c hc, ← hbook.outNode m' c hc']

/-! ### A node that is added -/

omit [DecidableEq O] [DecidableEq I] in
/-- An `add` that does not throw leaves what its walk does, with the node on the list. -/
theorem add_eq_pushNode [DecidableEq P] {node : N} (h : s.add (some node) = (t, none)) :
    (s.addSearch node).2 = none ∧ ∃ hnode, t = (s.addSearch node).1.pushNode node hnode := by
  rw [add] at h
  split at h
  · cases h
  · split at h
    · cases h
    · rename_i u hsearch
      have hok : (s.addSearch node).2 = none := by rw [hsearch]
      have hself : (s.addSearch node).1.parent node = some (s.addSearch node).1.self := by
        rw [s.parent_addSearch hok node (s.nodeMap.mem_subtree_self node),
          (s.sameGraph_addSearch node).self]
      refine ⟨hok, hself, ?_⟩
      obtain ⟨rfl, -⟩ := Prod.mk.inj h
      simp only [hsearch]

/-- What an `add` of a node with nothing below it leaves. -/
structure Added (s t : PipelineImpl N O I P) (node : N) : Prop where
  self : t.self = s.self
  nodeMap : t.nodeMap = s.nodeMap
  connections : t.connections = s.connections
  getAllNodes : ∀ m, m ∈ t.getAllNodes ↔ m ∈ s.getAllNodes ∨ m = node
  parent : t.parent node = some t.self
  assigned : t.id node ≠ -1
  parent_of_some : ∀ m p, s.parent m = some p → t.parent m = some p
  id_of_ne : ∀ m, s.id m ≠ -1 → t.id m = s.id m

omit [DecidableEq N] [DecidableEq O] [DecidableEq I] in
theorem Added.joined_iff {node : N} (h : s.Added t node) (hnone : s.connections node = [])
    {c : ConnectionInternal O I} : t.Joined c ↔ s.Joined c := by
  rw [Joined, Joined, h.connections]
  constructor
  · rintro ⟨m, hm, hc⟩
    rcases (h.getAllNodes m).1 hm with hm | rfl
    · exact ⟨m, hm, hc⟩
    · rw [hnone] at hc
      cases hc
  · rintro ⟨m, hm, hc⟩
    exact ⟨m, (h.getAllNodes m).2 (.inl hm), hc⟩

omit [DecidableEq O] [DecidableEq I] in
theorem added_add [DecidableEq P] (hids : s.Ids) {node : N} (hleaf : s.nodeMap.children node = [])
    (h : s.add (some node) = (t, none)) : s.Added t node := by
  have heq : t = (s.add (some node)).1 := by rw [h]
  obtain ⟨hok, hnode, hpush⟩ := add_eq_pushNode h
  have hgraph := s.sameGraph_addSearch node
  have hsub : s.nodeMap.subtree node = [node] := by
    rw [Hierarchy.subtree_eq, hleaf, List.flatMap_nil]
  constructor
  · rw [hpush]
    exact hgraph.self
  · rw [hpush]
    exact hgraph.nodeMap
  · rw [hpush]
    exact hgraph.connections
  · intro m
    rw [hpush, getAllNodes_pushNode, hgraph.getAllNodes, hgraph.nodeMap, hsub, List.mem_append,
      List.mem_singleton]
  · rw [hpush]
    exact hnode
  · rw [hpush]
    exact hids.id_addSearch_ne hok node (by simp [hsub])
  · intro m p hm
    rw [heq]
    exact parent_add_of_some hm
  · intro m hm
    rw [heq]
    exact id_add_of_ne hm

end PipelineImpl

/-! ### The pipeline among the nodes of bridges -/

section Lift

theorem BuildNode.given_injective : Function.Injective (BuildNode.given : N → BuildNode N O I) :=
  fun _ _ h => BuildNode.given.inj h

theorem BuildOutput.given_injective : Function.Injective (BuildOutput.given : O → BuildOutput O I) :=
  fun _ _ h => BuildOutput.given.inj h

theorem BuildInput.given_injective : Function.Injective (BuildInput.given : I → BuildInput O I) :=
  fun _ _ h => BuildInput.given.inj h

@[simp] theorem ConnectionInternal.given_inj {c c' : ConnectionInternal O I} :
    c.given = c'.given ↔ c = c' := by
  simp [ConnectionInternal.given, ConnectionInternal.ext_iff]

theorem BuildNode.descendantsTo_nodeMap (H : Hierarchy N) (depth : ℕ) (node : N) :
    (nodeMap H : Hierarchy (BuildNode N O I)).descendantsTo depth (.given node) =
      (H.descendantsTo depth node).map BuildNode.given := by
  induction depth generalizing node with
  | zero => rfl
  | succ depth ih =>
    have hchildren : (nodeMap H : Hierarchy (BuildNode N O I)).children (.given node) =
        (H.children node).map BuildNode.given := rfl
    rw [Hierarchy.descendantsTo, Hierarchy.descendantsTo, hchildren, List.flatMap_map,
      List.map_flatMap]
    exact List.flatMap_congr fun c _ => by rw [ih, List.map_cons]

namespace PipelineImpl

variable {s : PipelineImpl N O I P}

theorem getAllNodes_withBridges : s.withBridges.getAllNodes = s.getAllNodes.map BuildNode.given := by
  rw [getAllNodes, getAllNodes, List.map_flatMap]
  show (s.nodes.map BuildNode.given).flatMap _ = _
  rw [List.flatMap_map]
  refine List.flatMap_congr fun node _ => ?_
  rw [List.map_cons]
  exact congrArg _ (BuildNode.descendantsTo_nodeMap s.nodeMap _ node)

theorem joined_withBridges {c : ConnectionInternal (BuildOutput O I) (BuildInput O I)} :
    s.withBridges.Joined c ↔ ∃ c₀, s.Joined c₀ ∧ c = c₀.given := by
  rw [Joined, getAllNodes_withBridges]
  constructor
  · rintro ⟨m, hm, hc⟩
    obtain ⟨n, hn, rfl⟩ := List.mem_map.1 hm
    obtain ⟨c₀, hc₀, rfl⟩ := List.mem_map.1 hc
    exact ⟨c₀, ⟨n, hn, hc₀⟩, rfl⟩
  · rintro ⟨c₀, ⟨n, hn, hc₀⟩, rfl⟩
    exact ⟨.given n, List.mem_map_of_mem hn, List.mem_map_of_mem hc₀⟩

theorem Ids.withBridges (h : s.Ids) : s.withBridges.Ids := by
  constructor
  case nonneg => exact h.nonneg
  case unowned =>
    rintro (n | ⟨kind, p⟩) hn
    · exact h.unowned n hn
    · rfl
  case range =>
    rintro (n | ⟨kind, p⟩) hn
    · exact h.range n hn
    · cases hn
  case injective =>
    rintro (n | ⟨kind, p⟩) (n' | ⟨kind', p'⟩) hn hn' hne heq
    · exact congrArg _ (h.injective n n' hn hn' hne heq)
    · cases hn'
    · cases hn
    · cases hn

variable [DecidableEq N] [DecidableEq O] [DecidableEq I] {G : Ports N O I}

theorem same_given {c c' : ConnectionInternal O I} :
    G.withBridges.same c.given c'.given = G.same c c' := by
  simp [Ports.same, Ports.withBridges, ConnectionInternal.given]

theorem Book.withBridges (h : s.Book G) : s.withBridges.Book G.withBridges := by
  constructor
  case counts =>
    rintro (out | ⟨kind, p⟩ | ⟨kind, p⟩) (input | ⟨kind', p'⟩)
    · show ((s.connectedInputs out).map BuildInput.given).count (.given input) =
        ((s.connectedOutputs input).map BuildOutput.given).count (.given out)
      rw [List.count_map_of_injective _ _ BuildInput.given_injective,
        List.count_map_of_injective _ _ BuildOutput.given_injective, h.counts]
    · show ((s.connectedInputs out).map BuildInput.given).count (.created kind' p') = 0
      simp [List.count_eq_zero]
    · show 0 = ((s.connectedOutputs input).map BuildOutput.given).count (.created kind p)
      exact (List.count_eq_zero.2 (by simp)).symm
    · rfl
    · show 0 = ((s.connectedOutputs input).map BuildOutput.given).count (.event kind p)
      exact (List.count_eq_zero.2 (by simp)).symm
    · rfl
  case outNode =>
    rintro (n | ⟨kind, p⟩) c hc
    · obtain ⟨c₀, hc₀, rfl⟩ := List.mem_map.1 hc
      exact congrArg _ (h.outNode n c₀ hc₀)
    · cases hc
  case listed =>
    rintro (n | ⟨kind, p⟩) c hc
    · obtain ⟨c₀, hc₀, rfl⟩ := List.mem_map.1 hc
      exact List.mem_map_of_mem (h.listed n c₀ hc₀)
    · cases hc
  case distinct =>
    rintro (n | ⟨kind, p⟩)
    · refine List.pairwise_map.2 ((h.distinct n).imp fun {a b} hne => ?_)
      rwa [same_given]
    · exact .nil

end PipelineImpl

end Lift

/-! ### The invariant -/

section Invariant

variable [DecidableEq N] [DecidableEq O] [DecidableEq I]
variable {G : Ports N O I} {runOnHost : N → Bool} {s : PipelineImpl N O I P}
  {queueConnections : O → List Q} {b b' : BuildState N O I P Q}

/-- What a bridge is created for: an output of a device node of the pipeline, or an input of any
device node. -/
def Port.Bridgeable (G : Ports N O I) (runOnHost : N → Bool) (s : PipelineImpl N O I P) :
    Port O I → Prop
  | .output out => G.outNode out ∈ s.getAllNodes ∧ runOnHost (G.outNode out) = false
  | .input i => runOnHost (G.inNode i) = false

omit [DecidableEq N] [DecidableEq O] [DecidableEq I] in
theorem Ports.crossing_eq_output {c : ConnectionInternal O I} {out : O} :
    G.crossing runOnHost c = some (.output out) ↔
      c.out = out ∧ runOnHost (G.outNode c.out) = false ∧ runOnHost (G.inNode c.input) = true := by
  rw [crossing]
  cases runOnHost (G.outNode c.out) <;> cases runOnHost (G.inNode c.input) <;> simp

omit [DecidableEq N] [DecidableEq O] [DecidableEq I] in
theorem Ports.crossing_eq_input {c : ConnectionInternal O I} {input : I} :
    G.crossing runOnHost c = some (.input input) ↔
      c.input = input ∧ runOnHost (G.outNode c.out) = true ∧
        runOnHost (G.inNode c.input) = false := by
  rw [crossing]
  cases runOnHost (G.outNode c.out) <;> cases runOnHost (G.inNode c.input) <;> simp

omit [DecidableEq N] [DecidableEq O] [DecidableEq I] in
theorem Ports.crossing_eq_none {c : ConnectionInternal O I} :
    G.crossing runOnHost c = none ↔
      runOnHost (G.outNode c.out) = runOnHost (G.inNode c.input) := by
  rw [crossing]
  cases runOnHost (G.outNode c.out) <;> cases runOnHost (G.inNode c.input) <;> simp

theorem PipelineImpl.Joined.outNode (hbook : s.Book G) {c : ConnectionInternal O I}
    (hc : s.Joined c) : G.outNode c.out ∈ s.getAllNodes := by
  obtain ⟨m, hm, hc⟩ := hc
  rwa [hbook.outNode m c hc]

theorem Port.Bridgeable.of_crossing (hbook : s.Book G) {c : ConnectionInternal O I}
    (hc : s.Joined c) {p : Port O I} (hcross : G.crossing runOnHost c = some p) :
    p.Bridgeable G runOnHost s := by
  cases p with
  | output out =>
    obtain ⟨rfl, hout, -⟩ := Ports.crossing_eq_output.1 hcross
    exact ⟨hc.outNode hbook, hout⟩
  | input i =>
    obtain ⟨rfl, -, hin⟩ := Ports.crossing_eq_input.1 hcross
    exact hin

omit [DecidableEq N] [DecidableEq O] [DecidableEq I] in
theorem Port.own_ne_given (p : Port O I) (c : ConnectionInternal O I) : p.own ≠ c.given := by
  cases p <;> simp [Port.own, ConnectionInternal.given]

omit [DecidableEq N] [DecidableEq O] [DecidableEq I] in
theorem Port.moved_ne_given (p : Port O I) (c c' : ConnectionInternal O I) :
    p.moved c ≠ c'.given := by
  cases p <;> simp [Port.moved, ConnectionInternal.given]

/-- What the loops have laid, when the connections in `done` and the queues in `moved` have been
come to. -/
structure BuildState.Laid (G : Ports N O I) (runOnHost : N → Bool) (s : PipelineImpl N O I P)
    (queueConnections : O → List Q) (done : List (ConnectionInternal O I)) (moved : List (O × Q))
    (b : BuildState N O I P Q) : Prop where
  book : b.pipeline.Book G.withBridges
  ids : b.pipeline.Ids
  leaf : ∀ kind p, b.pipeline.nodeMap.children (.created kind p) = []
  nodes : ∀ m, m ∈ b.pipeline.getAllNodes ↔ (∃ n ∈ s.getAllNodes, m = .given n) ∨
    ∃ p ∈ b.bridges, m = .created p.sender p ∨ m = .created p.receiver p
  bridgeable : ∀ p ∈ b.bridges, p.Bridgeable G runOnHost s
  unlinked : ∀ p, p ∉ b.bridges → ∀ kind, b.pipeline.connections (.created kind p) = []
  joined : ∀ c, b.pipeline.Joined c ↔
    (∃ c₀, s.Joined c₀ ∧ c = c₀.given ∧ ¬(c₀ ∈ done ∧ G.crossing runOnHost c₀ ≠ none)) ∨
      ∃ p ∈ b.bridges, c = p.own ∨ ∃ c₀ ∈ done, G.crossing runOnHost c₀ = some p ∧ c = p.moved c₀
  queues : ∀ o queue, queue ∈ b.queueConnections o ↔
    (∃ out, o = .given out ∧ queue ∈ queueConnections out ∧ (out, queue) ∉ moved) ∨
      ∃ out, o = .created .XLinkInHost (.output out) ∧ (out, queue) ∈ moved
  done_bridges : ∀ c ∈ done, ∀ p, G.crossing runOnHost c = some p → p ∈ b.bridges
  moved_bridges : ∀ q ∈ moved, .output q.1 ∈ b.bridges
  nodup : b.bridges.Nodup
  owned : ∀ p ∈ b.bridges, ∀ kind, kind = p.sender ∨ kind = p.receiver →
    b.pipeline.parent (.created kind p) = some b.pipeline.self ∧
      b.pipeline.id (.created kind p) ≠ -1
  xlinkBridges : b.xlinkBridges = b.bridges.map fun p =>
    (b.pipeline.id (.created p.sender p), b.pipeline.id (.created p.receiver p))
  names : b.uniqueStreamNames = b.bridges.map fun p => b.streamName (.created p.sender p)
  paired : ∀ p ∈ b.bridges,
    b.streamName (.created p.sender p) = b.streamName (.created p.receiver p)
  unique : b.uniqueStreamNames.Nodup

namespace BuildState

variable {done : List (ConnectionInternal O I)} {moved : List (O × Q)}

theorem laid_start (hbook : s.Book G) (hids : s.Ids) :
    (start s queueConnections).Laid G runOnHost s queueConnections [] [] where
  book := hbook.withBridges
  ids := hids.withBridges
  leaf _ _ := rfl
  nodes m := by
    show m ∈ s.withBridges.getAllNodes ↔ _
    rw [PipelineImpl.getAllNodes_withBridges, List.mem_map]
    simp [start, eq_comm]
  bridgeable := by simp [start]
  unlinked _ _ _ := rfl
  joined c := by
    show s.withBridges.Joined c ↔ _
    rw [PipelineImpl.joined_withBridges]
    simp [start]
  queues o queue := by
    rcases o with out | ⟨kind, p⟩ | ⟨kind, p⟩ <;> simp [start]
  done_bridges := by simp
  moved_bridges := by simp
  nodup := List.nodup_nil
  owned := by simp [start]
  xlinkBridges := rfl
  names := rfl
  paired := by simp [start]
  unique := List.nodup_nil

/-! ### The statements of the loops -/

section Statements

variable [DecidableEq P] {defaultDevice : Bool} {kind : XLinkNode} {port : Port O I}
  {c : ConnectionInternal (BuildOutput O I) (BuildInput O I)}

theorem create_eq (h : b.create defaultDevice kind port = .ok b') :
    ∃ t, b.pipeline.add (some (.created kind port)) = (t, none) ∧
      b' = { b with pipeline := t } := by
  rw [create] at h
  split at h
  · cases h
  · split at h
    · cases h
    · rename_i t hadd
      cases h
      exact ⟨t, hadd, rfl⟩

omit [DecidableEq P] in
theorem link_eq (h : b.link G c = .ok b') :
    (PipelineCall.link c.out c.input).Accepted G.withBridges b.pipeline ∧
      b' = { b with pipeline := b.pipeline.linked G.withBridges c.out c.input } := by
  rw [link] at h
  by_cases hok : (PipelineCall.link c.out c.input).Accepted G.withBridges b.pipeline
  · rw [Output.link_eq hok] at h
    cases h
    exact ⟨hok, rfl⟩
  · obtain ⟨e, he⟩ := Output.link_of_not hok
    rw [he] at h
    cases h

omit [DecidableEq P] in
theorem unlink_eq (h : b.unlink G c = .ok b') :
    b' = { b with pipeline := b.pipeline.unlinked G.withBridges c.out c.input } := by
  rw [unlink] at h
  by_cases hok : (PipelineCall.unlink c.out c.input).Accepted G.withBridges b.pipeline
  · rw [Output.unlink_eq hok] at h
    cases h
    rfl
  · obtain ⟨e, he⟩ := Output.unlink_of_not hok
    rw [he] at h
    cases h

omit [DecidableEq P] in
theorem setStreamName_eq {name : String} (h : b.setStreamName port name = .ok b') :
    name ∉ b.uniqueStreamNames ∧ b' = { b with
      uniqueStreamNames := b.uniqueStreamNames ++ [name]
      streamName := Function.update (Function.update b.streamName (.created port.sender port) name)
        (.created port.receiver port) name } := by
  rw [setStreamName] at h
  split at h
  · cases h
  · rename_i hnew
    cases h
    exact ⟨hnew, rfl⟩

/-- What `createBridge` does for a port without a bridge. -/
theorem createBridge_eq {name : String} (hnew : port ∉ b.bridges)
    (h : b.createBridge G defaultDevice port name = .ok b') :
    ∃ t u, b.pipeline.add (some (.created port.sender port)) = (t, none) ∧
      t.add (some (.created port.receiver port)) = (u, none) ∧ name ∉ b.uniqueStreamNames ∧
        (PipelineCall.link port.own.out port.own.input).Accepted G.withBridges u ∧
          b' =
            { pipeline := u.linked G.withBridges port.own.out port.own.input
              queueConnections := b.queueConnections
              streamName := Function.update
                (Function.update b.streamName (.created port.sender port) name)
                (.created port.receiver port) name
              bridges := b.bridges ++ [port]
              uniqueStreamNames := b.uniqueStreamNames ++ [name]
              xlinkBridges := b.xlinkBridges ++
                [(u.id (.created port.sender port), u.id (.created port.receiver port))] } := by
  rw [createBridge, if_neg hnew] at h
  obtain ⟨b₁, h₁, h⟩ := Loop.bind_eq_ok.1 h
  obtain ⟨b₂, h₂, h⟩ := Loop.bind_eq_ok.1 h
  obtain ⟨b₃, h₃, h⟩ := Loop.bind_eq_ok.1 h
  obtain ⟨b₄, h₄, h⟩ := Loop.bind_eq_ok.1 h
  obtain ⟨t, ht, rfl⟩ := create_eq h₁
  obtain ⟨u, hu, rfl⟩ := create_eq h₂
  obtain ⟨hname, rfl⟩ := setStreamName_eq h₃
  obtain ⟨hok, rfl⟩ := link_eq h₄
  cases h
  exact ⟨t, u, ht, hu, hname, hok, rfl⟩

end Statements

/-! ### What every round keeps -/

section Rounds

variable [DecidableEq P] {defaultDevice : Bool}

omit [DecidableEq P] in
/-- Nothing that has been come to goes over a bridge that is not there. -/
theorem Laid.notMem_of_bridge (h : b.Laid G runOnHost s queueConnections done moved) {p : Port O I}
    (hp : p ∉ b.bridges) {c : ConnectionInternal O I} (hc : c ∈ done) :
    G.crossing runOnHost c ≠ some p :=
  fun hcross => hp (h.done_bridges c hc p hcross)

theorem Laid.createBridge (h : b.Laid G runOnHost s queueConnections done moved) {p : Port O I}
    (hp : p.Bridgeable G runOnHost s) {name : String}
    (hok : b.createBridge G defaultDevice p name = .ok b') :
    b'.Laid G runOnHost s queueConnections done moved ∧ p ∈ b'.bridges := by
  by_cases hnew : p ∈ b.bridges
  · rw [BuildState.createBridge, if_pos hnew] at hok
    cases hok
    exact ⟨h, hnew⟩
  · obtain ⟨t, u, hadd, hadd', hname, haccepted, rfl⟩ := createBridge_eq hnew hok
    have ht : t = (b.pipeline.add (some (.created p.sender p))).1 := by rw [hadd]
    have hu : u = (t.add (some (.created p.receiver p))).1 := by rw [hadd']
    have hidst : t.Ids := ht ▸ h.ids.add _
    have hidsu : u.Ids := hu ▸ hidst.add _
    have hbook : u.Book G.withBridges := by
      rw [hu, ht]
      exact PipelineImpl.book_call (PipelineImpl.book_call h.book (.add _)) (.add _)
    have hsender := PipelineImpl.added_add h.ids (h.leaf _ _) hadd
    have hreceiver := PipelineImpl.added_add hidst (hsender.nodeMap ▸ h.leaf _ _) hadd'
    have hjoined : ∀ c, u.Joined c ↔ b.pipeline.Joined c := by
      intro c
      rw [hreceiver.joined_iff, hsender.joined_iff (h.unlinked p hnew _)]
      rw [hsender.connections]
      exact h.unlinked p hnew _
    have hnodes : ∀ m, m ∈ u.getAllNodes ↔ (∃ n ∈ s.getAllNodes, m = .given n) ∨
        ∃ p' ∈ b.bridges ++ [p], m = .created p'.sender p' ∨ m = .created p'.receiver p' := by
      intro m
      rw [hreceiver.getAllNodes, hsender.getAllNodes, h.nodes]
      simp only [List.mem_append, List.mem_singleton, or_and_right, exists_or, exists_eq_left,
        or_assoc]
    have hlive : G.withBridges.outNode p.own.out ∈ u.getAllNodes := by
      rw [hnodes]
      cases p with
      | output out => exact .inl ⟨_, hp.1, rfl⟩
      | input i => exact .inr ⟨_, List.mem_append_right _ (List.mem_singleton_self _), .inr rfl⟩
    have hids : ∀ p' ∈ b.bridges, ∀ kind, kind = p'.sender ∨ kind = p'.receiver →
        u.id (.created kind p') = b.pipeline.id (.created kind p') := by
      intro p' hp' kind hkind
      have hne := (h.owned p' hp' kind hkind).2
      have hkept := hsender.id_of_ne _ hne
      rw [hreceiver.id_of_ne _ (hkept.trans_ne hne), hkept]
    have hother : ∀ p' ∈ b.bridges, ∀ kind kind' : XLinkNode,
        (BuildNode.created kind p' : BuildNode N O I) ≠ .created kind' p := by
      intro p' hp' kind kind' heq
      obtain ⟨-, rfl⟩ := BuildNode.created.inj heq
      exact hnew hp'
    have hnames : ∀ p' ∈ b.bridges, ∀ kind,
        Function.update (Function.update b.streamName (.created p.sender p) name)
          (.created p.receiver p) name (.created kind p') = b.streamName (.created kind p') := by
      intro p' hp' kind
      rw [Function.update_of_ne (hother p' hp' kind _), Function.update_of_ne (hother p' hp' kind _)]
    have hown : ∀ kind, kind = p.sender ∨ kind = p.receiver →
        Function.update (Function.update b.streamName (.created p.sender p) name)
          (.created p.receiver p) name (.created kind p) = name := by
      rintro kind (rfl | rfl)
      · rw [Function.update_of_ne, Function.update_self]
        cases p <;> simp [Port.sender, Port.receiver]
      · exact Function.update_self ..
    refine ⟨?_, List.mem_append_right _ (List.mem_singleton_self p)⟩
    constructor
    case book => exact hbook.linked haccepted
    case ids => exact hidsu.of_sameIds ⟨rfl, rfl, rfl, rfl, List.Subset.refl _⟩
    case leaf =>
      intro kind p'
      show u.nodeMap.children _ = []
      rw [hreceiver.nodeMap, hsender.nodeMap]
      exact h.leaf kind p'
    case nodes => exact hnodes
    case bridgeable =>
      intro p' hp'
      rcases List.mem_append.1 hp' with hp' | hp'
      · exact h.bridgeable p' hp'
      · rwa [List.mem_singleton.1 hp']
    case unlinked =>
      intro p' hp' kind
      rw [List.mem_append, List.mem_singleton, not_or] at hp'
      refine List.eq_nil_iff_forall_not_mem.2 fun c hc => ?_
      rcases PipelineImpl.mem_connections_linked.1 hc with hc | ⟨hm, -⟩
      · rw [hreceiver.connections, hsender.connections, h.unlinked p' hp'.1] at hc
        cases hc
      · cases p with
        | output out => cases hm
        | input i => exact hp'.2 (BuildNode.created.inj hm).2
    case joined =>
      intro c
      show (u.linked G.withBridges p.own.out p.own.input).Joined c ↔ _
      rw [PipelineImpl.joined_linked hlive, hjoined, h.joined, or_assoc]
      refine or_congr_right ⟨?_, ?_⟩
      · rintro (⟨p', hp', hc⟩ | rfl)
        · exact ⟨p', List.mem_append_left _ hp', hc⟩
        · exact ⟨p, List.mem_append_right _ (List.mem_singleton_self p), .inl rfl⟩
      · rintro ⟨p', hp', hc⟩
        rcases List.mem_append.1 hp' with hp' | hp'
        · exact .inl ⟨p', hp', hc⟩
        · obtain rfl := List.mem_singleton.1 hp'
          rcases hc with rfl | ⟨c₀, hc₀, hcross, -⟩
          · exact .inr rfl
          · exact absurd hcross (h.notMem_of_bridge hnew hc₀)
    case queues => exact h.queues
    case done_bridges =>
      exact fun c hc p' hcross => List.mem_append_left _ (h.done_bridges c hc p' hcross)
    case moved_bridges => exact fun q hq => List.mem_append_left _ (h.moved_bridges q hq)
    case nodup =>
      exact List.nodup_append.2 ⟨h.nodup, List.nodup_singleton p, by
        rintro p' hp' _ hq rfl
        exact hnew (List.mem_singleton.1 hq ▸ hp')⟩
    case owned =>
      intro p' hp' kind hkind
      show u.parent _ = some u.self ∧ u.id _ ≠ -1
      rcases List.mem_append.1 hp' with hp' | hp'
      · obtain ⟨hparent, hid⟩ := h.owned p' hp' kind hkind
        rw [hids p' hp' kind hkind, hreceiver.self, hsender.self]
        exact ⟨hreceiver.parent_of_some _ _ (hsender.parent_of_some _ _ hparent), hid⟩
      · obtain rfl := List.mem_singleton.1 hp'
        rcases hkind with rfl | rfl
        · rw [hreceiver.id_of_ne _ hsender.assigned, hreceiver.self]
          exact ⟨hreceiver.parent_of_some _ _ hsender.parent, hsender.assigned⟩
        · exact ⟨hreceiver.parent, hreceiver.assigned⟩
    case xlinkBridges =>
      show b.xlinkBridges ++ _ = (b.bridges ++ [p]).map _
      rw [List.map_append, h.xlinkBridges]
      refine congrArg (· ++ _) (List.map_congr_left fun p' hp' => ?_)
      show _ = (u.id _, u.id _)
      rw [hids p' hp' _ (.inl rfl), hids p' hp' _ (.inr rfl)]
    case names =>
      show b.uniqueStreamNames ++ [name] = (b.bridges ++ [p]).map _
      rw [List.map_append, h.names]
      congr 1
      · exact List.map_congr_left fun p' hp' => (hnames p' hp' _).symm
      · exact congrArg (fun name => [name]) (hown _ (.inl rfl)).symm
    case paired =>
      intro p' hp'
      rcases List.mem_append.1 hp' with hp' | hp'
      · exact (hnames p' hp' _).trans ((h.paired p' hp').trans (hnames p' hp' _).symm)
      · obtain rfl := List.mem_singleton.1 hp'
        exact (hown _ (.inl rfl)).trans (hown _ (.inr rfl)).symm
    case unique =>
      refine List.nodup_append.2 ⟨h.unique, List.nodup_singleton name, ?_⟩
      rintro n hn _ hn' rfl
      exact hname (List.mem_singleton.1 hn' ▸ hn)

theorem Laid.bridgeConnection (hbook : s.Book G)
    (h : b.Laid G runOnHost s queueConnections done moved) {c : ConnectionInternal O I}
    (hc : s.Joined c) (hnew : c ∉ done)
    (hok : bridgeConnection G runOnHost defaultDevice s c b = .ok b') :
    b'.Laid G runOnHost s queueConnections (done ++ [c]) moved := by
  rw [BuildState.bridgeConnection] at hok
  cases hcross : G.crossing runOnHost c with
  | none =>
    rw [hcross] at hok
    cases hok
    have hiff : ∀ {c' : ConnectionInternal O I} {p : Port O I},
        G.crossing runOnHost c' = some p → (c' ∈ done ++ [c] ↔ c' ∈ done) := by
      intro c' p hp
      rw [List.mem_append, List.mem_singleton, or_iff_left]
      rintro rfl
      rw [hcross] at hp
      cases hp
    refine { h with joined := fun c' => ?_, done_bridges := fun c' hc' p hp => ?_ }
    · have hdone : ∀ c₀, c₀ ∈ done ++ [c] ∧ G.crossing runOnHost c₀ ≠ none ↔
          c₀ ∈ done ∧ G.crossing runOnHost c₀ ≠ none := by
        intro c₀
        refine and_congr_left fun hne => ?_
        obtain ⟨p, hp⟩ := Option.ne_none_iff_exists'.1 hne
        exact hiff hp
      have hmoved : ∀ p, (∃ c₀ ∈ done ++ [c], G.crossing runOnHost c₀ = some p ∧ c' = p.moved c₀) ↔
          ∃ c₀ ∈ done, G.crossing runOnHost c₀ = some p ∧ c' = p.moved c₀ :=
        fun p => exists_congr fun c₀ => and_congr_left fun hway => hiff hway.1
      rw [h.joined]
      simp only [hdone, hmoved]
    · exact h.done_bridges c' ((hiff hp).1 hc') p hp
  | some p =>
    rw [hcross] at hok
    obtain ⟨b₁, h₁, hok⟩ := Loop.bind_eq_ok.1 hok
    obtain ⟨b₂, h₂, hok⟩ := Loop.bind_eq_ok.1 hok
    obtain ⟨hlaid, hp⟩ := h.createBridge (.of_crossing hbook hc hcross) h₁
    obtain rfl := unlink_eq h₂
    obtain ⟨haccepted, rfl⟩ := link_eq hok
    have hgiven : b₁.pipeline.Joined c.given :=
      (hlaid.joined _).2 (.inl ⟨c, hc, rfl, fun hdone => hnew hdone.1⟩)
    have hlive : G.withBridges.outNode (p.moved c).out ∈
        (b₁.pipeline.unlinked G.withBridges c.given.out c.given.input).getAllNodes := by
      refine (hlaid.nodes _).2 ?_
      cases p with
      | output out => exact .inr ⟨_, hp, .inr rfl⟩
      | input i => exact .inl ⟨_, hc.outNode hbook, rfl⟩
    constructor
    case book => exact (hlaid.book.unlinked _ _).linked haccepted
    case ids => exact hlaid.ids.of_sameIds ⟨rfl, rfl, rfl, rfl, List.Subset.refl _⟩
    case leaf => exact hlaid.leaf
    case nodes => exact hlaid.nodes
    case bridgeable => exact hlaid.bridgeable
    case unlinked =>
      intro p' hp' kind
      refine List.eq_nil_iff_forall_not_mem.2 fun c' hc' => ?_
      rcases PipelineImpl.mem_connections_linked.1 hc' with hc' | ⟨hm, -⟩
      · have hold := (PipelineImpl.mem_connections_unlinked.1 hc').1
        rw [hlaid.unlinked p' hp'] at hold
        cases hold
      · cases p with
        | output out => exact hp' ((BuildNode.created.inj hm).2 ▸ hp)
        | input i => cases hm
    case joined =>
      intro c'
      show ((b₁.pipeline.unlinked G.withBridges c.given.out c.given.input).linked G.withBridges
        (p.moved c).out (p.moved c).input).Joined c' ↔ _
      rw [PipelineImpl.joined_linked hlive, PipelineImpl.joined_unlinked hlaid.book hgiven,
        hlaid.joined]
      constructor
      · rintro (⟨⟨c₀, hc₀, rfl, hleft⟩ | ⟨p', hp', hc'⟩, hne⟩ | rfl)
        · refine .inl ⟨c₀, hc₀, rfl, fun hdone => ?_⟩
          rcases List.mem_append.1 hdone.1 with hmem | hmem
          · exact hleft ⟨hmem, hdone.2⟩
          · exact hne (congrArg _ (List.mem_singleton.1 hmem))
        · refine .inr ⟨p', hp', hc'.imp_right ?_⟩
          rintro ⟨c₀, hc₀, hway⟩
          exact ⟨c₀, List.mem_append_left _ hc₀, hway⟩
        · exact .inr ⟨p, hp, .inr ⟨c, List.mem_append_right _ (List.mem_singleton_self c), hcross,
            rfl⟩⟩
      · rintro (⟨c₀, hc₀, rfl, hleft⟩ | ⟨p', hp', rfl | ⟨c₀, hc₀, hcross', rfl⟩⟩)
        · refine .inl ⟨.inl ⟨c₀, hc₀, rfl, fun hdone => ?_⟩, fun heq => ?_⟩
          · exact hleft ⟨List.mem_append_left _ hdone.1, hdone.2⟩
          · rw [ConnectionInternal.given_inj] at heq
            subst heq
            exact hleft ⟨List.mem_append_right _ (List.mem_singleton_self _), by simp [hcross]⟩
        · exact .inl ⟨.inr ⟨p', hp', .inl rfl⟩, p'.own_ne_given c⟩
        · rcases List.mem_append.1 hc₀ with hc₀ | hc₀
          · exact .inl ⟨.inr ⟨p', hp', .inr ⟨c₀, hc₀, hcross', rfl⟩⟩, p'.moved_ne_given c₀ c⟩
          · obtain rfl := List.mem_singleton.1 hc₀
            obtain rfl : p = p' := Option.some.inj (hcross.symm.trans hcross')
            exact .inr rfl
    case queues => exact hlaid.queues
    case done_bridges =>
      intro c' hc' p' hcross'
      rcases List.mem_append.1 hc' with hc' | hc'
      · exact hlaid.done_bridges c' hc' p' hcross'
      · rw [List.mem_singleton.1 hc', hcross] at hcross'
        exact Option.some.inj hcross' ▸ hp
    case moved_bridges => exact hlaid.moved_bridges
    case nodup => exact hlaid.nodup
    case owned => exact hlaid.owned
    case xlinkBridges => exact hlaid.xlinkBridges
    case names => exact hlaid.names
    case paired => exact hlaid.paired
    case unique => exact hlaid.unique

variable [DecidableEq Q]

omit [DecidableEq N] [DecidableEq P] in
theorem mem_moveQueue {out : O} {queue queue' : Q} {o : BuildOutput O I} :
    queue' ∈ (b.moveQueue out queue).queueConnections o ↔
      (queue' ∈ b.queueConnections o ∧ ¬(o = .given out ∧ queue' = queue)) ∨
        o = .created .XLinkInHost (.output out) ∧ queue' = queue := by
  rw [moveQueue]
  by_cases hreceiver : o = .created .XLinkInHost (.output out)
  · subst hreceiver
    simp
  · simp only [Function.update_of_ne hreceiver, hreceiver, false_and, or_false]
    by_cases hgiven : o = .given out
    · subst hgiven
      simp
    · simp [hgiven]

omit [DecidableEq P] in
theorem Laid.moveQueue (h : b.Laid G runOnHost s queueConnections done moved) {out : O}
    (hout : .output out ∈ b.bridges) (queue : Q) :
    (b.moveQueue out queue).Laid G runOnHost s queueConnections done (moved ++ [(out, queue)]) := by
  refine { h with queues := fun o queue' => ?_, moved_bridges := fun q hq => ?_ }
  · rw [mem_moveQueue, h.queues]
    simp only [List.mem_append, List.mem_singleton, Prod.mk.injEq]
    constructor
    · rintro (⟨⟨out', rfl, hq, hleft⟩ | ⟨out', rfl, hq⟩, hne⟩ | ⟨rfl, rfl⟩)
      · refine .inl ⟨out', rfl, hq, ?_⟩
        rintro (hq' | ⟨rfl, rfl⟩)
        · exact hleft hq'
        · exact hne ⟨rfl, rfl⟩
      · exact .inr ⟨out', rfl, .inl hq⟩
      · exact .inr ⟨out, rfl, .inr ⟨rfl, rfl⟩⟩
    · rintro (⟨out', rfl, hq, hleft⟩ | ⟨out', rfl, hq | ⟨rfl, rfl⟩⟩)
      · refine .inl ⟨.inl ⟨out', rfl, hq, fun hq' => hleft (.inl hq')⟩, ?_⟩
        rintro ⟨heq, rfl⟩
        exact hleft (.inr ⟨BuildOutput.given.inj heq, rfl⟩)
      · exact .inl ⟨.inr ⟨out', rfl, hq⟩, by simp⟩
      · exact .inr ⟨rfl, rfl⟩
  · rcases List.mem_append.1 hq with hq | hq
    · exact h.moved_bridges q hq
    · rwa [List.mem_singleton.1 hq]

theorem Laid.bridgeQueue (h : b.Laid G runOnHost s queueConnections done moved) {out : O}
    (hlive : G.outNode out ∈ s.getAllNodes) (hdevice : runOnHost (G.outNode out) = false) {queue : Q}
    (hok : bridgeQueue G defaultDevice s out b queue = .ok b') :
    b'.Laid G runOnHost s queueConnections done (moved ++ [(out, queue)]) := by
  obtain ⟨b₁, h₁, hok⟩ := Loop.bind_eq_ok.1 hok
  cases hok
  obtain ⟨hlaid, hout⟩ := h.createBridge (p := .output out) ⟨hlive, hdevice⟩ h₁
  exact hlaid.moveQueue hout queue

/-! ### The loops -/

/-- The queues that the loops have come to are queues of outputs of device nodes. -/
def Device (G : Ports N O I) (runOnHost : N → Bool) (s : PipelineImpl N O I P)
    (queueConnections : O → List Q) (q : O × Q) : Prop :=
  G.outNode q.1 ∈ s.getAllNodes ∧ runOnHost (G.outNode q.1) = false ∧ q.2 ∈ queueConnections q.1

theorem Laid.queuesOfOutput (h : b.Laid G runOnHost s queueConnections done moved) {out : O}
    (hlive : G.outNode out ∈ s.getAllNodes) (hdevice : runOnHost (G.outNode out) = false)
    (hok : (b.queueConnections (.given out)).foldlM
      (BuildState.bridgeQueue G defaultDevice s out) b = .ok b') :
    b'.Laid G runOnHost s queueConnections done
      (moved ++ (b.queueConnections (.given out)).map fun queue => (out, queue)) := by
  refine Loop.invariant (I := fun queues t => t.Laid G runOnHost s queueConnections done
    (moved ++ queues.map fun queue => (out, queue))) ?_ (by simpa using h) hok
  intro queues queue rest t u _ ht hu
  rw [List.map_append, ← List.append_assoc]
  exact ht.bridgeQueue hlive hdevice hu

theorem Laid.queuesOfNode (h : b.Laid G runOnHost s queueConnections done moved)
    (hmoved : ∀ q ∈ moved, Device G runOnHost s queueConnections q) {node : N}
    (hlive : node ∈ s.getAllNodes) (hdevice : runOnHost node = false) {outs : List O}
    (houts : ∀ out ∈ outs, G.outNode out = node)
    (hok : outs.foldlM (fun b out =>
      (b.queueConnections (.given out)).foldlM (BuildState.bridgeQueue G defaultDevice s out) b) b =
        .ok b') :
    ∃ moved', b'.Laid G runOnHost s queueConnections done moved' ∧
      (∀ q ∈ moved', Device G runOnHost s queueConnections q) ∧ moved ⊆ moved' ∧
        ∀ out ∈ outs, ∀ queue ∈ queueConnections out, (out, queue) ∈ moved' := by
  refine Loop.invariant (I := fun outs t => ∃ moved',
    t.Laid G runOnHost s queueConnections done moved' ∧
      (∀ q ∈ moved', Device G runOnHost s queueConnections q) ∧ moved ⊆ moved' ∧
        ∀ out ∈ outs, ∀ queue ∈ queueConnections out, (out, queue) ∈ moved') ?_
    ⟨moved, h, hmoved, List.Subset.refl _, by simp⟩ hok
  rintro before out rest t u hsplit ⟨moved', ht, hdev, hsub, hbefore⟩ hu
  have hnode : G.outNode out = node := houts out (by rw [hsplit]; simp)
  have hleft : ∀ queue, queue ∈ t.queueConnections (.given out) ↔
      queue ∈ queueConnections out ∧ (out, queue) ∉ moved' := by
    intro queue
    rw [ht.queues]
    simp
  refine ⟨_, ht.queuesOfOutput (hnode ▸ hlive) (hnode ▸ hdevice) hu, ?_, ?_, ?_⟩
  · intro q hq
    rcases List.mem_append.1 hq with hq | hq
    · exact hdev q hq
    · obtain ⟨queue, hqueue, rfl⟩ := List.mem_map.1 hq
      exact ⟨hnode ▸ hlive, hnode ▸ hdevice, ((hleft queue).1 hqueue).1⟩
  · exact fun q hq => List.mem_append_left _ (hsub hq)
  · intro out' hout' queue hqueue
    rcases List.mem_append.1 hout' with hout' | hout'
    · exact List.mem_append_left _ (hbefore out' hout' queue hqueue)
    · obtain rfl := List.mem_singleton.1 hout'
      by_cases hdone : (out', queue) ∈ moved'
      · exact List.mem_append_left _ hdone
      · exact List.mem_append_right _ (List.mem_map_of_mem ((hleft queue).2 ⟨hqueue, hdone⟩))

omit [DecidableEq Q] in
theorem laid_connections (hbook : s.Book G) (hids : s.Ids) {walk : N → List N}
    (hwalk : s.IsWalk walk) {order : List (ConnectionInternal O I)}
    (horder : order.Perm (s.getConnectionsInternal walk))
    (hok : order.foldlM (fun b c => BuildState.bridgeConnection G runOnHost defaultDevice s c b)
      (start s queueConnections) = .ok b) :
    b.Laid G runOnHost s queueConnections order [] := by
  have hnodup : order.Nodup := horder.nodup_iff.2 (s.nodup_getConnectionsInternal hbook hwalk)
  have hjoined : ∀ c ∈ order, s.Joined c := fun c hc =>
    s.joined_of_mem_getConnectionsInternal hwalk (horder.mem_iff.1 hc)
  refine Loop.invariant (I := fun done t => t.Laid G runOnHost s queueConnections done []) ?_
    (laid_start hbook hids) hok
  intro done c rest t u hsplit ht hu
  refine ht.bridgeConnection hbook (hjoined c (by rw [hsplit]; simp)) ?_ hu
  rw [hsplit, List.nodup_append] at hnodup
  exact fun hc => hnodup.2.2 c hc c List.mem_cons_self rfl

/-- **When the loops have ended, every connection that was enumerated has been come to, and every
queue of an output of a device node.** -/
theorem laid_createBridges {R : OutputRefs G} (hbook : s.Book G) (hids : s.Ids) {walk : N → List N}
    (hwalk : s.IsWalk walk) {order : List (ConnectionInternal O I)}
    (horder : order.Perm (s.getConnectionsInternal walk))
    (hok : createBridges runOnHost defaultDevice R s queueConnections order = .ok b) :
    ∃ moved, b.Laid G runOnHost s queueConnections order moved ∧
      ∀ q, q ∈ moved ↔ Device G runOnHost s queueConnections q := by
  obtain ⟨b₁, h₁, hok⟩ := Loop.bind_eq_ok.1 hok
  have hfirst := laid_connections hbook hids hwalk horder h₁
  have hsecond : ∃ moved, b.Laid G runOnHost s queueConnections order moved ∧
      (∀ q ∈ moved, Device G runOnHost s queueConnections q) ∧
        ∀ m ∈ b₁.pipeline.getAllNodes, ∀ q, m = .given (G.outNode q.1) →
          Device G runOnHost s queueConnections q → q ∈ moved := by
    refine Loop.invariant (I := fun nodes t => ∃ moved,
      t.Laid G runOnHost s queueConnections order moved ∧
        (∀ q ∈ moved, Device G runOnHost s queueConnections q) ∧
          ∀ m ∈ nodes, ∀ q, m = .given (G.outNode q.1) →
            Device G runOnHost s queueConnections q → q ∈ moved) ?_
      ⟨[], hfirst, by simp, by simp⟩ hok
    rintro before m rest t u hsplit ⟨moved, ht, hdev, hbefore⟩ hu
    have hm : m ∈ b₁.pipeline.getAllNodes := by rw [hsplit]; simp
    rcases m with node | ⟨kind, p⟩
    · by_cases hhost : runOnHost node
      · rw [bridgeQueues, if_pos hhost] at hu
        cases hu
        refine ⟨moved, ht, hdev, fun m hm' q hq hdevice => ?_⟩
        rcases List.mem_append.1 hm' with hm' | hm'
        · exact hbefore m hm' q hq hdevice
        · rw [List.mem_singleton.1 hm'] at hq
          obtain rfl := BuildNode.given.inj hq
          rw [hdevice.2.1] at hhost
          cases hhost
      · rw [bridgeQueues, if_neg hhost] at hu
        have hlive : node ∈ s.getAllNodes := by
          rcases (hfirst.nodes _).1 hm with ⟨n, hn, heq⟩ | ⟨p, -, heq | heq⟩
          · rwa [BuildNode.given.inj heq]
          · cases heq
          · cases heq
        obtain ⟨moved', hlaid, hdev', hsub, houts⟩ := ht.queuesOfNode hdev hlive
          (by simpa using hhost) (fun out hout => (R.mem_iff node out).1 hout) hu
        refine ⟨moved', hlaid, hdev', fun m hm' q hq hdevice => ?_⟩
        rcases List.mem_append.1 hm' with hm' | hm'
        · exact hsub (hbefore m hm' q hq hdevice)
        · rw [List.mem_singleton.1 hm'] at hq
          exact houts q.1 ((R.mem_iff node q.1).2 (BuildNode.given.inj hq).symm) q.2 hdevice.2.2
    · cases hu
      refine ⟨moved, ht, hdev, fun m hm' q hq hdevice => ?_⟩
      rcases List.mem_append.1 hm' with hm' | hm'
      · exact hbefore m hm' q hq hdevice
      · rw [List.mem_singleton.1 hm'] at hq
        cases hq
  obtain ⟨moved, hlaid, hdev, hcovered⟩ := hsecond
  refine ⟨moved, hlaid, fun q => ⟨hdev q, fun hdevice => hcovered _ ?_ q rfl hdevice⟩⟩
  exact (hfirst.nodes _).2 (.inl ⟨_, hdevice.1, rfl⟩)

end Rounds

end BuildState

end Invariant

end DepthaiCore
