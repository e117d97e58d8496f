import DepthaiCore.Pipeline.PipelineSchema

/-!
# What a schema names

Everything that a schema names should be in it: the nodes of its connections, with the outputs and
inputs at the ends, and the nodes of its bridges. And what is left out should not depend on the
order in which the connections are enumerated.

Nodes and connections are left out together, but bridges never are. A connection can lead to a node
that is not in the pipeline, and the nodes of a pipeline are filed under their ids, so that one of
them can take the place of another. And one pass over the connections need not find every node that
more than one connection lead to.
-/

open scoped Numerals

namespace DepthaiCore

variable {N O I P Q : Type*}

/-- **Everything that a schema names is in it.** -/
structure PipelineSchema.Closed (schema : PipelineSchema) : Prop where
  connections : ∀ c ∈ schema.connections,
    (∃ info, schema.nodes c.node1Id = some info ∧
      (info.ioInfo (c.node1OutputGroup, c.node1Output)).isSome) ∧
    ∃ info, schema.nodes c.node2Id = some info ∧
      (info.ioInfo (c.node2InputGroup, c.node2Input)).isSome
  bridges : ∀ bridge ∈ schema.bridges,
    (schema.nodes bridge.1).isSome ∧ (schema.nodes bridge.2).isSome

/-- The groups and names of the outputs and inputs of a node that a schema has. -/
def NodeData.ioKeys (G : Ports N O I) (D : NodeData N O I) (includePipelineDebugging : Bool)
    (node : N) : List (String × String) :=
  (D.getInputs node).map (fun i => (G.inGroup i, G.inName i)) ++
    ((D.getOutputs node).filter fun out => includePipelineDebugging || !G.isEvent out).map
      fun out => (G.outGroup out, G.outName out)

namespace PipelineImpl

section Definitions

variable (G : Ports N O I) (D : NodeData N O I) (s : PipelineImpl N O I P) (walk : N → List N)

/-- The orders in which `getConnectionsInternal` can return the connections: the ids come in any
order, and so do the connections that are filed under one id. -/
def Enumerates (order : List (ConnectionInternal O I)) : Prop :=
  Sweep.IsEnumeration ((s.nodes.flatMap walk).map s.id).dedup
    (fun id => (s.getConnectionMap walk id).getD []) order

/-- The nodes that are left out do not depend on the order. -/
def OrderFree : Prop :=
  ∀ order order', s.Enumerates walk order → s.Enumerates walk order' →
    ∀ id, id ∈ s.pipelineDebuggingNodeIds G false order ↔
      id ∈ s.pipelineDebuggingNodeIds G false order'

/-- A connection between a node of a bridge or a queue and another node, not for events. -/
def debuggingEdge (c : ConnectionInternal O I) : Option (ℤ × ℤ) :=
  if !G.isEvent c.out && G.hasBridgeEnd c then
    some (s.id (G.outNode c.out), s.id (G.inNode c.input))
  else none

/-- The id of a debugging node, or one that such a connection joins to one. -/
def NearDebugging (id : ℤ) : Prop :=
  Sweep.Near (s.debuggingEdge G) (s.pipelineDebuggingStart G) (s.getConnectionsInternal walk) id

/-- The last node of the pipeline that has the id of this node has an output or input of the group
and name. -/
def Listed (includePipelineDebugging : Bool) (node : N) (key : String × String) : Prop :=
  ∃ m, s.getAllNodes.reverse.find? (fun n => s.id n = s.id node) = some m ∧
    key ∈ D.ioKeys G includePipelineDebugging m

instance (includePipelineDebugging : Bool) (node : N) (key : String × String) :
    Decidable (s.Listed G D includePipelineDebugging node key) :=
  decidable_of_iff ((s.getAllNodes.reverse.find? fun n => s.id n = s.id node).any
    fun m => decide (key ∈ D.ioKeys G includePipelineDebugging m)) (by simp [Listed, Option.any_eq_true])

/-- **When everything that the schema names is in it, whatever the order.** -/
structure SchemaReady (xlinkBridges : List (ℤ × ℤ)) (includePipelineDebugging : Bool) : Prop where
  /-- What the ends of the connections are filed under has their groups and names. -/
  ends : ∀ c ∈ s.getConnectionsInternal walk,
    (includePipelineDebugging = false → G.isEvent c.out = false ∧
      ¬s.NearDebugging G walk (s.id (G.outNode c.out)) ∧
        ¬s.NearDebugging G walk (s.id (G.inNode c.input))) →
      s.Listed G D includePipelineDebugging (G.outNode c.out) (G.outGroup c.out, G.outName c.out) ∧
        s.Listed G D includePipelineDebugging (G.inNode c.input)
          (G.inGroup c.input, G.inName c.input)
  /-- No bridge is at a debugging node. -/
  bridges : includePipelineDebugging = false → ∀ bridge ∈ xlinkBridges,
    ¬s.NearDebugging G walk bridge.1 ∧ ¬s.NearDebugging G walk bridge.2
  /-- One connection leads wherever more of them do. -/
  settled : includePipelineDebugging = false →
    Sweep.Settled (s.debuggingEdge G) (s.pipelineDebuggingStart G) (s.getConnectionsInternal walk)

end Definitions

variable {G : Ports N O I} {D : NodeData N O I} {s : PipelineImpl N O I P} {walk : N → List N}
  {defaultDeviceId : String} {includePipelineDebugging : Bool} {excluded : List ℤ}

/-! ### The nodes -/

theorem addIo_eq {io : NodeIoInfo} {info info' : NodeObjInfo} (h : addIo io info = .ok info') :
    info'.ioInfo = Function.update info.ioInfo (io.group, io.name) (some io) := by
  rw [addIo] at h
  split at h
  · split at h <;> cases h
  · cases h
    rfl

/-- The keys under which a description has outputs and inputs. -/
def Keyed (keys : List (String × String)) (info : NodeObjInfo) : Prop :=
  ∀ key, (info.ioInfo key).isSome ↔ key ∈ keys

theorem Keyed.addIo {keys : List (String × String)} {io : NodeIoInfo} {info info' : NodeObjInfo}
    (hkeys : Keyed keys info) (h : PipelineImpl.addIo io info = .ok info') :
    Keyed (keys ++ [(io.group, io.name)]) info' := by
  intro key
  rw [addIo_eq h, List.mem_append, List.mem_singleton, ← hkeys key]
  by_cases heq : key = (io.group, io.name)
  · rw [heq, Function.update_self]
    simp
  · rw [Function.update_of_ne heq]
    simp [heq]

theorem Keyed.inputs {info : NodeObjInfo} {node : N} {n : ℕ} {st : NodeObjInfo × ℕ}
    (hkeys : Keyed [] info) (h : (D.getInputs node).foldlM (addInput G D) (info, n) = .ok st) :
    Keyed ((D.getInputs node).map fun i => (G.inGroup i, G.inName i)) st.1 := by
  refine Loop.invariant (I := fun done st => Keyed (done.map fun i => (G.inGroup i, G.inName i)) st.1)
    ?_ (by simpa using hkeys) h
  rintro done i rest st st' - hst hround
  rw [addInput] at hround
  obtain ⟨info, hinfo, hround⟩ := Loop.bind_eq_ok.1 hround
  cases hround
  rw [List.map_append]
  exact Keyed.addIo hst hinfo

theorem Keyed.outputs {keys : List (String × String)} {node : N} {st st' : NodeObjInfo × ℕ}
    (hkeys : Keyed keys st.1)
    (h : (D.getOutputs node).foldlM (addOutput G includePipelineDebugging) st = .ok st') :
    Keyed (keys ++ ((D.getOutputs node).filter
      fun out => includePipelineDebugging || !G.isEvent out).map
        fun out => (G.outGroup out, G.outName out)) st'.1 := by
  refine Loop.invariant (I := fun done st => Keyed (keys ++ (done.filter
    fun out => includePipelineDebugging || !G.isEvent out).map
      fun out => (G.outGroup out, G.outName out)) st.1) ?_ (by simpa using hkeys) h
  rintro done out rest st st' - hst hround
  rw [addOutput] at hround
  rw [List.filter_append, List.map_append, ← List.append_assoc]
  split at hround
  · rename_i hskip
    cases hround
    have hout : (includePipelineDebugging || !G.isEvent out) = false := by
      cases includePipelineDebugging <;> simp_all
    simpa [hout] using hst
  · rename_i hshown
    obtain ⟨info, hinfo, hround⟩ := Loop.bind_eq_ok.1 hround
    cases hround
    have hout : (includePipelineDebugging || !G.isEvent out) = true := by
      cases includePipelineDebugging <;> simp_all
    simpa [hout] using Keyed.addIo hst hinfo

theorem keyed_nodeInfo {node : N} {info : NodeObjInfo}
    (h : s.nodeInfo G D defaultDeviceId node = .ok info) : Keyed [] info := by
  have hempty : info.ioInfo = fun _ => none := by
    rw [nodeInfo] at h
    split at h
    · split at h
      · cases h
      · cases h
        rfl
    · cases h
      rfl
  intro key
  rw [hempty]
  simp

/-- What the loop files under an id that is not left out: the last of the nodes with this id. -/
def Filed (G : Ports N O I) (D : NodeData N O I) (s : PipelineImpl N O I P)
    (includePipelineDebugging : Bool) (excluded : List ℤ) (done : List N)
    (nodes : ℤ → Option NodeObjInfo) : Prop :=
  (∀ id ∈ excluded, nodes id = none) ∧ ∀ id ∉ excluded,
    Option.Rel (fun info m => Keyed (D.ioKeys G includePipelineDebugging m) info) (nodes id)
      (done.reverse.find? fun n => s.id n = id)

theorem Filed.addNode {done : List N} {node : N} {st st' : (ℤ → Option NodeObjInfo) × ℕ}
    (hfiled : s.Filed G D includePipelineDebugging excluded done st.1)
    (h : s.addNode G D defaultDeviceId includePipelineDebugging excluded st node = .ok st') :
    s.Filed G D includePipelineDebugging excluded (done ++ [node]) st'.1 := by
  rw [PipelineImpl.addNode] at h
  split at h
  · rename_i hexcluded
    cases h
    refine ⟨hfiled.1, fun id hid => ?_⟩
    have hne : s.id node ≠ id := fun heq => hid (heq ▸ hexcluded)
    simpa [hne] using hfiled.2 id hid
  · rename_i hshown
    obtain ⟨info, hinfo, h⟩ := Loop.bind_eq_ok.1 h
    obtain ⟨st₁, hinputs, h⟩ := Loop.bind_eq_ok.1 h
    obtain ⟨st₂, houtputs, h⟩ := Loop.bind_eq_ok.1 h
    cases h
    have hkeyed : Keyed (D.ioKeys G includePipelineDebugging node) st₂.1 :=
      ((keyed_nodeInfo hinfo).inputs hinputs).outputs houtputs
    constructor
    · intro id hid
      have hne : id ≠ s.id node := fun heq => hshown (heq ▸ hid)
      show Function.update st.1 (s.id node) (some st₂.1) id = none
      rw [Function.update_of_ne hne]
      exact hfiled.1 id hid
    · intro id hid
      show Option.Rel _ (Function.update st.1 (s.id node) (some st₂.1) id) _
      by_cases heq : id = s.id node
      · subst heq
        rw [Function.update_self]
        simpa using Option.Rel.some hkeyed
      · rw [Function.update_of_ne heq]
        simpa [Ne.symm heq] using hfiled.2 id hid

/-- **The nodes of the schema.** -/
theorem filed_nodes {st : (ℤ → Option NodeObjInfo) × ℕ}
    (h : s.getAllNodes.foldlM (s.addNode G D defaultDeviceId includePipelineDebugging excluded)
      (fun _ => none, 0) = .ok st) :
    s.Filed G D includePipelineDebugging excluded s.getAllNodes st.1 := by
  refine Loop.invariant (I := fun done st => s.Filed G D includePipelineDebugging excluded done st.1)
    ?_ ?_ h
  · rintro done node rest st st' - hst hround
    exact Filed.addNode hst hround
  · exact ⟨fun _ _ => rfl, fun _ _ => .none⟩

/-- An id that is not left out has a node with the key exactly when the last node with this id has
it. -/
theorem Filed.listed_iff {nodes : ℤ → Option NodeObjInfo}
    (h : s.Filed G D includePipelineDebugging excluded s.getAllNodes nodes) {node : N}
    (hshown : s.id node ∉ excluded) {key : String × String} :
    (∃ info, nodes (s.id node) = some info ∧ (info.ioInfo key).isSome) ↔
      s.Listed G D includePipelineDebugging node key := by
  have hrel := h.2 _ hshown
  rw [Listed]
  cases hnodes : nodes (s.id node) <;>
    cases hfind : s.getAllNodes.reverse.find? fun n => s.id n = s.id node
  all_goals
    rw [hnodes, hfind] at hrel
    cases hrel
  · simp
  · rename_i hkeyed
    simp [hkeyed key]

/-- A node of the pipeline is in the schema exactly when its id is not left out. -/
theorem Filed.isSome_iff {nodes : ℤ → Option NodeObjInfo}
    (h : s.Filed G D includePipelineDebugging excluded s.getAllNodes nodes) {node : N}
    (hnode : node ∈ s.getAllNodes) : (nodes (s.id node)).isSome ↔ s.id node ∉ excluded := by
  constructor
  · intro hsome hid
    rw [h.1 _ hid] at hsome
    cases hsome
  · intro hid
    have hrel := h.2 _ hid
    cases hfind : s.getAllNodes.reverse.find? fun n => s.id n = s.id node with
    | none =>
      have hnone := List.find?_eq_none.1 hfind node (List.mem_reverse.2 hnode)
      simp at hnone
    | some m =>
      rw [hfind] at hrel
      cases hnodes : nodes (s.id node) with
      | none =>
        rw [hnodes] at hrel
        cases hrel
      | some info => rfl

/-! ### The connections -/

/-- **The connections of the schema.** -/
theorem mem_connections {order : List (ConnectionInternal O I)}
    {connections : List NodeConnectionSchema}
    (h : order.foldlM (s.addConnection G D includePipelineDebugging excluded) [] = .ok connections)
    {c' : NodeConnectionSchema} :
    c' ∈ connections ↔ ∃ c ∈ order, (includePipelineDebugging = false → G.isEvent c.out = false) ∧
      s.id (G.outNode c.out) ∉ excluded ∧ s.id (G.inNode c.input) ∉ excluded ∧
        c' = s.connectionSchema G c := by
  refine Loop.invariant (I := fun done connections => ∀ c', c' ∈ connections ↔ ∃ c ∈ done,
    (includePipelineDebugging = false → G.isEvent c.out = false) ∧
      s.id (G.outNode c.out) ∉ excluded ∧ s.id (G.inNode c.input) ∉ excluded ∧
        c' = s.connectionSchema G c) ?_ (by simp) h c'
  rintro done c rest before after - hbefore hround c'
  have hsplit : (∃ c₁ ∈ done ++ [c], (includePipelineDebugging = false → G.isEvent c₁.out = false) ∧
      s.id (G.outNode c₁.out) ∉ excluded ∧ s.id (G.inNode c₁.input) ∉ excluded ∧
        c' = s.connectionSchema G c₁) ↔ c' ∈ before ∨
      (includePipelineDebugging = false → G.isEvent c.out = false) ∧
        s.id (G.outNode c.out) ∉ excluded ∧ s.id (G.inNode c.input) ∉ excluded ∧
          c' = s.connectionSchema G c := by
    rw [hbefore c']
    simp only [List.mem_append, List.mem_singleton, or_and_right, exists_or, exists_eq_left]
  rw [hsplit]
  simp only [addConnection] at hround
  split at hround
  · rename_i hevent
    cases hround
    simp at hevent
    simp [hevent]
  · rename_i hevent
    split at hround
    · rename_i hexcluded
      cases hround
      rcases hexcluded with hexcluded | hexcluded <;> simp [hexcluded]
    · rename_i hkept
      split at hround
      · cases hround
      · split at hround
        · cases hround
        · cases hround
          obtain ⟨hout, hin⟩ := not_or.1 hkept
          have hshown : includePipelineDebugging = false → G.isEvent c.out = false := by
            intro hfalse
            simpa [hfalse] using hevent
          rw [List.mem_append, List.mem_singleton]
          exact or_congr_right ⟨fun h => ⟨hshown, hout, hin, h⟩, fun h => h.2.2.2⟩

/-! ### The nodes that are left out -/

theorem pipelineDebuggingVisit_eq :
    s.pipelineDebuggingVisit G = Sweep.visit (s.debuggingEdge G) := by
  funext ids c
  rw [pipelineDebuggingVisit, Sweep.visit, debuggingEdge]
  cases G.isEvent c.out <;> cases G.hasBridgeEnd c <;> rfl

theorem pipelineDebuggingNodeIds_eq {order : List (ConnectionInternal O I)} :
    s.pipelineDebuggingNodeIds G false order =
      Sweep.sweep (s.debuggingEdge G) (s.pipelineDebuggingStart G) order := by
  rw [pipelineDebuggingNodeIds, pipelineDebuggingVisit_eq]
  rfl

theorem Enumerates.mem_iff {order : List (ConnectionInternal O I)} (h : s.Enumerates walk order)
    {c : ConnectionInternal O I} : c ∈ order ↔ c ∈ s.getConnectionsInternal walk :=
  Sweep.IsEnumeration.mem_iff h

/-- If one connection leads wherever more of them do, the nodes left out are the debugging nodes and
those that a connection joins to one, whatever the order. -/
theorem mem_pipelineDebuggingNodeIds (hsettled : Sweep.Settled (s.debuggingEdge G)
      (s.pipelineDebuggingStart G) (s.getConnectionsInternal walk))
    {order : List (ConnectionInternal O I)} (horder : s.Enumerates walk order) {id : ℤ} :
    id ∈ s.pipelineDebuggingNodeIds G false order ↔ s.NearDebugging G walk id := by
  have hmem : ∀ c, c ∈ order ↔ c ∈ s.getConnectionsInternal walk := fun c => horder.mem_iff
  rw [pipelineDebuggingNodeIds_eq, ((Sweep.settled_congr hmem).2 hsettled).mem_sweep_iff,
    Sweep.near_congr hmem]
  rfl

/-- **What is left out depends on no order exactly when one connection leads wherever more of them
do.** -/
theorem orderFree_iff [DecidableEq N] [DecidableEq O] [DecidableEq I] (hbook : s.Book G)
    (hwalk : s.IsWalk walk) :
    s.OrderFree G walk ↔ Sweep.Settled (s.debuggingEdge G) (s.pipelineDebuggingStart G)
      (s.getConnectionsInternal walk) := by
  constructor
  · intro hfree
    refine Sweep.settled_of_free ?_ (List.nodup_dedup _) ?_
    · intro id c hc u v hedge
      obtain ⟨m, -, hid, hjoined⟩ := exists_of_mem_getConnectionMap hwalk hc
      rw [debuggingEdge] at hedge
      split at hedge
      · rw [← hid, ← hbook.outNode m c hjoined]
        exact (Prod.mk.inj (Option.some.inj hedge)).1.symm
      · cases hedge
    · intro order order' horder horder' id
      have h := hfree order order' horder horder' id
      rwa [pipelineDebuggingNodeIds_eq, pipelineDebuggingNodeIds_eq] at h
  · intro hsettled order order' horder horder' id
    rw [mem_pipelineDebuggingNodeIds hsettled horder, mem_pipelineDebuggingNodeIds hsettled horder']

/-! ### The schema -/

/-- **Everything that the schema names is in it, and the order does not matter, exactly when the
pipeline is ready for it.** -/
theorem closed_iff [DecidableEq N] [DecidableEq O] [DecidableEq I] (hbook : s.Book G)
    (hwalk : s.IsWalk walk) {xlinkBridges : List (ℤ × ℤ)}
    (hbridges : ∀ bridge ∈ xlinkBridges, ∃ m ∈ s.getAllNodes, ∃ m' ∈ s.getAllNodes,
      bridge = (s.id m, s.id m'))
    {order order' : List (ConnectionInternal O I)} (horder : s.Enumerates walk order)
    (horder' : s.Enumerates walk order') {schema : PipelineSchema}
    (hschema : s.getPipelineSchema G D defaultDeviceId xlinkBridges includePipelineDebugging order
      order' = .ok schema) :
    (schema.Closed ∧ (includePipelineDebugging = false → s.OrderFree G walk)) ↔
      s.SchemaReady G D walk xlinkBridges includePipelineDebugging := by
  obtain ⟨st, hst, hschema⟩ := Loop.bind_eq_ok.1 hschema
  obtain ⟨connections, hconnections, hschema⟩ := Loop.bind_eq_ok.1 hschema
  cases hschema
  have hfiled := filed_nodes hst
  have hmem := fun c' => (mem_connections hconnections : c' ∈ connections ↔ _)
  -- What is left out, when the order does not matter.
  have hexcluded : (includePipelineDebugging = false → Sweep.Settled (s.debuggingEdge G)
      (s.pipelineDebuggingStart G) (s.getConnectionsInternal walk)) → ∀ id,
      id ∉ s.pipelineDebuggingNodeIds G includePipelineDebugging order ↔
        (includePipelineDebugging = false → ¬s.NearDebugging G walk id) := by
    intro hsettled id
    cases includePipelineDebugging with
    | true => simp [pipelineDebuggingNodeIds]
    | false => simp [mem_pipelineDebuggingNodeIds (hsettled rfl) horder]
  constructor
  · rintro ⟨⟨hends, hnodes⟩, hfree⟩
    have hsettled := fun hfalse => (orderFree_iff hbook hwalk).1 (hfree hfalse)
    constructor
    case ends =>
      intro c hc hkept
      have hout := (hexcluded hsettled (s.id (G.outNode c.out))).2 fun h => (hkept h).2.1
      have hin := (hexcluded hsettled (s.id (G.inNode c.input))).2 fun h => (hkept h).2.2
      have hclosed := hends _ ((hmem _).2 ⟨c, horder'.mem_iff.2 hc, fun h => (hkept h).1, hout, hin,
        rfl⟩)
      exact ⟨(hfiled.listed_iff hout).1 hclosed.1, (hfiled.listed_iff hin).1 hclosed.2⟩
    case bridges =>
      intro hfalse bridge hbridge
      obtain ⟨m, hm, m', hm', rfl⟩ := hbridges bridge hbridge
      obtain ⟨hfirst, hsecond⟩ := hnodes _ hbridge
      exact ⟨(hexcluded hsettled _).1 ((hfiled.isSome_iff hm).1 hfirst) hfalse,
        (hexcluded hsettled _).1 ((hfiled.isSome_iff hm').1 hsecond) hfalse⟩
    case settled => exact hsettled
  · intro hready
    have hshown := hexcluded hready.settled
    refine ⟨⟨?_, ?_⟩, fun hfalse => (orderFree_iff hbook hwalk).2 (hready.settled hfalse)⟩
    · intro c' hc'
      obtain ⟨c, hc, hevent, hout, hin, rfl⟩ := (hmem c').1 hc'
      obtain ⟨hlisted, hlisted'⟩ := hready.ends c (horder'.mem_iff.1 hc) fun h =>
        ⟨hevent h, (hshown _).1 hout h, (hshown _).1 hin h⟩
      exact ⟨(hfiled.listed_iff hout).2 hlisted, (hfiled.listed_iff hin).2 hlisted'⟩
    · intro bridge hbridge
      obtain ⟨m, hm, m', hm', rfl⟩ := hbridges bridge hbridge
      exact ⟨(hfiled.isSome_iff hm).2 ((hshown _).2 fun h => (hready.bridges h _ hbridge).1),
        (hfiled.isSome_iff hm').2 ((hshown _).2 fun h => (hready.bridges h _ hbridge).2)⟩

/-! ### After `build` -/

/-- A pipeline that is built, and what calls can make of it: nothing leaves it, and no id changes.
-/
structure StaysBuilt (s t : PipelineImpl N O I P) : Prop where
  isBuild : t.isBuild = true
  getAllNodes : ∀ m ∈ s.getAllNodes, m ∈ t.getAllNodes
  id : ∀ m, s.id m ≠ -1 → t.id m = s.id m

theorem StaysBuilt.refl (h : s.isBuild = true) : s.StaysBuilt s :=
  ⟨h, fun _ hm => hm, fun _ _ => rfl⟩

theorem StaysBuilt.trans {t u : PipelineImpl N O I P} (h : s.StaysBuilt t) (h' : t.StaysBuilt u) :
    s.StaysBuilt u := by
  refine ⟨h'.isBuild, fun m hm => h'.getAllNodes m (h.getAllNodes m hm), fun m hm => ?_⟩
  rw [h'.id m (by rwa [h.id m hm]), h.id m hm]

section Calls

variable [DecidableEq N] [DecidableEq O] [DecidableEq I] [DecidableEq P]

theorem staysBuilt_call (h : s.isBuild = true) (c : PipelineCall N O I) :
    s.StaysBuilt (s.call G c).1 := by
  have hid : ∀ m, s.id m ≠ -1 → (s.call G c).1.id m = s.id m := by
    intro m hm
    cases c with
    | add node => exact id_add_of_ne hm
    | link out input => rw [(sameIds_call fun node => by simp).id]
    | unlink out input => rw [(sameIds_call fun node => by simp).id]
    | remove toRemove => rw [(sameIds_call fun node => by simp).id]
  by_cases hok : c.Accepted G s
  · cases c with
    | add node =>
      cases node with
      | none => exact hok.elim
      | some node =>
        obtain ⟨t, hnode, heq, hgraph, -⟩ := exists_add (G := G) hok
        rw [call, heq] at hid ⊢
        refine ⟨hgraph.isBuild.trans h, fun m hm => ?_, hid⟩
        rw [getAllNodes_pushNode hnode, hgraph.getAllNodes]
        exact List.mem_append_left _ hm
    | link out input =>
      rw [call, Output.link_eq hok] at hid ⊢
      exact ⟨h, fun _ hm => hm, hid⟩
    | unlink out input =>
      rw [call, Output.unlink_eq hok] at hid ⊢
      exact ⟨h, fun _ hm => hm, hid⟩
    | remove toRemove =>
      have hnot : s.isBuild = false := hok.1
      rw [h] at hnot
      cases hnot
  · have hgraph := sameGraph_call hok
    exact ⟨hgraph.isBuild.trans h, fun m hm => by rwa [hgraph.getAllNodes], hid⟩

theorem staysBuilt_graphStep (h : s.isBuild = true) {c : GraphCall N O I}
    {t : PipelineImpl N O I P} (hstep : graphStep G s c = some t) : s.StaysBuilt t := by
  cases c with
  | call c =>
    obtain rfl := Option.some.inj hstep
    exact staysBuilt_call h c
  | attach node child =>
    rw [graphStep] at hstep
    split at hstep
    · rename_i hacyclic
      obtain rfl := Option.some.inj hstep
      refine ⟨h, fun m hm => ?_, fun _ _ => rfl⟩
      rw [getAllNodes_eq, List.mem_flatMap] at hm ⊢
      obtain ⟨n, hn, hm⟩ := hm
      exact ⟨n, hn, (s.nodeMap.mem_subtree_attach hacyclic).2 (.inl hm)⟩
    · cases hstep

end Calls

end PipelineImpl

/-- The pipeline that `build` leaves. -/
def BuildState.built (b : BuildState N O I P Q) :
    PipelineImpl (BuildNode N O I) (BuildOutput O I) (BuildInput O I) P :=
  { b.pipeline with isBuild := true }

namespace PipelineImpl

variable [DecidableEq N] [DecidableEq O] [DecidableEq I] [DecidableEq P] [DecidableEq Q]
  {G : Ports N O I} {D : NodeData N O I} {s : PipelineImpl N O I P} {walk : N → List N}
  {defaultDeviceId : String} {includePipelineDebugging : Bool}

omit [DecidableEq N] [DecidableEq O] [DecidableEq I] [DecidableEq P] in
/-- Without nodes for debugging only the ends of the connections count. -/
theorem SchemaReady.of_start (hstart : s.pipelineDebuggingStart G = [])
    (hends : ∀ c ∈ s.getConnectionsInternal walk,
      (includePipelineDebugging = false → G.isEvent c.out = false) →
        s.Listed G D includePipelineDebugging (G.outNode c.out) (G.outGroup c.out, G.outName c.out) ∧
          s.Listed G D includePipelineDebugging (G.inNode c.input)
            (G.inGroup c.input, G.inName c.input))
    (xlinkBridges : List (ℤ × ℤ)) :
    s.SchemaReady G D walk xlinkBridges includePipelineDebugging := by
  have hnear : ∀ id, ¬s.NearDebugging G walk id := by
    rintro id (hid | ⟨u, hu, -⟩)
    · simp [hstart] at hid
    · simp [hstart] at hu
  constructor
  case ends => exact fun c hc hkept => hends c hc fun h => (hkept h).1
  case bridges => exact fun _ bridge _ => ⟨hnear _, hnear _⟩
  case settled => exact fun _ u v _ hu => absurd hu (hnear u)

omit [DecidableEq P] in
/-- **A pipeline of nodes with different ids and none of them for debugging, that are linked with
one another only, is ready.** -/
theorem SchemaReady.of_identified (hid : s.Identified) (hwalk : s.IsWalk walk) (hbook : s.Book G)
    (hports : ∀ c, s.Joined c →
      c.out ∈ D.getOutputs (G.outNode c.out) ∧ c.input ∈ D.getInputs (G.inNode c.input))
    (hlinks : ∀ c, s.Joined c → G.inNode c.input ∈ s.getAllNodes)
    (hnone : ∀ m ∈ s.getAllNodes, G.isPipelineDebugging m = false)
    (xlinkBridges : List (ℤ × ℤ)) :
    s.SchemaReady G D walk xlinkBridges includePipelineDebugging := by
  have hlisted : ∀ {node key}, node ∈ s.getAllNodes → key ∈ D.ioKeys G includePipelineDebugging node →
      s.Listed G D includePipelineDebugging node key := by
    intro node key hnode hkey
    cases hfind : s.getAllNodes.reverse.find? fun n => s.id n = s.id node with
    | none =>
      have hmiss := List.find?_eq_none.1 hfind node (List.mem_reverse.2 hnode)
      simp at hmiss
    | some m =>
      have hm := List.mem_reverse.1 (List.mem_of_find?_eq_some hfind)
      have heq : s.id m = s.id node := by simpa using List.find?_some hfind
      obtain rfl := hid.injective hm hnode heq
      exact ⟨m, hfind, hkey⟩
  refine .of_start ?_ ?_ xlinkBridges
  · rw [pipelineDebuggingStart, List.filter_eq_nil_iff.2 (fun m hm => by simp [hnone m hm]),
      List.map_nil]
  · intro c hc hevent
    have hjoined := joined_of_mem_getConnectionsInternal hwalk hc
    obtain ⟨hout, hin⟩ := hports c hjoined
    refine ⟨hlisted (hjoined.outNode hbook) ?_, hlisted (hlinks c hjoined) ?_⟩
    · refine List.mem_append_right _ (List.mem_map.2 ⟨c.out, List.mem_filter.2 ⟨hout, ?_⟩, rfl⟩)
      cases hflag : includePipelineDebugging with
      | true => rfl
      | false => simp [hevent hflag]
    · exact List.mem_append_left _ (List.mem_map.2 ⟨c.input, hin, rfl⟩)

/-- **For every pipeline that calls can make, built, and with whatever calls come after `build`:
everything that its schema names is in it, whatever the order of the connections, exactly when the
pipeline is ready for it.** -/
theorem closed_run_iff {self : P} {nodeMap : Hierarchy N} {parent : N → Option P}
    {tr : List (PipelineImpl N O I P × GraphCall N O I)}
    (hrun : Transition.Run (graphStep G) (fresh self nodeMap parent) tr s)
    {defaultDevice : Bool} {R : OutputRefs G} {queueConnections : O → List Q}
    (hwalk : s.IsWalk walk) {buildOrder : List (ConnectionInternal O I)}
    (hbuildOrder : buildOrder.Perm (s.getConnectionsInternal walk)) {b : BuildState N O I P Q}
    (hok : BuildState.createBridges D.runOnHost defaultDevice R s queueConnections buildOrder = .ok b)
    {later : List (PipelineImpl (BuildNode N O I) (BuildOutput O I) (BuildInput O I) P ×
      GraphCall (BuildNode N O I) (BuildOutput O I) (BuildInput O I))}
    {t : PipelineImpl (BuildNode N O I) (BuildOutput O I) (BuildInput O I) P}
    (hlater : Transition.Run (graphStep G.withBridges) b.built later t)
    {walk' : BuildNode N O I → List (BuildNode N O I)} (hwalk' : t.IsWalk walk')
    {order order' : List (ConnectionInternal (BuildOutput O I) (BuildInput O I))}
    (horder : t.Enumerates walk' order) (horder' : t.Enumerates walk' order')
    {deviceNode : XLinkNode → Port O I → List UInt8 × LogLevel} {schema : PipelineSchema}
    (hschema : t.getPipelineSchema G.withBridges (D.withBridges deviceNode) defaultDeviceId
      b.xlinkBridges includePipelineDebugging order order' = .ok schema) :
    (schema.Closed ∧ (includePipelineDebugging = false → t.OrderFree G.withBridges walk')) ↔
      t.SchemaReady G.withBridges (D.withBridges deviceNode) walk' b.xlinkBridges
        includePipelineDebugging := by
  obtain ⟨hbook, hids⟩ := book_ids_run hrun
  obtain ⟨moved, hlaid, -⟩ := BuildState.laid_createBridges hbook hids hwalk hbuildOrder hok
  have hstart : b.built.Book G.withBridges ∧ b.built.Ids :=
    ⟨⟨hlaid.book.counts, hlaid.book.outNode, hlaid.book.listed, hlaid.book.distinct⟩,
      ⟨hlaid.ids.nonneg, hlaid.ids.unowned, hlaid.ids.range, hlaid.ids.injective⟩⟩
  obtain ⟨hafter, hstays⟩ := hlater.invariant
    (I := fun t => (t.Book G.withBridges ∧ t.Ids) ∧ b.built.StaysBuilt t)
    (fun _ _ _ h hstep => ⟨book_ids_graphStep h.1 hstep,
      h.2.trans (staysBuilt_graphStep h.2.isBuild hstep)⟩) ⟨hstart, .refl rfl⟩
  refine closed_iff hafter.1 hwalk' ?_ horder horder' hschema
  -- The nodes of the bridges are in the pipeline still.
  intro bridge hbridge
  rw [hlaid.xlinkBridges] at hbridge
  obtain ⟨p, hp, rfl⟩ := List.mem_map.1 hbridge
  have hnode : ∀ kind, kind = p.sender ∨ kind = p.receiver → .created kind p ∈ t.getAllNodes ∧
      t.id (.created kind p) = b.pipeline.id (.created kind p) := by
    intro kind hkind
    refine ⟨hstays.getAllNodes _ ((hlaid.nodes _).2 (.inr ⟨p, hp, ?_⟩)),
      hstays.id _ (hlaid.owned p hp kind hkind).2⟩
    rcases hkind with rfl | rfl
    · exact .inl rfl
    · exact .inr rfl
  obtain ⟨hsender, hid⟩ := hnode p.sender (.inl rfl)
  obtain ⟨hreceiver, hid'⟩ := hnode p.receiver (.inr rfl)
  exact ⟨_, hsender, _, hreceiver, by rw [hid, hid']⟩

/-- What the nodes of `fourNodes` say of themselves. -/
def fourData : NodeData (Fin 4) (Fin 2) Unit where
  getInputs n := if n = 0 then [()] else []
  getOutputs := fourRefs.getOutputRefs
  runOnHost := (· ≠ 0)
  getAlias _ := ""
  parentId _ := -1
  isBuiltInNode _ := true
  deviceNode n := if n = 0 then some ([], .WARN) else none
  getBlocking _ := true
  getMaxSize _ := 3
  getWaitForMessage _ := false

omit [DecidableEq N] [DecidableEq O] [DecidableEq I] [DecidableEq P] [DecidableEq Q] in
theorem enumerates_getConnectionsInternal : s.Enumerates walk (s.getConnectionsInternal walk) :=
  ⟨_, _, .refl _, List.forall₂_map_right_iff.2 (List.forall₂_same.2 fun _ _ => .refl _), rfl⟩

/-- A host node that is linked to the device node. -/
theorem closed_run_link :
    let s := ((Transition.exec (graphStep fourNodes) fourFresh
      [.call (.add (some 0)), .call (.add (some 2)), .call (.link 0 ())]).get (by decide)).2
    let b := (fourBridges s).toOption.get (by decide)
    let order := b.built.getConnectionsInternal b.built.nodeMap.subtree
    ((b.built.getPipelineSchema fourNodes.withBridges (fourData.withBridges fun _ _ => ([], .WARN))
      "" b.xlinkBridges false order order).toOption.get (by decide)).Closed := by
  intro s b order
  refine ((closed_run_iff (Transition.Run.of_isSome _) (isWalk_subtree _) (List.Perm.refl _)
    (eq_ok_get _) .nil (isWalk_subtree _) enumerates_getConnectionsInternal
    enumerates_getConnectionsInternal (eq_ok_get _)).2 (.of_start (by decide) ?_ _)).1
  decide

/-- A device node that aggregates events, and a host node that merges states. -/
def debuggingNodes : Ports (Fin 2) Unit Unit where
  nodeName n := if n = 0 then "PipelineEventAggregation" else "PipelineStateMerge"
  outNode _ := 0
  outName _ := "out"
  outGroup _ := ""
  outType _ := .MSender
  outDatatypes _ := [⟨.PipelineState, false, by decide⟩]
  inNode _ := 1
  inName _ := "inputDevice"
  inGroup _ := ""
  inType _ := .SReceiver
  inDatatypes _ := [⟨.PipelineState, false, by decide⟩]

/-- What they say of themselves. -/
def debuggingData : NodeData (Fin 2) Unit Unit where
  getInputs n := if n = 1 then [()] else []
  getOutputs n := if n = 0 then [()] else []
  runOnHost := (· ≠ 0)
  getAlias _ := ""
  parentId _ := -1
  isBuiltInNode _ := true
  deviceNode n := if n = 0 then some ([], .WARN) else none
  getBlocking _ := true
  getMaxSize _ := 3
  getWaitForMessage _ := false

/-- Its outputs. -/
def debuggingRefs : OutputRefs debuggingNodes where
  getOutputRefs := debuggingData.getOutputs
  mem_iff := by decide

/-- The two of them, linked as `build` links them for debugging. All nodes are left out of the
schema, but the bridge is not. -/
theorem closed_run_debugging :
    let s := ((Transition.exec (graphStep debuggingNodes)
      (fresh () ⟨fun _ => [], fun _ => 0, by simp⟩ fun _ => none : PipelineImpl (Fin 2) Unit Unit Unit)
      [.call (.add (some 0)), .call (.add (some 1)), .call (.link () ())]).get (by decide)).2
    let b := (BuildState.createBridges (Q := Unit) debuggingData.runOnHost true debuggingRefs s
      (fun _ => []) (s.getConnectionsInternal s.nodeMap.subtree)).toOption.get (by decide)
    let order := b.built.getConnectionsInternal b.built.nodeMap.subtree
    let schema := (b.built.getPipelineSchema debuggingNodes.withBridges
      (debuggingData.withBridges fun _ _ => ([], .WARN)) "" b.xlinkBridges false order
        order).toOption.get (by decide)
    schema.bridges = [(2, 3)] ∧ ¬schema.Closed := by
  intro s b order schema
  have hbridges : schema.bridges = [(2, 3)] := by decide
  refine ⟨hbridges, fun hclosed => ?_⟩
  have hsome := (hclosed.bridges (2, 3) (by rw [hbridges]; simp)).1
  exact absurd hsome (by decide)

end PipelineImpl

end DepthaiCore
