import DepthaiCore.Lib.Separators
import DepthaiCore.Pipeline.BuildGraph

/-!
# Stream names

The name of a stream is put together with underscores: from the id of a node and the group and name
of an output or input if a connection made the bridge, and from the id and the name alone if a queue
did. Two names of different nodes differ, since there is no underscore in an id. Two of one node can
be equal: an underscore can be part of a group or a name, and the names that queues make leave out
the group. `build` throws then.
-/

namespace DepthaiCore

variable {N O I P Q : Type*}

/-! ### Ports and their names -/

namespace Ports

variable (G : Ports N O I)

/-- The node of an output or input. -/
def portNode : Port O I → N
  | .output out => G.outNode out
  | .input i => G.inNode i

/-- `getGroup` of an output or input. -/
def portGroup : Port O I → String
  | .output out => G.outGroup out
  | .input i => G.inGroup i

/-- `getName` of an output or input. -/
def portName : Port O I → String
  | .output out => G.outName out
  | .input i => G.inName i

/-- On each node the pairs of group and name are different, of all inputs and outputs. -/
def UniqueNames : Prop :=
  ∀ p p' : Port O I, G.portNode p = G.portNode p' → G.portGroup p = G.portGroup p' →
    G.portName p = G.portName p' → p = p'

end Ports

namespace BuildState

section Names

variable (G : Ports N O I) (runOnHost : N → Bool) (s : PipelineImpl N O I P)
  (queueConnections : O → List Q) (order : List (ConnectionInternal O I))

/-- A connection makes the bridge of the port. -/
def LinkBridged (p : Port O I) : Prop :=
  ∃ c ∈ order, G.crossing runOnHost c = some p

/-- A queue of the output needs a bridge. -/
def QueueBridged (p : Port O I) : Prop :=
  ∃ q, Device G runOnHost s queueConnections q ∧ p = .output q.1

/-- `build` gives the port a bridge. -/
def Bridges (p : Port O I) : Prop :=
  LinkBridged G runOnHost order p ∨ QueueBridged G runOnHost s queueConnections p

variable [DecidableEq O] [DecidableEq I]

instance (p : Port O I) : Decidable (LinkBridged G runOnHost order p) :=
  inferInstanceAs (Decidable (∃ c ∈ order, G.crossing runOnHost c = some p))

/-- The stream name that is made for the port. -/
def portStreamName (p : Port O I) : String :=
  if LinkBridged G runOnHost order p then s.connectionStreamName G p
  else "__x_" ++ toString (s.id (G.portNode p)) ++ "_" ++ G.portName p

/-- How the first port comes to have the stream name of the second. Their connections make both
names, and the group of the second is the group of the first, an underscore, and what the first has
in front of the name of the second; or only queues need the second, and its name is the group and
name of the first; or only queues need both, and they have one name. -/
def Clash (p p' : Port O I) : Prop :=
  if LinkBridged G runOnHost order p then
    if LinkBridged G runOnHost order p' then
      ∃ rest, G.portGroup p' = G.portGroup p ++ "_" ++ rest ∧
        G.portName p = rest ++ "_" ++ G.portName p'
    else G.portName p' = G.portGroup p ++ "_" ++ G.portName p
  else ¬LinkBridged G runOnHost order p' ∧ G.portName p = G.portName p'

end Names

/-! ### When two names are equal -/

variable {G : Ports N O I} {runOnHost : N → Bool} {s : PipelineImpl N O I P}
  {queueConnections : O → List Q} {order : List (ConnectionInternal O I)}

/-- What follows the id in a stream name. -/
def portSuffix [DecidableEq O] [DecidableEq I] (G : Ports N O I) (runOnHost : N → Bool)
    (order : List (ConnectionInternal O I)) (p : Port O I) : String :=
  if LinkBridged G runOnHost order p then G.portGroup p ++ "_" ++ G.portName p else G.portName p

variable [DecidableEq O] [DecidableEq I]

theorem portStreamName_eq (p : Port O I) : portStreamName G runOnHost s order p =
    "__x_" ++ (toString (s.id (G.portNode p)) ++ "_" ++ portSuffix G runOnHost order p) := by
  rw [portStreamName, portSuffix]
  split
  · cases p <;>
      simp only [PipelineImpl.connectionStreamName, Ports.portNode, Ports.portGroup, Ports.portName,
        String.append_assoc]
  · simp only [String.append_assoc]

theorem portStreamName_inj {p p' : Port O I} :
    portStreamName G runOnHost s order p = portStreamName G runOnHost s order p' ↔
      s.id (G.portNode p) = s.id (G.portNode p') ∧
        portSuffix G runOnHost order p = portSuffix G runOnHost order p' := by
  rw [portStreamName_eq, portStreamName_eq, String.append_right_inj,
    Separators.toString_append_inj]

/-- What follows the id is equal for ports of one group and name, and for those that clash. -/
theorem portSuffix_eq_iff {p p' : Port O I} :
    portSuffix G runOnHost order p = portSuffix G runOnHost order p' ↔
      (LinkBridged G runOnHost order p ∧ LinkBridged G runOnHost order p' ∧
        G.portGroup p = G.portGroup p' ∧ G.portName p = G.portName p') ∨
          Clash G runOnHost order p p' ∨ Clash G runOnHost order p' p := by
  rw [portSuffix, portSuffix, Clash, Clash]
  by_cases hp : LinkBridged G runOnHost order p <;> by_cases hp' : LinkBridged G runOnHost order p'
  · simp only [hp, hp', if_true, true_and]
    exact Separators.append_underscore_eq_iff
  · simp [hp, hp', eq_comm]
  · simp [hp, hp']
  · simp [hp, hp', eq_comm]

/-- **Two ports have one stream name exactly when they are one port or clash on one node.** -/
theorem portStreamName_eq_iff (hunique : G.UniqueNames) {p p' : Port O I}
    (hids : s.id (G.portNode p) = s.id (G.portNode p') → G.portNode p = G.portNode p') :
    portStreamName G runOnHost s order p = portStreamName G runOnHost s order p' ↔
      p = p' ∨ G.portNode p = G.portNode p' ∧
        (Clash G runOnHost order p p' ∨ Clash G runOnHost order p' p) := by
  rw [portStreamName_inj, portSuffix_eq_iff]
  constructor
  · rintro ⟨hid, ⟨-, -, hgroup, hname⟩ | hclash⟩
    · exact .inl (hunique p p' (hids hid) hgroup hname)
    · exact .inr ⟨hids hid, hclash⟩
  · rintro (rfl | ⟨hnode, hclash⟩)
    · refine ⟨rfl, ?_⟩
      rw [← portSuffix_eq_iff]
    · exact ⟨congrArg _ hnode, .inr hclash⟩

/-! ### The errors of the loops -/

/-- The error of a stream name that is used twice. -/
def streamNameError (streamName : String) : String :=
  "Stream name '" ++ streamName ++ "' is not unique"

/-- Another error than that of a stream name. -/
def OtherError (e : String) : Prop :=
  ∀ streamName, e ≠ streamNameError streamName

theorem otherError_of_head {e : String} (h : e.toList.head? ≠ some 'S') : OtherError e := by
  rintro streamName rfl
  exact h (by simp [streamNameError])

section Errors

variable [DecidableEq N] [DecidableEq P] {defaultDevice : Bool} {b b' : BuildState N O I P Q}
  {e : String}

omit [DecidableEq O] [DecidableEq I] in
theorem otherError_add {t : PipelineImpl N O I P} {node : N} (h : (s.add (some node)) = (t, some e)) :
    OtherError e := by
  have hvisit : ∀ n (u : PipelineImpl N O I P) e, (PipelineImpl.addVisit n u).2 = some e →
      e = "Cannot add a node that is already part of another pipeline" := by
    intro n u e hu
    rw [PipelineImpl.addVisit] at hu
    split at hu
    · cases hu
    · split at hu
      · exact (Option.some.inj hu).symm
      · cases hu
  rw [PipelineImpl.add] at h
  split at h
  · cases h
    exact otherError_of_head (by simp)
  · split at h
    · rename_i u e' hsearch
      cases h
      have hsearch' : (s.addSearch node).2 = some e := by rw [hsearch]
      rw [s.nodeMap.search_error hvisit _ hsearch']
      exact otherError_of_head (by decide)
    · cases h

theorem otherError_create {kind : XLinkNode} {port : Port O I}
    (h : b.create defaultDevice kind port = .error e) : OtherError e := by
  rw [create] at h
  split at h
  · cases h
    exact otherError_of_head (by decide)
  · split at h
    · rename_i hadd
      cases h
      exact otherError_add hadd
    · cases h

omit [DecidableEq P] in
theorem otherError_link {c : ConnectionInternal (BuildOutput O I) (BuildInput O I)}
    (h : b.link G c = .error e) : OtherError e := by
  rw [link] at h
  split at h
  · rename_i hlink
    cases h
    rw [Output.link] at hlink
    split at hlink
    · cases hlink
      exact otherError_of_head (by simp [Ports.linkText])
    · split at hlink
      · cases hlink
        exact otherError_of_head (by simp [Ports.linkText])
      · cases hlink
  · cases h

omit [DecidableEq P] in
theorem otherError_unlink {c : ConnectionInternal (BuildOutput O I) (BuildInput O I)}
    (h : b.unlink G c = .error e) : OtherError e := by
  rw [unlink] at h
  split at h
  · rename_i hunlink
    cases h
    rw [Output.unlink] at hunlink
    split at hunlink
    · cases hunlink
      exact otherError_of_head (by simp [Ports.linkText])
    · cases hunlink
  · cases h

/-- `createBridge` throws for a stream name if that is used, for a port without a bridge. -/
theorem createBridge_error {port : Port O I} {name : String}
    (h : b.createBridge G defaultDevice port name = .error e) :
    OtherError e ∨ port ∉ b.bridges ∧ name ∈ b.uniqueStreamNames := by
  rw [createBridge] at h
  split at h
  · cases h
  · rename_i hnew
    rcases Loop.bind_eq_error.1 h with h | ⟨b₁, h₁, h⟩
    · exact .inl (otherError_create h)
    rcases Loop.bind_eq_error.1 h with h | ⟨b₂, h₂, h⟩
    · exact .inl (otherError_create h)
    obtain ⟨t, -, rfl⟩ := create_eq h₁
    obtain ⟨u, -, rfl⟩ := create_eq h₂
    rcases Loop.bind_eq_error.1 h with h | ⟨b₃, h₃, h⟩
    · rw [setStreamName] at h
      split at h
      · rename_i hused
        exact .inr ⟨hnew, hused⟩
      · cases h
    rcases Loop.bind_eq_error.1 h with h | ⟨b₄, h₄, h⟩
    · exact .inl (otherError_link h)
    · cases h

end Errors

/-! ### The names along the loops -/

/-- The stream names are those of the ports that have a bridge, and every connection in `done` has
its bridge. -/
structure Named (G : Ports N O I) (runOnHost : N → Bool) (s : PipelineImpl N O I P)
    (queueConnections : O → List Q) (order done : List (ConnectionInternal O I))
    (b : BuildState N O I P Q) : Prop where
  names : b.uniqueStreamNames = b.bridges.map (portStreamName G runOnHost s order)
  bridges : ∀ p ∈ b.bridges, Bridges G runOnHost s queueConnections order p
  covered : ∀ c ∈ done, ∀ p, G.crossing runOnHost c = some p → p ∈ b.bridges
  queues : ∀ out, b.queueConnections (.given out) ⊆ queueConnections out

section Post

variable [DecidableEq N] (b : BuildState N O I P Q)
  (c : ConnectionInternal (BuildOutput O I) (BuildInput O I))

theorem post_link :
    Loop.Post (fun b' => ∃ t, b' = { b with pipeline := t }) OtherError (b.link G c) := by
  cases hlink : b.link G c with
  | error e => exact otherError_link hlink
  | ok b' => exact ⟨_, (link_eq hlink).2⟩

theorem post_unlink :
    Loop.Post (fun b' => ∃ t, b' = { b with pipeline := t }) OtherError (b.unlink G c) := by
  cases hunlink : b.unlink G c with
  | error e => exact otherError_unlink hunlink
  | ok b' => exact ⟨_, unlink_eq hunlink⟩

end Post

section Named

variable [DecidableEq N] [DecidableEq P] [DecidableEq Q] {defaultDevice : Bool}
  {b : BuildState N O I P Q} {done : List (ConnectionInternal O I)}
  (hdistinct : ∀ p p', Bridges G runOnHost s queueConnections order p →
    Bridges G runOnHost s queueConnections order p' →
      portStreamName G runOnHost s order p = portStreamName G runOnHost s order p' → p = p')

include hdistinct

omit [DecidableEq Q] in
/-- A bridge that is created with the name of its port keeps the names, and it is not its name that
stops it. -/
theorem Named.createBridge (h : b.Named G runOnHost s queueConnections order done) {p : Port O I}
    (hp : Bridges G runOnHost s queueConnections order p) {name : String}
    (hname : p ∉ b.bridges → name = portStreamName G runOnHost s order p) :
    Loop.Post (fun b' => b'.Named G runOnHost s queueConnections order done ∧ p ∈ b'.bridges)
      OtherError (b.createBridge G defaultDevice p name) := by
  cases hresult : b.createBridge G defaultDevice p name with
  | error e =>
    rcases createBridge_error hresult with hother | ⟨hnew, hused⟩
    · exact hother
    · rw [h.names, hname hnew, List.mem_map] at hused
      obtain ⟨p', hp', heq⟩ := hused
      obtain rfl := hdistinct p' p (h.bridges p' hp') hp heq
      exact absurd hp' hnew
  | ok b' =>
    by_cases hnew : p ∈ b.bridges
    · rw [BuildState.createBridge, if_pos hnew] at hresult
      cases hresult
      exact ⟨h, hnew⟩
    · obtain ⟨t, u, -, -, -, -, rfl⟩ := createBridge_eq hnew hresult
      refine ⟨⟨?_, ?_, ?_, h.queues⟩, List.mem_append_right _ (List.mem_singleton_self p)⟩
      · show b.uniqueStreamNames ++ [name] = (b.bridges ++ [p]).map _
        rw [List.map_append, h.names, hname hnew, List.map_singleton]
      · intro p' hp'
        rcases List.mem_append.1 hp' with hp' | hp'
        · exact h.bridges p' hp'
        · rwa [List.mem_singleton.1 hp']
      · exact fun c hc p' hcross => List.mem_append_left _ (h.covered c hc p' hcross)

omit [DecidableEq Q] in
theorem Named.bridgeConnection (h : b.Named G runOnHost s queueConnections order done)
    {c : ConnectionInternal O I} (hc : c ∈ order) :
    Loop.Post (Named G runOnHost s queueConnections order (done ++ [c])) OtherError
      (bridgeConnection G runOnHost defaultDevice s c b) := by
  have hcovered : ∀ (b' : BuildState N O I P Q), b'.Named G runOnHost s queueConnections order done →
      (∀ p, G.crossing runOnHost c = some p → p ∈ b'.bridges) →
        b'.Named G runOnHost s queueConnections order (done ++ [c]) := by
    intro b' hb' hlast
    refine ⟨hb'.names, hb'.bridges, fun c' hc' p hp => ?_, hb'.queues⟩
    rcases List.mem_append.1 hc' with hc' | hc'
    · exact hb'.covered c' hc' p hp
    · rw [List.mem_singleton.1 hc'] at hp
      exact hlast p hp
  rw [BuildState.bridgeConnection]
  cases hcross : G.crossing runOnHost c with
  | none => exact hcovered b h (by simp [hcross])
  | some p =>
    have hlink : LinkBridged G runOnHost order p := ⟨c, hc, hcross⟩
    refine (h.createBridge hdistinct (.inl hlink) fun _ => ?_).bind ?_
    · rw [portStreamName, if_pos hlink]
    · rintro b₁ ⟨h₁, hp⟩
      refine (post_unlink b₁ _).bind ?_
      rintro _ ⟨t, rfl⟩
      refine (post_link _ _).imp ?_
      rintro _ ⟨u, rfl⟩
      refine hcovered _ ⟨h₁.names, h₁.bridges, h₁.covered, h₁.queues⟩ fun p' hp' => ?_
      rw [hcross] at hp'
      rwa [← Option.some.inj hp']

omit [DecidableEq Q] in
theorem post_connections :
    Loop.Post (Named G runOnHost s queueConnections order order) OtherError
      (order.foldlM (fun b c => bridgeConnection G runOnHost defaultDevice s c b)
        (start s queueConnections)) := by
  refine Loop.post (I := Named G runOnHost s queueConnections order) ?_
    ⟨rfl, by simp [start], by simp, fun out => List.Subset.refl _⟩
  intro done c rest b hsplit hb
  exact hb.bridgeConnection hdistinct (by rw [hsplit]; simp)

theorem Named.bridgeQueue (h : b.Named G runOnHost s queueConnections order order) {out : O}
    {queue : Q} (hdevice : Device G runOnHost s queueConnections (out, queue)) :
    Loop.Post (Named G runOnHost s queueConnections order order) OtherError
      (bridgeQueue G defaultDevice s out b queue) := by
  refine (h.createBridge hdistinct (.inr ⟨_, hdevice, rfl⟩) fun hnew => ?_).bind ?_
  · rw [portStreamName, if_neg]
    · rfl
    · rintro ⟨c, hc, hcross⟩
      exact hnew (h.covered c hc _ hcross)
  · rintro b₁ ⟨h₁, -⟩
    refine ⟨h₁.names, h₁.bridges, h₁.covered, fun out' queue' hq => ?_⟩
    rcases mem_moveQueue.1 hq with ⟨hq, -⟩ | ⟨heq, -⟩
    · exact h₁.queues out' hq
    · cases heq

/-- The loops over the outputs of a node and over their queues. -/
theorem Named.bridgeQueues (h : b.Named G runOnHost s queueConnections order order)
    {R : OutputRefs G} {m : BuildNode N O I} (hm : ∀ node, m = .given node → node ∈ s.getAllNodes) :
    Loop.Post (Named G runOnHost s queueConnections order order) OtherError
      (bridgeQueues runOnHost defaultDevice R s b m) := by
  rcases m with node | ⟨kind, p⟩
  · rw [BuildState.bridgeQueues]
    split
    · exact h
    · rename_i hhost
      refine Loop.post (I := fun _ => Named G runOnHost s queueConnections order order) ?_ h
      intro outs out rest b₁ hsplit h₁
      have hnode : G.outNode out = node := (R.mem_iff node out).1 (by rw [hsplit]; simp)
      refine Loop.post (I := fun _ => Named G runOnHost s queueConnections order order) ?_ h₁
      intro queues queue rest' b₂ hsplit' h₂
      refine h₂.bridgeQueue hdistinct ⟨hnode ▸ hm node rfl, ?_, ?_⟩
      · rw [hnode]
        exact Bool.eq_false_iff.2 hhost
      · exact h₁.queues out (by rw [hsplit']; simp)
  · exact h

/-- **If the names of all ports are different, `build` does not throw for the sake of a name.** -/
theorem post_createBridges {R : OutputRefs G} (hbook : s.Book G) (hids : s.Ids) {walk : N → List N}
    (hwalk : s.IsWalk walk) (horder : order.Perm (s.getConnectionsInternal walk)) :
    Loop.Post (Named G runOnHost s queueConnections order order) OtherError
      (createBridges runOnHost defaultDevice R s queueConnections order) := by
  have hconnections : Loop.Post (Named G runOnHost s queueConnections order order) OtherError
      (order.foldlM (fun b c => BuildState.bridgeConnection G runOnHost defaultDevice s c b)
        (start s queueConnections)) := post_connections hdistinct
  rw [createBridges]
  cases hloop : order.foldlM (fun b c => BuildState.bridgeConnection G runOnHost defaultDevice s c b)
      (start s queueConnections) with
  | error e =>
    rw [hloop] at hconnections
    exact hconnections
  | ok b =>
    rw [hloop] at hconnections
    have hlaid := laid_connections hbook hids hwalk horder hloop
    refine Loop.post (I := fun _ => Named G runOnHost s queueConnections order order) ?_ hconnections
    intro nodes m rest b₁ hsplit h₁
    refine h₁.bridgeQueues hdistinct ?_
    rintro node rfl
    rcases (hlaid.nodes (.given node)).1 (by rw [hsplit]; simp) with ⟨n, hn, heq⟩ | ⟨p, -, heq | heq⟩
    · rwa [BuildNode.given.inj heq]
    · cases heq
    · cases heq

end Named

end BuildState

/-! ### Every pipeline that calls can make -/

namespace PipelineImpl

open BuildState

variable [DecidableEq N] [DecidableEq O] [DecidableEq I] [DecidableEq P] [DecidableEq Q]
  {G : Ports N O I} {s : PipelineImpl N O I P}

/-- **For every pipeline that calls can make, with different names on each node and different ids of
the nodes that have bridges: the stream names are different, and `build` does not throw for the sake
of one, exactly when no two ports of a node clash.** -/
theorem streamNames_run_iff {self : P} {nodeMap : Hierarchy N} {parent : N → Option P}
    {tr : List (PipelineImpl N O I P × GraphCall N O I)}
    (hrun : Transition.Run (graphStep G) (fresh self nodeMap parent) tr s)
    {runOnHost : N → Bool} {defaultDevice : Bool} {R : OutputRefs G} {queueConnections : O → List Q}
    {walk : N → List N} (hwalk : s.IsWalk walk) {order : List (ConnectionInternal O I)}
    (horder : order.Perm (s.getConnectionsInternal walk)) (hunique : G.UniqueNames)
    (hids : ∀ p p', Bridges G runOnHost s queueConnections order p →
      Bridges G runOnHost s queueConnections order p' →
        s.id (G.portNode p) = s.id (G.portNode p') → G.portNode p = G.portNode p') :
    ((∀ p p', Bridges G runOnHost s queueConnections order p →
      Bridges G runOnHost s queueConnections order p' →
        portStreamName G runOnHost s order p = portStreamName G runOnHost s order p' → p = p') ∧
      ∀ streamName, createBridges runOnHost defaultDevice R s queueConnections order ≠
        .error (streamNameError streamName)) ↔
    ∀ p p', Bridges G runOnHost s queueConnections order p →
      Bridges G runOnHost s queueConnections order p' → p ≠ p' → G.portNode p = G.portNode p' →
        ¬Clash G runOnHost order p p' := by
  obtain ⟨hbook, hidsInOrder⟩ := book_ids_run hrun
  constructor
  · rintro ⟨hdistinct, -⟩ p p' hp hp' hne hnode hclash
    refine hne (hdistinct p p' hp hp' ?_)
    exact (portStreamName_eq_iff hunique (hids p p' hp hp')).2 (.inr ⟨hnode, .inl hclash⟩)
  · intro hclash
    have hdistinct : ∀ p p', Bridges G runOnHost s queueConnections order p →
        Bridges G runOnHost s queueConnections order p' →
          portStreamName G runOnHost s order p = portStreamName G runOnHost s order p' →
            p = p' := by
      intro p p' hp hp' heq
      by_contra hne
      rcases (portStreamName_eq_iff hunique (hids p p' hp hp')).1 heq with h | ⟨hnode, h | h⟩
      · exact hne h
      · exact hclash p p' hp hp' hne hnode h
      · exact hclash p' p hp' hp (Ne.symm hne) hnode.symm h
    refine ⟨hdistinct, fun streamName herror => ?_⟩
    have hpost : Loop.Post (Named G runOnHost s queueConnections order order) OtherError
        (createBridges runOnHost defaultDevice R s queueConnections order) :=
      post_createBridges hdistinct hbook hidsInOrder hwalk horder
    rw [herror] at hpost
    exact hpost streamName rfl

/-- One host node with one output that is linked to a device node. -/
theorem streamNames_run_link :
    let s := ((Transition.exec (graphStep fourNodes) fourFresh
      [.call (.add (some 0)), .call (.add (some 2)), .call (.link 0 ())]).get (by decide)).2
    ∀ streamName, fourBridges s ≠ .error (streamNameError streamName) := by
  intro s
  have hinput : ∀ out : Fin 2,
      fourNodes.crossing (· ≠ 0) ⟨out, ()⟩ = some (.input ()) := by decide
  have hport : ∀ p, Bridges fourNodes (· ≠ 0) s (fun _ => ([] : List Unit))
      (s.getConnectionsInternal s.nodeMap.subtree) p → p = .input () := by
    rintro p (⟨⟨out, ⟨⟩⟩, -, hcross⟩ | ⟨q, hq, -⟩)
    · exact Option.some.inj (hcross.symm.trans (hinput out))
    · cases hq.2.2
  refine ((streamNames_run_iff (Transition.Run.of_isSome _) (isWalk_subtree s) (List.Perm.refl _)
    ?_ ?_).2 ?_).2
  · rintro (out | input) (out' | input')
    · revert out out'
      decide
    · revert out input'
      decide
    · revert input out'
      decide
    · exact fun _ _ _ => rfl
  · intro p p' hp hp' _
    rw [hport p hp, hport p' hp']
  · intro p p' hp hp' hne
    exact absurd ((hport p hp).trans (hport p' hp').symm) hne

/-- A device node with two outputs of one name in two groups. -/
def twoGroups : Ports Unit Bool Empty where
  nodeName _ := "node"
  outNode _ := ()
  outName _ := "out"
  outGroup out := if out then "b" else "a"
  outType _ := .MSender
  outDatatypes _ := [⟨.Buffer, true, DatatypeEnum.buffer_ne⟩]
  inNode _ := ()
  inName _ := ""
  inGroup _ := ""
  inType _ := .SReceiver
  inDatatypes _ := []

/-- Its outputs. -/
def twoGroupsRefs : OutputRefs twoGroups where
  getOutputRefs _ := [false, true]
  mem_iff := by decide

/-- What a call throws. -/
def thrown {σ : Type} : Except String σ → Option String
  | .ok _ => none
  | .error e => some e

/-- Each of them has a queue, and `build` throws. -/
theorem streamNames_run_queues :
    let s := ((Transition.exec (graphStep twoGroups) (fresh () ⟨fun _ => [], fun _ => 0, by simp⟩
      fun _ => none : PipelineImpl Unit Bool Empty Unit) [.call (.add (some ()))]).get (by decide)).2
    twoGroups.UniqueNames ∧
      thrown (createBridges (fun _ => false) true twoGroupsRefs s (fun _ => [()]) []) =
        some (streamNameError "__x_0_out") := by
  refine ⟨?_, by decide⟩
  rintro (out | ⟨⟨⟩⟩) (out' | ⟨⟨⟩⟩)
  revert out out'
  decide

end PipelineImpl

end DepthaiCore
