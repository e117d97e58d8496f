import DepthaiCore.Datatype.ParseMessage
import DepthaiCore.Lib.Hierarchy

/-!
# Pipelines, nodes and links

A pipeline has a list of nodes, and every node may have nodes below it. A link from an output to an
input is written down three times: in the set `connections` of the node of the output, in the list
`connectedInputs` of the output, which `send` goes through, and in the list `connectedOutputs` of
the input.

The state holds what the calls `add`, `link`, `unlink` and `remove` read and write, for all nodes
there are, in the pipeline or not. A call that throws gives the text of its exception and leaves
what it had done up to there.
-/

namespace DepthaiCore

/-- `Node::Output::Type`. -/
inductive OutputType
  | MSender | SSender
  deriving DecidableEq, Repr

/-- `Node::Input::Type`. -/
inductive InputType
  | SReceiver | MReceiver
  deriving DecidableEq, Repr

/-! ### Datatypes -/

/-- `hierarchy`: the datatypes below a datatype. `COUNT` is not in the table. -/
def hierarchy : Hierarchy DatatypeEnum where
  children
    | .ADatatype =>
      [.Buffer, .ImgFrame, .EncodedFrame, .SegmentationMask, .NNData, .ImageManipConfig,
        .CameraControl, .ImgDetections, .ImageAlignConfig, .SpatialImgDetections,
        .SystemInformation, .SystemInformationRVC4, .SpatialLocationCalculatorConfig,
        .SegmentationParserConfig, .SpatialLocationCalculatorData, .EdgeDetectorConfig, .Tracklets,
        .IMUData, .StereoDepthConfig, .NeuralDepthConfig, .GPUStereoConfig, .FeatureTrackerConfig,
        .ThermalConfig, .ToFConfig, .TrackedFeatures, .AprilTagConfig, .AprilTags,
        .BenchmarkReport, .MessageGroup, .PipelineEvent, .PipelineState,
        .PipelineEventAggregationConfig, .PointCloudConfig, .PointCloudData, .RGBDData,
        .TransformData, .ImgAnnotations, .VppConfig, .ImageFiltersConfig,
        .ToFDepthConfidenceFilterConfig, .MapData, .ObjectTrackerConfig,
        .DynamicCalibrationControl, .DynamicCalibrationResult, .AutoCalibrationConfig,
        .AutoCalibrationResult, .CoverageData, .CalibrationMetrics, .CalibrationQuality,
        .PacketizedData]
    | .Buffer =>
      [.Transformable, .ImgFrame, .EncodedFrame, .SegmentationMask, .NNData, .ImageManipConfig,
        .CameraControl, .ImgDetections, .ImageAlignConfig, .SpatialImgDetections,
        .SystemInformation, .SystemInformationRVC4, .SpatialLocationCalculatorConfig,
        .SegmentationParserConfig, .SpatialLocationCalculatorData, .EdgeDetectorConfig, .Tracklets,
        .IMUData, .StereoDepthConfig, .NeuralDepthConfig, .GPUStereoConfig, .FeatureTrackerConfig,
        .ThermalConfig, .ToFConfig, .TrackedFeatures, .AprilTagConfig, .AprilTags,
        .BenchmarkReport, .MessageGroup, .PipelineEvent, .PipelineState,
        .PipelineEventAggregationConfig, .PointCloudConfig, .PointCloudData, .RGBDData,
        .TransformData, .ImgAnnotations, .ImageFiltersConfig, .VppConfig, .GateControl,
        .ToFDepthConfidenceFilterConfig, .MapData, .ObjectTrackerConfig,
        .DynamicCalibrationControl, .DynamicCalibrationResult, .AutoCalibrationConfig,
        .AutoCalibrationResult, .CoverageData, .CalibrationMetrics, .CalibrationQuality,
        .PacketizedData]
    | .Transformable =>
      [.SegmentationMask, .ImgDetections, .SpatialImgDetections, .AprilTags, .Tracklets,
        .PointCloudData]
    | .ImgDetections => [.SpatialImgDetections]
    | _ => []
  rank
    | .ADatatype => 4
    | .Buffer => 3
    | .Transformable => 2
    | .ImgDetections => 1
    | _ => 0
  ranked kind := by cases kind <;> decide

/-- `isDatatypeSubclassOf`, for a parent that is in the table. -/
def isDatatypeSubclassOf (parent children : DatatypeEnum) : Bool :=
  children ∈ hierarchy.descendants parent

/-- `Node::DatatypeHierarchy`, for a datatype that is in the table. -/
structure DatatypeHierarchy where
  datatype : DatatypeEnum
  descendants : Bool
  known : datatype ≠ .COUNT
  deriving DecidableEq

/-! ### Outputs and inputs -/

/-- The outputs and inputs of the nodes. -/
structure Ports (N O I : Type*) where
  nodeName : N → String
  outNode : O → N
  outName : O → String
  outGroup : O → String
  outType : O → OutputType
  outDatatypes : O → List DatatypeHierarchy
  inNode : I → N
  inName : I → String
  inGroup : I → String
  inType : I → InputType
  inDatatypes : I → List DatatypeHierarchy

/-- `Node::ConnectionInternal`. The names and nodes that it copies are those of its two ends. -/
@[ext] structure ConnectionInternal (O I : Type*) where
  out : O
  input : I
  deriving DecidableEq, Repr

section Ports

variable {N O I : Type*} [DecidableEq N] (G : Ports N O I)

/-- `Output::toString`. -/
def Ports.outToString (out : O) : String :=
  if G.outGroup out = "" then G.outName out
  else G.outGroup out ++ "[\"" ++ G.outName out ++ "\"]"

/-- `Input::toString`. -/
def Ports.inToString (input : I) : String :=
  if G.inGroup input = "" then G.inName input
  else G.inGroup input ++ "[\"" ++ G.inName input ++ "\"]"

/-- The two ends in the texts of `link` and `unlink`. -/
def Ports.linkText (before between : String) (out : O) (input : I) : String :=
  before ++ "'" ++ G.nodeName (G.outNode out) ++ "." ++ G.outToString out ++ "'" ++ between ++
    "'" ++ G.nodeName (G.inNode input) ++ "." ++ G.inToString input ++ "'"

def Ports.isDatatypeMatch (out : O) (input : I) : Bool :=
  (G.outDatatypes out).any fun outHierarchy =>
    (G.inDatatypes input).any fun inHierarchy =>
      outHierarchy.datatype = inHierarchy.datatype ||
      (outHierarchy.descendants &&
        isDatatypeSubclassOf outHierarchy.datatype inHierarchy.datatype) ||
      (inHierarchy.descendants &&
        isDatatypeSubclassOf inHierarchy.datatype outHierarchy.datatype)

def Ports.canConnect (out : O) (input : I) : Bool :=
  if G.outType out = .MSender ∧ G.inType input = .MReceiver then false
  else if G.outType out = .SSender ∧ G.inType input = .SReceiver then false
  else G.isDatatypeMatch out input

/-- `ConnectionInternal::operator==`: it compares the nodes, names and groups of the two ends. -/
def Ports.same (a b : ConnectionInternal O I) : Bool :=
  G.outNode a.out = G.outNode b.out ∧ G.outName a.out = G.outName b.out ∧
    G.outGroup a.out = G.outGroup b.out ∧ G.inNode a.input = G.inNode b.input ∧
    G.inName a.input = G.inName b.input ∧ G.inGroup a.input = G.inGroup b.input

/-- What `removeConnectionToNode` erases. -/
def Ports.touches (node : N) (connection : ConnectionInternal O I) : Bool :=
  G.inNode connection.input = node || G.outNode connection.out = node

variable {G}

theorem Ports.same_iff {a b : ConnectionInternal O I} :
    G.same a b ↔ G.outNode a.out = G.outNode b.out ∧ G.outName a.out = G.outName b.out ∧
      G.outGroup a.out = G.outGroup b.out ∧ G.inNode a.input = G.inNode b.input ∧
      G.inName a.input = G.inName b.input ∧ G.inGroup a.input = G.inGroup b.input := by
  rw [same, decide_eq_true_iff]

theorem Ports.same_refl (a : ConnectionInternal O I) : G.same a a := by
  simp [same_iff]

theorem Ports.same_symm {a b : ConnectionInternal O I} (h : G.same a b) : G.same b a := by
  simp only [same_iff] at h ⊢
  simp [h]

end Ports

/-- `PipelineImpl`, with the nodes and their outputs and inputs. `P` are the pipelines that can own
a node. -/
structure PipelineImpl (N O I P : Type*) where
  /-- The pipeline itself, `shared_from_this()`. -/
  self : P
  isBuild : Bool
  latestId : ℤ
  nodes : List N
  nodeMap : Hierarchy N
  id : N → ℤ
  parent : N → Option P
  connections : N → List (ConnectionInternal O I)
  connectedInputs : O → List I
  connectedOutputs : I → List O
  nodes_parent : ∀ n ∈ nodes, parent n = some self

section Frame

variable {N O I P : Type*} {s t u : PipelineImpl N O I P}

/-- Nothing but ids and owners differ. -/
structure PipelineImpl.SameGraph (s t : PipelineImpl N O I P) : Prop where
  self : t.self = s.self
  isBuild : t.isBuild = s.isBuild
  nodes : t.nodes = s.nodes
  nodeMap : t.nodeMap = s.nodeMap
  connections : t.connections = s.connections
  connectedInputs : t.connectedInputs = s.connectedInputs
  connectedOutputs : t.connectedOutputs = s.connectedOutputs

theorem PipelineImpl.SameGraph.refl : s.SameGraph s := by
  constructor <;> rfl

theorem PipelineImpl.SameGraph.trans (h : s.SameGraph t)
    (h' : t.SameGraph u) : s.SameGraph u := by
  constructor
  · exact h'.self.trans h.self
  · exact h'.isBuild.trans h.isBuild
  · exact h'.nodes.trans h.nodes
  · exact h'.nodeMap.trans h.nodeMap
  · exact h'.connections.trans h.connections
  · exact h'.connectedInputs.trans h.connectedInputs
  · exact h'.connectedOutputs.trans h.connectedOutputs

end Frame

section Model

variable {N O I P : Type*} [DecidableEq N] [DecidableEq O] [DecidableEq I] [DecidableEq P]
variable (G : Ports N O I) (s : PipelineImpl N O I P)

/-! ### Outputs -/

/-- What `link` writes down. -/
def PipelineImpl.linked (out : O) (input : I) : PipelineImpl N O I P :=
  { s with
    connections := Function.update s.connections (G.outNode out)
      (s.connections (G.outNode out) ++ [⟨out, input⟩])
    connectedInputs := Function.update s.connectedInputs out (s.connectedInputs out ++ [input])
    connectedOutputs :=
      Function.update s.connectedOutputs input (s.connectedOutputs input ++ [out]) }

def Output.link (out : O) (input : I) : PipelineImpl N O I P × Option String :=
  if !G.canConnect out input then
    (s, some (G.linkText "Cannot link " " to " out input))
  else if (s.connections (G.outNode out)).any (G.same ⟨out, input⟩) then
    (s, some (G.linkText "" " already linked to " out input))
  else (s.linked G out input, none)

/-- What `unlink` takes out: of the set whatever is equal as a connection, of the lists the pointers
themselves. -/
def PipelineImpl.unlinked (out : O) (input : I) : PipelineImpl N O I P :=
  { s with
    connections := Function.update s.connections (G.outNode out)
      ((s.connections (G.outNode out)).filter fun c => !G.same ⟨out, input⟩ c)
    connectedInputs :=
      Function.update s.connectedInputs out ((s.connectedInputs out).filter (· ≠ input))
    connectedOutputs :=
      Function.update s.connectedOutputs input ((s.connectedOutputs input).filter (· ≠ out)) }

def Output.unlink (out : O) (input : I) : PipelineImpl N O I P × Option String :=
  if !(s.connections (G.outNode out)).any (G.same ⟨out, input⟩) then
    (s, some (G.linkText "" " not linked to " out input))
  else (s.unlinked G out input, none)

def Output.getConnections (out : O) : List (ConnectionInternal O I) :=
  (s.connections (G.outNode out)).filter (·.out = out)

/-- `Output::send`: the inputs whose queues get the message, one after the other. -/
def Output.send (out : O) : List I :=
  s.connectedInputs out

/-! ### Nodes -/

/-- `PipelineImpl::getAllNodes`: each node of the pipeline, then its `Node::getAllNodes`. -/
def PipelineImpl.getAllNodes : List N :=
  s.nodes.flatMap fun node => node :: s.nodeMap.descendants node

/-- `Node::removeConnectionToNode`, of `n` and recursively of the nodes in its `nodeMap`. -/
def Node.removeConnectionToNode (nodeMap : Hierarchy N) (n node : N)
    (connections : N → List (ConnectionInternal O I)) : N → List (ConnectionInternal O I) :=
  nodeMap.visit
    (fun m connections =>
      Function.update connections m ((connections m).filter fun c => !G.touches node c))
    n connections

/-- `Node::remove`, of a node `this` that is in `nodes`: `parent.lock()` is then this pipeline. -/
def Node.remove (this node : N) : PipelineImpl N O I P × Option String :=
  match s.parent this with
  | none => (s, some "Pipeline is null")
  | some _ =>
    if s.isBuild then (s, some "Cannot remove node from pipeline once it is built.")
    else
      ({ s with
          connections := s.nodes.foldl
            (fun connections n =>
              Node.removeConnectionToNode G s.nodeMap n node
                ((s.nodeMap.children node).foldl
                  (fun connections childNode =>
                    Node.removeConnectionToNode G s.nodeMap n childNode connections)
                  connections))
            s.connections
          nodeMap := s.nodeMap.without [this] node },
        none)

/-- The loop of `PipelineImpl::remove`. -/
def PipelineImpl.removeFrom (s : PipelineImpl N O I P) (toRemove : N) :
    List N → PipelineImpl N O I P × Option String
  | [] => (s, none)
  | node :: rest =>
    match Node.remove G s node toRemove with
    | (t, some e) => (t, some e)
    | (t, none) => removeFrom t toRemove rest

/-- `nodes` without a node. -/
def PipelineImpl.eraseNode (toRemove : N) : PipelineImpl N O I P :=
  { s with
    nodes := s.nodes.filter (· ≠ toRemove)
    nodes_parent := fun n hn => s.nodes_parent n (List.mem_of_mem_filter hn) }

def PipelineImpl.remove (toRemove : N) : PipelineImpl N O I P × Option String :=
  if s.isBuild then (s, some "Cannot remove node from pipeline once it is built.")
  else
    match s.parent toRemove with
    | none => (s, some "Cannot remove a node that is not a part of any pipeline")
    | some pipeline =>
      if pipeline ≠ s.self then
        (s, some "Cannot remove a node that is not a part of this pipeline")
      else (s.eraseNode toRemove).removeFrom G toRemove (s.eraseNode toRemove).nodes

end Model

theorem PipelineImpl.getAllNodes_eq {N O I P : Type*} (s : PipelineImpl N O I P) :
    s.getAllNodes = s.nodes.flatMap s.nodeMap.subtree :=
  rfl

theorem PipelineImpl.SameGraph.getAllNodes {N O I P : Type*} {s t : PipelineImpl N O I P}
    (h : s.SameGraph t) : t.getAllNodes = s.getAllNodes := by
  rw [getAllNodes_eq, getAllNodes_eq, h.nodes, h.nodeMap]

/-! ### Adding a node -/

section Add

variable {N O I P : Type*} [DecidableEq N] {s : PipelineImpl N O I P}

/-- The id that `add` gives a node that has none. -/
def PipelineImpl.assignId (s : PipelineImpl N O I P) (curNode : N) : PipelineImpl N O I P :=
  if s.id curNode = -1 then
    { s with id := Function.update s.id curNode s.latestId, latestId := s.latestId + 1 }
  else s

/-- The node of no pipeline becomes one of this pipeline. -/
def PipelineImpl.adopt (s : PipelineImpl N O I P) (curNode : N) : PipelineImpl N O I P :=
  { s with
    parent := Function.update s.parent curNode (some s.self)
    nodes_parent := by
      intro n hn
      by_cases hcur : n = curNode
      · subst hcur
        exact Function.update_self ..
      · rw [Function.update_of_ne hcur]
        exact s.nodes_parent n hn }

@[simp] theorem PipelineImpl.parent_assignId (n : N) : (s.assignId n).parent = s.parent := by
  rw [assignId]
  split <;> rfl

theorem PipelineImpl.sameGraph_assignId (n : N) : s.SameGraph (s.assignId n) := by
  rw [assignId]
  split <;> constructor <;> rfl

theorem PipelineImpl.sameGraph_adopt (n : N) : s.SameGraph (s.adopt n) := by
  constructor <;> rfl

variable [DecidableEq P]

/-- What `add` does to a node of the search. -/
def PipelineImpl.addVisit (curNode : N) (s : PipelineImpl N O I P) :
    PipelineImpl N O I P × Option String :=
  match s.parent curNode with
  | none => ((s.assignId curNode).adopt curNode, none)
  | some pipeline =>
    if pipeline ≠ s.self then
      (s.assignId curNode, some "Cannot add a node that is already part of another pipeline")
    else (s.assignId curNode, none)

theorem PipelineImpl.sameGraph_addVisit (n : N) : s.SameGraph (addVisit n s).1 := by
  rw [addVisit]
  split
  · exact (sameGraph_assignId n).trans (sameGraph_adopt n)
  · split <;> exact sameGraph_assignId n

/-- A visit changes no owner but gives one to its node. -/
theorem PipelineImpl.parent_addVisit (n m : N) :
    (addVisit n s).1.parent m = s.parent m ∨
      m = n ∧ s.parent n = none ∧ (addVisit n s).1.parent m = some s.self := by
  rw [addVisit]
  split
  · rename_i hnone
    by_cases hm : m = n
    · subst hm
      exact .inr ⟨rfl, hnone, by simp [adopt, (sameGraph_assignId m).self]⟩
    · exact .inl (by simp [adopt, hm])
  · split <;> exact .inl (by simp)

theorem PipelineImpl.isNone_addVisit (n : N) :
    (addVisit n s).2 = none ↔ s.parent n = none ∨ s.parent n = some s.self := by
  rw [addVisit]
  split
  · rename_i hnone
    simp [hnone]
  · rename_i p hp
    split
    · rename_i hne
      simp [hp, hne]
    · rename_i heq
      simp [hp, not_not.1 heq]

/-- After a visit that does not throw the pipeline owns the node. -/
theorem PipelineImpl.parent_addVisit_self {n : N} (h : (addVisit n s).2 = none) :
    (addVisit n s).1.parent n = some s.self := by
  rcases parent_addVisit (s := s) n n with hkept | ⟨-, -, hself⟩
  · rcases (isNone_addVisit n).1 h with hnone | hself
    · simp [addVisit, hnone, adopt, (sameGraph_assignId n).self]
    · rw [hkept, hself]
  · exact hself

/-- The search of `add`: the node, then in breadth what is below it. -/
def PipelineImpl.addSearch (s : PipelineImpl N O I P) (node : N) :
    PipelineImpl N O I P × Option String :=
  s.nodeMap.search addVisit (s.nodeMap.subtree node).length [node] s

theorem PipelineImpl.sameGraph_addSearch (node : N) : s.SameGraph (s.addSearch node).1 :=
  s.nodeMap.search_invariant (fun n _ h => h.trans (sameGraph_addVisit n)) _ _ .refl

/-- The search visits every node of the subtree: when it does not throw, the pipeline owns them. -/
theorem PipelineImpl.parent_addSearch {node : N} (h : (s.addSearch node).2 = none) :
    ∀ m ∈ s.nodeMap.subtree node, (s.addSearch node).1.parent m = some s.self := by
  have hdone : ∀ n (t : PipelineImpl N O I P), t.self = s.self → (addVisit n t).2 = none →
      (addVisit n t).1.parent n = some s.self := by
    intro n t hself ht
    rw [parent_addVisit_self ht, hself]
  have hkeep : ∀ m n (t : PipelineImpl N O I P), t.self = s.self → t.parent m = some s.self →
      (addVisit n t).1.parent m = some s.self := by
    intro m n t hself ht
    rcases parent_addVisit (s := t) n m with hm | ⟨-, -, hm⟩
    · rw [hm, ht]
    · rw [hm, hself]
  have hself : ∀ n (t : PipelineImpl N O I P), t.self = s.self →
      (addVisit n t).1.self = s.self :=
    fun n t ht => (sameGraph_addVisit n).self.trans ht
  intro m hm
  exact s.nodeMap.search_done hself hdone hkeep rfl (by simp) h m (by simpa using hm)

theorem PipelineImpl.parent_addSearch_of_some {node m : N} {pipeline : P}
    (h : s.parent m = some pipeline) : (s.addSearch node).1.parent m = some pipeline := by
  have hkeep : ∀ n (t : PipelineImpl N O I P), t.parent m = some pipeline →
      (addVisit n t).1.parent m = some pipeline := by
    intro n t ht
    rcases parent_addVisit (s := t) n m with hm | ⟨rfl, hnone, -⟩
    · rw [hm, ht]
    · rw [ht] at hnone
      cases hnone
  exact s.nodeMap.search_invariant hkeep _ _ h

/-- The search throws when a node of the subtree belongs to another pipeline. -/
theorem PipelineImpl.isNone_addSearch (node : N) :
    (s.addSearch node).2 = none ↔
      ∀ m ∈ s.nodeMap.subtree node, s.parent m = none ∨ s.parent m = some s.self := by
  constructor
  · intro h m hm
    have hself := s.parent_addSearch h m hm
    cases hparent : s.parent m with
    | none => exact .inl rfl
    | some pipeline => rw [← hself, s.parent_addSearch_of_some hparent]; exact .inr rfl
  · intro h
    have hfine : ∀ n (t : PipelineImpl N O I P), t.parent n = none ∨ t.parent n = some t.self →
        (addVisit n t).2 = none :=
      fun n t => (isNone_addVisit n).2
    have hkeep : ∀ m n (t : PipelineImpl N O I P), t.parent m = none ∨ t.parent m = some t.self →
        (addVisit n t).1.parent m = none ∨
          (addVisit n t).1.parent m = some (addVisit n t).1.self := by
      intro m n t ht
      rw [(sameGraph_addVisit n).self]
      rcases parent_addVisit (s := t) n m with hm | ⟨-, -, hm⟩
      · rwa [hm]
      · exact .inr hm
    exact s.nodeMap.search_ok hfine hkeep _ (by simpa using h)

/-- `nodes.push_back`. -/
def PipelineImpl.pushNode (s : PipelineImpl N O I P) (node : N)
    (h : s.parent node = some s.self) : PipelineImpl N O I P :=
  { s with
    nodes := s.nodes ++ [node]
    nodes_parent := by
      intro n hn
      rcases List.mem_append.1 hn with hn | hn
      · exact s.nodes_parent n hn
      · rwa [List.mem_singleton.1 hn] }

def PipelineImpl.add (s : PipelineImpl N O I P) :
    Option N → PipelineImpl N O I P × Option String
  | none => (s, some "Given node pointer is null")
  | some node =>
    if node ∈ s.getAllNodes then
      (s, some ("Node with id '" ++ toString (s.id node) ++
        "' has already been added to the pipeline"))
    else
      match h : s.addSearch node with
      | (t, some e) => (t, some e)
      | (t, none) =>
        (t.pushNode node (by
            have hok : (s.addSearch node).2 = none := by rw [h]
            have hself := s.parent_addSearch hok node (s.nodeMap.mem_subtree_self node)
            rw [h] at hself
            rw [hself, ← (s.sameGraph_addSearch node).self, h]),
          none)

end Add

/-! ### Calls -/

/-- A call of the program. A node pointer given to `add` may be null. -/
inductive PipelineCall (N O I : Type*)
  | add (node : Option N)
  | link (out : O) (input : I)
  | unlink (out : O) (input : I)
  | remove (toRemove : N)
  deriving DecidableEq, Repr

section Calls

variable {N O I P : Type*} [DecidableEq N] [DecidableEq O] [DecidableEq I] [DecidableEq P]
variable (G : Ports N O I) (s : PipelineImpl N O I P)

/-- The state after a call, and the text of its exception if it throws. -/
def PipelineImpl.call : PipelineCall N O I → PipelineImpl N O I P × Option String
  | .add node => s.add node
  | .link out input => Output.link G s out input
  | .unlink out input => Output.unlink G s out input
  | .remove toRemove => s.remove G toRemove

/-- The checks of a call, which let it through. -/
def PipelineCall.Accepted : PipelineCall N O I → Prop
  | .add none => False
  | .add (some node) => node ∉ s.getAllNodes ∧
      ∀ m ∈ s.nodeMap.subtree node, s.parent m = none ∨ s.parent m = some s.self
  | .link out input => G.canConnect out input ∧
      ∀ c ∈ s.connections (G.outNode out), ¬G.same ⟨out, input⟩ c
  | .unlink out input => ∃ c ∈ s.connections (G.outNode out), G.same ⟨out, input⟩ c
  | .remove toRemove => s.isBuild = false ∧ s.parent toRemove = some s.self

instance (c : PipelineCall N O I) : Decidable (c.Accepted G s) :=
  match c with
  | .add none => inferInstanceAs (Decidable False)
  | .add (some node) => inferInstanceAs (Decidable (node ∉ s.getAllNodes ∧
      ∀ m ∈ s.nodeMap.subtree node, s.parent m = none ∨ s.parent m = some s.self))
  | .link out input => inferInstanceAs (Decidable (G.canConnect out input ∧
      ∀ c ∈ s.connections (G.outNode out), ¬G.same ⟨out, input⟩ c))
  | .unlink out input =>
    inferInstanceAs (Decidable (∃ c ∈ s.connections (G.outNode out), G.same ⟨out, input⟩ c))
  | .remove toRemove =>
    inferInstanceAs (Decidable (s.isBuild = false ∧ s.parent toRemove = some s.self))

end Calls

end DepthaiCore
