import DepthaiCore.Lib.Sweep
import DepthaiCore.Pipeline.BuildGraph

/-!
# The schema of a pipeline

`getPipelineSchema` describes the nodes of a pipeline, their connections and the bridges of `build`.
It can leave out what `build` adds for debugging: the nodes that aggregate and merge events, the
nodes of bridges and queues that are connected to them, and the outputs for events. The nodes that
it leaves out are found in one pass over the connections, in the order of `getConnectionsInternal`.

What `getProperties().serialize` writes for a device node, and its log level, are data of the node
here.
-/

namespace DepthaiCore

/-! ### The parts of a schema -/

inductive LogLevel
  | TRACE | DEBUG | INFO | WARN | ERR | CRITICAL | OFF
  deriving DecidableEq, Repr

/-- `NodeIoInfo::Type`. -/
inductive NodeIoInfo.IoType
  | MSender | SSender | MReceiver | SReceiver
  deriving DecidableEq, Repr

/-- An output or input of a node in a schema. -/
structure NodeIoInfo where
  group : String
  name : String
  type : NodeIoInfo.IoType := .SReceiver
  blocking : Bool := true
  queueSize : ℕ := 8
  waitForMessage : Bool := false
  id : ℕ
  deriving DecidableEq, Repr

/-- A node in a schema. -/
structure NodeObjInfo where
  id : ℤ := -1
  parentId : ℤ := -1
  name : String
  nodeAlias : String
  deviceId : String := ""
  deviceNode : Bool := true
  builtInNode : Bool := false
  properties : List UInt8 := []
  logLevel : LogLevel := .WARN
  ioInfo : String × String → Option NodeIoInfo := fun _ => none

/-- A connection in a schema. -/
structure NodeConnectionSchema where
  node1Id : ℤ
  node1OutputGroup : String
  node1Output : String
  node2Id : ℤ
  node2InputGroup : String
  node2Input : String
  deriving DecidableEq, Repr

/-- The schema of a pipeline. -/
structure PipelineSchema where
  connections : List NodeConnectionSchema
  nodes : ℤ → Option NodeObjInfo
  bridges : List (ℤ × ℤ)

/-! ### What the nodes say of themselves -/

variable {N O I P Q : Type*}

/-- What the nodes, outputs and inputs say of themselves. `deviceNode` is for a `DeviceNode` its
serialized properties and its log level. -/
structure NodeData (N O I : Type*) where
  getInputs : N → List I
  getOutputs : N → List O
  runOnHost : N → Bool
  getAlias : N → String
  parentId : N → ℤ
  isBuiltInNode : N → Bool
  deviceNode : N → Option (List UInt8 × LogLevel)
  getBlocking : I → Bool
  getMaxSize : I → ℕ
  getWaitForMessage : I → Bool

namespace XLinkNode

/-- A node of a bridge has an input if it sends into the stream. -/
def hasInput : XLinkNode → Bool
  | XLinkOut | XLinkOutHost => true
  | XLinkInHost | XLinkIn => false

end XLinkNode

/-- The data with those of the nodes of bridges. Those of the host have neither properties nor a log
level of their own. -/
def NodeData.withBridges (D : NodeData N O I)
    (deviceNode : XLinkNode → Port O I → List UInt8 × LogLevel) :
    NodeData (BuildNode N O I) (BuildOutput O I) (BuildInput O I) where
  getInputs
    | .given node => (D.getInputs node).map .given
    | .created kind port => if kind.hasInput then [.created kind port] else []
  getOutputs
    | .given node => (D.getOutputs node).map .given
    | .created kind port =>
      if kind.hasInput then [.event kind port] else [.event kind port, .created kind port]
  runOnHost := BuildNode.runOnHost D.runOnHost
  getAlias
    | .given node => D.getAlias node
    | .created _ _ => ""
  parentId
    | .given node => D.parentId node
    | .created _ _ => -1
  isBuiltInNode
    | .given node => D.isBuiltInNode node
    | .created _ _ => true
  deviceNode
    | .given node => D.deviceNode node
    | .created kind port => if kind.runOnHost then none else some (deviceNode kind port)
  getBlocking
    | .given i => D.getBlocking i
    | .created _ _ => true
  getMaxSize
    | .given i => D.getMaxSize i
    | .created _ _ => 3
  getWaitForMessage
    | .given i => D.getWaitForMessage i
    | .created _ _ => false

section Model

variable (G : Ports N O I) (D : NodeData N O I)

/-! ### The nodes that are left out -/

/-- `name.find(text) != npos`. -/
def contains (name text : String) : Bool :=
  decide (text.toList <:+: name.toList)

/-- The nodes that the search starts with. -/
def Ports.isPipelineDebugging (node : N) : Bool :=
  G.nodeName node == "PipelineEventAggregation" || G.nodeName node == "PipelineStateMerge"

/-- A node of a bridge or a queue is at one of the ends. -/
def Ports.hasBridgeEnd (c : ConnectionInternal O I) : Bool :=
  contains (G.nodeName (G.outNode c.out)) "XLink" ||
    contains (G.nodeName (G.inNode c.input)) "XLink" ||
      contains (G.nodeName (G.outNode c.out)) "InputQueue" ||
        contains (G.nodeName (G.inNode c.input)) "OutputQueue"

/-- The connection comes from an output for events. -/
def Ports.isEvent (out : O) : Bool :=
  G.outName out == "pipelineEventOutput"

namespace PipelineImpl

variable (s : PipelineImpl N O I P)

/-- The ids of the nodes that the search starts with. -/
def pipelineDebuggingStart : List ℤ :=
  (s.getAllNodes.filter G.isPipelineDebugging).map s.id

/-- The body of the loop that finds the ids of the nodes that are left out. -/
def pipelineDebuggingVisit (pipelineDebuggingNodeIds : List ℤ) (c : ConnectionInternal O I) :
    List ℤ :=
  let outNode := G.outNode c.out
  let inNode := G.inNode c.input
  if G.isEvent c.out then pipelineDebuggingNodeIds
  else if G.hasBridgeEnd c then
    let ids := if s.id inNode ∈ pipelineDebuggingNodeIds then
      pipelineDebuggingNodeIds ++ [s.id outNode] else pipelineDebuggingNodeIds
    if s.id outNode ∈ ids then ids ++ [s.id inNode] else ids
  else pipelineDebuggingNodeIds

/-- `pipelineDebuggingNodeIds`. `order` is what `getConnectionsInternal` returned. -/
def pipelineDebuggingNodeIds (includePipelineDebugging : Bool)
    (order : List (ConnectionInternal O I)) : List ℤ :=
  if includePipelineDebugging then []
  else order.foldl (s.pipelineDebuggingVisit G) (s.pipelineDebuggingStart G)

/-! ### The nodes of a schema -/

/-- An output or input in the description of its node. -/
def addIo (io : NodeIoInfo) (info : NodeObjInfo) : Except String NodeObjInfo :=
  if (info.ioInfo (io.group, io.name)).isSome then
    if io.group = "" then
      .error ("'" ++ info.name ++ "." ++ io.name ++
        "' redefined. Inputs and outputs must have unique names")
    else
      .error ("'" ++ info.name ++ "." ++ io.group ++ "[\"" ++ io.name ++
        "\"]' redefined. Inputs and outputs must have unique names")
  else .ok { info with ioInfo := Function.update info.ioInfo (io.group, io.name) (some io) }

/-- An input in the description of its node; the other part of the state is `latestIoId`. -/
def addInput (st : NodeObjInfo × ℕ) (i : I) : Except String (NodeObjInfo × ℕ) := do
  let io : NodeIoInfo := {
    group := G.inGroup i
    name := G.inName i
    type := match G.inType i with
      | .MReceiver => .MReceiver
      | .SReceiver => .SReceiver
    blocking := D.getBlocking i
    queueSize := D.getMaxSize i
    waitForMessage := D.getWaitForMessage i
    id := st.2 }
  let info ← addIo io st.1
  .ok (info, st.2 + 1)

/-- An output in the description of its node. -/
def addOutput (includePipelineDebugging : Bool) (st : NodeObjInfo × ℕ) (out : O) :
    Except String (NodeObjInfo × ℕ) :=
  if !includePipelineDebugging && G.isEvent out then .ok st
  else do
    let io : NodeIoInfo := {
      group := G.outGroup out
      name := G.outName out
      type := match G.outType out with
        | .MSender => .MSender
        | .SSender => .SSender
      blocking := false
      id := st.2 }
    let info ← addIo io st.1
    .ok (info, st.2 + 1)

/-- The description of a node without its outputs and inputs. -/
def nodeInfo (defaultDeviceId : String) (node : N) : Except String NodeObjInfo :=
  let info : NodeObjInfo := {
    id := s.id node
    name := G.nodeName node
    nodeAlias := D.getAlias node
    parentId := D.parentId node
    deviceNode := !D.runOnHost node
    builtInNode := D.isBuiltInNode node
    deviceId := if !D.runOnHost node then defaultDeviceId else "" }
  match D.deviceNode node with
  | none =>
    if !D.runOnHost node then
      .error ("Node '" ++ info.name ++ "' should subclass DeviceNode or have hostNode == true")
    else .ok info
  | some (properties, logLevel) =>
    .ok { info with
      properties
      logLevel := if G.nodeName node = "DeviceNodeGroup" then .OFF else logLevel }

/-- The body of the loop over the nodes. -/
def addNode (defaultDeviceId : String) (includePipelineDebugging : Bool) (excluded : List ℤ)
    (st : (ℤ → Option NodeObjInfo) × ℕ) (node : N) :
    Except String ((ℤ → Option NodeObjInfo) × ℕ) :=
  if s.id node ∈ excluded then .ok st
  else do
    let info ← s.nodeInfo G D defaultDeviceId node
    let st' ← (D.getInputs node).foldlM (addInput G D) (info, st.2)
    let st' ← (D.getOutputs node).foldlM (addOutput G includePipelineDebugging) st'
    .ok (Function.update st.1 (s.id node) (some st'.1), st'.2)

/-! ### The connections of a schema -/

/-- A connection, with the names of its ends. -/
def connectionSchema (c : ConnectionInternal O I) : NodeConnectionSchema where
  node1Id := s.id (G.outNode c.out)
  node1OutputGroup := G.outGroup c.out
  node1Output := G.outName c.out
  node2Id := s.id (G.inNode c.input)
  node2InputGroup := G.inGroup c.input
  node2Input := G.inName c.input

/-- The body of the loop over the connections. -/
def addConnection (includePipelineDebugging : Bool) (excluded : List ℤ)
    (connections : List NodeConnectionSchema) (c : ConnectionInternal O I) :
    Except String (List NodeConnectionSchema) :=
  let outNode := G.outNode c.out
  let inNode := G.inNode c.input
  if !includePipelineDebugging && G.isEvent c.out then .ok connections
  else if s.id outNode ∈ excluded ∨ s.id inNode ∈ excluded then .ok connections
  else if D.runOnHost outNode && !D.runOnHost inNode then
    .error ("Connection from host node '" ++ G.nodeName outNode ++ "' to device node '" ++
      G.nodeName inNode ++ "' is not allowed during serialization.")
  else if !D.runOnHost outNode && D.runOnHost inNode then
    .error ("Connection from device node '" ++ G.nodeName outNode ++ "' to host node '" ++
      G.nodeName inNode ++ "' is not allowed during serialization.")
  else .ok (connections ++ [s.connectionSchema G c])

/-- `PipelineImpl::getPipelineSchema`. `order` and `order'` are what `getConnectionsInternal`
returned the first and the second time. -/
def getPipelineSchema (defaultDeviceId : String) (xlinkBridges : List (ℤ × ℤ))
    (includePipelineDebugging : Bool) (order order' : List (ConnectionInternal O I)) :
    Except String PipelineSchema := do
  let excluded := s.pipelineDebuggingNodeIds G includePipelineDebugging order
  let st ← s.getAllNodes.foldlM (s.addNode G D defaultDeviceId includePipelineDebugging excluded)
    (fun _ => none, 0)
  let connections ← order'.foldlM (s.addConnection G D includePipelineDebugging excluded) []
  .ok { connections, nodes := st.1, bridges := xlinkBridges }

end PipelineImpl

end Model

end DepthaiCore
