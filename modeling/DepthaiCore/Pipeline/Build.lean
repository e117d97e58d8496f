import DepthaiCore.Pipeline.AssemblyIdentity

/-!
# The bridges of `build`

An output of a device node cannot send to a host node, nor the other way round. `build` goes through
the connections and puts an XLink bridge into every one that crosses: two nodes, one on either side,
that have the name of a stream in common. All connections from one device output go over one bridge,
and so do all connections to one device input. Then the queues of device outputs are moved behind
bridges too.

A node that `build` creates is named by what it is and by the output or input that it is created
for; there is one bridge for each of these. `build` throws when a stream name is used twice, and
when one of its links is refused. What a `build` that throws leaves is not in the model.
-/

namespace DepthaiCore

variable {N O I P Q : Type*}

/-! ### The nodes of the bridges -/

/-- The nodes that `build` creates. -/
inductive XLinkNode
  | XLinkOut | XLinkInHost | XLinkOutHost | XLinkIn
  deriving DecidableEq, Repr

/-- An output or an input of a device node, which a bridge is created for. -/
inductive Port (O I : Type*)
  | output (out : O)
  | input (input : I)
  deriving DecidableEq, Repr

/-- The node of a bridge that sends into the stream. -/
def Port.sender : Port O I → XLinkNode
  | .output _ => .XLinkOut
  | .input _ => .XLinkOutHost

/-- The node of a bridge that receives from the stream. -/
def Port.receiver : Port O I → XLinkNode
  | .output _ => .XLinkInHost
  | .input _ => .XLinkIn

namespace XLinkNode

def getName : XLinkNode → String
  | XLinkOut => "XLinkOut"
  | XLinkInHost => "XLinkInHost"
  | XLinkOutHost => "XLinkOutHost"
  | XLinkIn => "XLinkIn"

def runOnHost : XLinkNode → Bool
  | XLinkOut | XLinkIn => false
  | XLinkInHost | XLinkOutHost => true

end XLinkNode

/-- A node of the pipeline, or one of the bridge of a port. -/
inductive BuildNode (N O I : Type*)
  | given (node : N)
  | created (kind : XLinkNode) (port : Port O I)
  deriving DecidableEq, Repr

/-- An output of a node of the pipeline, or `out` or `pipelineEventOutput` of a node of a bridge. -/
inductive BuildOutput (O I : Type*)
  | given (out : O)
  | created (kind : XLinkNode) (port : Port O I)
  | event (kind : XLinkNode) (port : Port O I)
  deriving DecidableEq, Repr

/-- An input of a node of the pipeline, or `input` of an `XLinkOut`, `in` of an `XLinkOutHost`. -/
inductive BuildInput (O I : Type*)
  | given (input : I)
  | created (kind : XLinkNode) (port : Port O I)
  deriving DecidableEq, Repr

/-- `runOnHost`, also of the nodes of bridges. -/
def BuildNode.runOnHost (runOnHost : N → Bool) : BuildNode N O I → Bool
  | .given node => runOnHost node
  | .created kind _ => kind.runOnHost

/-- The outputs and inputs with those of the bridges. Messages go over a bridge through those that
are for any buffer. -/
def Ports.withBridges (G : Ports N O I) :
    Ports (BuildNode N O I) (BuildOutput O I) (BuildInput O I) where
  nodeName
    | .given node => G.nodeName node
    | .created kind _ => kind.getName
  outNode
    | .given out => .given (G.outNode out)
    | .created kind port | .event kind port => .created kind port
  outName
    | .given out => G.outName out
    | .created _ _ => "out"
    | .event _ _ => "pipelineEventOutput"
  outGroup
    | .given out => G.outGroup out
    | .created _ _ | .event _ _ => ""
  outType
    | .given out => G.outType out
    | .created _ _ | .event _ _ => .MSender
  outDatatypes
    | .given out => G.outDatatypes out
    | .created _ _ => [⟨.Buffer, true, DatatypeEnum.buffer_ne⟩]
    | .event _ _ => [⟨.PipelineEvent, false, by decide⟩]
  inNode
    | .given input => .given (G.inNode input)
    | .created kind port => .created kind port
  inName
    | .given input => G.inName input
    | .created _ _ => "in"
  inGroup
    | .given input => G.inGroup input
    | .created _ _ => ""
  inType
    | .given input => G.inType input
    | .created _ _ => .SReceiver
  inDatatypes
    | .given input => G.inDatatypes input
    | .created _ _ => [⟨.Buffer, true, DatatypeEnum.buffer_ne⟩]

/-- A connection of the pipeline, among those of the bridges. -/
def ConnectionInternal.given (c : ConnectionInternal O I) :
    ConnectionInternal (BuildOutput O I) (BuildInput O I) :=
  ⟨.given c.out, .given c.input⟩

/-- The hierarchy of the nodes; nothing is below a node of a bridge. -/
def BuildNode.nodeMap (H : Hierarchy N) : Hierarchy (BuildNode N O I) where
  children
    | .given node => (H.children node).map .given
    | .created _ _ => []
  rank
    | .given node => H.rank node
    | .created _ _ => 0
  ranked := by
    rintro (node | ⟨kind, port⟩) c hc
    · obtain ⟨child, hchild, rfl⟩ := List.mem_map.1 hc
      exact H.ranked node child hchild
    · cases hc

/-- The pipeline when no bridge has been created. -/
def PipelineImpl.withBridges (s : PipelineImpl N O I P) :
    PipelineImpl (BuildNode N O I) (BuildOutput O I) (BuildInput O I) P where
  self := s.self
  isBuild := s.isBuild
  latestId := s.latestId
  nodes := s.nodes.map .given
  nodeMap := BuildNode.nodeMap s.nodeMap
  id
    | .given node => s.id node
    | .created _ _ => -1
  parent
    | .given node => s.parent node
    | .created _ _ => none
  connections
    | .given node => (s.connections node).map .given
    | .created _ _ => []
  connectedInputs
    | .given out => (s.connectedInputs out).map .given
    | .created _ _ | .event _ _ => []
  connectedOutputs
    | .given input => (s.connectedOutputs input).map .given
    | .created _ _ => []
  nodes_parent := by
    intro node hnode
    obtain ⟨n, hn, rfl⟩ := List.mem_map.1 hnode
    exact s.nodes_parent n hn

/-! ### The variables of `build` -/

/-- The outputs of each node, `getOutputRefs`. -/
structure OutputRefs (G : Ports N O I) where
  getOutputRefs : N → List O
  mem_iff : ∀ node out, out ∈ getOutputRefs node ↔ G.outNode out = node

/-- The pipeline and the local variables of `build`. `bridges` are the keys of `bridgesOut` and
`bridgesIn`, the outputs and inputs that have a bridge. -/
structure BuildState (N O I P Q : Type*) where
  pipeline : PipelineImpl (BuildNode N O I) (BuildOutput O I) (BuildInput O I) P
  queueConnections : BuildOutput O I → List Q
  streamName : BuildNode N O I → String
  bridges : List (Port O I)
  uniqueStreamNames : List String
  xlinkBridges : List (ℤ × ℤ)

/-- The state before the loops. -/
def BuildState.start (s : PipelineImpl N O I P) (queueConnections : O → List Q) :
    BuildState N O I P Q where
  pipeline := s.withBridges
  queueConnections
    | .given out => queueConnections out
    | .created _ _ | .event _ _ => []
  streamName _ := ""
  bridges := []
  uniqueStreamNames := []
  xlinkBridges := []

section Model

variable (G : Ports N O I) (runOnHost : N → Bool)

/-- The output or input whose bridge a connection has to go over: the output if it is a device
node's and the input a host node's, the input in the opposite case. -/
def Ports.crossing (c : ConnectionInternal O I) : Option (Port O I) :=
  if !runOnHost (G.outNode c.out) && runOnHost (G.inNode c.input) then some (.output c.out)
  else if !runOnHost (G.inNode c.input) && runOnHost (G.outNode c.out) then some (.input c.input)
  else none

/-- The stream name that the loop over the connections makes. The nodes of the pipeline have the
same id throughout. -/
def PipelineImpl.connectionStreamName (s : PipelineImpl N O I P) : Port O I → String
  | .output out => "__x_" ++ toString (s.id (G.outNode out)) ++ "_" ++ G.outGroup out ++ "_" ++
      G.outName out
  | .input input => "__x_" ++ toString (s.id (G.inNode input)) ++ "_" ++ G.inGroup input ++ "_" ++
      G.inName input

/-- The stream name that the loop over the queues makes. -/
def PipelineImpl.queueStreamName (s : PipelineImpl N O I P) (out : O) : String :=
  "__x_" ++ toString (s.id (G.outNode out)) ++ "_" ++ G.outName out

/-- The connection between a port and its bridge. -/
def Port.own : Port O I → ConnectionInternal (BuildOutput O I) (BuildInput O I)
  | .output out => ⟨.given out, .created .XLinkOut (.output out)⟩
  | .input i => ⟨.created .XLinkIn (.input i), .given i⟩

/-- What a crossing connection becomes: the link between the bridge and its other end. -/
def Port.moved (c : ConnectionInternal O I) :
    Port O I → ConnectionInternal (BuildOutput O I) (BuildInput O I)
  | .output out => ⟨.created .XLinkInHost (.output out), .given c.input⟩
  | .input i => ⟨.given c.out, .created .XLinkOutHost (.input i)⟩

variable [DecidableEq N] [DecidableEq O] [DecidableEq I] [DecidableEq P] [DecidableEq Q]
variable (defaultDevice : Bool)

namespace BuildState

/-- `create`: a device node needs a default device, and every node is added to the pipeline. -/
def create (kind : XLinkNode) (port : Port O I) (b : BuildState N O I P Q) :
    Except String (BuildState N O I P Q) :=
  if !kind.runOnHost && !defaultDevice then
    .error "Pipeline is host only, cannot create device node"
  else
    match b.pipeline.add (some (.created kind port)) with
    | (_, some e) => .error e
    | (t, none) => .ok { b with pipeline := t }

def link (c : ConnectionInternal (BuildOutput O I) (BuildInput O I)) (b : BuildState N O I P Q) :
    Except String (BuildState N O I P Q) :=
  match Output.link G.withBridges b.pipeline c.out c.input with
  | (_, some e) => .error e
  | (t, none) => .ok { b with pipeline := t }

def unlink (c : ConnectionInternal (BuildOutput O I) (BuildInput O I)) (b : BuildState N O I P Q) :
    Except String (BuildState N O I P Q) :=
  match Output.unlink G.withBridges b.pipeline c.out c.input with
  | (_, some e) => .error e
  | (t, none) => .ok { b with pipeline := t }

/-- The bridge of a port with a stream name that is not used yet. -/
def setStreamName (port : Port O I) (streamName : String) (b : BuildState N O I P Q) :
    Except String (BuildState N O I P Q) :=
  if streamName ∈ b.uniqueStreamNames then
    .error ("Stream name '" ++ streamName ++ "' is not unique")
  else
    .ok { b with
      uniqueStreamNames := b.uniqueStreamNames ++ [streamName]
      streamName := Function.update
        (Function.update b.streamName (.created port.sender port) streamName)
        (.created port.receiver port) streamName }

/-- Create the bridge of a port if it has none. -/
def createBridge (port : Port O I) (streamName : String) (b : BuildState N O I P Q) :
    Except String (BuildState N O I P Q) :=
  if port ∈ b.bridges then .ok b
  else do
    let b ← b.create defaultDevice port.sender port
    let b ← b.create defaultDevice port.receiver port
    let b ← { b with bridges := b.bridges ++ [port] }.setStreamName port streamName
    let b ← b.link G port.own
    .ok { b with
      xlinkBridges := b.xlinkBridges ++ [(b.pipeline.id (.created port.sender port),
        b.pipeline.id (.created port.receiver port))] }

/-- The body of the loop over the connections. -/
def bridgeConnection (s : PipelineImpl N O I P) (c : ConnectionInternal O I)
    (b : BuildState N O I P Q) : Except String (BuildState N O I P Q) :=
  match G.crossing runOnHost c with
  | none => .ok b
  | some port => do
    let b ← b.createBridge G defaultDevice port (s.connectionStreamName G port)
    let b ← b.unlink G c.given
    b.link G (port.moved c)

/-- `link` and `unlink` of an output and a queue. -/
def moveQueue (out : O) (queue : Q) (b : BuildState N O I P Q) : BuildState N O I P Q :=
  let left := Function.update b.queueConnections (.given out)
    ((b.queueConnections (.given out)).filter (· ≠ queue))
  let receiver := .created .XLinkInHost (.output out)
  { b with queueConnections := Function.update left receiver (left receiver ++ [queue]) }

/-- The body of the loop over the queues of an output. -/
def bridgeQueue (s : PipelineImpl N O I P) (out : O) (b : BuildState N O I P Q) (queue : Q) :
    Except String (BuildState N O I P Q) := do
  let b ← b.createBridge G defaultDevice (.output out) (s.queueStreamName G out)
  .ok (b.moveQueue out queue)

variable {G}

/-- The loops over the outputs of a node and over their queues. The output of a node of a bridge has
no queue when they come to it, unless the node is on the host. -/
def bridgeQueues (R : OutputRefs G) (s : PipelineImpl N O I P) (b : BuildState N O I P Q) :
    BuildNode N O I → Except String (BuildState N O I P Q)
  | .created _ _ => .ok b
  | .given node =>
    if runOnHost node then .ok b
    else (R.getOutputRefs node).foldlM (fun b out =>
      (b.queueConnections (.given out)).foldlM (bridgeQueue G defaultDevice s out) b) b

/-- The loops of `build`. `order` is what `getConnectionsInternal` returned, in the order of its
unordered sets and maps. -/
def createBridges (R : OutputRefs G) (s : PipelineImpl N O I P) (queueConnections : O → List Q)
    (order : List (ConnectionInternal O I)) : Except String (BuildState N O I P Q) := do
  let b ← order.foldlM (fun b c => bridgeConnection G runOnHost defaultDevice s c b)
    (start s queueConnections)
  b.pipeline.getAllNodes.foldlM (bridgeQueues runOnHost defaultDevice R s) b

end BuildState

end Model

end DepthaiCore
