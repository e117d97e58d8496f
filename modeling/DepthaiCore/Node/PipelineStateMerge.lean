import DepthaiCore.Lib.Epochs
import DepthaiCore.Lib.Runs
import Mathlib.Data.Int.Notation

/-!
# Merging the states of a pipeline

`PipelineStateMerge` forwards each configuration that it is asked for to the aggregators on the host and
on the device, under a number of its own. It merges a state from the one with a state from the other.
After a configuration it skips the states of either that carry another number.

The merge and the two aggregators run side by side. Their queues lose nothing. The node is running, so
the main loops do not end. What an aggregator knows of the nodes is any value, and whether the interval
of a configuration has passed is any answer.
-/

namespace DepthaiCore.StateMerge

open Epochs

variable {V : Type}

/-! ### Messages -/

/-- `NodeState`, of which the maps are filtered. -/
structure NodeState (V : Type) where
  inputStates : List (String × V)
  outputStates : List (String × V)
  otherTimings : List (String × V)
  rest : V

/-- `PipelineState`. The keys of `nodeStates` are distinct. -/
structure PipelineState (V : Type) where
  nodeStates : List (ℤ × NodeState V) := []
  configSequenceNum : UInt32 := 0
  sequenceNum : UInt32 := 0
  timestamp : ℤ := 0

structure NodeEventAggregationConfig where
  nodeId : ℤ
  inputs : Option (List String)
  outputs : Option (List String)
  others : Option (List String)
  events : Bool

structure PipelineEventAggregationConfig where
  sequenceNum : UInt32
  nodes : List NodeEventAggregationConfig
  repeatIntervalSeconds : Option UInt32

/-! ### Aggregators -/

/-- The entries whose names are asked for. -/
def restrict (names : Option (List String)) (states : List (String × V)) : List (String × V) :=
  match names with
  | none => states
  | some names => states.filter fun entry => entry.1 ∈ names

/-- The nodes that are asked for. -/
def filterNodes (nodes : List NodeEventAggregationConfig) (states : List (ℤ × NodeState V)) :
    List (ℤ × NodeState V) :=
  if nodes.isEmpty then states
  else
    states.filterMap fun (nodeId, state) =>
      (nodes.find? fun config => config.nodeId = nodeId).map fun config =>
        (nodeId, { state with
          inputStates := restrict config.inputs state.inputStates
          outputStates := restrict config.outputs state.outputStates
          otherTimings := restrict config.others state.otherTimings })

/-- `makeOutputState`, for what the handler knows and the time. -/
def makeOutputState (nodeStates : List (ℤ × NodeState V))
    (currentConfig : Option PipelineEventAggregationConfig) (sequenceNum : UInt32) (now : ℤ) :
    PipelineState V where
  nodeStates :=
    match currentConfig with
    | none => nodeStates
    | some config => filterNodes config.nodes nodeStates
  configSequenceNum := (currentConfig.map (·.sequenceNum)).getD 0
  sequenceNum := sequenceNum
  timestamp := now

/-- An aggregator: its variables, where it stands in its loop, its queues, and what it received and sent
before. -/
structure Aggregator (V : Type) where
  traceOutput : Bool
  request : List PipelineEventAggregationConfig := []
  currentConfig : Option PipelineEventAggregationConfig := none
  traceOutputConfig : Option PipelineEventAggregationConfig := none
  sequenceNum : UInt32 := 0
  /-- `some gotConfig` between the request and the answer to it. -/
  gotConfig : Option Bool := none
  received : ℕ := 0
  sent : List (Letter (PipelineState V)) := []
  out : List (Letter (PipelineState V)) := []

/-- An operation of an aggregator. -/
inductive AggregatorStep (V : Type)
  /-- A request is taken. -/
  | getRequest
  /-- The wait for a request has timed out. -/
  | timeOut
  /-- A state is made, and sent or not. -/
  | report (nodeStates : List (ℤ × NodeState V)) (updated elapsed : Bool) (now : ℤ)

namespace Aggregator

/-- The configuration asks for states at an interval. -/
def repeats (currentConfig : Option PipelineEventAggregationConfig) : Bool :=
  (currentConfig.bind (·.repeatIntervalSeconds)).isSome

/-- What becomes of a configuration: the first that repeats may go to the trace output. -/
def configure (self : Aggregator V) (config : PipelineEventAggregationConfig) : Aggregator V :=
  if self.traceOutput && self.traceOutputConfig.isNone && config.repeatIntervalSeconds.isSome then
    { self with currentConfig := none, traceOutputConfig := some config }
  else
    { self with currentConfig := some config, gotConfig := some true }

/-- A state is sent. -/
def send (self : Aggregator V) (state : PipelineState V) : Aggregator V :=
  let letter := ⟨state, self.received, self.sent.length⟩
  { self with sent := self.sent ++ [letter], out := self.out ++ [letter] }

/-- `PipelineEventAggregation::run`, cut at its request and its answer. -/
def step (self : Aggregator V) : AggregatorStep V → Option (Aggregator V)
  | .getRequest =>
    match self.gotConfig, self.request with
    | none, config :: request =>
      some ({ self with request, received := self.received + 1 }.configure config)
    | _, _ => none
  | .timeOut =>
    if self.gotConfig.isNone && repeats self.currentConfig then
      some { self with gotConfig := some false }
    else none
  | .report nodeStates updated elapsed now =>
    match self.gotConfig with
    | none => none
    | some gotConfig =>
      let self := { self with gotConfig := none }
      if gotConfig || (repeats self.currentConfig && elapsed) then
        let outState := makeOutputState nodeStates self.currentConfig self.sequenceNum now
        let self := { self with sequenceNum := self.sequenceNum + 1 }
        if gotConfig || updated then some (self.send outState) else some self
      else some self

end Aggregator

/-! ### The merge -/

/-- `mergeStates`. It throws for a node that both states have. -/
def mergeStates (outState inState : List (ℤ × NodeState V)) :
    Except String (List (ℤ × NodeState V)) :=
  inState.foldlM (fun outState (key, value) =>
    if key ∈ outState.map Prod.fst then
      .error ("PipelineStateMerge: Duplicate node state for nodeId " ++ toString key)
    else .ok (outState ++ [(key, value)])) outState

/-- Where the merge stands in its loop. -/
inductive Stage (V : Type)
  /-- It is about to take a request, or not. -/
  | top
  /-- It takes a state of the device. -/
  | device (waitForMatch : Bool)
  /-- It takes a state of the host. -/
  | host (waitForMatch : Bool) (deviceState : Option (Letter (PipelineState V)))
  /-- It sends what it has. -/
  | send (deviceState hostState : Option (Letter (PipelineState V)))
  /-- An exception has ended it. -/
  | thrown (what : String)

/-- `PipelineStateMerge`. -/
structure Merge (V : Type) where
  hasDeviceNodes : Bool
  hasHostNodes : Bool
  allowReconfiguration : Bool
  currentConfig : Option PipelineEventAggregationConfig := none
  sequenceNum : UInt32 := 0
  configSequenceNum : UInt32 := 0
  stage : Stage V := .top

/-- A state that was sent on, with the states that it was made of and the number of configurations that
were forwarded before. -/
structure Output (V : Type) where
  state : PipelineState V
  device : Option (Letter (PipelineState V))
  host : Option (Letter (PipelineState V))
  forwarded : ℕ

/-- The merge, the aggregators, and what was requested, forwarded and sent. -/
structure System (V : Type) where
  merge : Merge V
  request : List PipelineEventAggregationConfig := []
  device : Aggregator V
  host : Aggregator V
  forwarded : List PipelineEventAggregationConfig := []
  out : List (Output V) := []

namespace System

/-- A configuration is numbered and forwarded. -/
def forward (self : System V) (req : PipelineEventAggregationConfig)
    (request : List PipelineEventAggregationConfig) : System V :=
  let configSequenceNum := self.merge.configSequenceNum + 1
  let config := { req with sequenceNum := configSequenceNum }
  { self with
    request
    merge := { self.merge with
      currentConfig := some config, configSequenceNum, stage := .device true }
    forwarded := self.forwarded ++ [config]
    device := { self.device with request := self.device.request ++ [config] }
    host := { self.host with request := self.host.request ++ [config] } }

/-- The merge goes on to another stage. -/
def goto (self : System V) (stage : Stage V) : System V :=
  { self with merge := { self.merge with stage } }

/-- The state carries another number than the configuration. -/
def stale (self : System V) (state : PipelineState V) : Bool :=
  match self.merge.currentConfig with
  | none => false
  | some config => state.configSequenceNum ≠ config.sequenceNum

/-- A state is sent on. -/
def sendOut (self : System V) (state : PipelineState V)
    (device host : Option (Letter (PipelineState V))) : System V :=
  { self.goto .top with out := self.out ++ [⟨state, device, host, self.forwarded.length⟩] }

/-- The two states are merged and sent on. -/
def mergeAndSend (self : System V) (device host : Letter (PipelineState V)) : System V :=
  match mergeStates device.content.nodeStates host.content.nodeStates with
  | .error what => self.goto (.thrown what)
  | .ok nodeStates =>
    let outState := { device.content with
      nodeStates
      timestamp := min device.content.timestamp host.content.timestamp
      sequenceNum := self.merge.sequenceNum }
    { self with merge := { self.merge with sequenceNum := self.merge.sequenceNum + 1 } }.sendOut
      outState (some device) (some host)

/-- `PipelineStateMerge::run`, cut at each of its operations on queues. -/
def mergeStep (self : System V) : Option (System V) :=
  match self.merge.stage with
  | .top =>
    let merge := self.merge
    if (merge.allowReconfiguration &&
        (!Aggregator.repeats merge.currentConfig || !self.request.isEmpty)) ||
        (!merge.allowReconfiguration && merge.currentConfig.isNone) then
      match self.request with
      | [] => none
      | req :: request => some (self.forward req request)
    else some (self.goto (.device false))
  | .device waitForMatch =>
    if self.merge.hasDeviceNodes then
      match self.device.out with
      | [] => none
      | state :: rest =>
        let self := { self with device := { self.device with out := rest } }
        if waitForMatch && self.stale state.content then some self
        else some (self.goto (.host waitForMatch (some state)))
    else some (self.goto (.host waitForMatch none))
  | .host waitForMatch deviceState =>
    if self.merge.hasHostNodes then
      match self.host.out with
      | [] => none
      | state :: rest =>
        let self := { self with host := { self.host with out := rest } }
        if waitForMatch && self.stale state.content then some self
        else some (self.goto (.send deviceState (some state)))
    else some (self.goto (.send deviceState none))
  | .send deviceState hostState =>
    match deviceState, hostState with
    | some device, some host => some (self.mergeAndSend device host)
    | some device, none => some (self.sendOut device.content (some device) none)
    | none, some host => some (self.sendOut host.content none (some host))
    | none, none => some (self.sendOut {} none none)
  | .thrown _ => none

/-- An operation of the system. -/
inductive Action (V : Type)
  | request (config : PipelineEventAggregationConfig)
  | merge
  | device (step : AggregatorStep V)
  | host (step : AggregatorStep V)

/-- One operation. -/
def step (self : System V) : Action V → Option (System V)
  | .request config => some { self with request := self.request ++ [config] }
  | .merge => self.mergeStep
  | .device step => (self.device.step step).map fun device => { self with device }
  | .host step => (self.host.step step).map fun host => { self with host }

/-- Nothing has happened. -/
def initial (hasDeviceNodes hasHostNodes allowReconfiguration : Bool)
    (deviceTrace hostTrace : Bool) : System V where
  merge := { hasDeviceNodes, hasHostNodes, allowReconfiguration }
  device := { traceOutput := deviceTrace }
  host := { traceOutput := hostTrace }

end System

end DepthaiCore.StateMerge
