import DepthaiCore.Lib.Loops
import DepthaiCore.Utility.CircularBuffer
import Mathlib.Data.List.Sort

/-!
# Aggregation of pipeline events

`NodeEventAggregation` collects the events of one node. The START events of an interval wait in a
circular buffer for the END event of their number, which turns them into a duration. The durations
go into another circular buffer, from which `updateStats` makes statistics.

The buffers of an event depend on its type, and for some types on its source. A *track* is what has
buffers and statistics of its own. Frame rates are left out, and so is the clock: whether it is time
for new statistics is an argument. The standard deviation is computed in `double` and is a
parameter.
-/

namespace DepthaiCore

/-! ### Events -/

namespace PipelineEvent

/-- `PipelineEvent::Type`. -/
inductive EventType
  | CUSTOM | LOOP | INPUT | OUTPUT | INPUT_BLOCK | OUTPUT_BLOCK
  deriving DecidableEq, Repr

inductive Interval
  | NONE | START | END
  deriving DecidableEq, Repr

inductive Status
  | SUCCESS | BLOCKED | CANCELLED
  deriving DecidableEq, Repr

end PipelineEvent

open PipelineEvent (EventType Interval Status)

/-- `PipelineEvent`. The number is a signed one of 64 bits, and the timestamp counts nanoseconds. -/
structure PipelineEvent where
  sequenceNum : ℤ
  ts : ℤ
  status : Status
  queueSize : Option ℕ
  interval : Interval
  type : EventType
  source : String
  deriving DecidableEq, Repr

structure DurationEvent where
  startEvent : PipelineEvent
  durationUs : ℕ
  deriving DecidableEq, Repr

/-- The event that an event ends: the microseconds between them, as a number of 64 bits. -/
def DurationEvent.between (startEvent event : PipelineEvent) : DurationEvent where
  startEvent := startEvent
  durationUs := (((event.ts - startEvent.ts).tdiv 1000) % 2 ^ 64).toNat

structure DurationStats where
  minMicros : ℕ := 2 ^ 64 - 1
  maxMicros : ℕ := 0
  averageMicrosRecent : ℕ := 0
  stdDevMicrosRecent : ℕ := 0
  minMicrosRecent : ℕ := 2 ^ 64 - 1
  maxMicrosRecent : ℕ := 0
  medianMicrosRecent : ℕ := 0
  deriving DecidableEq, Repr

structure QueueStats where
  maxQueued : ℕ := 0
  minQueuedRecent : ℕ := 2 ^ 32 - 1
  maxQueuedRecent : ℕ := 0
  medianQueuedRecent : ℕ := 0
  deriving DecidableEq, Repr

/-! ### The state of a node -/

namespace NodeState

inductive InputQueueState.State
  | IDLE | WAITING | BLOCKED
  deriving DecidableEq, Repr

inductive OutputQueueState.State
  | IDLE | SENDING
  deriving DecidableEq, Repr

inductive State
  | IDLE | GETTING_INPUTS | PROCESSING | SENDING_OUTPUTS
  deriving DecidableEq, Repr

end NodeState

/-- `NodeState::InputQueueState`, and the buffer of the sizes of its queue. -/
structure InputQueueState where
  state : NodeState.InputQueueState.State := .IDLE
  numQueued : ℕ := 0
  queueStats : QueueStats := {}
  queueSizesBuffer : Option (CircularBuffer ℕ) := none

/-- What has buffers of its own. -/
inductive Track
  | mainLoop
  | input (source : String)
  | output (source : String)
  | other (source : String)
  | getInputs
  | sendOutputs
  deriving DecidableEq, Repr

/-- The buffers of a track, and its statistics. A buffer may not have been made yet. -/
structure Tracked where
  ongoingEvents : Option (CircularBuffer (Option PipelineEvent)) := none
  timingsBuffer : Option (CircularBuffer ℕ) := none
  durationStats : DurationStats := {}

/-- The track of a type and a source. -/
def Track.of (type : EventType) (source : String) : Track :=
  match type with
  | .LOOP => .mainLoop
  | .INPUT => .input source
  | .OUTPUT => .output source
  | .CUSTOM => .other source
  | .INPUT_BLOCK => .getInputs
  | .OUTPUT_BLOCK => .sendOutputs

/-- The track of an event. -/
def PipelineEvent.track (event : PipelineEvent) : Track :=
  .of event.type event.source

/-- How `add` ends without a result. -/
inductive AggregationFault
  | runtimeError (what : String)
  | outside
  deriving DecidableEq, Repr

structure NodeEventAggregation where
  windowSize : ℕ
  eventWaitWindow : ℕ
  eventsBuffer : CircularBuffer DurationEvent
  tracks : Track → Tracked
  state : NodeState.State
  inputStates : String → InputQueueState
  outputStates : String → NodeState.OutputQueueState.State

/-- An element added to a buffer that has a place for it. -/
def CircularBuffer.tryAdd {α : Type} (b : CircularBuffer α) (value : α) :
    Except AggregationFault (CircularBuffer α) :=
  match b.add value with
  | some t => .ok t
  | none => .error .outside

namespace NodeEventAggregation

/-- The constructor. The buffers of the tracks without a source exist from the start. -/
def init (windowSize eventWaitWindow : ℕ) : NodeEventAggregation where
  windowSize := windowSize
  eventWaitWindow := eventWaitWindow
  eventsBuffer := .empty windowSize
  tracks
    | .mainLoop | .getInputs | .sendOutputs => { timingsBuffer := some (.empty windowSize) }
    | .input _ | .output _ | .other _ => {}
  state := .IDLE
  inputStates _ := {}
  outputStates _ := .IDLE

/-! ### Intervals -/

/-- The places are searched until an event of a smaller number. -/
def findAt (buffer : CircularBuffer (Option PipelineEvent)) (sequenceNum : ℤ) :
    List ℕ → Option (ℕ × PipelineEvent)
  | [] => none
  | place :: rest =>
    match buffer.buffer[place]? with
    | some (some event) =>
      if event.sequenceNum = sequenceNum then some (place, event)
      else if event.sequenceNum < sequenceNum then none
      else findAt buffer sequenceNum rest
    | _ => findAt buffer sequenceNum rest

/-- `findOngoingEvent`: where the event is, and what it is. The number is narrowed to 32 bits. -/
def findOngoingEvent (sequenceNum : ℤ) (buffer : CircularBuffer (Option PipelineEvent)) :
    Option (ℕ × PipelineEvent) :=
  findAt buffer (sequenceNum % 2 ^ 32) ((List.range buffer.size).map buffer.reversePlace)

variable (a : NodeEventAggregation) (event : PipelineEvent)

/-- The START events that wait in a track. The buffer is made if there is none yet. -/
def ongoing (track : Track) : CircularBuffer (Option PipelineEvent) :=
  (a.tracks track).ongoingEvents.getD (.empty a.eventWaitWindow)

/-- The durations of a track. The buffer is made if there is none yet. -/
def timings (track : Track) : CircularBuffer ℕ :=
  (a.tracks track).timingsBuffer.getD (.empty a.windowSize)

/-- The buffers of a track, assigned. -/
def setBuffers (track : Track) (ongoingEvents : CircularBuffer (Option PipelineEvent))
    (timingsBuffer : CircularBuffer ℕ) : NodeEventAggregation :=
  { a with
    tracks := Function.update a.tracks track
      { a.tracks track with
        ongoingEvents := some ongoingEvents, timingsBuffer := some timingsBuffer } }

def updateIntervalBuffers : Except AggregationFault (Bool × NodeEventAggregation) := do
  let ongoingEvents := a.ongoing event.track
  let timingsBuffer := a.timings event.track
  match event.interval, findOngoingEvent event.sequenceNum ongoingEvents with
  | .END, some (place, startEvent) =>
    let durationEvent := DurationEvent.between startEvent event
    let eventsBuffer ← a.eventsBuffer.tryAdd durationEvent
    let timingsBuffer ← timingsBuffer.tryAdd durationEvent.durationUs
    let ongoingEvents := ongoingEvents.assign place none
    return (true, { a with eventsBuffer }.setBuffers event.track ongoingEvents timingsBuffer)
  | .START, _ =>
    let ongoingEvents ← ongoingEvents.tryAdd (some event)
    return (false, a.setBuffers event.track ongoingEvents timingsBuffer)
  | _, _ => return (false, a.setBuffers event.track ongoingEvents timingsBuffer)

/-- What `updatePingBuffers` does with the buffers of a track. The event before stays where it
is. -/
def pingBuffers : Except AggregationFault (Bool × NodeEventAggregation) := do
  let ongoingEvents := a.ongoing event.track
  let timingsBuffer := a.timings event.track
  match findOngoingEvent (event.sequenceNum - 1) ongoingEvents with
  | some (_, startEvent) =>
    let durationEvent := DurationEvent.between startEvent event
    let eventsBuffer ← a.eventsBuffer.tryAdd durationEvent
    let timingsBuffer ← timingsBuffer.tryAdd durationEvent.durationUs
    let ongoingEvents ← ongoingEvents.tryAdd (some event)
    return (true, { a with eventsBuffer }.setBuffers event.track ongoingEvents timingsBuffer)
  | none =>
    let ongoingEvents ← ongoingEvents.tryAdd (some event)
    return (false, a.setBuffers event.track ongoingEvents timingsBuffer)

def updatePingBuffers : Except AggregationFault (Bool × NodeEventAggregation) :=
  match event.type with
  | .INPUT | .OUTPUT | .INPUT_BLOCK | .OUTPUT_BLOCK =>
    .error (.runtimeError "INPUT and OUTPUT events should not be pings")
  | .LOOP | .CUSTOM => a.pingBuffers event

/-- The size of the queue that an INPUT event comes with, if it does not start an interval. -/
def updateQueueSize (input : InputQueueState) : Except AggregationFault InputQueueState :=
  match event.interval, event.queueSize with
  | .START, _ | _, none => .ok input
  | _, some queueSize => do
    let buffer ← (input.queueSizesBuffer.getD (.empty a.windowSize)).tryAdd queueSize
    return { input with numQueued := queueSize, queueSizesBuffer := some buffer }

/-- The state of the queue of an input after an event. -/
def inputState (event : PipelineEvent) (state : NodeState.InputQueueState.State) :
    NodeState.InputQueueState.State :=
  match event.interval with
  | .START => .WAITING
  | .END => .IDLE
  | .NONE => if event.status = .BLOCKED then .BLOCKED else state

/-- The state of the node after an event, and of its queues: the first part of `add`. -/
def updateState : Except AggregationFault NodeEventAggregation :=
  match event.type, event.interval with
  | .CUSTOM, _ | .LOOP, _ => .ok a
  | .INPUT, _ => do
    let input ← a.updateQueueSize event (a.inputStates event.source)
    let input := { input with state := inputState event input.state }
    return { a with inputStates := Function.update a.inputStates event.source input }
  | .OUTPUT, .START =>
    .ok { a with outputStates := Function.update a.outputStates event.source .SENDING }
  | .OUTPUT, .END =>
    .ok { a with outputStates := Function.update a.outputStates event.source .IDLE }
  | .INPUT_BLOCK, .START => .ok { a with state := .GETTING_INPUTS }
  | .OUTPUT_BLOCK, .START => .ok { a with state := .SENDING_OUTPUTS }
  | .INPUT_BLOCK, .END | .OUTPUT_BLOCK, .END => .ok { a with state := .PROCESSING }
  | _, .NONE => .ok a

def add : Except AggregationFault NodeEventAggregation := do
  let a ← a.updateState event
  if event.interval = .NONE ∧ event.type ≠ .INPUT ∧ event.type ≠ .OUTPUT ∧
      event.status = .SUCCESS then
    let (_, a) ← a.updatePingBuffers event
    return a
  else if event.interval ≠ .NONE ∧ event.status = .SUCCESS then
    let (_, a) ← a.updateIntervalBuffers event
    return a
  else
    return a

/-! ### Statistics -/

section Statistics

variable (stdDev : List ℕ → ℕ → ℕ)

/-- The element in the middle of a sorted list, or what two of them come to in `bits` bits. -/
def medianRecent (bits : ℕ) (sorted : List ℕ) : ℕ :=
  let median := sorted.getD (sorted.length / 2) 0
  if sorted.length % 2 = 0 then
    (median + sorted.getD (sorted.length / 2 - 1) 0) % 2 ^ bits / 2
  else median

def updateTimingStats (stats : DurationStats) (buffer : CircularBuffer ℕ) : DurationStats :=
  match buffer.last with
  | none => stats
  | some last =>
    let bufferByType := buffer.getBuffer
    let sum := bufferByType.foldl (fun sum v => (sum + v) % 2 ^ 64) 0
    let averageMicrosRecent := sum / bufferByType.length
    let sorted := bufferByType.insertionSort (· ≤ ·)
    { minMicros := min stats.minMicros last
      maxMicros := max stats.maxMicros last
      averageMicrosRecent
      stdDevMicrosRecent := stdDev bufferByType averageMicrosRecent
      minMicrosRecent := sorted.headD 0
      maxMicrosRecent := sorted.getLastD 0
      medianMicrosRecent := medianRecent 64 sorted }

def updateQueueStats (queueStats : QueueStats) (buffer : CircularBuffer ℕ) : QueueStats :=
  if buffer.size = 0 then queueStats
  else
    let sorted := buffer.getBuffer.insertionSort (· ≤ ·)
    { maxQueued := max queueStats.maxQueued (sorted.getLastD 0)
      minQueuedRecent := sorted.headD 0
      maxQueuedRecent := sorted.getLastD 0
      medianQueuedRecent := medianRecent 32 sorted }

/-- The statistics of a track that has a buffer of durations. -/
def Tracked.updateStats (t : Tracked) : Tracked :=
  match t.timingsBuffer with
  | none => t
  | some buffer => { t with durationStats := updateTimingStats stdDev t.durationStats buffer }

/-- The statistics of the queue of an input that has both buffers. -/
def inputStats (t : Tracked) (input : InputQueueState) : InputQueueState :=
  match t.timingsBuffer, input.queueSizesBuffer with
  | some _, some buffer => { input with queueStats := updateQueueStats input.queueStats buffer }
  | _, _ => input

/-- `updateStats`, and whether it was time for it. -/
def updateStats (due : Bool) : Bool × NodeEventAggregation :=
  if due then
    (true, { a with
      tracks := fun track => Tracked.updateStats stdDev (a.tracks track)
      inputStates := fun source => inputStats (a.tracks (.input source)) (a.inputStates source) })
  else (false, a)

end Statistics

/-! ### What an event changes -/

/-- The duration that an event records. -/
def recorded : Option DurationEvent :=
  if event.status = .SUCCESS then
    match event.interval, event.type with
    | .END, _ =>
      (findOngoingEvent event.sequenceNum (a.ongoing event.track)).map fun found =>
        .between found.2 event
    | .NONE, .LOOP | .NONE, .CUSTOM =>
      (findOngoingEvent (event.sequenceNum - 1) (a.ongoing event.track)).map fun found =>
        .between found.2 event
    | _, _ => none
  else none

variable {a event} {a' : NodeEventAggregation}

/-- A buffer to which one element has been added, or nothing. -/
def Adds {α : Type} (b : CircularBuffer α) : Option α → CircularBuffer α → Prop
  | none, t => t = b
  | some value, t => b.add value = some t

theorem Adds.recent_eq {α : Type} {b t : CircularBuffer α} {value : Option α} (h : Adds b value t) :
    t.recent = b.recent ∨ ∃ x, value = some x ∧ t.recent = (x :: b.recent).take b.maxSize := by
  cases value with
  | none => exact .inl (congrArg _ h)
  | some x => exact .inr ⟨x, rfl, CircularBuffer.recent_of_add h⟩

theorem tryAdd_eq_ok_iff {α : Type} {b t : CircularBuffer α} {value : α} :
    b.tryAdd value = .ok t ↔ b.add value = some t := by
  unfold CircularBuffer.tryAdd
  cases b.add value with
  | none => simp
  | some t' => simp

/-- **What an event changes**: it records a duration or does not, and other tracks stay. -/
structure Recording (a : NodeEventAggregation) (track : Track) (d : Option DurationEvent)
    (a' : NodeEventAggregation) : Prop where
  windowSize : a'.windowSize = a.windowSize
  eventWaitWindow : a'.eventWaitWindow = a.eventWaitWindow
  eventsBuffer : Adds a.eventsBuffer d a'.eventsBuffer
  timings : Adds (a.timings track) (d.map (·.durationUs)) (a'.timings track)
  durationStats : ∀ t, (a'.tracks t).durationStats = (a.tracks t).durationStats
  others : ∀ t ≠ track, a'.tracks t = a.tracks t

/-- The tracks, the durations of the node and the sizes are the same. -/
structure SameTracks (a a' : NodeEventAggregation) : Prop where
  windowSize : a'.windowSize = a.windowSize
  eventWaitWindow : a'.eventWaitWindow = a.eventWaitWindow
  eventsBuffer : a'.eventsBuffer = a.eventsBuffer
  tracks : a'.tracks = a.tracks

namespace SameTracks

theorem ongoing (h : SameTracks a a') (track : Track) : a'.ongoing track = a.ongoing track := by
  rw [NodeEventAggregation.ongoing, h.tracks, h.eventWaitWindow, NodeEventAggregation.ongoing]

theorem timings (h : SameTracks a a') (track : Track) : a'.timings track = a.timings track := by
  rw [NodeEventAggregation.timings, h.tracks, h.windowSize, NodeEventAggregation.timings]

theorem recorded (h : SameTracks a a') : a'.recorded event = a.recorded event := by
  rw [NodeEventAggregation.recorded, h.ongoing, NodeEventAggregation.recorded]

theorem recording (h : SameTracks a a') {track : Track} {d : Option DurationEvent}
    {b : NodeEventAggregation} (hb : Recording a' track d b) : Recording a track d b where
  windowSize := hb.windowSize.trans h.windowSize
  eventWaitWindow := hb.eventWaitWindow.trans h.eventWaitWindow
  eventsBuffer := h.eventsBuffer ▸ hb.eventsBuffer
  timings := h.timings track ▸ hb.timings
  durationStats t := (hb.durationStats t).trans (by rw [h.tracks])
  others t ht := (hb.others t ht).trans (by rw [h.tracks])

theorem recording_none (h : SameTracks a a') (track : Track) : Recording a track none a' where
  windowSize := h.windowSize
  eventWaitWindow := h.eventWaitWindow
  eventsBuffer := h.eventsBuffer
  timings := h.timings track
  durationStats t := by rw [h.tracks]
  others t _ := by rw [h.tracks]

end SameTracks

/-- **What happens to the states of a node and its queues concerns no track.** -/
theorem tracks_of_updateState (h : a.updateState event = .ok a') : SameTracks a a' := by
  unfold updateState at h
  split at h
  case h_3 =>
    obtain ⟨input, -, h⟩ := Loop.bind_eq_ok.1 h
    rw [← Except.ok.inj h]
    exact ⟨rfl, rfl, rfl, rfl⟩
  all_goals
    rw [← Except.ok.inj h]
    exact ⟨rfl, rfl, rfl, rfl⟩

/-- The buffers of a track after an assignment to them. -/
theorem ongoing_setBuffers (track : Track) (ongoingEvents : CircularBuffer (Option PipelineEvent))
    (timingsBuffer : CircularBuffer ℕ) :
    (a.setBuffers track ongoingEvents timingsBuffer).ongoing track = ongoingEvents := by
  show (Function.update a.tracks track _ track).ongoingEvents.getD _ = _
  rw [Function.update_self]
  rfl

theorem recording_setBuffers {track : Track}
    {ongoingEvents : CircularBuffer (Option PipelineEvent)} {timingsBuffer : CircularBuffer ℕ}
    {eventsBuffer : CircularBuffer DurationEvent} {d : Option DurationEvent}
    (hevents : Adds a.eventsBuffer d eventsBuffer)
    (htimings : Adds (a.timings track) (d.map (·.durationUs)) timingsBuffer) :
    Recording a track d ({ a with eventsBuffer }.setBuffers track ongoingEvents timingsBuffer) where
  windowSize := rfl
  eventWaitWindow := rfl
  eventsBuffer := hevents
  timings := by
    have hself : ({ a with eventsBuffer }.setBuffers track ongoingEvents timingsBuffer).timings
        track = timingsBuffer := by
      show (Function.update a.tracks track _ track).timingsBuffer.getD _ = _
      rw [Function.update_self]
      rfl
    rwa [hself]
  durationStats t := by
    show (Function.update a.tracks track _ t).durationStats = _
    by_cases ht : t = track
    · rw [ht, Function.update_self]
    · rw [Function.update_of_ne ht]
  others t ht := Function.update_of_ne ht _ _

/-- What a START or END event makes of the events that wait. -/
def Waits (b : CircularBuffer (Option PipelineEvent)) (event : PipelineEvent)
    (t : CircularBuffer (Option PipelineEvent)) : Prop :=
  match event.interval, findOngoingEvent event.sequenceNum b with
  | .START, _ => b.add (some event) = some t
  | .END, some (place, _) => t = b.assign place none
  | _, _ => t = b

theorem recording_of_updateIntervalBuffers {result : Bool} (hstatus : event.status = .SUCCESS)
    (hinterval : event.interval ≠ .NONE)
    (h : a.updateIntervalBuffers event = .ok (result, a')) :
    Recording a event.track (a.recorded event) a' ∧
      Waits (a.ongoing event.track) event (a'.ongoing event.track) := by
  unfold updateIntervalBuffers at h
  unfold recorded Waits
  rw [if_pos hstatus]
  cases hkind : event.interval with
  | NONE => exact absurd hkind hinterval
  | START =>
    rw [hkind] at h
    obtain ⟨ongoingEvents, hadd, h⟩ := Loop.bind_eq_ok.1 h
    obtain ⟨-, rfl⟩ := Prod.mk.inj (Except.ok.inj h)
    refine ⟨recording_setBuffers rfl rfl, ?_⟩
    rw [ongoing_setBuffers]
    exact tryAdd_eq_ok_iff.1 hadd
  | END =>
    cases hfind : findOngoingEvent event.sequenceNum (a.ongoing event.track) with
    | none =>
      simp only [hkind, hfind] at h
      obtain ⟨-, rfl⟩ := Prod.mk.inj (Except.ok.inj h)
      exact ⟨recording_setBuffers rfl rfl, ongoing_setBuffers ..⟩
    | some found =>
      simp only [hkind, hfind] at h
      obtain ⟨eventsBuffer, hevents, h⟩ := Loop.bind_eq_ok.1 h
      obtain ⟨timingsBuffer, htimings, h⟩ := Loop.bind_eq_ok.1 h
      obtain ⟨-, rfl⟩ := Prod.mk.inj (Except.ok.inj h)
      exact ⟨recording_setBuffers (tryAdd_eq_ok_iff.1 hevents) (tryAdd_eq_ok_iff.1 htimings),
        ongoing_setBuffers ..⟩

theorem recording_of_pingBuffers {result : Bool} (h : a.pingBuffers event = .ok (result, a')) :
    Recording a event.track
      ((findOngoingEvent (event.sequenceNum - 1) (a.ongoing event.track)).map fun found =>
        .between found.2 event) a' := by
  unfold pingBuffers at h
  cases hfind : findOngoingEvent (event.sequenceNum - 1) (a.ongoing event.track) with
  | none =>
    simp only [hfind] at h
    obtain ⟨ongoingEvents, -, h⟩ := Loop.bind_eq_ok.1 h
    obtain ⟨-, rfl⟩ := Prod.mk.inj (Except.ok.inj h)
    exact recording_setBuffers rfl rfl
  | some found =>
    simp only [hfind] at h
    obtain ⟨eventsBuffer, hevents, h⟩ := Loop.bind_eq_ok.1 h
    obtain ⟨timingsBuffer, htimings, h⟩ := Loop.bind_eq_ok.1 h
    obtain ⟨ongoingEvents, -, h⟩ := Loop.bind_eq_ok.1 h
    obtain ⟨-, rfl⟩ := Prod.mk.inj (Except.ok.inj h)
    exact recording_setBuffers (tryAdd_eq_ok_iff.1 hevents) (tryAdd_eq_ok_iff.1 htimings)

theorem recording_of_updatePingBuffers {result : Bool} (hstatus : event.status = .SUCCESS)
    (hinterval : event.interval = .NONE) (h : a.updatePingBuffers event = .ok (result, a')) :
    Recording a event.track (a.recorded event) a' := by
  unfold updatePingBuffers at h
  unfold recorded
  rw [if_pos hstatus, hinterval]
  cases htype : event.type <;> rw [htype] at h
  case LOOP => exact recording_of_pingBuffers h
  case CUSTOM => exact recording_of_pingBuffers h
  all_goals cases h

/-- **What an event changes.** -/
theorem recording_of_add (h : a.add event = .ok a') :
    Recording a event.track (a.recorded event) a' := by
  obtain ⟨a₁, hstate, h⟩ := Loop.bind_eq_ok.1 h
  have hsame := tracks_of_updateState hstate
  rw [← hsame.recorded]
  split at h
  case isTrue hping =>
    obtain ⟨⟨_, a₂⟩, hupdate, h⟩ := Loop.bind_eq_ok.1 h
    rw [← Except.ok.inj h]
    exact hsame.recording (recording_of_updatePingBuffers hping.2.2.2 hping.1 hupdate)
  case isFalse hping =>
    split at h
    case isTrue hinterval =>
      obtain ⟨⟨_, a₂⟩, hupdate, h⟩ := Loop.bind_eq_ok.1 h
      rw [← Except.ok.inj h]
      exact hsame.recording (recording_of_updateIntervalBuffers hinterval.2 hinterval.1 hupdate).1
    case isFalse hinterval =>
      have hnone : a₁.recorded event = none := by
        unfold recorded
        split
        case isFalse => rfl
        case isTrue hstatus =>
          have hkind : event.interval = .NONE := by
            by_contra hne
            exact hinterval ⟨hne, hstatus⟩
          have hpinged : ¬ (event.type ≠ .INPUT ∧ event.type ≠ .OUTPUT) := fun htype =>
            hping ⟨hkind, htype.1, htype.2, hstatus⟩
          rw [hkind]
          cases htype : event.type with
          | CUSTOM => exact absurd (by rw [htype]; decide) hpinged
          | LOOP => exact absurd (by rw [htype]; decide) hpinged
          | INPUT => rfl
          | OUTPUT => rfl
          | INPUT_BLOCK => rfl
          | OUTPUT_BLOCK => rfl
      rw [hnone, ← Except.ok.inj h]
      exact hsame.recording_none event.track

/-- What a START or END event makes of the events that wait. -/
theorem waits_of_add (hstatus : event.status = .SUCCESS) (hinterval : event.interval ≠ .NONE)
    (h : a.add event = .ok a') :
    Waits (a.ongoing event.track) event (a'.ongoing event.track) := by
  obtain ⟨a₁, hstate, h⟩ := Loop.bind_eq_ok.1 h
  have hsame := tracks_of_updateState hstate
  rw [if_neg fun hping => hinterval hping.1, if_pos ⟨hinterval, hstatus⟩] at h
  obtain ⟨⟨_, a₂⟩, hupdate, h⟩ := Loop.bind_eq_ok.1 h
  rw [← Except.ok.inj h, ← hsame.ongoing]
  exact (recording_of_updateIntervalBuffers hstatus hinterval hupdate).2

theorem sameTracks_of_add (hstatus : event.status ≠ .SUCCESS) (h : a.add event = .ok a') :
    SameTracks a a' := by
  obtain ⟨a₁, hstate, h⟩ := Loop.bind_eq_ok.1 h
  rw [if_neg fun hping => hstatus hping.2.2.2, if_neg fun hinterval => hstatus hinterval.2] at h
  rw [← Except.ok.inj h]
  exact tracks_of_updateState hstate

/-! ### When an event has a result -/

theorem exists_tryAdd_iff {α : Type} {b : CircularBuffer α} (value : α) :
    (∃ t, b.tryAdd value = .ok t) ↔ 0 < b.maxSize := by
  simp only [tryAdd_eq_ok_iff]
  constructor
  · rintro ⟨t, ht⟩
    by_contra hzero
    rw [CircularBuffer.add_eq_none (Nat.eq_zero_of_not_pos hzero)] at ht
    cases ht
  · intro hpos
    exact CircularBuffer.exists_add hpos value

/-- The buffers of the sizes of queues have the size of the window. -/
def QueueSizes (a : NodeEventAggregation) : Prop :=
  ∀ source b, (a.inputStates source).queueSizesBuffer = some b → b.maxSize = a.windowSize

theorem queueSizes_init (windowSize eventWaitWindow : ℕ) :
    QueueSizes (init windowSize eventWaitWindow) :=
  nofun

theorem updateQueueSize_spec (hsizes : QueueSizes a) {source : String} {input : InputQueueState}
    (h : a.updateQueueSize event (a.inputStates source) = .ok input)
    {b : CircularBuffer ℕ} (hb : input.queueSizesBuffer = some b) : b.maxSize = a.windowSize := by
  unfold updateQueueSize at h
  split at h
  case h_3 =>
    obtain ⟨buffer, hadd, h⟩ := Loop.bind_eq_ok.1 h
    rw [← Except.ok.inj h] at hb
    rw [← Option.some.inj hb, CircularBuffer.maxSize_of_add (tryAdd_eq_ok_iff.1 hadd)]
    cases hold : (a.inputStates source).queueSizesBuffer with
    | none => rfl
    | some old => exact hsizes source old hold
  all_goals
    rw [← Except.ok.inj h] at hb
    exact hsizes source b hb

theorem queueSizes_of_updateState (hsizes : QueueSizes a) (h : a.updateState event = .ok a') :
    QueueSizes a' := by
  unfold updateState at h
  split at h
  case h_3 =>
    obtain ⟨input, hinput, h⟩ := Loop.bind_eq_ok.1 h
    rw [← Except.ok.inj h]
    intro source b hb
    show b.maxSize = a.windowSize
    by_cases hsource : source = event.source
    · subst hsource
      dsimp only at hb
      rw [Function.update_self] at hb
      exact updateQueueSize_spec hsizes hinput hb
    · dsimp only at hb
      rw [Function.update_of_ne hsource] at hb
      exact hsizes source b hb
  all_goals
    rw [← Except.ok.inj h]
    exact hsizes

theorem inputStates_of_updateIntervalBuffers {result : Bool}
    (h : a.updateIntervalBuffers event = .ok (result, a')) : a'.inputStates = a.inputStates := by
  unfold updateIntervalBuffers at h
  dsimp only at h
  split at h
  · obtain ⟨eventsBuffer, -, h⟩ := Loop.bind_eq_ok.1 h
    obtain ⟨timingsBuffer, -, h⟩ := Loop.bind_eq_ok.1 h
    obtain ⟨-, rfl⟩ := Prod.mk.inj (Except.ok.inj h)
    rfl
  · obtain ⟨ongoingEvents, -, h⟩ := Loop.bind_eq_ok.1 h
    obtain ⟨-, rfl⟩ := Prod.mk.inj (Except.ok.inj h)
    rfl
  · obtain ⟨-, rfl⟩ := Prod.mk.inj (Except.ok.inj h)
    rfl

theorem inputStates_of_updatePingBuffers {result : Bool}
    (h : a.updatePingBuffers event = .ok (result, a')) : a'.inputStates = a.inputStates := by
  have hping : a.pingBuffers event = .ok (result, a') := by
    unfold updatePingBuffers at h
    split at h
    all_goals first | cases h | exact h
  unfold pingBuffers at hping
  dsimp only at hping
  split at hping
  · obtain ⟨eventsBuffer, -, h⟩ := Loop.bind_eq_ok.1 hping
    obtain ⟨timingsBuffer, -, h⟩ := Loop.bind_eq_ok.1 h
    obtain ⟨ongoingEvents, -, h⟩ := Loop.bind_eq_ok.1 h
    obtain ⟨-, rfl⟩ := Prod.mk.inj (Except.ok.inj h)
    rfl
  · obtain ⟨ongoingEvents, -, h⟩ := Loop.bind_eq_ok.1 hping
    obtain ⟨-, rfl⟩ := Prod.mk.inj (Except.ok.inj h)
    rfl

theorem queueSizes_of_add (hsizes : QueueSizes a) (h : a.add event = .ok a') : QueueSizes a' := by
  have hwindow := (recording_of_add h).windowSize
  obtain ⟨a₁, hstate, h⟩ := Loop.bind_eq_ok.1 h
  have hsizes₁ := queueSizes_of_updateState hsizes hstate
  have hwindow₁ := (tracks_of_updateState hstate).windowSize
  have hkeeps : a'.inputStates = a₁.inputStates := by
    split at h
    · obtain ⟨⟨_, a₂⟩, hupdate, h⟩ := Loop.bind_eq_ok.1 h
      rw [← Except.ok.inj h]
      exact inputStates_of_updatePingBuffers hupdate
    · split at h
      · obtain ⟨⟨_, a₂⟩, hupdate, h⟩ := Loop.bind_eq_ok.1 h
        rw [← Except.ok.inj h]
        exact inputStates_of_updateIntervalBuffers hupdate
      · rw [← Except.ok.inj h]
  intro source b hb
  rw [hkeeps] at hb
  rw [hsizes₁ source b hb, hwindow₁, hwindow]

theorem exists_updateState_iff (hsizes : QueueSizes a) :
    (∃ a', a.updateState event = .ok a') ↔
      (event.type = .INPUT → event.interval ≠ .START → event.queueSize.isSome →
        0 < a.windowSize) := by
  have hinput : (∃ input, a.updateQueueSize event (a.inputStates event.source) = .ok input) ↔
      (event.interval ≠ .START → event.queueSize.isSome → 0 < a.windowSize) := by
    have hbuffer : ((a.inputStates event.source).queueSizesBuffer.getD
        (.empty a.windowSize)).maxSize = a.windowSize := by
      cases hold : (a.inputStates event.source).queueSizesBuffer with
      | none => rfl
      | some old => exact hsizes event.source old hold
    unfold updateQueueSize
    split
    case h_1 _ _ hstart => exact iff_of_true ⟨_, rfl⟩ fun h => absurd hstart h
    case h_2 _ _ hnone _ => exact iff_of_true ⟨_, rfl⟩ fun _ h => by rw [hnone] at h; cases h
    case h_3 _ _ queueSize hsome hstart =>
      constructor
      · rintro ⟨input, h⟩ - -
        obtain ⟨buffer, hadd, -⟩ := Loop.bind_eq_ok.1 h
        rw [← hbuffer]
        exact (exists_tryAdd_iff _).1 ⟨buffer, hadd⟩
      · intro h
        have hpos := h (fun hkind => hstart hkind) (by rw [hsome]; rfl)
        rw [← hbuffer] at hpos
        obtain ⟨buffer, hadd⟩ := (exists_tryAdd_iff queueSize).2 hpos
        rw [hadd]
        exact ⟨_, rfl⟩
  unfold updateState
  split
  case h_3 _ _ htype =>
    constructor
    · rintro ⟨a', h⟩ -
      obtain ⟨input, hupdate, -⟩ := Loop.bind_eq_ok.1 h
      exact hinput.1 ⟨input, hupdate⟩
    · intro h
      obtain ⟨input, hupdate⟩ := hinput.2 (h htype)
      rw [hupdate]
      exact ⟨_, rfl⟩
  all_goals
    refine iff_of_true ⟨_, rfl⟩ fun htype => ?_
    simp_all

theorem exists_add_iff (hsizes : QueueSizes a) (hstatus : event.status = .SUCCESS)
    (hinterval : event.interval ≠ .NONE) :
    (∃ a', a.add event = .ok a') ↔
      (event.type = .INPUT → event.interval ≠ .START → event.queueSize.isSome →
        0 < a.windowSize) ∧
      (event.interval = .START → 0 < (a.ongoing event.track).maxSize) ∧
      (event.interval = .END → a.recorded event ≠ none →
        0 < a.eventsBuffer.maxSize ∧ 0 < (a.timings event.track).maxSize) := by
  rw [← exists_updateState_iff hsizes]
  have hrest : ∀ a₁, a.updateState event = .ok a₁ →
      ((∃ a', a.add event = .ok a') ↔ ∃ r, a₁.updateIntervalBuffers event = .ok r) := by
    intro a₁ hstate
    rw [add, hstate, Loop.ok_bind, if_neg fun hping => hinterval hping.1,
      if_pos ⟨hinterval, hstatus⟩]
    constructor
    · rintro ⟨a', h⟩
      obtain ⟨r, hr, -⟩ := Loop.bind_eq_ok.1 h
      exact ⟨r, hr⟩
    · rintro ⟨r, hr⟩
      rw [hr]
      exact ⟨_, rfl⟩
  have hupdate : ∀ a₁, a.updateState event = .ok a₁ →
      ((∃ r, a₁.updateIntervalBuffers event = .ok r) ↔
        (event.interval = .START → 0 < (a.ongoing event.track).maxSize) ∧
        (event.interval = .END → a.recorded event ≠ none →
          0 < a.eventsBuffer.maxSize ∧ 0 < (a.timings event.track).maxSize)) := by
    intro a₁ hstate
    have hsame := tracks_of_updateState hstate
    rw [← hsame.ongoing, ← hsame.timings, ← hsame.recorded, ← hsame.eventsBuffer]
    unfold updateIntervalBuffers recorded
    rw [if_pos hstatus]
    cases hkind : event.interval with
    | NONE => exact absurd hkind hinterval
    | START =>
      constructor
      · rintro ⟨r, h⟩
        obtain ⟨ongoingEvents, hadd, -⟩ := Loop.bind_eq_ok.1 h
        exact ⟨fun _ => (exists_tryAdd_iff _).1 ⟨_, hadd⟩, nofun⟩
      · rintro ⟨h, -⟩
        obtain ⟨ongoingEvents, hadd⟩ := (exists_tryAdd_iff (some event)).2 (h rfl)
        dsimp only
        rw [hadd]
        exact ⟨_, rfl⟩
    | END =>
      cases hfind : findOngoingEvent event.sequenceNum (a₁.ongoing event.track) with
      | none =>
        simp only [hfind]
        exact iff_of_true ⟨_, rfl⟩ ⟨nofun, fun _ h => absurd rfl h⟩
      | some found =>
        simp only [hfind]
        constructor
        · rintro ⟨r, h⟩
          obtain ⟨eventsBuffer, hevents, h⟩ := Loop.bind_eq_ok.1 h
          obtain ⟨timingsBuffer, htimings, -⟩ := Loop.bind_eq_ok.1 h
          exact ⟨nofun, fun _ _ => ⟨(exists_tryAdd_iff _).1 ⟨_, hevents⟩,
            (exists_tryAdd_iff _).1 ⟨_, htimings⟩⟩⟩
        · rintro ⟨-, h⟩
          obtain ⟨hevents, htimings⟩ := h trivial nofun
          obtain ⟨eventsBuffer, hevents⟩ :=
            (exists_tryAdd_iff (DurationEvent.between found.2 event)).2 hevents
          obtain ⟨timingsBuffer, htimings⟩ := (exists_tryAdd_iff
            (DurationEvent.between found.2 event).durationUs).2 htimings
          rw [hevents, Loop.ok_bind, htimings]
          exact ⟨_, rfl⟩
  constructor
  · rintro ⟨a', h⟩
    obtain ⟨a₁, hstate, -⟩ := Loop.bind_eq_ok.1 h
    exact ⟨⟨a₁, hstate⟩, (hupdate a₁ hstate).1 ((hrest a₁ hstate).1 ⟨a', h⟩)⟩
  · rintro ⟨⟨a₁, hstate⟩, h⟩
    exact (hrest a₁ hstate).2 ((hupdate a₁ hstate).2 h)

end NodeEventAggregation

end DepthaiCore
