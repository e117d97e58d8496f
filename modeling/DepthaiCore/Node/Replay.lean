import DepthaiCore.Datatype.ParseMessage
import DepthaiCore.Lib.Binary32

/-!
# Replaying a recording

`ReplayMetadataOnly` sends the messages of a recording, and `ReplayVideo` the frames of a video with
the metadata of a recording. At the end they begin again, if they are to loop: a `LoopState` moves the
sequence numbers and timestamps of each pass behind those of the one before.

A timestamp is a number of nanoseconds and an interval a number of milliseconds. One round of the main
loop is a function of the state that it finds, and a run is a number of rounds. How long the nodes sleep
between messages is left out.
-/

namespace DepthaiCore.Replay

variable {P R V Q : Type}

/-! ### Messages and the state of the loop -/

/-- A `Buffer`, with everything but its sequence number and timestamps in `payload`. -/
structure Message (P : Type) where
  sequenceNum : ℤ
  ts : ℤ
  tsDevice : ℤ
  payload : P
  deriving DecidableEq, Repr

/-- A number of milliseconds in nanoseconds. -/
def nanoseconds (milliseconds : ℤ) : ℤ :=
  milliseconds * 1000000

/-- `duration_cast<milliseconds>`, which drops the fraction. -/
def milliseconds (nanoseconds : ℤ) : ℤ :=
  nanoseconds.tdiv 1000000

/-- `fps.value() > 0.1f`. -/
def fpsGiven (fps : ℚ) : Bool :=
  decide (Binary32.ofRat (1 / 10) < fps)

def getReplayFallbackInterval (fps : Option ℚ) : ℤ :=
  match fps with
  | some fps => if fpsGiven fps then round (Binary32.ofRat (1000 / fps)) else 33
  | none => 33

def ensureReplayInterval (interval : ℤ) (fps : Option ℚ) : ℤ :=
  if interval = 0 then getReplayFallbackInterval fps else interval

structure LoopState where
  firstSeqNum : ℤ := 0
  lastSeqNum : ℤ := 0
  seqNumOffset : ℤ := 0
  firstTs : ℤ := 0
  lastTs : ℤ := 0
  lastInterval : ℤ := 0
  tsOffset : ℤ := 0
  deriving DecidableEq, Repr

namespace LoopState

/-- What the first message sets. -/
def begin (s : LoopState) (fps : Option ℚ) (buffer : Message P) : LoopState :=
  let firstSeqNum := if 0 < buffer.sequenceNum then buffer.sequenceNum else 0
  { s with
    firstSeqNum
    seqNumOffset := firstSeqNum
    firstTs := buffer.ts
    lastTs := buffer.ts
    lastInterval := ensureReplayInterval 0 fps
    tsOffset := buffer.ts }

/-- What is done at the end of the file. -/
def restart (s : LoopState) (fps : Option ℚ) : LoopState :=
  let lastInterval := ensureReplayInterval s.lastInterval fps
  { s with
    seqNumOffset := s.lastSeqNum + 1
    lastInterval
    tsOffset := s.lastTs + nanoseconds lastInterval }

/-- The message as it is sent. -/
def adjust (s : LoopState) (buffer : Message P) : Message P :=
  let deviceTsOffset := buffer.ts - buffer.tsDevice
  let ts := buffer.ts - s.firstTs + s.tsOffset
  { buffer with
    sequenceNum := buffer.sequenceNum - s.firstSeqNum + s.seqNumOffset
    ts
    tsDevice := ts - deviceTsOffset }

/-- What a message that is sent leaves. -/
def record (s : LoopState) (first : Bool) (sent : Message P) : LoopState :=
  { s with
    lastSeqNum := sent.sequenceNum
    lastInterval := if first then s.lastInterval else milliseconds (sent.ts - s.lastTs)
    lastTs := sent.ts }

/-- What is done to every message: the message as it is sent, and the state after it. -/
def update (s : LoopState) (fps : Option ℚ) (first : Bool) (buffer : Message P) :
    Message P × LoopState :=
  let s := if first then s.begin fps buffer else s
  let sent := s.adjust buffer
  (sent, s.record first sent)

end LoopState

/-- How the main loop ends: after `stopPipeline`, at a `break`, or with an exception. -/
inductive Exit
  | stopPipeline
  | finished
  | thrown (what : String)
  deriving DecidableEq, Repr

/-! ### Recordings without a video -/

def deserializationSupported (datatype : DatatypeEnum) : Bool :=
  datatype == .ImgFrame || datatype == .EncodedFrame || datatype == .IMUData ||
    datatype == .PointCloudData || datatype == .RGBDData

/-- The types that `getProtoMessage` and `getMessage` handle. -/
def canReplay (datatype : DatatypeEnum) : Bool :=
  datatype == .ImgFrame || datatype == .EncodedFrame || datatype == .IMUData ||
    datatype == .PointCloudData

/-- What `getProtoMessage` and `getMessage` throw for the other types. -/
def cannotReplay (datatype : DatatypeEnum) : Exit :=
  .thrown ("Cannot replay message type: " ++ toString datatype.toInt32)

/-- `getProtoMessage`: the message that the player comes to, and what is left. -/
def getProtoMessage (datatype : DatatypeEnum) (left : List (Message P)) :
    Except Exit (Option (Message P) × List (Message P)) :=
  if canReplay datatype then .ok (left.head?, left.tail) else .error (cannotReplay datatype)

def getMessage (metadata : Message P) (datatype : DatatypeEnum) : Except Exit (Message P) :=
  if canReplay datatype then .ok metadata else .error (cannotReplay datatype)

/-- The settings of a `ReplayMetadataOnly`. -/
structure ReplayMetadataOnly where
  fps : Option ℚ := none
  loop : Bool := true

namespace ReplayMetadataOnly

/-- The main loop: what is left for the player, and what has been sent. -/
structure State (P : Type) where
  bytePlayer : List (Message P)
  first : Bool := true
  loopState : LoopState := {}
  out : List (Message P) := []

/-- What comes before the main loop. `recording` is empty if it cannot be opened. -/
def start (recording : List (Message P)) : Except Exit (State P) :=
  if recording.isEmpty then .error (.thrown "Metadata file not found")
  else .ok { bytePlayer := recording }

variable (node : ReplayMetadataOnly) (datatype : DatatypeEnum) (recording : List (Message P))

/-- One round of the main loop. -/
def round (s : State P) : Except Exit (State P) :=
  if !deserializationSupported datatype then
    .error (.thrown "Invalid message type. Cannot replay")
  else do
    let (msg, left) ← getProtoMessage datatype s.bytePlayer
    match msg with
    | some metadata => do
      let buffer ← getMessage metadata datatype
      let (sent, loopState) := s.loopState.update node.fps s.first buffer
      .ok { bytePlayer := left, first := false, loopState, out := s.out ++ [sent] }
    | none =>
      if !s.first then
        if node.loop then
          .ok { s with loopState := s.loopState.restart node.fps, bytePlayer := recording }
        else .error .stopPipeline
      else .error (.thrown "Metadata file contains no messages")

/-- **`ReplayMetadataOnly::run`,** up to the end of a number of rounds. -/
def run : ℕ → Except Exit (State P)
  | 0 => start recording
  | n + 1 => do
    let s ← run n
    node.round datatype recording s

end ReplayMetadataOnly

/-! ### Videos -/

/-- The metadata of a frame: its size, and everything else in `R`. -/
structure FrameFields (R : Type) where
  width : ℕ
  height : ℕ
  rest : R

/-- The settings of a `ReplayVideo`, and what it does with `ImgFrame`s. -/
structure ReplayVideo (R V Q : Type) where
  fps : Option ℚ := none
  loop : Bool := true
  size : Option (ℕ × ℕ) := none
  /-- A new frame with this size and `outFrameType`. -/
  newFrame : ℕ × ℕ → FrameFields R
  /-- What `getVideoMessage` makes of metadata and a frame of the video. -/
  getVideoMessage : FrameFields R → V → Q

/-- The files: `frames` is `none` and `metadata` is empty if they cannot be opened. -/
structure VideoFiles (R V : Type) where
  frames : Option (List V)
  videoSize : ℕ × ℕ
  datatype : DatatypeEnum
  metadata : List (Message (FrameFields R))

/-- The clock as a round reads it: when a new frame is made, and how long after the start. -/
structure Clock where
  now : ℤ
  time : ℤ

namespace ReplayVideo

/-- The main loop: what is left for the players, and what has been sent. -/
structure State (R V Q : Type) where
  bytePlayer : List (Message (FrameFields R))
  videoPlayer : List V
  hasMetadata : Bool
  hasVideo : Bool := true
  first : Bool := true
  index : ℤ := 0
  loopState : LoopState := {}
  out : List (Message Q) := []

/-- What comes before the main loop. -/
def start (files : VideoFiles R V) : Except Exit (State R V Q) :=
  match files.frames with
  | none => .error (.thrown "Video file not found or could not be opened")
  | some frames => .ok {
      bytePlayer := files.metadata
      videoPlayer := frames
      hasMetadata := !files.metadata.isEmpty }

variable (node : ReplayVideo R V Q) (files : VideoFiles R V)

/-- The metadata of the recording, with the size that is set. -/
def resize (metadata : Message (FrameFields R)) : Message (FrameFields R) :=
  match node.size with
  | none => metadata
  | some (width, height) => { metadata with payload := { metadata.payload with width, height } }

/-- The metadata of the message: of a new frame, or of the recording. -/
def messageMetadata (s : State R V Q) (clock : Clock)
    (metadata : Option (Message (FrameFields R))) : Message (FrameFields R) :=
  match metadata with
  | none => ⟨s.index, clock.now, clock.time, node.newFrame files.videoSize⟩
  | some metadata => node.resize metadata

/-- A message with this metadata and a frame of the video. -/
def compose (metadata : Message (FrameFields R)) (frame : V) : Message Q :=
  { metadata with payload := node.getVideoMessage metadata.payload frame }

/-- The part of a round that sends. -/
def send (s : State R V Q) (clock : Clock) (metadata : Option (Message (FrameFields R))) (frame : V) :
    State R V Q :=
  let buffer := node.compose (node.messageMetadata files s clock metadata) frame
  let (sent, loopState) := s.loopState.update node.fps s.first buffer
  { s with
    first := false
    index := if metadata.isNone then s.index + 1 else s.index
    loopState
    out := s.out ++ [sent] }

/-- A round without a frame. -/
def noVideo (s : State R V Q) : Exit :=
  if !s.hasMetadata then .finished else .thrown "Video file not found"

/-- The part of a round that reads the video. -/
def readVideo (s : State R V Q) (clock : Clock) (metadata : Option (Message (FrameFields R))) :
    Except Exit (State R V Q) :=
  if s.hasVideo then
    match s.videoPlayer with
    | frame :: left => .ok (node.send files { s with videoPlayer := left } clock metadata frame)
    | [] =>
      if !s.first then
        if node.loop then
          let s := if s.hasMetadata then
            { s with loopState := s.loopState.restart node.fps, bytePlayer := files.metadata } else s
          .ok { s with videoPlayer := files.frames.getD [] }
        else .error .stopPipeline
      else .error (noVideo { s with hasVideo := false })
  else .error (noVideo s)

/-- One round of the main loop. -/
def round (s : State R V Q) (clock : Clock) : Except Exit (State R V Q) :=
  if s.hasMetadata then
    if files.datatype ≠ .ImgFrame then
      .error (.thrown "Invalid message type, expected ImgFrame")
    else do
      let (msg, left) ← getProtoMessage files.datatype s.bytePlayer
      match msg with
      | some metadata => node.readVideo files { s with bytePlayer := left } clock (some metadata)
      | none =>
        if !s.first then
          if node.loop then
            .ok { s with
              loopState := s.loopState.restart node.fps
              bytePlayer := files.metadata
              videoPlayer := if s.hasVideo then files.frames.getD [] else s.videoPlayer }
          else .error .stopPipeline
        else node.readVideo files { s with hasMetadata := false } clock none
  else node.readVideo files s clock none

/-- **`ReplayVideo::run`,** up to the end of a number of rounds with these readings of the clock. -/
def run (clocks : List Clock) : Except Exit (State R V Q) := do
  let s ← start files
  clocks.foldlM (node.round files) s

end ReplayVideo

end DepthaiCore.Replay
