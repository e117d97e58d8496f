import DepthaiCore.Lib.Laps
import DepthaiCore.Lib.Loops
import DepthaiCore.Node.Replay

/-!
# Looping is seamless

The passes of a replay are laps: each is the recording with its sequence numbers and timestamps
shifted, and each begins after everything that has been sent. Both nodes keep the same invariant. It
says where in a lap they are, and what of it their `LoopState` holds.
-/

namespace DepthaiCore.Replay

variable {P R V Q : Type} {fps : Option ℚ} {recording left out : List (Message P)} {m : Message P}
  {s : LoopState} {n : ℕ}

/-! ### Recordings and streams -/

/-- The sequence numbers of the recording are not negative, and they and the timestamps increase. -/
structure Increasing (recording : List (Message P)) : Prop where
  nonneg : ∀ m ∈ recording, 0 ≤ m.sequenceNum
  sequenceNum : recording.Pairwise fun m m' => m.sequenceNum < m'.sequenceNum
  timestamp : recording.Pairwise fun m m' => m.ts < m'.ts

/-- **The stream is the recording over and over, as if it had been recorded so.** -/
structure Seamless (recording stream : List (Message P)) : Prop where
  /-- Sequence numbers increase, across the passes too. -/
  sequenceNum : stream.Pairwise fun m m' => m.sequenceNum < m'.sequenceNum
  /-- Timestamps increase, across the passes too. -/
  timestamp : stream.Pairwise fun m m' => m.ts < m'.ts
  /-- Within a pass the differences are those of the recording. -/
  withinPass : ∀ i sent next, stream[i]? = some sent → stream[i + 1]? = some next →
    (i + 1) % recording.length ≠ 0 → ∃ m m', recording[i % recording.length]? = some m ∧
      recording[(i + 1) % recording.length]? = some m' ∧
      next.sequenceNum - sent.sequenceNum = m'.sequenceNum - m.sequenceNum ∧
      next.ts - sent.ts = m'.ts - m.ts
  /-- A message keeps its contents and the offset between its timestamps. -/
  deviceOffset : ∀ i sent, stream[i]? = some sent → ∃ m,
    recording[i % recording.length]? = some m ∧ sent.payload = m.payload ∧
      sent.ts - sent.tsDevice = m.ts - m.tsDevice
  /-- The first pass is sent as it was recorded. -/
  firstPass : ∀ i < recording.length, ∀ sent, stream[i]? = some sent → recording[i]? = some sent

/-- A message with its sequence number and timestamps shifted. -/
def Message.shift (d : ℤ × ℤ) (m : Message P) : Message P :=
  { m with
    sequenceNum := m.sequenceNum + d.1
    ts := m.ts + d.2
    tsDevice := m.tsDevice + d.2 }

/-- The message comes after another one. -/
def Message.After (m m' : Message P) : Prop :=
  m.sequenceNum < m'.sequenceNum ∧ m.ts < m'.ts

theorem Message.After.trans {a b c : Message P} (h : a.After b) (h' : b.After c) : a.After c :=
  ⟨h.1.trans h'.1, h.2.trans h'.2⟩

theorem Message.After.shift {a b : Message P} (d : ℤ × ℤ) (h : a.After b) :
    (a.shift d).After (b.shift d) :=
  ⟨Int.add_lt_add_right h.1 d.1, Int.add_lt_add_right h.2 d.2⟩

@[simp] theorem Message.shift_zero (m : Message P) : m.shift (0, 0) = m := by
  simp [Message.shift]

theorem Increasing.pairwise (h : Increasing recording) : recording.Pairwise Message.After :=
  h.sequenceNum.and h.timestamp

/-- The laps of a recording. -/
abbrev Passes (recording : List (Message P)) :=
  Laps Message.shift Message.After recording (0, 0)

/-- **Laps are seamless.** -/
theorem seamless_of_passes {d : ℤ × ℤ} (hrecording : Increasing recording)
    (h : Passes recording n out left d) : Seamless recording out := by
  have hpairwise : out.Pairwise Message.After :=
    h.pairwise (fun _ _ _ => .trans) (fun d _ _ => .shift d) hrecording.pairwise
  obtain ⟨k, j, -, -, -, -, shifts, hzero, -, hshifts⟩ := h.exists_shifts
  refine ⟨hpairwise.imp And.left, hpairwise.imp And.right, ?_, ?_, ?_⟩
  · intro i sent next hsent hnext hwithin
    obtain ⟨m, hm, rfl⟩ := hshifts i sent hsent
    obtain ⟨m', hm', rfl⟩ := hshifts (i + 1) next hnext
    have hlap : (i + 1) / recording.length = i / recording.length := by
      rw [Nat.succ_div, if_neg fun hdvd => hwithin (Nat.mod_eq_zero_of_dvd hdvd), Nat.add_zero]
    refine ⟨m, m', hm, hm', ?_, ?_⟩
    · rw [hlap]
      exact Int.add_sub_add_right _ _ _
    · rw [hlap]
      exact Int.add_sub_add_right _ _ _
  · intro i sent hsent
    obtain ⟨m, hm, rfl⟩ := hshifts i sent hsent
    exact ⟨m, hm, rfl, Int.add_sub_add_right _ _ _⟩
  · intro i hi sent hsent
    obtain ⟨m, hm, rfl⟩ := hshifts i sent hsent
    rw [Nat.mod_eq_of_lt hi] at hm
    rw [Nat.div_eq_of_lt hi, hzero, Message.shift_zero, hm]

/-! ### Intervals -/

theorem getReplayFallbackInterval_pos (hfps : ∀ f ∈ fps, f ≤ 1000) :
    0 < getReplayFallbackInterval fps := by
  cases fps with
  | none => decide
  | some f =>
    rw [getReplayFallbackInterval]
    split
    · rename_i hgiven
      have hpos : 0 < f := by
        have htenth : (0 : ℚ) < Binary32.ofRat (1 / 10) := by decide +kernel
        exact htenth.trans (of_decide_eq_true hgiven)
      have hquotient : 1 ≤ 1000 / f := (one_le_div hpos).2 (hfps f rfl)
      have hround : (1 : ℤ) ≤ round (Binary32.ofRat (1000 / f)) := by
        rw [round_eq]
        exact Int.le_floor.2 (by
          have hone := Binary32.one_le_ofRat hquotient
          push_cast
          linarith)
      omega
    · decide

/-- The interval is not zero afterwards, and stays what it is if it was not. -/
theorem ensureReplayInterval_pos {interval : ℤ} (hfps : ∀ f ∈ fps, f ≤ 1000)
    (hinterval : 0 ≤ interval) : 0 < ensureReplayInterval interval fps := by
  rw [ensureReplayInterval]
  split
  · exact getReplayFallbackInterval_pos hfps
  · omega

theorem milliseconds_nonneg {d : ℤ} (h : 0 ≤ d) : 0 ≤ milliseconds d :=
  Int.tdiv_nonneg h (by decide)

/-! ### The invariant -/

/-- **The invariant of both nodes,** after `n` rounds: nothing has been done, or the `LoopState` holds
the first message of the recording, the last one that was sent, and the shift `d` of the pass. -/
inductive Looping (recording : List (Message P)) :
    ℕ → List (Message P) → Bool → LoopState → List (Message P) → Prop
  | start {s : LoopState} : Looping recording 0 recording true s []
  | running {n : ℕ} {left out : List (Message P)} {s : LoopState} {m₀ last : Message P} {d : ℤ × ℤ} :
      Passes recording n out left d → recording.head? = some m₀ → out.getLast? = some last →
        s.firstSeqNum = m₀.sequenceNum → s.firstTs = m₀.ts →
          s.seqNumOffset = m₀.sequenceNum + d.1 → s.tsOffset = m₀.ts + d.2 →
            s.lastSeqNum = last.sequenceNum → s.lastTs = last.ts → 0 ≤ s.lastInterval →
              Looping recording n left false s out

theorem Looping.eq_recording {first : Bool} (hfirst : first = true)
    (h : Looping recording n left first s out) : left = recording := by
  cases h with
  | start => rfl
  | running => cases hfirst

theorem Looping.seamless {first : Bool} (hrecording : Increasing recording)
    (h : Looping recording n left first s out) : Seamless recording out := by
  cases h with
  | start => exact seamless_of_passes hrecording .start
  | running hpasses => exact seamless_of_passes hrecording hpasses

theorem Looping.length_eq {first : Bool} (h : Looping recording n left first s out) :
    out.length = n - n / (recording.length + 1) := by
  cases h with
  | start => simp
  | running hpasses => exact hpasses.length_eq

/-- **A message is sent shifted, as the next of its pass.** -/
theorem Looping.update {first : Bool} (hfps : ∀ f ∈ fps, f ≤ 1000) (hrecording : Increasing recording)
    (h : Looping recording n (m :: left) first s out) :
    Looping recording (n + 1) left false (s.update fps first m).2
      (out ++ [(s.update fps first m).1]) := by
  cases h with
  | start =>
    have hfirst : (if 0 < m.sequenceNum then m.sequenceNum else 0) = m.sequenceNum := by
      have hnonneg := hrecording.nonneg m List.mem_cons_self
      split <;> omega
    have hsent : (s.update fps true m).1 = m.shift (0, 0) := by
      simp [LoopState.update, LoopState.begin, LoopState.adjust, hfirst]
    have hpasses : Passes (m :: left) 1 [m.shift (0, 0)] left (0, 0) := Laps.start.next
    rw [← hsent] at hpasses
    refine .running hpasses rfl rfl hfirst rfl ?_ (Int.add_zero _).symm rfl rfl ?_
    · exact hfirst.trans (Int.add_zero _).symm
    · exact (ensureReplayInterval_pos hfps le_rfl).le
  | @running _ _ _ _ m₀ last d hpasses hhead hlast hfirst hfirstTs hoffset htsOffset hlastSeq hlastTs
      hinterval =>
    have hsent : (s.update fps false m).1 = m.shift d := by
      simp only [LoopState.update, LoopState.adjust, Message.shift, hfirst, hfirstTs, hoffset,
        htsOffset, Bool.false_eq_true, if_false, Message.mk.injEq, and_true]
      exact ⟨by omega, by omega, by omega⟩
    have hafter : last.After (m.shift d) :=
      hpasses.after (fun _ _ _ => .trans) (fun d _ _ => .shift d) hrecording.pairwise
        (List.mem_of_getLast? hlast)
    have hnext := hpasses.next
    rw [← hsent] at hnext hafter
    refine .running hnext hhead List.getLast?_concat hfirst hfirstTs hoffset htsOffset rfl rfl ?_
    have hlater : last.ts < (s.update fps false m).1.ts := hafter.2
    show 0 ≤ milliseconds ((s.update fps false m).1.ts - s.lastTs)
    exact milliseconds_nonneg (by omega)

/-- **At the end of the file the next pass begins behind everything that was sent.** -/
theorem Looping.restart (hfps : ∀ f ∈ fps, f ≤ 1000)
    (h : Looping recording n [] false s out) :
    Looping recording (n + 1) recording false (s.restart fps) out := by
  cases h with
  | @running _ _ _ _ m₀ last d hpasses hhead hlast hfirst hfirstTs hoffset htsOffset hlastSeq hlastTs
      hinterval =>
    have hpos := ensureReplayInterval_pos hfps hinterval
    let d' : ℤ × ℤ := (s.lastSeqNum + 1 - m₀.sequenceNum,
      s.lastTs + nanoseconds (ensureReplayInterval s.lastInterval fps) - m₀.ts)
    have hafter : last.After (m₀.shift d') := by
      constructor
      · show last.sequenceNum < m₀.sequenceNum + (s.lastSeqNum + 1 - m₀.sequenceNum)
        omega
      · show last.ts < m₀.ts +
          (s.lastTs + ensureReplayInterval s.lastInterval fps * 1000000 - m₀.ts)
        omega
    have hagain : Passes recording (n + 1) out recording d' := by
      refine hpasses.again ?_
      rintro a ha b hb
      rw [hhead] at ha
      rw [hlast] at hb
      obtain rfl := Option.some.inj ha
      obtain rfl := Option.some.inj hb
      exact hafter
    refine .running hagain hhead hlast hfirst hfirstTs ?_ ?_ hlastSeq hlastTs hpos.le
    · show s.lastSeqNum + 1 = m₀.sequenceNum + (s.lastSeqNum + 1 - m₀.sequenceNum)
      omega
    · show s.lastTs + nanoseconds (ensureReplayInterval s.lastInterval fps) = m₀.ts +
        (s.lastTs + nanoseconds (ensureReplayInterval s.lastInterval fps) - m₀.ts)
      omega

/-! ### Recordings without a video -/

namespace ReplayMetadataOnly

variable {node : ReplayMetadataOnly} {datatype : DatatypeEnum} {st st' : State P}

theorem deserializationSupported_of_canReplay (h : canReplay datatype = true) :
    deserializationSupported datatype = true := by
  rw [canReplay] at h
  rw [deserializationSupported, h, Bool.true_or]

theorem round_cons {first : Bool} (hreplay : canReplay datatype = true) :
    node.round datatype recording ⟨m :: left, first, s, out⟩ =
      .ok ⟨left, false, (s.update node.fps first m).2, out ++ [(s.update node.fps first m).1]⟩ := by
  rw [round, deserializationSupported_of_canReplay hreplay]
  simp [getProtoMessage, getMessage, hreplay, Loop.ok_bind]

theorem round_nil (hreplay : canReplay datatype = true) (hloop : node.loop = true) :
    node.round datatype recording ⟨[], false, s, out⟩ =
      .ok ⟨recording, false, s.restart node.fps, out⟩ := by
  rw [round, deserializationSupported_of_canReplay hreplay]
  simp [getProtoMessage, hreplay, hloop, Loop.ok_bind]

/-- One round keeps the invariant, if the recording is of a type that can be replayed. -/
theorem exists_round (hfps : ∀ f ∈ node.fps, f ≤ 1000) (hloop : node.loop = true)
    (hreplay : canReplay datatype = true) (hrecording : Increasing recording)
    (hnonempty : recording ≠ [])
    (h : Looping recording n st.bytePlayer st.first st.loopState st.out) :
    ∃ st', node.round datatype recording st = .ok st' ∧
      Looping recording (n + 1) st'.bytePlayer st'.first st'.loopState st'.out := by
  obtain ⟨left, first, s, out⟩ := st
  cases left with
  | nil =>
    cases first with
    | true => cases h with | start => exact absurd rfl hnonempty
    | false => exact ⟨_, round_nil hreplay hloop, h.restart hfps⟩
  | cons m left => exact ⟨_, round_cons hreplay, h.update hfps hrecording⟩

theorem exists_run (hfps : ∀ f ∈ node.fps, f ≤ 1000) (hloop : node.loop = true)
    (hreplay : canReplay datatype = true) (hrecording : Increasing recording)
    (hnonempty : recording ≠ []) (n : ℕ) :
    ∃ st, node.run datatype recording n = .ok st ∧
      Looping recording n st.bytePlayer st.first st.loopState st.out := by
  induction n with
  | zero =>
    refine ⟨{ bytePlayer := recording }, ?_, .start⟩
    rw [run, start, if_neg (by simpa using hnonempty)]
  | succ n ih =>
    obtain ⟨st, hst, hlooping⟩ := ih
    rw [run, hst]
    exact exists_round hfps hloop hreplay hrecording hnonempty hlooping

/-- Nothing is sent of a recording that is empty or of another type. -/
theorem run_eq_ok (h : node.run datatype recording n = .ok st) :
    recording ≠ [] ∧ (st = { bytePlayer := recording } ∨ canReplay datatype = true) := by
  induction n generalizing st with
  | zero =>
    rw [run, start] at h
    split at h
    · cases h
    · rename_i hnonempty
      cases h
      exact ⟨by simpa using hnonempty, .inl rfl⟩
  | succ n ih =>
    obtain ⟨st₀, hst₀, h⟩ := Loop.bind_eq_ok.1 h
    refine ⟨(ih hst₀).1, .inr ?_⟩
    rw [round] at h
    split at h
    · cases h
    · obtain ⟨_, hmessage, -⟩ := Loop.bind_eq_ok.1 h
      rw [getProtoMessage] at hmessage
      split at hmessage
      · assumption
      · cases hmessage

/-- **Whatever is sent is seamless.** -/
theorem seamless_run (hfps : ∀ f ∈ node.fps, f ≤ 1000) (hloop : node.loop = true)
    (hrecording : Increasing recording) (h : node.run datatype recording n = .ok st) :
    Seamless recording st.out := by
  obtain ⟨hnonempty, rfl | hreplay⟩ := run_eq_ok h
  · exact seamless_of_passes hrecording .start
  · obtain ⟨st', hst', hlooping⟩ := exists_run hfps hloop hreplay hrecording hnonempty n
    obtain rfl := Except.ok.inj (h.symm.trans hst')
    exact hlooping.seamless hrecording

end ReplayMetadataOnly

/-! ### Videos -/

namespace ReplayVideo

variable {node : ReplayVideo R V Q} {files : VideoFiles R V} {st st' : State R V Q} {frames : List V}
  {metadata : List (Message (FrameFields R))}

/-- The messages of metadata and frames of the same length. -/
def recorded (node : ReplayVideo R V Q) (metadata : List (Message (FrameFields R)))
    (frames : List V) : List (Message Q) :=
  List.zipWith (fun m frame => node.compose (node.resize m) frame) metadata frames

theorem compose_resize_sequenceNum (m : Message (FrameFields R)) (frame : V) :
    (node.compose (node.resize m) frame).sequenceNum = m.sequenceNum := by
  rw [compose, resize]
  split <;> rfl

theorem compose_resize_ts (m : Message (FrameFields R)) (frame : V) :
    (node.compose (node.resize m) frame).ts = m.ts := by
  rw [compose, resize]
  split <;> rfl

theorem map_recorded {key : Message Q → ℤ} {key' : Message (FrameFields R) → ℤ}
    (hkey : ∀ m frame, key (node.compose (node.resize m) frame) = key' m)
    (hlength : frames.length = metadata.length) :
    (node.recorded metadata frames).map key = metadata.map key' := by
  induction metadata generalizing frames with
  | nil => simp [recorded]
  | cons m metadata ih =>
    obtain ⟨frame, frames, rfl⟩ := List.exists_cons_of_length_eq_add_one hlength
    rw [List.map_cons, ← ih (Nat.succ.inj hlength), recorded, List.zipWith_cons_cons, List.map_cons,
      hkey]
    rfl

theorem increasing_recorded (hlength : frames.length = metadata.length)
    (h : Increasing metadata) : Increasing (node.recorded metadata frames) := by
  have hseq : (node.recorded metadata frames).map Message.sequenceNum =
      metadata.map Message.sequenceNum := map_recorded compose_resize_sequenceNum hlength
  have hts : (node.recorded metadata frames).map Message.ts = metadata.map Message.ts :=
    map_recorded compose_resize_ts hlength
  refine ⟨?_, ?_, ?_⟩
  · intro m hm
    have hmem := List.mem_map_of_mem (f := Message.sequenceNum) hm
    rw [hseq] at hmem
    obtain ⟨m', hm', heq⟩ := List.mem_map.1 hmem
    exact heq ▸ h.nonneg m' hm'
  · have hpairwise : (metadata.map Message.sequenceNum).Pairwise (· < ·) :=
      List.pairwise_map.2 h.sequenceNum
    rw [← hseq] at hpairwise
    exact List.pairwise_map.1 hpairwise
  · have hpairwise : (metadata.map Message.ts).Pairwise (· < ·) := List.pairwise_map.2 h.timestamp
    rw [← hts] at hpairwise
    exact List.pairwise_map.1 hpairwise

theorem round_cons {mt : Message (FrameFields R)} {bytes : List (Message (FrameFields R))} {frame : V}
    {video : List V} {first : Bool} {index : ℤ} {out : List (Message Q)} {clock : Clock}
    (hdatatype : files.datatype = .ImgFrame) :
    node.round files ⟨mt :: bytes, frame :: video, true, true, first, index, s, out⟩ clock =
      .ok ⟨bytes, video, true, true, false, index,
        (s.update node.fps first (node.compose (node.resize mt) frame)).2,
        out ++ [(s.update node.fps first (node.compose (node.resize mt) frame)).1]⟩ := by
  simp [round, hdatatype, getProtoMessage, canReplay, Loop.ok_bind, readVideo, send, messageMetadata]

theorem round_nil {index : ℤ} {out : List (Message Q)} {clock : Clock}
    (hdatatype : files.datatype = .ImgFrame) (hloop : node.loop = true)
    (hframes : files.frames = some frames) :
    node.round files ⟨[], [], true, true, false, index, s, out⟩ clock =
      .ok ⟨files.metadata, frames, true, true, false, index, s.restart node.fps, out⟩ := by
  simp [round, hdatatype, getProtoMessage, canReplay, Loop.ok_bind, hloop, hframes]

/-- The invariant of a replay with metadata and frames: they have the same length, and what is left of
them is what is left of the messages. -/
structure Paired (node : ReplayVideo R V Q) (metadata : List (Message (FrameFields R)))
    (frames : List V) (n : ℕ) (st : State R V Q) : Prop where
  hasMetadata : st.hasMetadata = true
  hasVideo : st.hasVideo = true
  length : st.videoPlayer.length = st.bytePlayer.length
  looping : Looping (node.recorded metadata frames) n (node.recorded st.bytePlayer st.videoPlayer)
    st.first st.loopState st.out

theorem exists_round {clock : Clock} (hfps : ∀ f ∈ node.fps, f ≤ 1000) (hloop : node.loop = true)
    (hdatatype : files.datatype = .ImgFrame) (hframes : files.frames = some frames)
    (hlength : frames.length = files.metadata.length) (hincreasing : Increasing files.metadata)
    (hnonempty : files.metadata ≠ []) (h : node.Paired files.metadata frames n st) :
    ∃ st', node.round files st clock = .ok st' ∧ node.Paired files.metadata frames (n + 1) st' := by
  obtain ⟨bytes, video, hasMetadata, hasVideo, first, index, s, out⟩ := st
  obtain ⟨rfl, rfl, hleft, hlooping⟩ := h
  cases bytes with
  | nil =>
    obtain rfl := List.eq_nil_of_length_eq_zero hleft
    cases first with
    | true =>
      have hstart := hlooping.eq_recording rfl
      have hempty : (node.recorded files.metadata frames).length = 0 := by rw [← hstart]; rfl
      rw [recorded, List.length_zipWith, hlength, Nat.min_self] at hempty
      exact absurd (List.eq_nil_of_length_eq_zero hempty) hnonempty
    | false =>
      exact ⟨_, round_nil hdatatype hloop hframes, rfl, rfl, hlength, hlooping.restart hfps⟩
  | cons mt bytes =>
    obtain ⟨frame, video, rfl⟩ := List.exists_cons_of_length_eq_add_one hleft
    exact ⟨_, round_cons hdatatype, rfl, rfl, Nat.succ.inj hleft,
      hlooping.update hfps (increasing_recorded hlength hincreasing)⟩

theorem run_append (clocks : List Clock) (clock : Clock) :
    node.run files (clocks ++ [clock]) =
      node.run files clocks >>= fun st => node.round files st clock := by
  rw [run, run]
  cases start files with
  | error e => rfl
  | ok st =>
    simp only [Loop.ok_bind, List.foldlM_append, List.foldlM_cons, List.foldlM_nil]
    cases clocks.foldlM (node.round files) st with
    | error e => rfl
    | ok st =>
      simp only [Loop.ok_bind]
      cases node.round files st clock <;> rfl

theorem exists_run (hfps : ∀ f ∈ node.fps, f ≤ 1000) (hloop : node.loop = true)
    (hdatatype : files.datatype = .ImgFrame) (hframes : files.frames = some frames)
    (hlength : frames.length = files.metadata.length) (hincreasing : Increasing files.metadata)
    (hnonempty : files.metadata ≠ []) (clocks : List Clock) :
    ∃ st, node.run files clocks = .ok st ∧
      node.Paired files.metadata frames clocks.length st := by
  induction clocks using List.reverseRecOn with
  | nil =>
    refine ⟨⟨files.metadata, frames, true, true, true, 0, {}, []⟩, ?_, rfl, rfl, hlength, .start⟩
    simp [run, start, hframes, hnonempty]
  | append_singleton clocks clock ih =>
    obtain ⟨st, hst, hpaired⟩ := ih
    rw [run_append, hst, List.length_append]
    exact exists_round hfps hloop hdatatype hframes hlength hincreasing hnonempty hpaired

/-- Nothing is sent without metadata, or if it is not of frames. -/
theorem run_eq_ok (hframes : files.frames = some frames)
    (hlength : frames.length = files.metadata.length) {clocks : List Clock}
    (h : node.run files clocks = .ok st) :
    st.out = [] ∨ files.datatype = .ImgFrame ∧ files.metadata ≠ [] := by
  obtain ⟨st₀, hst₀, h⟩ := Loop.bind_eq_ok.1 h
  rw [start, hframes] at hst₀
  cases hst₀
  cases clocks with
  | nil =>
    cases h
    exact .inl rfl
  | cons clock clocks =>
    obtain ⟨st₁, hround, -⟩ := Loop.bind_eq_ok.1 h
    rw [round] at hround
    cases hmetadata : files.metadata with
    | nil =>
      rw [hmetadata] at hlength hround
      obtain rfl := List.eq_nil_of_length_eq_zero hlength
      simp [readVideo] at hround
    | cons m metadata =>
      rw [hmetadata] at hround
      by_cases hdatatype : files.datatype = .ImgFrame
      · exact .inr ⟨hdatatype, List.cons_ne_nil _ _⟩
      · simp [hdatatype] at hround

/-- **Whatever is sent is seamless.** -/
theorem seamless_run (hfps : ∀ f ∈ node.fps, f ≤ 1000) (hloop : node.loop = true)
    (hframes : files.frames = some frames) (hlength : frames.length = files.metadata.length)
    (hincreasing : Increasing files.metadata) {clocks : List Clock}
    (h : node.run files clocks = .ok st) :
    Seamless (node.recorded files.metadata frames) st.out := by
  have hrecording : Increasing (node.recorded files.metadata frames) :=
    increasing_recorded hlength hincreasing
  rcases run_eq_ok hframes hlength h with hnothing | ⟨hdatatype, hnonempty⟩
  · rw [hnothing]
    exact seamless_of_passes hrecording .start
  · obtain ⟨st', hst', hpaired⟩ := exists_run hfps hloop hdatatype hframes hlength hincreasing
      hnonempty clocks
    obtain rfl := Except.ok.inj (h.symm.trans hst')
    exact hpaired.looping.seamless hrecording

end ReplayVideo

/-! ### Both nodes -/

/-- **Looping is seamless,** however many passes there have been. As long as the recording is not empty
and can be replayed, no round fails, and every round but the last one of each pass sends a message. -/
theorem replay_seamless (fps : Option ℚ) (hfps : ∀ f ∈ fps, f ≤ 1000) :
    (∀ (P : Type) (datatype : DatatypeEnum) (recording : List (Message P)), Increasing recording →
      (∀ n st, ReplayMetadataOnly.run ⟨fps, true⟩ datatype recording n = .ok st →
        Seamless recording st.out) ∧
      (canReplay datatype = true → recording ≠ [] → ∀ n, ∃ st,
        ReplayMetadataOnly.run ⟨fps, true⟩ datatype recording n = .ok st ∧
          st.out.length = n - n / (recording.length + 1))) ∧
    ∀ (R V Q : Type) (node : ReplayVideo R V Q) (files : VideoFiles R V) (frames : List V),
      node.fps = fps → node.loop = true → files.frames = some frames →
      frames.length = files.metadata.length → Increasing files.metadata →
      (∀ clocks st, node.run files clocks = .ok st →
        Seamless (node.recorded files.metadata frames) st.out) ∧
      (files.datatype = .ImgFrame → files.metadata ≠ [] → ∀ clocks, ∃ st,
        node.run files clocks = .ok st ∧
          st.out.length = clocks.length - clocks.length / (files.metadata.length + 1)) := by
  constructor
  · intro P datatype recording hrecording
    refine ⟨fun n st => ReplayMetadataOnly.seamless_run hfps rfl hrecording, ?_⟩
    intro hreplay hnonempty n
    obtain ⟨st, hst, hlooping⟩ : ∃ st, ReplayMetadataOnly.run ⟨fps, true⟩ datatype recording n =
        .ok st ∧ Looping recording n st.bytePlayer st.first st.loopState st.out :=
      ReplayMetadataOnly.exists_run hfps rfl hreplay hrecording hnonempty n
    exact ⟨st, hst, hlooping.length_eq⟩
  · rintro R V Q node files frames rfl hloop hframes hlength hincreasing
    refine ⟨fun clocks st => ReplayVideo.seamless_run hfps hloop hframes hlength hincreasing, ?_⟩
    intro hdatatype hnonempty clocks
    obtain ⟨st, hst, hpaired⟩ :=
      ReplayVideo.exists_run hfps hloop hdatatype hframes hlength hincreasing hnonempty clocks
    have hmessages : (node.recorded files.metadata frames).length = files.metadata.length := by
      rw [ReplayVideo.recorded, List.length_zipWith, hlength, Nat.min_self]
    exact ⟨st, hst, hmessages ▸ hpaired.looping.length_eq⟩

/-- Two messages, half a millisecond apart. -/
def twoMessages : List (Message (FrameFields Unit)) :=
  [⟨5, 100, 90, ⟨4, 4, ()⟩⟩, ⟨7, 500100, 500080, ⟨4, 4, ()⟩⟩]

/-- A video of two frames with this metadata. -/
def twoFrames : VideoFiles Unit ℕ := ⟨some [0, 1], (4, 4), .ImgFrame, twoMessages⟩

/-- A node that sends the frames as they are, with their metadata. -/
def sendPairs : ReplayVideo Unit ℕ (FrameFields Unit × ℕ) where
  newFrame size := ⟨size.1, size.2, ()⟩
  getVideoMessage := Prod.mk

theorem increasing_twoMessages : Increasing twoMessages := by
  constructor <;> decide

/-- Four passes of each. -/
theorem replay_seamless_two :
    (∃ st, ReplayMetadataOnly.run {} .ImgFrame twoMessages 12 = .ok st ∧
      Seamless twoMessages st.out ∧ st.out.length = 8) ∧
    ∃ st, sendPairs.run twoFrames (List.replicate 12 ⟨0, 0⟩) = .ok st ∧
      Seamless (sendPairs.recorded twoMessages [0, 1]) st.out ∧ st.out.length = 8 := by
  obtain ⟨hmetadata, hvideo⟩ := replay_seamless none (by simp)
  obtain ⟨hseamless, hrun⟩ := hmetadata _ .ImgFrame twoMessages increasing_twoMessages
  obtain ⟨hseamless', hrun'⟩ :=
    hvideo _ _ _ sendPairs twoFrames [0, 1] rfl rfl rfl rfl increasing_twoMessages
  obtain ⟨st, hst, hlength⟩ := hrun rfl (List.cons_ne_nil _ _) 12
  obtain ⟨st', hst', hlength'⟩ := hrun' rfl (List.cons_ne_nil _ _) (List.replicate 12 ⟨0, 0⟩)
  exact ⟨⟨st, hst, hseamless 12 st hst, hlength⟩, st', hst', hseamless' _ st' hst', hlength'⟩

end DepthaiCore.Replay
