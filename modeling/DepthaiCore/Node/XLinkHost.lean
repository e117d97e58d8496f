import DepthaiCore.Datatype.ParseMessage
import DepthaiCore.Lib.StreamReader

/-!
# `XLinkOutHost` and `XLinkInHost`

The two ends of a stream. `XLinkOutHost::run` writes a message as a packet; after a `MessageGroup` it
writes one packet for each member of the group. `XLinkInHost::readData` reads a packet; for a
`MessageGroup` it reads the messages of the group with `readData`, and for a `PacketizedData` it
reads a number of packets and parses what they hold together.

A message is a tree: a node has a place for each pointer to another message among its members,
which are the entries of `MessageGroup::group` and the two frames of `RGBDData`. The number of
places comes from the members, so that a group has one message, or a null pointer, for each key.

A stream delivers the packets as they were written. A packet whose length does not fit the 32 bits
of a descriptor cannot be written.
-/

namespace DepthaiCore

/-! ### Messages -/

/-- The members of a datatype that point to other messages, by name. -/
def Build.slots (B : Build) : (kind : DatatypeEnum) → (B.codec kind).Fields → List String
  | .MessageGroup, fields => B.groupKeys fields
  | .RGBDData, _ => ["colorFrame", "depthFrame"]
  | _, _ => []

/-- A pointer to a message, with what the message points to in turn. -/
inductive Message (B : Build)
  | null
  | node (head : ADatatype B) (held : Fin (B.slots head.kind head.fields).length → Message B)

variable {B : Build}

/-- What was just parsed points to nothing. -/
def Message.parsed (head : ADatatype B) : Message B :=
  .node head fun _ => .null

section Contents

variable (shm : ℤ → List UInt8)

/-- The bytes of a memory; `shm` has those of the shared memory behind a descriptor. -/
def Memory.getData : Memory → List UInt8
  | .vector bytes => bytes
  | .shared fd => shm fd

/-- The message with its payload in a vector. -/
def ADatatype.contents (message : ADatatype B) : ADatatype B :=
  ⟨message.kind, message.fields, .vector (message.data.getData shm)⟩

/-- The messages with their payloads in vectors: two messages are equal up to where the payloads are
kept if these are equal. -/
def Message.contents : Message B → Message B
  | .null => .null
  | .node head held => .node (head.contents shm) fun i => (held i).contents

end Contents

/-! ### The writer -/

/-- What a call of `run` has at hand. -/
structure XLinkOutHost where
  /-- `allowResize` -/
  allowResize : Bool
  /-- The bytes of the shared memory behind a descriptor. -/
  shm : ℤ → List UInt8

namespace XLinkOutHost

/-- `XLINK_USB_BUFFER_MAX_SIZE + XLINK_MESSAGE_METADATA_MAX_SIZE`, the first `currentMaxSize` -/
def initialMaxSize : UInt32 :=
  5 * 1024 * 1024 + 50 * 1024

/-- `stream.write`: one packet. -/
def write (bytes : List UInt8) (fd : ℤ) : Except Fault StreamPacketDesc :=
  if bytes.length < 2 ^ 32 then .ok (.ofBytes bytes fd)
  else .error (.thrown "Couldn't write data to stream")

/-- `currentMaxSize - metadata.size()`, a `std::size_t` -/
def room (currentMaxSize : UInt32) (metadataSize : ℕ) : ℕ :=
  (currentMaxSize.toNat + 2 ^ 64 - metadataSize) % 2 ^ 64

/-- The check of the buffer size, with `increaseBufferSize`: the new `currentMaxSize`. -/
def checkSize (self : XLinkOutHost) (currentMaxSize : UInt32) (dataSize metadataSize : ℕ) :
    Except Fault UInt32 :=
  if room currentMaxSize metadataSize < dataSize then
    if self.allowResize then .ok (UInt32.ofNat (dataSize + metadataSize))
    else .error (.thrown "Data size exceeds the maximum buffer size")
  else .ok currentMaxSize

/-- The packet of the message itself: shared memory is passed by its descriptor. -/
def writeOutgoing (self : XLinkOutHost) (message : ADatatype B) : Except Fault StreamPacketDesc :=
  let metadata := serializeMetadata message
  if 0 < (message.data.getData self.shm).length then
    match message.data with
    | .shared fd =>
      if 0 < fd then write metadata fd
      else write (message.data.getData self.shm ++ metadata) (-1)
    | .vector _ => write (message.data.getData self.shm ++ metadata) (-1)
  else write metadata (-1)

/-- The packet of a member of a group. -/
def writeMember (self : XLinkOutHost) (message : ADatatype B) : Except Fault StreamPacketDesc :=
  let metadata := serializeMetadata message
  if 0 < (message.data.getData self.shm).length then
    write (message.data.getData self.shm ++ metadata) (-1)
  else write metadata (-1)

/-- The check of the size and the write, the same for the message itself and for a member. -/
def send (self : XLinkOutHost) (writePacket : ADatatype B → Except Fault StreamPacketDesc)
    (currentMaxSize : UInt32) : Message B → Except Fault (StreamPacketDesc × UInt32)
  | .null => .error .nullPointer
  | .node head _ => do
    let maxSize ← self.checkSize currentMaxSize (head.data.getData self.shm).length
      (serializeMetadata head).length
    let packet ← writePacket head
    return (packet, maxSize)

/-- The loop over the members of a group. -/
def sendMembers (self : XLinkOutHost) (currentMaxSize : UInt32) :
    List (Message B) → Except Fault (List StreamPacketDesc × UInt32)
  | [] => .ok ([], currentMaxSize)
  | msg :: msgs => do
    let (packet, maxSize) ← self.send self.writeMember currentMaxSize msg
    let (packets, maxSize) ← self.sendMembers maxSize msgs
    return (packet :: packets, maxSize)

/-- One round of `run`: the packets written for a message, and the new `currentMaxSize`. -/
def run (self : XLinkOutHost) (currentMaxSize : UInt32) (outgoing : Message B) :
    Except Fault (List StreamPacketDesc × UInt32) := do
  let (packet, maxSize) ← self.send self.writeOutgoing currentMaxSize outgoing
  match outgoing with
  | .null => throw .nullPointer
  | .node head held =>
    if head.kind = .MessageGroup then
      let (packets, maxSize) ← self.sendMembers maxSize (List.ofFn held)
      return (packet :: packets, maxSize)
    else return ([packet], maxSize)

end XLinkOutHost

/-! ### The reader -/

/-- How a call of the reader can end without a message. -/
inductive Halt
  /-- It waits for a packet. -/
  | blocked
  /-- It fails. -/
  | fault (f : Fault)
  deriving DecidableEq, Repr

namespace XLinkInHost

/-- A result of the parser, for the reader. -/
def liftFault {α : Type*} : Except Fault α → Except Halt α
  | .ok a => .ok a
  | .error f => .error (.fault f)

def readStreamMessage : Reader Halt StreamPacketDesc StreamPacketDesc
  | [] => .error .blocked
  | packet :: s => .ok (packet, s)

/-- The loop of `parsePacketizedData`, with `payload` and `currentSize`. -/
def readPackets (payload : List UInt8) (currentSize : UInt32) :
    ℕ → Reader Halt StreamPacketDesc (List UInt8 × UInt32)
  | 0, s => .ok ((payload, currentSize), s)
  | n + 1, s => do
    let (packet, s) ← readStreamMessage s
    if packet.length = 0 then readPackets payload currentSize n s
    else
      let bytes ← liftFault (packet.readBytes 0 packet.length.toNat)
      readPackets (payload ++ bytes) (currentSize + packet.length) n s

/-- The packet that `parsePacketizedData` makes of the payload; an empty vector has no buffer. -/
def reassembled (payload : List UInt8) : StreamPacketDesc where
  data := if payload = [] then none else some payload
  length := UInt32.ofNat payload.length
  fd := -1
  length_le := by
    intro bytes hbytes
    split at hbytes
    · cases hbytes
    · cases hbytes
      rw [UInt32.toNat_ofNat']
      exact Nat.mod_le _ _

/-- What `parsePacketizedData` throws when the sizes differ. -/
def sizeMismatch (totalSize currentSize : UInt32) : String :=
  "XLinkInHost: Data size mismatch. Expected size: " ++ toString totalSize.toNat ++
    ", but received size: " ++ toString currentSize.toNat ++ "."

def parsePacketizedData (B : Build) (numPackets totalSize : UInt32) :
    Reader Halt StreamPacketDesc (Message B) := fun s => do
  let ((payload, currentSize), s) ← readPackets [] 0 numPackets.toNat s
  if currentSize ≠ totalSize then
    throw (.fault (.thrown (sizeMismatch totalSize currentSize)))
  else
    let msg ← liftFault (parseMessage B (some (reassembled payload)))
    return (.parsed msg, s)

/-- What `readData` does with a message that was parsed, with `read` for the calls of `readData`. -/
def finish (B : Build) (read : Reader Halt StreamPacketDesc (Message B)) :
    ADatatype B → Reader Halt StreamPacketDesc (Message B)
  | ⟨.PacketizedData, fields, _⟩, s =>
    parsePacketizedData B (B.numPackets fields) (B.totalSize fields) s
  | msg, s =>
    if msg.kind = .MessageGroup then do
      -- `parseMessageGroup`
      let (group, s) ← Reader.times read _ s
      return (.node msg group, s)
    else .ok (.parsed msg, s)

/-- `readData`, with `read` for the calls of `readData` in it. -/
def readStep (B : Build) (read : Reader Halt StreamPacketDesc (Message B)) :
    Reader Halt StreamPacketDesc (Message B) := fun s => do
  let (packet, s) ← readStreamMessage s
  let msg ← liftFault (parseMessage B (some packet))
  finish B read msg s

/-- `readData`. A call in a call starts at a later packet. -/
def readData (B : Build) : Reader Halt StreamPacketDesc (Message B) :=
  Reader.recurse (readStep B) .blocked

/-- The reader waits for a packet. -/
def blocks (B : Build) (s : List StreamPacketDesc) : Bool :=
  match readData B s with
  | .error .blocked => true
  | _ => false

/-! ### What the reader takes -/

variable {read read' : Reader Halt StreamPacketDesc (Message B)}

@[simp]
theorem liftFault_eq_ok {α : Type*} {x : Except Fault α} {a : α} :
    liftFault x = .ok a ↔ x = .ok a := by
  cases x <;> simp [liftFault]

theorem readPackets_takes (payload : List UInt8) (currentSize : UInt32) (n : ℕ) :
    Reader.Takes n (readPackets payload currentSize n) := by
  induction n generalizing payload currentSize with
  | zero =>
    intro s r s' hread
    cases hread
    exact ⟨[], rfl, le_rfl⟩
  | succ n ih =>
    intro s r s' hread
    cases s with
    | nil => cases hread
    | cons packet s =>
      have hrest : ∃ payload currentSize, readPackets payload currentSize n s = .ok (r, s') := by
        change (if packet.length = 0 then _ else _) = _ at hread
        split at hread
        · exact ⟨_, _, hread⟩
        · obtain ⟨bytes, -, h⟩ := Reader.bind_eq_ok.1 hread
          exact ⟨_, _, h⟩
      obtain ⟨payload, currentSize, hrest⟩ := hrest
      obtain ⟨front, rfl, hfront⟩ := ih payload currentSize hrest
      exact ⟨packet :: front, rfl, Nat.succ_le_succ hfront⟩

/-- `parsePacketizedData` returns what the payload parses to if the sizes agree. -/
theorem parsePacketizedData_eq_ok {numPackets totalSize : UInt32} {s s' : List StreamPacketDesc}
    {m : Message B} :
    parsePacketizedData B numPackets totalSize s = .ok (m, s') ↔
      ∃ payload msg, readPackets [] 0 numPackets.toNat s = .ok ((payload, totalSize), s') ∧
        parseMessage B (some (reassembled payload)) = .ok msg ∧ m = .parsed msg := by
  rw [parsePacketizedData, Reader.bind_eq_ok]
  constructor
  · rintro ⟨⟨⟨payload, currentSize⟩, t⟩, hpackets, h⟩
    dsimp only at h
    split at h
    · cases h
    · rename_i heq
      obtain ⟨msg, hparse, h⟩ := Reader.bind_eq_ok.1 h
      cases h
      rw [not_not.1 heq] at hpackets
      exact ⟨payload, msg, hpackets, liftFault_eq_ok.1 hparse, rfl⟩
  · rintro ⟨payload, msg, hpackets, hparse, rfl⟩
    refine ⟨_, hpackets, ?_⟩
    dsimp only
    rw [if_neg (not_not.2 rfl), hparse]
    rfl

theorem parsePacketizedData_takes (numPackets totalSize : UInt32) :
    Reader.Takes numPackets.toNat (parsePacketizedData B numPackets totalSize) := by
  intro s m s' hread
  obtain ⟨payload, msg, hpackets, -, -⟩ := parsePacketizedData_eq_ok.1 hread
  exact readPackets_takes _ _ _ hpackets

/-! ### The cases of the reader -/

theorem finish_group {msg : ADatatype B} (hkind : msg.kind = .MessageGroup)
    (s : List StreamPacketDesc) :
    finish B read msg s = (do
      let (group, s) ← Reader.times read _ s
      return (.node msg group, s)) := by
  obtain ⟨kind, fields, data⟩ := msg
  subst hkind
  rfl

theorem finish_other {msg : ADatatype B} (hP : msg.kind ≠ .PacketizedData)
    (hG : msg.kind ≠ .MessageGroup) (s : List StreamPacketDesc) :
    finish B read msg s = .ok (.parsed msg, s) := by
  rw [finish]
  · exact if_neg hG
  · rintro fields data rfl
    exact hP rfl

theorem finish_takes (h : Reader.Takes 0 read) (msg : ADatatype B) :
    Reader.Takes 0 (finish B read msg) := by
  intro s m s' hread
  by_cases hP : msg.kind = .PacketizedData
  · obtain ⟨kind, fields, data⟩ := msg
    subst hP
    exact (parsePacketizedData_takes _ _).mono (Nat.zero_le _) hread
  by_cases hG : msg.kind = .MessageGroup
  · rw [finish_group hG] at hread
    obtain ⟨⟨group, t⟩, htimes, hread⟩ := Reader.bind_eq_ok.1 hread
    cases hread
    exact (h.times _).mono (Nat.zero_le _) htimes
  · rw [finish_other hP hG] at hread
    cases hread
    exact ⟨[], rfl, le_rfl⟩

/-- What follows a packet is read with the calls of `readData` on shorter streams. -/
theorem finish_congr (h : Reader.Takes 0 read) (msg : ADatatype B) {s : List StreamPacketDesc}
    (hread : ∀ t, t.length ≤ s.length → read t = read' t) :
    finish B read msg s = finish B read' msg s := by
  by_cases hP : msg.kind = .PacketizedData
  · obtain ⟨kind, fields, data⟩ := msg
    subst hP
    rfl
  by_cases hG : msg.kind = .MessageGroup
  · rw [finish_group hG, finish_group hG, Reader.times_congr h hread _ le_rfl]
  · rw [finish_other hP hG, finish_other hP hG]

theorem readStep_cons (packet : StreamPacketDesc) (s : List StreamPacketDesc) :
    readStep B read (packet :: s) = (do
      let msg ← liftFault (parseMessage B (some packet))
      finish B read msg s) :=
  rfl

theorem guarded_readStep : Reader.Guarded (readStep B) where
  takes read h := by
    intro s m s' hread
    cases s with
    | nil => cases hread
    | cons packet s =>
      rw [readStep_cons] at hread
      obtain ⟨msg, -, hread⟩ := Reader.bind_eq_ok.1 hread
      obtain ⟨front, rfl, -⟩ := finish_takes h msg hread
      exact ⟨packet :: front, rfl, by simp⟩
  congr read read' s h hread := by
    cases s with
    | nil => rfl
    | cons packet s =>
      have hfinish : ∀ msg, finish B read msg s = finish B read' msg s := fun msg =>
        finish_congr h msg fun t ht => hread t (Nat.lt_succ_of_le ht)
      simp only [readStep_cons, hfinish]

theorem readData_takes : Reader.Takes 1 (readData B) :=
  guarded_readStep.recurse_takes

/-- **The equation of the reader.** It parses a packet and goes on by what it parsed. -/
theorem readData_cons (packet : StreamPacketDesc) (s : List StreamPacketDesc) :
    readData B (packet :: s) = (do
      let msg ← liftFault (parseMessage B (some packet))
      finish B (readData B) msg s) :=
  guarded_readStep.recurse_eq (packet :: s)

theorem parseMessage_reassembled_nil (msg : ADatatype B) :
    parseMessage B (some (reassembled [])) ≠ .ok msg := by
  intro h
  cases h

/-- A `PacketizedData` takes packets, or has no payload to parse. -/
theorem parsePacketizedData_ne_self (numPackets totalSize : UInt32) {s : List StreamPacketDesc}
    {m : Message B} : parsePacketizedData B numPackets totalSize s ≠ .ok (m, s) := by
  intro h
  have hlen := (parsePacketizedData_takes numPackets totalSize).length_le h
  obtain ⟨payload, msg, hpackets, hparse, -⟩ := parsePacketizedData_eq_ok.1 h
  have hn : numPackets.toNat = 0 := by omega
  rw [hn, readPackets] at hpackets
  cases hpackets
  exact parseMessage_reassembled_nil msg hparse

/-- A message is read from one packet, whatever follows, if it is no `PacketizedData` and no group
with members; any other message takes more. -/
theorem readData_single {packet : StreamPacketDesc} {s : List StreamPacketDesc} {m : Message B} :
    readData B (packet :: s) = .ok (m, s) ↔
      ∃ msg, parseMessage B (some packet) = .ok msg ∧ msg.kind ≠ .PacketizedData ∧
        (msg.kind = .MessageGroup → B.slots msg.kind msg.fields = []) ∧ m = .parsed msg := by
  rw [readData_cons, Reader.bind_eq_ok]
  simp only [liftFault_eq_ok]
  refine exists_congr fun msg => and_congr_right fun _ => ?_
  by_cases hP : msg.kind = .PacketizedData
  · refine iff_of_false (fun h => ?_) fun h => h.1 hP
    obtain ⟨kind, fields, data⟩ := msg
    subst hP
    exact parsePacketizedData_ne_self _ _ h
  by_cases hG : msg.kind = .MessageGroup
  · rw [finish_group hG, Reader.bind_eq_ok]
    constructor
    · rintro ⟨⟨group, t⟩, htimes, h⟩
      cases h
      have hlen := (readData_takes.times _).length_le htimes
      have hslots : B.slots msg.kind msg.fields = [] := List.length_eq_zero_iff.1 (by omega)
      refine ⟨hP, fun _ => hslots, ?_⟩
      rw [Message.parsed]
      congr 1
      funext i
      exact absurd i.isLt (by simp [hslots])
    · rintro ⟨-, hslots, rfl⟩
      have hzero : (B.slots msg.kind msg.fields).length = 0 := by rw [hslots hG, List.length_nil]
      exact ⟨_, Reader.times_eq_of_eq_zero hzero (fun _ => .null) s, rfl⟩
  · rw [finish_other hP hG]
    constructor
    · rintro ⟨⟩
      exact ⟨hP, fun h => absurd h hG, rfl⟩
    · rintro ⟨-, -, rfl⟩
      rfl

end XLinkInHost

end DepthaiCore
