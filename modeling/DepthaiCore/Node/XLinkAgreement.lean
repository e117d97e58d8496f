import DepthaiCore.Node.XLinkHost

/-!
# The writer and the reader of a stream agree on flat groups

`XLinkOutHost::run` writes the packets of a message and, for a group, of its members; it does not
look into the members. `XLinkInHost::readData` expects for every group, also for one that is a
member, the packets of all of its members. So a message arrives as it was sent exactly if no member
of a group is a group with members, and each message that gets a packet is one that `parseMessage`
rebuilds from it.
-/

namespace DepthaiCore

variable {B : Build} {shm : ℤ → List UInt8}

/-! ### Messages and their contents -/

@[simp]
theorem Message.contents_eq_null {m : Message B} : m.contents shm = .null ↔ m = .null := by
  cases m <;> simp [Message.contents]

theorem ADatatype.mk_contents_eq {kind : DatatypeEnum} {fields fields' : (B.codec kind).Fields}
    {data data' : Memory} :
    ADatatype.contents shm ⟨kind, fields', data'⟩ = ADatatype.contents shm ⟨kind, fields, data⟩ ↔
      fields' = fields ∧ data'.getData shm = data.getData shm := by
  simp [ADatatype.contents]

theorem ADatatype.contents_eq {h h' : ADatatype B} (e : h'.contents shm = h.contents shm) :
    ∃ data, h' = ⟨h.kind, h.fields, data⟩ ∧ data.getData shm = h.data.getData shm := by
  obtain ⟨kind, fields, data⟩ := h
  obtain ⟨kind', fields', data'⟩ := h'
  simp only [ADatatype.contents, ADatatype.mk.injEq, Memory.vector.injEq] at e
  obtain ⟨rfl, hfields, hdata⟩ := e
  cases hfields
  exact ⟨data', rfl, hdata⟩

/-- Nodes have the same contents if their members and payloads do and what they hold does. -/
theorem Message.node_contents_eq {kind : DatatypeEnum} {fields : (B.codec kind).Fields}
    {data data' : Memory} {held held' : Fin (B.slots kind fields).length → Message B} :
    (node ⟨kind, fields, data'⟩ held').contents shm = (node ⟨kind, fields, data⟩ held).contents shm ↔
      data'.getData shm = data.getData shm ∧
        ∀ i, (held' i).contents shm = (held i).contents shm := by
  simp only [Message.contents, ADatatype.contents, Message.node.injEq, ADatatype.mk.injEq,
    Memory.vector.injEq, heq_eq_eq, true_and]
  exact and_congr_right fun _ => funext_iff

/-- What was just parsed has the contents of a node that holds nothing. -/
theorem Message.parsed_contents_eq {h h' : ADatatype B}
    {held : Fin (B.slots h.kind h.fields).length → Message B} :
    (parsed h').contents shm = (node h held).contents shm ↔
      h'.contents shm = h.contents shm ∧ ∀ i, held i = .null := by
  obtain ⟨kind, fields, data⟩ := h
  constructor
  · intro e
    have hhead : h'.contents shm = ADatatype.contents shm ⟨kind, fields, data⟩ := by
      simp only [parsed, Message.contents, Message.node.injEq] at e
      exact e.1
    obtain ⟨data', rfl, -⟩ := ADatatype.contents_eq hhead
    refine ⟨hhead, fun i => ?_⟩
    have hnull := (node_contents_eq.1 e).2 i
    exact contents_eq_null.1 hnull.symm
  · rintro ⟨hhead, hnull⟩
    obtain ⟨data', rfl, hdata⟩ := ADatatype.contents_eq hhead
    refine node_contents_eq.2 ⟨hdata, fun i => ?_⟩
    rw [hnull i]

/-! ### One packet -/

/-- The message is rebuilt from its metadata and its payload: as an `ADatatype` only if it has no
payload, otherwise by a case of `parseMessage` and from the metadata that `serialize` wrote. -/
def ADatatype.Rebuilds (shm : ℤ → List UInt8) (message : ADatatype B) : Prop :=
  (message.kind = .ADatatype ∧ message.fields = (B.codec message.kind).init ∧
    message.data.getData shm = []) ∨
  (B.parses message.kind ∧
    (B.codec message.kind).deserialize message.serialize = .ok message.fields)

theorem parseObject_contents (h : ADatatype B) {payload : List UInt8} {fd : ℤ}
    (hmem : (if fd < 0 then Memory.vector payload else .shared fd).getData shm =
      h.data.getData shm) :
    (∃ h', parseObject B h.kind.toInt32 h.serialize payload fd = .ok h' ∧
      h'.contents shm = h.contents shm) ↔ h.Rebuilds shm := by
  obtain ⟨kind, fields, data⟩ := h
  dsimp only at hmem ⊢
  by_cases hA : kind = .ADatatype
  · subst hA
    rw [parseObject_ADatatype]
    constructor
    · rintro ⟨_, ⟨⟩, e⟩
      obtain ⟨hfields, hdata⟩ := ADatatype.mk_contents_eq.1 e
      exact .inl ⟨rfl, hfields.symm, hdata.symm⟩
    · rintro (⟨-, hfields, hdata⟩ | ⟨hparses, -⟩)
      · exact ⟨_, rfl, ADatatype.mk_contents_eq.2 ⟨hfields.symm, hdata.symm⟩⟩
      · exact Bool.noConfusion hparses
  by_cases hT : kind = .Transformable
  · subst hT
    rw [parseObject_Transformable]
    refine iff_of_false (by rintro ⟨_, ⟨⟩, -⟩) ?_
    rintro (⟨hkind, -⟩ | ⟨hparses, -⟩)
    · exact hA hkind
    · exact Bool.noConfusion hparses
  rw [parseObject_eq hA hT]
  by_cases hparses : B.parses kind
  · rw [if_pos hparses, parseDatatype]
    cases hdes : (B.codec kind).deserialize (ADatatype.serialize ⟨kind, fields, data⟩) with
    | error what =>
      refine iff_of_false (by rintro ⟨_, ⟨⟩, -⟩) ?_
      rintro (⟨hkind, -⟩ | ⟨-, hok⟩)
      · exact hA hkind
      · rw [hdes] at hok
        cases hok
    | ok fields' =>
      constructor
      · rintro ⟨_, ⟨⟩, e⟩
        obtain ⟨rfl, -⟩ := ADatatype.mk_contents_eq.1 e
        exact .inr ⟨hparses, hdes⟩
      · rintro (⟨hkind, -⟩ | ⟨-, hok⟩)
        · exact absurd hkind hA
        · obtain rfl : fields' = fields := Except.ok.inj (hdes.symm.trans hok)
          exact ⟨_, rfl, ADatatype.mk_contents_eq.2 ⟨rfl, hmem⟩⟩
  · rw [if_neg hparses]
    refine iff_of_false (by rintro ⟨_, ⟨⟩, -⟩) ?_
    rintro (⟨hkind, -⟩ | ⟨h, -⟩)
    · exact hA hkind
    · exact hparses h

@[simp]
theorem length_serializeMetadata (h : ADatatype B) :
    (serializeMetadata h).length = h.serialize.length + 24 :=
  length_serializePacket _ _

section Frame

variable {h : ADatatype B} {payload : List UInt8} {fd : ℤ}

/-- The packet of a message is taken apart, or is too long to be. -/
theorem parseMessage_frame_eq (hlen : (payload ++ serializeMetadata h).length < 2 ^ 32) (fd : ℤ) :
    if (payload ++ serializeMetadata h).length < 2 ^ 31 + 16 then
      parseMessage B (some (.ofBytes (payload ++ serializeMetadata h) fd)) =
        parseObject B h.kind.toInt32 h.serialize payload fd
    else ∃ what, parseMessage B (some (.ofBytes (payload ++ serializeMetadata h) fd)) =
      .error (.thrown what) := by
  have hlength := StreamPacketDesc.toNat_length_ofBytes hlen fd
  have hbytes : (payload ++ serializeMetadata h).length =
      payload.length + h.serialize.length + 24 := by
    rw [List.length_append, length_serializeMetadata]
    omega
  split
  · exact parseMessage_serializePacket rfl (hlength.trans hbytes) (by omega)
  · exact parseMessage_of_long rfl (by omega)

theorem kind_of_parseMessage_frame (hlen : (payload ++ serializeMetadata h).length < 2 ^ 32)
    {h' : ADatatype B}
    (hparse : parseMessage B (some (.ofBytes (payload ++ serializeMetadata h) fd)) = .ok h') :
    h'.kind = h.kind := by
  have heq := parseMessage_frame_eq hlen fd
  split at heq
  · rw [heq] at hparse
    exact kind_of_parseObject hparse
  · obtain ⟨what, herror⟩ := heq
    rw [herror] at hparse
    cases hparse

theorem parseMessage_frame
    (hmem : (if fd < 0 then Memory.vector payload else .shared fd).getData shm =
      h.data.getData shm)
    (hlen : (payload ++ serializeMetadata h).length < 2 ^ 32) :
    (∃ h', parseMessage B (some (.ofBytes (payload ++ serializeMetadata h) fd)) = .ok h' ∧
      h'.contents shm = h.contents shm) ↔
      (payload ++ serializeMetadata h).length < 2 ^ 31 + 16 ∧ h.Rebuilds shm := by
  have heq := parseMessage_frame_eq hlen fd
  split at heq
  · rename_i hsize
    rw [heq, parseObject_contents h hmem]
    exact (and_iff_right hsize).symm
  · rename_i hsize
    obtain ⟨what, herror⟩ := heq
    rw [herror]
    refine iff_of_false ?_ fun hcond => hsize hcond.1
    rintro ⟨_, ⟨⟩, -⟩

/-- **What is read from the packet of a message alone.** It is the message if the packet is not too
long, `parseMessage` rebuilds the message from it, and the message points to no other: it is neither
a group with members nor a `PacketizedData`. -/
theorem XLinkInHost.readData_frame {held : Fin (B.slots h.kind h.fields).length → Message B}
    {s : List StreamPacketDesc}
    (hmem : (if fd < 0 then Memory.vector payload else .shared fd).getData shm =
      h.data.getData shm)
    (hlen : (payload ++ serializeMetadata h).length < 2 ^ 32) :
    (∃ m, readData B (.ofBytes (payload ++ serializeMetadata h) fd :: s) = .ok (m, s) ∧
      m.contents shm = (Message.node h held).contents shm) ↔
      ((payload ++ serializeMetadata h).length < 2 ^ 31 + 16 ∧ h.Rebuilds shm) ∧
        h.kind ≠ .PacketizedData ∧ (h.kind = .MessageGroup → B.slots h.kind h.fields = []) ∧
        ∀ i, held i = .null := by
  rw [← parseMessage_frame hmem hlen]
  constructor
  · rintro ⟨m, hread, e⟩
    obtain ⟨h', hparse, hP, hG, rfl⟩ := readData_single.1 hread
    obtain ⟨hhead, hnull⟩ := Message.parsed_contents_eq.1 e
    obtain ⟨data, rfl, -⟩ := ADatatype.contents_eq hhead
    exact ⟨⟨_, hparse, hhead⟩, hP, hG, hnull⟩
  · rintro ⟨⟨h', hparse, hhead⟩, hP, hG, hnull⟩
    refine ⟨.parsed h', readData_single.2 ⟨h', hparse, ?_, ?_, rfl⟩,
      Message.parsed_contents_eq.2 ⟨hhead, hnull⟩⟩
    · obtain ⟨data, rfl, -⟩ := ADatatype.contents_eq hhead
      exact hP
    · obtain ⟨data, rfl, -⟩ := ADatatype.contents_eq hhead
      exact hG

/-- The packet of a group, followed by as many packets as the group has members: the group is read
if its packet holds it and each of the following packets holds a member. -/
theorem XLinkInHost.readData_group (hkind : h.kind = .MessageGroup)
    {held : Fin (B.slots h.kind h.fields).length → Message B}
    {w : Fin (B.slots h.kind h.fields).length → StreamPacketDesc} {s : List StreamPacketDesc}
    (hmem : (if fd < 0 then Memory.vector payload else .shared fd).getData shm =
      h.data.getData shm)
    (hlen : (payload ++ serializeMetadata h).length < 2 ^ 32) :
    (∃ m, readData B (.ofBytes (payload ++ serializeMetadata h) fd :: (List.ofFn w ++ s)) =
        .ok (m, s) ∧ m.contents shm = (Message.node h held).contents shm) ↔
      ((payload ++ serializeMetadata h).length < 2 ^ 31 + 16 ∧ h.Rebuilds shm) ∧
        ∀ i, ∃ m t, readData B (w i :: t) = .ok (m, t) ∧
          m.contents shm = (held i).contents shm := by
  rw [← parseMessage_frame hmem hlen, readData_cons]
  constructor
  · rintro ⟨m, hread, e⟩
    obtain ⟨h', hparse, hread⟩ := Reader.bind_eq_ok.1 hread
    rw [liftFault_eq_ok] at hparse
    have hkind' : h'.kind = .MessageGroup := (kind_of_parseMessage_frame hlen hparse).trans hkind
    rw [finish_group hkind'] at hread
    obtain ⟨⟨group, t⟩, htimes, hread⟩ := Reader.bind_eq_ok.1 hread
    cases hread
    have hhead : h'.contents shm = h.contents shm := by
      simp only [Message.contents, Message.node.injEq] at e
      exact e.1
    obtain ⟨data, rfl, -⟩ := ADatatype.contents_eq hhead
    refine ⟨⟨_, hparse, hhead⟩, fun i => ?_⟩
    obtain ⟨rest, hmember⟩ := Reader.times_exact readData_takes htimes i
    exact ⟨_, rest, hmember, (Message.node_contents_eq.1 e).2 i⟩
  · rintro ⟨⟨h', hparse, hhead⟩, hmembers⟩
    obtain ⟨data, rfl, hdata⟩ := ADatatype.contents_eq hhead
    choose f t hread e using hmembers
    have hall : ∀ i rest, readData B (w i :: rest) = .ok (f i, rest) := fun i rest =>
      readData_single.2 (readData_single.1 (hread i))
    refine ⟨.node ⟨h.kind, h.fields, data⟩ f, ?_, Message.node_contents_eq.2 ⟨hdata, e⟩⟩
    refine Reader.bind_eq_ok.2 ⟨_, liftFault_eq_ok.2 hparse, ?_⟩
    have hgroup : (⟨h.kind, h.fields, data⟩ : ADatatype B).kind = .MessageGroup := hkind
    rw [finish_group hgroup]
    exact Reader.bind_eq_ok.2 ⟨_, Reader.times_append hall s, rfl⟩

end Frame

/-! ### What the writer writes -/

namespace XLinkOutHost

/-- What `writeOutgoing` puts in front of the metadata, and the descriptor that it passes. -/
def outgoingFrame (shm : ℤ → List UInt8) (message : ADatatype B) : List UInt8 × ℤ :=
  match message.data with
  | .vector bytes => (bytes, -1)
  | .shared fd => if 0 < fd ∧ 0 < (shm fd).length then ([], fd) else (shm fd, -1)

variable (self : XLinkOutHost)

theorem writeOutgoing_eq (message : ADatatype B) :
    self.writeOutgoing message = write ((outgoingFrame self.shm message).1 ++
      serializeMetadata message) (outgoingFrame self.shm message).2 := by
  obtain ⟨kind, fields, data⟩ := message
  cases data with
  | vector bytes =>
    cases bytes with
    | nil => rfl
    | cons b bytes => rfl
  | shared fd =>
    by_cases hdata : 0 < (self.shm fd).length
    · by_cases hfd : 0 < fd
      · simp [writeOutgoing, outgoingFrame, Memory.getData, hdata, hfd]
      · simp [writeOutgoing, outgoingFrame, Memory.getData, hdata, hfd]
    · have hnil : self.shm fd = [] := List.length_eq_zero_iff.1 (by omega)
      simp [writeOutgoing, outgoingFrame, Memory.getData, hnil]

theorem writeMember_eq (message : ADatatype B) :
    self.writeMember message =
      write (message.data.getData self.shm ++ serializeMetadata message) (-1) := by
  by_cases hdata : 0 < (message.data.getData self.shm).length
  · simp only [writeMember, if_pos hdata]
  · have hnil : message.data.getData self.shm = [] := List.length_eq_zero_iff.1 (by omega)
    simp [writeMember, hnil]

/-- The reader makes a memory with the same bytes of the frame. -/
theorem getData_outgoingFrame (shm : ℤ → List UInt8) (message : ADatatype B) :
    (if (outgoingFrame shm message).2 < 0 then Memory.vector (outgoingFrame shm message).1
      else .shared (outgoingFrame shm message).2).getData shm = message.data.getData shm := by
  obtain ⟨kind, fields, data⟩ := message
  cases data with
  | vector bytes => rfl
  | shared fd =>
    by_cases hfd : 0 < fd ∧ 0 < (shm fd).length
    · have hneg : ¬ fd < 0 := by omega
      simp [outgoingFrame, hfd, hneg]
    · simp [outgoingFrame, hfd, Memory.getData]

/-- The check of the buffer size passes. -/
def Accepts (currentMaxSize : UInt32) (message : ADatatype B) : Prop :=
  self.allowResize ∨ (message.data.getData self.shm).length ≤
    room currentMaxSize (serializeMetadata message).length

/-- The message `msg` is sent as `packet`. -/
def Sends (writePacket : ADatatype B → Except Fault StreamPacketDesc) (currentMaxSize : UInt32)
    (msg : Message B) (packet : StreamPacketDesc) : Prop :=
  ∃ head held, msg = .node head held ∧ self.Accepts currentMaxSize head ∧
    writePacket head = .ok packet

variable {self} {writePacket : ADatatype B → Except Fault StreamPacketDesc} {c c' : UInt32}
  {msg : Message B} {packet : StreamPacketDesc}

/-- A size that only changes if the buffer may be resized. -/
theorem Sends.congr (hc : self.allowResize ∨ c' = c) :
    self.Sends writePacket c' msg packet ↔ self.Sends writePacket c msg packet := by
  have haccept : ∀ head : ADatatype B, self.Accepts c' head ↔ self.Accepts c head := by
    intro head
    rcases hc with hc | rfl
    · simp [Accepts, hc]
    · rfl
  simp only [Sends, haccept]

theorem checkSize_eq_ok {dataSize metadataSize : ℕ} :
    (∃ c', self.checkSize c dataSize metadataSize = .ok c') ↔
      self.allowResize ∨ dataSize ≤ room c metadataSize := by
  by_cases hroom : room c metadataSize < dataSize
  · cases hresize : self.allowResize <;> simp [checkSize, hroom, hresize]
  · simp [checkSize, hroom, Nat.not_lt.1 hroom]

theorem checkSize_size {dataSize metadataSize : ℕ}
    (h : self.checkSize c dataSize metadataSize = .ok c') : self.allowResize ∨ c' = c := by
  rw [checkSize] at h
  split at h
  · split at h
    · rename_i hresize
      exact .inl hresize
    · cases h
  · cases h
    exact .inr rfl

theorem send_size (h : self.send writePacket c msg = .ok (packet, c')) :
    self.allowResize ∨ c' = c := by
  cases msg with
  | null => cases h
  | node head held =>
    obtain ⟨maxSize, hcheck, h⟩ := Reader.bind_eq_ok.1 h
    obtain ⟨_, -, h⟩ := Reader.bind_eq_ok.1 h
    cases h
    exact checkSize_size hcheck

theorem send_eq_ok :
    (∃ c', self.send writePacket c msg = .ok (packet, c')) ↔
      self.Sends writePacket c msg packet := by
  cases msg with
  | null =>
    refine iff_of_false (by rintro ⟨_, ⟨⟩⟩) ?_
    rintro ⟨_, _, ⟨⟩, -⟩
  | node head held =>
    constructor
    · rintro ⟨c', h⟩
      obtain ⟨maxSize, hcheck, h⟩ := Reader.bind_eq_ok.1 h
      obtain ⟨_, hwrite, h⟩ := Reader.bind_eq_ok.1 h
      cases h
      exact ⟨head, held, rfl, checkSize_eq_ok.1 ⟨_, hcheck⟩, hwrite⟩
    · rintro ⟨_, _, ⟨⟩, haccept, hwrite⟩
      obtain ⟨c', hcheck⟩ := checkSize_eq_ok.2 haccept
      exact ⟨c', Reader.bind_eq_ok.2 ⟨_, hcheck, Reader.bind_eq_ok.2 ⟨_, hwrite, rfl⟩⟩⟩

theorem sendMembers_eq_ok {n : ℕ} {held : Fin n → Message B} {packets : List StreamPacketDesc} :
    (∃ c', self.sendMembers c (List.ofFn held) = .ok (packets, c')) ↔
      ∃ w, packets = List.ofFn w ∧ ∀ i, self.Sends self.writeMember c (held i) (w i) := by
  induction n generalizing c packets with
  | zero =>
    constructor
    · rintro ⟨c', h⟩
      cases h
      exact ⟨Fin.elim0, rfl, fun i => i.elim0⟩
    · rintro ⟨w, rfl, -⟩
      exact ⟨c, rfl⟩
  | succ n ih =>
    rw [List.ofFn_succ]
    constructor
    · rintro ⟨c', h⟩
      obtain ⟨⟨p, c₁⟩, hsend, h⟩ := Reader.bind_eq_ok.1 h
      obtain ⟨⟨ps, c₂⟩, hrest, h⟩ := Reader.bind_eq_ok.1 h
      cases h
      obtain ⟨w, rfl, hw⟩ := ih.1 ⟨_, hrest⟩
      refine ⟨Fin.cons p w, by rw [List.ofFn_cons], fun i => ?_⟩
      cases i using Fin.cases with
      | zero => exact send_eq_ok.1 ⟨_, hsend⟩
      | succ i => exact (Sends.congr (send_size hsend)).1 (hw i)
    · rintro ⟨w, rfl, hw⟩
      obtain ⟨c₁, hsend⟩ := send_eq_ok.2 (hw 0)
      obtain ⟨c₂, hrest⟩ := ih.2 ⟨fun i => w i.succ, rfl, fun i =>
        (Sends.congr (send_size hsend)).2 (hw i.succ)⟩
      refine ⟨c₂, Reader.bind_eq_ok.2 ⟨_, hsend, Reader.bind_eq_ok.2 ⟨_, hrest, ?_⟩⟩⟩
      rw [List.ofFn_succ]
      rfl

theorem run_eq_ok {head : ADatatype B}
    {held : Fin (B.slots head.kind head.fields).length → Message B}
    {packets : List StreamPacketDesc} :
    (∃ c', self.run c (.node head held) = .ok (packets, c')) ↔
      ∃ p, self.Sends self.writeOutgoing c (.node head held) p ∧
        if head.kind = .MessageGroup then
          ∃ w, packets = p :: List.ofFn w ∧ ∀ i, self.Sends self.writeMember c (held i) (w i)
        else packets = [p] := by
  constructor
  · rintro ⟨c', h⟩
    obtain ⟨⟨p, c₁⟩, hsend, h⟩ := Reader.bind_eq_ok.1 h
    refine ⟨p, send_eq_ok.1 ⟨_, hsend⟩, ?_⟩
    dsimp only at h
    split at h
    · rename_i hkind
      rw [if_pos hkind]
      obtain ⟨⟨ps, c₂⟩, hrest, h⟩ := Reader.bind_eq_ok.1 h
      cases h
      obtain ⟨w, rfl, hw⟩ := sendMembers_eq_ok.1 ⟨_, hrest⟩
      exact ⟨w, rfl, fun i => (Sends.congr (send_size hsend)).1 (hw i)⟩
    · rename_i hkind
      rw [if_neg hkind]
      cases h
      rfl
  · rintro ⟨p, hsends, hpackets⟩
    obtain ⟨c₁, hsend⟩ := send_eq_ok.2 hsends
    split at hpackets
    · rename_i hkind
      obtain ⟨w, rfl, hw⟩ := hpackets
      obtain ⟨c₂, hrest⟩ := sendMembers_eq_ok.2 ⟨w, rfl, fun i =>
        (Sends.congr (send_size hsend)).2 (hw i)⟩
      refine ⟨c₂, Reader.bind_eq_ok.2 ⟨_, hsend, ?_⟩⟩
      dsimp only
      rw [if_pos hkind]
      exact Reader.bind_eq_ok.2 ⟨_, hrest, rfl⟩
    · rename_i hkind
      subst hpackets
      refine ⟨c₁, Reader.bind_eq_ok.2 ⟨_, hsend, ?_⟩⟩
      dsimp only
      rw [if_neg hkind]
      rfl

/-! ### When a message arrives -/

/-- The packet of a message is accepted by the buffer, can be measured by an `int`, and the message
is rebuilt from it. -/
def PacketOk (self : XLinkOutHost) (currentMaxSize : UInt32) (payload : List UInt8)
    (message : ADatatype B) : Prop :=
  self.Accepts currentMaxSize message ∧
    (payload ++ serializeMetadata message).length < 2 ^ 31 + 16 ∧ message.Rebuilds self.shm

/-- The condition on a member of a group. It is not null, it is no `PacketizedData`, which announces
further packets, and it holds no message of its own: it is no group with members. -/
def DeliversMember (self : XLinkOutHost) (currentMaxSize : UInt32) : Message B → Prop
  | .null => False
  | .node head held =>
    self.PacketOk currentMaxSize (head.data.getData self.shm) head ∧ head.kind ≠ .PacketizedData ∧
      (head.kind = .MessageGroup → B.slots head.kind head.fields = []) ∧ ∀ i, held i = .null

/-- The condition on a message. The members of a group meet the condition on members, and no other
message holds a message. -/
def Delivers (self : XLinkOutHost) (currentMaxSize : UInt32) : Message B → Prop
  | .null => False
  | .node head held =>
    self.PacketOk currentMaxSize (outgoingFrame self.shm head).1 head ∧
      head.kind ≠ .PacketizedData ∧
      if head.kind = .MessageGroup then ∀ i, self.DeliversMember currentMaxSize (held i)
      else ∀ i, held i = .null

theorem write_eq_ok {bytes : List UInt8} {fd : ℤ} :
    write bytes fd = .ok packet ↔ bytes.length < 2 ^ 32 ∧ packet = .ofBytes bytes fd := by
  by_cases hlen : bytes.length < 2 ^ 32
  · rw [write, if_pos hlen, Except.ok.injEq, eq_comm]
    exact (and_iff_right hlen).symm
  · rw [write, if_neg hlen]
    exact iff_of_false (by rintro ⟨⟩) fun h => hlen h.1

/-- The condition on a member says that its packet is written and that it is read from it. -/
theorem deliversMember_iff {m : Message B} :
    self.DeliversMember c m ↔
      ∃ p, self.Sends self.writeMember c m p ∧
        ∃ m' s, XLinkInHost.readData B (p :: s) = .ok (m', s) ∧
          m'.contents self.shm = m.contents self.shm := by
  cases m with
  | null =>
    refine iff_of_false id ?_
    rintro ⟨p, ⟨_, _, ⟨⟩, -⟩, -⟩
  | node head held =>
    have hmem : (if (-1 : ℤ) < 0 then Memory.vector (head.data.getData self.shm)
        else .shared (-1)).getData self.shm = head.data.getData self.shm := rfl
    constructor
    · rintro ⟨⟨haccept, hlen, hrebuild⟩, hP, hG, hnull⟩
      have hwrite : self.writeMember head = .ok (.ofBytes (head.data.getData self.shm ++
          serializeMetadata head) (-1)) :=
        (self.writeMember_eq head).trans (write_eq_ok.2 ⟨by omega, rfl⟩)
      obtain ⟨m', hread⟩ := (XLinkInHost.readData_frame (s := []) hmem (by omega)).2
        ⟨⟨hlen, hrebuild⟩, hP, hG, hnull⟩
      exact ⟨_, ⟨head, held, rfl, haccept, hwrite⟩, m', [], hread⟩
    · rintro ⟨p, ⟨_, _, ⟨⟩, haccept, hwrite⟩, m', s, hread⟩
      rw [self.writeMember_eq] at hwrite
      obtain ⟨hlen, rfl⟩ := write_eq_ok.1 hwrite
      obtain ⟨hpacket, hsingle⟩ := (XLinkInHost.readData_frame hmem hlen).1 ⟨m', hread⟩
      exact ⟨⟨haccept, hpacket⟩, hsingle⟩

/-- **When a message arrives.** One round of the writer produces packets from which, whatever is
written after them, the reader takes exactly these and rebuilds the message, if and only if the
message meets the condition `Delivers`. -/
theorem run_readData_iff (self : XLinkOutHost) (currentMaxSize : UInt32) (m : Message B) :
    (∃ packets c', self.run currentMaxSize m = .ok (packets, c') ∧
      ∀ rest, ∃ m', XLinkInHost.readData B (packets ++ rest) = .ok (m', rest) ∧
        m'.contents self.shm = m.contents self.shm) ↔
      self.Delivers currentMaxSize m := by
  cases m with
  | null =>
    refine iff_of_false ?_ id
    rintro ⟨packets, c', ⟨⟩, -⟩
  | node head held =>
    have hmem := getData_outgoingFrame self.shm head
    constructor
    · rintro ⟨packets, c', hrun, hread⟩
      obtain ⟨p, ⟨_, _, ⟨⟩, haccept, hwrite⟩, hpackets⟩ := run_eq_ok.1 ⟨c', hrun⟩
      rw [self.writeOutgoing_eq] at hwrite
      obtain ⟨hlen, rfl⟩ := write_eq_ok.1 hwrite
      specialize hread []
      split at hpackets
      · rename_i hkind
        obtain ⟨w, rfl, hw⟩ := hpackets
        obtain ⟨hpacket, hmembers⟩ := (XLinkInHost.readData_group hkind hmem hlen).1 hread
        refine ⟨⟨haccept, hpacket⟩, by rw [hkind]; decide, ?_⟩
        rw [if_pos hkind]
        intro i
        obtain ⟨m', t, hmember⟩ := hmembers i
        exact deliversMember_iff.2 ⟨w i, hw i, m', t, hmember⟩
      · rename_i hkind
        subst hpackets
        obtain ⟨hpacket, hP, -, hnull⟩ := (XLinkInHost.readData_frame hmem hlen).1 hread
        refine ⟨⟨haccept, hpacket⟩, hP, ?_⟩
        rw [if_neg hkind]
        exact hnull
    · rintro ⟨⟨haccept, hlen, hrebuild⟩, hP, hheld⟩
      have hwrite : self.writeOutgoing head = .ok (.ofBytes ((outgoingFrame self.shm head).1 ++
          serializeMetadata head) (outgoingFrame self.shm head).2) :=
        (self.writeOutgoing_eq head).trans (write_eq_ok.2 ⟨by omega, rfl⟩)
      by_cases hkind : head.kind = .MessageGroup
      · rw [if_pos hkind] at hheld
        choose w hsends hread using fun i => deliversMember_iff.1 (hheld i)
        obtain ⟨c', hrun⟩ := run_eq_ok.2 ⟨_, ⟨head, held, rfl, haccept, hwrite⟩, by
          rw [if_pos hkind]
          exact ⟨w, rfl, hsends⟩⟩
        exact ⟨_, c', hrun, fun rest =>
          (XLinkInHost.readData_group hkind hmem (by omega)).2 ⟨⟨hlen, hrebuild⟩, hread⟩⟩
      · rw [if_neg hkind] at hheld
        obtain ⟨c', hrun⟩ := run_eq_ok.2 ⟨_, ⟨head, held, rfl, haccept, hwrite⟩, by
          rw [if_neg hkind]⟩
        exact ⟨_, c', hrun, fun rest => (XLinkInHost.readData_frame hmem (by omega)).2
          ⟨⟨hlen, hrebuild⟩, hP, fun h => absurd h hkind, hheld⟩⟩

/-- A group with the keys `left` and `right`, where `left` is again such a group of two buffers. -/
def nestedGroup : Message .sample :=
  let buffer : Message .sample := .node ⟨.Buffer, (), .vector [7]⟩ fun _ => .null
  let inner : Message .sample := .node ⟨.MessageGroup, true, .vector []⟩ fun _ => buffer
  .node ⟨.MessageGroup, true, .vector []⟩ fun i => if i.val = 0 then inner else buffer

/-- The writer writes the group, its member `left` without members, and its member `right`; the
reader takes `right` for a member of `left` and waits for the rest. -/
theorem nestedGroup_blocks :
    (run ⟨false, fun _ => []⟩ initialMaxSize nestedGroup).toOption.map
      (fun r => (r.1.length, XLinkInHost.blocks .sample r.1)) = some (3, true) := by
  decide +kernel

/-- The group with a group in it does not arrive. -/
theorem run_readData_nestedGroup :
    ¬ ∃ packets c', run ⟨false, fun _ => []⟩ initialMaxSize nestedGroup = .ok (packets, c') ∧
      ∀ rest, ∃ m', XLinkInHost.readData .sample (packets ++ rest) = .ok (m', rest) ∧
        m'.contents (fun _ => []) = nestedGroup.contents fun _ => [] := by
  rintro ⟨packets, c', hrun, hread⟩
  obtain ⟨m', hread, -⟩ := hread []
  have hblocks := nestedGroup_blocks
  rw [hrun] at hblocks
  simp only [Except.toOption, Option.map_some, Option.some.injEq, Prod.mk.injEq,
    XLinkInHost.blocks] at hblocks
  rw [List.append_nil] at hread
  rw [hread] at hblocks
  exact Bool.noConfusion hblocks.2

end XLinkOutHost

end DepthaiCore
