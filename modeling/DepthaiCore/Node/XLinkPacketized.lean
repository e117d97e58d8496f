import DepthaiCore.Node.XLinkAgreement

/-!
# Messages that are delivered in parts

A `PacketizedData` announces a number of packets that hold a message together, with the total of
their sizes. `parsePacketizedData` collects the packets and hands them to `parseMessage`. It does not
do what `readData` does after `parseMessage`: a group that arrives in parts keeps null pointers for
its members, and their packets stay in the stream. And it adds the sizes up in 32 bits.
-/

namespace DepthaiCore.XLinkInHost

variable {B : Build}

/-- The packets with the parts of a payload. -/
def chunks (cuts : List (List UInt8)) : List StreamPacketDesc :=
  cuts.map fun bytes => .ofBytes bytes (-1)

/-- One round of the loop of `parsePacketizedData`, also when the packet is empty and skipped. -/
theorem readPackets_cons {bytes : List UInt8} (hlen : bytes.length < 2 ^ 32)
    (payload : List UInt8) (currentSize : UInt32) (n : ℕ) (s : List StreamPacketDesc) :
    readPackets payload currentSize (n + 1) (StreamPacketDesc.ofBytes bytes (-1) :: s) =
      readPackets (payload ++ bytes) (currentSize + UInt32.ofNat bytes.length) n s := by
  have hlength := StreamPacketDesc.toNat_length_ofBytes hlen (-1)
  have hround : readPackets payload currentSize (n + 1) (StreamPacketDesc.ofBytes bytes (-1) :: s) =
      if (StreamPacketDesc.ofBytes bytes (-1)).length = 0 then readPackets payload currentSize n s
      else (do
        let bytes' ← liftFault ((StreamPacketDesc.ofBytes bytes (-1)).readBytes 0
          (StreamPacketDesc.ofBytes bytes (-1)).length.toNat)
        readPackets (payload ++ bytes') (currentSize + UInt32.ofNat bytes.length) n s) :=
    rfl
  rw [hround]
  split
  · rename_i hzero
    rw [hzero] at hlength
    obtain rfl : bytes = [] := List.length_eq_zero_iff.1 hlength.symm
    simp
  · have hbytes : (StreamPacketDesc.ofBytes bytes (-1)).readBytes 0
        (StreamPacketDesc.ofBytes bytes (-1)).length.toNat = .ok bytes := by
      have hread : (StreamPacketDesc.ofBytes bytes (-1)).readBytes (0 : ℕ) bytes.length =
          .ok (slice bytes 0 bytes.length) := readBytes_eq rfl (by omega)
      rw [hlength]
      simpa [slice] using hread
    rw [hbytes]
    rfl

/-- The loop of `parsePacketizedData` collects the parts. -/
theorem readPackets_chunks {cuts : List (List UInt8)} (hcuts : ∀ bytes ∈ cuts, bytes.length < 2 ^ 32)
    (payload : List UInt8) (currentSize : UInt32) (s : List StreamPacketDesc) :
    readPackets payload currentSize cuts.length (chunks cuts ++ s) =
      .ok ((payload ++ cuts.flatten, currentSize + UInt32.ofNat cuts.flatten.length), s) := by
  induction cuts generalizing payload currentSize with
  | nil => simp [readPackets, chunks]
  | cons bytes cuts ih =>
    have hrest := ih fun bytes' h => hcuts bytes' (List.mem_cons_of_mem _ h)
    rw [List.length_cons, chunks, List.map_cons, List.cons_append,
      readPackets_cons (hcuts bytes (List.mem_cons_self ..)), ← chunks, hrest, List.flatten_cons,
      List.append_assoc, List.length_append, UInt32.ofNat_add,
      UInt32.add_assoc]

/-- A payload that is not empty is parsed like a packet of its own. -/
theorem reassembled_eq {payload : List UInt8} (h : payload ≠ []) :
    reassembled payload = .ofBytes payload (-1) := by
  simp only [reassembled, StreamPacketDesc.ofBytes, if_neg h]

section Header

variable {fields : (B.codec .PacketizedData).Fields} {data : Memory} {header : StreamPacketDesc}
  {cuts : List (List UInt8)}

/-- **What is read from a header and the packets it announces.** The message is what all the parts
parse to if their sizes add up to the announced one in 32 bits, and nothing is read for it. -/
theorem readData_chunks
    (hheader : parseMessage B (some header) = .ok ⟨.PacketizedData, fields, data⟩)
    (hnum : (B.numPackets fields).toNat = cuts.length)
    (hcuts : ∀ bytes ∈ cuts, bytes.length < 2 ^ 32) (s : List StreamPacketDesc) :
    readData B (header :: (chunks cuts ++ s)) =
      if UInt32.ofNat cuts.flatten.length = B.totalSize fields then
        (liftFault (parseMessage B (some (reassembled cuts.flatten)))).map
          fun msg => (.parsed msg, s)
      else .error (.fault (.thrown
        (sizeMismatch (B.totalSize fields) (UInt32.ofNat cuts.flatten.length)))) := by
  have hread : readData B (header :: (chunks cuts ++ s)) =
      parsePacketizedData B (B.numPackets fields) (B.totalSize fields) (chunks cuts ++ s) := by
    rw [readData_cons, hheader]
    rfl
  rw [hread, parsePacketizedData, hnum, readPackets_chunks hcuts, List.nil_append,
    UInt32.zero_add]
  by_cases hsize : UInt32.ofNat cuts.flatten.length = B.totalSize fields
  · rw [if_pos hsize]
    cases hparse : parseMessage B (some (reassembled cuts.flatten)) with
    | error f => simp only [bind, Except.bind, hsize, hparse, ne_eq, not_true, if_false, liftFault,
        Except.map]
    | ok msg => simp only [bind, Except.bind, hsize, hparse, ne_eq, not_true, if_false, liftFault,
        Except.map, pure, Except.pure]
  · rw [if_neg hsize]
    exact if_pos hsize

/-- The payload of a message in parts is read as the message alone is, members apart. -/
theorem readData_chunks_eq_iff
    (hheader : parseMessage B (some header) = .ok ⟨.PacketizedData, fields, data⟩)
    (hnum : (B.numPackets fields).toNat = cuts.length)
    (hcuts : ∀ bytes ∈ cuts, bytes.length < 2 ^ 32)
    (htotal : (B.totalSize fields).toNat = cuts.flatten.length) (hne : cuts.flatten ≠ []) :
    (∀ rest, readData B (header :: (chunks cuts ++ rest)) =
      readData B (.ofBytes cuts.flatten (-1) :: rest)) ↔
      ∀ msg, parseMessage B (some (.ofBytes cuts.flatten (-1))) = .ok msg →
        msg.kind ≠ .PacketizedData ∧
          (msg.kind = .MessageGroup → B.slots msg.kind msg.fields = []) := by
  have hsize : UInt32.ofNat cuts.flatten.length = B.totalSize fields := by
    rw [← htotal, UInt32.ofNat_toNat]
  simp only [readData_chunks hheader hnum hcuts, if_pos hsize, reassembled_eq hne]
  cases hparse : parseMessage B (some (.ofBytes cuts.flatten (-1))) with
  | error f =>
    refine iff_of_true (fun rest => ?_) (by rintro _ ⟨⟩)
    rw [readData_cons, hparse]
    rfl
  | ok msg =>
    have hone : ∀ rest, readData B (.ofBytes cuts.flatten (-1) :: rest) = .ok (.parsed msg, rest) ↔
        msg.kind ≠ .PacketizedData ∧
          (msg.kind = .MessageGroup → B.slots msg.kind msg.fields = []) := by
      intro rest
      rw [readData_single, hparse]
      constructor
      · rintro ⟨_, ⟨⟩, hP, hG, -⟩
        exact ⟨hP, hG⟩
      · rintro ⟨hP, hG⟩
        exact ⟨msg, rfl, hP, hG, rfl⟩
    constructor
    · rintro hall _ ⟨⟩
      exact (hone []).1 (hall []).symm
    · intro h rest
      exact ((hone rest).2 (h msg rfl)).symm

end Header

/-- A packet that is not too long is parsed to the message of its type, members and payload. -/
theorem parseMessage_frame_ok (hB : B.Inverts) {h : ADatatype B} {payload : List UInt8}
    (hparses : B.parses h.kind) (hC : h.kind ≠ .AprilTagConfig)
    (hsize : (payload ++ serializeMetadata h).length < 2 ^ 31 + 16) :
    parseMessage B (some (.ofBytes (payload ++ serializeMetadata h) (-1))) =
      .ok ⟨h.kind, h.fields, .vector payload⟩ := by
  have hlen : (payload ++ serializeMetadata h).length < 2 ^ 32 := by omega
  have heq := parseMessage_frame_eq hlen (-1)
  rw [if_pos hsize, parseObject_of_parses hparses] at heq
  have hA : h.kind ≠ .ADatatype := by
    intro hkind
    rw [hkind] at hparses
    exact Bool.noConfusion hparses
  let message : ADatatype B := ⟨h.kind, h.fields, .vector payload⟩
  have hA' : message.kind ≠ .ADatatype := hA
  have hparse : parseDatatype B message.kind message.serialize payload (-1) = .ok message :=
    parseDatatype_serialize hB hA' hC rfl
  rw [heq]
  exact hparse

/-- What the packet of a message parses to points to no other message, by the message. -/
theorem parsed_single_iff (hB : B.Inverts) {h : ADatatype B} {payload : List UInt8}
    (hlen : (payload ++ serializeMetadata h).length < 2 ^ 32) :
    (∀ msg, parseMessage B (some (.ofBytes (payload ++ serializeMetadata h) (-1))) = .ok msg →
      msg.kind ≠ .PacketizedData ∧
        (msg.kind = .MessageGroup → B.slots msg.kind msg.fields = [])) ↔
      2 ^ 31 + 16 ≤ (payload ++ serializeMetadata h).length ∨
        h.kind ≠ .PacketizedData ∧ (h.kind = .MessageGroup → B.slots h.kind h.fields = []) := by
  constructor
  · intro hsingle
    by_cases hsize : (payload ++ serializeMetadata h).length < 2 ^ 31 + 16
    · refine .inr ⟨fun hP => ?_, fun hG => ?_⟩
      · have hok := parseMessage_frame_ok hB (by rw [hP]; rfl) (by rw [hP]; decide) hsize
        exact (hsingle _ hok).1 hP
      · have hok := parseMessage_frame_ok hB (by rw [hG]; rfl) (by rw [hG]; decide) hsize
        exact (hsingle _ hok).2 hG
    · exact .inl (Nat.not_lt.1 hsize)
  · rintro (hlong | ⟨hP, hG⟩) msg hparse
    · have heq := parseMessage_frame_eq hlen (-1)
      rw [if_neg (Nat.not_lt.2 hlong)] at heq
      obtain ⟨what, hthrown⟩ := heq
      rw [hthrown] at hparse
      cases hparse
    · have hkind := kind_of_parseMessage_frame hlen hparse
      refine ⟨hkind ▸ hP, fun hgroup => ?_⟩
      have hhgroup : h.kind = .MessageGroup := hkind.symm.trans hgroup
      have hsize : (payload ++ serializeMetadata h).length < 2 ^ 31 + 16 := by
        by_contra hlong
        have heq := parseMessage_frame_eq hlen (-1)
        rw [if_neg hlong] at heq
        obtain ⟨what, hthrown⟩ := heq
        rw [hthrown] at hparse
        cases hparse
      rw [parseMessage_frame_ok hB (by rw [hhgroup]; rfl) (by rw [hhgroup]; decide) hsize] at hparse
      cases hparse
      exact hG hhgroup

/-- **When delivery in parts is delivery as a whole, and when a wrong size is noticed.** A header
announces as many packets as the payload was cut into. If it announces the size of the payload, the
reader does the same with the parts as with the payload in one packet if and only if the payload is
too long to be parsed at all, or is no `PacketizedData` and no group with members. If it announces
another size, the reader throws if and only if the size is also another one modulo `2 ^ 32`, or the
payload, cut off at the announced size, does not parse. -/
theorem readData_packetized_iff (hB : B.Inverts) {fields : (B.codec .PacketizedData).Fields}
    {data : Memory} {header : StreamPacketDesc} {cuts : List (List UInt8)}
    (hheader : parseMessage B (some header) = .ok ⟨.PacketizedData, fields, data⟩)
    (hnum : (B.numPackets fields).toNat = cuts.length)
    (hcuts : ∀ bytes ∈ cuts, bytes.length < 2 ^ 32) :
    (∀ (h : ADatatype B) (payload : List UInt8), cuts.flatten = payload ++ serializeMetadata h →
      (B.totalSize fields).toNat = cuts.flatten.length →
      ((∀ rest, readData B (header :: (chunks cuts ++ rest)) =
        readData B (.ofBytes cuts.flatten (-1) :: rest)) ↔
        2 ^ 31 + 16 ≤ cuts.flatten.length ∨
          h.kind ≠ .PacketizedData ∧ (h.kind = .MessageGroup → B.slots h.kind h.fields = []))) ∧
    ((B.totalSize fields).toNat ≠ cuts.flatten.length →
      ((∀ rest, ∃ what, readData B (header :: (chunks cuts ++ rest)) =
        .error (.fault (.thrown what))) ↔
        (B.totalSize fields).toNat ≠ cuts.flatten.length % 2 ^ 32 ∨
          ∀ msg, parseMessage B (some (reassembled cuts.flatten)) ≠ .ok msg)) := by
  constructor
  · intro h payload hflatten htotal
    have hlen : (payload ++ serializeMetadata h).length < 2 ^ 32 := by
      rw [← hflatten, ← htotal]
      exact (B.totalSize fields).toNat_lt
    have hne : cuts.flatten ≠ [] := by
      rw [hflatten]
      exact List.append_ne_nil_of_right_ne_nil _ (List.ne_nil_of_length_pos (by simp))
    rw [readData_chunks_eq_iff hheader hnum hcuts htotal hne, hflatten, parsed_single_iff hB hlen]
  · intro _
    have hsize : UInt32.ofNat cuts.flatten.length = B.totalSize fields ↔
        (B.totalSize fields).toNat = cuts.flatten.length % 2 ^ 32 := by
      rw [← UInt32.toNat_inj, UInt32.toNat_ofNat', eq_comm]
    simp only [readData_chunks hheader hnum hcuts, hsize]
    by_cases hmod : (B.totalSize fields).toNat = cuts.flatten.length % 2 ^ 32
    · simp only [if_pos hmod]
      rcases parseMessage_safe (B := B) (some (reassembled cuts.flatten)) with
        ⟨msg, hok⟩ | ⟨what, hthrown⟩
      · rw [hok]
        refine iff_of_false (fun h => ?_) ?_
        · obtain ⟨what, hwhat⟩ := h []
          cases hwhat
        · rintro (h | h)
          · exact h hmod
          · exact h msg rfl
      · rw [hthrown]
        exact iff_of_true (fun _ => ⟨what, rfl⟩) (.inr (by rintro _ ⟨⟩))
    · simp only [if_neg hmod]
      exact iff_of_true (fun _ => ⟨_, rfl⟩) (.inl hmod)

/-- The packet of a header for as many packets and bytes. -/
def sampleHeader (numPackets totalSize : Fin 128) : StreamPacketDesc :=
  .ofBytes ([] ++ serializeMetadata
    (⟨.PacketizedData, (numPackets, totalSize), .vector []⟩ : ADatatype .sample)) (-1)

theorem parseMessage_sampleHeader (numPackets totalSize : Fin 128) :
    parseMessage .sample (some (sampleHeader numPackets totalSize)) =
      .ok ⟨.PacketizedData, (numPackets, totalSize), .vector []⟩ :=
  parseMessage_frame_ok Build.sample_inverts rfl (nomatch ·) (by
    rw [List.nil_append, length_serializeMetadata]
    exact (by decide : 4 + 24 < 2 ^ 31 + 16))

/-- A buffer in three parts, one of them empty. -/
theorem readData_packetized_iff_buffer :
    let whole := [7] ++ serializeMetadata (⟨.Buffer, (), .vector [7]⟩ : ADatatype .sample)
    ∀ rest, readData .sample (sampleHeader 3 36 ::
      (chunks [whole.take 10, [], whole.drop 10] ++ rest)) =
        readData .sample (.ofBytes [whole.take 10, [], whole.drop 10].flatten (-1) :: rest) :=
  ((readData_packetized_iff Build.sample_inverts (parseMessage_sampleHeader 3 36) rfl
    (by decide)).1 ⟨.Buffer, (), .vector [7]⟩ [7] (by decide) (by decide)).2
      (.inr ⟨by decide, fun h => by cases h⟩)

/-- A group in one part comes without its members, and their packets stay in the stream: where the
group in one packet waits for them, the group in parts is returned. -/
theorem readData_packetized_group :
    let whole := serializeMetadata (⟨.MessageGroup, true, .vector []⟩ : ADatatype .sample)
    parseMessage .sample (some (sampleHeader 1 52)) =
        .ok ⟨.PacketizedData, ((1, 52) : Fin 128 × Fin 128), .vector []⟩ ∧
      whole.length = 52 ∧
      readData .sample (sampleHeader 1 52 :: (chunks [whole] ++ [])) ≠
        readData .sample (.ofBytes whole (-1) :: []) := by
  intro whole
  have hparts : blocks .sample (sampleHeader 1 52 :: (chunks [whole] ++ [])) = false := by
    decide +kernel
  have hwhole : blocks .sample (.ofBytes whole (-1) :: []) = true := by
    decide +kernel
  refine ⟨parseMessage_sampleHeader 1 52, by decide +kernel, fun heq => ?_⟩
  rw [blocks, heq, ← blocks, hwhole] at hparts
  cases hparts

end DepthaiCore.XLinkInHost
