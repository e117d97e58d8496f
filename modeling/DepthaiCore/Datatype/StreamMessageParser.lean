import DepthaiCore.Lib.LittleEndian

/-!
# Stream packets

A stream packet is `|| payload | metadata | object type | metadata size | end-of-packet marker ||`:
the two words are four bytes each, little-endian, and the marker is sixteen bytes. `parseHeader`
takes the packet apart from its end. The metadata size is whatever the packet says, and it passes
through `int` and `std::uint32_t` before it becomes an offset.

A packet comes as a pointer, a length and a buffer that holds at least as many bytes. Every read
goes through `StreamPacketDesc.readByte`, which faults outside the packet, and every subtraction of
`int`s through `subInt`, which faults on overflow; so that a fault does not happen is something to
prove. `parseHeader` reads the marker and accepts any.
-/

namespace DepthaiCore

open LittleEndian

/-- How a parser can fail. Only the first is an exception. -/
inductive Fault
  /-- A `std::runtime_error`. -/
  | thrown (what : String)
  /-- A read of the packet at an offset outside it. -/
  | outOfBounds (offset : ℤ)
  /-- A null pointer that is followed. -/
  | nullPointer
  /-- A signed overflow. -/
  | overflow
  deriving DecidableEq, Repr

/-- The members of `streamPacketDesc_t` that the parser reads. -/
structure StreamPacketDesc where
  /-- The buffer, unless the pointer is null. -/
  data : Option (List UInt8)
  /-- The number of bytes that belong to the packet. -/
  length : UInt32
  /-- The descriptor of shared memory that came with the packet, negative for none. -/
  fd : ℤ := -1
  /-- The buffer holds the packet. -/
  length_le : ∀ bytes ∈ data, length.toNat ≤ bytes.length

/-- The byte at `offset`. -/
def StreamPacketDesc.readByte (packet : StreamPacketDesc) (offset : ℤ) : Except Fault UInt8 :=
  match packet.data with
  | none => .error (.outOfBounds offset)
  | some data =>
    if 0 ≤ offset ∧ offset < packet.length.toNat then .ok (data.getD offset.toNat 0)
    else .error (.outOfBounds offset)

/-- The `n` bytes from `offset` on. -/
def StreamPacketDesc.readBytes (packet : StreamPacketDesc) (offset : ℤ) :
    ℕ → Except Fault (List UInt8)
  | 0 => .ok []
  | n + 1 => do
    let b ← packet.readByte offset
    let bytes ← packet.readBytes (offset + 1) n
    return b :: bytes

def endOfPacketMarker : List UInt8 :=
  [0xAB, 0xCD, 0xEF, 0x01, 0x23, 0x45, 0x67, 0x89, 0x12, 0x34, 0x56, 0x78, 0x9A, 0xBC, 0xDE, 0xF0]

/-! ### The parser -/

def readIntLE (packet : StreamPacketDesc) (offset : ℤ) : Except Fault Int32 := do
  let b₀ ← packet.readByte offset
  let b₁ ← packet.readByte (offset + 1)
  let b₂ ← packet.readByte (offset + 2)
  let b₃ ← packet.readByte (offset + 3)
  return (b₀.toUInt32 ||| (b₁.toUInt32 <<< 8) ||| (b₂.toUInt32 <<< 16) |||
    (b₃.toUInt32 <<< 24)).toInt32

/-- The difference of two `int`s. -/
def subInt (a b : Int32) : Except Fault Int32 :=
  if -2 ^ 31 ≤ a.toInt - b.toInt ∧ a.toInt - b.toInt < 2 ^ 31 then .ok (a - b)
  else .error .overflow

/-- The text `info` that ends the later errors. -/
def packetInfo (length : UInt32) (objectType serializedObjectSize : Int32) : String :=
  ", total size " ++ toString length.toNat ++ ", type " ++ toString objectType.toInt ++
    ", metadata size " ++ toString serializedObjectSize.toInt

/-- The checks of `parseHeader` on the words it read. -/
def checkHeader (length : UInt32) (serializedObjectSize objectType : Int32) :
    Except Fault (Int32 × ℕ × ℕ) :=
  let packetLength := length - 16
  let info := packetInfo length objectType serializedObjectSize
  if serializedObjectSize < 0 then
    .error (.thrown ("Bad packet, couldn't parse (metadata size negative)" ++ info))
  else if packetLength.toInt32 < serializedObjectSize then
    .error (.thrown
      ("Bad packet, couldn't parse (metadata size larger than packet length)" ++ info))
  else do
    let dataSize ← subInt packetLength.toInt32 8
    let dataSize ← subInt dataSize serializedObjectSize
    if dataSize < 0 then
      throw (.thrown ("Bad packet, couldn't parse (data too small)" ++ info))
    else
      let bufferLength := packetLength - 8 - serializedObjectSize.toUInt32
      if packetLength < bufferLength then
        throw (.thrown ("Bad packet, couldn't parse (data too large)" ++ info))
      else if packetLength.toNat ≤ bufferLength.toNat then
        throw (.thrown ("Bad packet, couldn't parse (metadata out of bounds)" ++ info))
      else
        return (objectType, serializedObjectSize.toInt.toNat, bufferLength.toNat)

/-- `parseHeader`: the object type, the size of the metadata and the size of the payload. -/
def parseHeader (packet : Option StreamPacketDesc) : Except Fault (Int32 × ℕ × ℕ) :=
  match packet with
  | none => .error (.thrown "Bad packet, couldn't parse (null packet or data)")
  | some packet =>
    if packet.data = none then
      .error (.thrown "Bad packet, couldn't parse (null packet or data)")
    else if packet.length < 24 then
      .error (.thrown ("Bad packet, couldn't parse (not enough data), total size " ++
        toString packet.length.toNat))
    else do
      let packetLength := packet.length - 16
      let serializedObjectSize ← readIntLE packet (packetLength.toNat - 4)
      let objectType ← readIntLE packet (packetLength.toNat - 8)
      -- A marker other than `endOfPacketMarker` is not an error.
      let _marker ← packet.readBytes packetLength.toNat 16
      checkHeader packet.length serializedObjectSize objectType

/-- The part of `serializeMetadata` that follows the call of `serialize`. -/
def serializePacket (metadata : List UInt8) (datatype : Int32) : List UInt8 :=
  let metadataSize := UInt32.ofNat metadata.length
  let leDatatype := [0, 1, 2, 3].map fun i : Int32 =>
    ((datatype >>> (i * 8)) &&& 0xFF).toUInt32.toUInt8
  let leMetadataSize := [0, 1, 2, 3].map fun i : UInt32 =>
    ((metadataSize >>> (i * 8)) &&& 0xFF).toUInt8
  metadata ++ leDatatype ++ leMetadataSize ++ endOfPacketMarker

/-! ### Reads inside the packet -/

/-- The bytes `[offset, offset + n)`. -/
def slice (bytes : List UInt8) (offset n : ℕ) : List UInt8 :=
  (bytes.drop offset).take n

/-- The word at `offset`. -/
def wordAt (bytes : List UInt8) (offset : ℕ) : UInt32 :=
  UInt32.ofNat (decode (slice bytes offset 4))

section Reads

variable {packet : StreamPacketDesc} {bytes : List UInt8}

theorem readByte_eq (hdata : packet.data = some bytes) {i : ℕ}
    (h : i < packet.length.toNat) :
    packet.readByte i = .ok (bytes.getD i 0) := by
  have hbounds : (0 : ℤ) ≤ i ∧ (i : ℤ) < packet.length.toNat := by omega
  simp only [StreamPacketDesc.readByte, hdata, if_pos hbounds, Int.toNat_natCast]

theorem slice_succ {i n : ℕ} (h : i < bytes.length) :
    slice bytes i (n + 1) = bytes.getD i 0 :: slice bytes (i + 1) n := by
  rw [slice, slice, List.drop_eq_getElem_cons h, List.take_succ_cons]
  simp [h]

theorem readBytes_eq (hdata : packet.data = some bytes) {i n : ℕ}
    (h : i + n ≤ packet.length.toNat) :
    packet.readBytes i n = .ok (slice bytes i n) := by
  have hlen := packet.length_le bytes hdata
  induction n generalizing i with
  | zero => simp [StreamPacketDesc.readBytes, slice]
  | succ n ih =>
    have hrest : packet.readBytes ((i : ℤ) + 1) n = .ok (slice bytes (i + 1) n) := by
      exact_mod_cast ih (i := i + 1) (by omega)
    rw [StreamPacketDesc.readBytes, readByte_eq hdata (by omega), hrest,
      slice_succ (by omega : i < bytes.length)]
    rfl

theorem readIntLE_eq (hdata : packet.data = some bytes) {i : ℕ}
    (h : i + 4 ≤ packet.length.toNat) :
    readIntLE packet i = .ok (wordAt bytes i).toInt32 := by
  have hlen := packet.length_le bytes hdata
  have hbyte : ∀ k : ℕ, k < 4 →
      packet.readByte ((i : ℤ) + k) = .ok (bytes.getD (i + k) 0) := by
    intro k hk
    exact_mod_cast readByte_eq hdata (i := i + k) (by omega)
  have h₁ := hbyte 1 (by omega)
  have h₂ := hbyte 2 (by omega)
  have h₃ := hbyte 3 (by omega)
  have hslice : slice bytes i 4 = [bytes.getD i 0, bytes.getD (i + 1) 0,
      bytes.getD (i + 2) 0, bytes.getD (i + 3) 0] := by
    rw [slice_succ (by omega), slice_succ (by omega), slice_succ (by omega),
      slice_succ (by omega)]
    simp [slice]
  push_cast at h₁ h₂ h₃
  rw [readIntLE, readByte_eq hdata (by omega), h₁, h₂, h₃, wordAt, hslice, ← or_shifts]
  rfl

end Reads

/-! ### The checks -/

/-- An `int` is negative for the words from `2 ^ 31` on. -/
theorem toInt_toInt32 (w : UInt32) :
    w.toInt32.toInt = if w.toNat < 2 ^ 31 then (w.toNat : ℤ) else w.toNat - 2 ^ 32 := by
  have hw : w.toBitVec.toNat = w.toNat := rfl
  have hint : w.toInt32.toInt = w.toBitVec.toInt := rfl
  rw [hint, BitVec.toInt_eq_toNat_cond, hw]
  split <;> split <;> omega

/-- A difference of `int`s that is in range is not changed by the width. -/
theorem subInt_eq {a b : Int32} (h : -2 ^ 31 ≤ a.toInt - b.toInt ∧ a.toInt - b.toInt < 2 ^ 31) :
    subInt a b = .ok (a - b) ∧ (a - b).toInt = a.toInt - b.toInt := by
  refine ⟨if_pos h, ?_⟩
  rw [Int32.toInt_sub]
  exact Int.bmod_eq_of_le (by omega) (by omega)

theorem toNat_sub_of_le {a b : UInt32} (h : b.toNat ≤ a.toNat) :
    (a - b).toNat = a.toNat - b.toNat :=
  UInt32.toNat_sub_of_le a b h

/-- The checks let through the sizes that leave room for the header, in packets that an `int` can
measure, and throw at all others. -/
theorem checkHeader_eq {length size type : UInt32} (hlen : 24 ≤ length.toNat) :
    if length.toNat < 2 ^ 31 + 16 ∧ size.toNat + 24 ≤ length.toNat then
      checkHeader length size.toInt32 type.toInt32 =
        .ok (type.toInt32, size.toNat, length.toNat - 24 - size.toNat)
    else ∃ what, checkHeader length size.toInt32 type.toInt32 = .error (.thrown what) := by
  have hpl : (length - 16).toNat = length.toNat - 16 := toNat_sub_of_le (by simpa using by omega)
  have hsize := toInt_toInt32 size
  have hpacket := toInt_toInt32 (length - 16)
  have hlt32 := length.toNat_lt
  have hsize32 := size.toNat_lt
  by_cases hneg : size.toInt32 < 0
  · have hlt : size.toInt32.toInt < 0 := Int32.lt_iff_toInt_lt.1 hneg
    rw [if_neg (by split at hsize <;> omega)]
    exact ⟨_, if_pos hneg⟩
  have hsize31 : size.toNat < 2 ^ 31 := by
    have hlt : ¬ size.toInt32.toInt < 0 := fun h => hneg (Int32.lt_iff_toInt_lt.2 h)
    split at hsize <;> omega
  rw [if_pos hsize31] at hsize
  by_cases hlarge : (length - 16).toInt32 < size.toInt32
  · have hlt := Int32.lt_iff_toInt_lt.1 hlarge
    rw [if_neg (by split at hpacket <;> omega)]
    exact ⟨_, by rw [checkHeader, if_neg hneg, if_pos hlarge]⟩
  have hle : ¬ (length - 16).toInt32.toInt < size.toInt32.toInt :=
    fun h => hlarge (Int32.lt_iff_toInt_lt.2 h)
  have hpacket31 : (length - 16).toNat < 2 ^ 31 := by
    split at hpacket <;> omega
  rw [if_pos hpacket31] at hpacket
  -- The packet is short enough for an `int` now, and no subtraction overflows.
  have h8 : (8 : Int32).toInt = 8 := rfl
  obtain ⟨hsub, hsub'⟩ := subInt_eq (a := (length - 16).toInt32) (b := 8) (by omega)
  obtain ⟨hrest, hrest'⟩ := subInt_eq (a := (length - 16).toInt32 - 8) (b := size.toInt32)
    (by omega)
  rw [checkHeader, if_neg hneg, if_neg hlarge]
  simp only [hsub, hrest, bind, Except.bind, UInt32.toUInt32_toInt32]
  by_cases hsmall : (length - 16).toInt32 - 8 - size.toInt32 < 0
  · have hlt := Int32.lt_iff_toInt_lt.1 hsmall
    have h0 : (0 : Int32).toInt = 0 := rfl
    rw [if_neg (by omega), if_pos hsmall]
    exact ⟨_, rfl⟩
  have hge : ¬ ((length - 16).toInt32 - 8 - size.toInt32).toInt < (0 : Int32).toInt :=
    fun h => hsmall (Int32.lt_iff_toInt_lt.2 h)
  have h0 : (0 : Int32).toInt = 0 := rfl
  have hrest8 : (length - 16 - 8).toNat = length.toNat - 24 := by
    rw [toNat_sub_of_le, hpl] <;> simp <;> omega
  have hbuf : (length - 16 - 8 - size).toNat = length.toNat - 24 - size.toNat := by
    rw [toNat_sub_of_le (by omega), hrest8]
  have hlarge' : ¬ length - 16 < length - 16 - 8 - size := by
    intro h
    have hlt : (length - 16).toNat < (length - 16 - 8 - size).toNat := h
    omega
  have htoNat : size.toInt32.toInt.toNat = size.toNat := by omega
  rw [if_pos (by omega), if_neg hsmall, if_neg hlarge', if_neg (by omega), htoNat, hbuf]
  rfl
/-! ### The header -/

section Header

variable {packet : StreamPacketDesc} {bytes : List UInt8}

/-- The words that `parseHeader` checks are the last two before the marker. -/
theorem parseHeader_eq_checkHeader (hdata : packet.data = some bytes)
    (hlen : 24 ≤ packet.length.toNat) :
    parseHeader (some packet) =
      checkHeader packet.length (wordAt bytes (packet.length.toNat - 20)).toInt32
        (wordAt bytes (packet.length.toNat - 24)).toInt32 := by
  have hpl : (packet.length - 16).toNat = packet.length.toNat - 16 :=
    toNat_sub_of_le (by simpa using by omega)
  have hlt : ¬ packet.length < 24 := fun h => absurd hlen (Nat.not_le.2 h)
  have hsize : readIntLE packet (((packet.length - 16).toNat : ℤ) - 4) =
      .ok (wordAt bytes (packet.length.toNat - 20)).toInt32 := by
    rw [← readIntLE_eq hdata (by omega)]
    congr 1
    omega
  have htype : readIntLE packet (((packet.length - 16).toNat : ℤ) - 8) =
      .ok (wordAt bytes (packet.length.toNat - 24)).toInt32 := by
    rw [← readIntLE_eq hdata (by omega)]
    congr 1
    omega
  have hmarker : packet.readBytes ((packet.length - 16).toNat : ℤ) 16 =
      .ok (slice bytes (packet.length - 16).toNat 16) :=
    readBytes_eq hdata (by omega)
  rw [parseHeader, if_neg (by simp [hdata]), if_neg hlt]
  simp only [hsize, htype, hmarker]
  rfl

/-- **What `parseHeader` does.** It returns if the packet is short enough for an `int` and the size
word leaves room for the header, and throws otherwise. -/
theorem parseHeader_eq (hdata : packet.data = some bytes) (hlen : 24 ≤ packet.length.toNat) :
    let size := wordAt bytes (packet.length.toNat - 20)
    let type := wordAt bytes (packet.length.toNat - 24)
    if packet.length.toNat < 2 ^ 31 + 16 ∧ size.toNat + 24 ≤ packet.length.toNat then
      parseHeader (some packet) =
        .ok (type.toInt32, size.toNat, packet.length.toNat - 24 - size.toNat)
    else ∃ what, parseHeader (some packet) = .error (.thrown what) := by
  intro size type
  rw [parseHeader_eq_checkHeader hdata hlen]
  exact checkHeader_eq hlen

theorem parseHeader_of_short (hlen : packet.length.toNat < 24) :
    ∃ what, parseHeader (some packet) = .error (.thrown what) := by
  have hlt : packet.length < 24 := hlen
  by_cases hdata : packet.data = none
  · exact ⟨_, by rw [parseHeader, if_pos hdata]⟩
  · exact ⟨_, by rw [parseHeader, if_neg hdata, if_pos hlt]⟩

theorem parseHeader_of_null (hdata : packet.data = none) :
    ∃ what, parseHeader (some packet) = .error (.thrown what) :=
  ⟨_, by rw [parseHeader, if_pos hdata]⟩

theorem slice_append (bytes : List UInt8) (i m n : ℕ) :
    slice bytes i (m + n) = slice bytes i m ++ slice bytes (i + m) n := by
  rw [slice, slice, slice, List.take_add, List.drop_drop]

theorem parseHeader_cases (packet : Option StreamPacketDesc) :
    (∃ what, parseHeader packet = .error (.thrown what)) ∨
      ∃ p bytes type m b, packet = some p ∧ p.data = some bytes ∧
        parseHeader packet = .ok (type, m, b) ∧ b + m + 24 = p.length.toNat ∧
        type = (wordAt bytes (b + m)).toInt32 ∧ m = (wordAt bytes (b + m + 4)).toNat := by
  cases packet with
  | none => exact .inl ⟨_, rfl⟩
  | some p =>
    cases hdata : p.data with
    | none => exact .inl (parseHeader_of_null hdata)
    | some bytes =>
      by_cases hlen : 24 ≤ p.length.toNat
      · have h := parseHeader_eq hdata hlen
        dsimp only at h
        split at h
        · rename_i hsize
          refine .inr ⟨p, bytes, _, _, _, rfl, hdata, h, by omega, ?_, ?_⟩ <;> congr 2 <;> omega
        · exact .inl h
      · exact .inl (parseHeader_of_short (by omega))

theorem take_eq_slices (bytes : List UInt8) {length b m : ℕ} (h : b + m + 24 = length) :
    bytes.take length = slice bytes 0 b ++ slice bytes b m ++ slice bytes (b + m) 4 ++
      slice bytes (b + m + 4) 4 ++ slice bytes (b + m + 8) 16 := by
  have hslice : bytes.take length = slice bytes 0 (b + m + 4 + 4 + 16) := by
    simp only [slice, List.drop_zero, ← h]
  rw [hslice, slice_append, slice_append, slice_append, slice_append]
  simp only [Nat.zero_add]

/-- **`parseHeader` is safe on any packet.** It throws, or returns a size `m` of the metadata and a
size `b` of the payload such that payload, metadata, the two words and the marker tile the packet,
and the words are the object type and `m`. It never reads outside the packet and never overflows. -/
theorem parseHeader_safe (packet : Option StreamPacketDesc) :
    (∃ what, parseHeader packet = .error (.thrown what)) ∨
      ∃ p bytes type m b, packet = some p ∧ p.data = some bytes ∧
        parseHeader packet = .ok (type, m, b) ∧ b + m + 24 = p.length.toNat ∧
        bytes.take p.length.toNat = slice bytes 0 b ++ slice bytes b m ++ slice bytes (b + m) 4 ++
          slice bytes (b + m + 4) 4 ++ slice bytes (b + m + 8) 16 ∧
        type = (wordAt bytes (b + m)).toInt32 ∧ m = (wordAt bytes (b + m + 4)).toNat := by
  rcases parseHeader_cases packet with hthrown | ⟨p, bytes, type, m, b, rfl, hdata, h, hlen, hwords⟩
  · exact .inl hthrown
  · exact .inr ⟨p, bytes, type, m, b, rfl, hdata, h, hlen, take_eq_slices bytes hlen, hwords⟩

end Header

/-! ### What was serialised is found -/

/-- A packet that is all of `bytes`. -/
def StreamPacketDesc.ofBytes (bytes : List UInt8) (fd : ℤ) : StreamPacketDesc where
  data := some bytes
  length := UInt32.ofNat bytes.length
  fd := fd
  length_le := by
    rintro _ ⟨⟩
    rw [UInt32.toNat_ofNat']
    exact Nat.mod_le _ _

theorem StreamPacketDesc.toNat_length_ofBytes {bytes : List UInt8}
    (h : bytes.length < 2 ^ 32) (fd : ℤ) : (ofBytes bytes fd).length.toNat = bytes.length := by
  rw [ofBytes, UInt32.toNat_ofNat', Nat.mod_eq_of_lt h]

theorem serializePacket_eq (metadata : List UInt8) (datatype : Int32) :
    serializePacket metadata datatype =
      metadata ++ encode 4 datatype.toUInt32.toNat ++
        encode 4 (UInt32.ofNat metadata.length).toNat ++ endOfPacketMarker := by
  rw [serializePacket, map_sshifts, map_shifts]

@[simp]
theorem length_serializePacket (metadata : List UInt8) (datatype : Int32) :
    (serializePacket metadata datatype).length = metadata.length + 24 := by
  rw [serializePacket_eq]
  simp [endOfPacketMarker]

theorem slice_append_middle (front middle rest : List UInt8) :
    slice (front ++ middle ++ rest) front.length middle.length = middle := by
  simp [slice, List.append_assoc]

theorem slice_payload (payload metadata : List UInt8) (datatype : Int32) :
    slice (payload ++ serializePacket metadata datatype) 0 payload.length = payload := by
  simp [slice]

theorem slice_metadata (payload metadata : List UInt8) (datatype : Int32) :
    slice (payload ++ serializePacket metadata datatype) payload.length metadata.length =
      metadata := by
  rw [serializePacket_eq]
  simpa only [List.append_assoc] using slice_append_middle payload metadata
    (encode 4 datatype.toUInt32.toNat ++ (encode 4 (UInt32.ofNat metadata.length).toNat ++
      endOfPacketMarker))

theorem wordAt_append (front rest : List UInt8) (w : UInt32) :
    wordAt (front ++ encode 4 w.toNat ++ rest) front.length = w := by
  have hslice := slice_append_middle front (encode 4 w.toNat) rest
  rw [length_encode] at hslice
  rw [wordAt, hslice, decode_encode]
  apply UInt32.toNat.inj
  have hw : w.toNat < 256 ^ 4 := w.toNat_lt
  rw [UInt32.toNat_ofNat', Nat.mod_eq_of_lt hw, Nat.mod_eq_of_lt w.toNat_lt]

/-- `parseHeader` finds the parts of a packet that was put together with `serializePacket`. -/
theorem parseHeader_serializePacket {packet : StreamPacketDesc} {payload metadata : List UInt8}
    {datatype : Int32} (hdata : packet.data = some (payload ++ serializePacket metadata datatype))
    (hlen : packet.length.toNat = payload.length + metadata.length + 24)
    (hsize : payload.length + metadata.length + 24 < 2 ^ 31 + 16) :
    parseHeader (some packet) = .ok (datatype, metadata.length, payload.length) := by
  have htoNat : (UInt32.ofNat metadata.length).toNat = metadata.length := by
    rw [UInt32.toNat_ofNat']
    omega
  have htype : wordAt (payload ++ serializePacket metadata datatype)
      (packet.length.toNat - 24) = datatype.toUInt32 := by
    have hoff : packet.length.toNat - 24 = (payload ++ metadata).length := by
      simp only [List.length_append]
      omega
    rw [hoff, serializePacket_eq]
    simpa only [List.append_assoc] using wordAt_append (payload ++ metadata)
      (encode 4 (UInt32.ofNat metadata.length).toNat ++ endOfPacketMarker) datatype.toUInt32
  have hword : wordAt (payload ++ serializePacket metadata datatype)
      (packet.length.toNat - 20) = UInt32.ofNat metadata.length := by
    have hoff : packet.length.toNat - 20 =
        (payload ++ metadata ++ encode 4 datatype.toUInt32.toNat).length := by
      simp only [List.length_append, length_encode]
      omega
    rw [hoff, serializePacket_eq]
    simpa only [List.append_assoc] using
      wordAt_append (payload ++ metadata ++ encode 4 datatype.toUInt32.toNat)
        endOfPacketMarker (UInt32.ofNat metadata.length)
  have h := parseHeader_eq hdata (by omega)
  dsimp only at h
  rw [hword, htype, htoNat, if_pos (by omega)] at h
  rw [h, hlen, Int32.toInt32_toUInt32]
  congr 3
  omega

end DepthaiCore
