import DepthaiCore.Datatype.StreamMessageParser

/-!
# Messages as stream packets

`serializeMetadata` turns a message into the bytes that follow its payload, and `parseMessage`
rebuilds a message from a packet. In between lies libnop, which is not part of the repository: a
`Codec` says which members a datatype has and how `utility::serialize` and `utility::deserialize`
turn them into bytes and back, and all that is ever assumed about it is that what was serialised
can be deserialised.

`Fields` are the members that `DEPTHAI_SERIALIZE` lists. A pointer to another message among them,
as in `MessageGroup::group`, is encoded by nothing but its place: the key of a group stays, the
member does not.
-/

namespace DepthaiCore

/-- `DatatypeEnum`, in the order of the source. -/
inductive DatatypeEnum
  | ADatatype | Buffer | ImgFrame | EncodedFrame | SegmentationMask | GateControl | NNData
  | ImageManipConfig | CameraControl | ImgDetections | SpatialImgDetections | SystemInformation
  | SystemInformationRVC4 | SpatialLocationCalculatorConfig | SpatialLocationCalculatorData
  | EdgeDetectorConfig | AprilTagConfig | AprilTags | Tracklets | IMUData | StereoDepthConfig
  | NeuralDepthConfig | GPUStereoConfig | FeatureTrackerConfig | ThermalConfig | ToFConfig
  | TrackedFeatures | BenchmarkReport | MessageGroup | MapData | TransformData | PointCloudConfig
  | PointCloudData | RGBDData | ImageAlignConfig | ImgAnnotations | ImageFiltersConfig
  | ToFDepthConfidenceFilterConfig | ObjectTrackerConfig | DynamicCalibrationControl
  | DynamicCalibrationResult | AutoCalibrationConfig | AutoCalibrationResult | CalibrationQuality
  | CalibrationMetrics | CoverageData | SegmentationParserConfig | PipelineEvent | PipelineState
  | PipelineEventAggregationConfig | VppConfig | PacketizedData | Transformable | COUNT
  deriving DecidableEq, Repr

theorem DatatypeEnum.buffer_ne : Buffer ≠ COUNT := by decide

/-- The enumerators, each at the place that is its value. -/
def DatatypeEnum.enumerators : List DatatypeEnum :=
  [.ADatatype, .Buffer, .ImgFrame, .EncodedFrame, .SegmentationMask, .GateControl, .NNData,
    .ImageManipConfig, .CameraControl, .ImgDetections, .SpatialImgDetections, .SystemInformation,
    .SystemInformationRVC4, .SpatialLocationCalculatorConfig, .SpatialLocationCalculatorData,
    .EdgeDetectorConfig, .AprilTagConfig, .AprilTags, .Tracklets, .IMUData, .StereoDepthConfig,
    .NeuralDepthConfig, .GPUStereoConfig, .FeatureTrackerConfig, .ThermalConfig, .ToFConfig,
    .TrackedFeatures, .BenchmarkReport, .MessageGroup, .MapData, .TransformData,
    .PointCloudConfig, .PointCloudData, .RGBDData, .ImageAlignConfig, .ImgAnnotations,
    .ImageFiltersConfig, .ToFDepthConfidenceFilterConfig, .ObjectTrackerConfig,
    .DynamicCalibrationControl, .DynamicCalibrationResult, .AutoCalibrationConfig,
    .AutoCalibrationResult, .CalibrationQuality, .CalibrationMetrics, .CoverageData,
    .SegmentationParserConfig, .PipelineEvent, .PipelineState, .PipelineEventAggregationConfig,
    .VppConfig, .PacketizedData, .Transformable, .COUNT]

/-- The value of an enumerator. -/
def DatatypeEnum.toInt32 (kind : DatatypeEnum) : Int32 :=
  Int32.ofNat (enumerators.idxOf kind)

/-- The enumerator with a value; a value read from a packet may have none. -/
def DatatypeEnum.ofInt32? (value : Int32) : Option DatatypeEnum :=
  enumerators.find? fun kind => kind.toInt32 = value

@[simp]
theorem DatatypeEnum.ofInt32?_toInt32 (kind : DatatypeEnum) :
    ofInt32? kind.toInt32 = some kind := by
  cases kind <;> decide

/-- What libnop makes of one datatype. -/
structure Codec where
  /-- The serialised members. -/
  Fields : Type
  /-- The members of a default-constructed object. -/
  init : Fields
  /-- `utility::serialize` -/
  serialize : Fields → List UInt8
  /-- `utility::deserialize` into a default-constructed object, or the text of its exception. -/
  deserialize : List UInt8 → Except String Fields

/-- What was serialised can be deserialised. -/
def Codec.Inverts (c : Codec) : Prop :=
  ∀ fields, c.deserialize (c.serialize fields) = .ok fields

/-- The datatypes as one build of the library has them. -/
structure Build where
  /-- Whether `DEPTHAI_HAVE_DYNAMIC_CALIBRATION_SUPPORT` is defined. -/
  dynamicCalibrationSupport : Bool
  /-- The members of each datatype and their serialisation. -/
  codec : DatatypeEnum → Codec
  /-- The keys of `MessageGroup::group`, in their order. -/
  groupKeys : (codec .MessageGroup).Fields → List String
  /-- `PacketizedData::numPackets` -/
  numPackets : (codec .PacketizedData).Fields → UInt32
  /-- `PacketizedData::totalSize` -/
  totalSize : (codec .PacketizedData).Fields → UInt32

/-- `utility::deserialize` inverts `utility::serialize`. -/
def Build.Inverts (B : Build) : Prop :=
  ∀ kind, (B.codec kind).Inverts

/-- The kinds of `Memory` that a message may hold its payload in. -/
inductive Memory
  /-- `VectorMemory` -/
  | vector (bytes : List UInt8)
  /-- `SharedMemory`, by its descriptor. -/
  | shared (fd : ℤ)
  deriving DecidableEq, Repr

/-- A message: its dynamic type, its members and its payload. -/
structure ADatatype (B : Build) where
  /-- The type, as `serialize` reports it. -/
  kind : DatatypeEnum
  /-- The serialised members. -/
  fields : (B.codec kind).Fields
  /-- The payload. -/
  data : Memory

variable {B : Build}

/-! ### Serialisation -/

/-- `serialize`: the metadata. `ADatatype` has none, and `AprilTagConfig` leaves out its own. -/
def ADatatype.serialize (message : ADatatype B) : List UInt8 :=
  match message.kind with
  | .ADatatype | .AprilTagConfig => []
  | _ => (B.codec message.kind).serialize message.fields

def serializeMetadata (message : ADatatype B) : List UInt8 :=
  serializePacket message.serialize message.kind.toInt32

/-! ### Parsing -/

/-- The cases of the switch in `parseMessage` that call `parseDatatype`. -/
def Build.parses (B : Build) : DatatypeEnum → Bool
  | .ADatatype | .Transformable | .COUNT => false
  | .DynamicCalibrationControl | .DynamicCalibrationResult | .AutoCalibrationConfig
  | .AutoCalibrationResult | .CalibrationQuality | .CalibrationMetrics | .CoverageData =>
    B.dynamicCalibrationSupport
  | _ => true

def parseDatatype (B : Build) (kind : DatatypeEnum) (metadata data : List UInt8) (fd : ℤ) :
    Except Fault (ADatatype B) :=
  match (B.codec kind).deserialize metadata with
  | .error what => .error (.thrown what)
  | .ok fields => .ok ⟨kind, fields, if fd < 0 then .vector data else .shared fd⟩

/-- What `parseMessage` throws for a `Transformable`. -/
def transformableError : String :=
  "Cannot parse custom Transformable on device; use a supported type such as ImgDetections, " ++
    "AprilTags, or Tracklets or run as host form custom Transformable messages"

/-- The switch of `parseMessage`, on the parts of the packet. -/
def parseObject (B : Build) (objectType : Int32) (metadata data : List UInt8) (fd : ℤ) :
    Except Fault (ADatatype B) :=
  match DatatypeEnum.ofInt32? objectType with
  | none => .error (.thrown "Bad packet, couldn't parse")
  -- The payload of an `ADatatype` is not taken over.
  | some .ADatatype => .ok ⟨.ADatatype, (B.codec _).init, .vector []⟩
  | some .Transformable => .error (.thrown transformableError)
  | some kind =>
    if B.parses kind then parseDatatype B kind metadata data fd
    else .error (.thrown "Bad packet, couldn't parse")

def parseMessage (B : Build) (packet : Option StreamPacketDesc) : Except Fault (ADatatype B) := do
  let (objectType, serializedObjectSize, bufferLength) ← parseHeader packet
  match packet with
  | none => throw .nullPointer
  | some packet =>
    if packet.data = none ∧ 0 < bufferLength then
      throw (.thrown "Bad packet, couldn't parse (null data buffer)")
    else
      let data ← packet.readBytes 0 bufferLength
      let metadata ← packet.readBytes bufferLength serializedObjectSize
      parseObject B objectType metadata data packet.fd

/-! ### The switch -/

@[simp]
theorem parseObject_ADatatype (metadata data : List UInt8) (fd : ℤ) :
    parseObject B DatatypeEnum.ADatatype.toInt32 metadata data fd =
      .ok ⟨.ADatatype, (B.codec _).init, .vector []⟩ := by
  rw [parseObject, DatatypeEnum.ofInt32?_toInt32]

@[simp]
theorem parseObject_Transformable (metadata data : List UInt8) (fd : ℤ) :
    parseObject B DatatypeEnum.Transformable.toInt32 metadata data fd =
      .error (.thrown transformableError) := by
  rw [parseObject, DatatypeEnum.ofInt32?_toInt32]

theorem parseObject_eq {kind : DatatypeEnum} (hA : kind ≠ .ADatatype) (hT : kind ≠ .Transformable)
    (metadata data : List UInt8) (fd : ℤ) :
    parseObject B kind.toInt32 metadata data fd =
      if B.parses kind then parseDatatype B kind metadata data fd
      else .error (.thrown "Bad packet, couldn't parse") := by
  rw [parseObject, DatatypeEnum.ofInt32?_toInt32]
  split
  · contradiction
  · rename_i heq
    exact absurd (Option.some.inj heq) hA
  · rename_i heq
    exact absurd (Option.some.inj heq) hT
  · rename_i heq
    cases heq
    rfl

/-- A type with a case of its own is neither `ADatatype` nor `Transformable`. -/
theorem parseObject_of_parses {kind : DatatypeEnum} (h : B.parses kind) (metadata data : List UInt8)
    (fd : ℤ) :
    parseObject B kind.toInt32 metadata data fd = parseDatatype B kind metadata data fd := by
  rw [parseObject_eq (by rintro rfl; exact Bool.noConfusion h)
    (by rintro rfl; exact Bool.noConfusion h), if_pos h]

theorem kind_of_parseObject {kind : DatatypeEnum} {metadata data : List UInt8} {fd : ℤ}
    {message : ADatatype B} (h : parseObject B kind.toInt32 metadata data fd = .ok message) :
    message.kind = kind := by
  by_cases hA : kind = .ADatatype
  · subst hA
    rw [parseObject_ADatatype] at h
    cases h
    rfl
  by_cases hT : kind = .Transformable
  · subst hT
    rw [parseObject_Transformable] at h
    cases h
  rw [parseObject_eq hA hT] at h
  split at h
  · rw [parseDatatype] at h
    split at h
    · cases h
    · cases h
      rfl
  · cases h

theorem parseObject_safe (objectType : Int32) (metadata data : List UInt8) (fd : ℤ) :
    (∃ message, parseObject B objectType metadata data fd = .ok message) ∨
      ∃ what, parseObject B objectType metadata data fd = .error (.thrown what) := by
  rw [parseObject]
  split
  · exact .inr ⟨_, rfl⟩
  · exact .inl ⟨_, rfl⟩
  · exact .inr ⟨_, rfl⟩
  · split
    · rw [parseDatatype]
      split
      · exact .inr ⟨_, rfl⟩
      · exact .inl ⟨_, rfl⟩
    · exact .inr ⟨_, rfl⟩

/-- **`parseMessage` is safe on any packet.** It returns a message or throws. -/
theorem parseMessage_safe (packet : Option StreamPacketDesc) :
    (∃ message, parseMessage B packet = .ok message) ∨
      ∃ what, parseMessage B packet = .error (.thrown what) := by
  rcases parseHeader_cases packet with ⟨what, h⟩ | ⟨p, bytes, type, m, b, rfl, hdata, h, hlen, -⟩
  · exact .inr ⟨what, by simp only [parseMessage, h, bind, Except.bind]⟩
  · have hpayload : p.readBytes 0 b = .ok (slice bytes 0 b) := by
      exact_mod_cast readBytes_eq hdata (i := 0) (by omega)
    have hmetadata : p.readBytes b m = .ok (slice bytes b m) := readBytes_eq hdata (by omega)
    have hparse : parseMessage B (some p) =
        parseObject B type (slice bytes b m) (slice bytes 0 b) p.fd := by
      simp only [parseMessage, h, hpayload, hmetadata, hdata, bind, Except.bind, reduceCtorEq,
        false_and, if_false]
    rw [hparse]
    exact parseObject_safe _ _ _ _

theorem ADatatype.serialize_eq {message : ADatatype B} (hA : message.kind ≠ .ADatatype)
    (hC : message.kind ≠ .AprilTagConfig) :
    message.serialize = (B.codec message.kind).serialize message.fields := by
  rw [ADatatype.serialize]
  split <;> first | contradiction | rfl

/-! ### The round trip -/

/-- A packet that was put together is taken apart, and the switch sees its parts. -/
theorem parseMessage_serializePacket {packet : StreamPacketDesc} {payload metadata : List UInt8}
    {datatype : Int32} (hdata : packet.data = some (payload ++ serializePacket metadata datatype))
    (hlen : packet.length.toNat = payload.length + metadata.length + 24)
    (hsize : payload.length + metadata.length + 24 < 2 ^ 31 + 16) :
    parseMessage B (some packet) = parseObject B datatype metadata payload packet.fd := by
  have hheader := parseHeader_serializePacket hdata hlen hsize
  have hpayload : packet.readBytes 0 payload.length = .ok payload := by
    have h := readBytes_eq hdata (i := 0) (n := payload.length) (by omega)
    rwa [slice_payload] at h
  have hmetadata : packet.readBytes payload.length metadata.length = .ok metadata := by
    have h := readBytes_eq hdata (i := payload.length) (n := metadata.length) (by omega)
    rwa [slice_metadata] at h
  simp only [parseMessage, hheader, hpayload, hmetadata, hdata, bind, Except.bind, reduceCtorEq,
    false_and, if_false]

theorem parseMessage_of_long {packet : StreamPacketDesc} {bytes : List UInt8}
    (hdata : packet.data = some bytes) (hlen : 2 ^ 31 + 16 ≤ packet.length.toNat) :
    ∃ what, parseMessage B (some packet) = .error (.thrown what) := by
  have h := parseHeader_eq hdata (by omega)
  dsimp only at h
  rw [if_neg (by omega)] at h
  obtain ⟨what, h⟩ := h
  refine ⟨what, ?_⟩
  simp only [parseMessage, h, bind, Except.bind]

theorem parseDatatype_serialize (hB : B.Inverts) {message : ADatatype B}
    (hA : message.kind ≠ .ADatatype) (hC : message.kind ≠ .AprilTagConfig) {payload : List UInt8}
    (hdata : message.data = .vector payload) :
    parseDatatype B message.kind message.serialize payload (-1) = .ok message := by
  rw [ADatatype.serialize_eq hA hC, parseDatatype, hB message.kind]
  obtain ⟨kind, fields, data⟩ := message
  simp only at hdata
  simp only [hdata]
  rfl

/-- **The round trip of a stream packet.** For every metadata, payload and 32-bit datatype value of
less than `2 ^ 31` bytes together, `parseHeader` finds the datatype and the two sizes, and the
slices at them are the metadata and the payload. So `parseMessage` rebuilds a message of any type
that it has a case for and that serialises its members; an `ADatatype` comes back without payload,
and any other type is refused. -/
theorem parseMessage_serializeMetadata (hB : B.Inverts) :
    (∀ (payload metadata : List UInt8) (datatype : Int32) (fd : ℤ),
      payload.length + metadata.length + 24 < 2 ^ 31 →
      let bytes := payload ++ serializePacket metadata datatype
      parseHeader (some (.ofBytes bytes fd)) = .ok (datatype, metadata.length, payload.length) ∧
        slice bytes payload.length metadata.length = metadata ∧
        slice bytes 0 payload.length = payload) ∧
    ∀ (message : ADatatype B) (payload : List UInt8), message.data = .vector payload →
      payload.length + message.serialize.length + 24 < 2 ^ 31 →
      let parsed := parseMessage B (some (.ofBytes (payload ++ serializeMetadata message) (-1)))
      (B.parses message.kind → message.kind ≠ .AprilTagConfig → parsed = .ok message) ∧
        (message.kind = .ADatatype → parsed = .ok ⟨.ADatatype, (B.codec _).init, .vector []⟩) ∧
        (message.kind = .Transformable → parsed = .error (.thrown transformableError)) ∧
        (B.parses message.kind = false → message.kind ≠ .ADatatype →
          message.kind ≠ .Transformable →
          parsed = .error (.thrown "Bad packet, couldn't parse")) := by
  have hlength : ∀ (payload metadata : List UInt8) (datatype : Int32) (fd : ℤ),
      payload.length + metadata.length + 24 < 2 ^ 31 →
      (StreamPacketDesc.ofBytes (payload ++ serializePacket metadata datatype) fd).length.toNat =
        payload.length + metadata.length + 24 := by
    intro payload metadata datatype fd hsize
    have hbytes : (payload ++ serializePacket metadata datatype).length =
        payload.length + metadata.length + 24 := by
      simp only [List.length_append, length_serializePacket]
      omega
    rw [StreamPacketDesc.toNat_length_ofBytes (by omega) fd, hbytes]
  refine ⟨fun payload metadata datatype fd hsize => ⟨?_, ?_, ?_⟩, ?_⟩
  · exact parseHeader_serializePacket rfl (hlength _ _ _ _ hsize) (by omega)
  · exact slice_metadata payload metadata datatype
  · exact slice_payload payload metadata datatype
  · intro message payload hdata hsize parsed
    have hparsed : parsed =
        parseObject B message.kind.toInt32 message.serialize payload (-1) :=
      parseMessage_serializePacket rfl (hlength _ _ _ _ hsize) (by omega)
    rw [hparsed]
    refine ⟨fun hkind hC => ?_, fun hkind => ?_, fun hkind => ?_, fun hkind hA hT => ?_⟩
    · rw [parseObject_of_parses hkind]
      refine parseDatatype_serialize hB ?_ hC hdata
      intro h
      rw [h] at hkind
      exact Bool.noConfusion hkind
    · rw [hkind, parseObject_ADatatype]
    · rw [hkind, parseObject_Transformable]
    · rw [parseObject_eq hA hT, hkind]
      rfl

/-! ### A build to run -/

/-- A codec of finitely many values, which finds a value by its bytes. -/
def Codec.ofTable {α : Type} (values : List α) (init : α) (serialize : α → List UInt8) :
    Codec where
  Fields := α
  init := init
  serialize := serialize
  deserialize bytes :=
    match values.find? fun a => serialize a = bytes with
    | some a => .ok a
    | none => .error "Unexpected encoding type!"

theorem Codec.ofTable_inverts {α : Type} {values : List α} {init : α} {serialize : α → List UInt8}
    (hmem : ∀ a, a ∈ values) (hinj : Function.Injective serialize) :
    (ofTable values init serialize).Inverts := by
  intro a
  have hsome : (values.find? fun b => serialize b = serialize a).isSome :=
    List.find?_isSome.2 ⟨a, hmem a, decide_eq_true rfl⟩
  obtain ⟨b, hb⟩ := Option.isSome_iff_exists.1 hsome
  have hba : serialize b = serialize a := by simpa using List.find?_some hb
  show (match values.find? fun b => serialize b = serialize a with
    | some b => Except.ok b
    | none => .error "Unexpected encoding type!") = .ok a
  rw [hb, hinj hba]

/-- Groups without keys, and groups with the keys `left` and `right`. -/
def Codec.groups : Codec :=
  .ofTable [false, true] false fun full : Bool =>
    [0xB9, 4, 0xBB] ++
      (if full then [2, 0xBD, 4, 0x6C, 0x65, 0x66, 0x74, 0xBE, 0xBD, 5, 0x72, 0x69, 0x67, 0x68,
        0x74, 0xBE] else [0]) ++
      [0xB9, 2, 0, 0, 0xB9, 2, 0, 0, 0]

/-- `PacketizedData` with numbers that are encoded in one byte. -/
def Codec.packetized : Codec where
  Fields := Fin 128 × Fin 128
  init := (0, 0)
  serialize n := [0xB9, 2, UInt8.ofNat n.1, UInt8.ofNat n.2]
  deserialize
    | [0xB9, 2, a, b] =>
      if h : a.toNat < 128 ∧ b.toNat < 128 then .ok (⟨a.toNat, h.1⟩, ⟨b.toNat, h.2⟩)
      else .error "Unexpected encoding type!"
    | _ => .error "Unexpected encoding type!"

/-- A build that has these groups and `PacketizedData`, and other datatypes with no members set. -/
def Build.sample : Build where
  dynamicCalibrationSupport := false
  codec
    | .MessageGroup => .groups
    | .PacketizedData => .packetized
    | _ => .ofTable [()] () fun _ => [0xB9, 3, 0, 0xB9, 2, 0, 0, 0xB9, 2, 0, 0]
  groupKeys := fun full : Bool => if full then ["left", "right"] else []
  numPackets := fun n : Fin 128 × Fin 128 => UInt32.ofNat n.1
  totalSize := fun n : Fin 128 × Fin 128 => UInt32.ofNat n.2

theorem Codec.packetized_inverts : packetized.Inverts := by
  rintro ⟨a, b⟩
  have ha : (UInt8.ofNat a).toNat = a := by
    rw [UInt8.toNat_ofNat']
    omega
  have hb : (UInt8.ofNat b).toNat = b := by
    rw [UInt8.toNat_ofNat']
    omega
  have hlt : (UInt8.ofNat a).toNat < 128 ∧ (UInt8.ofNat b).toNat < 128 := by omega
  refine (dif_pos hlt).trans (congrArg Except.ok (Prod.ext (Fin.ext ha) (Fin.ext hb)))

theorem Build.sample_inverts : sample.Inverts := by
  intro kind
  show (match kind with
    | .MessageGroup => Codec.groups
    | .PacketizedData => Codec.packetized
    | _ => Codec.ofTable [()] () fun _ => _).Inverts
  split
  · exact Codec.ofTable_inverts (by decide) (by decide)
  · exact Codec.packetized_inverts
  · exact Codec.ofTable_inverts (by decide) (fun _ _ _ => rfl)

/-- A `PacketizedData` message with a payload goes through. -/
theorem parseMessage_serializeMetadata_packetized :
    let message : ADatatype .sample := ⟨.PacketizedData, ((2, 5) : Fin 128 × Fin 128), .vector [7]⟩
    parseMessage .sample (some (.ofBytes ([7] ++ serializeMetadata message) (-1))) = .ok message :=
  ((parseMessage_serializeMetadata Build.sample_inverts).2
    ⟨.PacketizedData, ((2, 5) : Fin 128 × Fin 128), .vector [7]⟩ [7] rfl (by decide)).1 rfl
    (by decide)

/-- A `TransformableBuffer` is not rebuilt. -/
theorem parseMessage_transformable :
    let message : ADatatype .sample := ⟨.Transformable, (), .vector []⟩
    Build.sample.Inverts ∧ ([] : List UInt8).length + message.serialize.length + 24 < 2 ^ 31 ∧
      parseMessage .sample (some (.ofBytes ([] ++ serializeMetadata message) (-1))) ≠
        .ok message := by
  intro message
  refine ⟨Build.sample_inverts, by decide, fun hok => ?_⟩
  have hthrown : parseMessage .sample (some (.ofBytes ([] ++ serializeMetadata message) (-1))) =
      .error (.thrown transformableError) := by
    rw [serializeMetadata, parseMessage_serializePacket rfl (by decide) (by decide)]
    exact parseObject_Transformable _ _ _
  rw [hthrown] at hok
  cases hok

end DepthaiCore
