import DepthaiCore.Datatype.NNDataReadable
import DepthaiCore.Datatype.TensorGeometry
import DepthaiCore.Lib.BlockLayout
import DepthaiCore.Lib.Correspondence
import DepthaiCore.Lib.Loops
import DepthaiCore.Lib.Runs
import Mathlib.Order.CompletePartialOrder

/-!
# Tensors that share the bytes of a message

`addTensor` fills up the bytes to a multiple of `DATA_ALIGNMENT` before it appends a tensor.
`emplaceTensor` reserves room at the end as it is and fills up behind it, so that its tensor is aligned
if what was there before it is. Whatever the order of the calls, `getTensor` should find the numbers that
were added.
-/

namespace DepthaiCore.NN

open BlockLayout (Holds)

variable {T F : Type}

/-! ### The calls -/

/-- The number that is stored in these bytes. -/
def Numbers.load (N : Numbers T F) (dataType : DataType) (bytes : List UInt8) : F :=
  let word := LittleEndian.decode bytes
  match dataType with
  | .U8F => N.ofInt (UInt8.ofNat word).toNat
  | .I8 => N.ofInt (UInt8.ofNat word).toInt8.toInt
  | .U16F => N.ofInt (UInt16.ofNat word).toNat
  | .INT => N.ofInt (UInt32.ofNat word).toInt32.toInt
  | .FP16 => N.fp16_ieee_to_fp32_value (.ofNat word)
  | .FP32 => N.ofFloat (.ofNat word)
  | .FP64 => N.ofDouble (.ofNat word)

namespace NNData

/-- **`emplaceTensor`.** There is no result where `getTensorSize` has none. -/
def emplaceTensor (data : NNData F) (tensor : TensorInfo F) : Option (NNData F) := do
  let offset := data.bytes.length
  let tensorSize ← tensor.getTensorSize
  let reminder := tensorSize % DATA_ALIGNMENT
  let tensorSizeAligned :=
    if reminder ≠ 0 then tensorSize + (DATA_ALIGNMENT - reminder) else tensorSize
  some {
    bytes := data.bytes ++ List.replicate tensorSizeAligned 0
    tensors := data.tensors ++ [{ tensor with offset := .ofNat offset }] }

/-- Why `getTensor` does not return. -/
inductive NoTensor
  | thrown (message : String)
  /-- There are too many elements for a counter of 32 bits. -/
  | endless
  /-- An element is not in the data. -/
  | outside
  deriving DecidableEq

/-- The first byte of an element. The sum has 32 bits where an element has one byte. -/
def elementStart (info : TensorInfo F) (i : ℕ) : ℕ :=
  match info.dataType with
  | .U8F | .I8 => (info.offset + .ofNat i).toNat
  | .U16F | .FP16 | .INT | .FP32 | .FP64 =>
    (info.offset.toNat / info.dataType.size + i) * info.dataType.size

variable (N : Numbers T F) (data : NNData F)

/-- One round of the loop for the type of the tensor. -/
def element (info : TensorInfo F) (i : ℕ) : Except NoTensor F :=
  let start := elementStart info i
  if data.bytes.length < start + info.dataType.size then .error .outside
  else .ok (N.load info.dataType ((data.bytes.drop start).take info.dataType.size))

/-- **`getTensor`:** the shape and the elements in row-major order. -/
def getTensor (name : String) (dequantize : Bool) : Except NoTensor (List ℕ × List F) :=
  match data.tensors.find? fun ti => ti.name = name with
  | none => .error (.thrown "Tensor does not exist")
  | some it =>
    let dims := it.dims.map UInt32.toNat
    if 2 ^ 32 ≤ dims.prod then .error .endless
    else do
      let tensor ← (List.range dims.prod).mapM (data.element N it)
      return (dims, if dequantize && it.quantization then
        tensor.map fun x => N.mul (N.sub x it.qpZp) it.qpScale else tensor)

/-- A call that puts a tensor into the message. -/
inductive PackCall (T F : Type)
  | addTensor (call : Call T)
  | emplaceTensor (tensor : TensorInfo F)

/-- The name of the tensor. -/
def PackCall.name : PackCall T F → String
  | .addTensor call => call.name
  | .emplaceTensor tensor => tensor.name

/-- The number of bytes of the tensor. -/
def PackCall.size : PackCall T F → ℕ
  | .addTensor call => call.tensor.data.length * call.dataType.size
  | .emplaceTensor tensor => tensor.getTensorSize.getD 0

/-- The message after a call that returns. -/
def pack : PackCall T F → Option (NNData F)
  | .addTensor call =>
    (data.addTensor N call.name call.tensor call.dataType call.order).toOption
  | .emplaceTensor tensor => data.emplaceTensor tensor

/-! ### What they should leave -/

/-- The bytes that belong to the tensor of a call. -/
def range (p : PackCall T F × TensorInfo F) : Set ℕ :=
  Set.Ico p.2.offset.toNat (p.2.offset.toNat + p.1.size)

/-- Every call has its description, aligned and inside the bytes. No two of them overlap, and what was
added is found. -/
structure Packed (calls : List (PackCall T F)) : Prop where
  described : calls.map PackCall.name = data.tensors.map TensorInfo.name
  aligned : ∀ info ∈ data.tensors, DATA_ALIGNMENT ∣ info.offset.toNat
  inside : ∀ p ∈ calls.zip data.tensors, p.2.offset.toNat + p.1.size ≤ data.bytes.length
  disjoint : (calls.zip data.tensors).Pairwise fun p q => Disjoint (range p) (range q)
  getTensor_eq : ∀ call, .addTensor call ∈ calls → ∀ dequantize,
    data.getTensor N call.name dequantize =
      .ok (call.tensor.shape, call.tensor.data.map (N.stored call.dataType))

/-- The position and the numbers of a tensor that is added fit into 32 bits. -/
structure Counted (call : Call T) (start : ℕ) : Prop where
  start_lt : start < 2 ^ 32
  extents : ∀ extent ∈ call.tensor.shape, extent < 2 ^ 32
  count : call.tensor.data.length < 2 ^ 32
  size : call.tensor.data.length * call.dataType.size ≤ 2 ^ 32
  single : call.dataType.size = 1 → start + call.tensor.data.length ≤ 2 ^ 32

/-- The call can do its part: nothing has to be filled up in front of a tensor that is emplaced. -/
def Meets : PackCall T F → Prop
  | .addTensor call => Counted call (align data.bytes).length
  | .emplaceTensor _ => DATA_ALIGNMENT ∣ data.bytes.length ∧ data.bytes.length < 2 ^ 32

/-! ### Reading back -/

variable {N : Numbers T F} {data : NNData F} {call : Call T} {start : ℕ}

theorem load_store (dataType : DataType) (x : T) :
    N.load dataType (N.store dataType x) = N.stored dataType x := by
  cases dataType <;> simp [Numbers.load, Numbers.store, Numbers.stored, LittleEndian.decode_encode]

theorem map_toNat_ofNat {shape : List ℕ} (h : ∀ extent ∈ shape, extent < 2 ^ 32) :
    (shape.map UInt32.ofNat).map UInt32.toNat = shape := by
  rw [List.map_map]
  conv_rhs => rw [← List.map_id shape]
  refine List.map_congr_left fun extent hextent => ?_
  rw [Function.comp_apply, UInt32.toNat_ofNat', Nat.mod_eq_of_lt (h extent hextent), id]

theorem Counted.elementStart_eq (h : Counted call start) (haligned : DATA_ALIGNMENT ∣ start) {k : ℕ}
    (hk : k < call.tensor.data.length) :
    elementStart (describe N call.name call.tensor call.dataType call.order start) k =
      start + k * call.dataType.size := by
  have hstart : (UInt32.ofNat start).toNat = start := by
    rw [UInt32.toNat_ofNat', Nat.mod_eq_of_lt h.start_lt]
  have hbyte : call.dataType.size = 1 →
      (UInt32.ofNat start + UInt32.ofNat k).toNat = start + k * call.dataType.size := by
    intro hsize
    have hsingle := h.single hsize
    rw [UInt32.toNat_add, hstart, UInt32.toNat_ofNat', hsize, Nat.mul_one,
      Nat.mod_eq_of_lt (a := k) (by omega), Nat.mod_eq_of_lt (by omega)]
  have hwide : call.dataType.size ∣ 64 → ((UInt32.ofNat start).toNat / call.dataType.size + k) *
      call.dataType.size = start + k * call.dataType.size := by
    intro hsize
    rw [hstart, Nat.add_mul, Nat.div_mul_cancel (hsize.trans haligned)]
  rw [elementStart]
  cases htype : call.dataType <;> rw [htype] at hbyte hwide
  case U8F | I8 => exact hbyte rfl
  all_goals exact hwide (by decide)

/-- **An element is read as it was stored.** -/
theorem element_eq (h : Counted call start) (haligned : DATA_ALIGNMENT ∣ start)
    (hholds : Holds data.bytes start (call.tensor.data.flatMap (N.store call.dataType))) {k : ℕ} {x : T}
    (hx : call.tensor.data[k]? = some x) :
    data.element N (describe N call.name call.tensor call.dataType call.order start) k =
      .ok (N.stored call.dataType x) := by
  have hk : k < call.tensor.data.length := (List.getElem?_eq_some_iff.1 hx).1
  have hlast : (k + 1) * call.dataType.size ≤ call.tensor.data.length * call.dataType.size :=
    Nat.mul_le_mul_right _ hk
  rw [Nat.succ_mul] at hlast
  have hlength := RowMajor.length_flatMap fun a (_ : a ∈ call.tensor.data) =>
    length_store (N := N) call.dataType a
  have hinside := hholds.inside
  rw [element, h.elementStart_eq haligned hk]
  show (if _ < start + k * call.dataType.size + call.dataType.size then _ else _) = _
  rw [if_neg (by omega)]
  show Except.ok (N.load call.dataType ((data.bytes.drop _).take call.dataType.size)) = _
  rw [hholds.take_drop (by omega), RowMajor.take_drop_flatMap (fun a _ => length_store _ a) hx, load_store]

/-- **A tensor is returned as it was added,** if its name leads to its description. -/
theorem getTensor_eq (h : Counted call start) (haligned : DATA_ALIGNMENT ∣ start)
    (hholds : Holds data.bytes start (call.tensor.data.flatMap (N.store call.dataType)))
    (hfind : (data.tensors.find? fun ti => ti.name = call.name) =
      some (describe N call.name call.tensor call.dataType call.order start)) (dequantize : Bool) :
    data.getTensor N call.name dequantize =
      .ok (call.tensor.shape, call.tensor.data.map (N.stored call.dataType)) := by
  have hdims : ((describe N call.name call.tensor call.dataType call.order start).dims.map
      UInt32.toNat) = call.tensor.shape := map_toNat_ofNat h.extents
  have hcount : call.tensor.shape.prod < 2 ^ 32 := call.tensor.length ▸ h.count
  -- Element by element, the loop returns what was stored.
  have hloop : (List.range call.tensor.shape.prod).mapM
      (data.element N (describe N call.name call.tensor call.dataType call.order start)) =
        .ok (call.tensor.data.map (N.stored call.dataType)) := by
    have hlength : call.tensor.shape.prod =
        (call.tensor.data.map (N.stored call.dataType)).length := by
      rw [List.length_map, call.tensor.length]
    rw [hlength]
    refine Loop.mapM_range_eq_ok fun i b hb => ?_
    rw [List.getElem?_map] at hb
    obtain ⟨x, hx, rfl⟩ := Option.map_eq_some_iff.1 hb
    exact element_eq h haligned hholds hx
  rw [getTensor, hfind]
  simp only [hdims]
  rw [if_neg (by omega), hloop]
  cases dequantize <;> rfl

/-! ### One call -/

/-- What a call leaves in the message. -/
structure Placed (N : Numbers T F) (bytes : List UInt8) (call : PackCall T F) (info : TensorInfo F) :
    Prop where
  name : info.name = call.name
  aligned : DATA_ALIGNMENT ∣ info.offset.toNat
  inside : info.offset.toNat + call.size ≤ bytes.length
  added : ∀ c, call = .addTensor c → ∃ start,
    info = describe N c.name c.tensor c.dataType c.order start ∧ Counted c start ∧
      DATA_ALIGNMENT ∣ start ∧ Holds bytes start (c.tensor.data.flatMap (N.store c.dataType))

theorem Placed.mono {bytes bytes' : List UInt8} {call : PackCall T F} {info : TensorInfo F}
    (h : Placed N bytes call info) (hinitial : bytes <+: bytes') : Placed N bytes' call info := by
  refine ⟨h.name, h.aligned, h.inside.trans hinitial.length_le, fun c hc => ?_⟩
  obtain ⟨start, hinfo, hcounted, haligned, hholds⟩ := h.added c hc
  obtain ⟨rest, rfl⟩ := hinitial
  exact ⟨start, hinfo, hcounted, haligned, hholds.append_right rest⟩

/-- **What a call does that meets its condition.** -/
theorem placed_of_pack {call : PackCall T F} {data' : NNData F} (h : data.pack N call = some data')
    (hmeets : data.Meets call) : data.bytes <+: data'.bytes ∧
      ∃ info, data'.tensors = data.tensors ++ [info] ∧ data.bytes.length ≤ info.offset.toNat ∧
        Placed N data'.bytes call info := by
  cases call with
  | addTensor call =>
    have hmeets : Counted call (align data.bytes).length := hmeets
    rw [pack, addTensor] at h
    split at h
    case h_2 => cases h
    obtain rfl := Option.some.inj h
    have hoffset : (UInt32.ofNat (align data.bytes).length).toNat = (align data.bytes).length := by
      rw [UInt32.toNat_ofNat', Nat.mod_eq_of_lt hmeets.start_lt]
    have hinitial := prefix_align data.bytes
    refine ⟨hinitial.trans (List.prefix_append _ _), _, rfl, ?_, rfl, ?_, ?_, ?_⟩
    · exact hoffset.symm ▸ hinitial.length_le
    · exact hoffset.symm ▸ dvd_length_align _
    · show (UInt32.ofNat (align data.bytes).length).toNat + _ ≤ _
      rw [hoffset, List.length_append, RowMajor.length_flatMap fun a _ => length_store _ a,
        PackCall.size]
    · rintro c ⟨⟩
      exact ⟨_, rfl, hmeets, dvd_length_align _, Holds.of_append _ _⟩
  | emplaceTensor tensor =>
    obtain ⟨haligned, hlt⟩ := hmeets
    obtain ⟨size, hsize, h⟩ := Option.bind_eq_some_iff.1 h
    obtain rfl := Option.some.inj h
    have hoffset : (UInt32.ofNat data.bytes.length).toNat = data.bytes.length := by
      rw [UInt32.toNat_ofNat', Nat.mod_eq_of_lt hlt]
    refine ⟨List.prefix_append _ _, _, rfl, hoffset.ge, rfl, ?_, ?_, fun c hc => by cases hc⟩
    · exact hoffset.symm ▸ haligned
    · show (UInt32.ofNat data.bytes.length).toNat + _ ≤ _
      rw [hoffset, List.length_append, List.length_replicate, PackCall.size, hsize, Option.getD_some]
      split <;> omega

/-! ### All calls -/

/-- What the calls have left: one tensor behind the other. -/
structure Layout (N : Numbers T F) (calls : List (PackCall T F)) (data : NNData F) : Prop where
  placed : List.Forall₂ (Placed N data.bytes) calls data.tensors
  ordered : (calls.zip data.tensors).Pairwise fun p q =>
    p.2.offset.toNat + p.1.size ≤ q.2.offset.toNat

theorem Layout.inside {calls : List (PackCall T F)} (h : Layout N calls data)
    {p : PackCall T F × TensorInfo F} (hp : p ∈ calls.zip data.tensors) :
    p.2.offset.toNat + p.1.size ≤ data.bytes.length :=
  (List.forall₂_zip h.placed hp).inside

theorem Layout.snoc {calls : List (PackCall T F)} {call : PackCall T F} {data' : NNData F}
    (hlayout : Layout N calls data) (h : data.pack N call = some data') (hmeets : data.Meets call) :
    Layout N (calls ++ [call]) data' := by
  obtain ⟨hinitial, info, htensors, hbehind, hplaced⟩ := placed_of_pack h hmeets
  constructor
  · rw [htensors]
    exact List.rel_append (hlayout.placed.imp fun _ _ hp => hp.mono hinitial)
      (.cons hplaced .nil)
  · rw [htensors, List.zip_append hlayout.placed.length_eq, List.pairwise_append]
    refine ⟨hlayout.ordered, List.pairwise_singleton _ _, fun p hp q hq => ?_⟩
    obtain rfl := List.mem_singleton.1 hq
    exact (hlayout.inside hp).trans hbehind

/-- **The calls leave their tensors one behind the other.** -/
theorem layout_of_run {bytes : List UInt8} {tr : List (NNData F × PackCall T F)}
    (h : Transition.Run (pack N) ⟨bytes, []⟩ tr data) (hmeets : ∀ p ∈ tr, Meets p.1 p.2) :
    Layout N (tr.map Prod.snd) data := by
  induction h with
  | nil => exact ⟨.nil, .nil⟩
  | snoc hrun hstep ih =>
    have hlast := hmeets _ (List.mem_append_right _ (List.mem_singleton_self _))
    rw [List.map_append]
    exact (ih fun p hp => hmeets p (List.mem_append_left _ hp)).snoc hstep hlast

/-- The first description with a name, if no other has it. -/
theorem find?_name {tensors : List (TensorInfo F)} {info : TensorInfo F}
    (hnodup : (tensors.map TensorInfo.name).Nodup) (hinfo : info ∈ tensors) :
    (tensors.find? fun ti => ti.name = info.name) = some info := by
  induction tensors with
  | nil => cases hinfo
  | cons ti tensors ih =>
    rw [List.map_cons, List.nodup_cons] at hnodup
    rcases List.mem_cons.1 hinfo with rfl | hinfo
    · exact List.find?_cons_of_pos (decide_eq_true rfl)
    · have hne : ti.name ≠ info.name := fun heq => hnodup.1 (heq ▸ List.mem_map_of_mem hinfo)
      rw [List.find?_cons_of_neg (by simpa using hne)]
      exact ih hnodup.2 hinfo

theorem Layout.names {calls : List (PackCall T F)} (h : Layout N calls data) :
    calls.map PackCall.name = data.tensors.map TensorInfo.name := by
  have hnames : List.Forall₂ (fun call info => PackCall.name call = TensorInfo.name info) calls
      data.tensors := h.placed.imp fun _ _ hp => hp.name.symm
  rw [← List.forall₂_eq_eq_eq, List.forall₂_map_left_iff, List.forall₂_map_right_iff]
  exact hnames

theorem Layout.packed {calls : List (PackCall T F)} (h : Layout N calls data)
    (hnodup : (calls.map PackCall.name).Nodup) : data.Packed N calls := by
  constructor
  case described => exact h.names
  case aligned =>
    intro info hinfo
    obtain ⟨call, -, hplaced⟩ := h.placed.exists_of_mem_right hinfo
    exact hplaced.aligned
  case inside => exact fun p hp => h.inside hp
  case disjoint =>
    refine h.ordered.imp fun hle => ?_
    rw [Set.disjoint_left]
    rintro i ⟨-, hlt⟩ ⟨hle', -⟩
    omega
  case getTensor_eq =>
    intro call hcall dequantize
    obtain ⟨info, hinfo, hplaced⟩ := h.placed.exists_of_mem_left hcall
    obtain ⟨start, rfl, hcounted, haligned, hholds⟩ := hplaced.added call rfl
    exact getTensor_eq hcounted haligned hholds (find?_name (h.names ▸ hnodup) hinfo) dequantize

/-- **Calls that can do their part leave what they should,** in every order and however many there are. -/
theorem packed_of_run {bytes : List UInt8} {tr : List (NNData F × PackCall T F)}
    (h : Transition.Run (pack N) ⟨bytes, []⟩ tr data)
    (hnames : ((tr.map Prod.snd).map PackCall.name).Nodup) (hmeets : ∀ p ∈ tr, Meets p.1 p.2) :
    data.Packed N (tr.map Prod.snd) :=
  (layout_of_run h hmeets).packed hnames

/-- Two bytes for which there is to be room. -/
def reserved : TensorInfo ℤ where
  order := .C
  dataType := .U8F
  numDimensions := 1
  dims := [2]
  strides := [1]
  name := "reserved"
  offset := 0
  qpScale := 1
  qpZp := 0

/-- Three bytes. -/
def three : Call ℤ := ⟨"three", ⟨[3], [1, 2, 3], rfl⟩, .U8F, .C⟩

/-- Room first, then three bytes. -/
theorem packed_of_run_reserved : ∃ d : NNData ℤ,
    d.bytes.length = 67 ∧ d.Packed Dozen.integers [.emplaceTensor reserved, .addTensor three] := by
  have hrun : Transition.Run (pack Dozen.integers) ⟨[], []⟩ _ _ :=
    .cons (a := .emplaceTensor reserved) rfl (.single (a := .addTensor three) rfl)
  refine ⟨_, ?_, packed_of_run hrun (by decide) ?_⟩
  · decide
  · intro p hp
    rcases List.mem_cons.1 hp with rfl | hp
    · exact ⟨by decide, by decide⟩
    · obtain rfl := List.mem_singleton.1 hp
      exact ⟨by decide, by decide, by decide, by decide, fun _ => by decide⟩

/-- **Room that is reserved behind three bytes is not aligned.** -/
theorem not_packed_of_run : ∃ tr d, Transition.Run (pack Dozen.integers) ⟨[], []⟩ tr d ∧
    ((tr.map Prod.snd).map PackCall.name).Nodup ∧ ¬d.Packed Dozen.integers (tr.map Prod.snd) := by
  have hrun : Transition.Run (pack Dozen.integers) ⟨[], []⟩ _ _ :=
    .cons (a := .addTensor three) rfl (.single (a := .emplaceTensor reserved) rfl)
  refine ⟨_, _, hrun, by decide, fun hpacked => ?_⟩
  have haligned : DATA_ALIGNMENT ∣ ({ reserved with offset := 3 } : TensorInfo ℤ).offset.toNat :=
    hpacked.aligned _ (List.mem_cons_of_mem _ List.mem_cons_self)
  revert haligned
  decide

end NNData
end DepthaiCore.NN
