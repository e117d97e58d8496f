import DepthaiCore.Lib.LittleEndian
import DepthaiCore.Lib.RowMajor

/-!
# Tensors in a message

`NNData::addTensor` appends the elements of an array to the bytes of the message and describes them in
a `TensorInfo`. `NNDataViewer` takes such a description and reads single elements.

Numbers of the array are of any type, and so are single precision floating point numbers, with the
conversions that the source makes as functions. Lengths and addresses of memory are natural numbers;
what is stored in the description has 32 bits.
-/

namespace DepthaiCore.NN

/-! ### Descriptions of tensors -/

inductive StorageOrder
  | NHWC | NHCW | NCHW | HWC | CHW | WHC | HCW | WCH | CWH | NC | CN | C | H | W
  deriving DecidableEq, Repr

inductive DataType
  | FP16 | U8F | INT | FP32 | I8 | FP64 | U16F
  deriving DecidableEq, Repr

/-- The size of an element in bytes. -/
def DataType.size : DataType → ℕ
  | .U8F | .I8 => 1
  | .FP16 | .U16F => 2
  | .INT | .FP32 => 4
  | .FP64 => 8

structure TensorInfo (F : Type) where
  order : StorageOrder
  dataType : DataType
  numDimensions : UInt32
  dims : List UInt32
  strides : List UInt32
  name : String
  offset : UInt32
  quantization : Bool := false
  qpScale : F
  qpZp : F

variable {T F : Type}

def TensorInfo.getDataTypeSize (info : TensorInfo F) : ℕ :=
  info.dataType.size

def TensorInfo.validateStorageOrder (info : TensorInfo F) : Except String Unit :=
  match info.order with
  | .NHWC | .NHCW | .NCHW =>
    if info.dims.length < 4 then
      .error "Not enough dimensions (needs at least 4) for the storage order in TensorInfo"
    else .ok ()
  | .HWC | .CHW | .WHC | .HCW | .WCH | .CWH =>
    if info.dims.length < 3 then
      .error "Not enough dimensions (needs at least 3) for the storage order in TensorInfo"
    else .ok ()
  | .NC | .CN =>
    if info.dims.length < 2 then
      .error "Not enough dimensions (needs at least 2) for the storage order in TensorInfo"
    else .ok ()
  | .C | .H | .W =>
    if info.dims.length < 1 then
      .error "Not enough dimensions (needs at least 1) for the storage order in TensorInfo"
    else .ok ()

/-! ### Writing -/

/-- Numbers `T` of arrays and single precision numbers `F`, with the conversions of the source. Floating
point numbers are stored as their bits. -/
structure Numbers (T F : Type) where
  toInt8 : T → Int8
  toUInt8 : T → UInt8
  toUInt16 : T → UInt16
  toInt32 : T → Int32
  fp32_to_fp16 : T → UInt16
  toFloat : T → UInt32
  toDouble : T → UInt64
  /-- `static_cast<float>` of an integer -/
  ofInt : ℤ → F
  fp16_ieee_to_fp32_value : UInt16 → F
  /-- The single precision number with these bits. -/
  ofFloat : UInt32 → F
  /-- The single precision number nearest to the double precision number with these bits. -/
  ofDouble : UInt64 → F
  zero : F
  one : F
  sub : F → F → F
  mul : F → F → F

/-- `xt::xarray`: a shape, and the elements in row-major order. -/
structure XArray (T : Type) where
  shape : List ℕ
  data : List T
  length : data.length = shape.prod

/-- `strides()`. -/
def XArray.strides (tensor : XArray T) : List ℕ :=
  RowMajor.strides tensor.shape

/-- `NNData`: the bytes of the message and the descriptions. -/
structure NNData (F : Type) where
  bytes : List UInt8
  tensors : List (TensorInfo F)

def DATA_ALIGNMENT : ℕ := 64

/-- The bytes of one element, as the loop for its type writes them. -/
def Numbers.store (N : Numbers T F) : DataType → T → List UInt8
  | .I8, x => [(N.toInt8 x).toUInt8]
  | .U16F, x => LittleEndian.encode 2 (N.toUInt16 x).toNat
  | .FP16, x => LittleEndian.encode 2 (N.fp32_to_fp16 x).toNat
  | .FP32, x => LittleEndian.encode 4 (N.toFloat x).toNat
  | .INT, x => LittleEndian.encode 4 (N.toInt32 x).toUInt32.toNat
  | .U8F, x => [N.toUInt8 x]
  | .FP64, x => LittleEndian.encode 8 (N.toDouble x).toNat

namespace NNData

/-- The bytes up to the next multiple of `DATA_ALIGNMENT`. -/
def align (bytes : List UInt8) : List UInt8 :=
  let remainder := bytes.length % DATA_ALIGNMENT
  if remainder > 0 then bytes ++ List.replicate (DATA_ALIGNMENT - remainder) 0 else bytes

variable (N : Numbers T F) (data : NNData F)

/-- The description of a tensor whose bytes begin at `offset`. -/
def describe (name : String) (tensor : XArray T) (dataType : DataType) (order : StorageOrder)
    (offset : ℕ) : TensorInfo F where
  name
  offset := .ofNat offset
  dataType
  numDimensions := .ofNat tensor.shape.length
  order
  dims := tensor.shape.map UInt32.ofNat
  strides := tensor.strides.map fun stride => .ofNat (stride * dataType.size)
  qpScale := N.one
  qpZp := N.zero

/-- **`addTensor`.** If the storage order is not valid, the padding stays. -/
def addTensor (name : String) (tensor : XArray T) (dataType : DataType) (order : StorageOrder) :
    Except (NNData F × String) (NNData F) :=
  let aligned := align data.bytes
  let info := describe N name tensor dataType order aligned.length
  match info.validateStorageOrder with
  | .ok () => .ok {
      bytes := aligned ++ tensor.data.flatMap (N.store dataType)
      tensors := data.tensors ++ [info] }
  | .error e => .error ({ data with bytes := aligned }, e)

end NNData

/-! ### Reading -/

structure FactorsBefore where
  h : Int32
  w : Int32
  c : Int32
  deriving DecidableEq

structure NNDataViewer (F : Type) where
  tensor : TensorInfo F
  data : List UInt8

namespace NNDataViewer

variable (N : Numbers T F) (this : NNDataViewer F)

def sanity_check : Bool :=
  if this.data.length < (this.tensor.offset +
      this.tensor.dims.getD 0 0 * this.tensor.strides.getD 0 0).toNat then false
  else if this.tensor.dims.length < 2 then false
  else true

/-- **`build`:** the factors, or `none` if it returns false. -/
def build : Option FactorsBefore :=
  let dims := this.tensor.dims
  let strides := this.tensor.strides
  let stride (i : ℕ) : Int32 := (strides.getD i 0).toInt32
  let size : Int32 := .ofNat this.tensor.getDataTypeSize
  if strides.length < 2 then none
  else if strides.getD 0 0 = 0 ∨ strides.getD 1 0 = 0 then none
  else do
    let factorsBefore : FactorsBefore ← match this.tensor.order with
      | .NCHW =>
        if dims.getD 0 0 ≠ 1 then none
        else if strides.length ≠ 4 then none
        else some { c := stride 1, h := stride 2, w := size }
      | .NHWC =>
        if dims.getD 0 0 ≠ 1 then none
        else if strides.length ≠ 4 then none
        else some { h := stride 1, w := stride 2, c := size }
      | .HCW => some { h := stride 0, c := stride 1, w := size }
      | .HWC => some { h := stride 0, w := stride 1, c := size }
      | .CHW => some { c := stride 0, h := stride 1, w := size }
      | .CWH => some { c := stride 0, w := stride 1, h := size }
      | .WCH => some { w := stride 0, c := stride 1, h := size }
      | .WHC => some { w := stride 0, h := stride 1, c := size }
      | .NHCW | .NC | .CN | .H | .W | .C => none
    if this.sanity_check then some factorsBefore else none

/-- A product of `int32_t`; there is none if it overflows. -/
def product (factor : Int32) (x : ℤ) : Option ℤ :=
  let p := factor.toInt * x
  if -2 ^ 31 ≤ p ∧ p < 2 ^ 31 then some p else none

/-- The index of an element. The sum is taken without a sign. -/
def index (factorsBefore : FactorsBefore) (c h w : ℤ) : Option ℤ := do
  let ph ← product factorsBefore.h h
  let pw ← product factorsBefore.w w
  let pc ← product factorsBefore.c c
  some ((this.tensor.offset.toNat + ph + pw + pc).bmod (2 ^ 32))

/-- `width` bytes at a multiple of `width`: what they spell, and where they are. There are none if the
index is negative or they are not in the data. -/
def read (width : ℕ) (index : ℤ) : Option (ℕ × List ℕ) :=
  let start := index.toNat / width * width
  if index < 0 then none
  else if this.data.length < start + width then none
  else some (LittleEndian.decode ((this.data.drop start).take width), List.range' start width)

/-- **`get`:** the value, and the places of the bytes that are read. -/
def get (factorsBefore : FactorsBefore) (c h w : ℤ) : Option (F × List ℕ) :=
  let dequantize (value : F) : F := N.mul (N.sub value this.tensor.qpZp) this.tensor.qpScale
  match this.tensor.dataType with
  | .U8F => do
    let (dataOut, places) ← this.read 1 (← this.index factorsBefore c h w)
    some (dequantize (N.ofInt (UInt8.ofNat dataOut).toNat), places)
  | .I8 => do
    let (dataOut, places) ← this.read 1 (← this.index factorsBefore c h w)
    some (dequantize (N.ofInt (UInt8.ofNat dataOut).toInt8.toInt), places)
  | .U16F => do
    let (dataOut, places) ← this.read 2 (← this.index factorsBefore c h w)
    some (dequantize (N.ofInt (UInt16.ofNat dataOut).toNat), places)
  | .INT => do
    let (dataOut, places) ← this.read 4 (← this.index factorsBefore c h w)
    some (dequantize (N.ofInt (UInt32.ofNat dataOut).toInt32.toInt), places)
  | .FP16 => do
    let (dataOut, places) ← this.read 2 (← this.index factorsBefore c h w)
    some (dequantize (N.fp16_ieee_to_fp32_value (.ofNat dataOut)), places)
  | .FP32 => do
    let (dataOut, places) ← this.read 4 (← this.index factorsBefore c h w)
    some (dequantize (N.ofFloat (.ofNat dataOut)), places)
  | .FP64 => some (N.zero, [])

end NNDataViewer

end DepthaiCore.NN
