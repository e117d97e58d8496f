import DepthaiCore.Datatype.TensorGeometry
import DepthaiCore.Lib.FirstMaximum
import DepthaiCore.Lib.FloatingPoint
import DepthaiCore.Lib.Grids

/-!
# Decoding of segmentation tensors

A tensor has a score for each class and each pixel. `computeSegmentationMask` looks at every pixel
whose coordinates are multiples of the step and writes the class with the highest score into the
mask, or the background if no score is high enough. There is a traversal for tensors with the
channels last, which goes through the classes of one pixel after the other, and one for all other
tensors, which goes through the pixels of one class after the other and keeps the best values of all
pixels. Where the network has chosen the classes already, they are copied.

The numbers of the tensor are compared as they are. The threshold is converted to a number of the
tensor.
-/

namespace DepthaiCore.NN

open FloatingPoint

/-- `SegmentationParserConfig`. A step from `2 ^ 31` on is negative as an `int`; the mask is empty
then, and the first access fails. -/
structure SegmentationParserConfig where
  confidenceThreshold : Datum := .num (-1)
  stepSize : UInt32 := 1

/-- `SegmentationParserProperties`, as far as they matter for decoding. -/
structure SegmentationParserProperties where
  labels : List String := []
  classesInOneLayer : Bool := false
  backgroundClass : Bool := false

/-- `SegmentationMask`: the size and the data. -/
structure SegmentationMask where
  width : ℕ
  height : ℕ
  data : List UInt8
  deriving DecidableEq

namespace Segmentation

def BACKGROUND_INDEX : UInt8 := 255

/-- Why there is no mask. -/
inductive Failure
  | thrown (message : String)
  /-- An index is too large for an `int`. -/
  | overflow
  /-- An index is not in the memory. -/
  | outside
  /-- A number that is converted does not fit. -/
  | undefined
  deriving DecidableEq

/-- What the description throws. -/
def lift {α : Type} : Except String α → Except Failure α
  | .ok a => .ok a
  | .error message => .error (.thrown message)

/-! ### Reading the tensor -/

/-- The bytes at a place. -/
def loadBytes (span : List UInt8) (p size : ℕ) : Except Failure (List UInt8) :=
  if span.length < p + size then .error .outside else .ok ((span.drop p).take size)

/-- What the bytes of an element stand for. -/
def DataType.datum (dataType : DataType) (bytes : List UInt8) : Datum :=
  let word := LittleEndian.decode bytes
  match dataType with
  | .U8F => .num (UInt8.ofNat word).toNat
  | .I8 => .num (UInt8.ofNat word).toInt8.toInt
  | .U16F => .num (UInt16.ofNat word).toNat
  | .INT => .num (UInt32.ofNat word).toInt32.toInt
  | .FP16 => binary16.decode word
  | .FP32 => binary32.decode word
  | .FP64 => binary64.decode word

/-- `loadT`, with `fp16_ieee_to_fp32_value` for numbers of half precision. -/
def loadT (dataType : DataType) (span : List UInt8) (p : ℕ) : Except Failure Datum := do
  let bytes ← loadBytes span p dataType.size
  return DataType.datum dataType bytes

/-- The numbers of an integral type. -/
def DataType.range : DataType → Option (ℤ × ℤ)
  | .U8F => some (0, 255)
  | .I8 => some (-128, 127)
  | .U16F => some (0, 65535)
  | .INT => some (-2147483648, 2147483647)
  | .FP16 | .FP32 | .FP64 => none

/-- `static_cast<T>` of a number of single precision. -/
def staticCast (dataType : DataType) (x : Datum) : Except Failure Datum :=
  match DataType.range dataType with
  | none => .ok x
  | some (least, greatest) =>
    match x.trunc with
    | none => .error .undefined
    | some n => if least ≤ n ∧ n ≤ greatest then .ok (.num n) else .error .undefined

section Threshold

variable (config : SegmentationParserConfig) (tensorInfo : TensorInfo Datum)

def getQuantizedThreshold : Except Failure Datum :=
  if config.confidenceThreshold.lt (.num 0) then
    .ok (if tensorInfo.dataType = .I8 then .num (-128) else .num 0)
  else
    staticCast tensorInfo.dataType
      (binary32.add (binary32.div config.confidenceThreshold tensorInfo.qpScale) tensorInfo.qpZp)

/-- The threshold that `fillFP16BestVals` takes. -/
def halfThreshold : Datum :=
  if config.confidenceThreshold.lt (.num 0) then .inf true else config.confidenceThreshold

/-- The threshold for the type of the tensor. -/
def getThreshold : Except Failure Datum :=
  if tensorInfo.dataType = .FP16 then .ok (halfThreshold config)
  else getQuantizedThreshold config tensorInfo

end Threshold

/-! ### The traversals -/

/-- The rounds of a loop `for(int i = 0; i < n; i += step)`. In round `k` the index is `k * step`.
-/
def rounds (n step : ℕ) : ℕ :=
  (n + step - 1) / step

/-- The place of a pixel in the mask, which is an `int`. -/
def coordinateIndex (size dstWidth outY outX : ℕ) : Except Failure ℕ :=
  let i := outY * dstWidth + outX
  if 2 ^ 31 ≤ i then .error .overflow
  else if size ≤ i then .error .outside
  else .ok i

/-- What the traversals take from the description. A negative extent makes no rounds. -/
structure View where
  channels : ℕ
  width : ℕ
  height : ℕ
  strideC : ℕ
  strideH : ℕ
  strideW : ℕ

/-- The accessors in the order of the traversals. -/
def view (tensorInfo : TensorInfo Datum) : Except Failure View := do
  let channels ← lift tensorInfo.getChannels
  let width ← lift tensorInfo.getWidth
  let height ← lift tensorInfo.getHeight
  let strideC ← lift tensorInfo.getChannelStride
  let strideH ← lift tensorInfo.getHeightStride
  let strideW ← lift tensorInfo.getWidthStride
  return ⟨channels.toNat, width.toNat, height.toNat, strideC, strideH, strideW⟩

/-- The first class that is looked at. -/
def cStart (backgroundClass : Bool) : ℕ :=
  if backgroundClass then 1 else 0

section Loops

variable (dataType : DataType) (backgroundClass : Bool) (span : List UInt8) (v : View) (step : ℕ)
  (threshold : Datum)

/-- The value that a pixel starts with. -/
def startVal (pixelBase : ℕ) : Except Failure Datum := do
  if backgroundClass then
    let v0 ← loadT dataType span pixelBase
    return v0.max threshold
  else return threshold

/-- One round of the loop over the classes. -/
def classRound (pixelBase : ℕ) (best : Datum × UInt8) (c : ℕ) : Except Failure (Datum × UInt8) := do
  let x ← loadT dataType span (pixelBase + v.strideC * c)
  return if best.1.lt x then (x, UInt8.ofNat c) else best

/-- One pixel of `parseNHWCTensor`. -/
def pixelRound (dst : List UInt8) (outY outX : ℕ) : Except Failure (List UInt8) := do
  let pixelBase := v.strideH * (outY * step) + v.strideW * (outX * step)
  let bestVal ← startVal dataType backgroundClass span threshold pixelBase
  let best ← (List.range' (cStart backgroundClass) (v.channels - cStart backgroundClass)).foldlM
    (classRound dataType span v pixelBase) (bestVal, BACKGROUND_INDEX)
  let i ← coordinateIndex dst.length (v.width / step) outY outX
  return dst.set i best.2

/-- **`parseNHWCTensor`.** -/
def parseNHWCTensor (dst : List UInt8) : Except Failure (List UInt8) :=
  (List.range (rounds v.height step)).foldlM (fun dst outY =>
    (List.range (rounds v.width step)).foldlM (fun dst outX =>
      pixelRound dataType backgroundClass span v step threshold dst outY outX) dst) dst

/-- One pixel of `fillBestVals`. -/
def fillRound (bestValues : List Datum) (outY outX : ℕ) : Except Failure (List Datum) := do
  let idx := v.strideH * (outY * step) + v.strideW * (outX * step)
  let v0 ← loadT dataType span idx
  let i ← coordinateIndex bestValues.length (v.width / step) outY outX
  return bestValues.set i (v0.max threshold)

/-- `fillBestVals`, and `fillFP16BestVals` for its threshold. -/
def fillBestVals (bestValues : List Datum) : Except Failure (List Datum) :=
  if backgroundClass then
    (List.range (rounds v.height step)).foldlM (fun bestValues outY =>
      (List.range (rounds v.width step)).foldlM (fun bestValues outX =>
        fillRound dataType span v step threshold bestValues outY outX) bestValues) bestValues
  else .ok (List.replicate bestValues.length threshold)

/-- `bestValues[i]`. -/
def bestValue (bestValues : List Datum) (i : ℕ) : Except Failure Datum :=
  match bestValues[i]? with
  | some best => .ok best
  | none => .error .outside

/-- One pixel of one class of `parseNCHWTensor`: the best values and the mask. -/
def planeRound (c : ℕ) (state : List Datum × List UInt8) (outY outX : ℕ) :
    Except Failure (List Datum × List UInt8) := do
  let idx := v.strideC * c + v.strideH * (outY * step) + v.strideW * (outX * step)
  let x ← loadT dataType span idx
  let i ← coordinateIndex state.2.length (v.width / step) outY outX
  let best ← bestValue state.1 i
  return if best.lt x then (state.1.set i x, state.2.set i (UInt8.ofNat c)) else state

/-- **`parseNCHWTensor`,** and `tensorArgmaxFP16` for its threshold. The best values are kept from
call to call; `left` is what the last one has left. -/
def parseNCHWTensor (left : List Datum) (dst : List UInt8) : Except Failure (List UInt8) := do
  let resized := Grid.cells dst.length fun i => left.getD i (.num 0)
  let bestValues ← fillBestVals dataType backgroundClass span v step threshold resized
  let state ← (List.range' (cStart backgroundClass) (v.channels - cStart backgroundClass)).foldlM
    (fun state c => (List.range (rounds v.height step)).foldlM (fun state outY =>
      (List.range (rounds v.width step)).foldlM (fun state outX =>
        planeRound dataType span v step c state outY outX) state) state) (bestValues, dst)
  return state.2

/-- `tensorArgmax`, and `tensorArgmaxFP16`, which has one traversal only. -/
def tensorArgmax (order : StorageOrder) (left : List Datum) (dst : List UInt8) :
    Except Failure (List UInt8) :=
  if dataType ≠ .FP16 ∧ (order = .NHWC ∨ order = .HWC) then
    parseNHWCTensor dataType backgroundClass span v step threshold dst
  else parseNCHWTensor dataType backgroundClass span v step threshold left dst

end Loops

/-! ### Masks -/

section Masks

variable (left : List Datum) (bytes : List UInt8) (tensorInfo : TensorInfo Datum)
  (config : SegmentationParserConfig)

/-- The bytes of the tensor. -/
def tensorSpan : Except Failure (List UInt8) :=
  match tensorInfo.getTensorSize with
  | none => .error .outside
  | some size => loadBytes bytes tensorInfo.offset.toNat size

/-- An extent of the mask. The extent of the tensor loses its sign. -/
def maskExtent (extent : ℤ) : ℕ :=
  (extent % 2 ^ 32).toNat / config.stepSize.toNat

/-- **`computeSegmentationMask`.** -/
def computeSegmentationMask (backgroundClass : Bool) : Except Failure SegmentationMask := do
  let width ← lift tensorInfo.getWidth
  let height ← lift tensorInfo.getHeight
  let dstWidth := maskExtent config width
  let dstHeight := maskExtent config height
  let dst := List.replicate (dstWidth * dstHeight) BACKGROUND_INDEX
  let span ← tensorSpan bytes tensorInfo
  let v ← view tensorInfo
  let threshold ← getThreshold config tensorInfo
  let data ← tensorArgmax tensorInfo.dataType backgroundClass span v config.stepSize.toNat threshold
    tensorInfo.order left dst
  return { width := dstWidth, height := dstHeight, data }

/-- One pixel of `copySingleLayerMaskData`. -/
def copyRound (span : List UInt8) (strideH strideW dstWidth step : ℕ) (dst : List UInt8)
    (outY outX : ℕ) : Except Failure (List UInt8) := do
  let idx := strideH * (outY * step) + strideW * (outX * step)
  let bytes ← loadBytes span idx 4
  let x := (UInt32.ofNat (LittleEndian.decode bytes)).toInt32.toInt
  let i ← coordinateIndex dst.length dstWidth outY outX
  return dst.set i (UInt8.ofNat (min (max x 0) 255).toNat)

/-- **`copySingleLayerMaskData`,** for extents that are not negative. The mask starts with whatever
`prepareMask` has left in it. -/
def copySingleLayerMaskData (old : List UInt8) : Except Failure SegmentationMask := do
  let step := config.stepSize.toNat
  let maskWidth := (← lift tensorInfo.getWidth).toNat
  let maskHeight := (← lift tensorInfo.getHeight).toNat
  let strideH ← lift tensorInfo.getHeightStride
  let strideW ← lift tensorInfo.getWidthStride
  let dstWidth := maskWidth / step
  let dstHeight := maskHeight / step
  let dst := Grid.cells (dstWidth * dstHeight) fun i => old.getD i 0
  let span ← tensorSpan bytes tensorInfo
  let data ← (List.range (rounds maskHeight step)).foldlM (fun dst outY =>
    (List.range (rounds maskWidth step)).foldlM (fun dst outX =>
      copyRound span strideH strideW dstWidth step dst outY outX) dst) dst
  return { width := dstWidth, height := dstHeight, data }

end Masks

end Segmentation

/-! ### The node -/

namespace SegmentationParser

open Segmentation (Failure lift computeSegmentationMask copySingleLayerMaskData)

variable (properties : SegmentationParserProperties) (info : TensorInfo Datum)

/-- `validateTensor`, where there is a description. An extent is checked without its sign. -/
def validateTensor : Except Failure Unit := do
  let maskWidth := ((← lift info.getWidth) % 2 ^ 64).toNat
  let maskHeight := ((← lift info.getHeight) % 2 ^ 64).toNat
  let channels ← lift info.getChannels
  if ¬(0 < maskWidth ∧ 0 < maskHeight ∧ 0 < channels) then
    .error (.thrown (s!"Invalid tensor dimensions retrieved for segmentation. Channels: {channels}, " ++
      s!"height: {maskHeight}, width: {maskWidth}."))
  else if ¬channels ≤ 256 then
    .error (.thrown "SegmentationParser supports a maximum of 256 channels.")
  else if properties.classesInOneLayer = false ∧ 0 < properties.labels.length ∧
      (properties.labels.length : ℤ) ≠ channels then
    .error (.thrown (s!"Number of provided labels ({properties.labels.length}) does not match number of " ++
      s!"channels ({channels})." ++ if properties.backgroundClass then
        " Note: background_class is set to true, make sure to add a background label to the beginning " ++
          "of the labels list."
      else ""))
  else .ok ()

/-- Whether the first class is the background: with one class only, it is not. -/
def background (channels : ℤ) : Bool :=
  properties.backgroundClass && decide (1 < channels)

/-- **From the tensor to the mask,** as `run` does it for one message. -/
def parse (left : List Datum) (old bytes : List UInt8) (config : SegmentationParserConfig) :
    Except Failure SegmentationMask := do
  validateTensor properties info
  let channels ← lift info.getChannels
  if properties.classesInOneLayer then
    if info.dataType ≠ .INT then
      .error (.thrown "When classes_in_one_layer is true, only INT data type is supported.")
    else copySingleLayerMaskData bytes info config old
  else computeSegmentationMask left bytes info config (background properties channels)

end SegmentationParser

end DepthaiCore.NN
