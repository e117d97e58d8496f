import DepthaiCore.Datatype.TensorGeometry
import DepthaiCore.Lib.FirstMaximum
import DepthaiCore.Pipeline.NonMaximumSuppression

/-!
# The decoders for YOLO networks

A YOLO network writes one or more tensors whose cells stand for boxes. A cell has channels for the
box, one for the objectness and one for each class; networks with anchors have such a block for each
anchor. There is a decoder for each family of networks. It goes through the cells and makes a
candidate of those that are confident enough.

The arithmetic is exact; the sigmoid and the exponential function are parameters. Only the part of
the decoders is here that makes the candidates. An element that is not in the data has the value
zero, as with `DEPTHAI_SAFE_NN_DATA_ACCESS`.
-/

open scoped Numerals

namespace DepthaiCore

inductive YoloDecodingFamily
  | TLBR | R1AF | v5AB | v3AB | YOLO26
  deriving DecidableEq, Repr

/-- What the decoders read of `DetectionParserOptions`. -/
structure DetectionParserOptions (K : Type) where
  confidenceThreshold : K
  decodingFamily : YoloDecodingFamily := .TLBR
  classes : ℕ
  coordinates : ℤ
  strides : List ℤ := [8, 16, 32]
  outputNamesToUse : List String := []
  anchorsV2 : List (List (List K)) := []

/-- `NNData` with what `transformation->getSize()` returns. -/
structure NNOutput (K : Type) extends NN.NNData K where
  inputWidth : ℤ
  inputHeight : ℤ

namespace DetectionParserUtils

open NN (NNData NNDataViewer Numbers StorageOrder TensorInfo)

variable {T K β : Type}

/-! ### The layers -/

def getTensorInfo (nnData : NNData K) (name : String) : Option (TensorInfo K) :=
  nnData.tensors.find? fun t => t.name = name

def resolveLayerNames (nnData : NNData K) (specifiedNames : List String)
    (defaultSearchTerm : String) : List String :=
  let candidateNames :=
    if specifiedNames = [] then nnData.tensors.map (·.name) else specifiedNames
  let layerNames := candidateNames.filter fun name => defaultSearchTerm.toList <:+: name.toList
  layerNames.insertionSort (· ≤ ·)

/-- The order of a tensor with so many dimensions. If the channels are not where the description
says, the first of `places` decides that has their number. -/
def checkAndFixTensorOrder (dimensions : ℕ) (places : List (ℕ × StorageOrder))
    (tensorInfo : TensorInfo K) (expectedChannelIdx : ℕ) (channelSize : UInt32) :
    Option (TensorInfo K) :=
  if tensorInfo.dims.length ≠ dimensions then none
  else if tensorInfo.dims.getD expectedChannelIdx 0 = channelSize then some tensorInfo
  else
    (places.find? fun place => tensorInfo.dims.getD place.1 0 = channelSize).map fun place =>
      { tensorInfo with order := place.2 }

def checkAndFix3DTensorOrder : TensorInfo K → ℕ → UInt32 → Option (TensorInfo K) :=
  checkAndFixTensorOrder 3 [(0, .CHW), (2, .HWC), (1, .HCW)]

def checkAndFix4DTensorOrder : TensorInfo K → ℕ → UInt32 → Option (TensorInfo K) :=
  checkAndFixTensorOrder 4 [(1, .NCHW), (3, .NHWC), (2, .NHCW)]

/-- `isTensorOrderValid`: the description with its order, or `none` for `false`. -/
def isTensorOrderValid (tensorInfo : TensorInfo K) (channelSize : UInt32) : Option (TensorInfo K) :=
  match tensorInfo.order with
  | .CHW => checkAndFix3DTensorOrder tensorInfo 0 channelSize
  | .HWC => checkAndFix3DTensorOrder tensorInfo 2 channelSize
  | .HCW => checkAndFix3DTensorOrder tensorInfo 1 channelSize
  | .NCHW => checkAndFix4DTensorOrder tensorInfo 1 channelSize
  | .NHWC => checkAndFix4DTensorOrder tensorInfo 3 channelSize
  | .NHCW => checkAndFix4DTensorOrder tensorInfo 2 channelSize
  | .WHC | .WCH | .CWH | .NC | .CN | .C | .H | .W => none

/-- A layer that is decoded: its size, and `outputData.get(c, row, col)`. -/
structure Layer (K : Type) where
  channels : ℤ
  height : ℕ
  width : ℕ
  get : ℕ → ℕ → ℕ → K

/-- `DAI_CHECK_V`. -/
def check (condition : Prop) [Decidable condition] (what : String) : Except Failure Unit :=
  if condition then .ok () else .error (.runtimeError what)

/-- The value of a check that must not be `none`. -/
def checkSome {α : Type} (what : String) : Option α → Except Failure α
  | none => .error (.runtimeError what)
  | some a => .ok a

section Layers

variable [Zero K] (N : Numbers T K) (nnData : NNOutput K)

/-- The layer of a description with the right order. -/
def buildLayer (layerName : String) (tensorInfo : TensorInfo K) : Except Failure (Layer K) := do
  let layerHeight ← tensorInfo.getHeight.mapError .runtimeError
  let layerWidth ← tensorInfo.getWidth.mapError .runtimeError
  let layerChannels ← tensorInfo.getChannels.mapError .runtimeError
  let outputData : NNDataViewer K := ⟨tensorInfo, nnData.bytes⟩
  let factorsBefore ← checkSome s!"Failed to build NNDataViewer for layer {layerName}"
    outputData.build
  return {
    channels := layerChannels
    height := layerHeight.toNat
    width := layerWidth.toNat
    get := fun c row col => ((outputData.get N factorsBefore c row col).map Prod.fst).getD 0 }

/-- The layer of that name; `none` if its order is not valid and it is skipped. -/
def openLayer (channelSize : ℤ) (layerName : String) : Except Failure (Option (Layer K)) := do
  let tensorInfo ← checkSome s!"Tensor info for layer {layerName} is null."
    (getTensorInfo nnData.toNNData layerName)
  match isTensorOrderValid tensorInfo (Int32.ofInt channelSize).toUInt32 with
  | none => return none
  | some tensorInfo => return some (← buildLayer N nnData layerName tensorInfo)

/-- The round of a layer. -/
def forLayer (openAt : ℕ → String → Except Failure (Option (Layer K))) (scan : ℕ → Layer K → List β)
    (name : String × ℕ) : Except Failure (List β) := do
  let (layerName, strideIdx) := name
  match ← openAt strideIdx layerName with
  | none => return []
  | some layer => return scan strideIdx layer

/-- The loop over the layers. What is made of a layer is appended. -/
def forLayers (layerNames : List String)
    (openAt : ℕ → String → Except Failure (Option (Layer K))) (scan : ℕ → Layer K → List β) :
    Except Failure (List β) := do
  let found ← layerNames.zipIdx.mapM (forLayer openAt scan)
  return found.flatten

variable (parser : DetectionParserOptions K)

/-- The check of the number of strides. -/
def checkStrides (layerNames : List String) : Except Failure Unit :=
  let strides := parser.strides.length
  let layers := layerNames.length
  check (strides = layers)
    (s!"Number of strides does not match number of output layers. Strides size: {strides}, " ++
      s!"output layers size: {layers}")

/-- The check of the number of anchor sets. -/
def checkAnchors (layerNames : List String) : Except Failure Unit :=
  let anchors := parser.anchorsV2.length
  let layers := layerNames.length
  check (anchors = layers)
    (s!"Number of anchor sets does not match number of output layers. " ++
      s!"Anchor sets size: {anchors}, output layers size: {layers}")

/-- The frame of `decodeR1AF` and `decodeTLBR`. -/
def anchorFree (invalidDimensions : String) (scan : ℕ → Layer K → List β) :
    Except Failure (List β) := do
  let layerNames := resolveLayerNames nnData.toNNData parser.outputNamesToUse "_yolo"
  checkStrides parser layerNames
  check (0 < nnData.inputHeight ∧ 0 < nnData.inputWidth) invalidDimensions
  forLayers layerNames
    (fun _ => openLayer N nnData (parser.classes + parser.coordinates + 1)) scan

/-- A layer of a network with anchors. -/
def openAnchored (strideIdx : ℕ) (layerName : String) : Except Failure (Option (Layer K)) := do
  let anchors := parser.anchorsV2.getD strideIdx []
  let channelSize : ℤ := anchors.length * (parser.classes + parser.coordinates + 1)
  match ← openLayer N nnData channelSize layerName with
  | none => return none
  | some layer =>
    let expectedC : ℤ := anchors.length * (5 + parser.classes)
    let layerChannels := layer.channels
    check (layerChannels = expectedC)
      (s!"Layer {layerName} channels mismatch. Expected {expectedC}, got {layerChannels}. " ++
        "Please check if the correct anchors are set for this layer.")
    return some layer

/-- The frame of `decodeV3AB` and `decodeV5AB`. -/
def anchorBased (scan : ℕ → Layer K → List β) : Except Failure (List β) := do
  let layerNames := resolveLayerNames nnData.toNNData parser.outputNamesToUse "_yolo"
  checkStrides parser layerNames
  let width := nnData.inputWidth
  let height := nnData.inputHeight
  check (0 < width ∧ 0 < height)
    (s!"Invalid input dimensions retrieved from NNData transformation. Width: {width}, " ++
      s!"Height: {height}")
  checkAnchors parser layerNames
  forLayers layerNames (openAnchored N nnData parser) scan

/-- The layer of `decodeEndToEnd`; `none` where it returns early. -/
def openEndToEnd : Except Failure (Option (Layer K)) := do
  let yoloLayerNames := resolveLayerNames nnData.toNNData parser.outputNamesToUse "_yolo"
  check (yoloLayerNames.length = 1)
    ("End-to-end models support only one yolo output layer. " ++
      "Please specify exactly one output name in the parser Head.")
  let searchLayer := yoloLayerNames.getD 0 ""
  check (0 < nnData.inputWidth ∧ 0 < nnData.inputHeight)
    "Invalid input dimensions retrieved from NNData transformation."
  let tensorInfo ← checkSome s!"Tensor info for layer {searchLayer} is null"
    (getTensorInfo nnData.toNNData searchLayer)
  let channelSize : ℤ := parser.classes + parser.coordinates + 1
  match isTensorOrderValid tensorInfo (Int32.ofInt channelSize).toUInt32 with
  | none => return none
  | some tensorInfo =>
    let layerChannels ← tensorInfo.getChannels.mapError .runtimeError
    let layerHeight ← tensorInfo.getHeight.mapError .runtimeError
    let layerWidth ← tensorInfo.getWidth.mapError .runtimeError
    let expectedC : ℤ := 5 + parser.classes
    check (layerChannels = expectedC)
      (s!"Invalid number of channels in end-to-end output. Expected {expectedC}, " ++
        s!"got {layerChannels}. Skipping.")
    if layerHeight ≤ 0 ∨ layerWidth ≤ 0 then return none
    return some (← buildLayer N nnData searchLayer tensorInfo)

/-- The frame of `decodeEndToEnd`. -/
def endToEnd (scan : ℕ → Layer K → List β) : Except Failure (List β) := do
  match ← openEndToEnd N nnData parser with
  | none => return []
  | some layer => return scan 0 layer

end Layers

/-! ### The cells -/

/-- Where a candidate comes from. Without anchors, all indices of anchors are zero. -/
structure Place where
  headIndex : ℕ
  rowIndex : ℕ
  columnIndex : ℕ
  anchorIndex : ℕ
  deriving DecidableEq, Repr

/-- The places of a layer, in the order of the loops. -/
def Layer.places (layer : Layer K) (strideIdx numAnchors : ℕ) : List Place :=
  (List.range layer.height).flatMap fun row =>
    (List.range layer.width).flatMap fun col =>
      (List.range numAnchors).map fun a => ⟨strideIdx, row, col, a⟩

/-- What a decoder computes from the channels: the objectness, what it compares the classes by, the
confidence for the best of these, and the box as it is before it is clamped. -/
structure Cell (K : Type) where
  objectness : K
  score : ℕ → K
  confidence : K → K
  xmin : K
  ymin : K
  xmax : K
  ymax : K

section Cells

variable [Field K] (sigmoid exp : K → K) (parser : DetectionParserOptions K) (layer : Layer K)
  (place : Place)

/-- `outputData.get(c, row, col)`. -/
def Layer.channel (c : ℕ) : K :=
  layer.get c place.rowIndex place.columnIndex

/-- The box around a centre. -/
def Cell.centred (objectness : K) (score : ℕ → K) (confidence : K → K) (cx cy w h : K) :
    Cell K where
  objectness
  score
  confidence
  xmin := cx - w * (1 / 2)
  ymin := cy - h * (1 / 2)
  xmax := cx + w * (1 / 2)
  ymax := cy + h * (1 / 2)

/-- `strides[strideIdx]`. -/
def stride : K :=
  (parser.strides.getD place.headIndex 0 : ℤ)

/-- `anchors[a][i]`. -/
def anchor (i : ℕ) : K :=
  ((parser.anchorsV2.getD place.headIndex []).getD place.anchorIndex []).getD i 0

/-- `ch0`. -/
def firstChannel : ℕ :=
  place.anchorIndex * (5 + parser.classes)

/-- A cell in `decodeR1AF`. -/
def cellR1AF : Cell K :=
  let get := layer.channel place
  .centred (get 4) (fun c => get (c + 5)) (fun bestConf => bestConf * get 4)
    (get 0) (get 1) (get 2) (get 3)

/-- A cell in `decodeV3AB`. -/
def cellV3AB : Cell K :=
  let ch0 := firstChannel parser place
  let get (c : ℕ) := layer.channel place (ch0 + c)
  let tx := sigmoid (get 0)
  let ty := sigmoid (get 1)
  let obj := sigmoid (get 4)
  .centred obj (fun c => get (5 + c)) (fun clsLogit => obj * sigmoid clsLogit)
    ((place.columnIndex + tx) * stride parser place) ((place.rowIndex + ty) * stride parser place)
    (exp (get 2) * anchor parser place 0) (exp (get 3) * anchor parser place 1)

/-- A cell in `decodeV5AB`. -/
def cellV5AB : Cell K :=
  let ch0 := firstChannel parser place
  let get (c : ℕ) := layer.channel place (ch0 + c)
  let tx := get 0
  let ty := get 1
  let tw := get 2
  let th := get 3
  let obj := get 4
  .centred obj (fun c => get (5 + c)) (fun bestConf => obj * bestConf)
    ((tx * 2 - 1 / 2 + place.columnIndex) * stride parser place)
    ((ty * 2 - 1 / 2 + place.rowIndex) * stride parser place)
    (tw * tw * 4 * anchor parser place 0) (th * th * 4 * anchor parser place 1)

/-- A cell in `decodeTLBR`. -/
def cellTLBR : Cell K :=
  let get := layer.channel place
  { objectness := get 4
    score := fun c => get (c + 5)
    confidence := fun bestConf => bestConf
    xmin := (place.columnIndex - get 0 + 1 / 2) * stride parser place
    ymin := (place.rowIndex - get 1 + 1 / 2) * stride parser place
    xmax := (place.columnIndex + get 2 + 1 / 2) * stride parser place
    ymax := (place.rowIndex + get 3 + 1 / 2) * stride parser place }

/-- A cell in `decodeEndToEnd`. -/
def cellEndToEnd : Cell K :=
  let get := layer.channel place
  { objectness := get 4
    score := fun c => get (c + 5)
    confidence := fun bestConf => bestConf
    xmin := get 0
    ymin := get 1
    xmax := get 2
    ymax := get 3 }

end Cells

/-! ### The candidates -/

section Candidates

variable [Field K] [LinearOrder K] (nnData : NNOutput K) (parser : DetectionParserOptions K)
  (place : Place) (cell : Cell K)

/-- The loop over the classes. -/
def bestClass (numClasses : ℕ) (score : ℕ → K) : K × ℕ :=
  (List.range' 0 numClasses).foldl
    (FirstMaximum.pass (fun bestConf candidateProb => bestConf < candidateProb) score id) (0, 0)

/-- A box within the input. -/
def clampedCandidate (conf : K) (bestC : ℕ) : DetectionCandidate K where
  xmin := max 0 (min cell.xmin nnData.inputWidth)
  ymin := max 0 (min cell.ymin nnData.inputHeight)
  xmax := max 0 (min cell.xmax nnData.inputWidth)
  ymax := max 0 (min cell.ymax nnData.inputHeight)
  score := conf
  label := bestC
  headIndex := place.headIndex
  rowIndex := place.rowIndex
  columnIndex := place.columnIndex

/-- The candidate, unless its box has no area. -/
def emplace (conf : K) (bestC : ℕ) : Option (DetectionCandidate K) :=
  let candidate := clampedCandidate nnData place cell conf bestC
  if candidate.xmax ≤ candidate.xmin ∨ candidate.ymax ≤ candidate.ymin then none else some candidate

/-- The body of the loops of all decoders but `decodeEndToEnd`. -/
def decodeCell : Option (DetectionCandidate K) :=
  if cell.objectness < parser.confidenceThreshold then none
  else
    let (bestConf, bestC) := bestClass parser.classes cell.score
    if cell.confidence bestConf < parser.confidenceThreshold then none
    else emplace nnData place cell (cell.confidence bestConf) bestC

/-- The body of the loop of `decodeEndToEnd`. It does not check the confidence. -/
def decodeCellEndToEnd : Option (DetectionCandidate K) :=
  if cell.objectness < parser.confidenceThreshold then none
  else
    let (bestConf, bestC) := bestClass parser.classes cell.score
    emplace nnData place cell bestConf bestC

end Candidates

/-! ### The decoders -/

section Decoders

variable [Field K] [LinearOrder K] (N : Numbers T K) (sigmoid exp : K → K) (nnData : NNOutput K)
  (parser : DetectionParserOptions K)

/-- **`decodeR1AF`:** its candidates. -/
def decodeR1AF : Except Failure (List (DetectionCandidate K)) :=
  let width := nnData.inputWidth
  let height := nnData.inputHeight
  anchorFree N nnData parser s!"Invalid input dimensions: width={width}, height={height}"
    fun strideIdx layer => (layer.places strideIdx 1).filterMap fun place =>
      decodeCell nnData parser place (cellR1AF layer place)

/-- **`decodeV3AB`.** -/
def decodeV3AB : Except Failure (List (DetectionCandidate K)) :=
  anchorBased N nnData parser fun strideIdx layer =>
    (layer.places strideIdx (parser.anchorsV2.getD strideIdx []).length).filterMap fun place =>
      decodeCell nnData parser place (cellV3AB sigmoid exp parser layer place)

/-- **`decodeV5AB`.** -/
def decodeV5AB : Except Failure (List (DetectionCandidate K)) :=
  anchorBased N nnData parser fun strideIdx layer =>
    (layer.places strideIdx (parser.anchorsV2.getD strideIdx []).length).filterMap fun place =>
      decodeCell nnData parser place (cellV5AB parser layer place)

/-- **`decodeTLBR`.** -/
def decodeTLBR : Except Failure (List (DetectionCandidate K)) :=
  let width := nnData.inputWidth
  let height := nnData.inputHeight
  anchorFree N nnData parser
    (s!"Invalid input dimensions retrieved from NNData transformation. Width: {width}, " ++
      s!"Height: {height}")
    fun strideIdx layer => (layer.places strideIdx 1).filterMap fun place =>
      decodeCell nnData parser place (cellTLBR parser layer place)

/-- **`decodeEndToEnd`.** It looks at the first row only. -/
def decodeEndToEnd : Except Failure (List (DetectionCandidate K)) :=
  endToEnd N nnData parser fun strideIdx layer =>
    (List.range layer.width).filterMap fun col =>
      let place : Place := ⟨strideIdx, 0, col, 0⟩
      decodeCellEndToEnd nnData parser place (cellEndToEnd layer place)

/-- `decodeYolo`: the decoder of the family. -/
def decodeYolo : Except Failure (List (DetectionCandidate K)) :=
  match parser.decodingFamily with
  | .R1AF => decodeR1AF N nnData parser
  | .v3AB => decodeV3AB N sigmoid exp nnData parser
  | .v5AB => decodeV5AB N nnData parser
  | .TLBR => decodeTLBR N nnData parser
  | .YOLO26 => decodeEndToEnd N nnData parser

end Decoders

end DetectionParserUtils

end DepthaiCore
