import Mathlib.Data.List.Basic

/-!
# Image manipulation

`ImageManipOperations` is built for a configuration, a type of output and the layout and type of the
frames that come in, and then applied to frames. It is built again for every frame; a `build` with the
configuration, types and size of the one before returns at once.

The arithmetic on floating point numbers is a parameter: what a configuration makes of the corners of
a frame, the inverse of a matrix, and the part of the source that a warp reads. The numbers in a
configuration are of any type. So is the text that `str` makes of it, but for the end of line that it
closes with.
-/

namespace DepthaiCore

/-! ### Types, layouts and configurations -/

/-- `ImgFrame::Type`. -/
inductive ImgFrameType
  | YUV422i | YUV444p | YUV420p | YUV422p | YUV400p | RGBA8888 | RGB161616 | RGB888p | BGR888p
  | RGB888i | BGR888i | LUT2 | LUT4 | LUT16 | RAW16 | RAW14 | RAW12 | RAW10 | RAW8 | PACK10 | PACK12
  | YUV444i | NV12 | NV21 | BITSTREAM | HDR | RGBF16F16F16p | BGRF16F16F16p | RGBF16F16F16i
  | BGRF16F16F16i | GRAY8 | GRAYF16 | RAW32 | NONE
  deriving DecidableEq, Repr

inductive Colormap
  | NONE | TURBO | JET | STEREO_TURBO | STEREO_JET
  deriving DecidableEq, Repr

structure FrameSpecs where
  width : UInt32
  height : UInt32
  p1Offset : UInt32
  p2Offset : UInt32
  p3Offset : UInt32
  p1Stride : UInt32
  p2Stride : UInt32
  p3Stride : UInt32
  deriving DecidableEq, Repr

namespace ImageManip

/-- `Resize::Mode`. -/
inductive ResizeOpMode
  | VALUE | FIT | FILL
  deriving DecidableEq, Repr

/-- `Flip::Direction`. -/
inductive FlipDirection
  | HORIZONTAL | VERTICAL
  deriving DecidableEq, Repr

/-- `ManipOp`, with numbers in `F`. -/
inductive ManipOp (F : Type)
  | Translate (offsetX offsetY : F) (normalized : Bool)
  | Rotate (angle : F) (center : Bool) (offsetX offsetY : F) (normalized : Bool)
  | Resize (width height : F) (normalized : Bool) (mode : ResizeOpMode)
  | Flip (direction : FlipDirection) (center : Bool)
  | Affine (matrix : Fin 4 → F)
  | Perspective (matrix : Fin 9 → F)
  | FourPoints (src dst : Fin 4 → F × F) (normalized : Bool)
  | Crop (width height : F) (normalized center : Bool)

inductive ResizeMode
  | NONE | STRETCH | LETTERBOX | CENTER_CROP
  deriving DecidableEq, Repr

structure ImageManipOpsBase (F : Type) where
  outputWidth : UInt32 := 0
  outputHeight : UInt32 := 0
  center : Bool := true
  resizeMode : ResizeMode := .NONE
  backgroundR : UInt32 := 0
  backgroundG : UInt32 := 0
  backgroundB : UInt32 := 0
  colormap : Colormap := .NONE
  undistort : Bool := false
  operations : List (ManipOp F) := []

variable {F M : Type}

def ImageManipOpsBase.hasWarp (base : ImageManipOpsBase F) (inputWidth inputHeight : UInt32) : Bool :=
  !base.operations.isEmpty || (base.outputWidth != 0 && base.outputWidth != inputWidth) ||
    (base.outputHeight != 0 && base.outputHeight != inputHeight) || base.undistort

def VALID_TYPE_COLOR : ImgFrameType := .RGB888i

def VALID_TYPE_GRAY : ImgFrameType := .GRAY8

def isSingleChannelu8 (type : ImgFrameType) : Bool :=
  type == .GRAY8 || type == .RAW8

def getValidType (type : ImgFrameType) : ImgFrameType :=
  if isSingleChannelu8 type then VALID_TYPE_GRAY else VALID_TYPE_COLOR

/-- The backends that the library can be compiled with. -/
inductive Backend
  | FASTCV | OPENCV | NONE
  deriving DecidableEq, Repr

def isTypeSupported : Backend → ImgFrameType → Bool
  | .FASTCV, type => type == .GRAY8 || type == .RAW8 || type == .RGB888i || type == .BGR888i
  | .OPENCV, type => type == .GRAY8 || type == .RAW8 || type == .RAW16 || type == .RGB888i ||
      type == .BGR888i || type == .RGB888p || type == .BGR888p || type == .YUV420p || type == .NV12
  | .NONE, type => type == .GRAY8 || type == .RAW8 || type == .RGB888i || type == .BGR888i ||
      type == .RGB888p || type == .BGR888p || type == .YUV420p || type == .NV12

def ALIGN_UP (value alignment : UInt32) : UInt32 :=
  (value + (alignment - 1)) &&& ~~~(alignment - 1)

/-- `getDstFrameSpecs`, with zero in the members that it leaves unset. -/
def getDstFrameSpecs (width height : UInt32) (type : ImgFrameType) : Except String FrameSpecs :=
  let specs : FrameSpecs := ⟨width, height, 0, 0, 0, 0, 0, 0⟩
  match type with
  | .RGB888p | .BGR888p =>
    .ok { specs with
      p1Stride := width, p2Stride := width, p3Stride := width
      p2Offset := width * height, p3Offset := width * height + width * height }
  | .RGB888i | .BGR888i =>
    .ok { specs with p1Stride := width * 3, p2Stride := width * 3, p3Stride := width * 3 }
  | .NV12 =>
    let p1Stride := ALIGN_UP width 128
    let p2Offset := ALIGN_UP (p1Stride * ALIGN_UP height 32) 4096
    .ok { specs with p1Stride, p2Stride := p1Stride, p2Offset, p3Offset := p2Offset }
  | .YUV420p =>
    let p1Stride := ALIGN_UP width 128
    let p2Stride := ALIGN_UP (width / 2) 128
    let p2Offset := ALIGN_UP (p1Stride * ALIGN_UP height 32) 4096
    .ok { specs with
      p1Stride, p2Stride, p3Stride := p2Stride, p2Offset
      p3Offset := p2Offset + ALIGN_UP (p2Stride * ALIGN_UP (height / 2) 16) 4096 }
  | .RAW8 | .GRAY8 => .ok { specs with p1Stride := ALIGN_UP width 128 }
  | .RAW16 => .ok { specs with p1Stride := width * 2 }
  | _ => .error "Frame type not supported"

def getCcDstFrameSpecs (srcSpecs : FrameSpecs) (typeFrom typeTo : ImgFrameType) :
    Except String FrameSpecs :=
  if typeFrom = typeTo then .ok srcSpecs
  else getDstFrameSpecs srcSpecs.width srcSpecs.height typeTo

def getFrameSize (type : ImgFrameType) (specs : FrameSpecs) : UInt32 :=
  match type with
  | .YUV420p => specs.p3Offset + specs.p3Stride * specs.height / 2
  | .RGB888p | .BGR888p => specs.p3Offset + specs.p3Stride * specs.height
  | .RGB888i | .BGR888i => specs.p1Stride * specs.height
  | .NV12 => specs.p2Offset + specs.p2Stride * specs.height / 2
  | .RAW8 | .GRAY8 | .RAW16 => specs.p1Stride * specs.height
  | _ => 0

/-- `ALIGN_UP` of a `size_t`. -/
def alignUp (value alignment : ℕ) : ℕ :=
  (value + (alignment - 1)) / alignment * alignment

def getAlignedOutputFrameSize (type : ImgFrameType) (width height : ℕ) : ℕ :=
  let alignWidth := fun w => alignUp w 128
  let alignHeight := fun h fx => alignUp h (32 / fx)
  let alignSize := fun s => alignUp s 4096
  match type with
  | .YUV420p => alignSize (alignWidth width * alignHeight height 1) +
      2 * alignSize (alignWidth (width / 2) * alignHeight (height / 2) 2)
  | .RGB888p | .BGR888p => 3 * alignSize (alignWidth width * alignHeight height 1)
  | .RGB888i | .BGR888i => alignSize (alignWidth (3 * width) * alignHeight height 1)
  | .NV12 => alignSize (alignWidth width * alignHeight height 1) +
      alignSize (alignWidth width * alignHeight (height / 2) 2)
  | .RAW8 | .GRAY8 => alignSize (alignWidth width * alignHeight height 1)
  | .RAW16 => alignSize (alignWidth width * alignHeight height 1 * 2)
  | _ => 0

/-! ### The backends -/

/-- Four corners of a rectangle. -/
abbrev Corners (F : Type) := Fin 4 → F × F

/-- What `getFullTransform` returns and leaves in its arguments. -/
structure FullTransform (F M : Type) where
  matrix : M
  srcCorners : List (Corners F)
  outputWidth : UInt32
  outputHeight : UInt32
  outputOps : List (ManipOp F)

/-- The part of the source that a warp reads: `sourceMinX` and the others. -/
structure SourceBounds where
  sourceMinX : ℕ
  sourceMinY : ℕ
  sourceMaxX : ℕ
  sourceMaxY : ℕ
  deriving DecidableEq, Repr

/-- The arithmetic on floating point numbers, with matrices in `M`, and the text of a configuration
without the end of line. -/
structure Geometry (F M : Type) where
  identity : M
  getFullTransform : ImageManipOpsBase F → UInt32 → UInt32 → ImgFrameType → ImgFrameType →
    Except String (FullTransform F M)
  getMatrixInverse : M → Except String M
  sourceBounds : FrameSpecs → List (Corners F) → SourceBounds
  display : ImageManipOpsBase F → String

def Geometry.str (K : Geometry F M) (base : ImageManipOpsBase F) : String :=
  K.display base ++ "\n"

/-- What `ColorChange::build` stores. -/
structure ColorChange where
  srcSpecs : FrameSpecs
  dstSpecs : FrameSpecs
  typeFrom : ImgFrameType
  typeTo : ImgFrameType
  deriving DecidableEq, Repr

/-- What `Warp::build` and `setBackgroundColor` store. -/
structure Warp (F M : Type) where
  srcSpecs : FrameSpecs
  dstSpecs : FrameSpecs
  type : ImgFrameType
  matrix : M
  bounds : SourceBounds
  backgroundColor : UInt32 × UInt32 × UInt32 := (0, 0, 0)

/-! ### The object -/

/-- The bits of `mode`. -/
structure Mode where
  convert : Bool
  colormap : Bool
  warp : Bool
  deriving DecidableEq, Repr

namespace Mode

/-- No bit. -/
def zero : Mode := ⟨false, false, false⟩

/-- `MODE_CONVERT` and no other bit. -/
def CONVERT : Mode := ⟨true, false, false⟩

/-- Bitwise or. -/
def or (m m' : Mode) : Mode :=
  ⟨m.convert || m'.convert, m.colormap || m'.colormap, m.warp || m'.warp⟩

end Mode

/-- `ImageManipOperations`. Of the frames that it owns there are the sizes, if they are allocated. -/
structure ImageManipOperations (F M : Type) where
  mode : Mode
  prevConfig : String
  outputOps : List (ManipOp F)
  matrix : M
  matrixInv : M
  srcCorners : List (Corners F)
  base : ImageManipOpsBase F
  outputFrameType : ImgFrameType
  type : ImgFrameType
  inType : ImgFrameType
  convertInput : Bool
  colormapFrame : Option ℕ
  convertedFrame : Option ℕ
  warpedFrame : Option ℕ
  srcSpecs : FrameSpecs
  preprocCc : Option ColorChange
  warpEngine : Option (Warp F M)
  clrChange : Option ColorChange

/-- The members that the constructor leaves unset. -/
structure Unset where
  outputFrameType : ImgFrameType
  type : ImgFrameType
  inType : ImgFrameType
  srcSpecs : FrameSpecs

/-- A call of `build`. -/
structure BuildCall (F : Type) where
  newBase : ImageManipOpsBase F
  outType : ImgFrameType
  srcFrameSpecs : FrameSpecs
  inFrameType : ImgFrameType

/-- The frames have one row or one column. -/
def BuildCall.OneDimensional (c : BuildCall F) : Prop :=
  c.srcFrameSpecs.width ≤ 1 ∨ c.srcFrameSpecs.height ≤ 1

instance (c : BuildCall F) : Decidable c.OneDimensional :=
  inferInstanceAs (Decidable (c.srcFrameSpecs.width ≤ 1 ∨ c.srcFrameSpecs.height ≤ 1))

namespace ImageManipOperations

variable (backend : Backend) (K : Geometry F M)

/-- The constructor. -/
def new (unset : Unset) : ImageManipOperations F M where
  mode := .zero
  prevConfig := ""
  outputOps := []
  matrix := K.identity
  matrixInv := K.identity
  srcCorners := []
  base := {}
  outputFrameType := unset.outputFrameType
  type := unset.type
  inType := unset.inType
  convertInput := false
  colormapFrame := none
  convertedFrame := none
  warpedFrame := none
  srcSpecs := unset.srcSpecs
  preprocCc := none
  warpEngine := none
  clrChange := none

variable (this : ImageManipOperations F M)

/-- The type of output that a call asks for. `base` is the configuration of the call before. -/
def resolveOutType (c : BuildCall F) : ImgFrameType :=
  if c.outType = .NONE then
    if this.base.colormap ≠ .NONE then VALID_TYPE_COLOR else c.inFrameType
  else c.outType

/-- The call is taken to be the one before. -/
def isCached (c : BuildCall F) : Bool :=
  K.str c.newBase == this.prevConfig && this.resolveOutType c == this.outputFrameType &&
    c.srcFrameSpecs.width == this.srcSpecs.width && c.srcFrameSpecs.height == this.srcSpecs.height &&
      c.inFrameType == this.inType

/-- The bits that a call sets. -/
def requestedMode (c : BuildCall F) (outType : ImgFrameType) : Mode where
  convert := outType != c.inFrameType
  colormap := c.newBase.colormap != .NONE && isSingleChannelu8 c.inFrameType
  warp := c.newBase.hasWarp c.srcFrameSpecs.width c.srcFrameSpecs.height

/-- The members that every call sets. -/
def configure (c : BuildCall F) (outType : ImgFrameType) : ImageManipOperations F M :=
  { this with
    mode := this.mode.or (requestedMode c outType)
    base := if !isSingleChannelu8 c.inFrameType && c.newBase.colormap != .NONE then
      { c.newBase with colormap := .NONE } else c.newBase
    outputFrameType := outType
    inType := c.inFrameType
    type := c.inFrameType
    srcSpecs := c.srcFrameSpecs }

/-- An exception leaves the object as it is. -/
def raise {α : Type} (x : Except String α) : Except (ImageManipOperations F M × String) α :=
  x.mapError fun e => (this, e)

/-- The conversion that comes before everything else: to the type of output if nothing else is asked
for, and to a type that is supported otherwise. -/
def preprocess : Except (ImageManipOperations F M × String) (ImageManipOperations F M) :=
  if this.mode = .CONVERT then do
    let ccDstSpecs ← this.raise
      (getCcDstFrameSpecs this.srcSpecs this.inType this.outputFrameType)
    .ok { this with preprocCc := some ⟨this.srcSpecs, ccDstSpecs, this.inType, this.outputFrameType⟩ }
  else if !isTypeSupported backend this.inType then do
    let color := getValidType this.inType
    let ccDstSpecs ← this.raise (getCcDstFrameSpecs this.srcSpecs this.inType color)
    .ok { this with
      preprocCc := some ⟨this.srcSpecs, ccDstSpecs, this.inType, color⟩
      srcSpecs := ccDstSpecs
      type := color
      convertInput := true
      mode := { this.mode with convert := this.outputFrameType == color } }
  else .ok this

def getOutputFrameSpecs (type : ImgFrameType) : Except String FrameSpecs :=
  if this.mode = .zero then .ok this.srcSpecs
  else getDstFrameSpecs this.base.outputWidth this.base.outputHeight type

/-- `WarpH::build`. -/
def buildWarp (dstSpecs : FrameSpecs) :
    Except (ImageManipOperations F M × String) (ImageManipOperations F M) :=
  let bounds := K.sourceBounds this.srcSpecs this.srcCorners
  let this := { this with
    warpEngine := some {
      srcSpecs := this.srcSpecs
      dstSpecs
      type := this.type
      matrix := this.matrix
      bounds } }
  if bounds.sourceMinX ≥ bounds.sourceMaxX ∨ bounds.sourceMinY ≥ bounds.sourceMaxY then
    .error (this, "Initial crop is outside the source image")
  else .ok this

/-- The warp, and what follows from it; without one the output has the size of the input. -/
def transform : Except (ImageManipOperations F M × String) (ImageManipOperations F M) :=
  let this := { this with matrix := K.identity }
  if this.mode.warp then do
    let full ← this.raise (K.getFullTransform this.base this.srcSpecs.width this.srcSpecs.height
      this.type this.outputFrameType)
    let this := { this with
      base := { this.base with outputWidth := full.outputWidth, outputHeight := full.outputHeight }
      outputOps := full.outputOps
      matrix := full.matrix }
    let matrixInv ← this.raise (K.getMatrixInverse full.matrix)
    let this := { this with matrixInv, srcCorners := full.srcCorners }
    let dstSpecs ← this.raise (this.getOutputFrameSpecs this.type)
    let this ← this.buildWarp K dstSpecs
    let this := { this with
      warpEngine := this.warpEngine.map fun (w : Warp F M) => { w with
        backgroundColor := (this.base.backgroundR, this.base.backgroundG, this.base.backgroundB) } }
    let srcSpecs ← this.raise (this.getOutputFrameSpecs this.type)
    let dstSpecs ← this.raise (this.getOutputFrameSpecs this.outputFrameType)
    .ok { this with clrChange := some ⟨srcSpecs, dstSpecs, this.type, this.outputFrameType⟩ }
  else
    .ok { this with
      base := { this.base with
        outputWidth := this.srcSpecs.width, outputHeight := this.srcSpecs.height } }

/-- A frame that is large enough. -/
def grow (frame : Option ℕ) (size : ℕ) : Option ℕ :=
  match frame with
  | none => some size
  | some old => if old < size then some size else some old

/-- The frames between the steps of `apply`. -/
def allocate : ImageManipOperations F M :=
  let width := this.base.outputWidth.toNat
  let height := this.base.outputHeight.toNat
  let warpedType := if isSingleChannelu8 this.type && this.base.colormap != .NONE then
    VALID_TYPE_COLOR else this.type
  { this with
    convertedFrame := grow this.convertedFrame
      (getAlignedOutputFrameSize this.type this.srcSpecs.width.toNat this.srcSpecs.height.toNat)
    colormapFrame := grow this.colormapFrame (getAlignedOutputFrameSize this.type width height)
    warpedFrame := grow this.warpedFrame (getAlignedOutputFrameSize warpedType width height) }

/-- What `build` does when the object is configured. -/
def rebuild : Except (ImageManipOperations F M × String) (ImageManipOperations F M) :=
  if this.mode = .zero then .ok this
  else do
    let this ← this.preprocess backend
    let this ← this.transform K
    .ok this.allocate

/-- **`ImageManipOperations::build`.** What it throws comes with the object as it is left. -/
def build (c : BuildCall F) : Except (ImageManipOperations F M × String) (ImageManipOperations F M) :=
  let outType := this.resolveOutType c
  if this.isCached K c then .ok this
  else
    let this := { this with prevConfig := K.str c.newBase, outputOps := [] }
    if c.OneDimensional then
      .error (this, "Input image is one dimensional")
    else (this.configure c outType).rebuild backend K

/-! ### Applying it -/

/-- The frames that `apply` works on. -/
inductive Buffer
  | src | dst | convertedFrame | colormapFrame | warpedFrame
  deriving DecidableEq, Repr

/-- What `apply` does. -/
inductive Action (F M : Type)
  | copy
  | colorChange (backend : Option ColorChange) (source target : Buffer)
  | warp (engine : Option (Warp F M)) (source target : Buffer)
  | colormap (colormap : Colormap) (width height : UInt32) (source : Buffer)
      (sourceStride : UInt32) (target : Buffer) (targetStride : UInt32)

/-- The step of `apply` that maps gray to color. -/
def applyColormap : Except String (Action F M) := do
  let aligned := ALIGN_UP this.base.outputWidth 128
  let outputSpecs ← this.getOutputFrameSpecs this.outputFrameType
  let direct := this.outputFrameType == VALID_TYPE_COLOR
  let source : Buffer := if this.mode.warp then .colormapFrame
    else if this.convertInput then .convertedFrame else .src
  let sourceStride := if !this.mode.warp && !this.convertInput then this.srcSpecs.p1Stride else aligned
  .ok (.colormap this.base.colormap this.base.outputWidth this.base.outputHeight source sourceStride
    (if direct then .dst else .warpedFrame) (if direct then outputSpecs.p1Stride else aligned))

/-- **`ImageManipOperations::apply`,** for a source of `srcSize` bytes: what it does, in order. -/
def apply (srcSize : ℕ) : Except String (List (Action F M)) :=
  if srcSize < (getFrameSize this.inType this.srcSpecs).toNat then
    .error "ImageManip not built for the source image specs. Consider rebuilding with the new configuration."
  else if this.mode = .zero then .ok [.copy]
  else if this.mode = .CONVERT then .ok [.colorChange this.preprocCc .src .dst]
  else do
    let hasColormap := this.base.colormap != .NONE
    let converted := if this.convertInput then
      [.colorChange this.preprocCc .src .convertedFrame] else []
    let warped := if this.mode.warp then
      [.warp this.warpEngine (if this.convertInput then .convertedFrame else .src)
        (if hasColormap then .colormapFrame
          else if this.type = this.outputFrameType then .dst else .warpedFrame)] else []
    let colored ← if this.mode.colormap then do .ok [← this.applyColormap] else .ok []
    let changed := if this.type != this.outputFrameType &&
        !(isSingleChannelu8 this.type && hasColormap && this.outputFrameType == VALID_TYPE_COLOR) then
      [.colorChange this.clrChange .warpedFrame .dst] else []
    .ok (converted ++ warped ++ colored ++ changed)

end ImageManipOperations

end ImageManip

end DepthaiCore
