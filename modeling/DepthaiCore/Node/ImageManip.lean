import DepthaiCore.Node.ImageAlign
import DepthaiCore.Utility.FrameLayout
import DepthaiCore.Utility.ImageManipHistory
import DepthaiCore.Utility.ManipPlacement
import DepthaiCore.Utility.ManipRegions

/-!
# Chains of image manipulations

An `ImageManip` node sends a frame on with the transformation that it came with, to which it adds
the matrix of its warp, the size of its output and the rectangles that it cut out. The matrices and
the sizes add up along a chain of nodes. The rectangles are those of the image that comes into the
node, but are put beside the ones of the source as they are.

A node that is neither to warp nor to convert passes its frame on. A size is a number below
`2 ^ 32`, and a quotient of sizes by zero is zero.
-/

namespace DepthaiCore

open MatrixOps Matrix Rectangles Homography

variable {K : Type} [Field K]

namespace ImgTransformation

def addSrcCrops (self : ImgTransformation K) (crops : List (RotatedRect K)) : ImgTransformation K :=
  { self with srcCrops := self.srcCrops ++ crops, cropsValid := false }

def setSize (self : ImgTransformation K) (width height : ℕ) : ImgTransformation K :=
  { self with width, height }

end ImgTransformation

namespace ImageManip

open ImageAlign (thrown thrown_eq_ok)

/-! ### The arithmetic -/

section Arithmetic

variable [LinearOrder K] [FloorRing K]

/-- What is thrown for a failure. -/
def what : Failure → String
  | .runtimeError what => what
  | .invalidArgument what => what
  | .divisionByZero => ""

/-- The part of the source that `WarpH::build` finds around the corners. -/
def sourceBounds (srcFrameSpecs : FrameSpecs) (srcCorners : List (Corners K)) : SourceBounds :=
  srcCorners.foldl (fun bounds corners =>
    let rect : Box K := getOuterRect corners.toList
    { sourceMinX := max bounds.sourceMinX (toSize (max rect.minx 0))
      sourceMinY := max bounds.sourceMinY (toSize (max rect.miny 0))
      sourceMaxX := min bounds.sourceMaxX ⌈rect.maxx⌉.toNat
      sourceMaxY := min bounds.sourceMaxY ⌈rect.maxy⌉.toNat })
    ⟨0, 0, srcFrameSpecs.width.toNat, srcFrameSpecs.height.toNat⟩

/-- The arithmetic of an object, with the functions that it is made of. -/
def geometry (num : WarpNumerics K) (display : ImageManipOpsBase K → String) :
    Geometry K (Matrix3 K) where
  identity := 1
  getFullTransform base inputWidth inputHeight type outputFrameType :=
    (getFullTransform num base inputWidth inputHeight type outputFrameType).mapError what
  getMatrixInverse M := (MatrixOps.getMatrixInverse M).mapError what
  sourceBounds := sourceBounds
  display := display

def ImageManipOperations.getSrcCrops (num : Numerics K)
    (this : ImageManipOperations K (Matrix3 K)) : List (RotatedRect K) :=
  this.srcCorners.map fun corners => num.getOuterRotatedRect corners.toList

end Arithmetic

/-! ### Frames and nodes -/

/-- What the node reads and writes of an `ImgFrame`. -/
structure ImgFrame (K : Type) [Field K] where
  type : ImgFrameType
  width : UInt32
  height : UInt32
  stride : UInt32
  p1Offset : UInt32 := 0
  p2Offset : UInt32 := 0
  p3Offset : UInt32 := 0
  transformation : ImgTransformation K
  dataSize : ℕ

/-- `getSrcFrameSpecs`, with zero in the members that it leaves unset. -/
def ImgFrame.getSrcFrameSpecs (srcSpecs : ImgFrame K) : Except String FrameSpecs :=
  let width := srcSpecs.width
  let height := srcSpecs.height
  let p1Offset := srcSpecs.p1Offset
  let stride (least : UInt32) := if least ≤ srcSpecs.stride then srcSpecs.stride else least
  match srcSpecs.type with
  | .RGB888p | .BGR888p =>
    let p1Stride := stride width
    let p2Offset := if 0 < srcSpecs.p2Offset then srcSpecs.p2Offset else p1Stride * height
    let p3Offset := if 0 < srcSpecs.p3Offset then srcSpecs.p3Offset else 2 * p1Stride * height
    .ok ⟨width, height, p1Offset, p2Offset, p3Offset, p1Stride, p1Stride, p1Stride⟩
  | .RGB888i | .BGR888i =>
    let p1Stride := stride (3 * width)
    .ok ⟨width, height, p1Offset, p1Offset, p1Offset, p1Stride, p1Stride, p1Stride⟩
  | .NV12 =>
    let p2Offset := if 0 < srcSpecs.p2Offset then srcSpecs.p2Offset else width * height
    let p1Stride := if width ≤ srcSpecs.stride then srcSpecs.stride else
      (p2Offset - p1Offset) / height
    .ok ⟨width, height, p1Offset, p2Offset, p2Offset, p1Stride, p1Stride, p1Stride⟩
  | .YUV420p =>
    let p2Offset := if 0 < srcSpecs.p2Offset then srcSpecs.p2Offset else width * height
    let p3Offset := if srcSpecs.p2Offset < srcSpecs.p3Offset then srcSpecs.p3Offset else
      p2Offset + width * height / 4
    let p1Stride := if width ≤ srcSpecs.stride then srcSpecs.stride else
      (p2Offset - p1Offset) / height
    let p2Stride := (p3Offset - p2Offset) / (height / 2)
    .ok ⟨width, height, p1Offset, p2Offset, p3Offset, p1Stride, p2Stride, p2Stride⟩
  | .RAW8 | .GRAY8 => .ok ⟨width, height, p1Offset, 0, 0, stride width, 0, 0⟩
  | .RAW16 => .ok ⟨width, height, p1Offset, 0, 0, stride (width * 2), 0, 0⟩
  | type =>
    let index := type.ctorIdx
    .error s!"Frame type {index} not supported"

/-- A node that has just been started, with its configuration. -/
structure Manip (K : Type) where
  config : ImageManipOpsBase K
  outputFrameType : ImgFrameType := .NONE
  outputFrameSize : ℕ
  backend : Backend
  unset : Unset

namespace Manip

variable [LinearOrder K] [FloorRing K] (num : WarpNumerics K)
  (display : ImageManipOpsBase K → String) (node : Manip K) (frame : ImgFrame K)

/-- The object of the node, built for a frame. -/
def build : Except ImageAlign.Fault (ImageManipOperations K (Matrix3 K)) := do
  let srcFrameSpecs ← thrown frame.getSrcFrameSpecs
  let manip := (ImageManipOperations.new (geometry num display) node.unset).build node.backend
    (geometry num display) ⟨node.config, node.outputFrameType, srcFrameSpecs, frame.type⟩
  thrown (manip.mapError Prod.snd)

/-- What `ImageManip::run` sets in a frame that it sends. -/
def setFrame (manip : ImageManipOperations K (Matrix3 K)) : Except ImageAlign.Fault (ImgFrame K) := do
  let outType := manip.outputFrameType
  let dstSpecs ← thrown (manip.getOutputFrameSpecs outType)
  let transformation := frame.transformation.addSrcCrops (manip.getSrcCrops num.toNumerics)
  let transformation ← ImageAlign.lift (transformation.addTransformation manip.matrix)
  return { type := outType
           width := dstSpecs.width
           height := dstSpecs.height
           stride := dstSpecs.p1Stride
           p1Offset := dstSpecs.p1Offset
           p2Offset := dstSpecs.p2Offset
           p3Offset := dstSpecs.p3Offset
           transformation := transformation.setSize dstSpecs.width.toNat dstSpecs.height.toNat
           dataSize := node.outputFrameSize }

/-- A round of `loop`: the frame that is sent, if one is. -/
def process : Except ImageAlign.Fault (Option (ImgFrame K)) := do
  let manip ← node.build num display frame
  let outputSize ← thrown manip.getOutputSize
  if outputSize = 0 then
    return some frame
  else if outputSize ≤ node.outputFrameSize then do
    let _ ← thrown (manip.apply frame.dataSize)
    return some (← node.setFrame num frame manip)
  else
    return none

end Manip

/-! ### What a node is built for -/

section Built

variable {F M : Type} {backend : Backend} {K : Geometry F M} {s s' t : ImageManipOperations F M}
  {c : BuildCall F}

theorem getDstFrameSpecs_size {width height : UInt32} {type : ImgFrameType} {specs : FrameSpecs}
    (h : getDstFrameSpecs width height type = .ok specs) :
    specs.width = width ∧ specs.height = height := by
  unfold getDstFrameSpecs at h
  split at h
  all_goals
    first
    | obtain rfl := Except.ok.inj h
      exact ⟨rfl, rfl⟩
    | cases h

theorem getCcDstFrameSpecs_size {srcSpecs specs : FrameSpecs} {typeFrom typeTo : ImgFrameType}
    (h : getCcDstFrameSpecs srcSpecs typeFrom typeTo = .ok specs) :
    specs.width = srcSpecs.width ∧ specs.height = srcSpecs.height := by
  rw [getCcDstFrameSpecs] at h
  split at h
  · obtain rfl := Except.ok.inj h
    exact ⟨rfl, rfl⟩
  · exact getDstFrameSpecs_size h

namespace ImageManipOperations

/-- A conversion in front changes neither the size nor what belongs to a warp. -/
structure Unwarped (s s' : ImageManipOperations F M) : Prop where
  base : s'.base = s.base
  warp : s'.mode.warp = s.mode.warp
  width : s'.srcSpecs.width = s.srcSpecs.width
  height : s'.srcSpecs.height = s.srcSpecs.height
  srcCorners : s'.srcCorners = s.srcCorners
  warpEngine : s'.warpEngine = s.warpEngine

theorem unwarped_preprocess (h : s.preprocess backend = .ok s') : s.Unwarped s' := by
  rw [preprocess] at h
  split at h
  · obtain ⟨specs, -, h⟩ := Loop.bind_eq_ok.1 h
    obtain rfl := Except.ok.inj h
    exact ⟨rfl, rfl, rfl, rfl, rfl, rfl⟩
  split at h
  · obtain ⟨specs, hspecs, h⟩ := Loop.bind_eq_ok.1 h
    obtain rfl := Except.ok.inj h
    obtain ⟨hwidth, hheight⟩ := getCcDstFrameSpecs_size (raise_eq_ok.1 hspecs)
    exact ⟨rfl, rfl, hwidth, hheight, rfl, rfl⟩
  · obtain rfl := Except.ok.inj h
    exact ⟨rfl, rfl, rfl, rfl, rfl, rfl⟩

/-- An object has the matrix, the corners and the size that were computed for it. -/
structure Has (full : FullTransform F M) (t : ImageManipOperations F M) : Prop where
  matrix : t.matrix = full.matrix
  srcCorners : t.srcCorners = full.srcCorners
  warpEngine : t.warpEngine.map Warp.matrix = some full.matrix
  outputWidth : t.base.outputWidth = full.outputWidth
  outputHeight : t.base.outputHeight = full.outputHeight

theorem has_transform (hwarp : s.mode.warp = true) (h : s.transform K = .ok s') :
    s'.mode = s.mode ∧ s'.outputFrameType = s.outputFrameType ∧
      ∃ full, K.getFullTransform s.base s.srcSpecs.width s.srcSpecs.height s.type
        s.outputFrameType = .ok full ∧ s'.Has full := by
  rw [transform] at h
  dsimp only at h
  rw [if_pos hwarp] at h
  obtain ⟨full, hfull, h⟩ := Loop.bind_eq_ok.1 h
  obtain ⟨matrixInv, -, h⟩ := Loop.bind_eq_ok.1 h
  obtain ⟨dstSpecs, -, h⟩ := Loop.bind_eq_ok.1 h
  obtain ⟨warped, hbuild, h⟩ := Loop.bind_eq_ok.1 h
  rw [buildWarp] at hbuild
  split at hbuild
  · cases hbuild
  obtain rfl := Except.ok.inj hbuild
  obtain ⟨ccSrcSpecs, -, h⟩ := Loop.bind_eq_ok.1 h
  obtain ⟨ccDstSpecs, -, h⟩ := Loop.bind_eq_ok.1 h
  obtain rfl := Except.ok.inj h
  exact ⟨rfl, rfl, full, raise_eq_ok.1 hfull, rfl, rfl, rfl, rfl, rfl⟩

/-- **What a new object is built for**: for no warp, and then the output has the size of the input,
or for the one of the configuration. -/
inductive BuiltFor (K : Geometry F M) (c : BuildCall F) (t : ImageManipOperations F M) : Prop
  | still (hwarp : c.newBase.hasWarp c.srcFrameSpecs.width c.srcFrameSpecs.height = false)
      (matrix : t.matrix = K.identity) (srcCorners : t.srcCorners = [])
      (warpEngine : t.warpEngine = none)
      (size : ∀ specs, t.getOutputFrameSpecs t.outputFrameType = .ok specs →
        specs.width = c.srcFrameSpecs.width ∧ specs.height = c.srcFrameSpecs.height)
  | warp (base : ImageManipOpsBase F) (full : FullTransform F M) (type : ImgFrameType)
      (hwarp : c.newBase.hasWarp c.srcFrameSpecs.width c.srcFrameSpecs.height = true)
      (operations : base.operations = c.newBase.operations)
      (outputWidth : base.outputWidth = c.newBase.outputWidth)
      (outputHeight : base.outputHeight = c.newBase.outputHeight)
      (hfull : K.getFullTransform base c.srcFrameSpecs.width c.srcFrameSpecs.height type
        t.outputFrameType = .ok full)
      (has : t.Has full) (mode : t.mode ≠ .zero)

/-- **What a node is built for.** -/
theorem build_new_spec {unset : Unset} (h : (new K unset).build backend K c = .ok t) :
    BuiltFor K c t := by
  rw [build] at h
  simp only [isCached_new, Bool.false_eq_true, if_false] at h
  split at h
  · cases h
  -- every bit of the mode is one that the call sets
  generalize hs : configure _ c _ = s at h
  have hmode : s.mode.warp = c.newBase.hasWarp c.srcFrameSpecs.width c.srcFrameSpecs.height := by
    rw [← hs]
    exact Bool.false_or _
  have hwidth : s.srcSpecs.width = c.srcFrameSpecs.width := by rw [← hs]; rfl
  have hheight : s.srcSpecs.height = c.srcFrameSpecs.height := by rw [← hs]; rfl
  have hcorners : s.srcCorners = [] := by rw [← hs]; rfl
  have hengine : s.warpEngine = none := by rw [← hs]; rfl
  have hbase : s.base.operations = c.newBase.operations ∧
      s.base.outputWidth = c.newBase.outputWidth ∧
        s.base.outputHeight = c.newBase.outputHeight := by
    rw [← hs, configure]
    dsimp only
    split <;> exact ⟨rfl, rfl, rfl⟩
  rw [rebuild] at h
  split at h
  · rename_i hzero
    obtain rfl := Except.ok.inj h
    refine .still ?_ ?_ hcorners hengine fun specs hspecs => ?_
    · rw [← hmode, hzero]
      rfl
    · rw [← hs]
      rfl
    · rw [getOutputFrameSpecs, if_pos hzero] at hspecs
      obtain rfl := Except.ok.inj hspecs
      exact ⟨hwidth, hheight⟩
  · obtain ⟨s₁, hpre, h⟩ := Loop.bind_eq_ok.1 h
    obtain ⟨s₂, htransform, h⟩ := Loop.bind_eq_ok.1 h
    obtain rfl := Except.ok.inj h
    have hun := unwarped_preprocess hpre
    by_cases hwarp : s₁.mode.warp = true
    · obtain ⟨hsame, hout, full, hfull, has⟩ := has_transform hwarp htransform
      rw [hun.base, hun.width, hun.height, hwidth, hheight, ← hout] at hfull
      refine .warp s.base full s₁.type ?_ ?_ ?_ ?_ hfull
        ⟨has.matrix, has.srcCorners, has.warpEngine, has.outputWidth, has.outputHeight⟩ ?_
      · rw [← hmode, ← hun.warp, hwarp]
      · exact hbase.1
      · exact hbase.2.1
      · exact hbase.2.2
      · intro hzero
        have hmode₂ : s₂.mode = .zero := hzero
        rw [← hsame, hmode₂] at hwarp
        cases hwarp
    · rw [transform] at htransform
      dsimp only at htransform
      rw [if_neg hwarp] at htransform
      obtain rfl := Except.ok.inj htransform
      refine .still ?_ rfl (hun.srcCorners.trans hcorners) (hun.warpEngine.trans hengine)
        fun specs hspecs => ?_
      · rw [← hmode, ← hun.warp]
        exact Bool.eq_false_iff.2 hwarp
      · rw [← hwidth, ← hheight, ← hun.width, ← hun.height]
        rw [getOutputFrameSpecs] at hspecs
        split at hspecs
        · obtain rfl := Except.ok.inj hspecs
          exact ⟨rfl, rfl⟩
        · exact getDstFrameSpecs_size hspecs

end ImageManipOperations

end Built

/-! ### What the metadata say -/

section Chain

variable [LinearOrder K]

/-- The points of a rectangle. -/
def area (trig : Trigonometry K) (rect : RotatedRect K) : Set (K × K) :=
  convexHull K {p | p ∈ rect.corners trig}

/-- A frame that comes from its source as it is. -/
structure ImgFrame.IsSource (frame : ImgFrame K) : Prop where
  matrix : frame.transformation.transformationMatrix = 1
  srcSize : frame.transformation.srcWidth = frame.width.toNat ∧
    frame.transformation.srcHeight = frame.height.toNat
  size : frame.transformation.width = frame.width.toNat ∧
    frame.transformation.height = frame.height.toNat
  srcCrops : frame.transformation.srcCrops = []

/-- The operations of a node are translations, rotations, flips, resizes and crops, and it does not
undistort. -/
def Manip.IsPlain {K : Type} (node : Manip K) : Prop :=
  (∀ op ∈ node.config.operations, op.IsPlain) ∧ node.config.undistort = false

variable [FloorRing K] (num : WarpNumerics K) (display : ImageManipOpsBase K → String)

/-- The frame that a node sends. -/
def pass (frame : ImgFrame K) (node : Manip K) : Option (ImgFrame K) :=
  match node.process num display frame with
  | .ok sent => sent
  | .error _ => none

/-- Where the warp of a node takes the image. -/
def warpOf (frame : ImgFrame K) (node : Manip K) : Matrix3 K :=
  match node.build num display frame with
  | .ok manip => (manip.warpEngine.map Warp.matrix).getD 1
  | .error _ => 1

/-- The output of a node, in the image that comes in. -/
def outputOf (frame : ImgFrame K) (node : Manip K) : Set (K × K) :=
  {p | ∀ sent, pass num display frame node = some sent →
    p ∈ takenInto (warpOf num display frame node) sent.width sent.height}

/-- **The rectangles of a node**: those of its crops, and its output. -/
def regionsOf (frame : ImgFrame K) (node : Manip K) : List (Set (K × K)) :=
  regions num (.initial frame.width frame.height node.config.outputWidth node.config.outputHeight)
    node.config.operations ++ [outputOf num display frame node]

/-- What a node cuts the image down to has four corners at right angles. -/
def Rectangular (frame : ImgFrame K) (node : Manip K) : Prop :=
  ∀ manip, node.build num display frame = .ok manip →
    ∀ corners ∈ manip.srcCorners, IsRectangle corners.toList

/-- **What came before leaves the rectangles of a node where they are**, if it has any: the matrix
of the frame takes each of them onto itself. -/
def Stays (frame : ImgFrame K) (node : Manip K) : Prop :=
  node.config.hasWarp frame.width frame.height = true →
    ∀ R ∈ regionsOf num display frame node, ∀ p,
      image frame.transformation.transformationMatrix p ∈ R ↔ p ∈ R

/-- The warps of a chain, in order. -/
def warps (tr : List (ImgFrame K × Manip K)) : List (Matrix3 K) :=
  tr.map fun e => warpOf num display e.1 e.2

/-- **A point is left by every node**: where the nodes before take it, it is in all rectangles. -/
def Kept : List (ImgFrame K × Manip K) → K × K → Prop
  | [], _ => True
  | (frame, node) :: tr, p =>
    (∀ R ∈ regionsOf num display frame node, p ∈ R) ∧
      Kept tr (image (warpOf num display frame node) p)

/-- **What the metadata of the last frame say**: where the warps take the points, the size of the
frame, and which points of the source are left. -/
structure Described (start : ImgFrame K) (tr : List (ImgFrame K × Manip K)) (last : ImgFrame K) :
    Prop where
  maps : ∀ p : K × K, last.transformation.transformPoint { x := p.1, y := p.2 } =
    .ok { x := (along (warps num display tr) p).1, y := (along (warps num display tr) p).2 }
  size : last.transformation.width = last.width.toNat ∧
    last.transformation.height = last.height.toNat
  crops : ∀ p ∈ frame (start.width.toNat : K) start.height.toNat,
    (∀ rect ∈ last.transformation.srcCrops, p ∈ area num.toTrigonometry rect) ↔
      Kept num display tr p

/-! ### One node -/

/-- **What a node makes of the transformation** of the frames that come in. -/
structure Adds (warp : Matrix3 K) (crops : List (RotatedRect K)) (img sent : ImgFrame K) :
    Prop where
  matrix : sent.transformation.transformationMatrix = warp * img.transformation.transformationMatrix
  srcCrops : sent.transformation.srcCrops = img.transformation.srcCrops ++ crops
  size : sent.transformation.width = sent.width.toNat ∧
    sent.transformation.height = sent.height.toNat

/-- What a node without a warp leaves as it is. -/
structure Still (crops : List (RotatedRect K)) (img sent : ImgFrame K) (node : Manip K) : Prop where
  hasWarp : node.config.hasWarp img.width img.height = false
  srcCrops : crops = []
  warp : warpOf num display img node = 1
  size : sent.width = img.width ∧ sent.height = img.height
  regions : regionsOf num display img node = [outputOf num display img node]

section Step

variable {num display} {img sent : ImgFrame K} {node : Manip K}
  {manip : ImageManipOperations K (Matrix3 K)}

omit [LinearOrder K] [FloorRing K] in
theorem getSrcFrameSpecs_size {specs : FrameSpecs} (h : img.getSrcFrameSpecs = .ok specs) :
    specs.width = img.width ∧ specs.height = img.height := by
  unfold ImgFrame.getSrcFrameSpecs at h
  dsimp only at h
  split at h
  all_goals
    first
    | obtain rfl := Except.ok.inj h
      exact ⟨rfl, rfl⟩
    | cases h

omit [Field K] [LinearOrder K] [FloorRing K] in
theorem mode_of_getOutputSize (h : manip.getOutputSize = .ok 0) : manip.mode = .zero := by
  by_contra hmode
  rw [ImageManipOperations.getOutputSize, if_neg hmode] at h
  obtain ⟨size, -, h⟩ := Loop.bind_eq_ok.1 h
  split at h
  · cases h
  · rename_i hsize
    exact hsize (Except.ok.inj h)

/-- A node that sends a frame has built its object, and sends the frame on or one that it sets. -/
theorem pass_cases (h : pass num display img node = some sent) :
    ∃ manip, node.build num display img = .ok manip ∧
      (sent = img ∧ manip.mode = .zero ∨ node.setFrame num img manip = .ok sent) := by
  rw [pass] at h
  split at h
  · rename_i x hprocess
    obtain rfl := h
    obtain ⟨manip, hbuild, hprocess⟩ := Loop.bind_eq_ok.1 hprocess
    obtain ⟨outputSize, hsize, hprocess⟩ := Loop.bind_eq_ok.1 hprocess
    refine ⟨manip, hbuild, ?_⟩
    split at hprocess
    · rename_i hzero
      rw [hzero] at hsize
      exact .inl ⟨(Option.some.inj (Except.ok.inj hprocess)).symm,
        mode_of_getOutputSize (thrown_eq_ok.1 hsize)⟩
    split at hprocess
    · obtain ⟨_, -, hprocess⟩ := Loop.bind_eq_ok.1 hprocess
      obtain ⟨last, hset, hprocess⟩ := Loop.bind_eq_ok.1 hprocess
      obtain rfl := Option.some.inj (Except.ok.inj hprocess)
      exact .inr hset
    · cases hprocess
  · cases h

omit [FloorRing K] in
theorem adds_setFrame (h : node.setFrame num img manip = .ok sent) :
    Adds manip.matrix (manip.getSrcCrops num.toNumerics) img sent ∧
      ∃ specs, manip.getOutputFrameSpecs manip.outputFrameType = .ok specs ∧
        sent.width = specs.width ∧ sent.height = specs.height := by
  obtain ⟨specs, hspecs, h⟩ := Loop.bind_eq_ok.1 h
  obtain ⟨transformation, hadd, h⟩ := Loop.bind_eq_ok.1 h
  obtain rfl := Except.ok.inj h
  obtain ⟨inverse, -, hadd⟩ := Loop.bind_eq_ok.1 (ImageAlign.lift_eq_ok.1 hadd)
  obtain rfl := Except.ok.inj hadd
  exact ⟨⟨matMul_eq _ _, rfl, rfl, rfl⟩, specs, thrown_eq_ok.1 hspecs, rfl, rfl⟩

omit [FloorRing K] in
/-- A rectangle that is fitted around corners at right angles has what they surround. -/
theorem area_getOuterRotatedRect (hkeeps : KeepsRectangles num.toNumerics) {corners : Corners K}
    (h : IsRectangle corners.toList) :
    area num.toTrigonometry (num.getOuterRotatedRect corners.toList) = hull corners := by
  have hset : {p | p ∈ (num.getOuterRotatedRect corners.toList).corners num.toTrigonometry} =
      {p | p ∈ corners.toList} := Set.ext fun _ => (hkeeps _ h).mem_iff
  rw [area, hull, hset]

omit [Field K] [LinearOrder K] [FloorRing K] in
theorem operations_of_hasWarp {base : ImageManipOpsBase K} {width height : UInt32}
    (h : base.hasWarp width height = false) : base.operations = [] := by
  simp only [ImageManipOpsBase.hasWarp, Bool.or_eq_false_iff, Bool.not_eq_false',
    List.isEmpty_iff] at h
  exact h.1.1.1

theorem outputOf_eq (h : pass num display img node = some sent) :
    outputOf num display img node =
      takenInto (warpOf num display img node) sent.width sent.height := by
  ext p
  rw [outputOf, Set.mem_ofPred_eq, h]
  exact ⟨fun hp => hp sent rfl, fun hp sent' hsent' => by rwa [← Option.some.inj hsent']⟩

/-- **One node.** It adds the matrix of its warp, its size, and its rectangles as they are. -/
theorem adds_of_pass [IsStrictOrderedRing K] (hkeeps : KeepsRectangles num.toNumerics)
    (hplain : node.IsPlain) (hrectangular : Rectangular num display img node)
    (hsize : img.transformation.width = img.width.toNat ∧
      img.transformation.height = img.height.toNat)
    (h : pass num display img node = some sent) :
    ∃ crops, Adds (warpOf num display img node) crops img sent ∧
      Affine (warpOf num display img node) ∧
      (crops.map (area num.toTrigonometry) = regionsOf num display img node ∧
          node.config.hasWarp img.width img.height = true ∨
        Still num display crops img sent node) := by
  obtain ⟨manip, hbuild, hsent⟩ := pass_cases h
  obtain ⟨specs, hspecs, hnew⟩ := Loop.bind_eq_ok.1 hbuild
  obtain ⟨hwidth, hheight⟩ := getSrcFrameSpecs_size (thrown_eq_ok.1 hspecs)
  have hbuilt := ImageManipOperations.build_new_spec
    (Loop.mapError_eq_ok.1 (thrown_eq_ok.1 hnew))
  have hwarpOf : warpOf num display img node = (manip.warpEngine.map Warp.matrix).getD 1 := by
    rw [warpOf, hbuild]
  cases hbuilt with
  | still hwarp matrix srcCorners warpEngine size =>
    rw [hwidth, hheight] at hwarp
    rw [warpEngine] at hwarpOf
    have hone : warpOf num display img node = 1 := hwarpOf
    have hregions : regionsOf num display img node = [outputOf num display img node] := by
      rw [regionsOf, operations_of_hasWarp hwarp, regions, List.nil_append]
    rw [hone]
    rcases hsent with ⟨rfl, -⟩ | hset
    · exact ⟨[], ⟨(Matrix.one_mul _).symm, (List.append_nil _).symm, hsize⟩, .refl,
        .inr ⟨hwarp, rfl, hone, ⟨rfl, rfl⟩, hregions⟩⟩
    · obtain ⟨hadds, specs', hspecs', hsentW, hsentH⟩ := adds_setFrame hset
      obtain ⟨hspecsW, hspecsH⟩ := size specs' hspecs'
      have hcrops : manip.getSrcCrops num.toNumerics = [] := by
        rw [ImageManipOperations.getSrcCrops, srcCorners, List.map_nil]
      rw [hcrops, matrix] at hadds
      exact ⟨[], hadds, .refl, .inr ⟨hwarp, rfl, hone,
        ⟨hsentW.trans (hspecsW.trans hwidth), hsentH.trans (hspecsH.trans hheight)⟩, hregions⟩⟩
  | warp base full type hwarp operations outputWidth outputHeight hfull has mode =>
    have hset := hsent.resolve_left fun hsent => mode hsent.2
    obtain ⟨hadds, specs', hspecs', hsentW, hsentH⟩ := adds_setFrame hset
    rw [ImageManipOperations.getOutputFrameSpecs, if_neg mode] at hspecs'
    obtain ⟨hspecsW, hspecsH⟩ := getDstFrameSpecs_size hspecs'
    rw [has.warpEngine] at hwarpOf
    have hmatrix : warpOf num display img node = full.matrix := hwarpOf
    have hplain' : ∀ op ∈ base.operations, op.IsPlain := by
      rw [operations]
      exact hplain.1
    obtain ⟨haffine, hhull⟩ := getFullTransform_hull hplain' (Loop.mapError_eq_ok.1 hfull)
    rw [has.matrix, ← hmatrix] at hadds
    rw [← hmatrix] at haffine
    refine ⟨_, hadds, haffine, .inl ⟨?_, ?_⟩⟩
    · -- the rectangles that are fitted around the corners have what these surround
      have harea : (manip.getSrcCrops num.toNumerics).map (area num.toTrigonometry) =
          full.srcCorners.map hull := by
        rw [ImageManipOperations.getSrcCrops, List.map_map, ← has.srcCorners]
        exact List.map_congr_left fun corners hcorners =>
          area_getOuterRotatedRect hkeeps (hrectangular manip hbuild corners hcorners)
      rw [harea, hhull, regionsOf, outputOf_eq h, hmatrix, hsentW, hsentH, hspecsW, hspecsH,
        has.outputWidth, has.outputHeight, operations, outputWidth, outputHeight]
      simp only [hwidth, hheight]
    · rw [← hwidth, ← hheight]
      exact hwarp

end Step

/-! ### A chain of nodes -/

section Run

variable {num display} {start last : ImgFrame K} {tr : List (ImgFrame K × Manip K)}

omit [LinearOrder K] [FloorRing K] in
theorem along_concat (route : List (Matrix3 K)) (M : Matrix3 K) (p : K × K) :
    along (route ++ [M]) p = image M (along route p) := by
  induction route generalizing p with
  | nil => rfl
  | cons N route ih => exact ih (image N p)

theorem kept_concat (tr : List (ImgFrame K × Manip K)) (img : ImgFrame K) (node : Manip K)
    (p : K × K) :
    Kept num display (tr ++ [(img, node)]) p ↔ Kept num display tr p ∧
      ∀ R ∈ regionsOf num display img node, along (warps num display tr) p ∈ R := by
  induction tr generalizing p with
  | nil => exact and_comm
  | cons e tr ih =>
    rw [List.cons_append, Kept, ih, Kept, and_assoc]
    rfl

/-- **The invariant of a chain.** What is left of the source lies in the frame. -/
structure Tracks (num : WarpNumerics K) (display : ImageManipOpsBase K → String)
    (start : ImgFrame K) (tr : List (ImgFrame K × Manip K)) (last : ImgFrame K) : Prop where
  affine : Affine last.transformation.transformationMatrix
  maps : ∀ p, image last.transformation.transformationMatrix p = along (warps num display tr) p
  size : last.transformation.width = last.width.toNat ∧
    last.transformation.height = last.height.toNat
  crops : ∀ p ∈ frame (start.width.toNat : K) start.height.toNat,
    (∀ rect ∈ last.transformation.srcCrops, p ∈ area num.toTrigonometry rect) ↔
      Kept num display tr p
  inside : ∀ p ∈ frame (start.width.toNat : K) start.height.toNat, Kept num display tr p →
    along (warps num display tr) p ∈ frame (last.width.toNat : K) last.height.toNat

theorem tracks_source (h : start.IsSource) : Tracks num display start [] start where
  affine := h.matrix ▸ .refl
  maps p := by rw [h.matrix, image_one]; rfl
  size := h.size
  crops p _ := by
    rw [h.srcCrops]
    exact iff_of_true (fun _ hrect => absurd hrect List.not_mem_nil) trivial
  inside p hp _ := hp

/-- **One more node.** -/
theorem Tracks.step [IsStrictOrderedRing K] {img sent : ImgFrame K} {node : Manip K}
    (hkeeps : KeepsRectangles num.toNumerics) (h : Tracks num display start tr img)
    (hplain : node.IsPlain) (hrectangular : Rectangular num display img node)
    (hstays : Stays num display img node) (hpass : pass num display img node = some sent) :
    Tracks num display start (tr ++ [(img, node)]) sent := by
  obtain ⟨crops, hadds, haffine, hcrops⟩ := adds_of_pass hkeeps hplain hrectangular h.size hpass
  have hwarps : ∀ p, along (warps num display (tr ++ [(img, node)])) p =
      image (warpOf num display img node) (along (warps num display tr) p) := by
    intro p
    rw [warps, List.map_append, List.map_singleton, along_concat]
    rfl
  have houtput : outputOf num display img node ∈ regionsOf num display img node :=
    List.mem_append_right _ (List.mem_singleton_self _)
  refine ⟨?_, fun p => ?_, hadds.size, fun p hp => ?_, fun p hp hkept => ?_⟩
  · rw [hadds.matrix]
    exact haffine.mul h.affine
  · rw [hadds.matrix, hwarps, ← h.maps, h.affine.image_image]
  · rw [kept_concat, hadds.srcCrops, ← h.crops p hp, List.forall_mem_append]
    rcases hcrops with ⟨hmap, hwarp⟩ | hstill
    · -- the rectangles are put there as they are, and stay where they are
      refine and_congr_right fun _ => ?_
      have hall : (∀ rect ∈ crops, p ∈ area num.toTrigonometry rect) ↔
          ∀ R ∈ regionsOf num display img node, p ∈ R := by
        rw [← hmap, List.forall_mem_map]
      rw [hall]
      exact forall₂_congr fun R hR => by rw [← h.maps, hstays hwarp R hR p]
    · -- there is no rectangle, and the output is the frame
      rw [hstill.srcCrops, hstill.regions]
      refine and_congr_right fun hrects => iff_of_true
        (fun _ hrect => absurd hrect List.not_mem_nil) ?_
      intro R hR
      rw [List.mem_singleton.1 hR, outputOf_eq hpass, hstill.warp, hstill.size.1, hstill.size.2]
      show image 1 _ ∈ frame _ _
      rw [image_one]
      exact h.inside p hp ((h.crops p hp).1 hrects)
  · have hlast := ((kept_concat tr img node p).1 hkept).2 _ houtput
    rw [outputOf_eq hpass] at hlast
    rw [hwarps]
    exact hlast

/-- **A chain whose nodes have rectangles that stay where they are.** -/
theorem tracks_of_run [IsStrictOrderedRing K] (hkeeps : KeepsRectangles num.toNumerics)
    (hstart : start.IsSource) (hrun : Transition.Run (pass num display) start tr last)
    (hplain : ∀ e ∈ tr, e.2.IsPlain) (hrectangular : ∀ e ∈ tr, Rectangular num display e.1 e.2)
    (hstays : ∀ e ∈ tr, Stays num display e.1 e.2) : Tracks num display start tr last := by
  induction hrun with
  | nil => exact tracks_source hstart
  | @snoc img sent node tr _ hstep ih =>
    have hmem : (img, node) ∈ tr ++ [(img, node)] :=
      List.mem_append_right _ (List.mem_singleton_self _)
    have hbefore : ∀ e ∈ tr, e ∈ tr ++ [(img, node)] := fun e he => List.mem_append_left _ he
    exact (ih (fun e he => hplain e (hbefore e he)) (fun e he => hrectangular e (hbefore e he))
      fun e he => hstays e (hbefore e he)).step hkeeps (hplain _ hmem) (hrectangular _ hmem)
        (hstays _ hmem) hstep

omit [FloorRing K] in
/-- A point by a matrix with a linear part and a shift. -/
theorem transformPoint_of_affine [IsStrictOrderedRing K] {self : ImgTransformation K}
    (h : Affine self.transformationMatrix) (p : K × K) :
    self.transformPoint { x := p.1, y := p.2 } = .ok
      { x := (image self.transformationMatrix p).1
        y := (image self.transformationMatrix p).2 } := by
  have hbound : 1 / 1000000 ≤ |(self.transformationMatrix *ᵥ Homography.lift p) 2| := by
    rw [h.mulVec_lift_two, abs_one]
    norm_num
  rw [ImgTransformation.transformPoint, matVecMul_eq]
  show (dehomogenizePoint3 (self.transformationMatrix *ᵥ Homography.lift p) >>= _) = _
  rw [dehomogenizePoint3_eq hbound]
  rfl

/-- **What the metadata of a chain say**, if what comes before a node leaves its rectangles where
they are. -/
theorem described_of_run [IsStrictOrderedRing K] (hkeeps : KeepsRectangles num.toNumerics)
    (hstart : start.IsSource) (hrun : Transition.Run (pass num display) start tr last)
    (hplain : ∀ e ∈ tr, e.2.IsPlain) (hrectangular : ∀ e ∈ tr, Rectangular num display e.1 e.2)
    (hstays : ∀ e ∈ tr, Stays num display e.1 e.2) : Described num display start tr last := by
  have h := tracks_of_run hkeeps hstart hrun hplain hrectangular hstays
  refine ⟨fun p => ?_, h.size, h.crops⟩
  rw [transformPoint_of_affine h.affine, h.maps]

end Run

end Chain

/-! ### Squares that are cut down and scaled -/

namespace Square

section Full

variable [LinearOrder K] [IsStrictOrderedRing K] [FloorRing K] {num : WarpNumerics K}
  {display : ImageManipOpsBase K → String} {n m : UInt32}

/-- The configuration of an output with a side of a length, at the first corner of the image or with
the image scaled to it. -/
def output (mode : ResizeMode) (m : UInt32) : ImageManipOpsBase K where
  outputWidth := m
  outputHeight := m
  center := false
  resizeMode := mode

/-- The factor of a mode. -/
def factor (mode : ResizeMode) (n m : UInt32) : K :=
  if mode = .STRETCH then m.toNat / n.toNat else 1

/-- What is computed for such a configuration. -/
noncomputable def full (mode : ResizeMode) (n m : UInt32) (outputOps : List (ManipOp K)) :
    FullTransform K (Matrix3 K) where
  matrix := scaling (factor mode n m) (factor mode n m)
  srcCorners := [image (scaling (factor mode n m) (factor mode n m))⁻¹ ∘
    cornersOf (m.toNat : K) m.toNat]
  outputWidth := m
  outputHeight := m
  outputOps := outputOps

omit [FloorRing K] in
theorem factor_pos {mode : ResizeMode} (hn : 0 < n) (hm : 0 < m) : (0 : K) < factor mode n m := by
  rw [factor]
  split
  · exact div_pos (toNat_pos hm) (toNat_pos hn)
  · exact one_pos

omit [LinearOrder K] [IsStrictOrderedRing K] [FloorRing K] in
theorem isUnit_det_scaling {x : K} (hx : x ≠ 0) : IsUnit (scaling x x).det := by
  rw [det_scaling]
  exact (mul_ne_zero hx hx).isUnit

omit [IsStrictOrderedRing K] [FloorRing K] in
theorem getOuterRect_square {x : K} (hx : 0 ≤ x) :
    getOuterRect (cornersOf x x).toList = ⟨0, x, 0, x⟩ := by
  simp [getOuterRect, Corners.toList, cornersOf, hx]

omit [FloorRing K] in
theorem resize_output {mode : ResizeMode} (hmode : mode = .NONE ∨ mode = .STRETCH) (hn : 0 < n)
    (hm : 0 < m) : ∃ pl : Placement K,
      Placement.resize (⟨1, cornersOf n.toNat n.toNat, []⟩ : Placement K) (output mode m) m m =
        .ok pl ∧ pl.matrix = scaling (factor mode n m) (factor mode n m) := by
  rcases hmode with rfl | rfl
  · refine ⟨_, rfl, ?_⟩
    funext i j
    fin_cases i <;> fin_cases j <;> rfl
  · have hbox : getOuterRect (cornersOf (n.toNat : K) n.toNat).toList = ⟨0, n.toNat, 0, n.toNat⟩ :=
      getOuterRect_square (Nat.cast_nonneg _)
    have hmat := getResizeMat_stretch (K := K) (toNat_pos hn) (toNat_pos hn) hm hm
    rw [Placement.resize]
    show ∃ pl, Placement.resizeBy _ _ m m = .ok pl ∧ _
    rw [Placement.resizeBy]
    simp only [hbox, sub_zero]
    rw [hmat, Loop.ok_bind]
    simp only [matvecmul_of_affine (affine_scaling _ _), Loop.ok_bind, matmul_eq, Matrix.mul_one]
    exact ⟨_, rfl, rfl⟩

variable (num) in
theorem getFullTransform_output {mode : ResizeMode} (hmode : mode = .NONE ∨ mode = .STRETCH)
    (hn : 0 < n) (hm : 0 < m) :
    ∃ outputOps, getFullTransform num (output mode m) n n .RGB888i .RGB888i =
      .ok (full mode n m outputOps) := by
  have hpos : (0 : K) < factor mode n m := factor_pos hn hm
  have haffine := affine_scaling (factor mode n m : K) (factor mode n m)
  have hdet := isUnit_det_scaling hpos.ne'
  have hone : IsUnit (1 : Matrix3 K).det := by
    rw [det_one]
    exact isUnit_one
  obtain ⟨size, hsize, hgiven⟩ := getOutputSizeFromCorners_of_affine (Affine.refl.inv hone)
    (cornersOf (n.toNat : K) n.toNat) false n n m m
  obtain rfl := hgiven hm hm
  obtain ⟨pl, hresize, hmatrix⟩ := resize_output (K := K) hmode hn hm
  refine ⟨pl.outputOps, ?_⟩
  rw [getFullTransform]
  show (Except.ok (TransformState.initial n n m m) >>= _) = _
  rw [Loop.ok_bind, TransformState.initial, getMatrixInverse_eq_ok_iff.2 ⟨hone, rfl⟩, Loop.ok_bind]
  show (getOutputSizeFromCorners _ false _ n n m m >>= _) = _
  rw [hsize, Loop.ok_bind]
  dsimp only
  rw [hresize, Loop.ok_bind, if_neg (show ¬(output mode m : ImageManipOpsBase K).center = true from
    Bool.false_ne_true), Loop.ok_bind, hmatrix, getMatrixInverse_eq_ok_iff.2 ⟨hdet, rfl⟩,
    Loop.ok_bind]
  simp only [show needsEven .RGB888i = false from rfl, Bool.or_self, Bool.false_eq_true, if_false,
    Corners.mulBy_of_affine (haffine.inv hdet), Loop.ok_bind]
  rfl

/-- A node with such a configuration. -/
def node (mode : ResizeMode) (m : UInt32) : Manip K where
  config := output mode m
  outputFrameSize := 1000000
  backend := .OPENCV
  unset := ⟨.NONE, .NONE, .NONE, ⟨0, 0, 0, 0, 0, 0, 0, 0⟩⟩

/-- A square image in color, without padding. -/
def colorFrame (n : UInt32) (transformation : ImgTransformation K) : ImgFrame K where
  type := .RGB888i
  width := n
  height := n
  stride := n * 3
  transformation := transformation
  dataSize := 1000000

/-- The layout of such an image. -/
def squareSpecs (n : UInt32) : FrameSpecs :=
  ⟨n, n, 0, 0, 0, n * 3, n * 3, n * 3⟩

omit [LinearOrder K] [IsStrictOrderedRing K] [FloorRing K] in
theorem getSrcFrameSpecs_colorFrame (n : UInt32) (T : ImgTransformation K) :
    (colorFrame n T).getSrcFrameSpecs = .ok (squareSpecs n) := by
  simp only [ImgFrame.getSrcFrameSpecs, colorFrame, UInt32.mul_comm 3 n, ite_self]
  rfl

omit [LinearOrder K] [IsStrictOrderedRing K] [FloorRing K] in
theorem scaling_inv {x : K} (hx : x ≠ 0) : (scaling x x)⁻¹ = scaling x⁻¹ x⁻¹ := by
  refine Matrix.inv_eq_left_inv ?_
  ext i j
  fin_cases i <;> fin_cases j <;> simp [scaling, Matrix.mul_apply, Fin.sum_univ_three, hx]

omit [LinearOrder K] [IsStrictOrderedRing K] [FloorRing K] in
theorem inv_cornersOf {x : K} (hx : x ≠ 0) (y : K) :
    image (scaling x x)⁻¹ ∘ cornersOf y y = cornersOf (y / x) (y / x) := by
  funext i
  rw [scaling_inv hx]
  fin_cases i <;> simp [cornersOf, div_eq_inv_mul]

/-- What a warp reads for a square at the first corner. -/
theorem sourceBounds_square (n : UInt32) {x : K} (hx : 0 ≤ x) :
    sourceBounds (squareSpecs n) [cornersOf x x] =
      ⟨0, 0, min n.toNat ⌈x⌉.toNat, min n.toNat ⌈x⌉.toNat⟩ := by
  rw [sourceBounds, List.foldl_cons, List.foldl_nil, getOuterRect_square hx]
  simp [toSize, squareSpecs]

/-- What is known of the object that such a node builds. -/
structure Built (mode : ResizeMode) (n m : UInt32) (manip : ImageManipOperations K (Matrix3 K)) :
    Prop where
  bits : manip.mode = ⟨false, false, true⟩
  outputFrameType : manip.outputFrameType = .RGB888i
  inType : manip.inType = .RGB888i
  srcSpecs : manip.srcSpecs = squareSpecs n
  size : manip.base.outputWidth = m ∧ manip.base.outputHeight = m
  matrix : manip.matrix = scaling (factor mode n m) (factor mode n m)
  srcCorners : manip.srcCorners =
    [cornersOf ((m.toNat : K) / factor mode n m) (m.toNat / factor mode n m)]
  warpEngine : manip.warpEngine.map Warp.matrix =
    some (scaling (factor mode n m) (factor mode n m))

omit [FloorRing K] in
theorem exists_rebuild {G : Geometry K (Matrix3 K)} {mode : ResizeMode} (hn : 0 < n) (hm : 0 < m)
    {s : ImageManipOperations K (Matrix3 K)} {outputOps : List (ManipOp K)} {matrixInv : Matrix3 K}
    (hbits : s.mode = ⟨false, false, true⟩) (hbase : s.base = output mode m)
    (hout : s.outputFrameType = .RGB888i) (hin : s.inType = .RGB888i) (htype : s.type = .RGB888i)
    (hspecs : s.srcSpecs = squareSpecs n)
    (hfull : G.getFullTransform (output mode m) n n .RGB888i .RGB888i =
      .ok (full mode n m outputOps))
    (hinv : G.getMatrixInverse (scaling (factor mode n m) (factor mode n m)) = .ok matrixInv)
    (hbounds : ∃ side, 0 < side ∧ G.sourceBounds (squareSpecs n)
      (full mode n m outputOps).srcCorners = ⟨0, 0, side, side⟩) :
    ∃ manip, s.rebuild .OPENCV G = .ok manip ∧ Built mode n m manip := by
  have hpos : (0 : K) < factor mode n m := factor_pos hn hm
  obtain ⟨side, hside, hbounds⟩ := hbounds
  have hzero : s.mode ≠ .zero := by
    rw [hbits]
    decide
  have hsole : s.mode ≠ .CONVERT := by
    rw [hbits]
    decide
  have hwarp : s.mode.warp = true := by
    rw [hbits]
  have hsupported : ¬(!isTypeSupported .OPENCV s.inType) = true := by
    rw [hin]
    exact Bool.false_ne_true
  have hbounds' : ¬(0 ≥ side ∨ 0 ≥ side) := by omega
  have hdst : getDstFrameSpecs m m .RGB888i = .ok (squareSpecs m) := rfl
  rw [ImageManipOperations.rebuild, if_neg hzero, ImageManipOperations.preprocess, if_neg hsole,
    if_neg hsupported, Loop.ok_bind, ImageManipOperations.transform]
  dsimp only
  rw [if_pos hwarp, hbase, hspecs, htype, hout]
  simp only [show (squareSpecs n).width = n from rfl, show (squareSpecs n).height = n from rfl,
    hfull, ImageManipOperations.raise_ok, Loop.ok_bind, show (full mode n m outputOps).matrix =
      scaling (factor mode n m) (factor mode n m) from rfl, hinv,
    ImageManipOperations.getOutputFrameSpecs, if_neg hzero,
    show (full mode n m outputOps).outputWidth = m from rfl,
    show (full mode n m outputOps).outputHeight = m from rfl, hdst, ImageManipOperations.buildWarp,
    hbounds, if_neg hbounds']
  exact ⟨_, rfl, hbits, rfl, hin, rfl, ⟨rfl, rfl⟩, rfl,
    congrArg (· :: []) (inv_cornersOf hpos.ne' _), rfl⟩

variable (num display) in
/-- **What such a node builds.** -/
theorem build_node {mode : ResizeMode} (hmode : mode = .NONE ∨ mode = .STRETCH) (hn : 1 < n)
    (hm : 0 < m) (hne : m ≠ n) (T : ImgTransformation K) :
    ∃ manip, (node mode m).build num display (colorFrame n T) = .ok manip ∧
      Built mode n m manip := by
  have hn' : 0 < n := UInt32.lt_trans (by decide) hn
  have hpos : (0 : K) < factor mode n m := factor_pos hn' hm
  have hdet := isUnit_det_scaling hpos.ne'
  obtain ⟨outputOps, hfull⟩ := getFullTransform_output num hmode hn' hm
  have hwarp : (output mode m : ImageManipOpsBase K).hasWarp n n = true := by
    have hm' : m ≠ 0 := by
      rintro rfl
      exact absurd hm (by decide)
    simp [ImageManipOpsBase.hasWarp, output, hm', hne]
  have hside : 0 < min n.toNat ⌈(m.toNat : K) / factor mode n m⌉.toNat := by
    have hceil : 0 < ⌈(m.toNat : K) / factor mode n m⌉ :=
      Int.ceil_pos.2 (div_pos (toNat_pos hm) hpos)
    have hnat : 0 < n.toNat := UInt32.lt_iff_toNat_lt.1 hn'
    omega
  have hbounds : sourceBounds (squareSpecs n) (full (K := K) mode n m outputOps).srcCorners =
      ⟨0, 0, min n.toNat ⌈(m.toNat : K) / factor mode n m⌉.toNat,
        min n.toNat ⌈(m.toNat : K) / factor mode n m⌉.toNat⟩ := by
    rw [full, inv_cornersOf hpos.ne']
    exact sourceBounds_square n (div_pos (toNat_pos hm) hpos).le
  have hone : ¬(⟨output mode m, .NONE, squareSpecs n, .RGB888i⟩ : BuildCall K).OneDimensional := by
    rintro (h | h) <;> exact absurd hn (UInt32.not_lt.2 h)
  have hinv : (getMatrixInverse (scaling (factor mode n m : K) (factor mode n m))).mapError what =
      .ok (scaling (factor mode n m) (factor mode n m))⁻¹ := by
    rw [getMatrixInverse_eq_ok_iff.2 ⟨hdet, rfl⟩]
    rfl
  have hfull' : (getFullTransform num (output mode m) n n .RGB888i .RGB888i).mapError what =
      .ok (full mode n m outputOps) := by
    rw [hfull]
    rfl
  rw [Manip.build, getSrcFrameSpecs_colorFrame]
  show ∃ manip, thrown (Except.mapError Prod.snd
    (((ImageManipOperations.new (geometry num display) _).build .OPENCV (geometry num display)
      ⟨output mode m, .NONE, squareSpecs n, .RGB888i⟩))) = .ok manip ∧ _
  rw [ImageManipOperations.build, ImageManipOperations.isCached_new, if_neg Bool.false_ne_true,
    if_neg hone]
  generalize hs : ImageManipOperations.configure _ _ _ = s
  have hbits : s.mode = ⟨false, false, true⟩ := by
    rw [← hs, ← hwarp]
    rfl
  obtain ⟨manip, hmanip, hbuilt⟩ := @exists_rebuild K _ _ _ n m (geometry num display) mode hn' hm s
    outputOps _ hbits (by rw [← hs]; rfl) (by rw [← hs]; rfl) (by rw [← hs]; rfl)
    (by rw [← hs]; rfl) (by rw [← hs]; rfl) hfull' hinv ⟨_, hside, hbounds⟩
  exact ⟨manip, by rw [hmanip]; rfl, hbuilt⟩

omit [IsStrictOrderedRing K] in
/-- **What such a node sends.** -/
theorem pass_built {mode : ResizeMode} {T : ImgTransformation K}
    {manip : ImageManipOperations K (Matrix3 K)} (hbuild : (node mode m).build num display
      (colorFrame n T) = .ok manip) (hbuilt : Built mode n m manip) (hn : n ≤ 100) (hm : 0 < m)
    (hmle : m ≤ 100) (hpos : (0 : K) < factor mode n m) (hT : IsUnit T.transformationMatrix.det) :
    ∃ T', pass num display (colorFrame n T) (node mode m) = some (colorFrame m T') ∧
      T'.transformationMatrix =
        scaling (factor mode n m) (factor mode n m) * T.transformationMatrix := by
  have hbits : manip.mode ≠ .zero := by
    rw [hbuilt.bits]
    decide
  have hsole : manip.mode ≠ .CONVERT := by
    rw [hbuilt.bits]
    decide
  have hmul : (m * 3).toNat = m.toNat * 3 := by
    rw [UInt32.toNat_mul]
    have hle : m.toNat ≤ 100 := UInt32.le_iff_toNat_le.1 hmle
    exact Nat.mod_eq_of_lt (show m.toNat * 3 < 2 ^ 32 by omega)
  have hmpos : 0 < m.toNat := UInt32.lt_iff_toNat_lt.1 hm
  have hspecs : manip.getOutputFrameSpecs manip.outputFrameType = .ok (squareSpecs m) := by
    rw [ImageManipOperations.getOutputFrameSpecs, if_neg hbits, hbuilt.outputFrameType,
      hbuilt.size.1, hbuilt.size.2]
    rfl
  have hstride : manip.getOutputStride 0 = .ok (m.toNat * 3) := by
    rw [ImageManipOperations.getOutputStride, hspecs, ← hmul]
    rfl
  have hsize : manip.getOutputSize = .ok (m.toNat * 3 * m.toNat) := by
    have hplane := ImageManipOperations.getOutputPlaneSize_rows hbits hstride (by omega)
      (by rw [hbuilt.size.2]; exact hmpos) (by rw [hbuilt.outputFrameType]; decide)
    rw [hbuilt.size.2] at hplane
    refine ImageManipOperations.getOutputSize_of_outputSize hbits ?_ (by positivity)
    rw [ImageManipOperations.outputSize, hbuilt.outputFrameType]
    exact hplane
  have hfits : m.toNat * 3 * m.toNat ≤ (node (K := K) mode m).outputFrameSize := by
    show m.toNat * 3 * m.toNat ≤ 1000000
    have hle : m.toNat ≤ 100 := UInt32.le_iff_toNat_le.1 hmle
    nlinarith
  obtain ⟨actions, happly⟩ : ∃ actions, manip.apply (colorFrame n T).dataSize = .ok actions := by
    have hsrc : ¬(colorFrame n T).dataSize < (getFrameSize manip.inType manip.srcSpecs).toNat := by
      rw [hbuilt.inType, hbuilt.srcSpecs]
      show ¬1000000 < (n * 3 * n).toNat
      rw [UInt32.toNat_mul, UInt32.toNat_mul]
      have hle : n.toNat ≤ 100 := UInt32.le_iff_toNat_le.1 hn
      have h₁ : n.toNat * (3 : UInt32).toNat % 2 ^ 32 ≤ n.toNat * 3 := Nat.mod_le _ _
      have h₂ : n.toNat * (3 : UInt32).toNat % 2 ^ 32 * n.toNat % 2 ^ 32 ≤
        n.toNat * (3 : UInt32).toNat % 2 ^ 32 * n.toNat := Nat.mod_le _ _
      nlinarith
    rw [ImageManipOperations.apply, if_neg hsrc, if_neg hbits, if_neg hsole, hbuilt.bits]
    exact ⟨_, rfl⟩
  have hdet :
      IsUnit (scaling (factor mode n m : K) (factor mode n m) * T.transformationMatrix).det := by
    rw [Matrix.det_mul]
    exact (isUnit_det_scaling hpos.ne').mul hT
  obtain ⟨T₁, hadd, hmatrix⟩ : ∃ T₁,
      (T.addSrcCrops (manip.getSrcCrops num.toNumerics)).addTransformation manip.matrix = .ok T₁ ∧
        T₁.transformationMatrix = manip.matrix * T.transformationMatrix := by
    have hdet' : IsUnit (manip.matrix * T.transformationMatrix).det := by
      rw [hbuilt.matrix]
      exact hdet
    rw [ImgTransformation.addTransformation, matMul_eq]
    show ∃ T₁, (getMatrixInverse (manip.matrix * T.transformationMatrix) >>= _) = .ok T₁ ∧ _
    rw [getMatrixInverse_eq_ok_iff.2 ⟨hdet', rfl⟩]
    exact ⟨_, rfl, rfl⟩
  have hset : (node mode m).setFrame num (colorFrame n T) manip =
      .ok (colorFrame m (T₁.setSize m.toNat m.toNat)) := by
    rw [Manip.setFrame, hspecs]
    show (ImageAlign.lift ((T.addSrcCrops _).addTransformation _) >>= _) = _
    rw [ImageAlign.lift_eq_ok.2 hadd, hbuilt.outputFrameType]
    rfl
  refine ⟨T₁.setSize m.toNat m.toNat, ?_, ?_⟩
  · rw [pass, Manip.process, hbuild, Loop.ok_bind, thrown_eq_ok.2 hsize, Loop.ok_bind,
      if_neg (by positivity), if_pos hfits, thrown_eq_ok.2 happly, Loop.ok_bind, hset]
    rfl
  · show T₁.transformationMatrix = _
    rw [hmatrix, hbuilt.matrix]

variable (num display) in
/-- **One such node.** -/
theorem pass_node {mode : ResizeMode} (hmode : mode = .NONE ∨ mode = .STRETCH) (hn : 1 < n)
    (hnle : n ≤ 100) (hm : 0 < m) (hmle : m ≤ 100) (hne : m ≠ n) {T : ImgTransformation K}
    (hT : IsUnit T.transformationMatrix.det) :
    ∃ T', pass num display (colorFrame n T) (node mode m) = some (colorFrame m T') ∧
      T'.transformationMatrix =
        scaling (factor mode n m) (factor mode n m) * T.transformationMatrix ∧
      warpOf num display (colorFrame n T) (node mode m) =
        scaling (factor mode n m) (factor mode n m) ∧
      Rectangular num display (colorFrame n T) (node mode m) := by
  have hpos : (0 : K) < factor mode n m :=
    factor_pos (UInt32.lt_trans (by decide) hn) hm
  obtain ⟨manip, hbuild, hbuilt⟩ := build_node num display hmode hn hm hne T
  obtain ⟨T', hpass, hmatrix⟩ := pass_built hbuild hbuilt hnle hm hmle hpos hT
  refine ⟨T', hpass, hmatrix, ?_, fun manip' hbuild' corners hcorners => ?_⟩
  · rw [warpOf, hbuild]
    show (manip.warpEngine.map Warp.matrix).getD 1 = _
    rw [hbuilt.warpEngine]
    rfl
  · obtain rfl := Except.ok.inj (hbuild.symm.trans hbuild')
    rw [hbuilt.srcCorners] at hcorners
    rw [List.mem_singleton.1 hcorners, Corners.toList_cornersOf, frameCorners_eq]
    exact ⟨_, _, _, sqNorm_frame _ _, .refl _⟩

omit [Field K] [LinearOrder K] [IsStrictOrderedRing K] [FloorRing K] in
theorem isPlain_node (mode : ResizeMode) (m : UInt32) : (node mode m : Manip K).IsPlain :=
  ⟨fun _ hop => absurd hop List.not_mem_nil, rfl⟩

omit [IsStrictOrderedRing K] in
/-- A frame that has not been moved leaves everything where it is. -/
theorem stays_of_one {img : ImgFrame K} {node : Manip K}
    (h : img.transformation.transformationMatrix = 1) : Stays num display img node := by
  intro _ R _ p
  rw [h, image_one]

end Full

/-! ### Two nodes after each other -/

/-- A square image as it comes from its source. -/
noncomputable def source : ImgFrame ℝ :=
  colorFrame 100 (.ofSizes 100 100 100 100)

theorem isSource_source : source.IsSource :=
  ⟨rfl, ⟨rfl, rfl⟩, ⟨rfl, rfl⟩, rfl⟩

/-- No text for a configuration. -/
def display : ImageManipOpsBase ℝ → String :=
  fun _ => ""

/-- What is known of two nodes after each other. -/
structure Pair (mode mode' : ResizeMode) (T T' : ImgTransformation ℝ) : Prop where
  first : pass realNumerics display source (node mode 50) = some (colorFrame 50 T)
  second : pass realNumerics display (colorFrame 50 T) (node mode' 25) = some (colorFrame 25 T')
  matrix : T.transformationMatrix = scaling (factor mode 100 50) (factor mode 100 50)
  warp : warpOf realNumerics display source (node mode 50) =
    scaling (factor mode 100 50) (factor mode 100 50)
  warp' : warpOf realNumerics display (colorFrame 50 T) (node mode' 25) =
    scaling (factor mode' 50 25) (factor mode' 50 25)
  rectangular : Rectangular realNumerics display source (node mode 50)
  rectangular' : Rectangular realNumerics display (colorFrame 50 T) (node mode' 25)

/-- The nodes with the frames that come in. -/
noncomputable def steps (mode mode' : ResizeMode) (T : ImgTransformation ℝ) :
    List (ImgFrame ℝ × Manip ℝ) :=
  [(source, node mode 50), (colorFrame 50 T, node mode' 25)]

section Pair

variable {mode mode' : ResizeMode} {T T' : ImgTransformation ℝ}

theorem exists_pair (hmode : mode = .NONE ∨ mode = .STRETCH)
    (hmode' : mode' = .NONE ∨ mode' = .STRETCH) : ∃ T T', Pair mode mode' T T' := by
  have hone : IsUnit (ImgTransformation.ofSizes 100 100 100 100 :
      ImgTransformation ℝ).transformationMatrix.det := by
    show IsUnit (1 : Matrix3 ℝ).det
    rw [det_one]
    exact isUnit_one
  obtain ⟨T, hpass, hmatrix, hwarp, hrect⟩ := pass_node realNumerics display (n := 100) (m := 50)
    hmode (by decide) (by decide) (by decide) (by decide) (by decide) hone
  have hT : T.transformationMatrix = scaling (factor mode 100 50) (factor mode 100 50) :=
    hmatrix.trans (Matrix.mul_one _)
  have hdet : IsUnit T.transformationMatrix.det := by
    rw [hT]
    exact isUnit_det_scaling (factor_pos (by decide) (by decide)).ne'
  obtain ⟨T', hpass', -, hwarp', hrect'⟩ := pass_node realNumerics display (n := 50) (m := 25)
    hmode' (by decide) (by decide) (by decide) (by decide) (by decide) hdet
  exact ⟨T, T', hpass, hpass', hT, hwarp, hwarp', hrect, hrect'⟩

theorem Pair.run (h : Pair mode mode' T T') : Transition.Run (pass realNumerics display) source
    (steps mode mode' T) (colorFrame 25 T') :=
  .snoc (.snoc .nil h.first) h.second

theorem Pair.isPlain (mode mode' : ResizeMode) (T : ImgTransformation ℝ) :
    ∀ e ∈ steps mode mode' T, e.2.IsPlain := by
  intro e he
  rcases List.mem_pair.1 he with rfl | rfl <;> exact isPlain_node _ _

theorem Pair.rectangular_steps (h : Pair mode mode' T T') :
    ∀ e ∈ steps mode mode' T, Rectangular realNumerics display e.1 e.2 := by
  intro e he
  rcases List.mem_pair.1 he with rfl | rfl
  · exact h.rectangular
  · exact h.rectangular'

theorem regionsOf_node {img sent : ImgFrame ℝ} {m : UInt32}
    (hpass : pass realNumerics display img (node mode m) = some sent) :
    regionsOf realNumerics display img (node mode m) =
      [takenInto (warpOf realNumerics display img (node mode m)) sent.width sent.height] := by
  rw [regionsOf, outputOf_eq hpass]
  rfl

theorem Pair.exists_rect (h : Pair mode mode' T T') : ∃ rect ∈ T'.srcCrops,
    area realNumerics.toTrigonometry rect =
      takenInto (scaling (factor mode' 50 25) (factor mode' 50 25)) 25 25 := by
  obtain ⟨crops, hadds, -, -⟩ := adds_of_pass keepsRectangles_real (isPlain_node _ _) h.rectangular
    isSource_source.size h.first
  obtain ⟨crops', hadds', -, ⟨hmap, -⟩ | hstill⟩ := adds_of_pass keepsRectangles_real
    (isPlain_node _ _) h.rectangular' hadds.size h.second
  · rw [regionsOf_node h.second, h.warp', List.map_eq_singleton_iff] at hmap
    obtain ⟨rect, rfl, harea⟩ := hmap
    refine ⟨rect, ?_, harea⟩
    have hcrops : T'.srcCrops = T.srcCrops ++ [rect] := hadds'.srcCrops
    rw [hcrops]
    exact List.mem_append_right _ (List.mem_singleton_self _)
  · have hwarp : (node mode' 25 : Manip ℝ).config.hasWarp 50 50 = true := rfl
    exact absurd (hwarp.symm.trans hstill.hasWarp) (by decide)

theorem factor_STRETCH : (factor .STRETCH 100 50 : ℝ) = 1 / 2 := by
  rw [factor, if_pos rfl]
  show ((50 : ℕ) : ℝ) / ((100 : ℕ) : ℝ) = 1 / 2
  norm_num

theorem factor_NONE (n m : UInt32) : (factor .NONE n m : ℝ) = 1 :=
  if_neg (by decide)

theorem scaling_one : scaling (1 : ℝ) 1 = 1 := by
  ext i j
  fin_cases i <;> fin_cases j <;> rfl

/-- The image is cut down, and what is left is scaled. -/
theorem described_cut_scaled : ∃ T T', Pair .NONE .STRETCH T T' ∧
    Described realNumerics display source (steps .NONE .STRETCH T) (colorFrame 25 T') := by
  obtain ⟨T, T', h⟩ := exists_pair (.inl rfl) (.inr rfl)
  have hT : T.transformationMatrix = 1 := h.matrix.trans scaling_one
  refine ⟨T, T', h, described_of_run keepsRectangles_real isSource_source h.run (Pair.isPlain _ _ T)
    h.rectangular_steps ?_⟩
  intro e he
  rcases List.mem_pair.1 he with rfl | rfl
  · exact stays_of_one rfl
  · exact stays_of_one hT

/-- **The image is scaled, and then cut down.** What is left of the source is a square of fifty, and
the metadata have one of twenty-five. -/
theorem not_described_scaled_cut : ∃ tr last, KeepsRectangles realNumerics.toNumerics ∧
    source.IsSource ∧ Transition.Run (pass realNumerics display) source tr last ∧
    (∀ e ∈ tr, e.2.IsPlain) ∧ (∀ e ∈ tr, Rectangular realNumerics display e.1 e.2) ∧
    ¬Described realNumerics display source tr last := by
  obtain ⟨T, T', h⟩ := exists_pair (.inr rfl) (.inl rfl)
  refine ⟨_, _, keepsRectangles_real, isSource_source, h.run, Pair.isPlain _ _ T,
    h.rectangular_steps, fun hdescribed => ?_⟩
  have hsource : ((40, 40) : ℝ × ℝ) ∈ frame (source.width.toNat : ℝ) source.height.toNat := by
    show (40, 40) ∈ frame ((100 : ℕ) : ℝ) (100 : ℕ)
    norm_num [frame]
  have hfirst : image (scaling (1 / 2) (1 / 2)) ((40, 40) : ℝ × ℝ) = (20, 20) := by
    rw [image_scaling]
    norm_num
  have hkept : Kept realNumerics display (steps .STRETCH .NONE T) (40, 40) := by
    refine ⟨fun R hR => ?_, fun R hR => ?_, trivial⟩
    · rw [regionsOf_node h.first, h.warp, factor_STRETCH] at hR
      rw [List.mem_singleton.1 hR, takenInto, Set.mem_ofPred_eq, hfirst]
      show (20, 20) ∈ frame ((50 : ℕ) : ℝ) (50 : ℕ)
      norm_num [frame]
    · rw [regionsOf_node h.second, h.warp', factor_NONE, scaling_one] at hR
      rw [List.mem_singleton.1 hR, takenInto, Set.mem_ofPred_eq, image_one, h.warp, factor_STRETCH,
        hfirst]
      show (20, 20) ∈ frame ((25 : ℕ) : ℝ) (25 : ℕ)
      norm_num [frame]
  obtain ⟨rect, hrect, harea⟩ := h.exists_rect
  have hmem := (hdescribed.crops (40, 40) hsource).2 hkept rect hrect
  rw [harea, factor_NONE, scaling_one, takenInto, Set.mem_ofPred_eq, image_one] at hmem
  have hle : (40 : ℝ) ≤ ((25 : ℕ) : ℝ) := hmem.1.2
  norm_num at hle

end Pair

end Square

end ImageManip

end DepthaiCore
