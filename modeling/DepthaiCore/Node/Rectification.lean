import DepthaiCore.Common.AlignedFrames
import DepthaiCore.Node.ImageAlign

/-!
# Runs of the node `Rectification`

The node rectifies the frames of two cameras. From its first pair of frames, and the calibration at
that time, it computes a map and a transformation for each output, and it keeps them. Sizes, buffers
and metadata are those of every new pair.

So a later pair is rectified as the first one was. If it has another output size, other intrinsics,
another distortion, other poses or another calibration, it is sent with maps and transformations
that are not its own.

OpenCV and the calibration are parameters, and so is `getCvFrame`, which is made of the functions of
OpenCV. Floats are a field.
-/

open scoped Numerals

namespace DepthaiCore

namespace Rectification

open MatrixOps Matrix
open ImageAlign (Calibration Mat thrown lift thrown_eq_ok lift_eq_ok int toInt)

variable {K : Type} [Field K]

/-! ### What the node is given -/

/-- What the node reads and writes of an `ImgFrame`. -/
structure ImgFrame (K : Type) [Field K] where
  type : ImgFrameType
  width : UInt32
  height : UInt32
  stride : UInt32
  p1Offset : UInt32 := 0
  p2Offset : UInt32 := 0
  p3Offset : UInt32 := 0
  sourceWidth : UInt32
  sourceHeight : UInt32
  instanceNum : UInt32
  transformation : ImgTransformation K
  data : List UInt8

structure RectificationProperties where
  outputWidth : Option UInt32 := none
  outputHeight : Option UInt32 := none
  enableRectification : Bool := true
  deriving DecidableEq, Repr

/-- The functions of OpenCV on matrices and images. `remap` is given the image, the size and the
bytes of the frame that it writes to, and the maps. -/
structure OpenCV (K : Type) [Field K] (Image : Type) extends ImageAlign.OpenCV K where
  invert : Matrix3 K → Matrix3 K
  getCvFrame : ImgFrame K → Except String Image
  channels : Image → ℕ
  cvtColor : Image → Except String Image
  remap : Image → ℤ × ℤ → List UInt8 → Mat K × Mat K → Except String (List UInt8)

/-- A pair of frames, and the calibration when the node takes it, or the exception of
`getCalibrationData`. -/
structure Pair (K : Type) [Field K] where
  calibration : Except String (Calibration K)
  input1Frame : ImgFrame K
  input2Frame : ImgFrame K

/-- What the node sends for a pair. -/
structure Sent (K : Type) [Field K] where
  output1 : ImgFrame K
  output2 : ImgFrame K
  passthrough1 : ImgFrame K
  passthrough2 : ImgFrame K

/-! ### Maps and transformations -/

namespace RectificationProperties

variable (properties : RectificationProperties)

/-- Both sizes are set. -/
def Configured : Prop :=
  properties.outputWidth.isSome ∧ properties.outputHeight.isSome

instance : Decidable properties.Configured :=
  inferInstanceAs (Decidable (_ ∧ _))

/-- The size of an output. -/
def outputSize (inputFrame : ImgFrame K) : UInt32 × UInt32 :=
  match properties.outputWidth, properties.outputHeight with
  | some outputWidth, some outputHeight => (outputWidth, outputHeight)
  | _, _ => (inputFrame.width, inputFrame.height)

end RectificationProperties

def vectorMatrixToMatrix3x3 (R : List (List K)) : Except Failure (Matrix3 K) :=
  if R.length = 0 then .ok 0
  else if ¬IsThreeByThree R then
    .error (.invalidArgument "Expected a 3x3 vector matrix to convert to 3x3 matrix.")
  else .ok (rotationOf R)

def matrix3x3ToVectorMatrix (R : Matrix3 K) : List (List K) :=
  (List.finRange 3).map fun i => (List.finRange 3).map fun j => R i j

def applyRectificationMatrix {Image : Type} (cv : OpenCV K Image) (extrinsics : Extrinsics K)
    (rectificationMatrix : Matrix3 K) : Except Failure (List (List K)) := do
  let arrayR1Inv := cv.invert rectificationMatrix
  let inputRotationMatrix ← vectorMatrixToMatrix3x3 extrinsics.rotationMatrix
  return matrix3x3ToVectorMatrix (matMul inputRotationMatrix arrayR1Inv)

/-- What the node computes from a pair. -/
structure Rectified (K : Type) [Field K] where
  rectificationMap1 : Mat K × Mat K
  rectificationMap2 : Mat K × Mat K
  output1ImgTransformation : ImgTransformation K
  output2ImgTransformation : ImgTransformation K

section Maps

variable [LinearOrder K]

def createRectifiedImgTransformation (extrinsics : Extrinsics K) (cvIntrinsicMatrix : Matrix3 K)
    (outputSize : UInt32 × UInt32) : Except Failure (ImgTransformation K) := do
  let sourceIntrinsicMatrixInv ← getMatrixInverse cvIntrinsicMatrix
  return {
    srcWidth := outputSize.1.toNat
    srcHeight := outputSize.2.toNat
    width := outputSize.1.toNat
    height := outputSize.2.toNat
    sourceIntrinsicMatrix := cvIntrinsicMatrix
    sourceIntrinsicMatrixInv
    extrinsics
    distortionCoefficients := [] }

/-- The transformation of an input, scaled to the size of the output if that is set. -/
def scaled [FloorRing K] (properties : RectificationProperties) (inputFrame : ImgFrame K) :
    Except ImageAlign.Fault (ImgTransformation K) :=
  if properties.Configured then do
    let (outputWidth, outputHeight) := properties.outputSize inputFrame
    let scaleX ← lift (quotient (outputWidth.toNat : K) inputFrame.width.toNat)
    let scaleY ← lift (quotient (outputHeight.toNat : K) inputFrame.height.toNat)
    lift (inputFrame.transformation.addScale scaleX scaleY)
  else return inputFrame.transformation

/-- The maps and the transformations of the outputs, by the rotations of the two cameras and the
camera matrix of the first output. -/
def outputs {Image : Type} (cv : OpenCV K Image) (properties : RectificationProperties)
    (M1 M2 : Matrix3 K) (d1 d2 : List K) (R1 R2 targetM1 : Matrix3 K)
    (output1Extrinsics output2Extrinsics : Extrinsics K) (size1 size2 : UInt32 × UInt32) :
    Except ImageAlign.Fault (Rectified K) := do
  -- Both outputs have the camera matrix of the first.
  let targetM2 := targetM1
  let (R1, R2, d1, d2) :=
    if properties.enableRectification then (R1, R2, d1, d2)
    else (1, 1, d1.map fun _ => 0, d2.map fun _ => 0)
  let rotationMatrix1 ← lift (applyRectificationMatrix cv output1Extrinsics R1)
  let rotationMatrix2 ← lift (applyRectificationMatrix cv output2Extrinsics R2)
  let rectificationMap1 ←
    thrown (cv.initUndistortRectifyMap M1 d1 R1 targetM1 (toInt size1.1, toInt size1.2))
  let rectificationMap2 ←
    thrown (cv.initUndistortRectifyMap M2 d2 R2 targetM2 (toInt size2.1, toInt size2.2))
  let output1ImgTransformation ← lift (createRectifiedImgTransformation
    { output1Extrinsics with rotationMatrix := rotationMatrix1 } targetM1 size1)
  let output2ImgTransformation ← lift (createRectifiedImgTransformation
    { output2Extrinsics with rotationMatrix := rotationMatrix2 } targetM2 size2)
  return { rectificationMap1, rectificationMap2, output1ImgTransformation,
           output2ImgTransformation }

/-- What `run` computes if it is not initialized. -/
def rectify [FloorRing K] {Image : Type} (cv : OpenCV K Image)
    (properties : RectificationProperties) (pair : Pair K) : Except ImageAlign.Fault (Rectified K) := do
  let input1 := pair.input1Frame
  let input2 := pair.input2Frame
  let calib ← thrown pair.calibration
  let M1 := input1.transformation.getIntrinsicMatrix
  let M2 := input2.transformation.getIntrinsicMatrix
  let d1 := input1.transformation.distortionCoefficients
  let d2 := input2.transformation.distortionCoefficients
  let R ← thrown (calib.getCameraRotationMatrix input1.instanceNum input2.instanceNum)
  let T ← thrown (calib.getCameraTranslationVector input1.instanceNum input2.instanceNum false)
  let imageSize := (toInt input1.width, toInt input1.height)
  let (R1, R2) ← thrown (cv.stereoRectify M1 d1 M2 d2 imageSize R T)
  let input1ImgTransformation ← scaled properties input1
  let input2ImgTransformation ← scaled properties input2
  outputs cv properties M1 M2 d1 d2 R1 R2 input1ImgTransformation.getIntrinsicMatrix
    input1ImgTransformation.extrinsics input2ImgTransformation.extrinsics
    (properties.outputSize input1) (properties.outputSize input2)

end Maps

/-! ### Frames that are sent -/

/-- The frame that an output begins as: metadata of the input, and a buffer of zeros. -/
def rectifiedFrame (inputFrame : ImgFrame K) (outputSize : UInt32 × UInt32) : ImgFrame K :=
  { inputFrame with
    data := List.replicate (outputSize.1 * outputSize.2).toNat 0
    width := outputSize.1
    height := outputSize.2
    sourceWidth := outputSize.1
    sourceHeight := outputSize.2
    type := .RAW8
    stride := outputSize.1 }

/-- `ImgFrame::getFrame` of a `RAW8` frame, without a copy: the size of the image. The texts of the
exceptions leave out the numbers. -/
def getFrame (frame : ImgFrame K) : Except ImageAlign.Fault (ℤ × ℤ) := do
  let size := (toInt frame.width, toInt frame.height)
  let requiredSize ← int (size.1 * size.2)
  if (frame.data.length : ℤ) < requiredSize then
    .error (.thrown "ImgFrame doesn't have enough data to encode specified frame")
  else if frame.width = 0 ∨ frame.height = 0 then
    .error (.thrown "ImgFrame metadata not valid (width or height = 0)")
  else return size

section Send

variable {Image : Type} (cv : OpenCV K Image)

/-- The image of an input, in gray if it has three channels. -/
def toGray (image : Image) : Except String Image :=
  if cv.channels image = 3 then cv.cvtColor image else .ok image

/-- What is sent for an input: its image by the map. -/
def remapped (image : Image) (frame : ImgFrame K) (rectificationMap : Mat K × Mat K)
    (transformation : ImgTransformation K) : Except ImageAlign.Fault (ImgFrame K) := do
  let size ← getFrame frame
  let data ← thrown (cv.remap image size frame.data rectificationMap)
  return { frame with data, transformation }

/-- The part of a round after the maps. -/
def send (properties : RectificationProperties) (rectified : Rectified K) (pair : Pair K) :
    Except ImageAlign.Fault (Sent K) := do
  let rectifiedFrame1 := rectifiedFrame pair.input1Frame (properties.outputSize pair.input1Frame)
  let rectifiedFrame2 := rectifiedFrame pair.input2Frame (properties.outputSize pair.input2Frame)
  let cv_input1 ← thrown (cv.getCvFrame pair.input1Frame)
  let cv_input2 ← thrown (cv.getCvFrame pair.input2Frame)
  let cv_input1 ← thrown (toGray cv cv_input1)
  let cv_input2 ← thrown (toGray cv cv_input2)
  let output1 ← remapped cv cv_input1 rectifiedFrame1 rectified.rectificationMap1
    rectified.output1ImgTransformation
  let output2 ← remapped cv cv_input2 rectifiedFrame2 rectified.rectificationMap2
    rectified.output2ImgTransformation
  return { output1, output2, passthrough1 := pair.input1Frame, passthrough2 := pair.input2Frame }

end Send

/-! ### The node -/

/-- The node, with what `run` has computed if it is initialized. -/
structure Node (K : Type) [Field K] where
  properties : RectificationProperties
  rectified : Option (Rectified K) := none

/-- A node with the pair that it was initialized with. -/
structure Session (K : Type) [Field K] where
  node : Node K
  origin : Option (Pair K) := none

/-- A node that has just been started. -/
def Session.start (properties : RectificationProperties) : Session K :=
  { node := { properties } }

section Round

variable [LinearOrder K] [FloorRing K] {Image : Type} (cv : OpenCV K Image)

/-- The maps and transformations of a round. -/
def Node.initializeMaps (self : Node K) (pair : Pair K) : Except ImageAlign.Fault (Rectified K) :=
  match self.rectified with
  | some rectified => .ok rectified
  | none => rectify cv self.properties pair

/-- **The round of `run` for a pair**: the node afterwards, and what it sends. -/
def Node.round (self : Node K) (pair : Pair K) : Except ImageAlign.Fault (Node K × Sent K) := do
  let rectified ← self.initializeMaps cv pair
  let sent ← send cv self.properties rectified pair
  return ({ self with rectified := some rectified }, sent)

/-- The session after a pair; none if the node ends with an exception. -/
def Session.next (self : Session K) (pair : Pair K) : Option (Session K) :=
  match self.node.round cv pair with
  | .error _ => none
  | .ok (node, _) =>
    some { node, origin := if self.node.rectified.isSome then self.origin else some pair }

end Round

/-! ### What should be sent -/

/-- The size of a map. -/
def HasSize (map : Mat K) (size : ℤ × ℤ) : Prop :=
  (map.length : ℤ) = size.2 ∧ ∀ row ∈ map, (row.length : ℤ) = size.1

/-- **The sizes agree**: the declared size of a frame, the size of its transformation, the size of
the maps and the size of the buffer. -/
structure Agrees (frame : ImgFrame K) (rectificationMap : Mat K × Mat K) : Prop where
  width : frame.transformation.width = frame.width.toNat
  height : frame.transformation.height = frame.height.toNat
  mapX : HasSize rectificationMap.1 (frame.width.toNat, frame.height.toNat)
  mapY : HasSize rectificationMap.2 (frame.width.toNat, frame.height.toNat)
  data : frame.data.length = frame.width.toNat * frame.height.toNat

/-- The sizes of both outputs agree. -/
def AgreesFor (node : Node K) (sent : Sent K) : Prop :=
  ∀ rectified ∈ node.rectified, Agrees sent.output1 rectified.rectificationMap1 ∧
    Agrees sent.output2 rectified.rectificationMap2

/-- **What should be sent for a pair**: what a node that has just been started sends, with maps and
transformations that it computes, and with sizes that agree. -/
def Session.Right [LinearOrder K] [FloorRing K] {Image : Type} (cv : OpenCV K Image)
    (self : Session K) (pair : Pair K) : Prop :=
  ∀ node sent, self.node.round cv pair = .ok (node, sent) →
    (Session.start self.node.properties).node.round cv pair = .ok (node, sent) ∧
      AgreesFor node sent

/-- The rotation between the two cameras, as the calibration has it. -/
def Pair.rotation (pair : Pair K) : Except String (Matrix3 K) :=
  pair.calibration >>= fun calib => calib.getCameraRotationMatrix pair.input1Frame.instanceNum
    pair.input2Frame.instanceNum

/-- The translation between them. -/
def Pair.translation (pair : Pair K) : Except String (Fin 3 → K) :=
  pair.calibration >>= fun calib => calib.getCameraTranslationVector pair.input1Frame.instanceNum
    pair.input2Frame.instanceNum false

/-- Transformations with the same intrinsics, distortion and pose. -/
structure SameCamera (t u : ImgTransformation K) : Prop where
  intrinsicMatrix : t.getIntrinsicMatrix = u.getIntrinsicMatrix
  distortionCoefficients : t.distortionCoefficients = u.distortionCoefficients
  extrinsics : t.extrinsics = u.extrinsics

/-- A frame that can be scaled. -/
structure Scalable (inputFrame : ImgFrame K) : Prop where
  width : (inputFrame.width.toNat : K) ≠ 0
  height : (inputFrame.height.toNat : K) ≠ 0
  isUnit_det : IsUnit inputFrame.transformation.transformationMatrix.det

/-- The outputs have the same sizes. -/
structure SameSizes (properties : RectificationProperties) (origin pair : Pair K) : Prop where
  output1 : properties.outputSize origin.input1Frame = properties.outputSize pair.input1Frame
  output2 : properties.outputSize origin.input2Frame = properties.outputSize pair.input2Frame

/-- **Pairs that have the same maps and transformations.** -/
structure SameRectification (properties : RectificationProperties) (origin pair : Pair K) :
    Prop where
  sizes : SameSizes properties origin pair
  width : origin.input1Frame.width = pair.input1Frame.width
  height : origin.input1Frame.height = pair.input1Frame.height
  camera1 : SameCamera origin.input1Frame.transformation pair.input1Frame.transformation
  camera2 : SameCamera origin.input2Frame.transformation pair.input2Frame.transformation
  rotation : origin.rotation = pair.rotation
  translation : origin.translation = pair.translation
  scalable : properties.Configured → Scalable pair.input1Frame ∧ Scalable pair.input2Frame

/-- What the node has computed is right for a pair. -/
def Session.Fits (self : Session K) (pair : Pair K) : Prop :=
  ∀ origin ∈ self.origin, SameRectification self.node.properties origin pair
/-! ### Sizes -/

section Sizes

variable {Image : Type} {cv : OpenCV K Image}

/-- What OpenCV documents: the size of a map is the one that is asked for, and an image is written
into the buffer that it has. -/
structure Documented (cv : OpenCV K Image) : Prop where
  initUndistortRectifyMap : ∀ {M d R newM size map},
    cv.initUndistortRectifyMap M d R newM size = .ok map →
      HasSize map.1 size ∧ HasSize map.2 size
  remap : ∀ {image size data map result},
    cv.remap image size data map = .ok result → result.length = data.length

theorem toInt_eq_toNat {n : UInt32} (h : 0 ≤ toInt n) : toInt n = n.toNat :=
  Int32s.bmod_eq_of_nonneg n.toNat_lt h

/-- A transformation and maps of a size. -/
structure Sized (transformation : ImgTransformation K) (rectificationMap : Mat K × Mat K)
    (size : UInt32 × UInt32) : Prop where
  width : transformation.width = size.1.toNat
  height : transformation.height = size.2.toNat
  mapX : HasSize rectificationMap.1 (toInt size.1, toInt size.2)
  mapY : HasSize rectificationMap.2 (toInt size.1, toInt size.2)

/-- The size for which something was computed, from the size of the transformation. -/
theorem Sized.eq_of_width {t : ImgTransformation K} {map : Mat K × Mat K}
    {size size' : UInt32 × UInt32} (h : Sized t map size) (hwidth : t.width = size'.1.toNat)
    (hheight : t.height = size'.2.toNat) : size = size' :=
  Prod.ext (UInt32.toNat_inj.1 (h.width.symm.trans hwidth))
    (UInt32.toNat_inj.1 (h.height.symm.trans hheight))

omit [Field K] in
theorem HasSize.toInt_eq {map : Mat K} {size : UInt32 × UInt32}
    (h : HasSize map (toInt size.1, toInt size.2)) (hheight : size.2 ≠ 0) :
    toInt size.1 = size.1.toNat ∧ toInt size.2 = size.2.toNat := by
  obtain ⟨hlength, hrows⟩ := h
  dsimp only at hlength hrows
  have hsecond : toInt size.2 = size.2.toNat := by
    apply toInt_eq_toNat
    rw [← hlength]
    exact Int.natCast_nonneg _
  refine ⟨?_, hsecond⟩
  have hpos : 0 < map.length := by
    have hne : size.2.toNat ≠ 0 := fun hzero =>
      hheight (UInt32.toNat_inj.1 (hzero.trans UInt32.toNat_zero.symm))
    rw [hsecond] at hlength
    omega
  have hrow := hrows _ (List.getElem_mem hpos)
  apply toInt_eq_toNat
  rw [← hrow]
  exact Int.natCast_nonneg _

theorem getFrame_eq_ok {frame : ImgFrame K} {size : ℤ × ℤ} (h : getFrame frame = .ok size) :
    Int32s.Fits (toInt frame.width * toInt frame.height) ∧ frame.height ≠ 0 := by
  rw [getFrame] at h
  obtain ⟨requiredSize, hrequired, h⟩ := Loop.bind_eq_ok.1 h
  rw [int, Int32s.checked_eq_ok_iff] at hrequired
  dsimp only at hrequired
  refine ⟨hrequired.1, fun hzero => ?_⟩
  split_ifs at h with hsmall hempty
  exact hempty (.inr hzero)

/-- **A frame that is sent.** Its sizes agree if what the node has computed is of its size. -/
theorem remapped_eq_ok (hcv : Documented cv) {image : Image} {inputFrame out : ImgFrame K}
    {size : UInt32 × UInt32} {rectificationMap : Mat K × Mat K}
    {transformation : ImgTransformation K}
    (h : remapped cv image (rectifiedFrame inputFrame size) rectificationMap transformation =
      .ok out) :
    out.transformation = transformation ∧ (out.width, out.height) = size ∧
      (Sized transformation rectificationMap size → Agrees out rectificationMap) := by
  rw [remapped] at h
  obtain ⟨imageSize, hframe, h⟩ := Loop.bind_eq_ok.1 h
  obtain ⟨data, hdata, h⟩ := Loop.bind_eq_ok.1 h
  obtain rfl := Except.ok.inj h
  obtain ⟨hfits, hheight⟩ := getFrame_eq_ok hframe
  refine ⟨rfl, rfl, fun hsized => ?_⟩
  obtain ⟨hwidth', hheight'⟩ := hsized.mapX.toInt_eq hheight
  have hlength : data.length = size.1.toNat * size.2.toNat := by
    rw [hcv.remap (thrown_eq_ok.1 hdata)]
    have hfits' : toInt size.1 * toInt size.2 < 2 ^ 31 := hfits.2
    rw [hwidth', hheight'] at hfits'
    have hlt : size.1.toNat * size.2.toNat < 2 ^ 31 := by exact_mod_cast hfits'
    simp only [rectifiedFrame, List.length_replicate, UInt32.toNat_mul]
    exact Nat.mod_eq_of_lt (hlt.trans (by norm_num))
  exact ⟨hsized.width, hsized.height, hwidth' ▸ hheight' ▸ hsized.mapX,
    hwidth' ▸ hheight' ▸ hsized.mapY, hlength⟩
section Maps

variable [LinearOrder K] {properties : RectificationProperties} {origin pair : Pair K}
  {rectified : Rectified K}

theorem createRectifiedImgTransformation_eq_ok {extrinsics : Extrinsics K} {M : Matrix3 K}
    {size : UInt32 × UInt32} {t : ImgTransformation K}
    (h : createRectifiedImgTransformation extrinsics M size = .ok t) :
    t.width = size.1.toNat ∧ t.height = size.2.toNat := by
  obtain ⟨N, -, h⟩ := Loop.bind_eq_ok.1 h
  obtain rfl := Except.ok.inj h
  exact ⟨rfl, rfl⟩

/-- What is computed has the sizes that it is computed for. -/
theorem outputs_sized (hcv : Documented cv) {M1 M2 R1 R2 targetM1 : Matrix3 K} {d1 d2 : List K}
    {extrinsics1 extrinsics2 : Extrinsics K} {size1 size2 : UInt32 × UInt32}
    (h : outputs cv properties M1 M2 d1 d2 R1 R2 targetM1 extrinsics1 extrinsics2 size1 size2 =
      .ok rectified) :
    Sized rectified.output1ImgTransformation rectified.rectificationMap1 size1 ∧
      Sized rectified.output2ImgTransformation rectified.rectificationMap2 size2 := by
  rw [outputs] at h
  generalize (if properties.enableRectification then (R1, R2, d1, d2)
    else (1, 1, d1.map fun _ => 0, d2.map fun _ => 0)) = used at h
  obtain ⟨R1, R2, d1, d2⟩ := used
  obtain ⟨rotationMatrix1, -, h⟩ := Loop.bind_eq_ok.1 h
  obtain ⟨rotationMatrix2, -, h⟩ := Loop.bind_eq_ok.1 h
  obtain ⟨map1, hmap1, h⟩ := Loop.bind_eq_ok.1 h
  obtain ⟨map2, hmap2, h⟩ := Loop.bind_eq_ok.1 h
  obtain ⟨t1, ht1, h⟩ := Loop.bind_eq_ok.1 h
  obtain ⟨t2, ht2, h⟩ := Loop.bind_eq_ok.1 h
  obtain rfl := Except.ok.inj h
  obtain ⟨hmapX1, hmapY1⟩ := hcv.initUndistortRectifyMap (thrown_eq_ok.1 hmap1)
  obtain ⟨hmapX2, hmapY2⟩ := hcv.initUndistortRectifyMap (thrown_eq_ok.1 hmap2)
  obtain ⟨hwidth1, hheight1⟩ := createRectifiedImgTransformation_eq_ok (lift_eq_ok.1 ht1)
  obtain ⟨hwidth2, hheight2⟩ := createRectifiedImgTransformation_eq_ok (lift_eq_ok.1 ht2)
  exact ⟨⟨hwidth1, hheight1, hmapX1, hmapY1⟩, ⟨hwidth2, hheight2, hmapX2, hmapY2⟩⟩

variable [FloorRing K]

/-- **The steps of `rectify`.** -/
theorem rectify_eq_ok_iff : rectify cv properties pair = .ok rectified ↔
    ∃ calib R T R1 R2 t1 t2, pair.calibration = .ok calib ∧
      calib.getCameraRotationMatrix pair.input1Frame.instanceNum pair.input2Frame.instanceNum =
        .ok R ∧
      calib.getCameraTranslationVector pair.input1Frame.instanceNum pair.input2Frame.instanceNum
        false = .ok T ∧
      cv.stereoRectify pair.input1Frame.transformation.getIntrinsicMatrix
        pair.input1Frame.transformation.distortionCoefficients
        pair.input2Frame.transformation.getIntrinsicMatrix
        pair.input2Frame.transformation.distortionCoefficients
        (toInt pair.input1Frame.width, toInt pair.input1Frame.height) R T = .ok (R1, R2) ∧
      scaled properties pair.input1Frame = .ok t1 ∧ scaled properties pair.input2Frame = .ok t2 ∧
      outputs cv properties pair.input1Frame.transformation.getIntrinsicMatrix
        pair.input2Frame.transformation.getIntrinsicMatrix
        pair.input1Frame.transformation.distortionCoefficients
        pair.input2Frame.transformation.distortionCoefficients R1 R2 t1.getIntrinsicMatrix
        t1.extrinsics t2.extrinsics (properties.outputSize pair.input1Frame)
        (properties.outputSize pair.input2Frame) = .ok rectified := by
  rw [rectify]
  constructor
  · intro h
    obtain ⟨calib, hcalib, h⟩ := Loop.bind_eq_ok.1 h
    obtain ⟨R, hR, h⟩ := Loop.bind_eq_ok.1 h
    obtain ⟨T, hT, h⟩ := Loop.bind_eq_ok.1 h
    obtain ⟨⟨R1, R2⟩, hstereo, h⟩ := Loop.bind_eq_ok.1 h
    obtain ⟨t1, ht1, h⟩ := Loop.bind_eq_ok.1 h
    obtain ⟨t2, ht2, h⟩ := Loop.bind_eq_ok.1 h
    exact ⟨calib, R, T, R1, R2, t1, t2, thrown_eq_ok.1 hcalib, thrown_eq_ok.1 hR, thrown_eq_ok.1 hT,
      thrown_eq_ok.1 hstereo, ht1, ht2, h⟩
  · rintro ⟨calib, R, T, R1, R2, t1, t2, hcalib, hR, hT, hstereo, ht1, ht2, h⟩
    simp only [hcalib, hR, hT, hstereo, ht1, ht2, thrown, Loop.ok_bind]
    exact h

theorem rectify_sized (hcv : Documented cv) (h : rectify cv properties pair = .ok rectified) :
    Sized rectified.output1ImgTransformation rectified.rectificationMap1
        (properties.outputSize pair.input1Frame) ∧
      Sized rectified.output2ImgTransformation rectified.rectificationMap2
        (properties.outputSize pair.input2Frame) := by
  obtain ⟨_, _, _, _, _, _, _, -, -, -, -, -, -, houtputs⟩ := rectify_eq_ok_iff.1 h
  exact outputs_sized hcv houtputs

/-! ### Pairs that have the same maps -/

theorem addScale_eq_ok {t u : ImgTransformation K} {x y : K} (h : t.addScale x y = .ok u) :
    u.extrinsics = t.extrinsics ∧
      u.getIntrinsicMatrix = !![x, 0, 0; 0, y, 0; 0, 0, 1] * t.getIntrinsicMatrix ∧
      x ≠ 0 ∧ y ≠ 0 := by
  rw [ImgTransformation.addScale, ImgTransformation.addTransformation] at h
  obtain ⟨N, hN, h⟩ := Loop.bind_eq_ok.1 h
  obtain rfl := Except.ok.inj h
  obtain ⟨hunit, -⟩ := getMatrixInverse_eq_ok_iff.1 hN
  rw [matMul_eq, det_mul] at hunit
  have hdet : (!![x, 0, 0; 0, y, 0; 0, 0, 1] : Matrix3 K).det = x * y := by
    simp [det_fin_three]
  rw [hdet] at hunit
  have hxy : x * y ≠ 0 := left_ne_zero_of_mul hunit.ne_zero
  refine ⟨rfl, ?_, left_ne_zero_of_mul hxy, right_ne_zero_of_mul hxy⟩
  simp only [ImgTransformation.getIntrinsicMatrix, matMul_eq, Matrix.mul_assoc]

theorem exists_addScale {t : ImgTransformation K} {x y : K} (hx : x ≠ 0) (hy : y ≠ 0)
    (hdet : IsUnit t.transformationMatrix.det) : ∃ u, t.addScale x y = .ok u := by
  have hunit : IsUnit (matMul !![x, 0, 0; 0, y, 0; 0, 0, 1] t.transformationMatrix).det := by
    rw [matMul_eq, det_mul]
    refine IsUnit.mul ?_ hdet
    simp [det_fin_three, hx, hy]
  rw [ImgTransformation.addScale, ImgTransformation.addTransformation,
    getMatrixInverse_eq_ok_iff.2 ⟨hunit, rfl⟩]
  exact ⟨_, rfl⟩

/-- The matrix by which the transformation of an input is scaled. -/
def scaling (properties : RectificationProperties) (inputFrame : ImgFrame K) : Matrix3 K :=
  if properties.Configured then
    !![(properties.outputSize inputFrame).1.toNat / inputFrame.width.toNat, 0, 0;
       0, (properties.outputSize inputFrame).2.toNat / inputFrame.height.toNat, 0;
       0, 0, 1]
  else 1

theorem scaled_eq_ok {inputFrame : ImgFrame K} {t : ImgTransformation K}
    (h : scaled properties inputFrame = .ok t) :
    t.extrinsics = inputFrame.transformation.extrinsics ∧
      t.getIntrinsicMatrix =
        scaling properties inputFrame * inputFrame.transformation.getIntrinsicMatrix ∧
      (properties.Configured → ((properties.outputSize inputFrame).1.toNat : K) ≠ 0 ∧
        ((properties.outputSize inputFrame).2.toNat : K) ≠ 0) := by
  rw [scaled] at h
  rw [scaling]
  split_ifs at h ⊢ with hconfigured
  · obtain ⟨x, hx, h⟩ := Loop.bind_eq_ok.1 h
    obtain ⟨y, hy, h⟩ := Loop.bind_eq_ok.1 h
    replace hx := lift_eq_ok.1 hx
    replace hy := lift_eq_ok.1 hy
    rw [quotient_eq (ImgTransformation.ne_zero_of_quotient hx)] at hx
    rw [quotient_eq (ImgTransformation.ne_zero_of_quotient hy)] at hy
    obtain rfl := Except.ok.inj hx
    obtain rfl := Except.ok.inj hy
    obtain ⟨hextrinsics, hintrinsic, hxne, hyne⟩ := addScale_eq_ok (lift_eq_ok.1 h)
    exact ⟨hextrinsics, hintrinsic, fun _ =>
      ⟨(div_ne_zero_iff.1 hxne).1, (div_ne_zero_iff.1 hyne).1⟩⟩
  · obtain rfl := Except.ok.inj h
    exact ⟨rfl, (Matrix.one_mul _).symm, fun hconfigured' => absurd hconfigured' hconfigured⟩

theorem exists_scaled {inputFrame : ImgFrame K}
    (h : properties.Configured → Scalable inputFrame ∧
      ((properties.outputSize inputFrame).1.toNat : K) ≠ 0 ∧
      ((properties.outputSize inputFrame).2.toNat : K) ≠ 0) :
    ∃ t, scaled properties inputFrame = .ok t := by
  rw [scaled]
  split_ifs with hconfigured
  · obtain ⟨⟨hwidth, hheight, hdet⟩, houtWidth, houtHeight⟩ := h hconfigured
    obtain ⟨u, hu⟩ :=
      exists_addScale (div_ne_zero houtWidth hwidth) (div_ne_zero houtHeight hheight) hdet
    refine ⟨u, ?_⟩
    simp only [quotient_eq hwidth, quotient_eq hheight, lift, Loop.ok_bind, hu]
  · exact ⟨_, rfl⟩

/-- **Pairs that have the same maps and transformations.** -/
theorem SameRectification.rectify_eq_ok (h : SameRectification properties origin pair)
    (hrectify : rectify cv properties origin = .ok rectified) :
    rectify cv properties pair = .ok rectified := by
  obtain ⟨calib, R, T, R1, R2, t1, t2, hcalib, hR, hT, hstereo, ht1, ht2, houtputs⟩ :=
    rectify_eq_ok_iff.1 hrectify
  have hrotation : pair.rotation = .ok R := by
    rw [← h.rotation, Pair.rotation, hcalib, Loop.ok_bind, hR]
  have htranslation : pair.translation = .ok T := by
    rw [← h.translation, Pair.translation, hcalib, Loop.ok_bind, hT]
  obtain ⟨calib', hcalib', hR'⟩ := Loop.bind_eq_ok.1 hrotation
  rw [Pair.translation, hcalib', Loop.ok_bind] at htranslation
  obtain ⟨hextrinsics1, hintrinsic1, hout1⟩ := scaled_eq_ok ht1
  obtain ⟨hextrinsics2, -, hout2⟩ := scaled_eq_ok ht2
  rw [h.sizes.output1] at hout1
  rw [h.sizes.output2] at hout2
  obtain ⟨u1, hu1⟩ := exists_scaled fun hc => ⟨(h.scalable hc).1, hout1 hc⟩
  obtain ⟨u2, hu2⟩ := exists_scaled fun hc => ⟨(h.scalable hc).2, hout2 hc⟩
  obtain ⟨hextrinsics1', hintrinsic1', -⟩ := scaled_eq_ok hu1
  obtain ⟨hextrinsics2', -, -⟩ := scaled_eq_ok hu2
  have hscaling : scaling properties origin.input1Frame = scaling properties pair.input1Frame := by
    rw [scaling, scaling, h.sizes.output1, h.width, h.height]
  rw [h.camera1.intrinsicMatrix, h.camera1.distortionCoefficients, h.camera2.intrinsicMatrix,
    h.camera2.distortionCoefficients, h.width, h.height] at hstereo
  rw [hextrinsics1, hintrinsic1, hextrinsics2, hscaling, h.sizes.output1, h.sizes.output2,
    h.camera1.intrinsicMatrix, h.camera1.distortionCoefficients, h.camera2.intrinsicMatrix,
    h.camera2.distortionCoefficients, h.camera1.extrinsics, h.camera2.extrinsics, ← hextrinsics1',
    ← hextrinsics2', ← hintrinsic1'] at houtputs
  exact rectify_eq_ok_iff.2 ⟨calib', R, T, R1, R2, u1, u2, hcalib', hR', htranslation, hstereo,
    hu1, hu2, houtputs⟩

end Maps
/-! ### Runs -/

section Runs

variable [LinearOrder K] [FloorRing K] {properties : RectificationProperties} {pair : Pair K}
  {session : Session K}

omit [LinearOrder K] [FloorRing K] in
/-- The frames of a round have the output sizes and the transformations of the node. -/
theorem send_eq_ok (hcv : Documented cv) {rectified : Rectified K} {sent : Sent K}
    (h : send cv properties rectified pair = .ok sent) :
    (sent.output1.transformation = rectified.output1ImgTransformation ∧
        (sent.output1.width, sent.output1.height) = properties.outputSize pair.input1Frame ∧
        (Sized rectified.output1ImgTransformation rectified.rectificationMap1
          (properties.outputSize pair.input1Frame) →
            Agrees sent.output1 rectified.rectificationMap1)) ∧
      sent.output2.transformation = rectified.output2ImgTransformation ∧
        (sent.output2.width, sent.output2.height) = properties.outputSize pair.input2Frame ∧
        (Sized rectified.output2ImgTransformation rectified.rectificationMap2
          (properties.outputSize pair.input2Frame) →
            Agrees sent.output2 rectified.rectificationMap2) := by
  rw [send] at h
  obtain ⟨_, -, h⟩ := Loop.bind_eq_ok.1 h
  obtain ⟨_, -, h⟩ := Loop.bind_eq_ok.1 h
  obtain ⟨gray1, -, h⟩ := Loop.bind_eq_ok.1 h
  obtain ⟨gray2, -, h⟩ := Loop.bind_eq_ok.1 h
  obtain ⟨output1, houtput1, h⟩ := Loop.bind_eq_ok.1 h
  obtain ⟨output2, houtput2, h⟩ := Loop.bind_eq_ok.1 h
  obtain rfl := Except.ok.inj h
  exact ⟨remapped_eq_ok hcv houtput1, remapped_eq_ok hcv houtput2⟩

theorem round_eq_ok {node node' : Node K} {sent : Sent K}
    (h : node.round cv pair = .ok (node', sent)) :
    ∃ rectified, node.initializeMaps cv pair = .ok rectified ∧
      send cv node.properties rectified pair = .ok sent ∧
      node' = { node with rectified := some rectified } := by
  obtain ⟨rectified, hinit, h⟩ := Loop.bind_eq_ok.1 h
  obtain ⟨sent', hsend, h⟩ := Loop.bind_eq_ok.1 h
  obtain ⟨rfl, rfl⟩ := Prod.mk.inj (Except.ok.inj h)
  exact ⟨rectified, hinit, hsend, rfl⟩

/-- **What a node keeps**: what it has computed is from the pair that is remembered. -/
structure Kept (cv : OpenCV K Image) (session : Session K) : Prop where
  computed : ∀ rectified ∈ session.node.rectified, ∃ origin ∈ session.origin,
    rectify cv session.node.properties origin = .ok rectified
  unset : session.node.rectified = none → session.origin = none

/-- What a round uses is from the pair that is remembered, or from the new one. -/
theorem Kept.initializeMaps (h : Kept cv session) {rectified : Rectified K}
    (hinit : session.node.initializeMaps cv pair = .ok rectified) :
    (session.node.rectified = none ∧ session.origin = none ∧
        rectify cv session.node.properties pair = .ok rectified) ∨
      session.node.rectified = some rectified ∧ ∃ origin ∈ session.origin,
        rectify cv session.node.properties origin = .ok rectified := by
  rw [Node.initializeMaps] at hinit
  cases hsome : session.node.rectified with
  | none =>
    rw [hsome] at hinit
    exact .inl ⟨rfl, h.unset hsome, hinit⟩
  | some kept =>
    rw [hsome] at hinit
    obtain rfl := Except.ok.inj hinit
    exact .inr ⟨rfl, h.computed kept hsome⟩

/-- **A round keeps it.** -/
theorem Kept.next {session' : Session K} (h : Kept cv session)
    (hnext : session.next cv pair = some session') : Kept cv session' := by
  rw [Session.next] at hnext
  rcases hround : session.node.round cv pair with e | ⟨node, sent⟩
  · rw [hround] at hnext
    cases hnext
  · rw [hround] at hnext
    obtain rfl := Option.some.inj hnext
    obtain ⟨rectified, hinit, -, rfl⟩ := round_eq_ok hround
    refine ⟨fun rectified' hmem => ?_, nofun⟩
    obtain rfl := Option.some.inj hmem
    rcases h.initializeMaps hinit with ⟨hnone, -, hrectify⟩ | ⟨hsome, hrectify⟩
    · rw [hnone]
      exact ⟨pair, rfl, hrectify⟩
    · rw [hsome]
      exact hrectify

/-- The sizes agree if the outputs have the sizes for which the maps were computed. -/
theorem agreesFor_of_rectify (hcv : Documented cv) {origin : Pair K} {node : Node K}
    {rectified : Rectified K} {sent : Sent K} (hsizes : SameSizes node.properties origin pair)
    (hrectify : rectify cv node.properties origin = .ok rectified)
    (hsend : send cv node.properties rectified pair = .ok sent) :
    AgreesFor { node with rectified := some rectified } sent := by
  obtain ⟨⟨-, -, hagrees1⟩, -, -, hagrees2⟩ := send_eq_ok hcv hsend
  obtain ⟨hsized1, hsized2⟩ := rectify_sized hcv hrectify
  rw [hsizes.output1] at hsized1
  rw [hsizes.output2] at hsized2
  intro rectified' hmem
  obtain rfl := Option.some.inj hmem
  exact ⟨hagrees1 hsized1, hagrees2 hsized2⟩

/-- **A pair for which the node is right.** -/
theorem Kept.right (hcv : Documented cv) (h : Kept cv session) (hfits : session.Fits pair) :
    session.Right cv pair := by
  intro node sent hround
  obtain ⟨rectified, hinit, hsend, rfl⟩ := round_eq_ok hround
  have hfresh : rectify cv session.node.properties pair = .ok rectified := by
    rcases h.initializeMaps hinit with ⟨-, -, hrectify⟩ | ⟨-, origin, horigin, hrectify⟩
    · exact hrectify
    · exact (hfits origin horigin).rectify_eq_ok hrectify
  refine ⟨?_, agreesFor_of_rectify hcv ⟨rfl, rfl⟩ hfresh hsend⟩
  have hstart : (Session.start session.node.properties).node.initializeMaps cv pair = .ok rectified :=
    hfresh
  rw [Node.round, hstart, Loop.ok_bind]
  change (send cv session.node.properties rectified pair >>= _) = _
  rw [hsend, Loop.ok_bind]
  rfl

/-- **When the sizes agree.** -/
theorem Kept.agreesFor_iff (hcv : Documented cv) (h : Kept cv session) {node : Node K}
    {sent : Sent K} (hround : session.node.round cv pair = .ok (node, sent)) :
    AgreesFor node sent ↔
      ∀ origin ∈ session.origin, SameSizes session.node.properties origin pair := by
  obtain ⟨rectified, hinit, hsend, rfl⟩ := round_eq_ok hround
  rcases h.initializeMaps hinit with ⟨-, horigin, hrectify⟩ | ⟨-, origin, horigin, hrectify⟩
  · rw [horigin]
    exact iff_of_true (agreesFor_of_rectify hcv ⟨rfl, rfl⟩ hrectify hsend)
      fun _ hmem => absurd hmem (Option.not_mem_none _)
  · constructor
    · intro hagrees origin' hmem
      obtain rfl := Option.some.inj (horigin.symm.trans hmem)
      obtain ⟨hagrees1, hagrees2⟩ := hagrees rectified rfl
      obtain ⟨⟨ht1, hsize1, -⟩, ht2, hsize2, -⟩ := send_eq_ok hcv hsend
      obtain ⟨hsized1, hsized2⟩ := rectify_sized hcv hrectify
      refine ⟨?_, ?_⟩
      · rw [← hsize1]
        exact hsized1.eq_of_width (ht1 ▸ hagrees1.width) (ht1 ▸ hagrees1.height)
      · rw [← hsize2]
        exact hsized2.eq_of_width (ht2 ▸ hagrees2.width) (ht2 ▸ hagrees2.height)
    · intro hsizes
      exact agreesFor_of_rectify hcv (hsizes origin horigin) hrectify hsend

/-- A node that has just been started has computed nothing. -/
theorem kept_start : Kept cv (.start properties) :=
  ⟨fun _ hmem => absurd hmem (Option.not_mem_none _), fun _ => rfl⟩

end Runs

end Sizes
/-! ### Cameras of one pixel -/

/-- OpenCV for cameras that look in the same direction, lenses without distortion and points that
are whole pixels. -/
def wholePixels : OpenCV ℚ (List (List UInt8)) where
  stereoRectify := ImageAlign.parallel.stereoRectify
  initUndistortRectifyMap M d R newM size :=
    if 0 ≤ size.1 ∧ 0 ≤ size.2 then
      ImageAlign.parallel.initUndistortRectifyMap M d R newM size
    else .error "negative size"
  invert M := (getMatrixInverse M).toOption.getD 0
  getCvFrame frame := .ok ((List.range frame.height.toNat).map fun row =>
    (frame.data.drop (row * frame.stride.toNat)).take frame.width.toNat)
  channels _ := 1
  cvtColor image := .ok image
  remap image size data map :=
    if (map.1.length : ℤ) = size.2 then
      .ok ((List.range data.length).map fun i =>
        let x := map.1.flatten.getD i 0
        let y := map.2.flatten.getD i 0
        if 0 ≤ x ∧ 0 ≤ y then (image.getD y.floor.toNat []).getD x.floor.toNat 0 else 0)
    else .error "size of the map"

theorem documented_wholePixels : Documented wholePixels where
  initUndistortRectifyMap {M d R newM size map} h := by
    simp only [wholePixels] at h
    split_ifs at h with hsize
    obtain ⟨hwidth, hheight⟩ := hsize
    obtain rfl := Except.ok.inj h
    constructor <;> refine ⟨?_, fun row hrow => ?_⟩
    · simpa using hheight
    · obtain ⟨v, -, rfl⟩ := List.mem_map.1 hrow
      simpa using hwidth
    · simpa using hheight
    · obtain ⟨v, -, rfl⟩ := List.mem_map.1 hrow
      simpa using hwidth
  remap {image size data map result} h := by
    simp only [wholePixels] at h
    split_ifs at h
    obtain rfl := Except.ok.inj h
    simp

/-- A frame of one pixel, by a camera of a focal length. -/
def pixelFrame (focal : ℚ) (instanceNum : UInt32) : ImgFrame ℚ where
  type := .GRAY8
  width := 1
  height := 1
  stride := 1
  sourceWidth := 1
  sourceHeight := 1
  instanceNum
  transformation :=
    { sourceIntrinsicMatrix := !![focal, 0, 0; 0, focal, 0; 0, 0, 1]
      sourceIntrinsicMatrixInv := !![1 / focal, 0, 0; 0, 1 / focal, 0; 0, 0, 1]
      extrinsics :=
        ⟨[[1, 0, 0], [0, 1, 0], [0, 0, 1]], ⟨0, 0, 0⟩, ⟨0, 0, 0⟩, .CAM_A, .CENTIMETER⟩
      srcWidth := 1
      srcHeight := 1
      width := 1
      height := 1 }
  data := [7]

/-- A pair of them. -/
def pixelPair (focal : ℚ) : Pair ℚ where
  calibration := .ok ImageAlign.sideBySide
  input1Frame := pixelFrame focal 0
  input2Frame := pixelFrame focal 1

theorem next_start_origin [LinearOrder K] [FloorRing K] {Image : Type} {cv : OpenCV K Image}
    {properties : RectificationProperties} {pair : Pair K} {session : Session K}
    (h : (Session.start properties).next cv pair = some session) :
    session.origin = some pair ∧ session.node.properties = properties := by
  rw [Session.next] at h
  rcases hround : (Session.start properties).node.round cv pair with e | ⟨node, sent⟩
  · rw [hround] at h
    cases h
  · rw [hround] at h
    obtain rfl := Option.some.inj h
    obtain ⟨rectified, -, -, rfl⟩ := round_eq_ok hround
    exact ⟨rfl, rfl⟩

theorem SameRectification.refl {properties : RectificationProperties}
    (hunset : ¬properties.Configured) (pair : Pair K) : SameRectification properties pair pair :=
  ⟨⟨rfl, rfl⟩, rfl, rfl, ⟨rfl, rfl, rfl⟩, ⟨rfl, rfl, rfl⟩, rfl, rfl, fun h => absurd h hunset⟩

theorem isSome_next_pixelPair :
    ((Session.start {}).next wholePixels (pixelPair 1)).isSome := by
  decide +kernel

/-- The focal lengths that are sent for a pair after another one, and for the pair alone. -/
def focalLengths (first second : Pair ℚ) : Option (ℚ × ℚ) := do
  let session ← (Session.start {}).next wholePixels first
  let later ← (session.node.round wholePixels second).toOption
  let alone ← ((Session.start {}).node.round wholePixels second).toOption
  return (later.2.output1.transformation.sourceIntrinsicMatrix 0 0,
    alone.2.output1.transformation.sourceIntrinsicMatrix 0 0)

theorem focalLengths_eq : focalLengths (pixelPair 1) (pixelPair 2) = some (1, 2) := by
  decide +kernel

end Rectification

end DepthaiCore
