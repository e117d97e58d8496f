import DepthaiCore.Lib.Int32s
import DepthaiCore.Lib.Rounding
import DepthaiCore.Lib.Runs
import DepthaiCore.Node.DepthPoints
import Mathlib.Data.Rat.Floor

/-!
# Runs of the node `ImageAlign`

The node warps frames of one camera to the view of another. From the first frame and the calibration
it computes maps for the two warps. It keeps the maps, and shifts one of them in place when a
configuration changes the plane that frames are aligned to. The sizes of its buffers are those of
the first frame.

The maps are computed again only when the calibration has a larger number. A frame that has another
size, other intrinsics or another camera is warped with the maps of the first frame. After a new
calibration the map is not shifted, while the node remembers that it is.

Floats are an ordered field. OpenCV and the calibration are parameters. What the warps do with the
pixels is left out.
-/

open scoped Numerals

namespace DepthaiCore

namespace ImageAlign

open DepthPoints Int32s MatrixOps

/-! ### Numbers and exceptions -/

/-- How a round ends without a result. -/
inductive Fault
  | thrown (what : String)
  /-- A number that does not fit its type, or a division by zero. -/
  | undefined
  deriving DecidableEq, Repr

section Outcomes

variable {α : Type}

/-- The outcome of a function that may throw. -/
def thrown : Except String α → Except Fault α
  | .ok a => .ok a
  | .error what => .error (.thrown what)

/-- The outcome of a function on transformations. -/
def lift : Except Failure α → Except Fault α
  | .ok a => .ok a
  | .error (.runtimeError what) => .error (.thrown what)
  | .error (.invalidArgument what) => .error (.thrown what)
  | .error .divisionByZero => .error .undefined

theorem thrown_eq_ok {x : Except String α} {a : α} : thrown x = .ok a ↔ x = .ok a := by
  cases x <;> simp [thrown]

theorem lift_eq_ok {x : Except Failure α} {a : α} : lift x = .ok a ↔ x = .ok a := by
  rcases x with (_ | _ | _) | b <;> simp [lift]

end Outcomes

/-- A result of type `int`. -/
def int (n : ℤ) : Except Fault ℤ :=
  checked .undefined n

/-- The conversion of a whole number in floating point to `uint32_t`. -/
def uint32_t (n : ℤ) : Except Fault ℕ :=
  if 0 ≤ n ∧ n < 2 ^ 32 then .ok n.toNat else .error .undefined

/-- The conversion from `uint32_t` to `int`. -/
def toInt (n : UInt32) : ℤ := (n.toNat : ℤ).bmod (2 ^ 32)

/-! ### What the node is given -/

structure ImageAlignConfig where
  staticDepthPlane : UInt16 := 0
  deriving DecidableEq, Repr

/-- What the node asks a `CalibrationHandler`. A camera is the number of its socket. -/
structure Calibration (K : Type) where
  getDistortionCoefficients : UInt32 → Except String (List K)
  getCameraRotationMatrix : UInt32 → UInt32 → Except String (Matrix3 K)
  getCameraTranslationVector : UInt32 → UInt32 → Bool → Except String (Fin 3 → K)

/-- The calibration of a `CalibrationHandler` that has no data. -/
def Calibration.none (K : Type) : Calibration K where
  getDistortionCoefficients _ :=
    .error "There is no Camera data available corresponding to the requested cameraID"
  getCameraRotationMatrix _ _ :=
    .error "There is no Camera data available corresponding to the requested source cameraId"
  getCameraTranslationVector _ _ _ :=
    .error "There is no Camera data available corresponding to the requested source cameraId"

/-- What the node asks its pipeline. -/
structure Pipeline (K : Type) where
  /-- The calibration, or the exception of `getCalibrationData`. -/
  calibration : Except String (Calibration K)
  eepromId : UInt32 := 0

namespace Pipeline

variable {K : Type} (self : Pipeline K)

def setEepromData (calibration : Except String (Calibration K)) : Pipeline K :=
  { calibration, eepromId := self.eepromId + 1 }

/-- The calibration that `run` begins with: an exception is caught. -/
def getCalibration : Calibration K :=
  match self.calibration with
  | .ok calibration => calibration
  | .error _ => .none K

end Pipeline

/-- A `cv::Mat` of floats. -/
abbrev Mat (K : Type) := List (List K)

/-- The functions of OpenCV that compute maps. -/
structure OpenCV (K : Type) where
  stereoRectify : Matrix3 K → List K → Matrix3 K → List K → ℤ × ℤ → Matrix3 K → (Fin 3 → K) →
    Except String (Matrix3 K × Matrix3 K)
  initUndistortRectifyMap : Matrix3 K → List K → Matrix3 K → Matrix3 K → ℤ × ℤ →
    Except String (Mat K × Mat K)

/-! ### Types of frames -/

def supportedFrameTypes : List ImgFrameType :=
  [.YUV420p, .NV12, .GRAY8, .RAW8, .RAW16]

def frameTypeToBpp : ImgFrameType → ℚ
  | .YUV420p | .NV12 => 3 / 2
  | .GRAY8 | .RAW8 => 1
  | .RAW16 => 2
  | _ => 0

/-- The bytes of a frame with this many pixels. -/
def bytes (pixels : ℤ) (type : ImgFrameType) : ℤ :=
  Rounding.nearest (pixels * frameTypeToBpp type)

/-! ### The maps -/

variable {K : Type} [Field K]

/-- What frames are aligned to. -/
structure Target (K : Type) [Field K] where
  alignTo : UInt32 := 0
  alignWidth : ℤ
  alignHeight : ℤ
  alignSourceIntrinsics : Matrix3 K := 0

/-- What `extractCalibrationData` assigns. -/
structure Rectification (K : Type) [Field K] where
  depthToAlignExtrinsics : Matrix (Fin 3) (Fin 4) K := 0
  map_x_1 : Mat K := []
  map_y_1 : Mat K := []
  map_x_2 : Mat K := []
  map_y_2 : Mat K := []

/-- The distortion coefficients, where none are zeros. -/
def depthDistortionCoefficients (inputImg : ImgFrame K) : List K :=
  if inputImg.transformation.distortionCoefficients = [] then List.replicate 14 0
  else inputImg.transformation.distortionCoefficients

/-- The body of `extractCalibrationData`. -/
def rectify (cv : OpenCV K) (calibHandler : Calibration K) (target : Target K)
    (inputImg : ImgFrame K) : Except Fault (Rectification K) := do
  let M1 := inputImg.transformation.getIntrinsicMatrix
  let M2 := target.alignSourceIntrinsics
  let d1 := depthDistortionCoefficients inputImg
  let alignFrom := inputImg.instanceNum
  let imageSize := (toInt inputImg.width, toInt inputImg.height)
  let alignDistortionCoefficients ← thrown (calibHandler.getDistortionCoefficients target.alignTo)
  let R ← thrown (calibHandler.getCameraRotationMatrix alignFrom target.alignTo)
  let T ← thrown (calibHandler.getCameraTranslationVector alignFrom target.alignTo false)
  let T := fun i => T i * 10
  let dNone := alignDistortionCoefficients.map fun _ => 0
  let (R1, R2) ← thrown (cv.stereoRectify M1 d1 M2 dNone imageSize R T)
  let (map_x_1, map_y_1) ← thrown (cv.initUndistortRectifyMap M1 d1 R1 M1 imageSize)
  let newR := matMul R2 (matMul R R1.transpose)
  let newT := matVecMul R2 T
  let (map_x_2, map_y_2) ←
    thrown (cv.initUndistortRectifyMap M1 dNone R2.transpose M2
      (target.alignWidth, target.alignHeight))
  return {
    depthToAlignExtrinsics := Matrix.of fun i => Fin.snoc (newR i) (newT i)
    map_x_1, map_y_1, map_x_2, map_y_2 }

def shiftMesh (meshX : Mat K) (shiftX : ℤ) : Mat K :=
  meshX.map fun row => row.map fun x => x + shiftX

variable [LinearOrder K] [FloorRing K]

/-- `constantShiftFactor`, before it becomes an `int`. -/
def constantShiftFactor (depthToAlignExtrinsics : Matrix (Fin 3) (Fin 4) K)
    (inputImg : ImgFrame K) (config : ImageAlignConfig) : ℤ :=
  if config.staticDepthPlane = 0 then 0
  else
    Rounding.nearest (depthToAlignExtrinsics 0 3 *
      inputImg.transformation.getIntrinsicMatrix 0 0 / (config.staticDepthPlane.toNat : K))

/-! ### The node -/

/-- The node `ImageAlign`, with what `run` keeps from one round to the next. -/
structure Node (K : Type) [Field K] where
  target : Target K
  calibHandler : Calibration K
  latestConfig : ImageAlignConfig
  currentEepromId : UInt32
  initialized : Bool := false
  allocated : Bool := false
  frameSize : ℕ := 0
  outFrameSize : ℕ := 0
  calibrationSet : Bool := false
  rectification : Rectification K := {}
  previousShiftFactor : ℤ := 0

namespace Node

variable (self : Node K)

/-- The node takes a new configuration. -/
def takeConfig : Option ImageAlignConfig → Node K
  | none => self
  | some inConfig => { self with latestConfig := inConfig }

/-- The intrinsics that a frame has with this size. -/
def intrinsicsFor (inputAlignToTransform : ImgTransformation K) (alignWidth alignHeight : ℤ) :
    Except Fault (Matrix3 K) :=
  if (inputAlignToTransform.width : ℤ).bmod (2 ^ 32) ≠ alignWidth ∨
      (inputAlignToTransform.height : ℤ).bmod (2 ^ 32) ≠ alignHeight then do
    let scaleX ← lift (quotient (alignWidth : K) inputAlignToTransform.width)
    let scaleY ← lift (quotient (alignHeight : K) inputAlignToTransform.height)
    let scaled ← lift (inputAlignToTransform.addScale scaleX scaleY)
    return scaled.getIntrinsicMatrix
  else return inputAlignToTransform.getIntrinsicMatrix

/-- The node looks at the frame that it aligns to. -/
def initializeTarget (inputAlignToImg : ImgFrame K) : Except Fault (Node K) :=
  if self.initialized then .ok self
  else do
    let unset := self.target.alignWidth = 0 ∨ self.target.alignHeight = 0
    let alignWidth := if unset then toInt inputAlignToImg.width else self.target.alignWidth
    let alignHeight := if unset then toInt inputAlignToImg.height else self.target.alignHeight
    let alignSourceIntrinsics ←
      intrinsicsFor inputAlignToImg.transformation alignWidth alignHeight
    return { self with
      initialized := true
      target :=
        { alignTo := inputAlignToImg.instanceNum, alignWidth, alignHeight, alignSourceIntrinsics } }

/-- The part of a round in which messages are received. -/
def receive (inputAlignToImg : ImgFrame K) (inConfig : Option ImageAlignConfig) :
    Except Fault (Node K) := do
  let self ← self.initializeTarget inputAlignToImg
  return self.takeConfig inConfig

/-- The frame is not skipped. -/
def Accepts (inputImg : ImgFrame K) : Prop :=
  inputImg.instanceNum ≠ self.target.alignTo ∧ inputImg.type ∈ supportedFrameTypes

instance (inputImg : ImgFrame K) : Decidable (self.Accepts inputImg) :=
  inferInstanceAs (Decidable (_ ∧ _))

def allocatePools (inputImg : ImgFrame K) : Except Fault (Node K) :=
  if self.allocated then .ok self
  else do
    let pixels ← int (toInt inputImg.width * toInt inputImg.height)
    let frameSize ← uint32_t (bytes pixels inputImg.type)
    let outPixels ← int (self.target.alignWidth * self.target.alignHeight)
    let outFrameSize ← uint32_t (bytes outPixels inputImg.type)
    return { self with frameSize, outFrameSize, allocated := true }

/-- The node looks at the number of the calibration. -/
def checkEeprom (pipeline : Pipeline K) : Except Fault (Node K) :=
  if pipeline.eepromId > self.currentEepromId then do
    let calibHandler ← thrown pipeline.calibration
    return { self with
      calibrationSet := false, calibHandler, currentEepromId := pipeline.eepromId }
  else .ok self

def extractCalibrationData (cv : OpenCV K) (inputImg : ImgFrame K) : Except Fault (Node K) :=
  if self.calibrationSet then .ok self
  else do
    let rectification ← rectify cv self.calibHandler self.target inputImg
    return { self with rectification, calibrationSet := true }

/-- The node shifts the first map by what the shift has changed. -/
def shift (inputImg : ImgFrame K) : Except Fault (Node K) := do
  let rectification := self.rectification
  let constantShiftFactor ←
    int (constantShiftFactor rectification.depthToAlignExtrinsics inputImg self.latestConfig)
  let currentShiftFactor ← int (constantShiftFactor - self.previousShiftFactor)
  if currentShiftFactor ≠ 0 then
    let shiftX ← int (-currentShiftFactor)
    return { self with
      rectification :=
        { rectification with map_x_1 := shiftMesh rectification.map_x_1 shiftX }
      previousShiftFactor := constantShiftFactor }
  else return { self with previousShiftFactor := constantShiftFactor }

/-- What a round does before it warps the frame. -/
def prepare (cv : OpenCV K) (pipeline : Pipeline K) (inputImg : ImgFrame K) :
    Except Fault (Node K) := do
  let self ← self.allocatePools inputImg
  let self ← self.checkEeprom pipeline
  let self ← self.extractCalibrationData cv inputImg
  self.shift inputImg

/-- The round of `run` up to the warps, and whether the frame is warped. -/
def round (cv : OpenCV K) (pipeline : Pipeline K) (inputAlignToImg : ImgFrame K)
    (inConfig : Option ImageAlignConfig) (inputImg : ImgFrame K) :
    Except Fault (Node K × Bool) := do
  let self ← self.receive inputAlignToImg inConfig
  if self.Accepts inputImg then return (← self.prepare cv pipeline inputImg, true)
  else return (self, false)

/-- The maps are not computed anew. -/
def KeepsMaps (pipeline : Pipeline K) : Prop :=
  self.calibrationSet = true ∧ ¬ pipeline.eepromId > self.currentEepromId

instance (pipeline : Pipeline K) : Decidable (self.KeepsMaps pipeline) :=
  inferInstanceAs (Decidable (_ ∧ _))

/-- **The node is up to date** for a frame: the first map is the one that is computed for the frame,
shifted as the configuration says, and the buffers have enough bytes. -/
def Current (cv : OpenCV K) (pipeline : Pipeline K) (inputImg : ImgFrame K) : Prop :=
  (∃ fresh, rectify cv pipeline.getCalibration self.target inputImg = .ok fresh ∧
    self.rectification.map_x_1 = shiftMesh fresh.map_x_1
      (-constantShiftFactor fresh.depthToAlignExtrinsics inputImg self.latestConfig)) ∧
  bytes (inputImg.width.toNat * inputImg.height.toNat) inputImg.type ≤ self.frameSize ∧
  bytes (self.target.alignWidth * self.target.alignHeight) inputImg.type ≤ self.outFrameSize

end Node

/-! ### The node and its pipeline -/

/-- What happens to a node: the calibration of its pipeline is replaced, or it takes a frame,
perhaps with a new configuration. The frame to align to is taken only once. -/
inductive Event (K : Type) [Field K]
  | setEepromData (calibration : Except String (Calibration K))
  | frame (inputAlignToImg : ImgFrame K) (inConfig : Option ImageAlignConfig)
    (inputImg : ImgFrame K)

/-- A node with its pipeline, the frame that its maps were computed for, and the frame that its
buffers were allocated for. -/
structure Session (K : Type) [Field K] where
  node : Node K
  pipeline : Pipeline K
  origin : Option (ImgFrame K) := none
  first : Option (ImgFrame K) := none

namespace Session

/-- A node that has just been started. It takes its calibration first, and then the number of the
calibration. -/
def start (alignWidth alignHeight : ℤ) (initialConfig : ImageAlignConfig)
    (before pipeline : Pipeline K) : Session K where
  node :=
    { target := { alignWidth, alignHeight }
      calibHandler := before.getCalibration
      latestConfig := initialConfig
      currentEepromId := pipeline.eepromId }
  pipeline := pipeline

variable (cv : OpenCV K) (self : Session K)

/-- The session after an event; none if the node ends with an exception. -/
def next : Event K → Option (Session K)
  | .setEepromData calibration =>
    some { self with pipeline := self.pipeline.setEepromData calibration }
  | .frame inputAlignToImg inConfig inputImg =>
    match self.node.round cv self.pipeline inputAlignToImg inConfig inputImg with
    | .error _ => none
    | .ok (node, false) => some { self with node }
    | .ok (node, true) => some { self with
        node
        origin := if self.node.KeepsMaps self.pipeline then self.origin else some inputImg
        first := if self.node.allocated then self.first else some inputImg }

/-- **What is kept is up to date** whenever a frame is warped. -/
def Right : Event K → Prop
  | .setEepromData _ => True
  | .frame inputAlignToImg inConfig inputImg =>
    ∀ node, self.node.receive inputAlignToImg inConfig = .ok node → node.Accepts inputImg →
      node.prepare cv self.pipeline inputImg ≠ .error .undefined ∧
      ∀ warped, node.prepare cv self.pipeline inputImg = .ok warped →
        warped.Current cv self.pipeline inputImg

end Session

/-- Frames that have the same maps. -/
structure SameMaps (origin inputImg : ImgFrame K) : Prop where
  width : origin.width = inputImg.width
  height : origin.height = inputImg.height
  instanceNum : origin.instanceNum = inputImg.instanceNum
  intrinsics : origin.transformation.getIntrinsicMatrix = inputImg.transformation.getIntrinsicMatrix
  distortion : depthDistortionCoefficients origin = depthDistortionCoefficients inputImg

/-- A frame that needs no more bytes than the first, and whose aligned frame needs no more. -/
structure NoLarger (target : Target K) (first inputImg : ImgFrame K) : Prop where
  frameSize : bytes (inputImg.width.toNat * inputImg.height.toNat) inputImg.type ≤
    bytes (first.width.toNat * first.height.toNat) first.type
  outFrameSize : bytes (target.alignWidth * target.alignHeight) inputImg.type ≤
    bytes (target.alignWidth * target.alignHeight) first.type

/-- The shift and its change are of type `int`. -/
structure ShiftFits (shift previous : ℤ) : Prop where
  constant : Fits shift
  current : Fits (shift - previous)
  negative : Fits (-(shift - previous))

/-- What the session keeps fits a frame that is not skipped. -/
structure FrameFits (cv : OpenCV K) (session : Session K) (inputImg : ImgFrame K) : Prop where
  pixels : session.node.allocated = false → inputImg.width.toNat * inputImg.height.toNat < 2 ^ 31
  outPixels : session.node.allocated = false →
    0 ≤ session.node.target.alignWidth * session.node.target.alignHeight ∧
      session.node.target.alignWidth * session.node.target.alignHeight < 2 ^ 31
  noLarger : session.node.allocated = true →
    ∀ first ∈ session.first, NoLarger session.node.target first inputImg
  sameMaps : session.node.KeepsMaps session.pipeline →
    ∀ origin ∈ session.origin, SameMaps origin inputImg
  unshifted : ¬ session.node.KeepsMaps session.pipeline → session.node.previousShiftFactor = 0
  shift : ∀ fresh,
    rectify cv session.pipeline.getCalibration session.node.target inputImg = .ok fresh →
      ShiftFits (constantShiftFactor fresh.depthToAlignExtrinsics inputImg
        session.node.latestConfig) session.node.previousShiftFactor

/-- **Nothing changes that the node does not look at,** and the number of the calibration does not
wrap around. -/
def Session.Fits (cv : OpenCV K) (self : Session K) : Event K → Prop
  | .setEepromData _ => self.pipeline.eepromId.toNat + 1 < 2 ^ 32
  | .frame inputAlignToImg inConfig inputImg =>
    ∀ node, self.node.receive inputAlignToImg inConfig = .ok node → node.Accepts inputImg →
      FrameFits cv { self with node } inputImg

/-! ### Numbers -/

section Numbers

theorem int_of_fits {a : ℤ} (h : Int32s.Fits a) : int a = .ok a :=
  checked_eq_ok_iff.2 ⟨h, rfl⟩

theorem uint32_t_of_lt {a : ℤ} (h : 0 ≤ a) (hlt : a < 2 ^ 32) : uint32_t a = .ok a.toNat :=
  if_pos ⟨h, hlt⟩

theorem frameTypeToBpp_nonneg (type : ImgFrameType) : 0 ≤ frameTypeToBpp type := by
  cases type <;> norm_num [frameTypeToBpp]

theorem frameTypeToBpp_le_two (type : ImgFrameType) : frameTypeToBpp type ≤ 2 := by
  cases type <;> norm_num [frameTypeToBpp]

theorem bytes_mem {pixels : ℤ} (h : 0 ≤ pixels) (type : ImgFrameType) :
    0 ≤ bytes pixels type ∧ bytes pixels type ≤ pixels * 2 := by
  have hpixels : (0 : ℚ) ≤ pixels := by exact_mod_cast h
  refine ⟨Rounding.nearest_nonneg (mul_nonneg hpixels (frameTypeToBpp_nonneg type)), ?_⟩
  have hle := Rounding.nearest_mono (K := ℚ)
    (mul_le_mul_of_nonneg_left (frameTypeToBpp_le_two type) hpixels)
  refine hle.trans_eq ?_
  have hcast : (pixels : ℚ) * 2 = ((pixels * 2 : ℤ) : ℚ) := by push_cast; rfl
  rw [hcast, Rounding.nearest_intCast]

theorem uint32_t_bytes {pixels : ℤ} (h : 0 ≤ pixels) (hlt : pixels < 2 ^ 31) (type : ImgFrameType) :
    uint32_t (bytes pixels type) = .ok (bytes pixels type).toNat := by
  obtain ⟨hnonneg, hle⟩ := bytes_mem h type
  exact uint32_t_of_lt hnonneg (by omega)

theorem toInt_of_lt {n : UInt32} (h : n.toNat < 2 ^ 31) : toInt n = n.toNat :=
  bmod_of_lt (by omega)

/-- A frame with less than `2 ^ 31` pixels has a size of type `int`, unless it has no pixel. -/
theorem toInt_mul_toInt {width height : UInt32} (h : width.toNat * height.toNat < 2 ^ 31) :
    toInt width * toInt height = width.toNat * height.toNat := by
  rcases Nat.eq_zero_or_pos (width.toNat * height.toNat) with hzero | hpos
  · rcases Nat.mul_eq_zero.1 hzero with hw | hh
    · have htoInt := toInt_of_lt (n := width) (by omega)
      rw [hw, Nat.cast_zero] at htoInt
      rw [htoInt, hw, Nat.cast_zero, zero_mul, zero_mul]
    · have htoInt := toInt_of_lt (n := height) (by omega)
      rw [hh, Nat.cast_zero] at htoInt
      rw [htoInt, hh, Nat.cast_zero, mul_zero, mul_zero]
  · have hw := Nat.le_mul_of_pos_right width.toNat (Nat.pos_of_mul_pos_left hpos)
    have hh := Nat.le_mul_of_pos_left height.toNat (Nat.pos_of_mul_pos_right hpos)
    rw [toInt_of_lt (hw.trans_lt h), toInt_of_lt (hh.trans_lt h)]

end Numbers

/-! ### Maps -/

section Maps

variable {cv : OpenCV K} {calibHandler : Calibration K} {target : Target K}
  {origin inputImg : ImgFrame K}

omit [LinearOrder K] [FloorRing K] in
theorem shiftMesh_zero (meshX : Mat K) : shiftMesh meshX 0 = meshX := by
  rw [shiftMesh, Int.cast_zero]
  simp only [add_zero, List.map_id']

omit [LinearOrder K] [FloorRing K] in
theorem shiftMesh_shiftMesh (meshX : Mat K) (a b : ℤ) :
    shiftMesh (shiftMesh meshX a) b = shiftMesh meshX (a + b) := by
  rw [shiftMesh, shiftMesh, shiftMesh, List.map_map]
  refine List.map_congr_left fun row _ => ?_
  rw [Function.comp_apply, List.map_map]
  refine List.map_congr_left fun x _ => ?_
  rw [Function.comp_apply, Int.cast_add, add_assoc]

omit [LinearOrder K] [FloorRing K] in
/-- Frames that have the same maps have them for every calibration. -/
theorem SameMaps.rectify_eq (h : SameMaps origin inputImg) :
    rectify cv calibHandler target origin = rectify cv calibHandler target inputImg := by
  rw [rectify, rectify, h.width, h.height, h.instanceNum, h.intrinsics, h.distortion]

theorem thrown_eq_error {α : Type} {x : Except String α} {e : Fault} (h : thrown x = .error e) :
    ∃ what, e = .thrown what := by
  cases x with
  | ok a => cases h
  | error what =>
    cases h
    exact ⟨what, rfl⟩

theorem error_of_bind {α β : Type} {x : Except String α} {f : α → Except Fault β} {e : Fault}
    (hf : ∀ a, f a = .error e → ∃ what, e = .thrown what) (h : thrown x >>= f = .error e) :
    ∃ what, e = .thrown what := by
  rcases Loop.bind_eq_error.1 h with hx | ⟨a, -, ha⟩
  · exact thrown_eq_error hx
  · exact hf a ha

omit [LinearOrder K] [FloorRing K] in
theorem rectify_eq_error {e : Fault} (h : rectify cv calibHandler target inputImg = .error e) :
    ∃ what, e = .thrown what := by
  rw [rectify] at h
  exact error_of_bind (fun _ => error_of_bind fun _ => error_of_bind fun _ => error_of_bind fun _ =>
    error_of_bind fun _ => error_of_bind fun _ h => by cases h) h

end Maps

/-! ### What a node keeps -/

/-- The maps of the node are those for a frame, shifted as the node remembers. -/
def MapsFor (cv : OpenCV K) (node : Node K) (origin : ImgFrame K) : Prop :=
  ∃ fresh, rectify cv node.calibHandler node.target origin = .ok fresh ∧
    node.rectification =
      { fresh with map_x_1 := shiftMesh fresh.map_x_1 (-node.previousShiftFactor) }

/-- The buffers of the node have the sizes for a frame. -/
structure BuffersFor (node : Node K) (first : ImgFrame K) : Prop where
  frameSize : node.frameSize = bytes (first.width.toNat * first.height.toNat) first.type
  outFrameSize :
    node.outFrameSize = bytes (node.target.alignWidth * node.target.alignHeight) first.type

/-- **What a session keeps.** -/
structure Kept (cv : OpenCV K) (session : Session K) : Prop where
  eepromId : session.node.currentEepromId.toNat ≤ session.pipeline.eepromId.toNat
  calibHandler : session.node.currentEepromId = session.pipeline.eepromId →
    session.node.calibHandler = session.pipeline.getCalibration
  unset : session.node.calibrationSet = false → session.node.previousShiftFactor = 0
  maps : session.node.calibrationSet = true → session.node.initialized = true ∧
    ∃ origin ∈ session.origin, MapsFor cv session.node origin
  buffers : session.node.allocated = true → session.node.initialized = true ∧
    ∃ first ∈ session.first, BuffersFor session.node first

/-- **A node that is about to warp a frame.** -/
structure Prepared (cv : OpenCV K) (session : Session K) (inputImg : ImgFrame K)
    (warped : Node K) : Prop where
  target : warped.target = session.node.target
  latestConfig : warped.latestConfig = session.node.latestConfig
  initialized : warped.initialized = session.node.initialized
  currentEepromId : warped.currentEepromId = session.pipeline.eepromId
  calibHandler : warped.calibHandler = session.pipeline.getCalibration
  calibrationSet : warped.calibrationSet = true
  maps : ∃ fresh, rectify cv warped.calibHandler warped.target inputImg = .ok fresh ∧
    warped.rectification =
      { fresh with map_x_1 := shiftMesh fresh.map_x_1 (-warped.previousShiftFactor) } ∧
    warped.previousShiftFactor =
      constantShiftFactor fresh.depthToAlignExtrinsics inputImg warped.latestConfig
  first : ∃ first ∈ if session.node.allocated then session.first else some inputImg,
    BuffersFor warped first ∧ NoLarger warped.target first inputImg

section Rounds

variable {cv : OpenCV K} {session : Session K} {node warped : Node K} {pipeline : Pipeline K}
  {inputImg first : ImgFrame K}

/-- The messages change the configuration and what frames are aligned to, the latter only once. -/
theorem receive_eq {inputAlignToImg : ImgFrame K} {inConfig : Option ImageAlignConfig}
    {received : Node K} (h : node.receive inputAlignToImg inConfig = .ok received) :
    ∃ target, received =
        { node with target, latestConfig := inConfig.getD node.latestConfig, initialized := true } ∧
      (node.initialized = true → target = node.target) := by
  obtain ⟨inited, hinit, h⟩ := Loop.bind_eq_ok.1 h
  cases h
  rw [Node.initializeTarget] at hinit
  have hinited : ∃ target, inited = { node with target, initialized := true } ∧
      (node.initialized = true → target = node.target) := by
    split_ifs at hinit with hnode
    · cases hinit
      exact ⟨node.target, by rw [← hnode], fun _ => rfl⟩
    · obtain ⟨M, -, hinit⟩ := Loop.bind_eq_ok.1 hinit
      cases hinit
      exact ⟨_, rfl, fun htrue => absurd htrue hnode⟩
  obtain ⟨target, rfl, htarget⟩ := hinited
  cases inConfig with
  | none => exact ⟨target, rfl, htarget⟩
  | some inConfig => exact ⟨target, rfl, htarget⟩

theorem Kept.receive (h : Kept cv session) {inputAlignToImg : ImgFrame K}
    {inConfig : Option ImageAlignConfig}
    (hreceive : session.node.receive inputAlignToImg inConfig = .ok node) :
    Kept cv { session with node } := by
  obtain ⟨target, rfl, htarget⟩ := receive_eq hreceive
  refine ⟨h.eepromId, h.calibHandler, h.unset, fun hset => ⟨rfl, ?_⟩, fun hallocated => ⟨rfl, ?_⟩⟩
  · obtain ⟨hinitialized, hmaps⟩ := h.maps hset
    obtain rfl := htarget hinitialized
    exact hmaps
  · obtain ⟨hinitialized, first, hfirst, hbuffers⟩ := h.buffers hallocated
    obtain rfl := htarget hinitialized
    exact ⟨first, hfirst, hbuffers.frameSize, hbuffers.outFrameSize⟩

omit [LinearOrder K] [FloorRing K] in
theorem NoLarger.refl (target : Target K) (inputImg : ImgFrame K) :
    NoLarger target inputImg inputImg :=
  ⟨le_rfl, le_rfl⟩

/-- The buffers are allocated for the first frame, and later frames need no larger ones. -/
theorem allocatePools_eq (h : Kept cv session) (hfits : FrameFits cv session inputImg) :
    ∃ frameSize outFrameSize,
      session.node.allocatePools inputImg =
        .ok { session.node with frameSize, outFrameSize, allocated := true } ∧
      ∃ first ∈ if session.node.allocated then session.first else some inputImg,
        BuffersFor { session.node with frameSize, outFrameSize } first ∧
          NoLarger session.node.target first inputImg := by
  rw [Node.allocatePools]
  split_ifs with hallocated
  · obtain ⟨-, first, hfirst, hbuffers⟩ := h.buffers hallocated
    exact ⟨session.node.frameSize, session.node.outFrameSize, by rw [← hallocated], first, hfirst,
      hbuffers, hfits.noLarger hallocated first hfirst⟩
  · rw [Bool.not_eq_true] at hallocated
    have hpixels := hfits.pixels hallocated
    obtain ⟨hnonneg, hlt⟩ := hfits.outPixels hallocated
    have hpixelsInt : ((inputImg.width.toNat * inputImg.height.toNat : ℕ) : ℤ) < 2 ^ 31 := by
      exact_mod_cast hpixels
    have hproduct := toInt_mul_toInt hpixels
    rw [← Nat.cast_mul] at hproduct
    rw [hproduct, int_of_fits (fits_of_natAbs_le (Int.natAbs_natCast _).le hpixels), Loop.ok_bind,
      uint32_t_bytes (Int.natCast_nonneg _) hpixelsInt, Loop.ok_bind,
      int_of_fits ⟨(by norm_num : (-2 ^ 31 : ℤ) ≤ 0).trans hnonneg, hlt⟩, Loop.ok_bind,
      uint32_t_bytes hnonneg hlt]
    refine ⟨_, _, rfl, inputImg, rfl, ⟨?_, ?_⟩, .refl _ inputImg⟩
    · rw [← Nat.cast_mul]
      exact Int.toNat_of_nonneg (bytes_mem (Int.natCast_nonneg _) _).1
    · exact Int.toNat_of_nonneg (bytes_mem hnonneg _).1

omit [LinearOrder K] [FloorRing K] in
/-- **The number of the calibration tells whether it is current.** -/
theorem checkEeprom_outcome (node : Node K)
    (hle : node.currentEepromId.toNat ≤ pipeline.eepromId.toNat)
    (hcurrent : node.currentEepromId = pipeline.eepromId →
      node.calibHandler = pipeline.getCalibration) :
    (∃ what, node.checkEeprom pipeline = .error (.thrown what)) ∨
      node.checkEeprom pipeline = .ok { node with
        calibHandler := pipeline.getCalibration
        currentEepromId := pipeline.eepromId
        calibrationSet := decide (node.KeepsMaps pipeline) } := by
  rw [Node.checkEeprom]
  split_ifs with hnewer
  · rcases hcalibration : pipeline.calibration with what | calibration
    · exact .inl ⟨what, rfl⟩
    · have hkeeps : ¬ node.KeepsMaps pipeline := fun hkeeps => hkeeps.2 hnewer
      rw [decide_eq_false hkeeps, Pipeline.getCalibration, hcalibration]
      exact .inr rfl
  · have hid : node.currentEepromId = pipeline.eepromId :=
      UInt32.toNat_inj.1 (le_antisymm hle (not_lt.1 hnewer))
    have hkeeps : decide (node.KeepsMaps pipeline) = node.calibrationSet := by
      rw [Bool.eq_iff_iff, decide_eq_true_iff, Node.KeepsMaps, and_iff_left hnewer]
    rw [hkeeps, ← hcurrent hid, ← hid]
    exact .inr rfl

omit [LinearOrder K] [FloorRing K] in
/-- The maps are those for the frame, shifted as before, whether they are computed anew or not. -/
theorem extractCalibrationData_outcome
    (hsame : node.calibrationSet = true →
      ∃ origin, SameMaps origin inputImg ∧ MapsFor cv node origin)
    (hunshifted : node.calibrationSet = false → node.previousShiftFactor = 0) :
    (∃ what, node.extractCalibrationData cv inputImg = .error (.thrown what)) ∨
      ∃ rectification, node.extractCalibrationData cv inputImg =
          .ok { node with rectification, calibrationSet := true } ∧
        MapsFor cv { node with rectification } inputImg := by
  rw [Node.extractCalibrationData]
  split_ifs with hset
  · obtain ⟨origin, hmaps, fresh, hfresh, hrectification⟩ := hsame hset
    rw [hmaps.rectify_eq] at hfresh
    exact .inr ⟨node.rectification, by rw [← hset], fresh, hfresh, hrectification⟩
  · rw [Bool.not_eq_true] at hset
    rcases hfresh : rectify cv node.calibHandler node.target inputImg with e | fresh
    · obtain ⟨what, rfl⟩ := rectify_eq_error hfresh
      exact .inl ⟨what, rfl⟩
    · refine .inr ⟨fresh, rfl, fresh, hfresh, ?_⟩
      rw [hunshifted hset, neg_zero, shiftMesh_zero]

/-- **The shift of a map** is what it was, changed by the difference. -/
theorem shift_eq (node : Node K) {fresh : Rectification K}
    (hfits : ShiftFits (constantShiftFactor fresh.depthToAlignExtrinsics inputImg node.latestConfig)
      node.previousShiftFactor)
    (hrectification : node.rectification =
      { fresh with map_x_1 := shiftMesh fresh.map_x_1 (-node.previousShiftFactor) }) :
    node.shift inputImg = .ok { node with
      rectification := { fresh with
        map_x_1 := shiftMesh fresh.map_x_1
          (-constantShiftFactor fresh.depthToAlignExtrinsics inputImg node.latestConfig) }
      previousShiftFactor :=
        constantShiftFactor fresh.depthToAlignExtrinsics inputImg node.latestConfig } := by
  rw [Node.shift, hrectification]
  dsimp only
  rw [int_of_fits hfits.constant, Loop.ok_bind, int_of_fits hfits.current, Loop.ok_bind]
  split_ifs with hcurrent
  · rw [int_of_fits hfits.negative, Loop.ok_bind, shiftMesh_shiftMesh]
    have hsum : ∀ a b : ℤ, -b + -(a - b) = -a := fun a b => by ring
    rw [hsum]
    rfl
  · rw [not_not, sub_eq_zero] at hcurrent
    rw [hcurrent, ← hrectification]
    rfl

/-- The maps and their shift, once the buffers are allocated and the calibration is current. -/
theorem rectified_outcome (node : Node K)
    (hsame : node.calibrationSet = true →
      ∃ origin, SameMaps origin inputImg ∧ MapsFor cv node origin)
    (hunshifted : node.calibrationSet = false → node.previousShiftFactor = 0)
    (hshift : ∀ fresh, rectify cv node.calibHandler node.target inputImg = .ok fresh →
      ShiftFits (constantShiftFactor fresh.depthToAlignExtrinsics inputImg node.latestConfig)
        node.previousShiftFactor) :
    (∃ what, (node.extractCalibrationData cv inputImg >>= fun node => node.shift inputImg) =
        .error (.thrown what)) ∨
      ∃ fresh, rectify cv node.calibHandler node.target inputImg = .ok fresh ∧
        (node.extractCalibrationData cv inputImg >>= fun node => node.shift inputImg) =
          .ok { node with
            calibrationSet := true
            rectification := { fresh with
              map_x_1 := shiftMesh fresh.map_x_1
                (-constantShiftFactor fresh.depthToAlignExtrinsics inputImg node.latestConfig) }
            previousShiftFactor :=
              constantShiftFactor fresh.depthToAlignExtrinsics inputImg node.latestConfig } := by
  rcases extractCalibrationData_outcome hsame hunshifted with
    ⟨what, hextract⟩ | ⟨rectification, hextract, fresh, hfresh, hrectification⟩
  · rw [hextract]
    exact .inl ⟨what, rfl⟩
  · rw [hextract, Loop.ok_bind]
    exact .inr ⟨fresh, hfresh, shift_eq { node with rectification, calibrationSet := true }
      (hshift fresh hfresh) hrectification⟩

/-- **A round prepares a frame** or ends with an exception. -/
theorem prepare_outcome (h : Kept cv session) (hfits : FrameFits cv session inputImg) :
    (∃ what, session.node.prepare cv session.pipeline inputImg = .error (.thrown what)) ∨
      ∃ warped, session.node.prepare cv session.pipeline inputImg = .ok warped ∧
        Prepared cv session inputImg warped := by
  obtain ⟨frameSize, outFrameSize, hallocate, first, hfirst, hbuffers, hlarger⟩ :=
    allocatePools_eq h hfits
  rw [Node.prepare, hallocate, Loop.ok_bind]
  rcases checkEeprom_outcome { session.node with frameSize, outFrameSize, allocated := true }
      h.eepromId h.calibHandler with
    ⟨what, hcheck⟩ | hcheck
  · rw [hcheck]
    exact .inl ⟨what, rfl⟩
  rw [hcheck, Loop.ok_bind]
  have hsame : session.node.KeepsMaps session.pipeline → ∃ origin, SameMaps origin inputImg ∧
      MapsFor cv { session.node with calibHandler := session.pipeline.getCalibration } origin := by
    intro hkeeps
    obtain ⟨-, origin, horigin, fresh, hfresh, hrectification⟩ := h.maps hkeeps.1
    have hid : session.node.currentEepromId = session.pipeline.eepromId :=
      UInt32.toNat_inj.1 (le_antisymm h.eepromId (not_lt.1 hkeeps.2))
    rw [h.calibHandler hid] at hfresh
    exact ⟨origin, hfits.sameMaps hkeeps origin horigin, fresh, hfresh, hrectification⟩
  rcases rectified_outcome { session.node with
        frameSize, outFrameSize, allocated := true
        calibHandler := session.pipeline.getCalibration
        currentEepromId := session.pipeline.eepromId
        calibrationSet := decide (session.node.KeepsMaps session.pipeline) }
      (fun hset => hsame (of_decide_eq_true hset))
      (fun hset => hfits.unshifted (of_decide_eq_false hset)) hfits.shift with
    ⟨what, hrectified⟩ | ⟨fresh, hfresh, hrectified⟩
  · exact .inl ⟨what, hrectified⟩
  · exact .inr ⟨_, hrectified, rfl, rfl, rfl, rfl, rfl, rfl, ⟨fresh, hfresh, rfl, rfl⟩, first,
      hfirst, ⟨hbuffers.frameSize, hbuffers.outFrameSize⟩, hlarger⟩

/-- **A prepared node is up to date.** -/
theorem Prepared.current (h : Prepared cv session inputImg warped) :
    warped.Current cv session.pipeline inputImg := by
  obtain ⟨fresh, hfresh, hrectification, hshift⟩ := h.maps
  obtain ⟨first, -, hbuffers, hlarger⟩ := h.first
  rw [h.calibHandler] at hfresh
  refine ⟨⟨fresh, hfresh, ?_⟩, ?_, ?_⟩
  · rw [hrectification, hshift]
  · rw [hbuffers.frameSize]
    exact hlarger.frameSize
  · rw [hbuffers.outFrameSize]
    exact hlarger.outFrameSize

theorem Prepared.kept (h : Prepared cv session inputImg warped) (hkept : Kept cv session)
    (hinitialized : session.node.initialized = true)
    (hfits : FrameFits cv session inputImg) : Kept cv { session with
      node := warped
      origin := if session.node.KeepsMaps session.pipeline then session.origin else some inputImg
      first := if session.node.allocated then session.first else some inputImg } := by
  obtain ⟨fresh, hfresh, hrectification, -⟩ := h.maps
  obtain ⟨first, hfirst, hbuffers, -⟩ := h.first
  refine ⟨?_, fun _ => h.calibHandler, fun hunset => ?_, fun _ => ⟨?_, ?_⟩, fun _ =>
    ⟨?_, first, hfirst, hbuffers⟩⟩
  · exact (congrArg UInt32.toNat h.currentEepromId).le
  · rw [h.calibrationSet] at hunset
    cases hunset
  · exact h.initialized.trans hinitialized
  · dsimp only
    split_ifs with hkeeps
    · obtain ⟨-, origin, horigin, -⟩ := hkept.maps hkeeps.1
      refine ⟨origin, horigin, fresh, ?_, hrectification⟩
      rw [(hfits.sameMaps hkeeps origin horigin).rectify_eq]
      exact hfresh
    · exact ⟨inputImg, rfl, fresh, hfresh, hrectification⟩
  · exact h.initialized.trans hinitialized

theorem next_frame {inputAlignToImg : ImgFrame K} {inConfig : Option ImageAlignConfig}
    {session' : Session K}
    (h : session.next cv (.frame inputAlignToImg inConfig inputImg) = some session') :
    ∃ received, session.node.receive inputAlignToImg inConfig = .ok received ∧
      (¬ received.Accepts inputImg ∧ session' = { session with node := received } ∨
        received.Accepts inputImg ∧
        ∃ warped, received.prepare cv session.pipeline inputImg = .ok warped ∧
          session' = { session with
            node := warped
            origin :=
              if received.KeepsMaps session.pipeline then session.origin else some inputImg
            first := if received.allocated then session.first else some inputImg }) := by
  rw [Session.next] at h
  rcases hround : session.node.round cv session.pipeline inputAlignToImg inConfig inputImg with
    e | ⟨node, _ | _⟩
  · rw [hround] at h
    cases h
  · rw [hround] at h
    cases h
    obtain ⟨received, hreceive, hround⟩ := Loop.bind_eq_ok.1 hround
    split_ifs at hround with haccepts
    · obtain ⟨warped, -, hround⟩ := Loop.bind_eq_ok.1 hround
      cases hround
    · cases hround
      exact ⟨_, hreceive, .inl ⟨haccepts, rfl⟩⟩
  · rw [hround] at h
    cases h
    obtain ⟨received, hreceive, hround⟩ := Loop.bind_eq_ok.1 hround
    split_ifs at hround with haccepts
    · obtain ⟨warped, hprepare, hround⟩ := Loop.bind_eq_ok.1 hround
      cases hround
      refine ⟨_, hreceive, .inr ⟨haccepts, _, hprepare, ?_⟩⟩
      -- The messages do not change what the two frames depend on.
      obtain ⟨target, rfl, -⟩ := receive_eq hreceive
      rfl
    · cases hround

/-- The frames that maps and buffers depend on are those from before, or the new one. -/
theorem next_frame_origins {inputAlignToImg : ImgFrame K} {inConfig : Option ImageAlignConfig}
    {session' : Session K}
    (h : session.next cv (.frame inputAlignToImg inConfig inputImg) = some session') :
    (session'.origin = session.origin ∨ session'.origin = some inputImg) ∧
      (session'.first = session.first ∨ session'.first = some inputImg) := by
  obtain ⟨received, -, ⟨-, rfl⟩ | ⟨-, warped, -, rfl⟩⟩ := next_frame h
  · exact ⟨.inl rfl, .inl rfl⟩
  · exact ⟨ite_eq_or_eq .., ite_eq_or_eq ..⟩

/-- **An event that fits keeps what a session keeps.** -/
theorem Kept.next {event : Event K} {session' : Session K} (h : Kept cv session)
    (hfits : session.Fits cv event) (hnext : session.next cv event = some session') :
    Kept cv session' := by
  cases event with
  | setEepromData calibration =>
    cases hnext
    have hnumber : (session.pipeline.eepromId + 1).toNat = session.pipeline.eepromId.toNat + 1 := by
      rw [UInt32.toNat_add, UInt32.toNat_one, Nat.mod_eq_of_lt hfits]
    have hle := h.eepromId
    refine ⟨?_, fun hid => ?_, h.unset, h.maps, h.buffers⟩
    · change session.node.currentEepromId.toNat ≤ (session.pipeline.eepromId + 1).toNat
      omega
    · change session.node.currentEepromId = session.pipeline.eepromId + 1 at hid
      rw [hid] at hle
      omega
  | frame inputAlignToImg inConfig inputImg =>
    obtain ⟨received, hreceive, ⟨-, rfl⟩ | ⟨haccepts, warped, hwarped, rfl⟩⟩ := next_frame hnext
    · exact h.receive hreceive
    · have hkept := h.receive hreceive
      have hframe := hfits received hreceive haccepts
      have hinitialized : received.initialized = true := by
        obtain ⟨target, rfl, -⟩ := receive_eq hreceive
        rfl
      rcases prepare_outcome hkept hframe with ⟨what, hthrown⟩ | ⟨prepared, hprepared, hall⟩
      · cases hwarped.symm.trans hthrown
      · cases hwarped.symm.trans hprepared
        exact hall.kept hkept hinitialized hframe

/-- **A session that keeps what it should is right.** -/
theorem Kept.right {event : Event K} (h : Kept cv session) (hfits : session.Fits cv event) :
    session.Right cv event := by
  cases event with
  | setEepromData calibration => trivial
  | frame inputAlignToImg inConfig inputImg =>
    intro node hreceive haccepts
    have hkept := h.receive hreceive
    rcases prepare_outcome hkept (hfits node hreceive haccepts) with
      ⟨what, hthrown⟩ | ⟨prepared, hprepared, hall⟩
    · have hthrown' : node.prepare cv session.pipeline inputImg = .error (.thrown what) := hthrown
      refine ⟨fun hundefined => ?_, fun warped hwarped => ?_⟩
      · cases hthrown'.symm.trans hundefined
      · cases hthrown'.symm.trans hwarped
    · have hprepared' : node.prepare cv session.pipeline inputImg = .ok prepared := hprepared
      refine ⟨fun hundefined => ?_, fun warped hwarped => ?_⟩
      · cases hprepared'.symm.trans hundefined
      · cases hprepared'.symm.trans hwarped
        exact hall.current

omit [LinearOrder K] [FloorRing K] in
/-- A node that has just been started has nothing to keep but its calibration. -/
theorem kept_start {alignWidth alignHeight : ℤ} {initialConfig : ImageAlignConfig}
    {before pipeline : Pipeline K} (hsame : before.getCalibration = pipeline.getCalibration) :
    Kept cv (.start alignWidth alignHeight initialConfig before pipeline) :=
  ⟨le_rfl, fun _ => hsame, fun _ => rfl, nofun, nofun⟩

end Rounds

/-! ### Two cameras side by side -/

/-- OpenCV for cameras that look in the same direction and lenses without distortion. -/
def parallel : OpenCV ℚ where
  stereoRectify _ _ _ _ _ _ _ := .ok (1, 1)
  initUndistortRectifyMap M _ _ newM size :=
    let row (f : ℚ → ℚ → ℚ) : Mat ℚ := (List.range size.2.toNat).map fun v : ℕ =>
      (List.range size.1.toNat).map fun u : ℕ => f u v
    .ok (row fun u _ => M 0 0 * ((u - newM 0 2) / newM 0 0) + M 0 2,
      row fun _ v => M 1 1 * ((v - newM 1 2) / newM 1 1) + M 1 2)

/-- Cameras that are one centimetre apart. -/
def sideBySide : Calibration ℚ where
  getDistortionCoefficients _ := .ok (List.replicate 14 0)
  getCameraRotationMatrix _ _ := .ok 1
  getCameraTranslationVector _ _ _ := .ok ![1, 0, 0]

/-- A frame of one pixel from this camera. -/
def pixelFrom (socket : UInt32) : ImgFrame ℚ where
  type := .GRAY8
  width := 1
  height := 1
  stride := 1
  instanceNum := socket
  transformation := .ofSizes 1 1 1 1
  data := [0]

/-- A node with this plane. -/
def started (staticDepthPlane : UInt16) : Session ℚ :=
  .start 0 0 { staticDepthPlane } { calibration := .ok sideBySide }
    { calibration := .ok sideBySide }

/-- A frame for the node. -/
def pixelEvent : Event ℚ :=
  .frame (pixelFrom 1) none (pixelFrom 0)

/-- A frame of one pixel after frames like it, without a plane. -/
theorem fits_pixel {session : Session ℚ}
    (hsize : ∀ node, session.node.receive (pixelFrom 1) none = .ok node →
      node.target.alignWidth = 1 ∧ node.target.alignHeight = 1)
    (hplane : session.node.latestConfig.staticDepthPlane = 0)
    (hshift : session.node.previousShiftFactor = 0)
    (horigin : ∀ origin ∈ session.origin, origin = pixelFrom 0)
    (hfirst : ∀ first ∈ session.first, first = pixelFrom 0) :
    session.Fits parallel pixelEvent := by
  intro node hreceive _
  obtain ⟨hwidth, hheight⟩ := hsize node hreceive
  obtain ⟨target, rfl, -⟩ := receive_eq hreceive
  refine ⟨fun _ => by decide, fun _ => ?_, fun _ first hmem => ?_, fun _ origin hmem => ?_,
    fun _ => hshift, fun fresh _ => ?_⟩
  · rw [hwidth, hheight]
    decide
  · rw [hfirst first hmem]
    exact .refl _ _
  · rw [horigin origin hmem]
    exact ⟨rfl, rfl, rfl, rfl, rfl⟩
  · have hzero : constantShiftFactor fresh.depthToAlignExtrinsics (pixelFrom 0)
        session.node.latestConfig = 0 := if_pos hplane
    change ShiftFits (constantShiftFactor fresh.depthToAlignExtrinsics (pixelFrom 0)
      session.node.latestConfig) session.node.previousShiftFactor
    rw [hzero, hshift]
    exact ⟨by decide, by decide, by decide⟩

/-- The size that a node without a size of its own aligns to. -/
theorem received_pixel : ((started 0).node.receive (pixelFrom 1) none).toOption.map (fun node =>
    (node.target.alignWidth, node.target.alignHeight)) = some (1, 1) := by
  decide +kernel

theorem aligned_pixel : ((started 0).next parallel pixelEvent).map (fun session =>
    (session.node.initialized, session.node.target.alignWidth, session.node.target.alignHeight,
      session.node.latestConfig.staticDepthPlane, session.node.previousShiftFactor)) =
        some (true, 1, 1, 0, 0) := by
  decide +kernel

theorem fits_started : (started 0).Fits parallel pixelEvent := by
  refine fits_pixel (fun node hreceive => ?_) rfl rfl (fun _ hmem => by cases hmem)
    fun _ hmem => by cases hmem
  have hsize := received_pixel
  rw [hreceive] at hsize
  exact Prod.mk.inj (Option.some.inj hsize)

/-- The node after a frame and a new calibration that is the same. -/
def afterUpdate : Option (Session ℚ) :=
  ((started 10).next parallel pixelEvent).bind fun session =>
    session.next parallel (.setEepromData (.ok sideBySide))

/-- Whether the next frame is warped, the map that it is warped with, and the map and the shift that
are computed for it. -/
def mapsAfterUpdate : Option (Bool × Mat ℚ × Mat ℚ × ℤ) := do
  let session ← afterUpdate
  let node ← (session.node.receive (pixelFrom 1) none).toOption
  let warped ← (node.prepare parallel session.pipeline (pixelFrom 0)).toOption
  let fresh ← (rectify parallel session.pipeline.getCalibration warped.target
    (pixelFrom 0)).toOption
  return (decide (node.Accepts (pixelFrom 0)), warped.rectification.map_x_1, fresh.map_x_1,
    constantShiftFactor fresh.depthToAlignExtrinsics (pixelFrom 0) warped.latestConfig)

theorem mapsAfterUpdate_eq : mapsAfterUpdate = some (true, [[0]], [[0]], 1) := by
  decide +kernel

end ImageAlign

end DepthaiCore
