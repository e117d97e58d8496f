import DepthaiCore.Common.Camera
import DepthaiCore.Device.CalibrationHandler
import DepthaiCore.Lib.Runs
import DepthaiCore.Node.PointCloudThreads

/-!
# Runs of the node `PointCloud`

The node takes depth frames, with or without a frame of colours. It keeps what it computed from a
frame, a configuration and a calibration, and computes it again when there is a new configuration,
when the calibration has a larger number, or when the transformation of the frame does not compare
equal to the one before. It is then as if the node had just been started, unless the frame declares
another size or has another spec translation, which the comparison leaves out.

Floats are an ordered field.
-/

open scoped Numerals

namespace DepthaiCore

namespace PointCloud

open DepthPoints MatrixOps

/-! ### Configurations and calibrations -/

inductive CoordinateSystemType
  | DEFAULT | CAMERA_SOCKET | HOUSING
  deriving DecidableEq, Repr

structure PointCloudConfig (K : Type) [Field K] where
  organized : Bool := false
  transformationMatrix : Matrix4 K := 1
  lengthUnit : LengthUnit := .MILLIMETER
  coordSystemType : CoordinateSystemType := .DEFAULT
  targetCameraSocket : CameraBoardSocket := .AUTO
  targetHousingCS : HousingCoordinateSystem := .AUTO
  useSpecTranslation : Bool := true

/-- What the node asks a `CalibrationHandler`. -/
structure Calibration (K : Type) where
  getCameraExtrinsics : CameraBoardSocket → CameraBoardSocket → Bool → LengthUnit →
    Except PointFault (List (List K))
  getHousingCalibration : CameraBoardSocket → HousingCoordinateSystem → Bool → LengthUnit →
    Except PointFault (List (List K))

/-- What the node asks its pipeline. -/
structure Pipeline (K : Type) where
  /-- The calibration, or the exception of `getCalibrationData`. -/
  calibration : Except PointFault (Calibration K)
  eepromId : UInt32 := 0

def Pipeline.setEepromData {K : Type} (self : Pipeline K)
    (calibration : Except PointFault (Calibration K)) : Pipeline K :=
  { calibration, eepromId := self.eepromId + 1 }

variable {K : Type} [Field K] [LinearOrder K]

/-- An exception of the functions on matrices. -/
def lift {α : Type} : Except Failure α → Except PointFault α
  | .ok a => .ok a
  | .error (.runtimeError what) => .error (.thrown what)
  | .error (.invalidArgument what) => .error (.thrown what)
  | .error .divisionByZero => .error .undefined

def isIdentity4x4 (m : List (List K)) : Bool :=
  (List.range 4).all fun i => (List.range 4).all fun j =>
    decide (|entry m i j - if i = j then 1 else 0| ≤ MATRIX_EQ_EPSILON)

omit [LinearOrder K] in
/-- The constructor of `Extrinsics` from a matrix. -/
def extrinsicsOf [DecidableEq K] (matrix : List (List K)) (toCameraSocket : CameraBoardSocket)
    (lengthUnit : LengthUnit) : Except PointFault (Extrinsics K) :=
  if matrix.length ≠ 4 ∨ ∃ row ∈ matrix, row.length ≠ 4 then
    .error (.thrown "Extrinsics transformation matrix must be 4x4.")
  else if matrix.getD 3 [] ≠ [0, 0, 0, 1] then
    .error (.thrown "Extrinsics transformation matrix must have last row [0 0 0 1].")
  else
    let m := entry matrix
    .ok
      { rotationMatrix := [[m 0 0, m 0 1, m 0 2], [m 1 0, m 1 1, m 1 2], [m 2 0, m 2 1, m 2 2]]
        translation := ⟨m 0 3, m 1 3, m 2 3⟩
        specTranslation := ⟨0, 0, 0⟩
        toCameraSocket
        lengthUnit }

/-! ### What the node keeps -/

def Impl.setIntrinsicsFromFrame (self : Impl K) (frame : ImgFrame K) : Except PointFault (Impl K) :=
  let intrinsics := frame.transformation.getIntrinsicMatrix
  self.setIntrinsics (intrinsics 0 0) (intrinsics 1 1) (intrinsics 0 2) (intrinsics 1 2) frame.width
    frame.height

/-- `setCoordinateTransformation`: the transformation of the points, and `targetExtrinsics_`. -/
def Impl.setCoordinateTransformation (self : Impl K)
    (calibration : Except PointFault (Calibration K)) (depthFrame : ImgFrame K)
    (config : PointCloudConfig K) :
    Except PointFault (Impl K × Option (Extrinsics K)) := do
  let unit := self.targetLengthUnit
  let frameExtrinsics := depthFrame.transformation.extrinsics
  let refCamera := frameExtrinsics.toCameraSocket
  if refCamera = .AUTO then
    throw (.thrown ("PointCloud: depth frame extrinsics toCameraSocket is AUTO. " ++
      "Ensure the depth frame has valid extrinsics with a specific camera socket set."))
  let frameToRef ← lift (frameExtrinsics.getTransformationMatrix config.useSpecTranslation unit)
  let T_frame_to_ref := rows frameToRef
  let calibHandler ← calibration
  match config.coordSystemType with
  | .CAMERA_SOCKET =>
    let T_ref_to_target ← calibHandler.getCameraExtrinsics refCamera config.targetCameraSocket
      config.useSpecTranslation unit
    let T_final ← lift (matMulRows T_ref_to_target T_frame_to_ref)
    let targetExtrinsics ← extrinsicsOf T_ref_to_target config.targetCameraSocket unit
    return (← self.setExtrinsics T_final, some targetExtrinsics)
  | .HOUSING =>
    let T_ref_to_housing ← calibHandler.getHousingCalibration refCamera config.targetHousingCS true
      unit
    let T_final ← lift (matMulRows T_ref_to_housing T_frame_to_ref)
    let targetExtrinsics ← extrinsicsOf T_ref_to_housing .AUTO unit
    return (← self.setExtrinsics T_final, some targetExtrinsics)
  | .DEFAULT =>
    let configMat := rows config.transformationMatrix
    if ¬isIdentity4x4 configMat then
      let T_final ← lift (matMulRows configMat T_frame_to_ref)
      let targetExtrinsics ← extrinsicsOf configMat refCamera unit
      return (← self.setExtrinsics T_final, some targetExtrinsics)
    else if ¬isIdentity4x4 T_frame_to_ref then
      return (← self.setExtrinsics T_frame_to_ref, none)
    else
      return (self.clearExtrinsics, none)

/-- What `initialize` computes. -/
def Impl.initializeImpl (self : Impl K) (calibration : Except PointFault (Calibration K))
    (depthFrame : ImgFrame K) (config : PointCloudConfig K) :
    Except PointFault (Impl K × Option (Extrinsics K)) := do
  let self := self.setLengthUnit config.lengthUnit
  let self ← self.setIntrinsicsFromFrame depthFrame
  self.setCoordinateTransformation calibration depthFrame config

/-! ### Clouds -/

/-- The points of a cloud, without or with colours. -/
inductive Points (K : Type)
  | plain (points : List (Point3f K))
  | colored (points : List (Point3fRGBA K))
  deriving DecidableEq

/-- What the node sends. -/
structure PointCloudData (K : Type) [Field K] where
  width : UInt32
  height : UInt32
  points : Points K
  transformation : ImgTransformation K

/-- The orders in which threads write points, without and with colours. -/
structure Schedules (K : Type) where
  dense : Schedule (ℕ × Point3f K)
  denseColored : Schedule (ℕ × Point3fRGBA K)

/-- The frames of a `MessageGroup`; the colours are missing without color mode. -/
structure MessageGroup (K : Type) [Field K] where
  depth : ImgFrame K
  color : Option (ImgFrame K) := none

/-- The coordinates of a point that `transformPointsCPU` reads and writes. -/
def transformPoint (extrinsics : List (List K)) (p : Point3f K) : Point3f K :=
  if 0 < p.z then
    let e := entry extrinsics
    { x := e 0 0 * p.x + e 0 1 * p.y + e 0 2 * p.z + e 0 3
      y := e 1 0 * p.x + e 1 1 * p.y + e 1 2 * p.z + e 1 3
      z := e 2 0 * p.x + e 2 1 * p.y + e 2 2 * p.z + e 2 3 }
  else p

/-- A point with colours at the coordinates that `transformPoint` leaves. -/
def transformColored (extrinsics : List (List K)) (p : Point3fRGBA K) : Point3fRGBA K :=
  let q := transformPoint extrinsics { x := p.x, y := p.y, z := p.z }
  { p with x := q.x, y := q.y, z := q.z }

namespace Impl

omit [Field K] [LinearOrder K] in
/-- `applyTransformation`, with what `transformPointsCPU` makes of a point. -/
def applyTransformation {P : Type} (transform : List (List K) → P → P) (self : Impl K)
    (points : List P) : List P :=
  match self.extrinsics with
  | none => points
  | some extrinsics => points.map (transform extrinsics)

/-- `filterValidPoints`, with the coordinate `z` of a point. -/
def filterValidPoints {P : Type} (z : P → K) (densePoints : List P) : List P :=
  densePoints.filter fun p => decide (0 < z p)

/-- The size and the points of a cloud: all of them, or those that are valid. -/
def arrange {P : Type} (self : Impl K) (z : P → K) (transform : List (List K) → P → P)
    (organized : Bool) (depthFrame : ImgFrame K) (densePoints : List P) :
    UInt32 × UInt32 × List P :=
  if organized then
    (depthFrame.width, depthFrame.height, self.applyTransformation transform densePoints)
  else
    let points := self.applyTransformation transform (filterValidPoints z densePoints)
    (UInt32.ofNat points.length, 1, points)

def processDepthOnly (self : Impl K) (schedules : Schedules K) (organized : Bool)
    (depthFrame : ImgFrame K) : Except PointFault (UInt32 × UInt32 × Points K) := do
  let densePoints ← self.computePointCloudDense schedules.dense depthFrame.data
  let (width, height, points) :=
    self.arrange Point3f.z transformPoint organized depthFrame densePoints
  return (width, height, .plain points)

def processColorized (self : Impl K) (schedules : Schedules K) (organized : Bool)
    (depthFrame colorFrame : ImgFrame K) : Except PointFault (UInt32 × UInt32 × Points K) :=
  if colorFrame.width ≠ depthFrame.width ∨ colorFrame.height ≠ depthFrame.height then
    self.processDepthOnly schedules organized depthFrame
  else if colorFrame.type ≠ .RGB888i then self.processDepthOnly schedules organized depthFrame
  else do
    let densePoints ←
      self.computePointCloudDenseColored schedules.denseColored depthFrame.data colorFrame.data
    let (width, height, points) :=
      self.arrange Point3fRGBA.z transformColored organized depthFrame densePoints
    return (width, height, .colored points)

end Impl

/-- The check of a depth frame in `run`. The number of bytes is a `size_t`. -/
def IsPackedDepth (depthFrame : ImgFrame K) : Prop :=
  let expectedBytes := depthFrame.width.toNat * depthFrame.height.toNat * 2 % 2 ^ 64
  depthFrame.type = .RAW16 ∧ depthFrame.data.length = expectedBytes

instance (depthFrame : ImgFrame K) : Decidable (IsPackedDepth depthFrame) :=
  inferInstanceAs (Decidable (_ ∧ _))

/-! ### The node -/

/-- The node `PointCloud`, with what `run` keeps from one round to the next. -/
structure Node (K : Type) [Field K] where
  impl : Impl K
  latestConfig : PointCloudConfig K
  currentEepromId : UInt32
  initialized : Bool := false
  targetExtrinsics : Option (Extrinsics K) := none
  lastTransformation : Option (ImgTransformation K) := none

namespace Node

/-- The node takes a new configuration. -/
def takeConfig (self : Node K) : Option (PointCloudConfig K) → Node K
  | none => self
  | some newConfig => { self with latestConfig := newConfig, initialized := false }

/-- The node looks at the number of the calibration. -/
def checkEeprom (self : Node K) (latestEepromId : UInt32) : Node K :=
  if latestEepromId > self.currentEepromId then
    { self with initialized := false, currentEepromId := latestEepromId }
  else self

def hasTransformationChanged (self : Node K) (frame : ImgFrame K) : Bool :=
  match self.lastTransformation with
  | some last => !last.isEqualTransformation frame.transformation
  | none => true

/-- The node looks at the transformation of the frame. -/
def checkTransformation (self : Node K) (frame : ImgFrame K) : Node K :=
  if self.hasTransformationChanged frame then
    { self with lastTransformation := some frame.transformation, initialized := false }
  else self

/-- What a round does before it initialises. -/
def check (self : Node K) (pipeline : Pipeline K) (newConfig : Option (PointCloudConfig K))
    (depthFrame : ImgFrame K) : Node K :=
  ((self.takeConfig newConfig).checkEeprom pipeline.eepromId).checkTransformation depthFrame

/-- `initialize` -/
def initializeNode (self : Node K) (pipeline : Pipeline K) (depthFrame : ImgFrame K) :
    Except PointFault (Node K) := do
  let (impl, targetExtrinsics) ←
    self.impl.initializeImpl pipeline.calibration depthFrame self.latestConfig
  return { self with impl, targetExtrinsics, initialized := true }

/-- The node initialises, unless it is initialised. -/
def ready (self : Node K) (pipeline : Pipeline K) (depthFrame : ImgFrame K) :
    Except PointFault (Node K) :=
  if self.initialized then .ok self else self.initializeNode pipeline depthFrame

/-- What a round does once the node is initialised: a cloud, or none for a frame that is skipped. -/
def process (self : Node K) (schedules : Schedules K) (group : MessageGroup K) :
    Except PointFault (Option (PointCloudData K)) := do
  let depthFrame := group.depth
  let organized := self.latestConfig.organized
  if ¬IsPackedDepth depthFrame then return none
  let (width, height, points) ←
    match group.color with
    | some colorFrame => self.impl.processColorized schedules organized depthFrame colorFrame
    | none => self.impl.processDepthOnly schedules organized depthFrame
  let transformation :=
    match self.targetExtrinsics with
    | some extrinsics => { depthFrame.transformation with extrinsics }
    | none => depthFrame.transformation
  return some { width, height, points, transformation }

/-- The round of `run` for a group of frames. -/
def round (self : Node K) (pipeline : Pipeline K) (schedules : Schedules K)
    (newConfig : Option (PointCloudConfig K)) (group : MessageGroup K) :
    Except PointFault (Node K × Option (PointCloudData K)) := do
  let self ← (self.check pipeline newConfig group.depth).ready pipeline group.depth
  return (self, ← self.process schedules group)

end Node

/-! ### The node and its pipeline -/

/-- What happens to a node: the calibration of its pipeline is replaced, or it takes a group of
frames, perhaps with a new configuration. -/
inductive Event (K : Type) [Field K]
  | setEepromData (calibration : Except PointFault (Calibration K))
  | frames (schedules : Schedules K) (newConfig : Option (PointCloudConfig K))
    (group : MessageGroup K)

/-- A node with its pipeline, and the frame that it was last initialised for. -/
structure Session (K : Type) [Field K] where
  node : Node K
  pipeline : Pipeline K
  origin : Option (ImgFrame K) := none

/-- A node that has just been started. -/
def Node.start (impl : Impl K) (config : PointCloudConfig K) (pipeline : Pipeline K) : Node K where
  impl := impl
  latestConfig := config
  currentEepromId := pipeline.eepromId

namespace Session

/-- An event, with the cloud that is sent. -/
def step (self : Session K) : Event K → Except PointFault (Session K × Option (PointCloudData K))
  | .setEepromData calibration =>
    .ok ({ self with pipeline := self.pipeline.setEepromData calibration }, none)
  | .frames schedules newConfig group => do
    let (node, cloud) ← self.node.round self.pipeline schedules newConfig group
    let kept := (self.node.check self.pipeline newConfig group.depth).initialized
    return ({ self with node, origin := if kept then self.origin else some group.depth }, cloud)

/-- The session after an event; none if the node ends with an exception. -/
def next (self : Session K) (event : Event K) : Option (Session K) :=
  match self.step event with
  | .ok (session, _) => some session
  | .error _ => none

end Session

/-- The places of the depth values that `computePointCloudDense` reads. -/
def Impl.depthReads (self : Impl K) : List ℕ :=
  match self.intrinsics with
  | none => []
  | some k =>
    let all := (cells k.width 0 k.height).map (place k.width)
    match self.computeMethod with
    | .CPU => all
    | .CPU_MT =>
      if self.threadNum = 0 then all
      else (tasks k.height self.threadNum).flatMap (places k.width)

/-- The node reads the depth values of the frame, each once, and no others. -/
structure ReadsExactly (impl : Impl K) (depthFrame : ImgFrame K) : Prop where
  reads : impl.depthReads = List.range (depthFrame.height.toNat * depthFrame.width.toNat)
  length : depthFrame.data.length = 2 * (depthFrame.height.toNat * depthFrame.width.toNat)

namespace Session

/-- **What is kept does not show**: a group of frames has the outcome it has for a node that has
just been started with the latest configuration and calibration, in whatever order threads come to
write. -/
def Right (base : Impl K) (self : Session K) : Event K → Prop
  | .setEepromData _ => True
  | .frames schedules newConfig group =>
    (∀ schedules', (self.node.round self.pipeline schedules newConfig group).map Prod.snd =
      ((Node.start base (self.node.takeConfig newConfig).latestConfig self.pipeline).round
        self.pipeline schedules' none group).map Prod.snd) ∧
    ∀ node cloud, self.node.round self.pipeline schedules newConfig group = .ok (node, some cloud) →
      ReadsExactly node.impl group.depth

/-- The comparison of transformations is exact. -/
def Exact (self : Session K) : Event K → Prop
  | .setEepromData _ => True
  | .frames _ _ group => ∀ last ∈ self.node.lastTransformation,
    last.isEqualTransformation group.depth.transformation →
      ImgTransformation.SameCompared last group.depth.transformation

/-- Frames with the same size, and the same spec translation if the configuration uses it. -/
structure SameBehind (config : PointCloudConfig K) (origin depthFrame : ImgFrame K) : Prop where
  width : origin.width = depthFrame.width
  height : origin.height = depthFrame.height
  specTranslation : config.useSpecTranslation = true →
    origin.transformation.extrinsics.getTranslationInUnit true config.lengthUnit =
      depthFrame.transformation.extrinsics.getTranslationInUnit true config.lengthUnit

/-- **Nothing changes that the node does not look at**: the number of the calibration does not wrap
around; and a frame that the node is not initialised for anew has the size, and the spec translation
if it is used, of the frame it was initialised for, and not more pixels than places. -/
def Fits (self : Session K) : Event K → Prop
  | .setEepromData _ => self.pipeline.eepromId.toNat + 1 < 2 ^ 32
  | .frames _ newConfig group =>
    let node := self.node.check self.pipeline newConfig group.depth
    (node.initialized = true → ∀ origin ∈ self.origin,
      SameBehind node.latestConfig origin group.depth) ∧
    (IsPackedDepth group.depth → group.depth.height.toNat * group.depth.width.toNat < 2 ^ 32)

end Session

/-! ### What initialising depends on -/

section Initialise

variable [IsStrictOrderedRing K] {t u v : ImgTransformation K} {base impl impl' : Impl K}
  {calibration : Except PointFault (Calibration K)} {depthFrame origin : ImgFrame K}
  {config : PointCloudConfig K} {targetExtrinsics targetExtrinsics' : Option (Extrinsics K)}

/-- What of a transformation the node uses is equal, the spec translation apart. -/
structure SameUsed (t u : ImgTransformation K) : Prop where
  intrinsicMatrix : t.getIntrinsicMatrix = u.getIntrinsicMatrix
  rotationMatrix : t.extrinsics.rotationMatrix = u.extrinsics.rotationMatrix
  toCameraSocket : t.extrinsics.toCameraSocket = u.extrinsics.toCameraSocket
  translation : t.extrinsics.getTranslationVector false .CENTIMETER =
    u.extrinsics.getTranslationVector false .CENTIMETER

omit [LinearOrder K] [IsStrictOrderedRing K] in
theorem SameUsed.refl (t : ImgTransformation K) : SameUsed t t :=
  ⟨rfl, rfl, rfl, rfl⟩

omit [LinearOrder K] [IsStrictOrderedRing K] in
theorem SameUsed.symm (h : SameUsed t u) : SameUsed u t :=
  ⟨h.1.symm, h.2.symm, h.3.symm, h.4.symm⟩

omit [LinearOrder K] [IsStrictOrderedRing K] in
theorem SameUsed.trans (h : SameUsed t u) (h' : SameUsed u v) : SameUsed t v :=
  ⟨h.1.trans h'.1, h.2.trans h'.2, h.3.trans h'.3, h.4.trans h'.4⟩

omit [IsStrictOrderedRing K] in
theorem SameUsed.of_isEqual (h : t.isEqualTransformation u)
    (hexact : ImgTransformation.SameCompared t u) : SameUsed t u := by
  refine ⟨hexact.intrinsicMatrix, hexact.rotationMatrix, ?_, hexact.translation⟩
  simp only [ImgTransformation.isEqualTransformation, Extrinsics.isEqualExtrinsics,
    Bool.and_eq_true, decide_eq_true_eq] at h
  exact h.1.1.2.1.2

/-- A translation that is equal in centimetres is equal in every unit. -/
theorem SameUsed.getTranslationInUnit (h : SameUsed t u) (unit : LengthUnit) :
    t.extrinsics.getTranslationInUnit false unit =
      u.extrinsics.getTranslationInUnit false unit := by
  have hscale : ∀ l : LengthUnit, (getDistanceUnitScale unit l : K) =
      getDistanceUnitScale .CENTIMETER l * (getLengthUnitMultiplier unit / 100) := by
    intro l
    simp only [getDistanceUnitScale, getLengthUnitMultiplier]
    ring
  have htranslation := h.translation
  simp only [Extrinsics.getTranslationVector, Extrinsics.getTranslationInUnit, List.cons.injEq,
    and_true] at htranslation
  obtain ⟨hx, hy, hz⟩ := htranslation
  simp only [Extrinsics.getTranslationInUnit, hscale, ← mul_assoc]
  rw [hx, hy, hz]

omit [IsStrictOrderedRing K] in
theorem initializeImpl_congr (hmethod : impl.computeMethod = impl'.computeMethod)
    (hthreads : impl.threadNum = impl'.threadNum) :
    impl.initializeImpl calibration depthFrame config =
      impl'.initializeImpl calibration depthFrame config := by
  obtain ⟨method, unit, scale, intrinsics, threads, extrinsics⟩ := impl
  obtain ⟨method', unit', scale', intrinsics', threads', extrinsics'⟩ := impl'
  obtain rfl : method = method' := hmethod
  obtain rfl : threads = threads' := hthreads
  simp only [Impl.initializeImpl, Impl.setLengthUnit, Impl.setIntrinsicsFromFrame,
    Impl.setIntrinsics]
  split_ifs
  · rfl
  · rfl

theorem setCoordinateTransformation_congr (hused : SameUsed origin.transformation
      depthFrame.transformation)
    (hspec : config.useSpecTranslation = true →
      origin.transformation.extrinsics.getTranslationInUnit true impl.targetLengthUnit =
        depthFrame.transformation.extrinsics.getTranslationInUnit true impl.targetLengthUnit) :
    impl.setCoordinateTransformation calibration origin config =
      impl.setCoordinateTransformation calibration depthFrame config := by
  have hmatrix : origin.transformation.extrinsics.getTransformationMatrix config.useSpecTranslation
      impl.targetLengthUnit = depthFrame.transformation.extrinsics.getTransformationMatrix
        config.useSpecTranslation impl.targetLengthUnit := by
    have htranslation : origin.transformation.extrinsics.getTranslationInUnit
        config.useSpecTranslation impl.targetLengthUnit =
          depthFrame.transformation.extrinsics.getTranslationInUnit config.useSpecTranslation
            impl.targetLengthUnit := by
      cases huse : config.useSpecTranslation with
      | false => exact hused.getTranslationInUnit _
      | true => exact hspec huse
    rw [Extrinsics.getTransformationMatrix, Extrinsics.getTransformationMatrix,
      hused.rotationMatrix, htranslation]
  simp only [Impl.setCoordinateTransformation, hused.toCameraSocket, hmatrix]

/-- **Frames between which nothing changes initialise alike.** -/
theorem initializeImpl_frame (impl : Impl K) (calibration : Except PointFault (Calibration K))
    (hused : SameUsed origin.transformation depthFrame.transformation)
    (hbehind : Session.SameBehind config origin depthFrame) :
    impl.initializeImpl calibration origin config =
      impl.initializeImpl calibration depthFrame config := by
  simp only [Impl.initializeImpl, Impl.setIntrinsicsFromFrame, Impl.setIntrinsics,
    hused.intrinsicMatrix, hbehind.width, hbehind.height]
  split_ifs
  · rfl
  · exact setCoordinateTransformation_congr hused hbehind.specTranslation

omit [Field K] [LinearOrder K] [IsStrictOrderedRing K] in
theorem setExtrinsics_eq_ok {transformMatrix : List (List K)}
    (h : (do return (← impl.setExtrinsics transformMatrix, targetExtrinsics)) =
      (.ok (impl', targetExtrinsics') : Except PointFault (Impl K × Option (Extrinsics K)))) :
    ∃ extrinsics, impl' = { impl with extrinsics } := by
  rw [Impl.setExtrinsics] at h
  split_ifs at h
  · cases h
  · cases h
    exact ⟨_, rfl⟩

omit [IsStrictOrderedRing K] in
/-- The transformation of the points is all that is set. -/
theorem setCoordinateTransformation_eq_ok
    (h : impl.setCoordinateTransformation calibration depthFrame config =
      .ok (impl', targetExtrinsics)) :
    ∃ extrinsics, impl' = { impl with extrinsics } := by
  rw [Impl.setCoordinateTransformation] at h
  dsimp only at h
  by_cases hauto : depthFrame.transformation.extrinsics.toCameraSocket = .AUTO
  · rw [if_pos hauto] at h
    cases h
  rw [if_neg hauto] at h
  obtain ⟨frameToRef, -, h⟩ := Loop.bind_eq_ok.1 h
  obtain ⟨calibHandler, -, h⟩ := Loop.bind_eq_ok.1 h
  cases hsystem : config.coordSystemType with
  | CAMERA_SOCKET =>
    simp only [hsystem] at h
    obtain ⟨T_ref_to_target, -, h⟩ := Loop.bind_eq_ok.1 h
    obtain ⟨T_final, -, h⟩ := Loop.bind_eq_ok.1 h
    obtain ⟨extrinsics, -, h⟩ := Loop.bind_eq_ok.1 h
    exact setExtrinsics_eq_ok h
  | HOUSING =>
    simp only [hsystem] at h
    obtain ⟨T_ref_to_housing, -, h⟩ := Loop.bind_eq_ok.1 h
    obtain ⟨T_final, -, h⟩ := Loop.bind_eq_ok.1 h
    obtain ⟨extrinsics, -, h⟩ := Loop.bind_eq_ok.1 h
    exact setExtrinsics_eq_ok h
  | DEFAULT =>
    simp only [hsystem] at h
    split_ifs at h
    · cases h
      exact ⟨none, rfl⟩
    · exact setExtrinsics_eq_ok h
    · obtain ⟨T_final, -, h⟩ := Loop.bind_eq_ok.1 h
      obtain ⟨extrinsics, -, h⟩ := Loop.bind_eq_ok.1 h
      exact setExtrinsics_eq_ok h

omit [IsStrictOrderedRing K] in
theorem initializeImpl_eq_ok (h : impl.initializeImpl calibration depthFrame config =
      .ok (impl', targetExtrinsics)) :
    impl'.computeMethod = impl.computeMethod ∧ impl'.threadNum = impl.threadNum ∧
      ∃ fx fy cx cy, impl'.intrinsics =
        some (.ofFrame fx fy cx cy depthFrame.width depthFrame.height) := by
  simp only [Impl.initializeImpl, Impl.setLengthUnit, Impl.setIntrinsicsFromFrame,
    Impl.setIntrinsics] at h
  split_ifs at h
  · cases h
  · obtain ⟨extrinsics, rfl⟩ := setCoordinateTransformation_eq_ok h
    exact ⟨rfl, rfl, _, _, _, _, rfl⟩

end Initialise

/-! ### The order of the threads -/

section Threads

variable {impl : Impl K} {fx fy cx cy : K} {width height : UInt32}

omit [Field K] [LinearOrder K] in
theorem computeRowsMT_schedule {P : Type} {point : UInt32 × UInt32 → ℕ → Except PointFault P}
    (schedule schedule' : Schedule (ℕ × P)) (threadNum : UInt32) {points : List P}
    (hlength : points.length = (width * height).toNat) :
    Impl.computeRowsMT (Impl.calcPoints point width) schedule threadNum height points =
      Impl.computeRowsMT (Impl.calcPoints point width) schedule' threadNum height points := by
  by_cases hthreads : threadNum = 0
  · rw [Impl.computeRowsMT, Impl.computeRowsMT, if_pos hthreads, if_pos hthreads]
  · have hpos : 0 < threadNum.toNat :=
      Nat.pos_of_ne_zero fun h => hthreads (UInt32.toNat_inj.1 h)
    rw [Impl.computeRowsMT_eq schedule hpos hlength, Impl.computeRowsMT_eq schedule' hpos hlength]

/-- Neither kind of points depends on the order in which threads write. -/
theorem computePointCloudDense_schedule
    (hk : impl.intrinsics = some (.ofFrame fx fy cx cy width height))
    (schedule schedule' : Schedule (ℕ × Point3f K)) (depthData : List UInt8) :
    impl.computePointCloudDense schedule depthData =
      impl.computePointCloudDense schedule' depthData := by
  simp only [Impl.computePointCloudDense, hk]
  cases impl.computeMethod with
  | CPU => rfl
  | CPU_MT => exact computeRowsMT_schedule _ _ _ List.length_replicate

theorem computePointCloudDenseColored_schedule
    (hk : impl.intrinsics = some (.ofFrame fx fy cx cy width height))
    (schedule schedule' : Schedule (ℕ × Point3fRGBA K)) (depthData colorData : List UInt8) :
    impl.computePointCloudDenseColored schedule depthData colorData =
      impl.computePointCloudDenseColored schedule' depthData colorData := by
  simp only [Impl.computePointCloudDenseColored, hk]
  cases impl.computeMethod with
  | CPU => rfl
  | CPU_MT => exact computeRowsMT_schedule _ _ _ List.length_replicate

/-- What a node sends depends on what it keeps, and not on the order in which threads write. -/
theorem process_congr (node node' : Node K) (group : MessageGroup K)
    (hk : node.impl.intrinsics = some (.ofFrame fx fy cx cy width height))
    (himpl : node'.impl = node.impl) (htarget : node'.targetExtrinsics = node.targetExtrinsics)
    (hconfig : node'.latestConfig = node.latestConfig) (schedules schedules' : Schedules K) :
    node.process schedules group = node'.process schedules' group := by
  have hdense := computePointCloudDense_schedule hk schedules.dense schedules'.dense
  have hcolored :=
    computePointCloudDenseColored_schedule hk schedules.denseColored schedules'.denseColored
  simp only [Node.process, himpl, htarget, hconfig, Impl.processColorized, Impl.processDepthOnly,
    hdense, hcolored]

omit [Field K] [LinearOrder K] in
/-- The threads read the places that a single one reads. -/
theorem depthReads_eq_map (hk : impl.intrinsics = some (.ofFrame fx fy cx cy width height)) :
    impl.depthReads = (Impl.cells width 0 height).map (Impl.place width) := by
  simp only [Impl.depthReads, hk, Intrinsics.ofFrame]
  cases impl.computeMethod with
  | CPU => rfl
  | CPU_MT =>
    dsimp only
    split_ifs with hthreads
    · rfl
    · have hpos : 0 < impl.threadNum.toNat :=
        Nat.pos_of_ne_zero fun h => hthreads (UInt32.toNat_inj.1 h)
      rw [← Impl.flatMap_cells hpos, List.map_flatMap]
      rfl

omit [Field K] [LinearOrder K] in
/-- The depth values of a frame whose size the node has are read once each, in their order. -/
theorem depthReads_eq (hk : impl.intrinsics = some (.ofFrame fx fy cx cy width height))
    (hsmall : height.toNat * width.toNat < 2 ^ 32) :
    impl.depthReads = List.range (height.toNat * width.toNat) := by
  rw [depthReads_eq_map hk, Impl.map_place_of_le hsmall.le]

theorem computePointCloudDense_eq
    (hk : impl.intrinsics = some (.ofFrame fx fy cx cy width height))
    (schedule : Schedule (ℕ × Point3f K)) (depthData : List UInt8) :
    impl.computePointCloudDense schedule depthData =
      Impl.computeRows (Impl.calcPoints (Impl.densePoint impl.scaleFactor
        (.ofFrame fx fy cx cy width height) depthData) width) height
          (List.replicate (width * height).toNat { x := 0, y := 0, z := 0 }) := by
  simp only [Impl.computePointCloudDense, hk]
  cases impl.computeMethod with
  | CPU => rfl
  | CPU_MT =>
    by_cases hthreads : impl.threadNum = 0
    · simp only [Impl.computePointCloudDenseCPUMT, Impl.computeRowsMT, if_pos hthreads]
      rfl
    · exact Impl.computeRowsMT_eq schedule
        (Nat.pos_of_ne_zero fun h => hthreads (UInt32.toNat_inj.1 h)) List.length_replicate

end Threads

/-! ### What the node keeps -/

section Kept

variable {node : Node K} {pipeline : Pipeline K} {newConfig : Option (PointCloudConfig K)}
  {depthFrame : ImgFrame K}

omit [LinearOrder K] in
theorem takeConfig_of_initialized (h : (node.takeConfig newConfig).initialized = true) :
    node.takeConfig newConfig = node := by
  cases newConfig with
  | none => rfl
  | some config => cases h

omit [LinearOrder K] in
theorem checkEeprom_of_initialized {latestEepromId : UInt32}
    (h : (node.checkEeprom latestEepromId).initialized = true) :
    node.checkEeprom latestEepromId = node ∧ latestEepromId ≤ node.currentEepromId := by
  by_cases hlarger : latestEepromId > node.currentEepromId
  · rw [Node.checkEeprom, if_pos hlarger] at h
    cases h
  · rw [Node.checkEeprom, if_neg hlarger]
    exact ⟨rfl, UInt32.not_lt.1 hlarger⟩

theorem checkTransformation_of_initialized
    (h : (node.checkTransformation depthFrame).initialized = true) :
    node.checkTransformation depthFrame = node ∧
      node.hasTransformationChanged depthFrame = false := by
  cases hchanged : node.hasTransformationChanged depthFrame with
  | true =>
    rw [Node.checkTransformation, if_pos hchanged] at h
    cases h
  | false => exact ⟨by simp [Node.checkTransformation, hchanged], rfl⟩

theorem exists_last (h : node.hasTransformationChanged depthFrame = false) :
    ∃ last, node.lastTransformation = some last ∧
      last.isEqualTransformation depthFrame.transformation := by
  rw [Node.hasTransformationChanged] at h
  cases hlast : node.lastTransformation with
  | none =>
    rw [hlast] at h
    cases h
  | some last =>
    rw [hlast] at h
    exact ⟨last, rfl, by simpa using h⟩

/-- A check that leaves the node initialised leaves it as it is. -/
theorem check_of_initialized
    (h : (node.check pipeline newConfig depthFrame).initialized = true) :
    node.check pipeline newConfig depthFrame = node ∧ pipeline.eepromId ≤ node.currentEepromId ∧
      node.hasTransformationChanged depthFrame = false := by
  rw [Node.check] at h ⊢
  obtain ⟨htransformation, hchanged⟩ := checkTransformation_of_initialized h
  rw [htransformation] at h ⊢
  obtain ⟨heeprom, hle⟩ := checkEeprom_of_initialized h
  rw [heeprom] at h hchanged ⊢
  rw [takeConfig_of_initialized h] at hle hchanged ⊢
  exact ⟨rfl, hle, hchanged⟩

omit [LinearOrder K] in
theorem takeConfig_eq (node : Node K) (newConfig : Option (PointCloudConfig K)) :
    (node.takeConfig newConfig).impl = node.impl ∧
      (node.takeConfig newConfig).currentEepromId = node.currentEepromId ∧
      (node.takeConfig newConfig).lastTransformation = node.lastTransformation := by
  cases newConfig <;> exact ⟨rfl, rfl, rfl⟩

omit [LinearOrder K] in
theorem checkEeprom_eq (node : Node K) (latestEepromId : UInt32) :
    (node.checkEeprom latestEepromId).impl = node.impl ∧
      (node.checkEeprom latestEepromId).latestConfig = node.latestConfig ∧
      (node.checkEeprom latestEepromId).currentEepromId.toNat =
        max node.currentEepromId.toNat latestEepromId.toNat ∧
      (node.checkEeprom latestEepromId).lastTransformation = node.lastTransformation := by
  by_cases hlarger : latestEepromId > node.currentEepromId
  · rw [Node.checkEeprom, if_pos hlarger]
    exact ⟨rfl, rfl, (max_eq_right (UInt32.lt_iff_toNat_lt.1 hlarger).le).symm, rfl⟩
  · rw [Node.checkEeprom, if_neg hlarger]
    exact ⟨rfl, rfl, (max_eq_left (UInt32.le_iff_toNat_le.1 (UInt32.not_lt.1 hlarger))).symm, rfl⟩

theorem checkTransformation_eq (node : Node K) (depthFrame : ImgFrame K) :
    (node.checkTransformation depthFrame).impl = node.impl ∧
      (node.checkTransformation depthFrame).latestConfig = node.latestConfig ∧
      (node.checkTransformation depthFrame).currentEepromId = node.currentEepromId := by
  rw [Node.checkTransformation]
  split_ifs <;> exact ⟨rfl, rfl, rfl⟩

theorem check_eq (node : Node K) (pipeline : Pipeline K) (newConfig : Option (PointCloudConfig K))
    (depthFrame : ImgFrame K) :
    (node.check pipeline newConfig depthFrame).impl = node.impl ∧
      (node.check pipeline newConfig depthFrame).latestConfig =
        (node.takeConfig newConfig).latestConfig ∧
      (node.check pipeline newConfig depthFrame).currentEepromId.toNat =
        max node.currentEepromId.toNat pipeline.eepromId.toNat := by
  obtain ⟨himpl, hid, -⟩ := takeConfig_eq node newConfig
  obtain ⟨himpl', hconfig', hid', -⟩ := checkEeprom_eq (node.takeConfig newConfig) pipeline.eepromId
  obtain ⟨himpl'', hconfig'', hid''⟩ := checkTransformation_eq
    ((node.takeConfig newConfig).checkEeprom pipeline.eepromId) depthFrame
  exact ⟨himpl''.trans (himpl'.trans himpl), hconfig''.trans hconfig', by
    rw [Node.check, hid'', hid', hid]⟩

/-- The transformation that is kept is that of the frame. -/
theorem check_lastTransformation (pipeline : Pipeline K)
    (newConfig : Option (PointCloudConfig K)) (hexact : ∀ last ∈ node.lastTransformation,
      last.isEqualTransformation depthFrame.transformation →
        ImgTransformation.SameCompared last depthFrame.transformation) :
    ∃ last, (node.check pipeline newConfig depthFrame).lastTransformation = some last ∧
      SameUsed last depthFrame.transformation := by
  rw [Node.check]
  have hlast := (checkEeprom_eq (node.takeConfig newConfig) pipeline.eepromId).2.2.2.trans
    (takeConfig_eq node newConfig).2.2
  generalize (node.takeConfig newConfig).checkEeprom pipeline.eepromId = node' at hlast ⊢
  cases hchanged : node'.hasTransformationChanged depthFrame with
  | true =>
    rw [Node.checkTransformation, if_pos hchanged]
    exact ⟨_, rfl, .refl _⟩
  | false =>
    obtain ⟨last, hsome, hequal⟩ := exists_last hchanged
    refine ⟨last, by simp [Node.checkTransformation, hchanged, hsome], .of_isEqual hequal ?_⟩
    exact hexact last (hlast ▸ hsome) hequal

variable [IsStrictOrderedRing K] {base : Impl K} {session : Session K} {event : Event K}
  {schedules : Schedules K} {group : MessageGroup K}

/-- A node with what initialising came to. -/
def Node.with (self : Node K) (kept : Impl K × Option (Extrinsics K)) : Node K :=
  { self with impl := kept.1, targetExtrinsics := kept.2, initialized := true }

/-- **What a session keeps**: if the node is initialised, then as a new node would be for the frame
it was initialised for, unless the calibration has been replaced since. -/
structure Session.Kept (base : Impl K) (session : Session K) : Prop where
  eepromId : session.node.currentEepromId.toNat ≤ session.pipeline.eepromId.toNat
  computeMethod : session.node.impl.computeMethod = base.computeMethod
  threadNum : session.node.impl.threadNum = base.threadNum
  initialized : session.node.initialized = true → ∃ origin last, session.origin = some origin ∧
    session.node.lastTransformation = some last ∧ SameUsed last origin.transformation ∧
      (session.node.currentEepromId = session.pipeline.eepromId →
        base.initializeImpl session.pipeline.calibration origin session.node.latestConfig =
          .ok (session.node.impl, session.node.targetExtrinsics))

omit [IsStrictOrderedRing K] in
theorem initializeNode_eq (base : Impl K) (hmethod : node.impl.computeMethod = base.computeMethod)
    (hthreads : node.impl.threadNum = base.threadNum) :
    node.initializeNode pipeline depthFrame =
      (base.initializeImpl pipeline.calibration depthFrame node.latestConfig).map node.with := by
  rw [Node.initializeNode, initializeImpl_congr hmethod hthreads]
  cases base.initializeImpl pipeline.calibration depthFrame node.latestConfig <;> rfl

/-- **Initialised or not, a node has what a new one computes for the frame.** -/
theorem ready_eq (hkept : Session.Kept base session)
    (hexact : session.Exact (.frames schedules newConfig group))
    (hfits : session.Fits (.frames schedules newConfig group)) :
    (session.node.check session.pipeline newConfig group.depth).ready session.pipeline group.depth =
      (base.initializeImpl session.pipeline.calibration group.depth
        (session.node.takeConfig newConfig).latestConfig).map
          (session.node.check session.pipeline newConfig group.depth).with := by
  obtain ⟨himpl, hconfig, -⟩ := check_eq session.node session.pipeline newConfig group.depth
  rw [← hconfig]
  by_cases hinitialized :
      (session.node.check session.pipeline newConfig group.depth).initialized = true
  · have hbehind := hfits.1 hinitialized
    obtain ⟨hsame, hle, hchanged⟩ := check_of_initialized hinitialized
    rw [hsame] at hinitialized hbehind ⊢
    obtain ⟨last, hlast, hequal⟩ := exists_last hchanged
    obtain ⟨origin, last', horigin, hlast', hused, hinit⟩ := hkept.initialized hinitialized
    obtain rfl : last = last' := Option.some.inj (hlast.symm.trans hlast')
    have hid : session.node.currentEepromId = session.pipeline.eepromId :=
      UInt32.toNat_inj.1 (le_antisymm hkept.eepromId (UInt32.le_iff_toNat_le.1 hle))
    have hframe := hused.symm.trans (.of_isEqual hequal (hexact last hlast hequal))
    rw [Node.ready, if_pos hinitialized,
      ← initializeImpl_frame base _ hframe (hbehind origin horigin), hinit hid]
    have hwith : session.node.with (session.node.impl, session.node.targetExtrinsics) =
        session.node := by
      rw [Node.with, ← hinitialized]
    exact congrArg Except.ok hwith.symm
  · rw [Node.ready, if_neg hinitialized]
    exact initializeNode_eq base ((congrArg _ himpl).trans hkept.computeMethod)
      ((congrArg _ himpl).trans hkept.threadNum)

omit [IsStrictOrderedRing K] in
/-- Initialising leaves the transformation that the node has seen last. -/
theorem ready_lastTransformation {node' : Node K} (h : node.ready pipeline depthFrame = .ok node') :
    node'.lastTransformation = node.lastTransformation := by
  rw [Node.ready] at h
  split_ifs at h
  · cases h
    rfl
  · obtain ⟨kept, -, h⟩ := Loop.bind_eq_ok.1 h
    cases h
    rfl

omit [IsStrictOrderedRing K] in
theorem round_eq (schedules : Schedules K)
    (h : (node.check pipeline newConfig group.depth).ready pipeline group.depth =
      (base.initializeImpl pipeline.calibration group.depth
        (node.takeConfig newConfig).latestConfig).map
          (node.check pipeline newConfig group.depth).with) :
    node.round pipeline schedules newConfig group = (do
      let kept ← base.initializeImpl pipeline.calibration group.depth
        (node.takeConfig newConfig).latestConfig
      let node := (node.check pipeline newConfig group.depth).with kept
      return (node, ← node.process schedules group)) := by
  rw [Node.round, h]
  cases base.initializeImpl pipeline.calibration group.depth
    (node.takeConfig newConfig).latestConfig <;> rfl

omit [IsStrictOrderedRing K] in
theorem start_check (base : Impl K) (config : PointCloudConfig K) (pipeline : Pipeline K)
    (newConfig : Option (PointCloudConfig K)) (depthFrame : ImgFrame K) :
    ¬((Node.start base config pipeline).check pipeline newConfig
      depthFrame).initialized = true := by
  intro hinitialized
  have hsame := (check_of_initialized hinitialized).1
  rw [hsame] at hinitialized
  cases hinitialized

omit [IsStrictOrderedRing K] in
theorem start_ready (base : Impl K) (config : PointCloudConfig K) (pipeline : Pipeline K)
    (depthFrame : ImgFrame K) :
    ((Node.start base config pipeline).check pipeline none depthFrame).ready pipeline depthFrame =
      (base.initializeImpl pipeline.calibration depthFrame config).map
        ((Node.start base config pipeline).check pipeline none depthFrame).with := by
  obtain ⟨himpl, hconfig, -⟩ :=
    check_eq (Node.start base config pipeline) pipeline none depthFrame
  rw [Node.ready, if_neg (start_check base config pipeline none depthFrame),
    initializeNode_eq base (congrArg _ himpl) (congrArg _ himpl), hconfig]
  rfl

omit [IsStrictOrderedRing K] in
theorem process_some {cloud : PointCloudData K}
    (h : node.process schedules group = .ok (some cloud)) : IsPackedDepth group.depth := by
  by_contra hpacked
  rw [Node.process, if_pos hpacked] at h
  cases h

omit [LinearOrder K] [IsStrictOrderedRing K] in
theorem IsPackedDepth.length_eq (h : IsPackedDepth depthFrame)
    (hsmall : depthFrame.height.toNat * depthFrame.width.toNat < 2 ^ 32) :
    depthFrame.data.length = 2 * (depthFrame.height.toNat * depthFrame.width.toNat) := by
  have hlength := h.2
  rw [Nat.mul_comm depthFrame.width.toNat] at hlength
  omega

/-- **A session that keeps what it should is right.** -/
theorem right_of_kept (hkept : Session.Kept base session) (hexact : session.Exact event)
    (hfits : session.Fits event) : session.Right base event := by
  cases event with
  | setEepromData calibration => trivial
  | frames schedules newConfig group =>
    have hround := round_eq schedules (ready_eq hkept hexact hfits)
    refine ⟨fun schedules' => ?_, fun node cloud h => ?_⟩
    · rw [hround, round_eq schedules' (start_ready base _ _ _)]
      have hconfig := (check_eq session.node session.pipeline newConfig group.depth).2.1
      have hconfig' : ((Node.start base (session.node.takeConfig newConfig).latestConfig
          session.pipeline).check session.pipeline none group.depth).latestConfig =
            (session.node.takeConfig newConfig).latestConfig := (check_eq _ _ _ _).2.1
      change Except.map Prod.snd (base.initializeImpl session.pipeline.calibration group.depth
          (session.node.takeConfig newConfig).latestConfig >>= _) =
        Except.map Prod.snd (base.initializeImpl session.pipeline.calibration group.depth
          (session.node.takeConfig newConfig).latestConfig >>= _)
      cases hinit : base.initializeImpl session.pipeline.calibration group.depth
          (session.node.takeConfig newConfig).latestConfig with
      | error e => rfl
      | ok kept =>
        obtain ⟨-, -, fx, fy, cx, cy, hk⟩ := initializeImpl_eq_ok hinit
        rw [Loop.ok_bind, Loop.ok_bind]
        dsimp only
        have hprocess := process_congr
          ((session.node.check session.pipeline newConfig group.depth).with kept)
          (((Node.start base (session.node.takeConfig newConfig).latestConfig
            session.pipeline).check session.pipeline none group.depth).with kept) group hk rfl rfl
              (hconfig'.trans hconfig.symm) schedules schedules'
        rw [hprocess]
        cases (((Node.start base (session.node.takeConfig newConfig).latestConfig
          session.pipeline).check session.pipeline none group.depth).with kept).process
            schedules' group <;> rfl
    · rw [hround] at h
      obtain ⟨kept, hkept', h⟩ := Loop.bind_eq_ok.1 h
      obtain ⟨sent, hsent, h⟩ := Loop.bind_eq_ok.1 h
      obtain ⟨-, -, fx, fy, cx, cy, hk⟩ := initializeImpl_eq_ok hkept'
      cases h
      have hpacked := process_some hsent
      have hsmall := hfits.2 hpacked
      exact ⟨depthReads_eq hk hsmall, hpacked.length_eq hsmall⟩

omit [IsStrictOrderedRing K] in
theorem next_frames {session' : Session K}
    (h : session.next (.frames schedules newConfig group) = some session') :
    ∃ node cloud,
      session.node.round session.pipeline schedules newConfig group = .ok (node, cloud) ∧
      session' =
        { session with
          node
          origin := if (session.node.check session.pipeline newConfig group.depth).initialized then
            session.origin else some group.depth } := by
  rw [Session.next, Session.step] at h
  cases hround : session.node.round session.pipeline schedules newConfig group with
  | error e =>
    rw [hround] at h
    cases h
  | ok outcome =>
    rw [hround] at h
    cases h
    exact ⟨_, _, rfl, rfl⟩

/-- **An event that fits keeps what the session should keep.** -/
theorem kept_next {session' : Session K} (hkept : Session.Kept base session)
    (hexact : session.Exact event) (hfits : session.Fits event)
    (h : session.next event = some session') : Session.Kept base session' := by
  cases event with
  | setEepromData calibration =>
    cases h
    have hnumber : (session.pipeline.eepromId + 1).toNat = session.pipeline.eepromId.toNat + 1 := by
      rw [UInt32.toNat_add, UInt32.toNat_one, Nat.mod_eq_of_lt hfits]
    have hle := hkept.eepromId
    refine ⟨?_, hkept.computeMethod, hkept.threadNum, fun hinitialized => ?_⟩
    · change session.node.currentEepromId.toNat ≤ (session.pipeline.eepromId + 1).toNat
      omega
    · obtain ⟨origin, last, horigin, hlast, hused, -⟩ := hkept.initialized hinitialized
      refine ⟨origin, last, horigin, hlast, hused, fun hid => ?_⟩
      have hid' : session.node.currentEepromId = session.pipeline.eepromId + 1 := hid
      rw [hid'] at hle
      omega
  | frames schedules newConfig group =>
    have hround := round_eq schedules (ready_eq hkept hexact hfits)
    obtain ⟨himpl, hconfig, hid⟩ := check_eq session.node session.pipeline newConfig group.depth
    obtain ⟨node, cloud, hnode, rfl⟩ := next_frames h
    rw [hround] at hnode
    obtain ⟨kept, hinit, hnode⟩ := Loop.bind_eq_ok.1 hnode
    obtain ⟨sent, -, hnode⟩ := Loop.bind_eq_ok.1 hnode
    cases hnode
    obtain ⟨hmethod, hthreads, -⟩ := initializeImpl_eq_ok hinit
    obtain ⟨last, hlast, hused⟩ :=
      check_lastTransformation session.pipeline newConfig hexact
    refine ⟨?_, hmethod, hthreads, fun _ => ?_⟩
    · exact hid.le.trans (max_le hkept.eepromId le_rfl)
    · by_cases hinitialized :
          (session.node.check session.pipeline newConfig group.depth).initialized = true
      · have hbehind := hfits.1 hinitialized
        obtain ⟨hsame, -, -⟩ := check_of_initialized hinitialized
        have hinit' := hinitialized
        rw [hsame] at hinit' hlast hbehind
        obtain ⟨origin, last', horigin, hlast', horiginUsed, -⟩ := hkept.initialized hinit'
        obtain rfl : last = last' := Option.some.inj (hlast.symm.trans hlast')
        have hframe := initializeImpl_frame base session.pipeline.calibration
          (horiginUsed.symm.trans hused)
            (hbehind origin horigin)
        refine ⟨origin, last, (if_pos hinitialized).trans horigin, ?_, horiginUsed, fun _ => ?_⟩
        · exact (congrArg _ hsame).trans hlast
        · have hsameConfig : (session.node.takeConfig newConfig).latestConfig =
              session.node.latestConfig := hconfig.symm.trans (congrArg _ hsame)
          rw [hsameConfig] at hinit
          change base.initializeImpl session.pipeline.calibration origin
            (session.node.check session.pipeline newConfig group.depth).latestConfig = .ok kept
          rw [hsame, hframe, hinit]
      · refine ⟨group.depth, last, if_neg hinitialized, hlast, hused, fun _ => ?_⟩
        exact (congrArg _ hconfig).trans hinit

/-- A session with a node that has just been started. -/
def Session.start (impl : Impl K) (config : PointCloudConfig K) (pipeline : Pipeline K) :
    Session K where
  node := Node.start impl config pipeline
  pipeline := pipeline

omit [IsStrictOrderedRing K] in
theorem kept_start (impl : Impl K) (config : PointCloudConfig K) (pipeline : Pipeline K) :
    Session.Kept impl (.start impl config pipeline) :=
  ⟨le_rfl, rfl, rfl, nofun⟩

omit [IsStrictOrderedRing K] in
theorem start_exact (impl : Impl K) (config : PointCloudConfig K) (pipeline : Pipeline K)
    (event : Event K) : (Session.start impl config pipeline).Exact event := by
  cases event with
  | setEepromData calibration => trivial
  | frames schedules newConfig group => exact fun last hlast => nomatch hlast

/-- **What a node keeps does not show.** In every run whose events fit, a group of frames that fits
has the outcome it has for a node that has just been started, and the depth values of its frame are
read. -/
theorem Session.right_of_run {config : PointCloudConfig K} {trace : List (Session K × Event K)}
    (hrun : Transition.Run Session.next (.start base config pipeline) trace session)
    (hexact : ∀ p ∈ trace, p.1.Exact p.2) (hfits : ∀ p ∈ trace, p.1.Fits p.2)
    (hexact' : session.Exact event) (hfits' : session.Fits event) : session.Right base event := by
  have hkept : Session.Kept base session :=
    hrun.invariant_of_forall (G := fun s e => s.Exact e ∧ s.Fits e)
      (fun s e t hG hs ht => kept_next hs hG.1 hG.2 ht)
      (fun p hp => ⟨hexact p hp, hfits p hp⟩) (kept_start base config pipeline)
  exact right_of_kept hkept hexact' hfits'

end Kept

/-! ### Frames of one pixel -/

/-- A frame of one pixel, with this spec translation. -/
def pixelFrame (spec : ℚ) : ImgFrame ℚ where
  type := .RAW16
  width := 1
  height := 1
  stride := 2
  instanceNum := 0
  transformation :=
    { extrinsics :=
        { rotationMatrix := [[1, 0, 0], [0, 1, 0], [0, 0, 1]]
          translation := ⟨0, 0, 0⟩
          specTranslation := ⟨spec, 0, 0⟩
          toCameraSocket := .CAM_A
          lengthUnit := .MILLIMETER } }
  data := [5, 0]

/-- One thread after another. -/
def sequential : Schedules ℚ :=
  ⟨.sequential _, .sequential _⟩

/-- A calibration that knows no cameras. -/
def noCameras : Calibration ℚ where
  getCameraExtrinsics _ _ _ _ := .error (.thrown "no cameras")
  getHousingCalibration _ _ _ _ := .error (.thrown "no cameras")

/-- A new node that computes on the CPU. -/
def onCPU : Impl ℚ :=
  { scaleFactor := 1 }

/-- A node that has taken a frame of one pixel. -/
def afterFrame : Option (Session ℚ) :=
  (Session.start onCPU {} { calibration := .ok noCameras }).next
    (.frames sequential none { depth := pixelFrame 1 })

theorem isSome_afterFrame : afterFrame.isSome = true := by
  decide +kernel

/-- The points that are sent. -/
def sentPoints (outcome : Except PointFault (Option (PointCloudData ℚ))) : Option (Points ℚ) :=
  match outcome with
  | .ok (some cloud) => some cloud.points
  | _ => none

/-- What is sent for a frame with another spec translation, and what a new node sends. -/
theorem sentPoints_afterFrame : afterFrame.map (fun session =>
    (sentPoints ((session.node.round session.pipeline sequential none
      { depth := pixelFrame 2 }).map Prod.snd),
    sentPoints (((Node.start onCPU (session.node.takeConfig none).latestConfig
      session.pipeline).round session.pipeline sequential none { depth := pixelFrame 2 }).map
        Prod.snd))) = some (some (.plain [⟨1, 0, 5⟩]), some (.plain [⟨2, 0, 5⟩])) := by
  decide +kernel

theorem kept_afterFrame {session : Session ℚ} (h : afterFrame = some session) :
    session.node.lastTransformation = some (pixelFrame 1).transformation ∧
      session.origin = some (pixelFrame 1) := by
  obtain ⟨node, cloud, hround, rfl⟩ := next_frames h
  obtain ⟨ready, hready, hround⟩ := Loop.bind_eq_ok.1 hround
  obtain ⟨sent, -, hround⟩ := Loop.bind_eq_ok.1 hround
  cases hround
  exact ⟨ready_lastTransformation hready, rfl⟩

/-- Frames that differ in the spec translation compare as the same. -/
theorem exact_afterFrame {session : Session ℚ} (h : afterFrame = some session) (spec : ℚ) :
    session.Exact (.frames sequential none { depth := pixelFrame spec }) := by
  intro last hlast _
  rw [(kept_afterFrame h).1] at hlast
  cases hlast
  exact ⟨rfl, rfl, rfl, rfl⟩

/-- A second frame like the first. -/
theorem right_of_run_pixel : ∃ session, afterFrame = some session ∧
    session.Right onCPU (.frames sequential none { depth := pixelFrame 1 }) := by
  obtain ⟨session, h⟩ := Option.isSome_iff_exists.1 isSome_afterFrame
  refine ⟨session, h, Session.right_of_run (.single h) ?_ ?_ (exact_afterFrame h 1) ⟨?_, ?_⟩⟩
  · intro p hp
    obtain rfl := List.mem_singleton.1 hp
    exact start_exact ..
  · intro p hp
    obtain rfl := List.mem_singleton.1 hp
    exact ⟨fun hinitialized => absurd hinitialized (start_check _ _ _ _ _), fun _ => by decide⟩
  · intro _ origin horigin
    rw [(kept_afterFrame h).2] at horigin
    cases horigin
    exact ⟨rfl, rfl, fun _ => rfl⟩
  · exact fun _ => by decide

/-- **A frame with another spec translation gets the cloud of the one before.** -/
theorem not_right_of_run : ¬∀ (base : Impl ℚ) (config : PointCloudConfig ℚ) (pipeline : Pipeline ℚ)
    (trace : List (Session ℚ × Event ℚ)) (session : Session ℚ) (event : Event ℚ),
    Transition.Run Session.next (.start base config pipeline) trace session →
      (∀ p ∈ trace, p.1.Exact p.2) → session.Exact event → session.Right base event := by
  intro hall
  obtain ⟨session, h⟩ := Option.isSome_iff_exists.1 isSome_afterFrame
  have hright := hall _ _ _ _ session _ (.single h) (by
    intro p hp
    obtain rfl := List.mem_singleton.1 hp
    exact start_exact ..) (exact_afterFrame h 2)
  have hpoints := sentPoints_afterFrame
  rw [h, Option.map_some, Option.some.injEq, Prod.mk.injEq] at hpoints
  have hsame := congrArg sentPoints (hright.1 sequential)
  exact absurd (hpoints.1.symm.trans (hsame.trans hpoints.2)) (by decide +kernel)

end PointCloud

end DepthaiCore
