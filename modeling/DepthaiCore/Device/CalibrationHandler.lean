import DepthaiCore.Common.Extrinsics
import DepthaiCore.Lib.Whiles
import DepthaiCore.Utility.MatrixRows

/-!
# The calibration handler

Every camera of the calibration has its pose relative to another camera, or it is an origin, with a
link to `AUTO`. The pose of one camera relative to another is put together from the walks of both
to their origins, which have to be the same.

The walks follow links for as long as there are any. They take at most `fuel` rounds here, and are
pending when these are used up.
-/

namespace DepthaiCore

open MatrixOps

inductive HousingCoordinateSystem
  | AUTO
  | CAM_A | CAM_B | CAM_C | CAM_D | CAM_E | CAM_F | CAM_G | CAM_H | CAM_I | CAM_J
  | FRONT_CAM_A | FRONT_CAM_B | FRONT_CAM_C | FRONT_CAM_D | FRONT_CAM_E
  | FRONT_CAM_F | FRONT_CAM_G | FRONT_CAM_H | FRONT_CAM_I | FRONT_CAM_J
  | VESA_A | VESA_B | VESA_C | VESA_D | VESA_E | VESA_F | VESA_G | VESA_H | VESA_I | VESA_J
  | IMU
  deriving DecidableEq, Repr

/-- The cast from a camera socket. The two enumerations go on differently after `CAM_J`. -/
def CameraBoardSocket.toHousing : CameraBoardSocket → HousingCoordinateSystem
  | .AUTO => .AUTO
  | .CAM_A => .CAM_A
  | .CAM_B => .CAM_B
  | .CAM_C => .CAM_C
  | .CAM_D => .CAM_D
  | .CAM_E => .CAM_E
  | .CAM_F => .CAM_F
  | .CAM_G => .CAM_G
  | .CAM_H => .CAM_H
  | .CAM_I => .CAM_I
  | .CAM_J => .CAM_J
  | .CBA => .FRONT_CAM_A

structure CameraInfo (K : Type) where
  extrinsics : Extrinsics K
  deriving DecidableEq, Repr

/-- `EepromData`. The cameras are in the order in which the map is gone through. -/
structure EepromData (K : Type) where
  version : ℕ
  productName : String
  cameraData : List (CameraBoardSocket × CameraInfo K)
  housingExtrinsics : Extrinsics K
  nodup : (cameraData.map Prod.fst).Nodup

inductive ExtrinsicGraphError
  | None | CycleDetected | DanglingReference | DisconnectedGraph
  deriving DecidableEq, Repr

structure ExtrinsicGraphValidationResult where
  error : ExtrinsicGraphError := .None
  atSocket : CameraBoardSocket := .AUTO
  toSocket : CameraBoardSocket := .AUTO
  deriving DecidableEq, Repr

section Handler

variable {K : Type}

def EepromData.find (d : EepromData K) (cameraId : CameraBoardSocket) : Option (CameraInfo K) :=
  d.cameraData.lookup cameraId

/-- The cameras of the map. -/
def EepromData.cameras (d : EepromData K) : List CameraBoardSocket :=
  d.cameraData.map Prod.fst

/-- A `std::runtime_error`. -/
def runtimeError {α : Type} (what : String) : Except (Stop Failure) α :=
  .error (.throws (.runtimeError what))

namespace CalibrationHandler

/-! ### The walk to the origin -/

variable (d : EepromData K)

def hasCalibrationData : Bool :=
  4 ≤ d.version && !d.cameraData.isEmpty

def hasCameraCalibration (cameraId : CameraBoardSocket) : Bool :=
  hasCalibrationData d && (d.find cameraId).isSome

/-- One round of the loop of `getExtrinsicsToOrigin`. -/
def originStep (s : CameraBoardSocket × List CameraBoardSocket) :
    Except (Stop Failure) (CameraBoardSocket × List CameraBoardSocket ⊕ CameraBoardSocket) :=
  let currentCameraId := s.1
  let path := s.2
  match d.find currentCameraId with
  | none => runtimeError "Invalid camera link detected."
  | some info =>
    let nextCameraSocket := info.extrinsics.toCameraSocket
    if nextCameraSocket ∈ path then
      runtimeError "Cyclic extrinsics detected in device calibration data."
    else if nextCameraSocket = .AUTO then .ok (.inr currentCameraId)
    else .ok (.inl (nextCameraSocket, path ++ [nextCameraSocket]))

section Field

variable [Field K] [DecidableEq K]

/-- The matrix of one link, as `computeExtrinsicMatrix` writes it down in both branches. -/
def transformationMatrix (extrinsics : Extrinsics K) (useSpecTranslation : Bool) :
    Except (Stop Failure) (List (List K)) :=
  if useSpecTranslation then
    let mTrans := extrinsics.specTranslation
    if mTrans.x = 0 ∧ mTrans.y = 0 ∧ mTrans.z = 0 then
      runtimeError "Cannot use useSpecTranslation argument since specTranslation has {0, 0, 0}"
    else .ok (pushTranslation extrinsics.rotationMatrix mTrans)
  else .ok (pushTranslation extrinsics.rotationMatrix extrinsics.translation)

def computeExtrinsicMatrix :
    ℕ → CameraBoardSocket → CameraBoardSocket → Bool → Except (Stop Failure) (List (List K))
  | 0, _, _, _ => .error .pending
  | fuel + 1, srcCamera, dstCamera, useSpecTranslation =>
    if srcCamera = .AUTO ∨ dstCamera = .AUTO then runtimeError "Invalid cameraId input.."
    else if !hasCameraCalibration d srcCamera then
      runtimeError
        "There is no Camera data available corresponding to the requested source cameraId"
    else if !hasCameraCalibration d dstCamera then
      runtimeError
        "There is no Camera data available corresponding to the requested destination cameraId"
    else
      match d.find srcCamera with
      | none => runtimeError "unordered_map::at"
      | some info =>
        if info.extrinsics.toCameraSocket = dstCamera then
          if info.extrinsics.rotationMatrix.length = 0 ∨
              info.extrinsics.toCameraSocket = .AUTO then
            runtimeError ("Defined Extrinsic conenction but rotation matrix is not available. " ++
              "Please cross check your calibration data configuration.")
          else transformationMatrix info.extrinsics useSpecTranslation
        else do
          let destTransformationMatrixCurr ←
            computeExtrinsicMatrix fuel info.extrinsics.toCameraSocket dstCamera useSpecTranslation
          let currTransformationMatrixSrc ←
            transformationMatrix info.extrinsics useSpecTranslation
          Stop.lift (matMulRows destTransformationMatrixCurr currTransformationMatrixSrc)

variable (fuel : ℕ)

/-- `CalibrationHandler::getExtrinsicsToOrigin`, with the origin that it finds. -/
def getExtrinsicsToOrigin (cameraId : CameraBoardSocket) (useSpecTranslation : Bool) :
    Except (Stop Failure) (List (List K) × CameraBoardSocket) :=
  if (d.find cameraId).isNone then
    runtimeError "Camera ID does not exist in the calibration data."
  else do
    let originSocket ← Whiles.loop (originStep d) fuel (cameraId, [cameraId])
    if cameraId = originSocket then
      return ([[1, 0, 0, 0], [0, 1, 0, 0], [0, 0, 1, 0], [0, 0, 0, 1]], originSocket)
    else
      let extrinsics ← computeExtrinsicMatrix d fuel cameraId originSocket useSpecTranslation
      return (extrinsics, originSocket)

/-- `CalibrationHandler::scaleTranslationInPlace`. The translations are in centimeters. -/
def scaleTranslationInPlace (mat : List (List K)) (unit : LengthUnit) : List (List K) :=
  let myUnits := LengthUnit.CENTIMETER
  let scale : K := getLengthUnitMultiplier unit / getLengthUnitMultiplier myUnits
  if scale = 1 then mat else scaleTranslation mat scale

def getCameraExtrinsics (srcCamera dstCamera : CameraBoardSocket)
    (useSpecTranslation : Bool := false) (unit : LengthUnit := .CENTIMETER) :
    Except (Stop Failure) (List (List K)) :=
  if !hasCameraCalibration d srcCamera then
    runtimeError "There is no Camera data available corresponding to the requested source cameraId"
  else if !hasCameraCalibration d dstCamera then
    runtimeError
      "There is no Camera data available corresponding to the requested destination cameraId"
  else do
    let (srcOriginMatrix, originCamera1) ←
      getExtrinsicsToOrigin d fuel srcCamera useSpecTranslation
    let (dstOriginMatrix, originCamera2) ←
      getExtrinsicsToOrigin d fuel dstCamera useSpecTranslation
    if originCamera1 ≠ originCamera2 then
      runtimeError "Missing extrinsic link from source camera to to destination camera."
    else
      let dstOriginMatrix ← Stop.lift (invertSe3Matrix4x4InPlace dstOriginMatrix)
      let extrinsics ← Stop.lift (matMulRows dstOriginMatrix srcOriginMatrix)
      return scaleTranslationInPlace extrinsics unit

/-! ### The check of the links -/

/-- One round of the loop of `validateExtrinsicGraph` along the links: the error that it returns, or
none at an origin. -/
def validateStep (s : CameraBoardSocket × List CameraBoardSocket) :
    Except (Stop Failure)
      (CameraBoardSocket × List CameraBoardSocket ⊕ Option ExtrinsicGraphValidationResult) :=
  let current := s.1
  let localVisited := s.2
  match d.find current with
  | none => runtimeError "unordered_map::at"
  | some info =>
    let toCameraSocket := info.extrinsics.toCameraSocket
    if current ∈ localVisited then
      .ok (.inr (some { error := .CycleDetected, atSocket := current, toSocket := toCameraSocket }))
    else if toCameraSocket = .AUTO then .ok (.inr none)
    else if (d.find toCameraSocket).isNone then
      .ok (.inr (some
        { error := .DanglingReference, atSocket := current, toSocket := toCameraSocket }))
    else .ok (.inl (toCameraSocket, current :: localVisited))

/-- The loop of `validateExtrinsicGraph` over the cameras, with what `originMap` holds. -/
def validateCameras :
    List (CameraBoardSocket × CameraBoardSocket) → List CameraBoardSocket →
      Except (Stop Failure)
        (ExtrinsicGraphValidationResult ⊕ List (CameraBoardSocket × CameraBoardSocket))
  | originMap, [] => .ok (.inr originMap)
  | originMap, start :: cameras => do
    match ← Whiles.loop (validateStep d) fuel (start, []) with
    | some result => return .inl result
    | none =>
      let (_, originCamera) ← getExtrinsicsToOrigin d fuel start false
      validateCameras (originMap ++ [(start, originCamera)]) cameras

/-- The last check of `validateExtrinsicGraph`. -/
def validateOrigins (originMap : List (CameraBoardSocket × CameraBoardSocket)) :
    ExtrinsicGraphValidationResult :=
  match originMap with
  | [] => {}
  | (_, expectedOrigin) :: _ =>
    match originMap.find? fun kv => kv.2 ≠ expectedOrigin with
    | some (_, camOrigin) =>
      { error := .DisconnectedGraph, atSocket := camOrigin, toSocket := expectedOrigin }
    | none => {}

def validateExtrinsicGraph : Except (Stop Failure) ExtrinsicGraphValidationResult := do
  match ← validateCameras d fuel [] d.cameras with
  | .inl result => return result
  | .inr originMap => return validateOrigins originMap

/-! ### The housing -/

/-- `lookupHousingEntry`, with the table of the coordinates. -/
def lookupHousingEntry
    (getHousingCoordinates : String → HousingCoordinateSystem → Option (Point3f K))
    (productName : String) (housingCs : HousingCoordinateSystem) : Option (Point3f K) :=
  if productName.isEmpty then none else getHousingCoordinates productName housingCs

/-- The scale from millimeters to centimeters. -/
def MM_TO_CM_SCALE : K :=
  getLengthUnitMultiplier .MILLIMETER / getLengthUnitMultiplier .CENTIMETER

variable (getHousingCoordinates : String → HousingCoordinateSystem → Option (Point3f K))

/-- The translation of the housing that `getHousingToHousingOrigin` takes. -/
def housingTranslation (useSpecTranslation : Bool) : Except (Stop Failure) (Point3f K) :=
  let housingExtrinsics := d.housingExtrinsics
  let housingOrigin := housingExtrinsics.toCameraSocket.toHousing
  if useSpecTranslation then
    match lookupHousingEntry getHousingCoordinates d.productName housingOrigin with
    | some dbTranslation => do
      let c := [[-dbTranslation.x / MM_TO_CM_SCALE], [-dbTranslation.y / MM_TO_CM_SCALE],
        [-dbTranslation.z / MM_TO_CM_SCALE]]
      let rc ← Stop.lift (matMulRows housingExtrinsics.rotationMatrix c)
      return ⟨entry rc 0 0, entry rc 1 0, entry rc 2 0⟩
    | none => .ok housingExtrinsics.specTranslation
  else .ok housingExtrinsics.translation

/-- `CalibrationHandler::getHousingToHousingOrigin`, with the camera that it goes to. -/
def getHousingToHousingOrigin (housingCS : HousingCoordinateSystem) (useSpecTranslation : Bool) :
    Except (Stop Failure) (List (List K) × CameraBoardSocket) := do
  let r := entry d.housingExtrinsics.rotationMatrix
  let t ← housingTranslation d getHousingCoordinates useSpecTranslation
  let housingToHousingOrigin :=
    [[r 0 0, r 0 1, r 0 2, t.x],
     [r 1 0, r 1 1, r 1 2, t.y],
     [r 2 0, r 2 1, r 2 2, t.z],
     [0, 0, 0, 1]]
  let requestedDbTranslation :=
    if useSpecTranslation ∧ housingCS ≠ .AUTO then
      lookupHousingEntry getHousingCoordinates d.productName housingCS
    else none
  match requestedDbTranslation with
  | some p =>
    let specificHousingToHousing :=
      [[1, 0, 0, p.x / MM_TO_CM_SCALE],
       [0, 1, 0, p.y / MM_TO_CM_SCALE],
       [0, 0, 1, p.z / MM_TO_CM_SCALE],
       [0, 0, 0, 1]]
    let product ← Stop.lift (matMulRows housingToHousingOrigin specificHousingToHousing)
    return (product, d.housingExtrinsics.toCameraSocket)
  | none => return (housingToHousingOrigin, d.housingExtrinsics.toCameraSocket)

def getHousingCalibration (srcCamera : CameraBoardSocket) (housingCS : HousingCoordinateSystem)
    (useSpecTranslation : Bool := false) (unit : LengthUnit := .CENTIMETER) :
    Except (Stop Failure) (List (List K)) :=
  if (d.find srcCamera).isNone then
    runtimeError "There is no Camera data available corresponding to the requested source cameraId"
  else do
    let (housingToHousingOrigin, housingOriginCamera) ←
      getHousingToHousingOrigin d getHousingCoordinates housingCS useSpecTranslation
    let (housingOriginToOrigin, originCamera1) ←
      getExtrinsicsToOrigin d fuel housingOriginCamera useSpecTranslation
    let (camToOrigin, originCamera2) ← getExtrinsicsToOrigin d fuel srcCamera useSpecTranslation
    if originCamera1 ≠ originCamera2 then
      runtimeError "Missing extrinsic link from source camera to destination camera."
    else
      let originToHousingOrigin ← Stop.lift (invertSe3Matrix4x4InPlace housingOriginToOrigin)
      let housingOriginToHousing ← Stop.lift (invertSe3Matrix4x4InPlace housingToHousingOrigin)
      let camToHousingOrigin ← Stop.lift (matMulRows originToHousingOrigin camToOrigin)
      let camToHousing ← Stop.lift (matMulRows housingOriginToHousing camToHousingOrigin)
      return scaleTranslationInPlace camToHousing unit

end Field

end CalibrationHandler

end Handler

end DepthaiCore
