import DepthaiCore.Device.ExtrinsicGraph

/-!
# Rotations that are not there

The calibration may have a rotation without rows, or with fewer than three. Their rows are written
to without a check. Here a row that is not there is a fault, so that an evaluation may return,
throw, run into this fault or go on for ever.

The matrices of a route over the links are put together from its end. Which of them are written to
depends on the shapes alone, and so does whether there is a product.
-/

namespace DepthaiCore

open MatrixOps

section Queries

variable {K : Type}

namespace CalibrationHandler

namespace Checked

/-- A `std::runtime_error`. -/
def runtimeError {α : Type} (what : String) : Except (Stop RowFault) α :=
  .error (.throws (.failure (.runtimeError what)))

/-- The outcome of something that has no index outside. -/
def lift {α : Type} (x : Except Failure α) : Except (Stop RowFault) α :=
  x.mapError fun what => .throws (.failure what)

/-- The outcome of a loop that has no index outside. -/
def liftStop {α : Type} (x : Except (Stop Failure) α) : Except (Stop RowFault) α :=
  x.mapError fun
    | .throws what => .throws (.failure what)
    | .pending => .pending

/-- `matrix[i].push_back(x)`. -/
def pushBack (matrix : List (List K)) (i : ℕ) (x : K) : Except (Stop RowFault) (List (List K)) :=
  if i < matrix.length then .ok (matrix.modify i (· ++ [x])) else .error (.throws .outside)

section Field

variable [Field K] [DecidableEq K] (d : EepromData K)

/-- A translation pushed behind the rows of a rotation, and the last row below them. -/
def pushTranslation (rotation : List (List K)) (translation : Point3f K) :
    Except (Stop RowFault) (List (List K)) := do
  let transformationMatrix ← pushBack rotation 0 translation.x
  let transformationMatrix ← pushBack transformationMatrix 1 translation.y
  let transformationMatrix ← pushBack transformationMatrix 2 translation.z
  return transformationMatrix ++ [[0, 0, 0, 1]]

/-- The matrix of one link, as `computeExtrinsicMatrix` writes it down in both branches. -/
def transformationMatrix (extrinsics : Extrinsics K) (useSpecTranslation : Bool) :
    Except (Stop RowFault) (List (List K)) :=
  if useSpecTranslation then
    let mTrans := extrinsics.specTranslation
    if mTrans.x = 0 ∧ mTrans.y = 0 ∧ mTrans.z = 0 then
      runtimeError "Cannot use useSpecTranslation argument since specTranslation has {0, 0, 0}"
    else pushTranslation extrinsics.rotationMatrix mTrans
  else pushTranslation extrinsics.rotationMatrix extrinsics.translation

def computeExtrinsicMatrix :
    ℕ → CameraBoardSocket → CameraBoardSocket → Bool → Except (Stop RowFault) (List (List K))
  | 0, _, _, _ => .error .pending
  | fuel + 1, srcCamera, dstCamera, useSpecTranslation =>
    if srcCamera = .AUTO ∨ dstCamera = .AUTO then runtimeError "Invalid cameraId input.."
    else if !hasCameraCalibration d srcCamera then
      runtimeError
        "There is no Camera data available corresponding to the requested source cameraId"
    else if !hasCameraCalibration d dstCamera then
      runtimeError
        "There is no Camera data available corresponding to the requested destination cameraId"
    else
      match d.find srcCamera with
      | none => runtimeError "unordered_map::at"
      | some info =>
        if info.extrinsics.toCameraSocket = dstCamera then
          if info.extrinsics.rotationMatrix.length = 0 ∨
              info.extrinsics.toCameraSocket = .AUTO then
            runtimeError ("Defined Extrinsic conenction but rotation matrix is not available. " ++
              "Please cross check your calibration data configuration.")
          else transformationMatrix info.extrinsics useSpecTranslation
        else do
          let destTransformationMatrixCurr ←
            computeExtrinsicMatrix fuel info.extrinsics.toCameraSocket dstCamera useSpecTranslation
          let currTransformationMatrixSrc ←
            transformationMatrix info.extrinsics useSpecTranslation
          lift (matMulRows destTransformationMatrixCurr currTransformationMatrixSrc)

variable (fuel : ℕ)

/-- `CalibrationHandler::getExtrinsicsToOrigin`, with the origin that it finds. -/
def getExtrinsicsToOrigin (cameraId : CameraBoardSocket) (useSpecTranslation : Bool) :
    Except (Stop RowFault) (List (List K) × CameraBoardSocket) :=
  if (d.find cameraId).isNone then
    runtimeError "Camera ID does not exist in the calibration data."
  else do
    let originSocket ← liftStop (Whiles.loop (originStep d) fuel (cameraId, [cameraId]))
    if cameraId = originSocket then
      return ([[1, 0, 0, 0], [0, 1, 0, 0], [0, 0, 1, 0], [0, 0, 0, 1]], originSocket)
    else
      let extrinsics ← computeExtrinsicMatrix d fuel cameraId originSocket useSpecTranslation
      return (extrinsics, originSocket)

/-- `CalibrationHandler::scaleTranslationInPlace`, which writes to `mat[i][3]`. -/
def scaleTranslationInPlace (mat : List (List K)) (unit : LengthUnit) :
    Except (Stop RowFault) (List (List K)) :=
  let myUnits := LengthUnit.CENTIMETER
  let scale : K := getLengthUnitMultiplier unit / getLengthUnitMultiplier myUnits
  if scale = 1 then .ok mat
  else
    (List.range 3).foldlM (fun mat i =>
      if 3 < (mat.getD i []).length then .ok (mat.modify i fun row => row.modify 3 (· * scale))
      else .error (.throws .outside)) mat

def getCameraExtrinsics (srcCamera dstCamera : CameraBoardSocket) (useSpecTranslation : Bool)
    (unit : LengthUnit) : Except (Stop RowFault) (List (List K)) :=
  if !hasCameraCalibration d srcCamera then
    runtimeError "There is no Camera data available corresponding to the requested source cameraId"
  else if !hasCameraCalibration d dstCamera then
    runtimeError
      "There is no Camera data available corresponding to the requested destination cameraId"
  else do
    let (srcOriginMatrix, originCamera1) ←
      getExtrinsicsToOrigin d fuel srcCamera useSpecTranslation
    let (dstOriginMatrix, originCamera2) ←
      getExtrinsicsToOrigin d fuel dstCamera useSpecTranslation
    if originCamera1 ≠ originCamera2 then
      runtimeError "Missing extrinsic link from source camera to to destination camera."
    else
      let dstOriginMatrix ← lift (invertSe3Matrix4x4InPlace dstOriginMatrix)
      let extrinsics ← lift (matMulRows dstOriginMatrix srcOriginMatrix)
      scaleTranslationInPlace extrinsics unit

end Field

end Checked

/-- One round of the loop of `checkExtrinsicsLink`. -/
def checkExtrinsicsLinkStep (d : EepromData K) (dstCamera : CameraBoardSocket)
    (currentCameraId : CameraBoardSocket) : Except (Stop RowFault) (CameraBoardSocket ⊕ Bool) :=
  if currentCameraId = .AUTO then .ok (.inr false)
  else
    match d.find currentCameraId with
    | none => .ok (.inr false)
    | some info =>
      let currentCameraId := info.extrinsics.toCameraSocket
      if currentCameraId = dstCamera then .ok (.inr true) else .ok (.inl currentCameraId)

def checkExtrinsicsLink (d : EepromData K) (fuel : ℕ) (srcCamera dstCamera : CameraBoardSocket) :
    Except (Stop RowFault) Bool :=
  if !hasCameraCalibration d srcCamera ∨ !hasCameraCalibration d dstCamera then .ok false
  else Whiles.loop (checkExtrinsicsLinkStep d dstCamera) fuel srcCamera

end CalibrationHandler

/-! ### Where the links lead -/

namespace EepromData

variable (d : EepromData K) {a b c : CameraBoardSocket}

/-- One camera is linked to another. -/
def Linked (a b : CameraBoardSocket) : Prop := d.link a = some (some b)

/-- The links end: they come to a camera that is not there, to an origin or to one that is linked to
the destination. -/
def Ends (b a : CameraBoardSocket) : Prop :=
  ∃ c, Relation.ReflTransGen d.Linked a c ∧
    (d.link c = none ∨ d.link c = some none ∨ d.link c = some (some b))

/-- The route over the links to the destination, which is not met before its end. -/
inductive Route (b : CameraBoardSocket) : CameraBoardSocket → List (Extrinsics K) → Prop
  | last {a info} (ha : a ≠ .AUTO) (hfind : d.find a = some info)
      (hto : info.extrinsics.toCameraSocket = b) : Route b a [info.extrinsics]
  | link {a info l} (ha : a ≠ .AUTO) (hfind : d.find a = some info)
      (hto : info.extrinsics.toCameraSocket ≠ b)
      (hl : Route b info.extrinsics.toCameraSocket l) : Route b a (info.extrinsics :: l)

end EepromData

/-! ### The shapes along a route -/

section Shapes

variable [Field K] [DecidableEq K] (useSpec : Bool)

/-- The translation that is asked for is there: the one of the design must not be zero. -/
def Extrinsics.HasTranslation (e : Extrinsics K) : Prop :=
  useSpec = true → ¬(e.specTranslation.x = 0 ∧ e.specTranslation.y = 0 ∧ e.specTranslation.z = 0)

/-- Behind the first three rows a translation has room: with it all rows have four elements. -/
def Extrinsics.FourColumns (e : Extrinsics K) : Prop :=
  ∀ (i : ℕ) (row : List K), e.rotationMatrix[i]? = some row →
    row.length = if i < 3 then 3 else 4

/-- The matrices of a route can be written down and multiplied. -/
def Composes : List (Extrinsics K) → Prop
  | [] => True
  | [e] => e.HasTranslation useSpec ∧ 3 ≤ e.rotationMatrix.length
  | e :: e' :: l => Composes (e' :: l) ∧ e.HasTranslation useSpec ∧
      IsThreeByThree e.rotationMatrix ∧ ((e' :: l).getLast (List.cons_ne_nil _ _)).FourColumns

/-- Wherever rows are written to, there are three of them. Nothing is written if the rest of the
route cannot be composed, if there is no translation, or in the first place to an empty matrix. -/
def InBounds : List (Extrinsics K) → Prop
  | [] => True
  | e :: l => InBounds l ∧ (Composes useSpec l → e.HasTranslation useSpec →
      (l = [] ∧ e.rotationMatrix = []) ∨ 3 ≤ e.rotationMatrix.length)

end Shapes

/-! ### Outcomes -/

/-- The evaluation returns or throws. -/
def Answered {α : Type} (x : Except (Stop RowFault) α) : Prop :=
  x ≠ .error .pending ∧ x ≠ .error (.throws .outside)

section Outcomes

variable {α β : Type}

theorem answered_ok (a : α) : Answered (.ok a) := ⟨nofun, nofun⟩

theorem answered_runtimeError (what : String) :
    Answered (CalibrationHandler.Checked.runtimeError what : Except (Stop RowFault) α) :=
  ⟨nofun, nofun⟩

theorem answered_lift (x : Except Failure α) : Answered (CalibrationHandler.Checked.lift x) := by
  cases x with
  | error what => exact ⟨nofun, nofun⟩
  | ok a => exact answered_ok a

theorem not_answered_outside :
    ¬Answered (.error (.throws .outside) : Except (Stop RowFault) α) :=
  fun h => h.2 rfl

theorem not_answered_pending : ¬Answered (.error .pending : Except (Stop RowFault) α) :=
  fun h => h.1 rfl

theorem answered_bind {x : Except (Stop RowFault) α} {g : α → Except (Stop RowFault) β} :
    Answered (x >>= g) ↔ Answered x ∧ ∀ a, x = .ok a → Answered (g a) := by
  cases x with
  | error e =>
    constructor
    · rintro ⟨hpending, houtside⟩
      exact ⟨⟨fun h => hpending (by cases h; rfl), fun h => houtside (by cases h; rfl)⟩, nofun⟩
    · rintro ⟨⟨hpending, houtside⟩, -⟩
      exact ⟨fun h => hpending (by cases h; rfl), fun h => houtside (by cases h; rfl)⟩
  | ok a =>
    rw [Loop.ok_bind]
    exact ⟨fun h => ⟨answered_ok a, fun _ ha => by cases ha; exact h⟩, fun h => h.2 a rfl⟩

theorem lift_eq_ok {x : Except Failure α} {a : α} :
    CalibrationHandler.Checked.lift x = .ok a ↔ x = .ok a := by
  cases x <;> simp [CalibrationHandler.Checked.lift, Except.mapError]

theorem liftStop_eq_ok {x : Except (Stop Failure) α} {a : α} :
    CalibrationHandler.Checked.liftStop x = .ok a ↔ x = .ok a := by
  cases x <;> simp [CalibrationHandler.Checked.liftStop, Except.mapError]

theorem answered_liftStop {x : Except (Stop Failure) α} :
    Answered (CalibrationHandler.Checked.liftStop x) ↔ x ≠ .error .pending := by
  rcases x with (what | _) | a
  · exact iff_of_true ⟨nofun, nofun⟩ (by simp)
  · exact iff_of_false not_answered_pending (by simp)
  · exact iff_of_true (answered_ok a) (by simp)

end Outcomes

/-! ### The matrices along a route -/

namespace CalibrationHandler

namespace Checked

variable [Field K] [DecidableEq K]

/-- A matrix with a column, and with a row of four elements. -/
def Proper (M : List (List K)) : Prop :=
  ∃ b B, M = b :: B ∧ 0 < b.length ∧ ∃ row ∈ M, row.length = 4

omit [DecidableEq K] in
theorem pushTranslation_eq (rotation : List (List K)) (translation : Point3f K) :
    pushTranslation rotation translation =
      if 3 ≤ rotation.length then .ok (MatrixOps.pushTranslation rotation translation)
      else .error (.throws .outside) := by
  match rotation with
  | [] => rfl
  | [_] => rfl
  | [_, _] => rfl
  | _ :: _ :: _ :: _ =>
    rw [if_pos (by simp)]
    simp [pushTranslation, pushBack, MatrixOps.pushTranslation, Loop.ok_bind, pure, Except.pure]

omit [DecidableEq K] in
theorem proper_pushTranslation {rotation : List (List K)} (h : 3 ≤ rotation.length)
    (translation : Point3f K) : Proper (MatrixOps.pushTranslation rotation translation) := by
  match rotation with
  | _ :: _ :: _ :: _ =>
    refine ⟨_, _, rfl, by simp, [0, 0, 0, 1], ?_, rfl⟩
    simp [MatrixOps.pushTranslation]

omit [DecidableEq K] in
theorem length_pushTranslation_iff {e : Extrinsics K} (h : 3 ≤ e.rotationMatrix.length)
    (translation : Point3f K) :
    (∀ row ∈ MatrixOps.pushTranslation e.rotationMatrix translation, row.length = 4) ↔
      e.FourColumns := by
  unfold Extrinsics.FourColumns
  generalize e.rotationMatrix = rotation at h ⊢
  match rotation with
  | r0 :: r1 :: r2 :: rest =>
    have hpush : (∀ row ∈ MatrixOps.pushTranslation (r0 :: r1 :: r2 :: rest) translation,
        row.length = 4) ↔ r0.length = 3 ∧ r1.length = 3 ∧ r2.length = 3 ∧
          ∀ row ∈ rest, row.length = 4 := by
      simp [MatrixOps.pushTranslation, or_imp, forall_and]
    rw [hpush]
    constructor
    · rintro ⟨h0, h1, h2, hrest⟩ i row hi
      match i with
      | 0 => cases hi; exact h0
      | 1 => cases hi; exact h1
      | 2 => cases hi; exact h2
      | i + 3 =>
        rw [if_neg (by omega)]
        exact hrest row (List.mem_of_getElem? hi)
    · intro hall
      refine ⟨hall 0 r0 rfl, hall 1 r1 rfl, hall 2 r2 rfl, fun row hrow => ?_⟩
      obtain ⟨i, hi⟩ := List.mem_iff_getElem?.1 hrow
      have hlength := hall (i + 3) row hi
      rwa [if_neg (by omega)] at hlength

variable {useSpec : Bool} {e : Extrinsics K}

theorem transformationMatrix_of_not (h : ¬e.HasTranslation useSpec) :
    ∃ what, transformationMatrix e useSpec = runtimeError what := by
  unfold Extrinsics.HasTranslation at h
  push Not at h
  rw [transformationMatrix, if_pos h.1]
  exact ⟨_, if_pos h.2⟩

theorem transformationMatrix_eq (h : e.HasTranslation useSpec) :
    ∃ translation, transformationMatrix e useSpec = pushTranslation e.rotationMatrix translation := by
  rw [transformationMatrix]
  split
  case isTrue huse => exact ⟨_, if_neg (h huse)⟩
  case isFalse => exact ⟨_, rfl⟩

omit [DecidableEq K] in
/-- **Which of these matrices can be multiplied.** -/
theorem exists_matMulRows_iff {M C : List (List K)} (hM : Proper M) (hC : Proper C) :
    (∃ R, matMulRows M C = .ok R) ↔
      C.length = 4 ∧ (∀ row ∈ M, row.length = 4) ∧ ∀ row ∈ C, row.length = 4 := by
  obtain ⟨a, A, rfl, -, r, hr, hr4⟩ := hM
  obtain ⟨b, B, rfl, hb, r', hr', hr4'⟩ := hC
  rw [MatrixOps.exists_matMulRows_iff hb]
  constructor
  · rintro ⟨hrows, hcolumns⟩
    have hlength : (b :: B).length = 4 := (hrows r hr).symm.trans hr4
    have hb4 : b.length = 4 := (hcolumns r' hr').symm.trans hr4'
    exact ⟨hlength, fun row hrow => (hrows row hrow).trans hlength,
      fun row hrow => (hcolumns row hrow).trans hb4⟩
  · rintro ⟨hlength, hrows, hcolumns⟩
    exact ⟨fun row hrow => (hrows row hrow).trans hlength.symm,
      fun row hrow => (hcolumns row hrow).trans (hcolumns b List.mem_cons_self).symm⟩

omit [DecidableEq K] in
theorem length_of_matMulRows {M C R : List (List K)} (hM : Proper M) (hC : Proper C)
    (h : matMulRows M C = .ok R) : R.length = M.length ∧ ∀ row ∈ R, row.length = 4 := by
  have hcolumns := ((exists_matMulRows_iff hM hC).1 ⟨R, h⟩).2.2
  obtain ⟨b, B, rfl, -, -⟩ := hC
  obtain ⟨hlength, hrows⟩ := shape_matMulRows h
  exact ⟨hlength, fun row hrow => (hrows row hrow).trans (hcolumns b List.mem_cons_self)⟩

omit [Field K] [DecidableEq K] in
theorem proper_of_forall {R : List (List K)} (hne : R ≠ []) (h : ∀ row ∈ R, row.length = 4) :
    Proper R := by
  obtain ⟨b, B, rfl⟩ := List.exists_cons_of_ne_nil hne
  have hb := h b List.mem_cons_self
  exact ⟨b, B, rfl, by omega, b, List.mem_cons_self, hb⟩

omit [Field K] [DecidableEq K] in
theorem isThreeByThree_iff :
    IsThreeByThree e.rotationMatrix ↔ e.rotationMatrix.length = 3 ∧ e.FourColumns := by
  unfold Extrinsics.FourColumns
  generalize e.rotationMatrix = rotation
  constructor
  · rintro ⟨hlength, h0, h1, h2⟩
    refine ⟨hlength, fun i row hi => ?_⟩
    obtain ⟨r0, r1, r2, rfl⟩ := List.length_eq_three.1 hlength
    match i with
    | 0 => cases hi; exact h0
    | 1 => cases hi; exact h1
    | 2 => cases hi; exact h2
  · rintro ⟨hlength, hall⟩
    obtain ⟨r0, r1, r2, rfl⟩ := List.length_eq_three.1 hlength
    exact ⟨hlength, hall 0 r0 rfl, hall 1 r1 rfl, hall 2 r2 rfl⟩

theorem transformationMatrix_eq_ok (h : e.HasTranslation useSpec)
    (hrows : 3 ≤ e.rotationMatrix.length) :
    ∃ C, transformationMatrix e useSpec = .ok C ∧ Proper C ∧
      C.length = e.rotationMatrix.length + 1 ∧ ((∀ row ∈ C, row.length = 4) ↔ e.FourColumns) := by
  obtain ⟨translation, htranslation⟩ := transformationMatrix_eq h
  rw [pushTranslation_eq, if_pos hrows] at htranslation
  exact ⟨_, htranslation, proper_pushTranslation hrows _, by simp [MatrixOps.pushTranslation],
    length_pushTranslation_iff hrows _⟩

theorem answered_transformationMatrix_iff :
    Answered (transformationMatrix e useSpec) ↔
      (e.HasTranslation useSpec → 3 ≤ e.rotationMatrix.length) := by
  by_cases h : e.HasTranslation useSpec
  · by_cases hrows : 3 ≤ e.rotationMatrix.length
    · obtain ⟨C, hC, -⟩ := transformationMatrix_eq_ok h hrows
      rw [hC]
      exact iff_of_true (answered_ok C) fun _ => hrows
    · obtain ⟨translation, htranslation⟩ := transformationMatrix_eq h
      rw [htranslation, pushTranslation_eq, if_neg hrows]
      exact iff_of_false not_answered_outside fun hall => hrows (hall h)
  · obtain ⟨what, hwhat⟩ := transformationMatrix_of_not h
    rw [hwhat]
    exact iff_of_true (answered_runtimeError what) fun h' => absurd h' h

theorem of_transformationMatrix_eq_ok {C : List (List K)}
    (h : transformationMatrix e useSpec = .ok C) :
    e.HasTranslation useSpec ∧ 3 ≤ e.rotationMatrix.length := by
  have htranslation : e.HasTranslation useSpec := by
    by_contra hnot
    obtain ⟨what, hwhat⟩ := transformationMatrix_of_not hnot
    rw [hwhat] at h
    cases h
  exact ⟨htranslation, answered_transformationMatrix_iff.1 (h ▸ answered_ok C) htranslation⟩

/-! ### What is returned -/

/-- What is written down is what the handler writes down. -/
theorem transformationMatrix_refines {C : List (List K)}
    (h : transformationMatrix e useSpec = .ok C) :
    CalibrationHandler.transformationMatrix e useSpec = .ok C := by
  have hrows := (of_transformationMatrix_eq_ok h).2
  simp only [transformationMatrix, pushTranslation_eq, if_pos hrows] at h
  simp only [CalibrationHandler.transformationMatrix]
  split
  case isTrue huse =>
    rw [if_pos huse] at h
    split
    case isTrue hzero =>
      rw [if_pos hzero] at h
      cases h
    case isFalse hzero =>
      rw [if_neg hzero] at h
      cases h
      rfl
  case isFalse huse =>
    rw [if_neg huse] at h
    cases h
    rfl

theorem computeExtrinsicMatrix_refines {d : EepromData K} {fuel : ℕ} {a b : CameraBoardSocket}
    {M : List (List K)} (h : computeExtrinsicMatrix d fuel a b useSpec = .ok M) :
    CalibrationHandler.computeExtrinsicMatrix d fuel a b useSpec = .ok M := by
  induction fuel generalizing a M with
  | zero => cases h
  | succ fuel ih =>
    rw [computeExtrinsicMatrix] at h
    rw [CalibrationHandler.computeExtrinsicMatrix]
    split_ifs at h ⊢
    · cases h
    · cases h
    · cases h
    · cases hfind : d.find a with
      | none =>
        rw [hfind] at h
        cases h
      | some info =>
        rw [hfind] at h
        dsimp only at h ⊢
        split_ifs at h ⊢
        · cases h
        · exact transformationMatrix_refines h
        · obtain ⟨M', hM', h⟩ := Loop.bind_eq_ok.1 h
          obtain ⟨C, hC, h⟩ := Loop.bind_eq_ok.1 h
          rw [ih hM', Loop.ok_bind, transformationMatrix_refines hC, Loop.ok_bind, lift_eq_ok.1 h]
          rfl

theorem getExtrinsicsToOrigin_refines {d : EepromData K} {fuel : ℕ} {a : CameraBoardSocket}
    {r : List (List K) × CameraBoardSocket} (h : getExtrinsicsToOrigin d fuel a useSpec = .ok r) :
    CalibrationHandler.getExtrinsicsToOrigin d fuel a useSpec = .ok r := by
  rw [getExtrinsicsToOrigin] at h
  rw [CalibrationHandler.getExtrinsicsToOrigin]
  split_ifs at h ⊢
  · cases h
  · obtain ⟨o, ho, h⟩ := Loop.bind_eq_ok.1 h
    rw [liftStop_eq_ok.1 ho, Loop.ok_bind]
    split_ifs at h ⊢
    · cases h
      rfl
    · obtain ⟨M, hM, h⟩ := Loop.bind_eq_ok.1 h
      cases h
      rw [computeExtrinsicMatrix_refines hM]
      rfl

omit [DecidableEq K] in
theorem scaleTranslation_of_foldlM {scale : K} {mat M : List (List K)}
    (h : (List.range 3).foldlM (fun mat i =>
      if 3 < (mat.getD i []).length then .ok (mat.modify i fun row => row.modify 3 (· * scale))
      else .error (.throws .outside)) mat = (.ok M : Except (Stop RowFault) (List (List K)))) :
    scaleTranslation mat scale = M := by
  rw [scaleTranslation]
  generalize List.range 3 = l at h ⊢
  induction l generalizing mat with
  | nil =>
    cases h
    rfl
  | cons i l ih =>
    rw [List.foldlM_cons] at h
    obtain ⟨mat', hmat', h⟩ := Loop.bind_eq_ok.1 h
    split_ifs at hmat'
    cases hmat'
    exact ih h

theorem scaleTranslationInPlace_refines {mat M : List (List K)} {unit : LengthUnit}
    (h : scaleTranslationInPlace mat unit = .ok M) :
    CalibrationHandler.scaleTranslationInPlace mat unit = M := by
  rw [scaleTranslationInPlace] at h
  rw [CalibrationHandler.scaleTranslationInPlace]
  split_ifs at h ⊢
  · cases h
    rfl
  · exact scaleTranslation_of_foldlM h

/-- The matrices of a route, put together from its end. -/
def composed (useSpec : Bool) : List (Extrinsics K) → Except (Stop RowFault) (List (List K))
  | [] => runtimeError ""
  | [e] =>
    if e.rotationMatrix.length = 0 then
      runtimeError ("Defined Extrinsic conenction but rotation matrix is not available. " ++
        "Please cross check your calibration data configuration.")
    else transformationMatrix e useSpec
  | e :: e' :: l => do
    let M ← composed useSpec (e' :: l)
    let C ← transformationMatrix e useSpec
    lift (matMulRows M C)

/-- **Which routes can be composed.** The product has four columns if the last matrix does. -/
theorem composed_eq_ok {l : List (Extrinsics K)} (hne : l ≠ []) (h : Composes useSpec l) :
    ∃ M, composed useSpec l = .ok M ∧ Proper M ∧
      ((∀ row ∈ M, row.length = 4) ↔ (l.getLast hne).FourColumns) := by
  induction l with
  | nil => exact absurd rfl hne
  | cons e l ih =>
    cases l with
    | nil =>
      obtain ⟨C, hC, hproper, -, hcolumns⟩ := transformationMatrix_eq_ok h.1 h.2
      have hrows := h.2
      exact ⟨C, (if_neg (by omega)).trans hC, hproper, hcolumns⟩
    | cons e' l =>
      obtain ⟨hrest, htranslation, hthree, hlast⟩ := h
      obtain ⟨M, hM, hproper, hcolumns⟩ := ih (List.cons_ne_nil _ _) hrest
      obtain ⟨hlength, hfour⟩ := isThreeByThree_iff.1 hthree
      obtain ⟨C, hC, hproper', hlength', hcolumns'⟩ :=
        transformationMatrix_eq_ok htranslation hlength.ge
      obtain ⟨R, hR⟩ := (exists_matMulRows_iff hproper hproper').2
        ⟨by omega, hcolumns.2 hlast, hcolumns'.2 hfour⟩
      have hfourR := (length_of_matMulRows hproper hproper' hR).2
      refine ⟨R, ?_, proper_of_forall (matMulRows_ne_nil hR) hfourR, ?_⟩
      · rw [composed, hM, Loop.ok_bind, hC, Loop.ok_bind, hR]
        rfl
      · exact iff_of_true hfourR (by rwa [List.getLast_cons (List.cons_ne_nil _ _)])

theorem composes_of_composed {l : List (Extrinsics K)} {M : List (List K)}
    (h : composed useSpec l = .ok M) : Composes useSpec l := by
  induction l generalizing M with
  | nil => cases h
  | cons e l ih =>
    cases l with
    | nil =>
      rw [composed] at h
      split at h
      · cases h
      · exact of_transformationMatrix_eq_ok h
    | cons e' l =>
      rw [composed] at h
      obtain ⟨M', hM', h⟩ := Loop.bind_eq_ok.1 h
      obtain ⟨C, hC, h⟩ := Loop.bind_eq_ok.1 h
      have hrest := ih hM'
      obtain ⟨htranslation, hrows⟩ := of_transformationMatrix_eq_ok hC
      obtain ⟨M'', hM'', hproper, hcolumns⟩ := composed_eq_ok (List.cons_ne_nil _ _) hrest
      obtain ⟨C', hC', hproper', hlength', hcolumns'⟩ :=
        transformationMatrix_eq_ok htranslation hrows
      rw [hM'] at hM''
      rw [hC] at hC'
      cases hM''
      cases hC'
      obtain ⟨hC4, hM4, hfour⟩ :=
        (exists_matMulRows_iff hproper hproper').1 ⟨M, lift_eq_ok.1 h⟩
      exact ⟨hrest, htranslation, isThreeByThree_iff.2 ⟨by omega, hcolumns'.1 hfour⟩,
        hcolumns.1 hM4⟩

/-- **On which routes no row is missing.** -/
theorem answered_composed_iff {l : List (Extrinsics K)} (hne : l ≠ []) :
    Answered (composed useSpec l) ↔ InBounds useSpec l := by
  induction l with
  | nil => exact absurd rfl hne
  | cons e l ih =>
    cases l with
    | nil =>
      rw [composed, InBounds]
      split
      case isTrue hempty =>
        exact iff_of_true (answered_runtimeError _)
          ⟨trivial, fun _ _ => .inl ⟨rfl, List.length_eq_zero_iff.1 hempty⟩⟩
      case isFalse hnonempty =>
        rw [answered_transformationMatrix_iff]
        have hrotation : e.rotationMatrix ≠ [] := fun h => hnonempty (by rw [h]; rfl)
        simp [InBounds, Composes, hrotation]
    | cons e' l =>
      rw [composed, InBounds, answered_bind, ih (List.cons_ne_nil _ _)]
      refine and_congr_right fun hrest => ?_
      constructor
      · intro h hcomposes htranslation
        obtain ⟨M, hM, -⟩ := composed_eq_ok (List.cons_ne_nil _ _) hcomposes
        have hmatrix := (answered_bind.1 (h M hM)).1
        exact .inr (answered_transformationMatrix_iff.1 hmatrix htranslation)
      · intro h M hM
        refine answered_bind.2 ⟨answered_transformationMatrix_iff.2 fun htranslation => ?_,
          fun C _ => answered_lift _⟩
        rcases h (composes_of_composed hM) htranslation with ⟨hnil, -⟩ | hrows
        · cases hnil
        · exact hrows

end Checked

end CalibrationHandler

end Queries

end DepthaiCore
