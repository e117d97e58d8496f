import DepthaiCore.Device.ExtrinsicGraph

/-!
# The frames of the cameras

The rotations of all links are orthonormal, and the links make up one tree. Then the poses of the
cameras relative to each other are those of a system of frames: the pose of a camera relative to
itself is the identity, there and back is the identity, and the way over a third camera is the
direct one. The housing is one more frame. Another unit of length changes the translations alone.
-/

namespace DepthaiCore

open MatrixOps RigidMotion

/-- The links make up one tree. -/
def EepromData.IsTree {K : Type} (d : EepromData K) : Prop :=
  ∃ o, ∀ a ∈ d.cameras, a ≠ .AUTO ∧ ∃ l, Chain d.link a l o

variable {K : Type} [Field K]

/-- The rotations of all links are orthonormal. -/
def EepromData.Orthonormal (d : EepromData K) : Prop :=
  ∀ a info, d.find a = some info → info.extrinsics.toCameraSocket ≠ .AUTO →
    info.extrinsics.Orthonormal

theorem EepromData.Orthonormal.wellFormed {d : EepromData K} (h : d.Orthonormal) : d.WellFormed :=
  fun a info hfind hto => (h a info hfind hto).shape

namespace CalibrationHandler

open EepromData

variable {d : EepromData K} {fuel : ℕ} {a b c o : CameraBoardSocket}
  {l : List CameraBoardSocket} {useSpec : Bool} {unit unit' : LengthUnit}

/-! ### Chains -/

theorem rigid_cameraMotion (hd : d.Orthonormal) (hlink : d.link a = some (some b)) :
    Rigid (cameraMotion d useSpec a) := by
  obtain ⟨info, hfind, hto, hb⟩ := link_eq_some.1 hlink
  have horth := hd a info hfind (by rw [hto]; exact hb)
  simp only [cameraMotion, hfind]
  refine ⟨motion_isMotion _ _, ?_⟩
  rw [linkMotion, linear_motion]
  exact horth.transpose_mul_self

/-- **The motion along a chain is rigid.** -/
theorem rigid_chainMotion (hd : d.Orthonormal) (h : Chain d.link a l o) :
    Rigid (chainMotion d useSpec l) := by
  induction h with
  | root _ => exact Rigid.one
  | @link a b o l hlink hl ih =>
    obtain ⟨l', rfl⟩ : ∃ l', l = b :: l' := by
      cases hl <;> exact ⟨_, rfl⟩
    exact ih.mul (rigid_cameraMotion hd hlink)

/-! ### Units -/

theorem unitScale_mul [CharZero K] :
    unitScale unit * (getLengthUnitMultiplier unit' / getLengthUnitMultiplier unit) =
      (unitScale unit' : K) := by
  have hunit := getLengthUnitMultiplier_ne_zero (K := K) unit
  rw [unitScale, unitScale, div_mul_div_comm, mul_comm, mul_div_mul_right _ _ hunit]

/-! ### The housing -/

variable [DecidableEq K] {getHousingCoordinates : String → HousingCoordinateSystem → Option (Point3f K)}
  {housingCS : HousingCoordinateSystem}

omit [DecidableEq K] in
theorem exists_rows_of_getHousingToHousingOrigin {m : List (List K)}
    (h : getHousingToHousingOrigin d getHousingCoordinates housingCS useSpec = .ok (m, c)) :
    ∃ X, m = rows X := by
  rw [getHousingToHousingOrigin] at h
  obtain ⟨t, -, h⟩ := Loop.bind_eq_ok.1 h
  dsimp only at h
  generalize (if useSpec = true ∧ housingCS ≠ .AUTO then
    lookupHousingEntry getHousingCoordinates d.productName housingCS else none) = requested at h
  let r := rotationOf d.housingExtrinsics.rotationMatrix
  cases requested with
  | none =>
    cases h
    exact ⟨motion r ![t.x, t.y, t.z], rfl⟩
  | some p =>
    have hmul := matMulRows_rows (motion r ![t.x, t.y, t.z])
      (motion 1 ![p.x / MM_TO_CM_SCALE, p.y / MM_TO_CM_SCALE, p.z / MM_TO_CM_SCALE])
    obtain ⟨product, hproduct, h⟩ := Loop.bind_eq_ok.1 h
    cases h
    exact ⟨_, Except.ok.inj ((Stop.lift_eq_ok.1 hproduct).symm.trans hmul)⟩

/-- **What `getHousingCalibration` returns** is put together from the pose of the housing and the
chains of two cameras to one origin. -/
theorem getHousingCalibration_eq_ok_iff (hversion : 4 ≤ d.version) (hd : d.WellFormed)
    (hfuel : d.cameras.length < fuel) {m : List (List K)} :
    getHousingCalibration d fuel getHousingCoordinates a housingCS useSpec unit = .ok m ↔
      ∃ X c, getHousingToHousingOrigin d getHousingCoordinates housingCS useSpec =
          .ok (rows X, c) ∧
        a ≠ .AUTO ∧ c ≠ .AUTO ∧ ∃ o l l', Chain d.link a l o ∧ Chain d.link c l' o ∧
          l.dropLast.all (hasTranslation d useSpec) ∧
          l'.dropLast.all (hasTranslation d useSpec) ∧
          m = rows (scaleShift (unitScale unit)
            (reverse X * (reverse (chainMotion d useSpec l') * chainMotion d useSpec l))) := by
  constructor
  · intro h
    rw [getHousingCalibration] at h
    split at h
    · cases h
    · obtain ⟨⟨m₀, c⟩, h₀, h⟩ := Loop.bind_eq_ok.1 h
      obtain ⟨⟨m₁, o₁⟩, h₁, h⟩ := Loop.bind_eq_ok.1 h
      obtain ⟨⟨m₂, o₂⟩, h₂, h⟩ := Loop.bind_eq_ok.1 h
      obtain ⟨X, rfl⟩ := exists_rows_of_getHousingToHousingOrigin h₀
      obtain ⟨hc, l', hl', hspec', rfl⟩ := (getExtrinsicsToOrigin_eq_ok_iff hversion hd hfuel).1 h₁
      obtain ⟨ha, l, hl, hspec, rfl⟩ := (getExtrinsicsToOrigin_eq_ok_iff hversion hd hfuel).1 h₂
      dsimp only at h
      split at h
      · cases h
      · rename_i horigin
        obtain rfl := not_not.1 horigin
        rw [invertSe3Matrix4x4InPlace_rows, Stop.lift_ok, Loop.ok_bind,
          invertSe3Matrix4x4InPlace_rows, Stop.lift_ok, Loop.ok_bind, matMulRows_rows,
          Stop.lift_ok, Loop.ok_bind, matMulRows_rows, Stop.lift_ok, Loop.ok_bind,
          scaleTranslationInPlace_rows] at h
        cases h
        exact ⟨X, c, h₀, ha, hc, _, l, l', hl, hl', hspec, hspec', rfl⟩
  · rintro ⟨X, c, h₀, ha, hc, o, l, l', hl, hl', hspec, hspec', rfl⟩
    have hfind : (d.find a).isNone = false := by
      have hsome := find_isSome_iff.2 (link_isSome_iff.1 (hl.isSome_of_mem hl.mem_left))
      simpa using hsome
    rw [getHousingCalibration, hfind]
    simp only [Bool.false_eq_true, if_false]
    rw [h₀, Loop.ok_bind, getExtrinsicsToOrigin_eq hversion hd hfuel hl' hc, if_pos hspec',
      Loop.ok_bind, getExtrinsicsToOrigin_eq hversion hd hfuel hl ha, if_pos hspec, Loop.ok_bind]
    dsimp only
    rw [if_neg (by simp), invertSe3Matrix4x4InPlace_rows, Stop.lift_ok, Loop.ok_bind,
      invertSe3Matrix4x4InPlace_rows, Stop.lift_ok, Loop.ok_bind, matMulRows_rows,
      Stop.lift_ok, Loop.ok_bind, matMulRows_rows, Stop.lift_ok, Loop.ok_bind,
      scaleTranslationInPlace_rows]
    rfl

/-! ### The laws -/

/-- The poses of the cameras relative to each other are those of frames. -/
structure Frames (d : EepromData K) (fuel : ℕ) (useSpec : Bool) (unit : LengthUnit) : Prop where
  matrix : ∀ a b m, getCameraExtrinsics d fuel a b useSpec unit = .ok m → ∃ M, m = rows M
  identity : ∀ a m, getCameraExtrinsics d fuel a a useSpec unit = .ok m → m = rows 1
  inverse : ∀ a b M, getCameraExtrinsics d fuel a b useSpec unit = .ok (rows M) →
    ∃ N, getCameraExtrinsics d fuel b a useSpec unit = .ok (rows N) ∧ N * M = 1 ∧ M * N = 1
  composition : ∀ a b c M N, getCameraExtrinsics d fuel a b useSpec unit = .ok (rows M) →
    getCameraExtrinsics d fuel b c useSpec unit = .ok (rows N) →
    getCameraExtrinsics d fuel a c useSpec unit = .ok (rows (N * M))
  units : ∀ a b M unit', getCameraExtrinsics d fuel a b useSpec unit = .ok (rows M) →
    getCameraExtrinsics d fuel a b useSpec unit' = .ok (rows
      (scaleShift (getLengthUnitMultiplier unit' / getLengthUnitMultiplier unit) M))

/-- The housing is one more frame. -/
structure HousingFrame (d : EepromData K) (fuel : ℕ)
    (getHousingCoordinates : String → HousingCoordinateSystem → Option (Point3f K))
    (housingCS : HousingCoordinateSystem) (useSpec : Bool) (unit : LengthUnit) : Prop where
  matrix : ∀ a m, getHousingCalibration d fuel getHousingCoordinates a housingCS useSpec unit =
    .ok m → ∃ M, m = rows M
  composition : ∀ a b M H, getCameraExtrinsics d fuel a b useSpec unit = .ok (rows M) →
    getHousingCalibration d fuel getHousingCoordinates b housingCS useSpec unit = .ok (rows H) →
    getHousingCalibration d fuel getHousingCoordinates a housingCS useSpec unit =
      .ok (rows (H * M))
  units : ∀ a H unit',
    getHousingCalibration d fuel getHousingCoordinates a housingCS useSpec unit = .ok (rows H) →
    getHousingCalibration d fuel getHousingCoordinates a housingCS useSpec unit' = .ok (rows
      (scaleShift (getLengthUnitMultiplier unit' / getLengthUnitMultiplier unit) H))

theorem frames [CharZero K] (hversion : 4 ≤ d.version) (hd : d.Orthonormal)
    (hfuel : d.cameras.length < fuel) : Frames d fuel useSpec unit := by
  have hiff {a b : CameraBoardSocket} {unit : LengthUnit} {m : List (List K)} :
      getCameraExtrinsics d fuel a b useSpec unit = .ok m ↔ _ :=
    getCameraExtrinsics_eq_ok_iff hversion hd.wellFormed hfuel
  constructor
  case matrix =>
    intro a b m h
    obtain ⟨-, -, _, _, _, -, -, -, -, hm⟩ := hiff.1 h
    exact ⟨_, hm⟩
  case identity =>
    intro a m h
    obtain ⟨-, -, o, l, l', hl, hl', -, -, rfl⟩ := hiff.1 h
    rw [(hl'.unique hl).1, (rigid_chainMotion hd hl).reverse_mul, scaleShift_one_right]
  case inverse =>
    intro a b M h
    obtain ⟨ha, hb, o, l, l', hl, hl', hspec, hspec', hM⟩ := hiff.1 h
    obtain rfl : M = scaleShift (unitScale unit) (relative (chainMotion d useSpec) l l') :=
      rows_injective hM
    have hrigid : Rigid (chainMotion d useSpec l) := rigid_chainMotion hd hl
    have hrigid' : Rigid (chainMotion d useSpec l') := rigid_chainMotion hd hl'
    refine ⟨_, hiff.2 ⟨hb, ha, o, l', l, hl', hl, hspec', hspec, rfl⟩, ?_, ?_⟩
    · rw [← relative, ← (relative_isMotion _ hrigid'.motion).scaleShift_mul
        (relative_isMotion _ hrigid.motion), relative_mul_relative _ hrigid',
        relative_self _ hrigid, scaleShift_one_right]
    · rw [← relative, ← (relative_isMotion _ hrigid.motion).scaleShift_mul
        (relative_isMotion _ hrigid'.motion), relative_mul_relative _ hrigid,
        relative_self _ hrigid', scaleShift_one_right]
  case composition =>
    intro a b c M N h h'
    obtain ⟨ha, -, o, l, k, hl, hk, hspec, -, hM⟩ := hiff.1 h
    obtain ⟨-, hc, o', k', l', hk', hl', -, hspec', hN⟩ := hiff.1 h'
    obtain ⟨rfl, rfl⟩ := hk.unique hk'
    have hrigid : Rigid (chainMotion d useSpec l) := rigid_chainMotion hd hl
    have hrigid' : Rigid (chainMotion d useSpec k) := rigid_chainMotion hd hk
    refine hiff.2 ⟨ha, hc, o, l, l', hl, hl', hspec, hspec', ?_⟩
    rw [rows_injective hM, rows_injective hN, ← relative, ← relative, ← relative,
      ← (relative_isMotion _ hrigid'.motion).scaleShift_mul (relative_isMotion _ hrigid.motion),
      relative_mul_relative _ hrigid']
  case units =>
    intro a b M unit' h
    obtain ⟨ha, hb, o, l, l', hl, hl', hspec, hspec', hM⟩ := hiff.1 h
    refine hiff.2 ⟨ha, hb, o, l, l', hl, hl', hspec, hspec', ?_⟩
    rw [rows_injective hM, scaleShift_scaleShift, unitScale_mul]

theorem housingFrame [CharZero K] (hversion : 4 ≤ d.version) (hd : d.Orthonormal)
    (hfuel : d.cameras.length < fuel) :
    HousingFrame d fuel getHousingCoordinates housingCS useSpec unit := by
  have hiff {a : CameraBoardSocket} {unit : LengthUnit} {m : List (List K)} :
      getHousingCalibration d fuel getHousingCoordinates a housingCS useSpec unit = .ok m ↔ _ :=
    getHousingCalibration_eq_ok_iff hversion hd.wellFormed hfuel
  constructor
  case matrix =>
    intro a m h
    obtain ⟨_, _, -, -, -, _, _, _, -, -, -, -, hm⟩ := hiff.1 h
    exact ⟨_, hm⟩
  case composition =>
    intro a b M H h h'
    obtain ⟨ha, -, o, l, k, hl, hk, hspec, -, hM⟩ :=
      (getCameraExtrinsics_eq_ok_iff hversion hd.wellFormed hfuel).1 h
    obtain ⟨X, c, hX, -, hc, o', k', l', hk', hl', -, hspec', hH⟩ := hiff.1 h'
    obtain ⟨rfl, rfl⟩ := hk.unique hk'
    have hrigid : Rigid (chainMotion d useSpec l) := rigid_chainMotion hd hl
    have hrigid' : Rigid (chainMotion d useSpec k) := rigid_chainMotion hd hk
    refine hiff.2 ⟨X, c, hX, ha, hc, o, l, l', hl, hl', hspec, hspec', ?_⟩
    rw [rows_injective hM, rows_injective hH, ← relative, ← relative, ← relative,
      ← ((reverse_isMotion X).mul (relative_isMotion _ hrigid'.motion)).scaleShift_mul
        (relative_isMotion _ hrigid.motion), Matrix.mul_assoc, relative_mul_relative _ hrigid']
  case units =>
    intro a H unit' h
    obtain ⟨X, c, hX, ha, hc, o, l, l', hl, hl', hspec, hspec', hH⟩ := hiff.1 h
    refine hiff.2 ⟨X, c, hX, ha, hc, o, l, l', hl, hl', hspec, hspec', ?_⟩
    rw [rows_injective hH, scaleShift_scaleShift, unitScale_mul]

/-- **The extrinsics are a coherent system of frames.** The calls for two cameras of the tree return
if the translations that they ask for are there; they always are without the ones of the design. -/
theorem extrinsics_frames [CharZero K] (d : EepromData K) (hversion : 4 ≤ d.version)
    (htree : d.IsTree) (hd : d.Orthonormal)
    (getHousingCoordinates : String → HousingCoordinateSystem → Option (Point3f K))
    (housingCS : HousingCoordinateSystem) (useSpec : Bool) (unit : LengthUnit) (fuel : ℕ)
    (hfuel : d.cameras.length < fuel) :
    (d.cameras.all (hasTranslation d useSpec) → ∀ a ∈ d.cameras, ∀ b ∈ d.cameras,
      ∃ M, getCameraExtrinsics d fuel a b useSpec unit = .ok (rows M)) ∧
    (useSpec = false → d.cameras.all (hasTranslation d useSpec)) ∧
    Frames d fuel useSpec unit ∧
    HousingFrame d fuel getHousingCoordinates housingCS useSpec unit := by
  refine ⟨fun hspec a ha b hb => ?_, ?_, frames hversion hd hfuel, housingFrame hversion hd hfuel⟩
  · obtain ⟨o, hall⟩ := htree
    obtain ⟨hauto, l, hl⟩ := hall a ha
    obtain ⟨hauto', l', hl'⟩ := hall b hb
    have hgiven {a : CameraBoardSocket} {l : List CameraBoardSocket} (hl : Chain d.link a l o) :
        l.dropLast.all (hasTranslation d useSpec) := by
      refine List.all_eq_true.2 fun c hc => List.all_eq_true.1 hspec c ?_
      exact link_isSome_iff.1 (hl.isSome_of_mem (List.mem_of_mem_dropLast hc))
    exact ⟨_, (getCameraExtrinsics_eq_ok_iff hversion hd.wellFormed hfuel).2
      ⟨hauto, hauto', o, l, l', hl, hl', hgiven hl, hgiven hl', rfl⟩⟩
  · rintro rfl
    exact hasTranslation_false _

theorem isTree_threeCameras : (threeCameras 7).IsTree := by
  refine ⟨.CAM_A, fun a ha => ?_⟩
  simp only [cameras, threeCameras, List.map_cons, List.map_nil, List.mem_cons,
    List.not_mem_nil, or_false] at ha
  rcases ha with rfl | rfl | rfl
  · exact ⟨by decide, _, .link rfl (.link rfl (.root rfl))⟩
  · exact ⟨by decide, _, .root rfl⟩
  · exact ⟨by decide, _, .link rfl (.root rfl)⟩

theorem orthonormal_turned (toCameraSocket : CameraBoardSocket) :
    (turned toCameraSocket).extrinsics.Orthonormal := by
  refine ⟨by simp [turned, IsThreeByThree], ?_⟩
  simp only [turned]
  decide +kernel

theorem orthonormal_threeCameras : (threeCameras 7).Orthonormal := by
  intro a info hfind _
  have hmem := mem_of_find hfind
  simp only [threeCameras, List.mem_cons, Prod.mk.injEq, List.not_mem_nil, or_false] at hmem
  rcases hmem with ⟨-, rfl⟩ | ⟨-, rfl⟩ | ⟨-, rfl⟩ <;> exact orthonormal_turned _

theorem extrinsics_frames_threeCameras :
    ((threeCameras 7).cameras.all (hasTranslation (threeCameras 7) true) →
      ∀ a ∈ (threeCameras 7).cameras, ∀ b ∈ (threeCameras 7).cameras,
        ∃ M, getCameraExtrinsics (threeCameras 7) 4 a b true .METER = .ok (rows M)) ∧
    (true = false → (threeCameras 7).cameras.all (hasTranslation (threeCameras 7) true)) ∧
    Frames (threeCameras 7) 4 true .METER ∧
    HousingFrame (threeCameras 7) 4 (fun _ _ => none) .VESA_A true .METER :=
  extrinsics_frames (threeCameras 7) (by decide) isTree_threeCameras orthonormal_threeCameras
    (fun _ _ => none) .VESA_A true .METER 4 (by decide)

end CalibrationHandler

end DepthaiCore
