import DepthaiCore.Device.ExtrinsicQueries

/-!
# Setting the extrinsics of a camera

`setCameraExtrinsics` writes the new link first and checks the links afterwards. If the check
throws, the link stays. The check goes through the cameras in the order of the map and returns at
the first one whose links lead to a camera that is not there, so it may miss a circle that comes
later. On the way it computes the poses of the cameras before, which may throw as well.

Where a new camera stands in the map is not known.
-/

namespace DepthaiCore

open MatrixOps

/-- `toString(CameraBoardSocket)`. -/
def CameraBoardSocket.toString : CameraBoardSocket → String
  | .AUTO => "AUTO"
  | .CAM_A => "CAM_A"
  | .CAM_B => "CAM_B"
  | .CAM_C => "CAM_C"
  | .CAM_D => "CAM_D"
  | .CAM_E => "CAM_E"
  | .CAM_F => "CAM_F"
  | .CAM_G => "CAM_G"
  | .CAM_H => "CAM_H"
  | .CAM_I => "CAM_I"
  | .CAM_J => "CAM_J"
  | .CBA => "CBA"

/-- Where `emplace` puts a new element of the map, and what becomes of the order of the others. -/
structure EmplaceOrder (K : Type) where
  emplace : List (CameraBoardSocket × CameraInfo K) → CameraBoardSocket × CameraInfo K →
    List (CameraBoardSocket × CameraInfo K)
  perm : ∀ l kv, (emplace l kv).Perm (kv :: l)

section Setter

variable {K : Type}

namespace EepromData

variable (d : EepromData K)

/-! ### What the source computes -/

theorem nodup_emplace (order : EmplaceOrder K) {a : CameraBoardSocket} (h : (d.find a).isNone)
    (info : CameraInfo K) : ((order.emplace d.cameraData (a, info)).map Prod.fst).Nodup := by
  have ha : a ∉ d.cameras := by
    rw [← find_isSome_iff, Option.isNone_iff_eq_none.1 h]
    exact Bool.false_ne_true
  exact ((order.perm _ _).map Prod.fst).nodup_iff.2 (List.nodup_cons.2 ⟨ha, d.nodup⟩)

theorem map_fst_update (a : CameraBoardSocket) (extrinsics : Extrinsics K) :
    (d.cameraData.map fun kv => if kv.1 = a then (kv.1, { kv.2 with extrinsics }) else kv).map
      Prod.fst = d.cameraData.map Prod.fst := by
  rw [List.map_map]
  refine List.map_congr_left fun kv _ => ?_
  rw [Function.comp_apply]
  split <;> rfl

/-- The extrinsics of a camera are written. If it is not there it is put into the map. -/
def write (order : EmplaceOrder K) (srcCameraId : CameraBoardSocket) (extrinsics : Extrinsics K) :
    EepromData K :=
  if h : (d.find srcCameraId).isNone then
    { d with
      cameraData := order.emplace d.cameraData (srcCameraId, { extrinsics })
      nodup := d.nodup_emplace order h _ }
  else
    { d with
      cameraData := d.cameraData.map fun kv =>
        if kv.1 = srcCameraId then (kv.1, { kv.2 with extrinsics }) else kv
      nodup := (d.map_fst_update srcCameraId extrinsics).symm ▸ d.nodup }

end EepromData

namespace CalibrationHandler

section Field

variable [Field K] [DecidableEq K]

namespace Checked

variable (d : EepromData K) (fuel : ℕ)

/-- The loop of `validateExtrinsicGraph` over the cameras, with what `originMap` holds. -/
def validateCameras :
    List (CameraBoardSocket × CameraBoardSocket) → List CameraBoardSocket →
      Except (Stop RowFault)
        (ExtrinsicGraphValidationResult ⊕ List (CameraBoardSocket × CameraBoardSocket))
  | originMap, [] => .ok (.inr originMap)
  | originMap, start :: cameras => do
    match ← liftStop (Whiles.loop (validateStep d) fuel (start, [])) with
    | some result => return .inl result
    | none =>
      let (_, originCamera) ← getExtrinsicsToOrigin d fuel start false
      validateCameras (originMap ++ [(start, originCamera)]) cameras

def validateExtrinsicGraph : Except (Stop RowFault) ExtrinsicGraphValidationResult := do
  match ← validateCameras d fuel [] d.cameras with
  | .inl result => return result
  | .inr originMap => return validateOrigins originMap

end Checked

open Checked

/-- The check after the write. -/
def throwOnCycle (d : EepromData K) (fuel : ℕ) : Except (Stop RowFault) Unit := do
  let result ← Checked.validateExtrinsicGraph d fuel
  if result.error = .CycleDetected then
    Checked.runtimeError ("Extrinsic cycle detected: " ++ result.atSocket.toString ++ " → " ++
      result.toSocket.toString)

/-- The extrinsics that `setCameraExtrinsics` puts together. -/
def extrinsicsOf (destCameraId : CameraBoardSocket) (rotationMatrix : List (List K))
    (translation specTranslation : List K) : Extrinsics K where
  rotationMatrix := rotationMatrix
  translation := ⟨translation.getD 0 0, translation.getD 1 0, translation.getD 2 0⟩
  specTranslation :=
    ⟨specTranslation.getD 0 0, specTranslation.getD 1 0, specTranslation.getD 2 0⟩
  toCameraSocket := destCameraId
  lengthUnit := .CENTIMETER

/-- `CalibrationHandler::setCameraExtrinsics`: the calibration afterwards, and how it ends. -/
def setCameraExtrinsics (d : EepromData K) (order : EmplaceOrder K) (fuel : ℕ)
    (srcCameraId destCameraId : CameraBoardSocket) (rotationMatrix : List (List K))
    (translation specTranslation : List K) : EepromData K × Except (Stop RowFault) Unit :=
  if rotationMatrix.length ≠ 3 ∨ (rotationMatrix.getD 0 []).length ≠ 3 then
    (d, Checked.runtimeError "Rotation Matrix size should always be 3x3 ")
  else if translation.length ≠ 3 then
    (d, Checked.runtimeError "Translation vector size should always be 3x1")
  else if specTranslation.length ≠ 3 then
    (d, Checked.runtimeError "specTranslation vector size should always be 3x1")
  else
    let extrinsics := extrinsicsOf destCameraId rotationMatrix translation specTranslation
    let eepromData := d.write order srcCameraId extrinsics
    (eepromData, throwOnCycle eepromData fuel)

end Field

end CalibrationHandler

/-! ### The links afterwards -/

namespace EepromData

variable {d : EepromData K}

/-- No camera is linked to itself over others. -/
def Acyclic (d : EepromData K) : Prop := ∀ a, ¬Relation.TransGen d.Linked a a

/-- The links lead to a camera that is not there. -/
def Dangling (d : EepromData K) (a : CameraBoardSocket) : Prop :=
  ∃ c b, Relation.ReflTransGen d.Linked a c ∧ d.Linked c b ∧ d.link b = none

theorem find_eq_some_iff {a : CameraBoardSocket} {info : CameraInfo K} :
    d.find a = some info ↔ (a, info) ∈ d.cameraData := by
  refine ⟨mem_of_find, fun hmem => ?_⟩
  obtain ⟨info', hinfo'⟩ := Option.isSome_iff_exists.1
    (find_isSome_iff.2 (List.mem_map_of_mem (f := Prod.fst) hmem))
  have hsame := List.inj_on_of_nodup_map d.nodup (mem_of_find hinfo') hmem rfl
  rw [hinfo', (Prod.mk.inj hsame).2]

/-- **Only the camera that is written changes.** -/
theorem find_write {order : EmplaceOrder K} {src a : CameraBoardSocket} {e : Extrinsics K} :
    (d.write order src e).find a = if a = src then some ⟨e⟩ else d.find a := by
  refine Option.ext fun info => ?_
  rw [find_eq_some_iff, write]
  split
  case isTrue hnone =>
    rw [(order.perm _ _).mem_iff, List.mem_cons, Prod.mk.injEq]
    split
    case isTrue ha =>
      rw [ha, ← find_eq_some_iff, Option.isNone_iff_eq_none.1 hnone]
      simp [eq_comm]
    case isFalse ha => simp [ha, find_eq_some_iff]
  case isFalse hsome =>
    rw [List.mem_map]
    split
    case isTrue ha =>
      obtain ⟨info', hinfo'⟩ := Option.isSome_iff_exists.1
        (Option.isSome_iff_ne_none.2 (mt Option.isNone_iff_eq_none.2 hsome))
      constructor
      · rintro ⟨kv, hkv, heq⟩
        split at heq
        case isTrue => cases heq; rfl
        case isFalse hne => exact absurd ((congrArg Prod.fst heq).trans ha) hne
      · rintro h
        cases h
        exact ⟨(src, info'), mem_of_find hinfo', by rw [if_pos rfl, ha]⟩
    case isFalse ha =>
      rw [find_eq_some_iff]
      constructor
      · rintro ⟨kv, hkv, heq⟩
        split at heq
        case isTrue hsrc => exact absurd ((congrArg Prod.fst heq).symm.trans hsrc) ha
        case isFalse => rwa [← heq]
      · exact fun hmem => ⟨(a, info), hmem, if_neg ha⟩

theorem chain_of_reach {a c o : CameraBoardSocket} {l : List CameraBoardSocket}
    (hreach : Relation.ReflTransGen d.Linked a c) (h : Chain d.link a l o) :
    ∃ l', Chain d.link c l' o := by
  induction hreach with
  | refl => exact ⟨l, h⟩
  | tail _ hlink ih =>
    obtain ⟨l', hl'⟩ := ih
    cases hl' with
    | root hroot =>
      rw [Linked, hroot] at hlink
      cases hlink
    | link hlink' hl'' =>
      rw [Linked, hlink'] at hlink
      cases hlink
      exact ⟨_, hl''⟩

/-- Links that lead to a camera that is not there do not lead to an origin. -/
theorem Dangling.not_chain {a o : CameraBoardSocket} {l : List CameraBoardSocket}
    (h : d.Dangling a) : ¬Chain d.link a l o := by
  rintro hl
  obtain ⟨c, b, hreach, hlink, hnone⟩ := h
  obtain ⟨l', hl'⟩ := chain_of_reach (hreach.tail hlink) hl
  have hsome := hl'.isSome_of_mem hl'.mem_left
  rw [hnone] at hsome
  cases hsome

/-! ### How far the check gets -/

section Field

variable [Field K] [DecidableEq K] (d : EepromData K)

/-- The check returns: up to the first camera whose links lead to one that is not there, the ways to
the origins can be composed. -/
def Passes : List CameraBoardSocket → Prop
  | [] => True
  | a :: cameras => d.Dangling a ∨ d.ComposesToOrigin false a ∧ Passes cameras

/-- The check throws: before such a camera there is one whose way to the origin cannot be composed,
and no row is missing there. -/
def Refused : List CameraBoardSocket → Prop
  | [] => False
  | a :: cameras => ¬d.Dangling a ∧
      (d.InBoundsToOrigin false a ∧ ¬d.ComposesToOrigin false a ∨
        d.ComposesToOrigin false a ∧ Refused cameras)

end Field

end EepromData

namespace CalibrationHandler

open EepromData

variable {d : EepromData K} {n fuel : ℕ} {a : CameraBoardSocket}

/-- At a camera that is there the walk of the check does not throw. -/
theorem loop_validateStep_ne_throws {path : List CameraBoardSocket} {what : Failure}
    (ha : a ∈ d.cameras) : Whiles.loop (validateStep d) n (a, path) ≠ .error (.throws what) := by
  induction n generalizing a path with
  | zero => nofun
  | succ n ih =>
    have hstep : validateStep d (a, path) = _ := validateStep_of_isSome (link_isSome_iff.2 ha)
    by_cases hmem : a ∈ path
    · rw [if_pos hmem] at hstep
      rw [Whiles.loop_of_done hstep]
      nofun
    · rw [if_neg hmem] at hstep
      rcases hlink : d.link a with _ | _ | b
      · rw [hlink] at hstep
        rw [Whiles.loop_of_done hstep]
        nofun
      · rw [hlink] at hstep
        rw [Whiles.loop_of_done hstep]
        nofun
      · rw [hlink] at hstep
        by_cases hb : b ∈ d.cameras
        · rw [Whiles.loop_of_next (hstep.trans (if_pos hb))]
          exact ih hb
        · rw [Whiles.loop_of_done (hstep.trans (if_neg hb))]
          nofun

/-- **What the walk of the check finds:** a circle, or a link to a camera that is not there. All
cameras that have been visited lead to the current one. -/
theorem loop_validateStep_some {path : List CameraBoardSocket}
    {result : ExtrinsicGraphValidationResult}
    (h : Whiles.loop (validateStep d) n (a, path) = .ok (some result))
    (hpath : ∀ x ∈ path, Relation.TransGen d.Linked x a) :
    ¬d.Acyclic ∨ result.error = .DanglingReference ∧ d.Dangling a := by
  induction n generalizing a path with
  | zero => cases h
  | succ n ih =>
    by_cases ha : (d.link a).isSome
    · have hstep : validateStep d (a, path) = _ := validateStep_of_isSome ha
      by_cases hmem : a ∈ path
      · exact .inl fun hacyclic => hacyclic a (hpath a hmem)
      · rw [if_neg hmem] at hstep
        rcases hlink : d.link a with _ | _ | b
        · rw [hlink] at hstep
          rw [Whiles.loop_of_done hstep] at h
          cases h
        · rw [hlink] at hstep
          rw [Whiles.loop_of_done hstep] at h
          cases h
        · rw [hlink] at hstep
          by_cases hb : b ∈ d.cameras
          · rw [Whiles.loop_of_next (hstep.trans (if_pos hb))] at h
            have hpath' : ∀ x ∈ a :: path, Relation.TransGen d.Linked x b := by
              intro x hx
              rcases List.mem_cons.1 hx with rfl | hx
              · exact .single hlink
              · exact (hpath x hx).tail hlink
            refine (ih h hpath').imp_right fun ⟨herror, c, b', hreach, hrest⟩ => ?_
            exact ⟨herror, c, b', .head hlink hreach, hrest⟩
          · rw [Whiles.loop_of_done (hstep.trans (if_neg hb))] at h
            cases h
            refine .inr ⟨rfl, a, b, .refl, hlink, ?_⟩
            rw [← link_isSome_iff, Bool.not_eq_true, Option.isSome_eq_false_iff,
              Option.isNone_iff_eq_none] at hb
            exact hb
    · rw [Whiles.loop_of_error (validateStep_of_none (Option.not_isSome_iff_eq_none.1 ha))] at h
      cases h

/-- Without circles the links lead to an origin or to a camera that is not there. -/
theorem loop_validateStep_of_acyclic (hd : d.Acyclic) (ha : a ∈ d.cameras)
    (hfuel : d.cameras.length < fuel) :
    (¬d.Dangling a ∧ Whiles.loop (validateStep d) fuel (a, []) = .ok none) ∨
      d.Dangling a ∧ ∃ result, Whiles.loop (validateStep d) fuel (a, []) = .ok (some result) ∧
        result.error = .DanglingReference := by
  rcases h : Whiles.loop (validateStep d) fuel (a, []) with (what | _) | (_ | result)
  · exact absurd h (loop_validateStep_ne_throws ha)
  · exact absurd h (loop_validateStep_ne_pending hfuel)
  · rcases loop_validateStep_cases h with ⟨-, l, o, hl⟩ | ⟨result, hresult, -⟩
    · exact .inl ⟨fun hdangling => hdangling.not_chain hl, rfl⟩
    · cases hresult
  · rcases loop_validateStep_some h nofun with hcircle | ⟨herror, hdangling⟩
    · exact absurd hd hcircle
    · exact .inr ⟨hdangling, result, rfl, herror⟩

section Field

variable [Field K] [DecidableEq K]

theorem throws_of_answered {α : Type} {x : Except (Stop RowFault) α} (h : Answered x)
    (hne : ∀ r, x ≠ .ok r) : ∃ what, x = .error (.throws (.failure what)) := by
  match x with
  | .ok r => exact absurd rfl (hne r)
  | .error .pending => exact absurd rfl h.1
  | .error (.throws .outside) => exact absurd rfl h.2
  | .error (.throws (.failure what)) => exact ⟨what, rfl⟩

/-- **How the loop over the cameras ends** when there are no circles. -/
theorem validateCameras_outcome (hd : d.Acyclic) {cameras : List CameraBoardSocket}
    (hcameras : cameras ⊆ d.cameras) : ∃ n, ∀ fuel ≥ n, ∀ originMap,
      (d.Passes cameras → ∃ r, Checked.validateCameras d fuel originMap cameras = .ok r ∧
        ∀ result, r = .inl result → result.error ≠ .CycleDetected) ∧
      (d.Refused cameras → ∃ what, Checked.validateCameras d fuel originMap cameras =
        .error (.throws (.failure what))) ∧
      (¬d.Passes cameras → ¬d.Refused cameras →
        ¬Answered (Checked.validateCameras d fuel originMap cameras)) := by
  induction cameras with
  | nil =>
    refine ⟨0, fun fuel _ originMap => ⟨fun _ => ⟨_, rfl, nofun⟩, nofun, fun h => ?_⟩⟩
    exact absurd trivial h
  | cons a cameras ih =>
    obtain ⟨n, hn⟩ := ih fun x hx => hcameras (List.mem_cons_of_mem _ hx)
    obtain ⟨n', hn'⟩ := Checked.getExtrinsicsToOrigin_outcome d a false
    refine ⟨n + n' + d.cameras.length + 1, fun fuel hfuel originMap => ?_⟩
    obtain ⟨hbounds, hcomposes, -⟩ := hn' fuel (by omega)
    rw [Checked.validateCameras]
    rcases loop_validateStep_of_acyclic hd (hcameras List.mem_cons_self)
      (show d.cameras.length < fuel by omega) with
      ⟨hdangling, hloop⟩ | ⟨hdangling, result, hloop, herror⟩
    · rw [liftStop_eq_ok.2 hloop, Loop.ok_bind]
      dsimp only
      by_cases hcompose : d.ComposesToOrigin false a
      · obtain ⟨r, hr⟩ := hcomposes.2 hcompose
        rw [hr, Loop.ok_bind]
        obtain ⟨hpasses, hrefused, hneither⟩ := hn fuel (by omega) (originMap ++ [(a, r.2)])
        refine ⟨fun h => hpasses (h.resolve_left hdangling).2, fun h => hrefused ?_,
          fun h h' => hneither ?_ ?_⟩
        · exact (h.2.resolve_left fun h => h.2 hcompose).2
        · exact fun hrest => h (.inr ⟨hcompose, hrest⟩)
        · exact fun hrest => h' ⟨hdangling, .inr ⟨hcompose, hrest⟩⟩
      · have hne (r : List (List K) × CameraBoardSocket) :
            Checked.getExtrinsicsToOrigin d fuel a false ≠ .ok r :=
          fun hr => hcompose (hcomposes.1 ⟨r, hr⟩)
        refine ⟨fun h => absurd (h.resolve_left hdangling).1 hcompose, fun h => ?_,
          fun _ h hanswered => h ⟨hdangling, .inl ⟨?_, hcompose⟩⟩⟩
        · obtain ⟨hinbounds, -⟩ := h.2.resolve_right fun h => hcompose h.1
          obtain ⟨what, hwhat⟩ := throws_of_answered (hbounds.2 hinbounds) hne
          exact ⟨what, by rw [hwhat]; rfl⟩
        · exact hbounds.1 (answered_bind.1 hanswered).1
    · rw [liftStop_eq_ok.2 hloop, Loop.ok_bind]
      refine ⟨fun _ => ⟨.inl result, rfl, ?_⟩, fun h => absurd hdangling h.1,
        fun h => absurd (.inl hdangling) h⟩
      intro result' h
      cases h
      rw [herror]
      nofun

theorem validateOrigins_error_ne {originMap : List (CameraBoardSocket × CameraBoardSocket)} :
    (validateOrigins originMap).error ≠ .CycleDetected := by
  intro h
  cases originMap with
  | nil => cases h
  | cons first rest =>
    obtain ⟨start, expectedOrigin⟩ := first
    rw [validateOrigins] at h
    split at h <;> cases h

/-- **How the check after the write ends** when there are no circles. -/
theorem throwOnCycle_outcome (hd : d.Acyclic) : ∃ n, ∀ fuel ≥ n,
    (d.Passes d.cameras → throwOnCycle d fuel = .ok ()) ∧
    (d.Refused d.cameras → ∃ what, throwOnCycle d fuel = .error (.throws (.failure what))) ∧
    (¬d.Passes d.cameras → ¬d.Refused d.cameras → ¬Answered (throwOnCycle d fuel)) := by
  obtain ⟨n, hn⟩ := validateCameras_outcome hd (List.Subset.refl d.cameras)
  refine ⟨n, fun fuel hfuel => ?_⟩
  obtain ⟨hpasses, hrefused, hneither⟩ := hn fuel hfuel []
  refine ⟨fun h => ?_, fun h => ?_, fun h h' hanswered => hneither h h' ?_⟩
  · obtain ⟨r, hr, herror⟩ := hpasses h
    rw [throwOnCycle, Checked.validateExtrinsicGraph, hr]
    cases r with
    | inl result => exact if_neg (herror result rfl)
    | inr originMap => exact if_neg validateOrigins_error_ne
  · obtain ⟨what, hwhat⟩ := hrefused h
    exact ⟨what, by rw [throwOnCycle, Checked.validateExtrinsicGraph, hwhat]; rfl⟩
  · exact (answered_bind.1 (answered_bind.1 hanswered).1).1

/-! ### The call -/

/-- A call that throws leaves everything as it was, and one that returns changes this camera only
and leaves the links without circles. -/
def Atomic (d : EepromData K) (srcCameraId : CameraBoardSocket)
    (call : EepromData K × Except (Stop RowFault) Unit) : Prop :=
  match call.2 with
  | .ok _ => (call.1.version = d.version ∧ call.1.productName = d.productName ∧
      call.1.housingExtrinsics = d.housingExtrinsics ∧
      ∀ a ≠ srcCameraId, call.1.find a = d.find a) ∧ call.1.Acyclic
  | .error (.throws (.failure _)) => call.1 = d
  | .error _ => False

omit [Field K] [DecidableEq K] in
theorem Atomic.acyclic {d d' : EepromData K} {src : CameraBoardSocket}
    {x : Except (Stop RowFault) Unit} (hd : d.Acyclic) (h : Atomic d src (d', x)) : d'.Acyclic := by
  match x with
  | .ok _ => exact h.2
  | .error (.throws (.failure _)) =>
    obtain rfl : d' = d := h
    exact hd
  | .error (.throws .outside) => exact h.elim
  | .error .pending => exact h.elim

omit [Field K] [DecidableEq K] in
theorem Atomic.answered {d d' : EepromData K} {src : CameraBoardSocket}
    {x : Except (Stop RowFault) Unit} (h : Atomic d src (d', x)) : Answered x := by
  match x with
  | .ok _ => exact answered_ok _
  | .error (.throws (.failure _)) => exact ⟨nofun, nofun⟩
  | .error (.throws .outside) => exact h.elim
  | .error .pending => exact h.elim

/-- The arguments have the sizes that are asked for. -/
def Accepted (rotationMatrix : List (List K)) (translation specTranslation : List K) : Prop :=
  rotationMatrix.length = 3 ∧ (rotationMatrix.getD 0 []).length = 3 ∧ translation.length = 3 ∧
    specTranslation.length = 3

variable (order : EmplaceOrder K) {src dst : CameraBoardSocket} {rotationMatrix : List (List K)}
  {translation specTranslation : List K}

theorem setCameraExtrinsics_of_not (d : EepromData K) (fuel : ℕ) (src dst : CameraBoardSocket)
    (h : ¬Accepted rotationMatrix translation specTranslation) :
    ∃ what, setCameraExtrinsics d order fuel src dst rotationMatrix translation specTranslation =
      (d, Checked.runtimeError what) := by
  rw [setCameraExtrinsics]
  split
  · exact ⟨_, rfl⟩
  · rename_i hrotation
    split
    · exact ⟨_, rfl⟩
    · rename_i htranslation
      split
      · exact ⟨_, rfl⟩
      · rename_i hspec
        rw [not_or, not_not, not_not] at hrotation
        exact absurd ⟨hrotation.1, hrotation.2, not_not.1 htranslation, not_not.1 hspec⟩ h

theorem setCameraExtrinsics_of_accepted (d : EepromData K) (fuel : ℕ) (src dst : CameraBoardSocket)
    (h : Accepted rotationMatrix translation specTranslation) :
    setCameraExtrinsics d order fuel src dst rotationMatrix translation specTranslation =
      (d.write order src (extrinsicsOf dst rotationMatrix translation specTranslation),
        throwOnCycle (d.write order src (extrinsicsOf dst rotationMatrix translation
          specTranslation)) fuel) := by
  obtain ⟨hrotation, hrow, htranslation, hspec⟩ := h
  rw [setCameraExtrinsics, if_neg (not_or.2 ⟨not_not.2 hrotation, not_not.2 hrow⟩),
    if_neg (not_not.2 htranslation), if_neg (not_not.2 hspec)]

omit [Field K] [DecidableEq K] in
theorem write_frame (d : EepromData K) (src : CameraBoardSocket) (e : Extrinsics K) :
    (d.write order src e).version = d.version ∧ (d.write order src e).productName = d.productName ∧
      (d.write order src e).housingExtrinsics = d.housingExtrinsics ∧
      ∀ a ≠ src, (d.write order src e).find a = d.find a := by
  refine ⟨?_, ?_, ?_, fun a ha => by rw [find_write, if_neg ha]⟩
  all_goals
    rw [write]
    split <;> rfl

/-- **When a call is atomic.** -/
theorem setCameraExtrinsics_atomic_iff (d : EepromData K) (hd : d.Acyclic) (order : EmplaceOrder K)
    (src dst : CameraBoardSocket) (rotationMatrix : List (List K))
    (translation specTranslation : List K) :
    (∃ n, ∀ fuel ≥ n, Atomic d src
      (setCameraExtrinsics d order fuel src dst rotationMatrix translation specTranslation)) ↔
    (Accepted rotationMatrix translation specTranslation →
      let d' := d.write order src (extrinsicsOf dst rotationMatrix translation specTranslation)
      d'.Acyclic ∧ (d'.Passes d'.cameras ∨ d' = d ∧ d'.Refused d'.cameras)) := by
  by_cases haccepted : Accepted rotationMatrix translation specTranslation
  · simp only [setCameraExtrinsics_of_accepted order d _ src dst haccepted, haccepted,
      forall_const]
    have hframe := write_frame order d src
      (extrinsicsOf dst rotationMatrix translation specTranslation)
    generalize d.write order src (extrinsicsOf dst rotationMatrix translation specTranslation) =
      d' at hframe
    constructor
    · rintro ⟨n, hn⟩
      have hacyclic : d'.Acyclic := (hn n le_rfl).acyclic hd
      obtain ⟨n', hn'⟩ := throwOnCycle_outcome hacyclic
      obtain ⟨-, hrefused, hneither⟩ := hn' (n + n') (by omega)
      have hatomic := hn (n + n') (by omega)
      refine ⟨hacyclic, ?_⟩
      by_contra hnot
      obtain ⟨hpass, hrefuse⟩ := not_or.1 hnot
      by_cases h : d'.Refused d'.cameras
      · obtain ⟨what, hwhat⟩ := hrefused h
        rw [hwhat] at hatomic
        exact hrefuse ⟨hatomic, h⟩
      · exact hneither hpass h hatomic.answered
    · rintro ⟨hacyclic, hcheck⟩
      obtain ⟨n, hn⟩ := throwOnCycle_outcome hacyclic
      refine ⟨n, fun fuel hfuel => ?_⟩
      obtain ⟨hpasses, hrefused, -⟩ := hn fuel hfuel
      rcases hcheck with hpass | ⟨hsame, hrefuse⟩
      · rw [hpasses hpass]
        exact ⟨hframe, hacyclic⟩
      · obtain ⟨what, hwhat⟩ := hrefused hrefuse
        rw [hwhat]
        exact hsame
  · refine iff_of_true ⟨0, fun fuel _ => ?_⟩ fun h => absurd h haccepted
    obtain ⟨what, hwhat⟩ :=
      setCameraExtrinsics_of_not order d fuel src dst haccepted
    rw [hwhat]
    exact rfl

/-! ### A link that stays -/

/-- The order of a list, with a new element at its end. -/
def atEnd (K : Type) : EmplaceOrder K where
  emplace l kv := l ++ [kv]
  perm l kv := List.perm_append_singleton kv l

omit [Field K] [DecidableEq K] in
theorem acyclic_of_rank (rank : CameraBoardSocket → ℕ)
    (h : ∀ a b, d.Linked a b → rank b < rank a) : d.Acyclic := by
  intro a ha
  have hlt : ∀ b, Relation.TransGen d.Linked a b → rank b < rank a := by
    intro b hb
    induction hb with
    | single hlink => exact h _ _ hlink
    | tail _ hlink ih => exact (h _ _ hlink).trans ih
  exact lt_irrefl _ (hlt a ha)

theorem acyclic_threeCameras : (threeCameras 7).Acyclic := by
  refine acyclic_of_rank (fun | .CAM_C => 2 | .CAM_B => 1 | _ => 0) fun a b h => ?_
  cases a <;> cases h <;> decide

/-- `CAM_D` is linked to a camera that is not there, and `CAM_B` to the origin. -/
def danglingFirst : EepromData ℚ where
  version := 7
  productName := ""
  cameraData := [(.CAM_D, turned .CAM_E), (.CAM_A, turned .AUTO), (.CAM_B, turned .CAM_A)]
  housingExtrinsics := (turned .CAM_A).extrinsics
  nodup := by decide

theorem acyclic_danglingFirst : danglingFirst.Acyclic := by
  refine acyclic_of_rank (fun | .CAM_D => 1 | .CAM_B => 1 | _ => 0) fun a b h => ?_
  cases a <;> cases h <;> decide

theorem setCameraExtrinsics_atomic_iff_threeCameras :
    (∃ n, ∀ fuel ≥ n, Atomic (threeCameras 7) .CAM_C
      (setCameraExtrinsics (threeCameras 7) (atEnd ℚ) fuel .CAM_C .CAM_A
        [[1, 0, 0], [0, 1, 0], [0, 0, 1]] [1, 2, 3] [1, 2, 4])) ↔
    (Accepted (K := ℚ) [[1, 0, 0], [0, 1, 0], [0, 0, 1]] [1, 2, 3] [1, 2, 4] →
      let d' := (threeCameras 7).write (atEnd ℚ) .CAM_C
        (extrinsicsOf .CAM_A [[1, 0, 0], [0, 1, 0], [0, 0, 1]] [1, 2, 3] [1, 2, 4])
      d'.Acyclic ∧
        (d'.Passes d'.cameras ∨ d' = threeCameras 7 ∧ d'.Refused d'.cameras)) :=
  setCameraExtrinsics_atomic_iff (threeCameras 7) acyclic_threeCameras (atEnd ℚ) .CAM_C .CAM_A
    [[1, 0, 0], [0, 1, 0], [0, 0, 1]] [1, 2, 3] [1, 2, 4]

/-- **A link that closes a circle stays,** whether the call throws or, behind a link to a camera
that is not there, returns. -/
theorem not_atomic_circle :
    (threeCameras 7).Acyclic ∧ danglingFirst.Acyclic ∧
      (¬∃ n, ∀ fuel ≥ n, Atomic (threeCameras 7) .CAM_A
        (setCameraExtrinsics (threeCameras 7) (atEnd ℚ) fuel .CAM_A .CAM_C
          [[1, 0, 0], [0, 1, 0], [0, 0, 1]] [1, 2, 3] [1, 2, 4])) ∧
      ¬∃ n, ∀ fuel ≥ n, Atomic danglingFirst .CAM_A
        (setCameraExtrinsics danglingFirst (atEnd ℚ) fuel .CAM_A .CAM_B
          [[1, 0, 0], [0, 1, 0], [0, 0, 1]] [1, 2, 3] [1, 2, 4]) := by
  have hcircle {d : EepromData ℚ} {src dst : CameraBoardSocket} (hd : d.Acyclic)
      (hback : Relation.TransGen (d.write (atEnd ℚ) src (extrinsicsOf dst
        [[1, 0, 0], [0, 1, 0], [0, 0, 1]] [1, 2, 3] [1, 2, 4])).Linked src src) :
      ¬∃ n, ∀ fuel ≥ n, Atomic d src (setCameraExtrinsics d (atEnd ℚ) fuel src dst
        [[1, 0, 0], [0, 1, 0], [0, 0, 1]] [1, 2, 3] [1, 2, 4]) := by
    rintro ⟨n, hn⟩
    have hatomic := hn n le_rfl
    rw [setCameraExtrinsics_of_accepted _ _ _ _ _ ⟨rfl, rfl, rfl, rfl⟩] at hatomic
    exact hatomic.acyclic hd src hback
  refine ⟨acyclic_threeCameras, acyclic_danglingFirst, hcircle acyclic_threeCameras ?_,
    hcircle acyclic_danglingFirst ?_⟩
  · exact .head (show Linked _ .CAM_A .CAM_C from rfl)
      (.head (show Linked _ .CAM_C .CAM_B from rfl) (.single (show Linked _ .CAM_B .CAM_A from rfl)))
  · exact .head (show Linked _ .CAM_A .CAM_B from rfl)
      (.single (show Linked _ .CAM_B .CAM_A from rfl))

end Field

end CalibrationHandler

end Setter

end DepthaiCore
