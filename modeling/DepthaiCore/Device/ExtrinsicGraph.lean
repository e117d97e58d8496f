import DepthaiCore.Device.CalibrationHandler
import DepthaiCore.Lib.Chains

/-!
# The links between the cameras

The link of a camera leads to another one, or the camera is an origin. Both walks along the links,
that of `validateExtrinsicGraph` and that of `getExtrinsicsToOrigin`, get to the end of a chain if
there is one, and return with an error if there is none. So the check accepts the calibration
exactly when every two cameras have poses relative to each other.
-/

namespace DepthaiCore

open MatrixOps

namespace EepromData

variable {K : Type} (d : EepromData K)

/-- Where the link of a camera leads to: an origin has no link. -/
def link (a : CameraBoardSocket) : Option (Option CameraBoardSocket) :=
  (d.find a).map fun info =>
    if info.extrinsics.toCameraSocket = .AUTO then none else some info.extrinsics.toCameraSocket

/-- The rotations of all links have three rows and columns. -/
def WellFormed : Prop :=
  ∀ a info, d.find a = some info → info.extrinsics.toCameraSocket ≠ .AUTO →
    IsThreeByThree info.extrinsics.rotationMatrix

variable {d}

theorem find_isSome_iff {a : CameraBoardSocket} : (d.find a).isSome ↔ a ∈ d.cameras := by
  rw [find, cameras, List.lookup_isSome_iff]
  simp

theorem link_isSome_iff {a : CameraBoardSocket} : (d.link a).isSome ↔ a ∈ d.cameras := by
  rw [link, Option.isSome_map, find_isSome_iff]

theorem link_eq_root {a : CameraBoardSocket} :
    d.link a = some none ↔ ∃ info, d.find a = some info ∧ info.extrinsics.toCameraSocket = .AUTO := by
  rw [link, Option.map_eq_some_iff]
  refine exists_congr fun info => and_congr_right fun _ => ?_
  split <;> simp_all

theorem link_eq_some {a b : CameraBoardSocket} :
    d.link a = some (some b) ↔
      ∃ info, d.find a = some info ∧ info.extrinsics.toCameraSocket = b ∧ b ≠ .AUTO := by
  rw [link, Option.map_eq_some_iff]
  refine exists_congr fun info => and_congr_right fun _ => ?_
  split <;> simp_all
  rintro rfl
  assumption

theorem mem_of_find {a : CameraBoardSocket} {info : CameraInfo K} (h : d.find a = some info) :
    (a, info) ∈ d.cameraData := by
  obtain ⟨before, after, hdata, -⟩ := List.lookup_eq_some_iff.1 h
  rw [hdata]
  simp

theorem wellFormed_of_forall (h : ∀ kv ∈ d.cameraData, kv.2.extrinsics.toCameraSocket ≠ .AUTO →
    IsThreeByThree kv.2.extrinsics.rotationMatrix) : d.WellFormed :=
  fun a info hfind => h (a, info) (mem_of_find hfind)

end EepromData

namespace CalibrationHandler

open EepromData

variable {K : Type} {d : EepromData K} {fuel n : ℕ} {a o : CameraBoardSocket}
  {l path : List CameraBoardSocket}

/-! ### The walk to the origin -/

theorem originStep_of_none (h : d.link a = none) :
    originStep d (a, path) = runtimeError "Invalid camera link detected." := by
  have hfind : d.find a = none := by simpa [link] using h
  simp only [originStep, hfind]

theorem originStep_of_root (h : d.link a = some none) :
    originStep d (a, path) =
      if .AUTO ∈ path then runtimeError "Cyclic extrinsics detected in device calibration data."
      else .ok (.inr a) := by
  obtain ⟨info, hfind, hauto⟩ := link_eq_root.1 h
  simp only [originStep, hfind, hauto, if_true]

theorem originStep_of_link {b : CameraBoardSocket} (h : d.link a = some (some b)) :
    originStep d (a, path) =
      if b ∈ path then runtimeError "Cyclic extrinsics detected in device calibration data."
      else .ok (.inl (b, path ++ [b])) := by
  obtain ⟨info, hfind, hto, hauto⟩ := link_eq_some.1 h
  simp only [originStep, hfind, hto, if_neg hauto]

theorem runtimeError_ne_ok {α : Type} {what : String} {x : α} : runtimeError what ≠ .ok x := by
  simp [runtimeError]

theorem runtimeError_ne_pending {α : Type} {what : String} :
    (runtimeError what : Except (Stop Failure) α) ≠ .error .pending := by
  simp [runtimeError]

/-- The walk goes along the chain. No camera behind the first one has been there. -/
theorem loop_originStep_of_chain (h : Chain d.link a l o) (hpath : ∀ x ∈ path, x ∉ l.tail)
    (hauto : .AUTO ∉ path) (hn : l.length ≤ n) :
    Whiles.loop (originStep d) n (a, path) = .ok o := by
  induction h generalizing path n with
  | root h =>
    obtain ⟨m, rfl⟩ := Nat.exists_eq_add_one.2 hn
    exact Whiles.loop_of_done (by rw [originStep_of_root h, if_neg hauto])
  | @link a b o l hlink hl ih =>
    obtain ⟨m, rfl⟩ := Nat.exists_eq_add_one.2 (Nat.lt_of_lt_of_le (Nat.succ_pos _) hn)
    have hb : b ∉ path := fun hb => hpath b hb hl.mem_left
    rw [Whiles.loop_of_next (by rw [originStep_of_link hlink, if_neg hb])]
    refine ih ?_ ?_ (Nat.le_of_succ_le_succ hn)
    · intro x hx hx'
      rcases List.mem_append.1 hx with hx | hx
      · exact hpath x hx (List.mem_of_mem_tail hx')
      · obtain rfl := List.mem_singleton.1 hx
        cases hl with
        | root _ => cases hx'
        | link hlink' hl' => exact Chain.notMem_of_link hlink' hl' hx'
    · obtain ⟨_, -, -, hne⟩ := link_eq_some.1 hlink
      simpa [hauto] using Ne.symm hne

theorem chain_of_loop_originStep (h : Whiles.loop (originStep d) n (a, path) = .ok o) :
    .AUTO ∉ path ∧ ∃ l, Chain d.link a l o := by
  induction n generalizing a path with
  | zero => cases h
  | succ n ih =>
    rcases hlink : d.link a with _ | (_ | b)
    · rw [Whiles.loop_of_error (originStep_of_none hlink)] at h
      cases h
    · by_cases hauto : .AUTO ∈ path
      · rw [Whiles.loop_of_error (by rw [originStep_of_root hlink, if_pos hauto]; rfl)] at h
        cases h
      · rw [Whiles.loop_of_done (by rw [originStep_of_root hlink, if_neg hauto])] at h
        cases h
        exact ⟨hauto, _, .root hlink⟩
    · by_cases hb : b ∈ path
      · rw [Whiles.loop_of_error (by rw [originStep_of_link hlink, if_pos hb]; rfl)] at h
        cases h
      · rw [Whiles.loop_of_next (by rw [originStep_of_link hlink, if_neg hb])] at h
        obtain ⟨hauto, l, hl⟩ := ih h
        exact ⟨fun hmem => hauto (List.mem_append_left _ hmem), _, .link hlink hl⟩

/-- The path has all its cameras but the last one in the map, and none twice. -/
theorem loop_originStep_ne_pending (hfuel : d.cameras.length < fuel) :
    Whiles.loop (originStep d) fuel (a, [a]) ≠ .error .pending := by
  refine Whiles.loop_ne_pending (I := fun n s => s.2.Nodup ∧
    (∀ x ∈ s.2, x = s.1 ∨ x ∈ d.cameras) ∧ d.cameras.length + 1 < n + s.2.length) ?_ ?_ ?_ ?_
  · rintro ⟨a, path⟩ ⟨hnodup, hmem, hlength⟩
    have hsub : path ⊆ a :: d.cameras := fun x hx => List.mem_cons.2 (hmem x hx)
    have hle := (List.subperm_of_subset hnodup hsub).length_le
    have hlength' : d.cameras.length + 1 < 0 + path.length := hlength
    rw [List.length_cons] at hle
    omega
  · rintro ⟨a, path⟩
    rcases hlink : d.link a with _ | (_ | b)
    · rw [originStep_of_none hlink]
      exact runtimeError_ne_pending
    · rw [originStep_of_root hlink]
      split
      · exact runtimeError_ne_pending
      · simp
    · rw [originStep_of_link hlink]
      split
      · exact runtimeError_ne_pending
      · simp
  · rintro n ⟨a, path⟩ ⟨b, path'⟩ ⟨hnodup, hmem, hlength⟩ hstep
    rcases hlink : d.link a with _ | (_ | b')
    · rw [originStep_of_none hlink] at hstep
      cases hstep
    · rw [originStep_of_root hlink] at hstep
      split at hstep <;> cases hstep
    · rw [originStep_of_link hlink] at hstep
      split at hstep
      · cases hstep
      · rename_i hb
        cases hstep
        have ha : a ∈ d.cameras := link_isSome_iff.1 (by rw [hlink]; rfl)
        refine ⟨?_, ?_, ?_⟩
        · rw [← List.concat_eq_append]
          exact hnodup.concat hb
        · intro x hx
          rcases List.mem_append.1 hx with hx | hx
          · rcases hmem x hx with rfl | hx
            · exact .inr ha
            · exact .inr hx
          · exact .inl (List.mem_singleton.1 hx)
        · have hlength' : d.cameras.length + 1 < n + 1 + path.length := hlength
          rw [List.length_append, List.length_singleton]
          omega
  · refine ⟨List.nodup_singleton a, fun x hx => .inl (List.mem_singleton.1 hx), ?_⟩
    rw [List.length_singleton]
    omega

/-- **The walk to the origin ends at the root of a chain.** -/
theorem loop_originStep_iff (hfuel : d.cameras.length < fuel) :
    Whiles.loop (originStep d) fuel (a, [a]) = .ok o ↔ a ≠ .AUTO ∧ ∃ l, Chain d.link a l o := by
  constructor
  · intro h
    obtain ⟨hauto, hl⟩ := chain_of_loop_originStep h
    exact ⟨fun ha => hauto (List.mem_singleton.2 ha.symm), hl⟩
  · rintro ⟨hauto, l, hl⟩
    have hle := hl.length_le fun _ h => link_isSome_iff.1 h
    refine loop_originStep_of_chain hl ?_ (by simpa using Ne.symm hauto) (by omega)
    intro x hx
    obtain rfl := List.mem_singleton.1 hx
    cases hl with
    | root _ => exact List.not_mem_nil
    | link hlink hl' => exact Chain.notMem_of_link hlink hl'

/-! ### The walk of the check -/

theorem validateStep_of_isSome (h : (d.link a).isSome) :
    validateStep d (a, path) =
      if a ∈ path then
        .ok (.inr (some
          { error := .CycleDetected, atSocket := a, toSocket := ((d.link a).join).getD .AUTO }))
      else match d.link a with
        | some (some b) =>
          if b ∈ d.cameras then .ok (.inl (b, a :: path))
          else .ok (.inr (some { error := .DanglingReference, atSocket := a, toSocket := b }))
        | _ => .ok (.inr none) := by
  rcases hlink : d.link a with _ | (_ | b)
  · rw [hlink] at h
    cases h
  · obtain ⟨info, hfind, hauto⟩ := link_eq_root.1 hlink
    simp only [validateStep, hfind, hauto, if_true]
    rfl
  · obtain ⟨info, hfind, hto, hauto⟩ := link_eq_some.1 hlink
    simp only [validateStep, hfind, hto, if_neg hauto, ← find_isSome_iff]
    by_cases hb : (d.find b).isSome
    · simp [hb, Option.isSome_iff_ne_none.1 hb]
    · rw [Option.not_isSome_iff_eq_none] at hb
      simp [hb]

theorem validateStep_of_none (h : d.link a = none) :
    validateStep d (a, path) = runtimeError "unordered_map::at" := by
  have hfind : d.find a = none := by simpa [link] using h
  simp only [validateStep, hfind]

theorem loop_validateStep_of_chain (h : Chain d.link a l o) (hpath : ∀ x ∈ path, x ∉ l)
    (hn : l.length ≤ n) : Whiles.loop (validateStep d) n (a, path) = .ok none := by
  induction h generalizing path n with
  | root h =>
    obtain ⟨m, rfl⟩ := Nat.exists_eq_add_one.2 hn
    refine Whiles.loop_of_done ?_
    rw [validateStep_of_isSome (by rw [h]; rfl), if_neg fun ha => hpath _ ha List.mem_cons_self, h]
  | @link a b o l hlink hl ih =>
    obtain ⟨m, rfl⟩ := Nat.exists_eq_add_one.2 (Nat.lt_of_lt_of_le (Nat.succ_pos _) hn)
    have hb : b ∈ d.cameras := link_isSome_iff.1 (hl.isSome_of_mem hl.mem_left)
    have hstep : validateStep d (a, path) = .ok (.inl (b, a :: path)) := by
      rw [validateStep_of_isSome (by rw [hlink]; rfl), if_neg fun ha => hpath _ ha List.mem_cons_self,
        hlink]
      exact if_pos hb
    rw [Whiles.loop_of_next hstep]
    refine ih (fun x hx hx' => ?_) (Nat.le_of_succ_le_succ hn)
    rcases List.mem_cons.1 hx with rfl | hx
    · exact Chain.notMem_of_link hlink hl hx'
    · exact hpath x hx (List.mem_cons_of_mem _ hx')

theorem loop_validateStep_cases {r : Option ExtrinsicGraphValidationResult}
    (h : Whiles.loop (validateStep d) n (a, path) = .ok r) :
    (r = none ∧ ∃ l o, Chain d.link a l o) ∨ ∃ result, r = some result ∧ result.error ≠ .None := by
  induction n generalizing a path with
  | zero => cases h
  | succ n ih =>
    by_cases hsome : (d.link a).isSome
    · have hstep : validateStep d (a, path) = _ := validateStep_of_isSome hsome
      by_cases ha : a ∈ path
      · rw [if_pos ha] at hstep
        rw [Whiles.loop_of_done hstep] at h
        cases h
        exact .inr ⟨_, rfl, by simp⟩
      · rw [if_neg ha] at hstep
        rcases hlink : d.link a with _ | (_ | b)
        · rw [hlink] at hsome
          cases hsome
        · rw [hlink] at hstep
          rw [Whiles.loop_of_done hstep] at h
          cases h
          exact .inl ⟨rfl, _, _, .root hlink⟩
        · rw [hlink] at hstep
          by_cases hb : b ∈ d.cameras
          · rw [Whiles.loop_of_next (hstep.trans (if_pos hb))] at h
            rcases ih h with ⟨rfl, l, o, hl⟩ | hresult
            · exact .inl ⟨rfl, _, _, .link hlink hl⟩
            · exact .inr hresult
          · rw [Whiles.loop_of_done (hstep.trans (if_neg hb))] at h
            cases h
            exact .inr ⟨_, rfl, by simp⟩
    · rw [Whiles.loop_of_error (validateStep_of_none (Option.not_isSome_iff_eq_none.1 hsome))] at h
      cases h

/-- All cameras that have been visited are in the map, and none twice. -/
theorem loop_validateStep_ne_pending (hfuel : d.cameras.length < fuel) :
    Whiles.loop (validateStep d) fuel (a, []) ≠ .error .pending := by
  refine Whiles.loop_ne_pending (I := fun n s => s.2.Nodup ∧ s.2 ⊆ d.cameras ∧
    d.cameras.length < n + s.2.length) ?_ ?_ ?_ ⟨List.nodup_nil, List.nil_subset _, hfuel⟩
  · rintro ⟨a, path⟩ ⟨hnodup, hsub, hlength⟩
    have hle := (List.subperm_of_subset hnodup hsub).length_le
    have hlength' : d.cameras.length < 0 + path.length := hlength
    dsimp only at hle
    omega
  · rintro ⟨a, path⟩
    by_cases hsome : (d.link a).isSome
    · rw [validateStep_of_isSome hsome]
      split
      · simp
      · split
        · split <;> simp
        · simp
    · rw [validateStep_of_none (Option.not_isSome_iff_eq_none.1 hsome)]
      exact runtimeError_ne_pending
  · rintro n ⟨a, path⟩ ⟨b, path'⟩ ⟨hnodup, hsub, hlength⟩ hstep
    by_cases hsome : (d.link a).isSome
    · rw [validateStep_of_isSome hsome] at hstep
      split at hstep
      · cases hstep
      · rename_i ha
        split at hstep
        · split at hstep
          · cases hstep
            refine ⟨List.nodup_cons.2 ⟨ha, hnodup⟩,
              List.cons_subset.2 ⟨link_isSome_iff.1 hsome, hsub⟩, ?_⟩
            have hlength' : d.cameras.length < n + 1 + path.length := hlength
            rw [List.length_cons]
            omega
          · cases hstep
        · cases hstep
    · rw [validateStep_of_none (Option.not_isSome_iff_eq_none.1 hsome)] at hstep
      cases hstep

/-- **The walk of the check finds no error exactly where there is a chain.** -/
theorem loop_validateStep_iff (hfuel : d.cameras.length < fuel) :
    Whiles.loop (validateStep d) fuel (a, []) = .ok none ↔ ∃ l o, Chain d.link a l o := by
  constructor
  · intro h
    rcases loop_validateStep_cases h with ⟨-, hl⟩ | ⟨result, hnone, -⟩
    · exact hl
    · cases hnone
  · rintro ⟨l, o, hl⟩
    have hle := hl.length_le fun _ h => link_isSome_iff.1 h
    exact loop_validateStep_of_chain hl (by simp) (by omega)

theorem hasCameraCalibration_of_mem (hversion : 4 ≤ d.version) (ha : a ∈ d.cameras) :
    hasCameraCalibration d a = true := by
  have hempty : d.cameraData.isEmpty = false := by
    rw [cameras] at ha
    cases hdata : d.cameraData with
    | nil => rw [hdata] at ha; cases ha
    | cons _ _ => rfl
  rw [hasCameraCalibration, hasCalibrationData, hempty, find_isSome_iff.2 ha]
  simp [hversion]

theorem root_ne_auto (h : Chain d.link a l o) (ha : a ≠ .AUTO) : o ≠ .AUTO := by
  induction h with
  | root _ => exact ha
  | link hlink _ ih =>
    obtain ⟨_, -, -, hb⟩ := link_eq_some.1 hlink
    exact ih hb

/-! ### The poses along a chain -/

section Poses

open RigidMotion

variable [Field K] [DecidableEq K] {useSpec : Bool}

/-- The motion that the link of a camera stands for. -/
def linkMotion (extrinsics : Extrinsics K) (useSpec : Bool) : Matrix4 K :=
  let t := if useSpec then extrinsics.specTranslation else extrinsics.translation
  motion (rotationOf extrinsics.rotationMatrix) ![t.x, t.y, t.z]

/-- The motion from a camera to the one that its link leads to. -/
def cameraMotion (d : EepromData K) (useSpec : Bool) (a : CameraBoardSocket) : Matrix4 K :=
  match d.find a with
  | some info => linkMotion info.extrinsics useSpec
  | none => 1

/-- The motion from the first camera of a chain to the last one. -/
def chainMotion (d : EepromData K) (useSpec : Bool) : List CameraBoardSocket → Matrix4 K
  | [] => 1
  | [_] => 1
  | a :: b :: l => chainMotion d useSpec (b :: l) * cameraMotion d useSpec a

/-- The translation that is asked for is there: the one of the design must not be zero. -/
def hasTranslation (d : EepromData K) (useSpec : Bool) (a : CameraBoardSocket) : Bool :=
  !useSpec ||
    match d.find a with
    | some info =>
      let t := info.extrinsics.specTranslation
      !(t.x = 0 ∧ t.y = 0 ∧ t.z = 0)
    | none => true

/-- The error for a translation that is not there. -/
def noSpecTranslation {α : Type} : Except (Stop Failure) α :=
  runtimeError "Cannot use useSpecTranslation argument since specTranslation has {0, 0, 0}"

theorem transformationMatrix_eq {info : CameraInfo K} (hfind : d.find a = some info)
    (h : IsThreeByThree info.extrinsics.rotationMatrix) :
    transformationMatrix info.extrinsics useSpec =
      if hasTranslation d useSpec a then .ok (rows (cameraMotion d useSpec a))
      else noSpecTranslation := by
  cases useSpec with
  | false => simp [transformationMatrix, hasTranslation, cameraMotion, hfind, linkMotion,
      pushTranslation_eq h]
  | true =>
    simp only [transformationMatrix, hasTranslation, cameraMotion, hfind, linkMotion, if_true,
      pushTranslation_eq h]
    split <;> simp_all [noSpecTranslation]

/-- **The recursion puts the motions of a chain together.** -/
theorem computeExtrinsicMatrix_eq (hversion : 4 ≤ d.version) (hd : d.WellFormed)
    (h : Chain d.link a l o) (ha : a ≠ .AUTO) (hne : a ≠ o) (hn : l.length ≤ n) :
    computeExtrinsicMatrix d n a o useSpec =
      if l.dropLast.all (hasTranslation d useSpec) then .ok (rows (chainMotion d useSpec l))
      else noSpecTranslation := by
  induction h generalizing n with
  | root _ => exact absurd rfl hne
  | @link a b o l hlink hl ih =>
    obtain ⟨m, rfl⟩ := Nat.exists_eq_add_one.2 (Nat.lt_of_lt_of_le (Nat.succ_pos _) hn)
    obtain ⟨info, hfind, hto, hb⟩ := link_eq_some.1 hlink
    have hrotation := hd a info hfind (by rw [hto]; exact hb)
    have hlength : info.extrinsics.rotationMatrix.length ≠ 0 := by
      rw [hrotation.1]
      decide
    have hsrc := hasCameraCalibration_of_mem hversion
      (link_isSome_iff.1 (show (d.link a).isSome by rw [hlink]; rfl))
    have hdst := hasCameraCalibration_of_mem hversion
      (link_isSome_iff.1 (show (d.link o).isSome by rw [hl.next_root]; rfl))
    have ho := root_ne_auto hl hb
    obtain ⟨l', rfl⟩ : ∃ l', l = b :: l' := by
      cases hl <;> exact ⟨_, rfl⟩
    rw [computeExtrinsicMatrix, if_neg (by simp [ha, ho]), hsrc, hdst, hfind]
    simp only [Bool.not_true, Bool.false_eq_true, if_false, hto]
    by_cases hbo : b = o
    · -- the link leads to the root itself
      rw [if_pos hbo, if_neg (by simp [hlength, hb]), transformationMatrix_eq hfind hrotation]
      rw [(List.cons.inj (hl.eq_root_iff.1 hbo)).2]
      simp [chainMotion]
    · rw [if_neg hbo, ih hb hbo (Nat.le_of_succ_le_succ hn),
        transformationMatrix_eq hfind hrotation, List.dropLast_cons_cons, List.all_cons]
      cases (b :: l').dropLast.all (hasTranslation d useSpec) with
      | false =>
        rw [Bool.and_false]
        rfl
      | true =>
        cases hasTranslation d useSpec a with
        | false => rfl
        | true =>
          simp only [if_true, Loop.ok_bind, matMulRows_rows, Stop.lift_ok, Bool.and_self]
          rfl

/-- The motion from a camera to its origin, if there is a chain. -/
theorem getExtrinsicsToOrigin_eq (hversion : 4 ≤ d.version) (hd : d.WellFormed)
    (hfuel : d.cameras.length < fuel) (h : Chain d.link a l o) (ha : a ≠ .AUTO) :
    getExtrinsicsToOrigin d fuel a useSpec =
      if l.dropLast.all (hasTranslation d useSpec) then .ok (rows (chainMotion d useSpec l), o)
      else noSpecTranslation := by
  have hfind : (d.find a).isNone = false := by
    have hsome := find_isSome_iff.2 (link_isSome_iff.1 (h.isSome_of_mem h.mem_left))
    simpa using hsome
  have hle := h.length_le fun _ hb => link_isSome_iff.1 hb
  rw [getExtrinsicsToOrigin, hfind, (loop_originStep_iff hfuel).2 ⟨ha, l, h⟩]
  simp only [Bool.false_eq_true, if_false, Loop.ok_bind]
  by_cases hao : a = o
  · rw [if_pos hao, h.eq_root_iff.1 hao]
    simp [chainMotion, rows, pure, Except.pure]
  · rw [if_neg hao, computeExtrinsicMatrix_eq hversion hd h ha hao (by omega)]
    split <;> rfl

theorem getExtrinsicsToOrigin_of_not (hfuel : d.cameras.length < fuel)
    (h : ¬(a ≠ .AUTO ∧ ∃ l o, Chain d.link a l o)) :
    ∃ what, getExtrinsicsToOrigin d fuel a useSpec = .error (.throws what) := by
  rw [getExtrinsicsToOrigin]
  split
  · exact ⟨_, rfl⟩
  · rcases hloop : Whiles.loop (originStep d) fuel (a, [a]) with (what | _) | o
    · exact ⟨what, rfl⟩
    · exact absurd hloop (loop_originStep_ne_pending hfuel)
    · obtain ⟨ha, l, hl⟩ := (loop_originStep_iff hfuel).1 hloop
      exact absurd ⟨ha, l, o, hl⟩ h

/-- **What `getExtrinsicsToOrigin` returns** is the motion along a chain. -/
theorem getExtrinsicsToOrigin_eq_ok_iff (hversion : 4 ≤ d.version) (hd : d.WellFormed)
    (hfuel : d.cameras.length < fuel) {m : List (List K)} :
    getExtrinsicsToOrigin d fuel a useSpec = .ok (m, o) ↔
      a ≠ .AUTO ∧ ∃ l, Chain d.link a l o ∧ l.dropLast.all (hasTranslation d useSpec) ∧
        m = rows (chainMotion d useSpec l) := by
  by_cases h : a ≠ .AUTO ∧ ∃ l o, Chain d.link a l o
  · obtain ⟨ha, l, o', hl⟩ := h
    rw [getExtrinsicsToOrigin_eq hversion hd hfuel hl ha]
    constructor
    · intro hok
      split at hok
      · cases hok
        exact ⟨ha, l, hl, ‹_›, rfl⟩
      · cases hok
    · rintro ⟨-, l', hl', hspec, rfl⟩
      obtain ⟨rfl, rfl⟩ := hl.unique hl'
      rw [if_pos hspec]
  · obtain ⟨what, herror⟩ : ∃ what, getExtrinsicsToOrigin d fuel a useSpec =
        .error (.throws what) := getExtrinsicsToOrigin_of_not hfuel h
    rw [herror]
    refine iff_of_false (fun hok => ?_) (fun ⟨ha, l, hl, _⟩ => h ⟨ha, l, o, hl⟩)
    cases hok

theorem getExtrinsicsToOrigin_ne_pending (hversion : 4 ≤ d.version) (hd : d.WellFormed)
    (hfuel : d.cameras.length < fuel) :
    getExtrinsicsToOrigin d fuel a useSpec ≠ .error .pending := by
  by_cases h : a ≠ .AUTO ∧ ∃ l o, Chain d.link a l o
  · obtain ⟨ha, l, o', hl⟩ := h
    rw [getExtrinsicsToOrigin_eq hversion hd hfuel hl ha]
    split
    · simp
    · exact runtimeError_ne_pending
  · obtain ⟨what, herror⟩ : ∃ what, getExtrinsicsToOrigin d fuel a useSpec =
        .error (.throws what) := getExtrinsicsToOrigin_of_not hfuel h
    rw [herror]
    simp

/-! ### Poses of cameras -/

/-- How many of the units there are in a centimeter. -/
def unitScale (unit : LengthUnit) : K :=
  getLengthUnitMultiplier unit / getLengthUnitMultiplier .CENTIMETER

theorem scaleTranslationInPlace_rows (M : Matrix4 K) (unit : LengthUnit) :
    scaleTranslationInPlace (rows M) unit = rows (scaleShift (unitScale unit) M) := by
  rw [scaleTranslationInPlace, ← unitScale]
  split
  · rename_i hone
    rw [hone, scaleShift_one]
  · exact scaleTranslation_rows M _

variable {b : CameraBoardSocket} {unit : LengthUnit}

/-- **What `getCameraExtrinsics` returns** is put together from the chains of both cameras to one
origin. -/
theorem getCameraExtrinsics_eq_ok_iff (hversion : 4 ≤ d.version) (hd : d.WellFormed)
    (hfuel : d.cameras.length < fuel) {m : List (List K)} :
    getCameraExtrinsics d fuel a b useSpec unit = .ok m ↔
      a ≠ .AUTO ∧ b ≠ .AUTO ∧ ∃ o l l', Chain d.link a l o ∧ Chain d.link b l' o ∧
        l.dropLast.all (hasTranslation d useSpec) ∧ l'.dropLast.all (hasTranslation d useSpec) ∧
        m = rows (scaleShift (unitScale unit)
          (reverse (chainMotion d useSpec l') * chainMotion d useSpec l)) := by
  have hcall {a : CameraBoardSocket} {l : List CameraBoardSocket} {o : CameraBoardSocket}
      (hl : Chain d.link a l o) : (!hasCameraCalibration d a) = false := by
    rw [hasCameraCalibration_of_mem hversion (link_isSome_iff.1 (hl.isSome_of_mem hl.mem_left))]
    rfl
  constructor
  · intro h
    rw [getCameraExtrinsics] at h
    split at h
    · cases h
    · split at h
      · cases h
      · obtain ⟨⟨m₁, o₁⟩, h₁, h⟩ := Loop.bind_eq_ok.1 h
        obtain ⟨⟨m₂, o₂⟩, h₂, h⟩ := Loop.bind_eq_ok.1 h
        obtain ⟨ha, l, hl, hspec, rfl⟩ := (getExtrinsicsToOrigin_eq_ok_iff hversion hd hfuel).1 h₁
        obtain ⟨hb, l', hl', hspec', rfl⟩ := (getExtrinsicsToOrigin_eq_ok_iff hversion hd hfuel).1 h₂
        dsimp only at h
        split at h
        · cases h
        · rename_i horigin
          obtain rfl := not_not.1 horigin
          rw [invertSe3Matrix4x4InPlace_rows, Stop.lift_ok, Loop.ok_bind, matMulRows_rows,
            Stop.lift_ok, Loop.ok_bind, scaleTranslationInPlace_rows] at h
          cases h
          exact ⟨ha, hb, _, l, l', hl, hl', hspec, hspec', rfl⟩
  · rintro ⟨ha, hb, o, l, l', hl, hl', hspec, hspec', rfl⟩
    rw [getCameraExtrinsics, hcall hl, hcall hl']
    simp only [Bool.false_eq_true, if_false]
    rw [getExtrinsicsToOrigin_eq hversion hd hfuel hl ha, if_pos hspec, Loop.ok_bind,
      getExtrinsicsToOrigin_eq hversion hd hfuel hl' hb, if_pos hspec', Loop.ok_bind]
    dsimp only
    rw [if_neg (by simp), invertSe3Matrix4x4InPlace_rows, Stop.lift_ok, Loop.ok_bind,
      matMulRows_rows, Stop.lift_ok, Loop.ok_bind, scaleTranslationInPlace_rows]
    rfl

theorem getCameraExtrinsics_ne_pending (hversion : 4 ≤ d.version) (hd : d.WellFormed)
    (hfuel : d.cameras.length < fuel) :
    getCameraExtrinsics d fuel a b useSpec unit ≠ .error .pending := by
  have horigin {c : CameraBoardSocket} :
      getExtrinsicsToOrigin d fuel c useSpec ≠ .error .pending :=
    getExtrinsicsToOrigin_ne_pending hversion hd hfuel
  rw [getCameraExtrinsics]
  split
  · exact runtimeError_ne_pending
  · split
    · exact runtimeError_ne_pending
    · refine Stop.bind_ne_pending horigin fun p _ => Stop.bind_ne_pending horigin fun q _ => ?_
      dsimp only
      split
      · exact runtimeError_ne_pending
      · refine Stop.bind_ne_pending (Stop.lift_ne_pending _) fun _ _ =>
          Stop.bind_ne_pending (Stop.lift_ne_pending _) fun _ _ => ?_
        exact fun h => by cases h

/-! ### The check -/

/-- What the check notes down for a camera: the root of its chain. -/
def Noted (d : EepromData K) (a : CameraBoardSocket)
    (kv : CameraBoardSocket × CameraBoardSocket) : Prop :=
  kv.1 = a ∧ a ≠ .AUTO ∧ ∃ l, Chain d.link a l kv.2

theorem hasTranslation_false (l : List CameraBoardSocket) :
    l.all (hasTranslation d false) = true := by
  simp [hasTranslation]

/-- The loop over the cameras gets through if all of them have chains. -/
theorem validateCameras_iff (hversion : 4 ≤ d.version) (hd : d.WellFormed)
    (hfuel : d.cameras.length < fuel)
    {originMap noted : List (CameraBoardSocket × CameraBoardSocket)}
    {cameras : List CameraBoardSocket} :
    validateCameras d fuel originMap cameras = .ok (.inr noted) ↔
      ∃ rest, noted = originMap ++ rest ∧ List.Forall₂ (Noted d) cameras rest := by
  induction cameras generalizing originMap with
  | nil =>
    rw [validateCameras]
    constructor
    · intro h
      cases h
      exact ⟨[], by simp, .nil⟩
    · rintro ⟨rest, rfl, hrest⟩
      rw [List.forall₂_nil_left_iff.1 hrest, List.append_nil]
  | cons a cameras ih =>
    rw [validateCameras]
    constructor
    · intro h
      obtain ⟨r, hr, h⟩ := Loop.bind_eq_ok.1 h
      cases r with
      | some result => cases h
      | none =>
        obtain ⟨⟨m, o⟩, horigin, h⟩ := Loop.bind_eq_ok.1 h
        obtain ⟨ha, l, hl, -⟩ := (getExtrinsicsToOrigin_eq_ok_iff hversion hd hfuel).1 horigin
        obtain ⟨rest, rfl, hrest⟩ := ih.1 h
        exact ⟨(a, o) :: rest, by simp, .cons ⟨rfl, ha, l, hl⟩ hrest⟩
    · rintro ⟨rest, rfl, hrest⟩
      cases hrest with
      | @cons _ kv _ rest hnoted hrest =>
        obtain ⟨o, ho⟩ := kv
        obtain ⟨rfl, ha, l, hl⟩ := hnoted
        rw [(loop_validateStep_iff hfuel).2 ⟨l, _, hl⟩, Loop.ok_bind]
        dsimp only
        rw [getExtrinsicsToOrigin_eq hversion hd hfuel hl ha, if_pos (hasTranslation_false _),
          Loop.ok_bind]
        exact ih.2 ⟨rest, by simp, hrest⟩

/-- What the loop over the cameras returns early is an error. -/
theorem error_of_validateCameras {originMap : List (CameraBoardSocket × CameraBoardSocket)}
    {cameras : List CameraBoardSocket} {result : ExtrinsicGraphValidationResult}
    (h : validateCameras d fuel originMap cameras = .ok (.inl result)) : result.error ≠ .None := by
  induction cameras generalizing originMap with
  | nil =>
    rw [validateCameras] at h
    cases h
  | cons a cameras ih =>
    rw [validateCameras] at h
    obtain ⟨r, hr, h⟩ := Loop.bind_eq_ok.1 h
    rcases loop_validateStep_cases hr with ⟨rfl, -⟩ | ⟨result', rfl, hresult⟩
    · obtain ⟨⟨m, o⟩, -, h⟩ := Loop.bind_eq_ok.1 h
      exact ih h
    · cases h
      exact hresult

theorem validateCameras_ne_pending (hversion : 4 ≤ d.version) (hd : d.WellFormed)
    (hfuel : d.cameras.length < fuel)
    {originMap : List (CameraBoardSocket × CameraBoardSocket)}
    {cameras : List CameraBoardSocket} :
    validateCameras d fuel originMap cameras ≠ .error .pending := by
  induction cameras generalizing originMap with
  | nil =>
    rw [validateCameras]
    exact fun h => by cases h
  | cons a cameras ih =>
    rw [validateCameras]
    refine Stop.bind_ne_pending (loop_validateStep_ne_pending hfuel) fun r _ => ?_
    cases r with
    | some result => exact fun h => by cases h
    | none =>
      exact Stop.bind_ne_pending (getExtrinsicsToOrigin_ne_pending hversion hd hfuel) fun _ _ => ih

/-- The last check finds no error exactly if all origins are the same. -/
theorem validateOrigins_iff {originMap : List (CameraBoardSocket × CameraBoardSocket)} :
    (validateOrigins originMap).error = .None ↔
      ∀ x ∈ originMap, ∀ y ∈ originMap, x.2 = y.2 := by
  cases originMap with
  | nil => simp [validateOrigins]
  | cons first rest =>
    obtain ⟨start, expectedOrigin⟩ := first
    rw [validateOrigins]
    split
    · rename_i camera camOrigin hfind
      refine iff_of_false (by simp) fun hall => ?_
      have hdiffer := List.find?_some hfind
      have hsame : camOrigin = expectedOrigin :=
        hall _ (List.mem_of_find?_eq_some hfind) _ List.mem_cons_self
      simp [hsame] at hdiffer
    · rename_i hfind
      rw [List.find?_eq_none] at hfind
      have hall : ∀ x ∈ (start, expectedOrigin) :: rest, x.2 = expectedOrigin := by
        intro x hx
        simpa using hfind x hx
      exact iff_of_true rfl fun x hx y hy => (hall x hx).trans (hall y hy).symm

/-- **The check of the links is sound and complete for `getCameraExtrinsics`.** It ends, and it
finds no error exactly when all links lead to cameras and every two cameras have poses relative to
each other; these calls end as well. -/
theorem validateExtrinsicGraph_iff (d : EepromData K) (hversion : 4 ≤ d.version)
    (hd : d.WellFormed) (unit : LengthUnit) (fuel : ℕ) (hfuel : d.cameras.length < fuel) :
    validateExtrinsicGraph d fuel ≠ .error .pending ∧
    (∀ a b, getCameraExtrinsics d fuel a b false unit ≠ .error .pending) ∧
    ((∃ result, validateExtrinsicGraph d fuel = .ok result ∧ result.error = .None) ↔
      (∀ a info, d.find a = some info → info.extrinsics.toCameraSocket ≠ .AUTO →
        info.extrinsics.toCameraSocket ∈ d.cameras) ∧
      ∀ a ∈ d.cameras, ∀ b ∈ d.cameras,
        ∃ m, getCameraExtrinsics d fuel a b false unit = .ok m) := by
  have hposes : (∀ a ∈ d.cameras, ∀ b ∈ d.cameras,
      ∃ m, getCameraExtrinsics d fuel a b false unit = .ok m) ↔
        ∀ a ∈ d.cameras, ∀ b ∈ d.cameras, a ≠ .AUTO ∧ b ≠ .AUTO ∧
          ∃ o l l', Chain d.link a l o ∧ Chain d.link b l' o := by
    refine forall₂_congr fun a _ => forall₂_congr fun b _ => ?_
    constructor
    · rintro ⟨m, hm⟩
      obtain ⟨ha, hb, o, l, l', hl, hl', -⟩ :=
        (getCameraExtrinsics_eq_ok_iff hversion hd hfuel).1 hm
      exact ⟨ha, hb, o, l, l', hl, hl'⟩
    · rintro ⟨ha, hb, o, l, l', hl, hl'⟩
      exact ⟨_, (getCameraExtrinsics_eq_ok_iff hversion hd hfuel).2 ⟨ha, hb, o, l, l', hl, hl',
        hasTranslation_false _, hasTranslation_false _, rfl⟩⟩
  refine ⟨?_, fun a b => getCameraExtrinsics_ne_pending hversion hd hfuel, ?_⟩
  · refine Stop.bind_ne_pending (validateCameras_ne_pending hversion hd hfuel) fun r _ => ?_
    cases r <;> exact fun h => by cases h
  rw [hposes]
  constructor
  · rintro ⟨result, hresult, hnone⟩
    obtain ⟨r, hr, hresult⟩ := Loop.bind_eq_ok.1 hresult
    cases r with
    | inl early =>
      cases hresult
      exact absurd hnone (error_of_validateCameras hr)
    | inr noted =>
      cases hresult
      obtain ⟨rest, hrest, hnoted⟩ := (validateCameras_iff hversion hd hfuel).1 hr
      rw [List.nil_append] at hrest
      subst hrest
      have hsame := validateOrigins_iff.1 hnone
      refine ⟨fun a info hfind hto => ?_, fun a ha b hb => ?_⟩
      · -- the chain of a camera goes on at the camera that its link leads to
        have hlink : d.link a = some (some info.extrinsics.toCameraSocket) :=
          link_eq_some.2 ⟨info, hfind, rfl, hto⟩
        obtain ⟨kv, -, -, -, l, hl⟩ :=
          hnoted.exists_of_mem_left (link_isSome_iff.1 (by rw [hlink]; rfl))
        cases hl with
        | root hroot => rw [hlink] at hroot; cases hroot
        | link hlink' hl' =>
          rw [hlink] at hlink'
          cases hlink'
          exact link_isSome_iff.1 (hl'.isSome_of_mem hl'.mem_left)
      · obtain ⟨x, hx, -, hxa, l, hl⟩ := hnoted.exists_of_mem_left ha
        obtain ⟨y, hy, -, hyb, l', hl'⟩ := hnoted.exists_of_mem_left hb
        rw [hsame x hx y hy] at hl
        exact ⟨hxa, hyb, _, l, l', hl, hl'⟩
  · rintro ⟨-, hall⟩
    have hexists : ∀ a ∈ d.cameras, ∃ kv, Noted d a kv := by
      intro a ha
      obtain ⟨hauto, -, o, l, -, hl, -⟩ := hall a ha a ha
      exact ⟨(a, o), rfl, hauto, l, hl⟩
    obtain ⟨noted, hnoted⟩ := List.Forall₂.exists_of_forall hexists
    have hcameras : validateCameras d fuel [] d.cameras = .ok (.inr noted) :=
      (validateCameras_iff hversion hd hfuel).2 ⟨noted, rfl, hnoted⟩
    refine ⟨validateOrigins noted, ?_, validateOrigins_iff.2 fun x hx y hy => ?_⟩
    · rw [validateExtrinsicGraph, hcameras]
      rfl
    · obtain ⟨a, ha, -, -, l, hl⟩ := hnoted.exists_of_mem_right hx
      obtain ⟨b, hb, -, -, l', hl'⟩ := hnoted.exists_of_mem_right hy
      obtain ⟨-, -, o, l₁, l₁', hl₁, hl₁'⟩ := hall a ha b hb
      exact (hl.unique hl₁).2.trans (hl'.unique hl₁').2.symm

end Poses

/-! ### Three cameras -/

/-- A camera whose pose is a quarter of a turn and a step away from another one. -/
def turned (toCameraSocket : CameraBoardSocket) : CameraInfo ℚ where
  extrinsics :=
    { rotationMatrix := [[0, -1, 0], [1, 0, 0], [0, 0, 1]]
      translation := ⟨1, 2, 3⟩
      specTranslation := ⟨1, 2, 4⟩
      toCameraSocket
      lengthUnit := .CENTIMETER }

/-- `CAM_C` is linked to `CAM_B`, that to `CAM_A`, and this one is the origin. -/
def threeCameras (version : ℕ) : EepromData ℚ where
  version
  productName := ""
  cameraData := [(.CAM_C, turned .CAM_B), (.CAM_A, turned .AUTO), (.CAM_B, turned .CAM_A)]
  housingExtrinsics := (turned .CAM_B).extrinsics
  nodup := by decide

/-- One camera alone. -/
def oneCamera (version : ℕ) : EepromData ℚ where
  version
  productName := ""
  cameraData := [(.CAM_A, turned .AUTO)]
  housingExtrinsics := (turned .CAM_A).extrinsics
  nodup := by decide

theorem validateExtrinsicGraph_iff_threeCameras :
    validateExtrinsicGraph (threeCameras 7) 4 ≠ .error .pending ∧
    (∀ a b, getCameraExtrinsics (threeCameras 7) 4 a b false .METER ≠ .error .pending) ∧
    ((∃ result, validateExtrinsicGraph (threeCameras 7) 4 = .ok result ∧ result.error = .None) ↔
      (∀ a info, (threeCameras 7).find a = some info → info.extrinsics.toCameraSocket ≠ .AUTO →
        info.extrinsics.toCameraSocket ∈ (threeCameras 7).cameras) ∧
      ∀ a ∈ (threeCameras 7).cameras, ∀ b ∈ (threeCameras 7).cameras,
        ∃ m, getCameraExtrinsics (threeCameras 7) 4 a b false .METER = .ok m) :=
  validateExtrinsicGraph_iff (threeCameras 7) (by decide) (wellFormed_of_forall (by decide)) _ 4
    (by decide)

/-- **A calibration of an old version passes the check,** and has no poses at all. -/
theorem not_validateExtrinsicGraph_iff :
    ¬∀ (d : EepromData ℚ) (unit : LengthUnit) (fuel : ℕ), d.WellFormed →
      d.cameras.length < fuel →
      ((∃ result, validateExtrinsicGraph d fuel = .ok result ∧ result.error = .None) ↔
        (∀ a info, d.find a = some info → info.extrinsics.toCameraSocket ≠ .AUTO →
          info.extrinsics.toCameraSocket ∈ d.cameras) ∧
        ∀ a ∈ d.cameras, ∀ b ∈ d.cameras,
          ∃ m, getCameraExtrinsics d fuel a b false unit = .ok m) := by
  intro h
  have hiff := h (oneCamera 3) .CENTIMETER 2 (wellFormed_of_forall (by decide)) (by decide)
  obtain ⟨-, hposes⟩ := hiff.1 ⟨{}, by decide +kernel, rfl⟩
  obtain ⟨m, hm⟩ := hposes .CAM_A (by decide) .CAM_A (by decide)
  exact runtimeError_ne_ok hm

end CalibrationHandler

end DepthaiCore
