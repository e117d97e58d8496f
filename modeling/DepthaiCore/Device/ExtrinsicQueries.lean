import DepthaiCore.Device.ExtrinsicShapes

/-!
# Queries for extrinsics

The calibration that a query finds may be any: the links may lead round in circles or to cameras
that are not there, and a rotation need not have three rows.

The walk to the origin remembers where it has been. The recursion of `computeExtrinsicMatrix` and
the loop of `checkExtrinsicsLink` do not, and they get round a circle for ever unless the
destination is on it. On the way to an origin there are no circles, but the rows may be missing.
-/

namespace DepthaiCore

open MatrixOps

section Queries

variable {K : Type}

namespace CalibrationHandler

namespace Checked

variable [Field K] [DecidableEq K] {useSpec : Bool}

/-! ### The recursion -/

section Walks

open EepromData

variable {d : EepromData K} {a b : CameraBoardSocket} {fuel : ℕ}

omit [Field K] [DecidableEq K] in
theorem hasCameraCalibration_iff :
    hasCameraCalibration d a = true ↔ 4 ≤ d.version ∧ (d.link a).isSome := by
  rw [hasCameraCalibration, hasCalibrationData, Bool.and_eq_true, Bool.and_eq_true, link,
    Option.isSome_map]
  simp only [decide_eq_true_eq, Bool.not_eq_true', List.isEmpty_eq_false_iff]
  constructor
  · rintro ⟨⟨hversion, -⟩, hfind⟩
    exact ⟨hversion, hfind⟩
  · rintro ⟨hversion, hfind⟩
    refine ⟨⟨hversion, fun hnil => ?_⟩, hfind⟩
    rw [find, hnil] at hfind
    cases hfind

/-- The call of `computeExtrinsicMatrix` gets past its checks. -/
structure Valid (d : EepromData K) (b : CameraBoardSocket) : Prop where
  version : 4 ≤ d.version
  ne_auto : b ≠ .AUTO
  isSome : (d.link b).isSome

/-- The recursion does not get past its checks of the source. -/
theorem computeExtrinsicMatrix_of_none (h : a = .AUTO ∨ d.link a = none) :
    ∃ what, computeExtrinsicMatrix d (fuel + 1) a b useSpec = runtimeError what := by
  rw [computeExtrinsicMatrix]
  split
  · exact ⟨_, rfl⟩
  · rename_i hauto
    rcases h with rfl | hnone
    · exact absurd (.inl rfl) hauto
    · have hcamera : hasCameraCalibration d a = false := by
        rw [← Bool.not_eq_true, hasCameraCalibration_iff, hnone]
        simp
      rw [hcamera]
      exact ⟨_, rfl⟩

theorem computeExtrinsicMatrix_of_find {info : CameraInfo K} (hb : Valid d b) (ha : a ≠ .AUTO)
    (hfind : d.find a = some info) :
    computeExtrinsicMatrix d (fuel + 1) a b useSpec =
      if info.extrinsics.toCameraSocket = b then composed useSpec [info.extrinsics]
      else
        (do
          let M ← computeExtrinsicMatrix d fuel info.extrinsics.toCameraSocket b useSpec
          let C ← transformationMatrix info.extrinsics useSpec
          lift (matMulRows M C)) := by
  have hcamera : hasCameraCalibration d a = true :=
    hasCameraCalibration_iff.2 ⟨hb.version, by rw [link, hfind]; rfl⟩
  have hcamera' : hasCameraCalibration d b = true :=
    hasCameraCalibration_iff.2 ⟨hb.version, hb.isSome⟩
  rw [computeExtrinsicMatrix, if_neg (not_or.2 ⟨ha, hb.ne_auto⟩), hcamera, hcamera']
  simp only [Bool.not_true, Bool.false_eq_true, if_false, hfind]
  split
  case isTrue hto =>
    rw [composed]
    simp only [hto, hb.ne_auto, or_false]
  case isFalse => rfl

/-- **Along a route** the recursion puts the matrices together. -/
theorem computeExtrinsicMatrix_of_route (hb : Valid d b) {l : List (Extrinsics K)}
    (h : d.Route b a l) (hfuel : l.length ≤ fuel) :
    computeExtrinsicMatrix d fuel a b useSpec = composed useSpec l := by
  induction h generalizing fuel with
  | last ha hfind hto =>
    obtain ⟨m, rfl⟩ := Nat.exists_eq_add_one.2 hfuel
    rw [computeExtrinsicMatrix_of_find hb ha hfind, if_pos hto]
  | link ha hfind hto hl ih =>
    obtain ⟨m, rfl⟩ := Nat.exists_eq_add_one.2 (Nat.lt_of_lt_of_le (Nat.succ_pos _) hfuel)
    rw [computeExtrinsicMatrix_of_find hb ha hfind, if_neg hto, ih (Nat.le_of_succ_le_succ hfuel)]
    cases hl with
    | last _ _ _ => rfl
    | link _ _ _ _ => rfl

omit [Field K] [DecidableEq K] in
theorem Route.ne_nil {l : List (Extrinsics K)} (h : d.Route b a l) : l ≠ [] := by
  cases h <;> exact List.cons_ne_nil _ _

omit [Field K] [DecidableEq K] in
/-- What the links of a camera do next: they end here, or they go on. -/
theorem ends_cases (b a : CameraBoardSocket) :
    d.link a = none ∨ d.link a = some none ∨ d.link a = some (some b) ∨
      ∃ c, d.Linked a c ∧ c ≠ b := by
  rcases h : d.link a with _ | _ | c
  · exact .inl rfl
  · exact .inr (.inl rfl)
  · by_cases hc : c = b
    · exact .inr (.inr (.inl (by rw [hc])))
    · exact .inr (.inr (.inr ⟨c, h, hc⟩))

omit [Field K] [DecidableEq K] in
theorem ends_of_linked {c : CameraBoardSocket} (h : d.Linked a c) (hc : d.Ends b c) :
    d.Ends b a := by
  obtain ⟨c', hreach, hend⟩ := hc
  exact ⟨c', .head h hreach, hend⟩

theorem computeExtrinsicMatrix_of_throws {info : CameraInfo K} (hb : Valid d b) (ha : a ≠ .AUTO)
    (hfind : d.find a = some info) (hto : info.extrinsics.toCameraSocket ≠ b) {what : String}
    (h : computeExtrinsicMatrix d fuel info.extrinsics.toCameraSocket b useSpec =
      runtimeError what) :
    computeExtrinsicMatrix d (fuel + 1) a b useSpec = runtimeError what := by
  rw [computeExtrinsicMatrix_of_find hb ha hfind, if_neg hto, h]
  rfl

/-- **Links that end** lead along a route, or the recursion throws. -/
theorem route_or_throws (useSpec : Bool) (hb : Valid d b) (h : d.Ends b a) (ha : a ≠ .AUTO) :
    (∃ l, d.Route b a l) ∨ ∃ n, ∀ fuel ≥ n, ∃ what,
      computeExtrinsicMatrix d fuel a b useSpec = runtimeError what := by
  have hnone {a : CameraBoardSocket} (ha : a = .AUTO ∨ d.link a = none) (fuel : ℕ)
      (hfuel : fuel ≥ 1) :
      ∃ what, computeExtrinsicMatrix d fuel a b useSpec = runtimeError what := by
    obtain ⟨m, rfl⟩ := Nat.exists_eq_add_one.2 hfuel
    exact computeExtrinsicMatrix_of_none ha
  have hnext {a : CameraBoardSocket} {info : CameraInfo K} (ha : a ≠ .AUTO)
      (hfind : d.find a = some info) (hto : info.extrinsics.toCameraSocket ≠ b) {n : ℕ}
      (h : ∀ fuel ≥ n, ∃ what, computeExtrinsicMatrix d fuel info.extrinsics.toCameraSocket b
        useSpec = runtimeError what) :
      ∃ n, ∀ fuel ≥ n, ∃ what, computeExtrinsicMatrix d fuel a b useSpec = runtimeError what := by
    refine ⟨n + 1, fun fuel hfuel => ?_⟩
    obtain ⟨m, rfl⟩ := Nat.exists_eq_add_one.2 (Nat.lt_of_lt_of_le (Nat.succ_pos _) hfuel)
    obtain ⟨what, hwhat⟩ := h m (Nat.le_of_succ_le_succ hfuel)
    exact ⟨what, computeExtrinsicMatrix_of_throws hb ha hfind hto hwhat⟩
  obtain ⟨c, hreach, hend⟩ := h
  revert ha
  induction hreach using Relation.ReflTransGen.head_induction_on with
  | refl =>
    intro ha
    rcases hend with hend | hend | hend
    · exact .inr ⟨1, hnone (.inr hend)⟩
    · obtain ⟨info, hfind, hto⟩ := link_eq_root.1 hend
      exact .inr (hnext ha hfind (hto ▸ hb.ne_auto.symm) (hnone (.inl hto)))
    · obtain ⟨info, hfind, hto, -⟩ := link_eq_some.1 hend
      exact .inl ⟨_, .last ha hfind hto⟩
  | head hlink hreach ih =>
    intro ha
    obtain ⟨info, hfind, hto, hauto⟩ := link_eq_some.1 hlink
    by_cases heq : info.extrinsics.toCameraSocket = b
    · exact .inl ⟨_, .last ha hfind heq⟩
    · rcases ih hauto with ⟨l, hl⟩ | ⟨n, hn⟩
      · exact .inl ⟨_, .link ha hfind heq (hto ▸ hl)⟩
      · exact .inr (hnext ha hfind heq (hto ▸ hn))

theorem ends_of_computeExtrinsicMatrix (hb : Valid d b) (ha : a ≠ .AUTO)
    (h : computeExtrinsicMatrix d fuel a b useSpec ≠ .error .pending) : d.Ends b a := by
  induction fuel generalizing a with
  | zero => exact absurd rfl h
  | succ fuel ih =>
    rcases ends_cases b a with hnone | hroot | hlast | ⟨c, hlink, hc⟩
    · exact ⟨a, .refl, .inl hnone⟩
    · exact ⟨a, .refl, .inr (.inl hroot)⟩
    · exact ⟨a, .refl, .inr (.inr hlast)⟩
    · obtain ⟨info, hfind, rfl, hauto⟩ := link_eq_some.1 hlink
      refine ends_of_linked hlink (ih hauto fun hpending => h ?_)
      rw [computeExtrinsicMatrix_of_find hb ha hfind, if_neg hc, hpending]
      rfl

omit [Field K] [DecidableEq K] in
theorem Route.ends {l : List (Extrinsics K)} (hb : b ≠ .AUTO) (h : d.Route b a l) : d.Ends b a := by
  induction h with
  | last ha hfind hto =>
    exact ⟨_, .refl, .inr (.inr (link_eq_some.2 ⟨_, hfind, hto, hb⟩))⟩
  | @link a info l ha hfind hto hl ih =>
    have hauto : info.extrinsics.toCameraSocket ≠ .AUTO := by cases hl <;> assumption
    exact ends_of_linked (link_eq_some.2 ⟨_, hfind, rfl, hauto⟩) ih

/-! ### The loop of `checkExtrinsicsLink` -/

omit [Field K] [DecidableEq K] in
theorem checkExtrinsicsLinkStep_of_linked {c : CameraBoardSocket} (ha : a ≠ .AUTO)
    (h : d.Linked a c) :
    checkExtrinsicsLinkStep d b a = if c = b then .ok (.inr true) else .ok (.inl c) := by
  obtain ⟨info, hfind, hto, -⟩ := link_eq_some.1 h
  rw [checkExtrinsicsLinkStep, if_neg ha, hfind]
  dsimp only
  rw [hto]

omit [Field K] [DecidableEq K] in
theorem loop_checkExtrinsicsLinkStep_auto (fuel : ℕ) :
    Whiles.loop (checkExtrinsicsLinkStep d b) (fuel + 1) .AUTO = .ok false :=
  Whiles.loop_of_done (by rw [checkExtrinsicsLinkStep, if_pos rfl])

omit [Field K] [DecidableEq K] in
theorem loop_checkExtrinsicsLinkStep_root (h : d.link a = some none) (fuel : ℕ) :
    ∃ found, Whiles.loop (checkExtrinsicsLinkStep d b) (fuel + 2) a = .ok found := by
  obtain ⟨info, hfind, hto⟩ := link_eq_root.1 h
  by_cases ha : a = .AUTO
  · exact ⟨_, ha ▸ loop_checkExtrinsicsLinkStep_auto _⟩
  · have hstep : checkExtrinsicsLinkStep d b a =
        if CameraBoardSocket.AUTO = b then .ok (.inr true) else .ok (.inl .AUTO) := by
      rw [checkExtrinsicsLinkStep, if_neg ha, hfind]
      dsimp only
      rw [hto]
    by_cases hb : CameraBoardSocket.AUTO = b
    · exact ⟨true, Whiles.loop_of_done (hstep.trans (if_pos hb))⟩
    · exact ⟨false, (Whiles.loop_of_next (hstep.trans (if_neg hb))).trans
        (loop_checkExtrinsicsLinkStep_auto _)⟩

omit [Field K] [DecidableEq K] in
/-- **The loop ends if the links do.** -/
theorem loop_checkExtrinsicsLinkStep_of_ends (h : d.Ends b a) :
    ∃ n, ∀ fuel ≥ n, ∃ found, Whiles.loop (checkExtrinsicsLinkStep d b) fuel a = .ok found := by
  obtain ⟨c, hreach, hend⟩ := h
  induction hreach using Relation.ReflTransGen.head_induction_on with
  | refl =>
    refine ⟨2, fun fuel hfuel => ?_⟩
    obtain ⟨m, rfl⟩ := Nat.exists_eq_add_of_le' hfuel
    by_cases hc : c = .AUTO
    · exact ⟨_, hc ▸ loop_checkExtrinsicsLinkStep_auto _⟩
    rcases hend with hnone | hroot | hlast
    · have hfind : d.find c = none := by simpa [link] using hnone
      refine ⟨false, Whiles.loop_of_done ?_⟩
      rw [checkExtrinsicsLinkStep, if_neg hc, hfind]
    · exact loop_checkExtrinsicsLinkStep_root hroot m
    · exact ⟨true, Whiles.loop_of_done
        ((checkExtrinsicsLinkStep_of_linked hc hlast).trans (if_pos rfl))⟩
  | @head a c' hlink hreach ih =>
    obtain ⟨n, hn⟩ := ih
    refine ⟨n + 1, fun fuel hfuel => ?_⟩
    obtain ⟨m, rfl⟩ := Nat.exists_eq_add_one.2 (Nat.lt_of_lt_of_le (Nat.succ_pos _) hfuel)
    by_cases ha : a = .AUTO
    · exact ⟨_, ha ▸ loop_checkExtrinsicsLinkStep_auto _⟩
    have hstep := checkExtrinsicsLinkStep_of_linked (b := b) ha hlink
    by_cases hc : c' = b
    · exact ⟨true, Whiles.loop_of_done (hstep.trans (if_pos hc))⟩
    · obtain ⟨found, hfound⟩ := hn m (Nat.le_of_succ_le_succ hfuel)
      exact ⟨found, (Whiles.loop_of_next (hstep.trans (if_neg hc))).trans hfound⟩

omit [Field K] [DecidableEq K] in
theorem ends_of_loop (ha : a ≠ .AUTO)
    (h : Whiles.loop (checkExtrinsicsLinkStep d b) fuel a ≠ .error .pending) : d.Ends b a := by
  induction fuel generalizing a with
  | zero => exact absurd rfl h
  | succ fuel ih =>
    rcases ends_cases b a with hnone | hroot | hlast | ⟨c, hlink, hc⟩
    · exact ⟨a, .refl, .inl hnone⟩
    · exact ⟨a, .refl, .inr (.inl hroot)⟩
    · exact ⟨a, .refl, .inr (.inr hlast)⟩
    · obtain ⟨-, -, -, hauto⟩ := link_eq_some.1 hlink
      refine ends_of_linked hlink (ih hauto ?_)
      rwa [← Whiles.loop_of_next ((checkExtrinsicsLinkStep_of_linked ha hlink).trans (if_neg hc))]

/-! ### The walk to the origin, and back -/

omit [Field K] [DecidableEq K] in
theorem route_of_chain {o : CameraBoardSocket} {l : List CameraBoardSocket}
    (h : Chain d.link a l o) (ha : a ≠ .AUTO) (hne : a ≠ o) : ∃ l', d.Route o a l' := by
  induction h with
  | root _ => exact absurd rfl hne
  | @link a b o l hlink hl ih =>
    obtain ⟨info, hfind, rfl, hauto⟩ := link_eq_some.1 hlink
    by_cases ho : info.extrinsics.toCameraSocket = o
    · exact ⟨_, .last ha hfind ho⟩
    · obtain ⟨l', hl'⟩ := ih hauto ho
      exact ⟨_, .link ha hfind ho hl'⟩

omit [Field K] [DecidableEq K] in
theorem Route.unique {l l' : List (Extrinsics K)} (h : d.Route b a l) (h' : d.Route b a l') :
    l = l' := by
  induction h generalizing l' with
  | last ha hfind hto =>
    cases h' with
    | last _ hfind' _ =>
      rw [hfind] at hfind'
      cases hfind'
      rfl
    | link _ hfind' hto' _ =>
      rw [hfind] at hfind'
      cases hfind'
      exact absurd hto hto'
  | link ha hfind hto hl ih =>
    cases h' with
    | last _ hfind' hto' =>
      rw [hfind] at hfind'
      cases hfind'
      exact absurd hto' hto
    | link _ hfind' _ hl' =>
      rw [hfind] at hfind'
      cases hfind'
      rw [ih hl']

end Walks

end Checked

end CalibrationHandler

namespace EepromData

variable [Field K] [DecidableEq K] (d : EepromData K) (useSpec : Bool)

/-- The origin that the links of a camera lead to. -/
def Origin (a o : CameraBoardSocket) : Prop :=
  a ≠ .AUTO ∧ ∃ l, Chain d.link a l o

/-- No row is missing on the way to the origin, if there is one. -/
def InBoundsToOrigin (a : CameraBoardSocket) : Prop :=
  ∀ o l, d.Origin a o → 4 ≤ d.version → d.Route o a l → InBounds useSpec l

/-- There is an origin, and the way to it can be composed. -/
def ComposesToOrigin (a : CameraBoardSocket) : Prop :=
  ∃ o, d.Origin a o ∧ (a = o ∨ 4 ≤ d.version ∧ ∃ l, d.Route o a l ∧ Composes useSpec l)

end EepromData

namespace CalibrationHandler

namespace Checked

open EepromData

variable [Field K] [DecidableEq K] {d : EepromData K} {useSpec : Bool} {fuel : ℕ}
  {a o : CameraBoardSocket}

theorem getExtrinsicsToOrigin_of_not (useSpec : Bool) (hfuel : d.cameras.length < fuel)
    (h : ¬∃ o, d.Origin a o) :
    Answered (getExtrinsicsToOrigin d fuel a useSpec) ∧
      ∀ r, getExtrinsicsToOrigin d fuel a useSpec ≠ .ok r := by
  rw [getExtrinsicsToOrigin]
  split
  · exact ⟨answered_runtimeError _, fun r hr => by cases hr⟩
  · have hloop (o : CameraBoardSocket) :
        liftStop (Whiles.loop (originStep d) fuel (a, [a])) ≠ .ok o := fun ho =>
      h ⟨o, (loop_originStep_iff hfuel).1 (liftStop_eq_ok.1 ho)⟩
    refine ⟨answered_bind.2 ⟨answered_liftStop.2 (loop_originStep_ne_pending hfuel),
      fun o ho => absurd ho (hloop o)⟩, fun r hr => ?_⟩
    obtain ⟨o, ho, -⟩ := Loop.bind_eq_ok.1 hr
    exact hloop o ho

theorem getExtrinsicsToOrigin_of_origin (hfuel : d.cameras.length < fuel) (h : d.Origin a o) :
    getExtrinsicsToOrigin d fuel a useSpec =
      if a = o then .ok ([[1, 0, 0, 0], [0, 1, 0, 0], [0, 0, 1, 0], [0, 0, 0, 1]], o)
      else (do
        let extrinsics ← computeExtrinsicMatrix d fuel a o useSpec
        return (extrinsics, o)) := by
  obtain ⟨l, hl⟩ := h.2
  have hfind : (d.find a).isNone = false := by
    have hsome := hl.isSome_of_mem hl.mem_left
    rw [link, Option.isSome_map] at hsome
    rw [Option.isNone_eq_false_iff]
    exact hsome
  rw [getExtrinsicsToOrigin, hfind, (loop_originStep_iff hfuel).2 h]
  rfl

theorem computeExtrinsicMatrix_of_version (hversion : ¬4 ≤ d.version) (hfuel : 0 < fuel) :
    ∃ what, computeExtrinsicMatrix d fuel a o useSpec = runtimeError what := by
  obtain ⟨m, rfl⟩ := Nat.exists_eq_add_one.2 hfuel
  have hcamera : hasCameraCalibration d a = false := by
    rw [← Bool.not_eq_true, hasCameraCalibration_iff]
    exact fun h => hversion h.1
  rw [computeExtrinsicMatrix, hcamera]
  split
  · exact ⟨_, rfl⟩
  · exact ⟨_, rfl⟩

omit [Field K] [DecidableEq K] in
theorem valid_of_origin (hversion : 4 ≤ d.version) (h : d.Origin a o) : Valid d o := by
  obtain ⟨ha, l, hl⟩ := h
  have hroot := hl.next_root
  refine ⟨hversion, ?_, by rw [hroot]; rfl⟩
  clear hroot
  induction hl with
  | root _ => exact ha
  | link hlink _ ih =>
    obtain ⟨-, -, -, hauto⟩ := link_eq_some.1 hlink
    exact ih hauto

/-- **When the walk to the origin returns or throws,** when it returns, and what. -/
theorem getExtrinsicsToOrigin_outcome (d : EepromData K) (a : CameraBoardSocket) (useSpec : Bool) :
    ∃ n, ∀ fuel ≥ n,
      (Answered (getExtrinsicsToOrigin d fuel a useSpec) ↔ d.InBoundsToOrigin useSpec a) ∧
      ((∃ r, getExtrinsicsToOrigin d fuel a useSpec = .ok r) ↔ d.ComposesToOrigin useSpec a) ∧
      ∀ M o, getExtrinsicsToOrigin d fuel a useSpec = .ok (M, o) → Proper M := by
  by_cases h : ∃ o, d.Origin a o
  · obtain ⟨o, ho⟩ := h
    have hunique {o' : CameraBoardSocket} (ho' : d.Origin a o') : o' = o := by
      obtain ⟨-, l, hl⟩ := ho
      obtain ⟨-, l', hl'⟩ := ho'
      exact (hl'.unique hl).2
    by_cases hself : a = o
    · refine ⟨d.cameras.length + 1, fun fuel hfuel => ?_⟩
      rw [getExtrinsicsToOrigin_of_origin hfuel ho, if_pos hself]
      refine ⟨iff_of_true (answered_ok _) fun o' l ho' _ hl => ?_,
        iff_of_true ⟨_, rfl⟩ ⟨o, ho, .inl hself⟩, fun M o' hM => ?_⟩
      · obtain rfl := hunique ho'
        subst hself
        obtain ⟨l', hl'⟩ := ho.2
        obtain ⟨info, hfind, hto⟩ := link_eq_root.1 hl'.next_root
        cases hl with
        | last _ hfind' hto' =>
          rw [hfind] at hfind'
          cases hfind'
          exact absurd (hto'.symm.trans hto) ho.1
        | link _ hfind' _ hl =>
          rw [hfind] at hfind'
          cases hfind'
          rw [hto] at hl
          cases hl with
          | last hauto _ _ => exact absurd rfl hauto
          | link hauto _ _ _ => exact absurd rfl hauto
      · cases hM
        exact ⟨_, _, rfl, by simp, [0, 0, 0, 1], by simp, rfl⟩
    · obtain ⟨l, hl⟩ := route_of_chain ho.2.choose_spec ho.1 hself
      by_cases hversion : 4 ≤ d.version
      · refine ⟨d.cameras.length + 1 + l.length, fun fuel hfuel => ?_⟩
        rw [getExtrinsicsToOrigin_of_origin (by omega) ho, if_neg hself,
          computeExtrinsicMatrix_of_route (valid_of_origin hversion ho) hl (by omega)]
        refine ⟨?_, ?_, fun M o' hM => ?_⟩
        · rw [answered_bind, answered_composed_iff (Route.ne_nil hl)]
          constructor
          · rintro ⟨hbounds, -⟩ o' l' ho' - hl'
            obtain rfl := hunique ho'
            rwa [← Route.unique hl hl']
          · intro hbounds
            exact ⟨hbounds o l ho hversion hl, fun _ _ => answered_ok _⟩
        · constructor
          · rintro ⟨r, hr⟩
            obtain ⟨M, hM, -⟩ := Loop.bind_eq_ok.1 hr
            exact ⟨o, ho, .inr ⟨hversion, l, hl, composes_of_composed hM⟩⟩
          · rintro ⟨o', ho', hcomposes⟩
            obtain rfl := hunique ho'
            obtain ⟨-, l', hl', hcomposes⟩ := hcomposes.resolve_left hself
            rw [← Route.unique hl hl'] at hcomposes
            obtain ⟨M, hM, -⟩ := composed_eq_ok (Route.ne_nil hl) hcomposes
            exact ⟨_, by rw [hM]; rfl⟩
        · obtain ⟨M', hM', hM⟩ := Loop.bind_eq_ok.1 hM
          cases hM
          obtain ⟨M'', hM'', hproper, -⟩ :=
            composed_eq_ok (Route.ne_nil hl) (composes_of_composed hM')
          rw [hM'] at hM''
          cases hM''
          exact hproper
      · refine ⟨d.cameras.length + 1, fun fuel hfuel => ?_⟩
        obtain ⟨what, hwhat⟩ : ∃ what, computeExtrinsicMatrix d fuel a o useSpec = runtimeError what :=
          computeExtrinsicMatrix_of_version hversion (Nat.lt_of_lt_of_le (Nat.succ_pos _) hfuel)
        rw [getExtrinsicsToOrigin_of_origin hfuel ho, if_neg hself, hwhat]
        refine ⟨iff_of_true (answered_runtimeError what) fun _ _ _ h => absurd h hversion,
          iff_of_false nofun ?_, nofun⟩
        rintro ⟨o', ho', hcomposes⟩
        obtain rfl := hunique ho'
        exact hversion (hcomposes.resolve_left hself).1
  · refine ⟨d.cameras.length + 1, fun fuel hfuel => ?_⟩
    obtain ⟨hanswered, hne⟩ :=
      getExtrinsicsToOrigin_of_not useSpec hfuel h
    exact ⟨iff_of_true hanswered fun o _ ho => absurd ⟨o, ho⟩ h,
      iff_of_false (fun ⟨r, hr⟩ => hne r hr) fun ⟨o, ho, _⟩ => h ⟨o, ho⟩,
      fun M o hM => absurd hM (hne _)⟩

/-! ### From one camera to another -/

omit [DecidableEq K] in
theorem shape_invertSe3Matrix4x4InPlace {mat M : List (List K)}
    (h : invertSe3Matrix4x4InPlace mat = .ok M) :
    M.length = 4 ∧ ∀ row ∈ M, row.length = 4 := by
  rw [invertSe3Matrix4x4InPlace] at h
  split at h
  · cases h
  · cases h
    simp

theorem answered_scaleTranslationInPlace {mat : List (List K)} (hlength : mat.length = 4)
    (hrows : ∀ row ∈ mat, row.length = 4) (unit : LengthUnit) :
    Answered (scaleTranslationInPlace mat unit) := by
  match mat with
  | [r0, r1, r2, r3] =>
    have h0 : r0.length = 4 := hrows r0 (by simp)
    have h1 : r1.length = 4 := hrows r1 (by simp)
    have h2 : r2.length = 4 := hrows r2 (by simp)
    have hrange : List.range 3 = [0, 1, 2] := rfl
    rw [scaleTranslationInPlace]
    split
    · exact answered_ok _
    · rw [hrange]
      simp only [List.foldlM_cons, List.foldlM_nil, List.getD_cons_zero, List.getD_cons_succ, h0,
        List.modify_zero_cons, List.modify_succ_cons, h1, h2, if_pos (show 3 < 4 by decide),
        Loop.ok_bind]
      exact answered_ok _

/-- **When a pose is returned or refused.** -/
theorem getCameraExtrinsics_outcome (d : EepromData K) (a b : CameraBoardSocket) (useSpec : Bool)
    (unit : LengthUnit) : ∃ n, ∀ fuel ≥ n,
      (Answered (getCameraExtrinsics d fuel a b useSpec unit) ↔
        (hasCameraCalibration d a = true → hasCameraCalibration d b = true →
          d.InBoundsToOrigin useSpec a ∧
            (d.ComposesToOrigin useSpec a → d.InBoundsToOrigin useSpec b))) := by
  obtain ⟨n, hn⟩ := getExtrinsicsToOrigin_outcome d a useSpec
  obtain ⟨n', hn'⟩ := getExtrinsicsToOrigin_outcome d b useSpec
  refine ⟨n + n', fun fuel hfuel => ?_⟩
  obtain ⟨hbounds, hcomposes, hproper⟩ := hn fuel (by omega)
  obtain ⟨hbounds', -, hproper'⟩ := hn' fuel (by omega)
  rw [getCameraExtrinsics]
  cases ha : hasCameraCalibration d a with
  | false => exact iff_of_true (answered_runtimeError _) fun h => absurd h Bool.false_ne_true
  | true =>
    cases hb : hasCameraCalibration d b with
    | false => exact iff_of_true (answered_runtimeError _) fun _ h => absurd h Bool.false_ne_true
    | true =>
      simp only [Bool.not_true, Bool.false_eq_true, if_false, forall_const]
      rw [answered_bind, hbounds, ← hcomposes]
      refine and_congr_right fun _ => ?_
      constructor
      · rintro h ⟨r, hr⟩
        exact hbounds'.1 (answered_bind.1 (h r hr)).1
      · intro h r hr
        refine answered_bind.2 ⟨hbounds'.2 (h ⟨r, hr⟩), fun r' hr' => ?_⟩
        -- from here on all matrices have four columns
        split
        · exact answered_runtimeError _
        · refine answered_bind.2 ⟨answered_lift _, fun M hM => ?_⟩
          refine answered_bind.2 ⟨answered_lift _, fun R hR => ?_⟩
          obtain ⟨hlength, hrows⟩ := shape_invertSe3Matrix4x4InPlace (lift_eq_ok.1 hM)
          have hM' := proper_of_forall (List.ne_nil_of_length_pos (by omega)) hrows
          obtain ⟨hlength', hrows'⟩ :=
            length_of_matMulRows hM' (hproper r.1 r.2 hr) (lift_eq_ok.1 hR)
          exact answered_scaleTranslationInPlace (hlength'.trans hlength) hrows' unit

/-- **When the recursion returns or throws.** -/
theorem computeExtrinsicMatrix_outcome (d : EepromData K) (a b : CameraBoardSocket)
    (useSpec : Bool) : ∃ n, ∀ fuel ≥ n,
      (Answered (computeExtrinsicMatrix d fuel a b useSpec) ↔
        (a ≠ .AUTO → b ≠ .AUTO → hasCameraCalibration d a = true →
          hasCameraCalibration d b = true →
            d.Ends b a ∧ ∀ l, d.Route b a l → InBounds useSpec l)) := by
  by_cases hchecks : a ≠ .AUTO ∧ b ≠ .AUTO ∧ hasCameraCalibration d a = true ∧
      hasCameraCalibration d b = true
  · obtain ⟨ha, hb, hacal, hbcal⟩ := hchecks
    obtain ⟨hversion, hsome⟩ := hasCameraCalibration_iff.1 hbcal
    have hvalid : Valid d b := ⟨hversion, hb, hsome⟩
    simp only [ha, hb, hacal, hbcal, ne_eq, not_false_eq_true, forall_const]
    by_cases hroute : ∃ l, d.Route b a l
    · obtain ⟨l, hl⟩ := hroute
      refine ⟨l.length, fun fuel hfuel => ?_⟩
      rw [computeExtrinsicMatrix_of_route hvalid hl hfuel, answered_composed_iff (Route.ne_nil hl)]
      constructor
      · intro hbounds
        exact ⟨Route.ends hb hl, fun l' hl' => Route.unique hl hl' ▸ hbounds⟩
      · exact fun h => h.2 l hl
    · by_cases hends : d.Ends b a
      · obtain ⟨n, hn⟩ := (route_or_throws useSpec hvalid hends ha).resolve_left hroute
        refine ⟨n, fun fuel hfuel => ?_⟩
        obtain ⟨what, hwhat⟩ := hn fuel hfuel
        rw [hwhat]
        exact iff_of_true (answered_runtimeError what) ⟨hends, fun l hl => absurd ⟨l, hl⟩ hroute⟩
      · refine ⟨0, fun fuel _ => iff_of_false (fun h => hends ?_) fun h => hends h.1⟩
        exact ends_of_computeExtrinsicMatrix hvalid ha h.1
  · refine ⟨1, fun fuel hfuel => ?_⟩
    obtain ⟨m, rfl⟩ := Nat.exists_eq_add_one.2 hfuel
    refine iff_of_true ?_ fun ha hb hacal hbcal => absurd ⟨ha, hb, hacal, hbcal⟩ hchecks
    rw [computeExtrinsicMatrix]
    split
    · exact answered_runtimeError _
    · rename_i hauto
      obtain ⟨ha, hb⟩ := not_or.1 hauto
      split
      · exact answered_runtimeError _
      · rename_i hacal
        split
        · exact answered_runtimeError _
        · rename_i hbcal
          exact absurd ⟨ha, hb, by simpa using hacal, by simpa using hbcal⟩ hchecks

end Checked

open EepromData Checked

/-- **When the loop of `checkExtrinsicsLink` ends.** -/
theorem checkExtrinsicsLink_outcome (d : EepromData K) (a b : CameraBoardSocket) :
    ∃ n, ∀ fuel ≥ n, (Answered (checkExtrinsicsLink d fuel a b) ↔
      (hasCameraCalibration d a = true → hasCameraCalibration d b = true → a ≠ .AUTO →
        d.Ends b a)) := by
  cases ha : hasCameraCalibration d a with
  | false =>
    refine ⟨0, fun fuel _ => iff_of_true ?_ nofun⟩
    rw [checkExtrinsicsLink, ha]
    exact answered_ok false
  | true =>
    cases hb : hasCameraCalibration d b with
    | false =>
      refine ⟨0, fun fuel _ => iff_of_true ?_ nofun⟩
      rw [checkExtrinsicsLink, ha, hb]
      exact answered_ok false
    | true =>
      have hloop (fuel : ℕ) : checkExtrinsicsLink d fuel a b =
          Whiles.loop (checkExtrinsicsLinkStep d b) fuel a := by
        rw [checkExtrinsicsLink, ha, hb]
        rfl
      simp only [hloop, forall_const]
      by_cases hauto : a = .AUTO
      · refine ⟨1, fun fuel hfuel => iff_of_true ?_ fun h => absurd hauto h⟩
        obtain ⟨m, rfl⟩ := Nat.exists_eq_add_one.2 hfuel
        rw [hauto, loop_checkExtrinsicsLinkStep_auto]
        exact answered_ok false
      · by_cases hends : d.Ends b a
        · obtain ⟨n, hn⟩ := loop_checkExtrinsicsLinkStep_of_ends hends
          refine ⟨n, fun fuel hfuel => iff_of_true ?_ fun _ => hends⟩
          obtain ⟨found, hfound⟩ := hn fuel hfuel
          rw [hfound]
          exact answered_ok found
        · exact ⟨0, fun fuel _ => iff_of_false (fun h => hends (ends_of_loop hauto h.1))
            fun h => hends (h hauto)⟩

end CalibrationHandler

/-! ### The queries -/

/-- A call that asks for extrinsics. -/
inductive ExtrinsicsQuery
  | getExtrinsicsToOrigin (cameraId : CameraBoardSocket) (useSpecTranslation : Bool)
  | getCameraExtrinsics (srcCamera dstCamera : CameraBoardSocket) (useSpecTranslation : Bool)
      (unit : LengthUnit)
  | computeExtrinsicMatrix (srcCamera dstCamera : CameraBoardSocket) (useSpecTranslation : Bool)
  | checkExtrinsicsLink (srcCamera dstCamera : CameraBoardSocket)

/-- With enough rounds the evaluation returns or throws. -/
def Answers {α : Type} (x : ℕ → Except (Stop RowFault) α) : Prop :=
  ∃ n, ∀ fuel ≥ n, Answered (x fuel)

theorem answers_iff_of_outcome {α : Type} {x : ℕ → Except (Stop RowFault) α} {P : Prop}
    (h : ∃ n, ∀ fuel ≥ n, (Answered (x fuel) ↔ P)) : Answers x ↔ P := by
  obtain ⟨n, hn⟩ := h
  constructor
  · rintro ⟨n', hn'⟩
    exact (hn (n + n') (by omega)).1 (hn' (n + n') (by omega))
  · exact fun hP => ⟨n, fun fuel hfuel => (hn fuel hfuel).2 hP⟩

namespace ExtrinsicsQuery

open CalibrationHandler

variable [Field K] [DecidableEq K] (d : EepromData K)

/-- The call returns or throws. -/
def Answers : ExtrinsicsQuery → Prop
  | getExtrinsicsToOrigin cameraId useSpecTranslation =>
    DepthaiCore.Answers fun fuel =>
      Checked.getExtrinsicsToOrigin d fuel cameraId useSpecTranslation
  | getCameraExtrinsics srcCamera dstCamera useSpecTranslation unit =>
    DepthaiCore.Answers fun fuel =>
      Checked.getCameraExtrinsics d fuel srcCamera dstCamera useSpecTranslation unit
  | computeExtrinsicMatrix srcCamera dstCamera useSpecTranslation =>
    DepthaiCore.Answers fun fuel =>
      Checked.computeExtrinsicMatrix d fuel srcCamera dstCamera useSpecTranslation
  | checkExtrinsicsLink srcCamera dstCamera =>
    DepthaiCore.Answers fun fuel =>
      CalibrationHandler.checkExtrinsicsLink d fuel srcCamera dstCamera

/-- The links end where they are followed without a memory, and no row is missing that is written
to. -/
def Safe : ExtrinsicsQuery → Prop
  | getExtrinsicsToOrigin cameraId useSpecTranslation =>
    d.InBoundsToOrigin useSpecTranslation cameraId
  | getCameraExtrinsics srcCamera dstCamera useSpecTranslation _ =>
    hasCameraCalibration d srcCamera = true → hasCameraCalibration d dstCamera = true →
      d.InBoundsToOrigin useSpecTranslation srcCamera ∧
        (d.ComposesToOrigin useSpecTranslation srcCamera →
          d.InBoundsToOrigin useSpecTranslation dstCamera)
  | computeExtrinsicMatrix srcCamera dstCamera useSpecTranslation =>
    srcCamera ≠ .AUTO → dstCamera ≠ .AUTO → hasCameraCalibration d srcCamera = true →
      hasCameraCalibration d dstCamera = true →
        d.Ends dstCamera srcCamera ∧
          ∀ l, d.Route dstCamera srcCamera l → InBounds useSpecTranslation l
  | checkExtrinsicsLink srcCamera dstCamera =>
    hasCameraCalibration d srcCamera = true → hasCameraCalibration d dstCamera = true →
      srcCamera ≠ .AUTO → d.Ends dstCamera srcCamera

/-- **Which queries return or throw.** -/
theorem answers_iff (query : ExtrinsicsQuery) : query.Answers d ↔ query.Safe d := by
  cases query with
  | getExtrinsicsToOrigin cameraId useSpecTranslation =>
    obtain ⟨n, hn⟩ := Checked.getExtrinsicsToOrigin_outcome d cameraId useSpecTranslation
    exact answers_iff_of_outcome ⟨n, fun fuel hfuel => (hn fuel hfuel).1⟩
  | getCameraExtrinsics srcCamera dstCamera useSpecTranslation unit =>
    exact answers_iff_of_outcome
      (Checked.getCameraExtrinsics_outcome d srcCamera dstCamera useSpecTranslation unit)
  | computeExtrinsicMatrix srcCamera dstCamera useSpecTranslation =>
    exact answers_iff_of_outcome
      (Checked.computeExtrinsicMatrix_outcome d srcCamera dstCamera useSpecTranslation)
  | checkExtrinsicsLink srcCamera dstCamera =>
    exact answers_iff_of_outcome (checkExtrinsicsLink_outcome d srcCamera dstCamera)

/-- `CAM_A` and `CAM_B` are linked to each other, and `CAM_C` is an origin. -/
def circle : EepromData ℚ where
  version := 7
  productName := ""
  cameraData := [(.CAM_A, turned .CAM_B), (.CAM_B, turned .CAM_A), (.CAM_C, turned .AUTO)]
  housingExtrinsics := (turned .CAM_A).extrinsics
  nodup := by decide

/-- `CAM_C` is linked to `CAM_B` without a rotation, and that to the origin. -/
def noRotation : EepromData ℚ where
  version := 7
  productName := ""
  cameraData := [(.CAM_C, ⟨{ (turned .CAM_B).extrinsics with rotationMatrix := [] }⟩),
    (.CAM_A, turned .AUTO), (.CAM_B, turned .CAM_A)]
  housingExtrinsics := (turned .CAM_B).extrinsics
  nodup := by decide

/-- **Round a circle the search for a link goes on for ever,** and a rotation that is not there is
written to. -/
theorem not_answers_circle_noRotation :
    ¬(checkExtrinsicsLink .CAM_A .CAM_C).Answers circle ∧
      ¬(getExtrinsicsToOrigin .CAM_C false).Answers noRotation := by
  constructor
  · intro h
    obtain ⟨c, hreach, hend⟩ := (answers_iff_of_outcome
      (checkExtrinsicsLink_outcome circle .CAM_A .CAM_C)).1 h (by decide) (by decide) (by decide)
    have hround : c = .CAM_A ∨ c = .CAM_B := by
      clear hend
      induction hreach with
      | refl => exact .inl rfl
      | tail _ hlink ih =>
        rcases ih with rfl | rfl
        · cases hlink
          exact .inr rfl
        · cases hlink
          exact .inl rfl
    rcases hround with rfl | rfl <;> revert hend <;> decide
  · rintro ⟨n, hn⟩
    have hvalue : Checked.getExtrinsicsToOrigin noRotation (n + 4) .CAM_C false =
        .error (.throws .outside) := rfl
    exact (hn (n + 4) (by omega)).2 hvalue

end ExtrinsicsQuery

end Queries

end DepthaiCore
