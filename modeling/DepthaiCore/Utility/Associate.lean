import DepthaiCore.Utility.LinearAssignment
import Mathlib.Data.List.ReduceOption

/-!
# The association of detections and trackers

`associate` gives a detection and a tracker a score, by how their boxes overlap, by the direction in
which the tracker moved, and by where they are in space. The assignment of greatest score is found,
and then a pair that overlaps too little, or is too far apart in space, is taken apart again.

The arithmetic is exact. The square root and the arc cosine may be any functions.
-/

open scoped Numerals

namespace DepthaiCore

namespace ObjectTracker

open Lapjv (execLapjv)

variable {K : Type}

/-! ### The scores -/

/-- A matrix. -/
structure MatrixXf (K : Type) where
  rows : ℕ
  cols : ℕ
  coeff : ℕ → ℕ → K

instance : CoeFun (MatrixXf K) fun _ => ℕ → ℕ → K := ⟨MatrixXf.coeff⟩

section Scores

variable [Field K] [LinearOrder K]

/-- A row of `speed_direction_batch`: the direction from a tracker to a detection. -/
def speed_direction_batch (sqrt : K → K) (dets tracks : MatrixXf K) (j i : ℕ) : K × K :=
  let dx := (dets i 0 + dets i 2) / 2 - (tracks j 0 + tracks j 2) / 2
  let dy := (dets i 1 + dets i 3) / 2 - (tracks j 1 + tracks j 3) / 2
  let norm := sqrt (dx * dx + dy * dy) + 1 / 1000000
  (dy / norm, dx / norm)

/-- The intersection of two boxes over their union. -/
def iou_batch (bboxes1 bboxes2 : MatrixXf K) (i j : ℕ) : K :=
  let xx1 := max (bboxes1 i 0) (bboxes2 j 0)
  let yy1 := max (bboxes1 i 1) (bboxes2 j 1)
  let xx2 := min (bboxes1 i 2) (bboxes2 j 2)
  let yy2 := min (bboxes1 i 3) (bboxes2 j 3)
  let wh := max (xx2 - xx1) 0 * max (yy2 - yy1) 0
  let part1 := (bboxes1 i 2 - bboxes1 i 0) * (bboxes1 i 3 - bboxes1 i 1)
  let part2 := (bboxes2 j 2 - bboxes2 j 0) * (bboxes2 j 3 - bboxes2 j 1)
  wh / (part1 + part2 - wh)

/-- The arguments of `associate`. -/
structure Arguments (K : Type) where
  detections : MatrixXf K
  trackers : MatrixXf K
  iou_threshold : K
  velocities : MatrixXf K
  previous_obs : MatrixXf K
  vdc_weight : K
  detection_spatial : MatrixXf K
  tracker_spatial : MatrixXf K
  use_spatial_association : Bool
  spatial_weight : K
  spatial_distance_threshold : K
  spatial_depth_aware_scale : K

variable (sqrt acos : K → K) (a : Arguments K)

def pi : K := 31415926 / 10000000

def angle_diff_cost (i j : ℕ) : K :=
  let (y, x) := speed_direction_batch sqrt a.detections a.previous_obs j i
  let diff_angle_cos := max (min (a.velocities j 1 * x + a.velocities j 0 * y) 1) (-1)
  let diff_angle := (pi / 2 - |acos diff_angle_cos|) / pi
  let valid := if a.previous_obs j 4 ≥ 0 then 1 else 0
  valid * diff_angle * a.vdc_weight * a.detections i (a.detections.cols - 3)

def base_score (i j : ℕ) : K :=
  iou_batch a.detections a.trackers i j + angle_diff_cost sqrt acos a i j

/-- `kSpatialMinDepthMm`, and `kSpatialMinGateMm`. -/
def kSpatialMinDepthMm : K := 1

def kSpatialMinGateMm : K := 1

def kMmToM : K := 1 / 1000

def kSpatialInvalidScore : K := -1000000

def spatial_available : Bool :=
  a.use_spatial_association && a.detection_spatial.rows == a.detections.rows &&
    a.tracker_spatial.rows == a.trackers.rows && decide (a.detection_spatial.cols ≥ 4) &&
    decide (a.tracker_spatial.cols ≥ 4)

def spatial_pair_valid (i j : ℕ) : Bool :=
  spatial_available a && decide (a.detection_spatial i 3 > 1 / 2) &&
    decide (a.tracker_spatial j 3 > 1 / 2)

def spatialDistance (i j : ℕ) : K :=
  let dx := a.detection_spatial i 0 - a.tracker_spatial j 0
  let dy := a.detection_spatial i 1 - a.tracker_spatial j 1
  let dz := a.detection_spatial i 2 - a.tracker_spatial j 2
  sqrt (dx * dx + dy * dy + dz * dz)

def gate (i j : ℕ) : K :=
  let depthRef := max kSpatialMinDepthMm
    (1 / 2 * (a.detection_spatial i 2 + a.tracker_spatial j 2))
  let depthMeters := max 0 depthRef * kMmToM
  max (a.spatial_distance_threshold * (1 + a.spatial_depth_aware_scale * depthMeters))
    kSpatialMinGateMm

def spatial_gate_ok (i j : ℕ) : Bool :=
  spatial_pair_valid a i j && decide (spatialDistance sqrt a i j ≤ gate a i j)

def combined_score (i j : ℕ) : K :=
  if spatial_pair_valid a i j then
    if spatial_gate_ok sqrt a i j then
      let alpha := max 0 (min a.spatial_weight 1)
      let spatial_similarity := 1 - min (spatialDistance sqrt a i j / gate a i j) 1
      (1 - alpha) * base_score sqrt acos a i j + alpha * spatial_similarity
    else kSpatialInvalidScore
  else base_score sqrt acos a i j

end Scores

/-! ### The pairs -/

/-- What `associate` returns. -/
structure Associated where
  matched : List (ℕ × ℕ)
  unmatched_detections : List ℕ
  unmatched_trackers : List ℕ
  deriving DecidableEq, Repr

/-- The rows of `matched_indices`. -/
def matched_indices (rowsol colsol : List (Option ℕ)) : Except Lapjv.Fault (List (Option ℕ × ℕ)) :=
  rowsol.reduceOption.mapM fun j =>
    match colsol[j]? with
    | none => .error .outside
    | some i => .ok (i, j)

/-- A round of the last loop: a pair is kept or taken apart. -/
def judge (accepted : ℕ → ℕ → Bool) (s : Associated) (pair : Option ℕ × ℕ) :
    Except Lapjv.Fault Associated :=
  match pair with
  | (none, _) => .error .outside
  | (some i, j) => .ok (
    if accepted i j then { s with matched := s.matched ++ [(i, j)] }
    else { s with
      unmatched_detections := s.unmatched_detections ++ [i]
      unmatched_trackers := s.unmatched_trackers ++ [j] })

section Solver

variable [Field K] [LinearOrder K] (large : K) (fuel : ℕ)

def pairAccepted (sqrt : K → K) (a : Arguments K) (i j : ℕ) : Bool :=
  let iouAccepted := decide (iou_batch a.detections a.trackers i j ≥ a.iou_threshold)
  if spatial_available a && spatial_pair_valid a i j then
    spatial_gate_ok sqrt a i j && iouAccepted
  else iouAccepted

/-- `matched_indices`, for so many detections and trackers. -/
def match_scores (rows cols : ℕ) (score : ℕ → ℕ → K) :
    Except (Stop Lapjv.Fault) (List (Option ℕ × ℕ)) :=
  if min cols rows > 0 then do
    let cost_iou_matrix := (List.range rows).map fun i => (List.range cols).map fun j => -score i j
    let (rowsol, colsol, _) ←
      execLapjv large fuel cost_iou_matrix [] [] true (some (1 / 100)) true
    Stop.lift (matched_indices rowsol colsol)
  else .ok []

/-- `associate`, with these scores in place of `combined_score`. -/
def associate_scores (sqrt : K → K) (score : ℕ → ℕ → K) (a : Arguments K) :
    Except (Stop Lapjv.Fault) Associated :=
  if a.detections.rows = 0 then .ok ⟨[], [], List.range a.trackers.rows⟩
  else if a.trackers.rows = 0 then .ok ⟨[], List.range a.detections.rows, []⟩
  else do
    let matched ← match_scores large fuel a.detections.rows a.trackers.rows score
    let unmatched_detections :=
      (List.range a.detections.rows).filter fun i => !matched.any (·.1 == some i)
    let unmatched_trackers := (List.range a.trackers.rows).filter fun j => !matched.any (·.2 == j)
    Stop.lift (matched.foldlM (judge (pairAccepted sqrt a))
      ⟨[], unmatched_detections, unmatched_trackers⟩)

/-- **`associate`.** -/
def associate (sqrt acos : K → K) (a : Arguments K) : Except (Stop Lapjv.Fault) Associated :=
  associate_scores large fuel sqrt (combined_score sqrt acos a) a

end Solver

/-! ### Partitions -/

/-- Every index occurs once, in a pair or without one. -/
structure Partition (rows cols : ℕ) (r : Associated) : Prop where
  detections : (r.matched.map Prod.fst ++ r.unmatched_detections).Perm (List.range rows)
  trackers : (r.matched.map Prod.snd ++ r.unmatched_trackers).Perm (List.range cols)

theorem Partition.nodup {rows cols : ℕ} {r : Associated} (h : Partition rows cols r) :
    (r.matched.map Prod.fst).Nodup ∧ (r.matched.map Prod.snd).Nodup :=
  ⟨(List.nodup_append.1 (h.detections.nodup_iff.2 List.nodup_range)).1,
    (List.nodup_append.1 (h.trackers.nodup_iff.2 List.nodup_range)).1⟩

theorem append_filter_range_perm {l : List ℕ} {n : ℕ} (hnodup : l.Nodup) (hlt : ∀ i ∈ l, i < n) :
    (l ++ (List.range n).filter fun i => decide (i ∉ l)).Perm (List.range n) := by
  refine (List.perm_ext_iff_of_nodup ?_ List.nodup_range).2 fun i => ?_
  · refine List.nodup_append.2 ⟨hnodup, List.nodup_range.filter _, ?_⟩
    rintro i hi j hj rfl
    exact of_decide_eq_true (List.mem_filter.1 hj).2 hi
  · rw [List.mem_append, List.mem_filter, List.mem_range, decide_eq_true_iff]
    constructor
    · rintro (hi | ⟨hi, -⟩)
      · exact hlt i hi
      · exact hi
    · intro hi
      by_cases hmem : i ∈ l
      · exact .inl hmem
      · exact .inr ⟨hi, hmem⟩

theorem not_any_eq {q : Option ℕ × ℕ → Bool} {g : ℕ × ℕ → ℕ} {i : ℕ}
    (h : ∀ p : ℕ × ℕ, q (some p.1, p.2) = true ↔ g p = i) (pairs : List (ℕ × ℕ)) :
    (!(pairs.map fun p => ((some p.1, p.2) : Option ℕ × ℕ)).any q) =
      decide (i ∉ pairs.map g) := by
  rw [Bool.eq_iff_iff, Bool.not_eq_true', List.any_eq_false, decide_eq_true_iff]
  constructor
  · intro hnone hmem
    obtain ⟨p, hp, hi⟩ := List.mem_map.1 hmem
    exact hnone _ (List.mem_map_of_mem hp) ((h p).2 hi)
  · intro hmem q' hq'
    obtain ⟨p, hp, rfl⟩ := List.mem_map.1 hq'
    intro hi
    exact hmem (List.mem_map.2 ⟨p, hp, (h p).1 hi⟩)

theorem foldlM_judge (accepted : ℕ → ℕ → Bool) (pairs : List (ℕ × ℕ)) (s : Associated) :
    (pairs.map fun p => ((some p.1, p.2) : Option ℕ × ℕ)).foldlM (judge accepted) s = .ok
      { matched := s.matched ++ pairs.filter fun p => accepted p.1 p.2
        unmatched_detections := s.unmatched_detections ++
          (pairs.filter fun p => !accepted p.1 p.2).map Prod.fst
        unmatched_trackers := s.unmatched_trackers ++
          (pairs.filter fun p => !accepted p.1 p.2).map Prod.snd } := by
  induction pairs generalizing s with
  | nil =>
    simp only [List.map_nil, List.filter_nil, List.append_nil]
    rfl
  | cons p pairs ih =>
    rw [List.map_cons, List.foldlM_cons, judge, Loop.ok_bind, ih]
    cases haccepted : accepted p.1 p.2 <;> simp [haccepted]

theorem partition_judge {rows cols : ℕ} (accepted : ℕ → ℕ → Bool) {pairs : List (ℕ × ℕ)}
    {unmatched_detections unmatched_trackers : List ℕ}
    (h : Partition rows cols ⟨pairs, unmatched_detections, unmatched_trackers⟩) :
    Partition rows cols ⟨pairs.filter fun p => accepted p.1 p.2,
      unmatched_detections ++ (pairs.filter fun p => !accepted p.1 p.2).map Prod.fst,
      unmatched_trackers ++ (pairs.filter fun p => !accepted p.1 p.2).map Prod.snd⟩ := by
  have hperm := List.filter_append_perm (fun p : ℕ × ℕ => accepted p.1 p.2) pairs
  have hmove (f : ℕ × ℕ → ℕ) (l : List ℕ) :
      ((pairs.filter fun p => accepted p.1 p.2).map f ++
        (l ++ (pairs.filter fun p => !accepted p.1 p.2).map f)).Perm (pairs.map f ++ l) := by
    refine (List.perm_append_comm.append_left _).trans ?_
    rw [← List.append_assoc, ← List.map_append]
    exact (hperm.map f).append_right l
  exact ⟨(hmove Prod.fst _).trans h.detections, (hmove Prod.snd _).trans h.trackers⟩

/-! ### The pairs of a matching -/

section Matching

variable {rows cols : ℕ} (f : Fin rows ≃. Fin cols)

/-- The pairs, by rows. -/
def pairs : List (ℕ × ℕ) :=
  (List.finRange rows).filterMap fun i => (f i).map fun j => (i.val, j.val)

theorem mem_pairs {p : ℕ × ℕ} : p ∈ pairs f ↔ ∃ i j, f i = some j ∧ p = (i.val, j.val) := by
  rw [pairs, List.mem_filterMap]
  constructor
  · rintro ⟨i, -, hi⟩
    obtain ⟨j, hj, rfl⟩ := Option.map_eq_some_iff.1 hi
    exact ⟨i, j, hj, rfl⟩
  · rintro ⟨i, j, hj, rfl⟩
    exact ⟨i, List.mem_finRange i, by rw [hj]; rfl⟩

theorem map_fst_pairs_nodup : ((pairs f).map Prod.fst).Nodup := by
  rw [pairs, List.map_filterMap]
  refine List.Nodup.filterMap (fun i i' b hi hi' => ?_) (List.nodup_finRange rows)
  obtain ⟨p, hp, rfl⟩ := Option.map_eq_some_iff.1 hi
  obtain ⟨j, -, rfl⟩ := Option.map_eq_some_iff.1 hp
  obtain ⟨p', hp', heq⟩ := Option.map_eq_some_iff.1 hi'
  obtain ⟨j', -, rfl⟩ := Option.map_eq_some_iff.1 hp'
  exact Fin.ext heq.symm

theorem map_snd_pairs : (pairs f).map Prod.snd =
    (List.finRange rows).filterMap fun i => (f i).map Fin.val := by
  rw [pairs, List.map_filterMap]
  congr 1
  funext i
  rw [Option.map_map]
  rfl

theorem map_snd_pairs_nodup : ((pairs f).map Prod.snd).Nodup := by
  rw [map_snd_pairs]
  refine List.Nodup.filterMap (fun i i' b hi hi' => ?_) (List.nodup_finRange rows)
  obtain ⟨j, hj, rfl⟩ := Option.map_eq_some_iff.1 hi
  obtain ⟨j', hj', heq⟩ := Option.map_eq_some_iff.1 hi'
  obtain rfl := Fin.ext heq
  exact f.inj hj hj'

theorem matched_indices_eq {f : Fin rows ≃. Fin cols} {rowsol colsol : List (Option ℕ)}
    (h : Lapjv.Assigns f rowsol colsol) :
    matched_indices rowsol colsol =
      .ok ((pairs f).map fun p => (some p.1, p.2)) := by
  have hcolumns : rowsol.reduceOption = (pairs f).map Prod.snd := by
    rw [h.rowsol_eq, List.ofFn_eq_map, List.reduceOption, List.filterMap_map, map_snd_pairs]
    rfl
  rw [matched_indices, hcolumns, Loop.mapM_eq_ok_iff, List.forall₂_map_left_iff,
    List.forall₂_map_right_iff, List.forall₂_same]
  intro p hp
  obtain ⟨i, j, hj, rfl⟩ := (mem_pairs f).1 hp
  have hlookup : colsol[(j : ℕ)]? = some (some (i : ℕ)) := by
    rw [h.colsol_eq, List.getElem?_ofFn, dif_pos j.isLt, Fin.eta, f.eq_some_iff.2 hj]
    rfl
  dsimp only
  rw [hlookup]

end Matching

/-! ### The association -/

section Association

variable [Field K] [LinearOrder K]

/-- A call ends with a matching, every index occurs once, and the pairs overlap. -/
def Associates (a : Arguments K) (call : ℕ → Except (Stop Lapjv.Fault) Associated) : Prop :=
  ∃ N, ∀ fuel ≥ N, ∃ r, call fuel = .ok r ∧
    (r.matched.map Prod.fst).Nodup ∧ (r.matched.map Prod.snd).Nodup ∧
    Partition a.detections.rows a.trackers.rows r ∧
    ∀ p ∈ r.matched, a.iou_threshold ≤ iou_batch a.detections a.trackers p.1 p.2

theorem iou_of_pairAccepted {sqrt : K → K} {a : Arguments K} {i j : ℕ}
    (h : pairAccepted sqrt a i j = true) :
    a.iou_threshold ≤ iou_batch a.detections a.trackers i j := by
  rw [pairAccepted] at h
  split_ifs at h
  · exact of_decide_eq_true ((Bool.and_eq_true _ _).mp h).2
  · exact of_decide_eq_true h

variable [IsStrictOrderedRing K]

/-- **The pairs are those of a partial matching.** -/
theorem match_scores_spec (large : K) {rows cols : ℕ} (hrows : 0 < rows) (hcols : 0 < cols)
    (score : ℕ → ℕ → K) {fuel : ℕ}
    (hfuel : (rows + cols) + (rows + cols) * (rows + cols) + 1 < fuel) :
    ∃ f : Fin rows ≃. Fin cols, match_scores large fuel rows cols score =
      .ok ((pairs f).map fun p => (some p.1, p.2)) := by
  have hmatrix : ((List.range rows).map fun i => (List.range cols).map fun j => -score i j) =
      Lapjv.matrix fun (i : Fin rows) (j : Fin cols) => -score i j := by
    rw [Lapjv.map_range_eq_ofFn, Lapjv.matrix]
    congr 1
    funext i
    exact Lapjv.map_range_eq_ofFn _ _
  obtain ⟨rowsol, colsol, opt, hexec, f, hf, -⟩ := Lapjv.execLapjv_extended large
    (fun (i : Fin rows) (j : Fin cols) => -score i j) hrows [] [] (1 / 100) true hcols hfuel
  refine ⟨f, ?_⟩
  rw [match_scores, if_pos (lt_min hcols hrows), hmatrix]
  dsimp only
  rw [hexec, Loop.ok_bind]
  dsimp only
  rw [matched_indices_eq hf]
  rfl

omit [IsStrictOrderedRing K] in
theorem associates_of_partition {a : Arguments K} {call : ℕ → Except (Stop Lapjv.Fault) Associated}
    {N : ℕ} (h : ∀ fuel ≥ N, ∃ r, call fuel = .ok r ∧
      Partition a.detections.rows a.trackers.rows r ∧
      ∀ p ∈ r.matched, a.iou_threshold ≤ iou_batch a.detections a.trackers p.1 p.2) :
    Associates a call := by
  refine ⟨N, fun fuel hfuel => ?_⟩
  obtain ⟨r, hr, hpartition, hiou⟩ := h fuel hfuel
  exact ⟨r, hr, hpartition.nodup.1, hpartition.nodup.2, hpartition, hiou⟩

theorem associates_scores (large : K) (sqrt : K → K) (score : ℕ → ℕ → K) (a : Arguments K) :
    Associates a fun fuel => associate_scores large fuel sqrt score a := by
  let n := a.detections.rows + a.trackers.rows
  refine associates_of_partition (N := n + n * n + 2) fun fuel hfuel => ?_
  rcases Nat.eq_zero_or_pos a.detections.rows with hdetections | hdetections
  · exact ⟨_, if_pos hdetections, ⟨by rw [hdetections]; rfl, .refl _⟩, nofun⟩
  rcases Nat.eq_zero_or_pos a.trackers.rows with htrackers | htrackers
  · exact ⟨_, (if_neg hdetections.ne').trans (if_pos htrackers),
      ⟨.refl _, by rw [htrackers]; rfl⟩, nofun⟩
  obtain ⟨f, hf⟩ := match_scores_spec large hdetections htrackers score hfuel
  have hpartition : Partition a.detections.rows a.trackers.rows ⟨pairs f,
      (List.range a.detections.rows).filter fun i => decide (i ∉ (pairs f).map Prod.fst),
      (List.range a.trackers.rows).filter fun j => decide (j ∉ (pairs f).map Prod.snd)⟩ := by
    refine ⟨append_filter_range_perm (map_fst_pairs_nodup f) fun i hi => ?_,
      append_filter_range_perm (map_snd_pairs_nodup f) fun j hj => ?_⟩
    · obtain ⟨p, hp, rfl⟩ := List.mem_map.1 hi
      obtain ⟨i, j, -, rfl⟩ := (mem_pairs f).1 hp
      exact i.isLt
    · obtain ⟨p, hp, rfl⟩ := List.mem_map.1 hj
      obtain ⟨i, j, -, rfl⟩ := (mem_pairs f).1 hp
      exact j.isLt
  refine ⟨_, ?_, partition_judge (pairAccepted sqrt a) hpartition, fun p hp => ?_⟩
  · show associate_scores large fuel sqrt score a = _
    rw [associate_scores, if_neg hdetections.ne', if_neg htrackers.ne', hf, Loop.ok_bind]
    dsimp only
    have hdets (i : ℕ) := not_any_eq (q := (·.1 == some i)) (g := Prod.fst)
      (fun p => by rw [beq_iff_eq, Option.some.injEq]) (pairs f)
    have htrks (j : ℕ) := not_any_eq (q := (·.2 == j)) (g := Prod.snd)
      (fun p => beq_iff_eq) (pairs f)
    simp only [hdets, htrks]
    rw [foldlM_judge]
    rfl
  · exact iou_of_pairAccepted (List.mem_filter.1 hp).2

/-- **`associate` returns a partition**, and would with any scores in place of its own. -/
theorem associate_partition (large : K) (sqrt acos : K → K) (a : Arguments K) :
    (Associates a fun fuel => associate large fuel sqrt acos a) ∧
      ∀ score, Associates a fun fuel => associate_scores large fuel sqrt score a :=
  ⟨associates_scores large sqrt _ a, fun score => associates_scores large sqrt score a⟩

end Association

/-! ### One detection and one tracker -/

/-- A matrix by its rows. -/
def MatrixXf.ofRows (cols : ℕ) (rows : List (List ℚ)) : MatrixXf ℚ :=
  ⟨rows.length, cols, fun i j => (rows.getD i []).getD j 0⟩

/-- The tracker was seen at a distance of five, and moves towards the detection. -/
def oneEach : Arguments ℚ where
  detections := .ofRows 7 [[0, 0, 2, 2, 1, 0, 0]]
  trackers := .ofRows 5 [[0, 0, 2, 1, 0]]
  iou_threshold := 3 / 10
  velocities := .ofRows 2 [[4, 3]]
  previous_obs := .ofRows 5 [[-3, -4, -1, -2, 1]]
  vdc_weight := 1 / 5
  detection_spatial := .ofRows 4 [[0, 0, 0, 0]]
  tracker_spatial := .ofRows 4 [[0, 0, 0, 0]]
  use_spatial_association := false
  spatial_weight := 0
  spatial_distance_threshold := 1
  spatial_depth_aware_scale := 0

/-- The root is that of twenty-five, and the arc cosine that of one. -/
theorem associate_partition_oneEach :
    (Associates oneEach fun fuel => associate 1000000 fuel (fun x => if x = 25 then 5 else 0)
      (fun x => if x = 1 then 0 else 1) oneEach) ∧
      ∀ score, Associates oneEach fun fuel =>
        associate_scores 1000000 fuel (fun x => if x = 25 then 5 else 0) score oneEach :=
  associate_partition 1000000 _ _ oneEach

end ObjectTracker

end DepthaiCore
