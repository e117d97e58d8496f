import DepthaiCore.Lib.Suppression
import DepthaiCore.Utility.MatrixOps

/-!
# Non-maximum suppression

The decoders of the detection parser find many boxes for one object. The most confident one is kept,
and with it go the boxes that overlap with it too much.

The arithmetic is exact. The overlap of two boxes is a quotient, which has no value if neither has
an area. `std::sort` may put candidates of the same confidence in any order, so it is a parameter.
-/

namespace DepthaiCore

structure DetectionCandidate (K : Type) where
  xmin : K
  ymin : K
  xmax : K
  ymax : K
  score : K
  label : ℕ
  headIndex : ℕ
  rowIndex : ℕ
  columnIndex : ℕ
  labelName : Option String := none
  deriving DecidableEq, Repr

/-- The box has an area. -/
structure DetectionCandidate.Proper {K : Type} [LT K] (c : DetectionCandidate K) : Prop where
  width : c.xmin < c.xmax
  height : c.ymin < c.ymax

namespace DetectionParserUtils

variable {K : Type} [Field K] [LinearOrder K]

/-! ### What the source computes -/

/-- The area of the overlap of two boxes. -/
def areaOfOverlap (box1 box2 : DetectionCandidate K) : K :=
  let width_of_overlap_area := min box1.xmax box2.xmax - max box1.xmin box2.xmin
  let height_of_overlap_area := min box1.ymax box2.ymax - max box1.ymin box2.ymin
  if width_of_overlap_area < 0 ∨ height_of_overlap_area < 0 then 0
  else width_of_overlap_area * height_of_overlap_area

/-- The area of a box. -/
def boxArea (box : DetectionCandidate K) : K :=
  (box.ymax - box.ymin) * (box.xmax - box.xmin)

def YoloIntersectionOverUnion (box1 box2 : DetectionCandidate K) : Except Failure K :=
  let area_of_overlap := areaOfOverlap box1 box2
  let area_of_union := boxArea box1 + boxArea box2 - area_of_overlap
  quotient area_of_overlap area_of_union

/-- The comparison in the inner loop of `nonMaximumSuppression`. -/
def suppresses (candidates : List (DetectionCandidate K)) (iouThr : K)
    (i j : Fin candidates.length) : Except Failure Bool := do
  let overlap ← YoloIntersectionOverUnion (candidates.get i) (candidates.get j)
  return decide (overlap ≥ iouThr)

def nonMaximumSuppression (sort : List (DetectionCandidate K) → List (DetectionCandidate K))
    (detectionCandidates : List (DetectionCandidate K)) (iouThr : K) :
    Except Failure (List (DetectionCandidate K)) := do
  let detectionCandidates := sort detectionCandidates
  let keepIndices ← Suppression.select (suppresses detectionCandidates iouThr)
  return keepIndices.map detectionCandidates.get

/-- What `std::sort` promises: the same candidates, none before a more confident one. -/
structure Sorts (sort : List (DetectionCandidate K) → List (DetectionCandidate K)) : Prop where
  perm : ∀ l, (sort l).Perm l
  sorted : ∀ l, (sort l).Pairwise fun a b => b.score ≤ a.score

/-! ### Overlaps -/

theorem areaOfOverlap_comm (box1 box2 : DetectionCandidate K) :
    areaOfOverlap box1 box2 = areaOfOverlap box2 box1 := by
  simp only [areaOfOverlap, min_comm, max_comm]

theorem YoloIntersectionOverUnion_comm (box1 box2 : DetectionCandidate K) :
    YoloIntersectionOverUnion box1 box2 = YoloIntersectionOverUnion box2 box1 := by
  simp only [YoloIntersectionOverUnion, areaOfOverlap_comm box1 box2,
    add_comm (boxArea box1) (boxArea box2)]

section Overlap

variable [IsStrictOrderedRing K] {box1 box2 : DetectionCandidate K}

theorem boxArea_pos (h : box1.Proper) : 0 < boxArea box1 :=
  mul_pos (sub_pos.2 h.height) (sub_pos.2 h.width)

theorem areaOfOverlap_le (h : box1.Proper) : areaOfOverlap box1 box2 ≤ boxArea box1 := by
  simp only [areaOfOverlap]
  split_ifs with hempty
  · exact (boxArea_pos h).le
  · obtain ⟨hwidth, hheight⟩ := not_or.1 hempty
    have hx : min box1.xmax box2.xmax - max box1.xmin box2.xmin ≤ box1.xmax - box1.xmin :=
      sub_le_sub (min_le_left _ _) (le_max_left _ _)
    have hy : min box1.ymax box2.ymax - max box1.ymin box2.ymin ≤ box1.ymax - box1.ymin :=
      sub_le_sub (min_le_left _ _) (le_max_left _ _)
    rw [boxArea, mul_comm]
    exact mul_le_mul hy hx (not_lt.1 hwidth) (sub_nonneg.2 h.height.le)

/-- **The overlap of two boxes with areas has a value.** -/
theorem exists_intersectionOverUnion (h1 : box1.Proper) (h2 : box2.Proper) :
    ∃ overlap, YoloIntersectionOverUnion box1 box2 = .ok overlap := by
  have hpos : 0 < boxArea box1 + boxArea box2 - areaOfOverlap box1 box2 := by
    have hle : areaOfOverlap box1 box2 ≤ boxArea box1 := areaOfOverlap_le h1
    have hpos2 := boxArea_pos h2
    linarith
  exact ⟨_, if_neg hpos.ne'⟩

end Overlap

/-! ### What is kept -/

/-- A selection of the candidates without repetitions, the most confident first. No two of them
overlap by the threshold, and every other candidate does so with one that is as confident at least.
-/
structure NonMaximum (candidates : List (DetectionCandidate K)) (iouThr : K)
    (kept : List (Fin candidates.length)) : Prop where
  nodup : kept.Nodup
  sorted : (kept.map candidates.get).Pairwise fun a b => b.score ≤ a.score
  apart : ∀ i ∈ kept, ∀ j ∈ kept, i ≠ j → ∃ overlap,
    YoloIntersectionOverUnion (candidates.get i) (candidates.get j) = .ok overlap ∧ overlap < iouThr
  covered : ∀ j ∉ kept, ∃ i ∈ kept, (candidates.get j).score ≤ (candidates.get i).score ∧
    ∃ overlap, YoloIntersectionOverUnion (candidates.get i) (candidates.get j) = .ok overlap ∧
      iouThr ≤ overlap

theorem exists_indices {α : Type} {l l' : List α} (h : l'.Perm l) :
    ∃ place : Fin l'.length → Fin l.length, Function.Bijective place ∧
      ∀ i, l'.get i = l.get (place i) := by
  have hmap : l'.Perm ((List.finRange l.length).map l.get) := by
    rwa [List.map_get_finRange]
  obtain ⟨indices, rfl, hperm⟩ : Relation.Comp (· = List.map l.get ·) List.Perm l'
      (List.finRange l.length) := by
    rwa [List.eq_map_comp_perm]
  have hlength : (indices.map l.get).length = indices.length := List.length_map _
  refine ⟨fun i => indices.get (i.cast hlength), ⟨fun i j hij => ?_, fun k => ?_⟩, fun i => ?_⟩
  · have hnodup : indices.Nodup := hperm.nodup_iff.2 (List.nodup_finRange _)
    exact Fin.cast_injective hlength (hnodup.injective_get hij)
  · obtain ⟨i, hi⟩ := List.get_of_mem (hperm.mem_iff.2 (List.mem_finRange k))
    exact ⟨i.cast hlength.symm, hi⟩
  · simp

variable [IsStrictOrderedRing K]

/-- **What is kept, and why the others are not.** -/
theorem nonMaximumSuppression_greedy
    {sort : List (DetectionCandidate K) → List (DetectionCandidate K)} (hsort : Sorts sort)
    (candidates : List (DetectionCandidate K)) (hproper : ∀ c ∈ candidates, c.Proper) (iouThr : K) :
    ∃ kept, nonMaximumSuppression sort candidates iouThr = .ok (kept.map candidates.get) ∧
      NonMaximum candidates iouThr kept := by
  obtain ⟨place, ⟨hinjective, hsurjective⟩, hget⟩ := exists_indices (hsort.perm candidates)
  have hvalue (i j : Fin (sort candidates).length) : ∃ overlap, YoloIntersectionOverUnion
      (candidates.get (place i)) (candidates.get (place j)) = .ok overlap :=
    exists_intersectionOverUnion (hproper _ (List.get_mem ..)) (hproper _ (List.get_mem ..))
  choose overlap hoverlap using hvalue
  have hsuppresses (i j : Fin (sort candidates).length) :
      suppresses (sort candidates) iouThr i j = .ok (decide (overlap i j ≥ iouThr)) := by
    rw [suppresses, hget, hget, hoverlap]
    rfl
  obtain ⟨kept, hkept, hselection⟩ := Suppression.select_eq hsuppresses
  have hscore {i j : Fin (sort candidates).length} (hlt : i < j) :
      (candidates.get (place j)).score ≤ (candidates.get (place i)).score := by
    rw [← hget, ← hget]
    exact List.pairwise_iff_get.1 (hsort.sorted candidates) i j hlt
  refine ⟨kept.map place, ?_, ?_, ?_, ?_, ?_⟩
  · have hmap : kept.map (sort candidates).get = (kept.map place).map candidates.get := by
      rw [List.map_map]
      exact List.map_congr_left fun i _ => hget i
    simp only [nonMaximumSuppression, hkept, Loop.ok_bind, hmap]
    rfl
  · exact hselection.nodup.map hinjective
  · rw [List.map_map, List.pairwise_map]
    exact hselection.sorted.imp hscore
  · intro _ hiplace _ hjplace hne
    obtain ⟨i, hi, rfl⟩ := List.mem_map.1 hiplace
    obtain ⟨j, hj, rfl⟩ := List.mem_map.1 hjplace
    rcases lt_trichotomy i j with hlt | rfl | hlt
    · exact ⟨_, hoverlap i j, by simpa using hselection.free i hi j hj hlt⟩
    · exact absurd rfl hne
    · rw [YoloIntersectionOverUnion_comm]
      exact ⟨_, hoverlap j i, by simpa using hselection.free j hj i hi hlt⟩
  · intro j hj
    obtain ⟨j, rfl⟩ := hsurjective j
    obtain ⟨i, hi, hlt, hconflict⟩ :=
      hselection.covered j fun hmem => hj (List.mem_map_of_mem hmem)
    exact ⟨place i, List.mem_map_of_mem hi, hscore hlt, _, hoverlap i j, by simpa using hconflict⟩

omit [Field K] [IsStrictOrderedRing K] in
theorem sorts_mergeSort : Sorts fun l : List (DetectionCandidate K) =>
    l.mergeSort fun a b => decide (b.score ≤ a.score) where
  perm l := List.mergeSort_perm l _
  sorted l := by
    have htrans (a b c : DetectionCandidate K) (hab : decide (b.score ≤ a.score) = true)
        (hbc : decide (c.score ≤ b.score) = true) : decide (c.score ≤ a.score) = true :=
      decide_eq_true ((of_decide_eq_true hbc).trans (of_decide_eq_true hab))
    have htotal (a b : DetectionCandidate K) :
        (decide (b.score ≤ a.score) || decide (a.score ≤ b.score)) = true := by
      simpa using le_total b.score a.score
    exact (List.pairwise_mergeSort htrans htotal l).imp fun h => of_decide_eq_true h

/-- A box, one that overlaps with half of it, and one elsewhere. -/
def threeCandidates : List (DetectionCandidate ℚ) :=
  [⟨0, 0, 2, 1, 7 / 10, 0, 0, 0, 0, none⟩, ⟨0, 0, 2, 2, 9 / 10, 0, 0, 0, 1, none⟩,
    ⟨5, 5, 6, 6, 4 / 5, 1, 0, 1, 1, none⟩]

theorem nonMaximumSuppression_greedy_threeCandidates :
    ∃ kept, nonMaximumSuppression (fun l => l.mergeSort fun a b => decide (b.score ≤ a.score))
        threeCandidates (1 / 2) = .ok (kept.map threeCandidates.get) ∧
      NonMaximum threeCandidates (1 / 2) kept := by
  refine nonMaximumSuppression_greedy sorts_mergeSort threeCandidates (fun c hc => ?_) (1 / 2)
  simp only [threeCandidates, List.mem_cons, List.not_mem_nil, or_false] at hc
  rcases hc with rfl | rfl | rfl <;> constructor <;> norm_num

/-! ### What is kept stays -/

/-- The two overlap by less than the threshold. -/
def Apart (iouThr : K) (box1 box2 : DetectionCandidate K) : Prop :=
  ∃ overlap, YoloIntersectionOverUnion box1 box2 = .ok overlap ∧ overlap < iouThr

omit [IsStrictOrderedRing K] in
theorem suppresses_eq_false_iff {candidates : List (DetectionCandidate K)} {iouThr : K}
    {i j : Fin candidates.length} : suppresses candidates iouThr i j = .ok false ↔
      Apart iouThr (candidates.get i) (candidates.get j) := by
  rw [suppresses, Loop.bind_eq_ok]
  refine exists_congr fun overlap => and_congr_right fun _ => ?_
  show Except.ok (decide (overlap ≥ iouThr)) = .ok false ↔ _
  rw [Except.ok.injEq, decide_eq_false_iff_not, ge_iff_le, not_le]

/-- The loop over candidates that have an area. -/
theorem exists_selection {candidates : List (DetectionCandidate K)}
    (hproper : ∀ c ∈ candidates, c.Proper) (iouThr : K) :
    ∃ conflict kept, (∀ i j, suppresses candidates iouThr i j = .ok (conflict i j)) ∧
      Suppression.select (suppresses candidates iouThr) = .ok kept ∧
      Suppression.Selection conflict kept := by
  have hvalue (i j : Fin candidates.length) : ∃ b, suppresses candidates iouThr i j = .ok b := by
    obtain ⟨overlap, hoverlap⟩ := exists_intersectionOverUnion
      (hproper _ (List.get_mem candidates i)) (hproper _ (List.get_mem candidates j))
    exact ⟨decide (overlap ≥ iouThr), by rw [suppresses, hoverlap]; rfl⟩
  choose conflict hconflict using hvalue
  obtain ⟨kept, hkept, hselection⟩ := Suppression.select_eq hconflict
  exact ⟨conflict, kept, hconflict, hkept, hselection⟩

/-- A box is kept, or overlaps by the threshold with a kept one that is as confident at least. -/
def Represented (iouThr : K) (kept : List (DetectionCandidate K)) (box : DetectionCandidate K) :
    Prop :=
  ∃ b ∈ kept, b = box ∨ box.score ≤ b.score ∧
    ∃ overlap, YoloIntersectionOverUnion b box = .ok overlap ∧ iouThr ≤ overlap

/-- **What is kept of boxes with areas** represents them all. -/
theorem exists_kept {sort : List (DetectionCandidate K) → List (DetectionCandidate K)}
    (hsort : Sorts sort) {candidates : List (DetectionCandidate K)}
    (hproper : ∀ c ∈ candidates, c.Proper) (iouThr : K) :
    ∃ kept, nonMaximumSuppression sort candidates iouThr = .ok kept ∧ kept ⊆ candidates ∧
      kept.Pairwise (Apart iouThr) ∧ ∀ b ∈ candidates, Represented iouThr kept b := by
  have hmem {c : DetectionCandidate K} : c ∈ sort candidates ↔ c ∈ candidates :=
    (hsort.perm candidates).mem_iff
  obtain ⟨conflict, kept, hconflict, hkept, hselection⟩ :=
    exists_selection (fun c hc => hproper c (hmem.1 hc)) iouThr
  refine ⟨kept.map (sort candidates).get, ?_, fun c hc => ?_, ?_, fun b hb => ?_⟩
  · rw [nonMaximumSuppression, hkept]
    rfl
  · obtain ⟨i, -, rfl⟩ := List.mem_map.1 hc
    exact hmem.1 (List.get_mem _ i)
  · rw [List.pairwise_map]
    refine hselection.sorted.imp_of_mem fun hi hj hlt => suppresses_eq_false_iff.1 ?_
    rw [hconflict, hselection.free _ hi _ hj hlt]
  · obtain ⟨j, rfl⟩ := List.get_of_mem (hmem.2 hb)
    by_cases hj : j ∈ kept
    · exact ⟨_, List.mem_map_of_mem hj, .inl rfl⟩
    obtain ⟨i, hi, hlt, htrue⟩ := hselection.covered j hj
    have hsuppresses := hconflict i j
    rw [htrue, suppresses, Loop.bind_eq_ok] at hsuppresses
    obtain ⟨overlap, hoverlap, hle⟩ := hsuppresses
    exact ⟨_, List.mem_map_of_mem hi, .inr
      ⟨List.pairwise_iff_get.1 (hsort.sorted candidates) i j hlt, overlap, hoverlap,
        of_decide_eq_true (Except.ok.inj hle)⟩⟩

end DetectionParserUtils

end DepthaiCore
