import DepthaiCore.Lib.FirstMaximum
import DepthaiCore.Lib.OrderStatistics
import Mathlib.Tactic.FieldSimp
import Mathlib.Tactic.Linarith
import Mathlib.Tactic.Positivity

/-!
# Statistics of depth pixels

`DepthStats` collects the pixels that are between two thresholds. `calculateDepth` makes a depth of
them, and some of its algorithms rearrange what is collected. The number of pixels is a `uint32_t`.

The arithmetic of floating point numbers is exact.
-/

namespace DepthaiCore

namespace SpatialUtils

/-- `uint16_t`. -/
abbrev Pixel := Fin (2 ^ 16)

scoped instance neZero_size : NeZero (2 ^ 16) := ⟨by decide⟩

/-- `SpatialLocationCalculatorAlgorithm`. A message can also have a value without a name. -/
inductive SpatialLocationCalculatorAlgorithm
  | AVERAGE
  | MIN
  | MAX
  | MODE
  | MEDIAN
  | other (value : UInt32)
  deriving DecidableEq, Repr

/-- What `std::nth_element` promises: the same elements, at `n` the one that sorting would put
there, before it none that is greater and behind it none that is smaller. -/
structure NthElement where
  select : List Pixel → ℕ → List Pixel
  perm : ∀ l n, (select l n).Perm l
  split : ∀ l n, n < l.length → ∃ before v after, select l n = before ++ v :: after ∧
    before.length = n ∧ (∀ a ∈ before, a ≤ v) ∧ ∀ a ∈ after, v ≤ a

def sort (l : List Pixel) : List Pixel :=
  l.mergeSort (· ≤ ·)

/-! ### The class -/

structure DepthStats where
  sum : ℚ := 0
  counter : ℕ := 0
  max : ℕ := 0
  min : ℕ := 2 ^ 16 - 1
  lowerThreshold : ℕ
  upperThreshold : ℕ
  validPixels : List Pixel := []
  deriving DecidableEq, Repr

/-- The conversion to `uint16_t`. -/
def uint16_t (n : ℕ) : Pixel := Fin.ofNat (2 ^ 16) n

/-- The values of `uint32_t`. -/
def UINT32 : ℕ := 2 ^ 32

namespace DepthStats

/-- **`addPixel`.** -/
def addPixel (this : DepthStats) (px : Pixel) : DepthStats :=
  if this.lowerThreshold < px ∧ px < this.upperThreshold then
    { this with
      validPixels := this.validPixels ++ [px]
      sum := this.sum + (px : ℕ)
      counter := (this.counter + 1) % UINT32
      min := if px < this.min then px else this.min
      max := if this.max < px then px else this.max }
  else this

def MAX_HISTOGRAM_RANGE : ℕ := 4096

/-- The counters of the values from `minVal` to `maxVal`. -/
def histogram (validPixels : List Pixel) (minVal maxVal : Pixel) (valueRange : ℕ) : List ℕ :=
  validPixels.foldl (fun histogram px =>
    if px < minVal ∨ maxVal < px then histogram
    else histogram.modify (px.val - minVal.val) fun c => (c + 1) % UINT32)
    (List.replicate valueRange 0)

/-- A round of the loop over the counters, with `maxCount` and `modeValue`. -/
def histogramRound (histogram : List ℕ) (minVal : Pixel) (s : ℕ × Pixel) (i : ℕ) : ℕ × Pixel :=
  if s.1 < histogram.getD i 0 then (histogram.getD i 0, uint16_t (minVal + i)) else s

/-- The mode by a histogram. -/
def modeByHistogram (validPixels : List Pixel) (minVal maxVal : Pixel) (valueRange : ℕ) : ℚ :=
  let histogram := histogram validPixels minVal maxVal valueRange
  let (maxCount, modeValue) :=
    (List.range histogram.length).foldl (histogramRound histogram minVal) (0, minVal)
  if maxCount ≠ 0 then (modeValue : ℕ) else 0

/-- The variables of the loop over the sorted pixels. `previous` is `validPixels[i - 1]`. -/
structure Runs where
  previous : Pixel
  modeValue : Pixel
  maxCount : ℕ
  currentCount : ℕ
  deriving DecidableEq, Repr

/-- A round of the loop over the sorted pixels. -/
def sortedRound (s : Runs) (px : Pixel) : Runs :=
  if px = s.previous then { s with currentCount := (s.currentCount + 1) % UINT32 }
  else if s.maxCount < s.currentCount then
    { previous := px, modeValue := s.previous, maxCount := s.currentCount, currentCount := 1 }
  else { s with previous := px, currentCount := 1 }

/-- The mode of sorted pixels. -/
def modeBySorting : List Pixel → ℚ
  | [] => 0
  | px :: rest =>
    let s := rest.foldl sortedRound
      { previous := px, modeValue := px, maxCount := 1, currentCount := 1 }
    -- Behind the loop, `previous` is `validPixels.back()`.
    if s.maxCount < s.currentCount then (s.previous : ℕ) else (s.modeValue : ℕ)

/-- The branches of `calculateDepth`, with the pixels as they leave them. -/
def switch (nth : NthElement) (this : DepthStats) :
    SpatialLocationCalculatorAlgorithm → ℚ × DepthStats
  | .MEDIAN | .other _ =>
    let midIndex := this.validPixels.length / 2
    let validPixels := nth.select this.validPixels midIndex
    ((validPixels.getD midIndex 0 : ℕ), { this with validPixels })
  | .AVERAGE => (this.sum / this.counter, this)
  | .MIN => (this.min, this)
  | .MAX => (this.max, this)
  | .MODE =>
    let minVal := uint16_t this.min
    let maxVal := uint16_t this.max
    if maxVal < minVal then (0, this)
    else
      let valueRange := (maxVal - minVal : ℕ) + 1
      if valueRange ≤ MAX_HISTOGRAM_RANGE then
        (modeByHistogram this.validPixels minVal maxVal valueRange, this)
      else
        let validPixels := sort this.validPixels
        (modeBySorting validPixels, { this with validPixels })

/-- **`calculateDepth`.** -/
def calculateDepth (nth : NthElement) (this : DepthStats)
    (algo : SpatialLocationCalculatorAlgorithm) : ℚ × DepthStats :=
  if this.counter = 0 ∨ this.validPixels = [] then (0, this) else this.switch nth algo

end DepthStats

/-! ### What it should return -/

/-- The pixels between the thresholds. -/
def inRange (lowerThreshold upperThreshold : ℕ) (pixels : List Pixel) : Multiset Pixel :=
  (pixels.filter fun px => lowerThreshold < px.val ∧ px.val < upperThreshold : List Pixel)

/-- **The depth of a multiset of pixels.** -/
def IsDepth (algo : SpatialLocationCalculatorAlgorithm) (pixels : Multiset Pixel) (z : ℚ) : Prop :=
  if pixels = 0 then z = 0
  else
    match algo with
    | .AVERAGE => z = (pixels.map fun px => (px.val : ℚ)).sum / pixels.card
    | .MIN => ∃ px : Pixel, IsLeast {v | v ∈ pixels} px ∧ z = px.val
    | .MAX => ∃ px : Pixel, IsGreatest {v | v ∈ pixels} px ∧ z = px.val
    | .MODE => ∃ px : Pixel, OrderStatistics.IsMode pixels px ∧ z = px.val
    | .MEDIAN | .other _ =>
      ∃ px : Pixel, OrderStatistics.IsRank pixels (pixels.card / 2) px ∧ z = px.val

/-- A call. -/
inductive Call
  | addPixel (px : Pixel)
  | calculateDepth (algo : SpatialLocationCalculatorAlgorithm)
  deriving DecidableEq, Repr

namespace DepthStats

def step (nth : NthElement) (this : DepthStats) : Call → DepthStats
  | .addPixel px => this.addPixel px
  | .calculateDepth algo => (this.calculateDepth nth algo).2

/-- Calls one after another. -/
def run (nth : NthElement) (this : DepthStats) (calls : List Call) : DepthStats :=
  calls.foldl (step nth) this

end DepthStats

/-- The pixel that a call adds. -/
def Call.pixel? : Call → Option Pixel
  | .addPixel px => some px
  | .calculateDepth _ => none

/-- The pixels that calls add. -/
def Call.pixels (calls : List Call) : List Pixel :=
  calls.filterMap Call.pixel?

/-- **Every call returns the statistic of the pixels that were added,** whatever was called before
and whichever elements `std::nth_element` exchanges. -/
def RightFor (lowerThreshold upperThreshold : ℕ) (pixels : List Pixel) : Prop :=
  ∀ (nth : NthElement) (calls : List Call) (algo : SpatialLocationCalculatorAlgorithm),
    Call.pixels calls = pixels →
    IsDepth algo (inRange lowerThreshold upperThreshold pixels)
      ((DepthStats.run nth { lowerThreshold, upperThreshold } calls).calculateDepth nth algo).1

/-! ### The histogram -/

section Histogram

variable {l : List Pixel} {lo hi : Pixel}

theorem uint16_t_val (px : Pixel) : uint16_t px = px :=
  Fin.ofNat_val_eq_self px

theorem val_uint16_t_add {k : ℕ} (hk : k < (hi - lo : ℕ) + 1) :
    (uint16_t (lo + k)).val = lo + k := by
  have hlt : lo.val + k < 2 ^ 16 := by have := hi.isLt; have := lo.isLt; omega
  exact Nat.mod_eq_of_lt hlt

/-- The counters are those of the distances from the least value. -/
theorem histogram_eq_tally (hrange : ∀ px ∈ l, lo ≤ px ∧ px ≤ hi) (valueRange : ℕ) :
    DepthStats.histogram l lo hi valueRange =
      OrderStatistics.tally UINT32 valueRange (l.map fun px => px.val - lo.val) := by
  rw [DepthStats.histogram, OrderStatistics.tally, List.foldl_map]
  refine List.foldl_ext _ _ _ fun counts px hpx => ?_
  obtain ⟨hlo, hhi⟩ := hrange px hpx
  exact if_neg (not_or.2 ⟨not_lt.2 hlo, not_lt.2 hhi⟩)

theorem count_distance (hrange : ∀ px ∈ l, lo ≤ px ∧ px ≤ hi) {k : ℕ}
    (hk : k < (hi - lo : ℕ) + 1) :
    (l.map fun px => px.val - lo.val).count k = l.count (uint16_t (lo + k)) := by
  rw [List.count, List.count, List.countP_map]
  refine List.countP_congr fun px hpx => ?_
  have hlo : lo.val ≤ px.val := (hrange px hpx).1
  have hval := val_uint16_t_add hk
  simp only [Function.comp_apply, beq_iff_eq, Fin.ext_iff, hval]
  omega

theorem getD_histogram (hrange : ∀ px ∈ l, lo ≤ px ∧ px ≤ hi) (hlength : l.length < UINT32) {k : ℕ}
    (hk : k < (hi - lo : ℕ) + 1) :
    (DepthStats.histogram l lo hi ((hi - lo : ℕ) + 1)).getD k 0 = l.count (uint16_t (lo + k)) := by
  rw [histogram_eq_tally hrange, List.getD_eq_getElem?_getD,
    OrderStatistics.getElem?_tally hk (by rwa [List.length_map]), Option.getD_some,
    count_distance hrange hk]

/-- The loop over the counters keeps the first of the greatest. -/
theorem foldl_histogramRound {counts : List ℕ} {n i : ℕ}
    (hfirst : FirstMaximum (fun k => counts.getD k 0) 0 (0 + n) i) (hpos : 0 < counts.getD i 0) :
    (List.range n).foldl (DepthStats.histogramRound counts lo) (0, lo) =
      (counts.getD i 0, uint16_t (lo + i)) := by
  have hround : DepthStats.histogramRound counts lo = FirstMaximum.pass
      (fun a b => decide (a < b)) (fun k => counts.getD k 0) fun k => uint16_t (lo + k) := by
    funext s k
    rw [DepthStats.histogramRound, FirstMaximum.pass]
    exact if_congr decide_eq_true_iff.symm rfl rfl
  have hlt : ∀ a b : ℕ, True → True → (decide (a < b) = true ↔ id a < id b) :=
    fun a b _ _ => decide_eq_true_iff
  rw [List.range_eq_range', hround]
  refine (FirstMaximum.foldl_pass hlt trivial (fun _ _ _ => trivial) hfirst).trans ?_
  exact if_pos hpos

/-- **The mode by a histogram.** -/
theorem exists_modeByHistogram (hrange : ∀ px ∈ l, lo ≤ px ∧ px ≤ hi) (hlo : lo ∈ l)
    (hlength : l.length < UINT32) : ∃ px : Pixel, OrderStatistics.IsMode (l : Multiset Pixel) px ∧
      DepthStats.modeByHistogram l lo hi ((hi - lo : ℕ) + 1) = px.val := by
  have hcount := fun k hk => getD_histogram (k := k) hrange hlength hk
  have hlengthH :
      (DepthStats.histogram l lo hi ((hi - lo : ℕ) + 1)).length = (hi - lo : ℕ) + 1 := by
    rw [histogram_eq_tally hrange, OrderStatistics.length_tally]
  rw [DepthStats.modeByHistogram, hlengthH]
  generalize DepthStats.histogram l lo hi ((hi - lo : ℕ) + 1) = counts at hcount
  obtain ⟨i, hfirst⟩ := FirstMaximum.exists_of_lt (fun k => counts.getD k 0)
    (by omega : 0 < 0 + ((hi - lo : ℕ) + 1))
  have hi' : i < (hi - lo : ℕ) + 1 := by have := hfirst.lt_hi; omega
  have hpos : 0 < counts.getD i 0 := by
    have hle := hfirst.le 0 le_rfl (by omega)
    rw [hcount 0 (by omega), Nat.add_zero, uint16_t_val] at hle
    exact (List.count_pos_iff.2 hlo).trans_le hle
  -- Every pixel has a counter, and the counters come in the order of the values.
  have hindex : ∀ px ∈ l, ∃ k, k < (hi - lo : ℕ) + 1 ∧ uint16_t (lo + k) = px := by
    intro px hpx
    obtain ⟨hge, hle⟩ := hrange px hpx
    have hge' : lo.val ≤ px.val := hge
    have hle' : px.val ≤ hi.val := hle
    refine ⟨px - lo, by omega, ?_⟩
    rw [Nat.add_sub_cancel' hge', uint16_t_val]
  refine ⟨uint16_t (lo + i), OrderStatistics.isMode_coe ?_ ?_ ?_, ?_⟩
  · rw [← List.count_pos_iff, ← hcount i hi']
    exact hpos
  · intro px hpx
    obtain ⟨k, hk, rfl⟩ := hindex px hpx
    rw [← hcount k hk, ← hcount i hi']
    exact hfirst.le k k.zero_le (by omega)
  · intro px hpx heq
    obtain ⟨k, hk, rfl⟩ := hindex px hpx
    rw [← hcount k hk, ← hcount i hi'] at heq
    refine Fin.le_def.2 ?_
    rw [val_uint16_t_add hi', val_uint16_t_add hk]
    by_contra hlt
    exact absurd heq (hfirst.lt k k.zero_le (by omega)).ne
  · rw [foldl_histogramRound hfirst hpos]
    exact if_pos hpos.ne'

end Histogram

/-! ### Sorted pixels -/

theorem sort_perm (l : List Pixel) : (sort l).Perm l :=
  List.mergeSort_perm l _

theorem pairwise_sort (l : List Pixel) : (sort l).Pairwise (· ≤ ·) :=
  List.pairwise_mergeSort' (· ≤ ·) l

/-- The loop as a pass. -/
def DepthStats.Runs.toPass (s : DepthStats.Runs) : OrderStatistics.Pass Pixel :=
  ⟨s.previous, s.modeValue, s.maxCount, s.currentCount⟩

theorem toPass_sortedRound (s : DepthStats.Runs) (px : Pixel) :
    s.toPass.next UINT32 px = (DepthStats.sortedRound s px).toPass := by
  rw [DepthStats.sortedRound, OrderStatistics.Pass.next]
  by_cases hsame : px = s.previous
  · rw [if_pos hsame]
    exact if_pos hsame
  · rw [if_neg hsame]
    refine (if_neg hsame).trans ?_
    by_cases hlonger : s.maxCount < s.currentCount
    · rw [if_pos hlonger]
      exact if_pos hlonger
    · rw [if_neg hlonger]
      exact if_neg hlonger

/-- **The mode of sorted pixels.** -/
theorem exists_modeBySorting {l : List Pixel} (hl : l ≠ []) (hlength : l.length < UINT32) :
    ∃ px : Pixel, OrderStatistics.IsMode (l : Multiset Pixel) px ∧
      DepthStats.modeBySorting (sort l) = px.val := by
  have hsorted := pairwise_sort l
  rw [← (sort_perm l).length_eq] at hlength
  rw [← Multiset.coe_eq_coe.2 (sort_perm l)]
  have hne : sort l ≠ [] := fun h => hl (h ▸ sort_perm l).symm.eq_nil
  generalize sort l = sorted at hsorted hlength hne
  cases sorted with
  | nil => exact absurd rfl hne
  | cons px rest =>
    refine ⟨_, OrderStatistics.isMode_pass hsorted hlength, ?_⟩
    have hpass : OrderStatistics.Pass.start px = DepthStats.Runs.toPass ⟨px, px, 1, 1⟩ := rfl
    rw [DepthStats.modeBySorting, hpass,
      List.foldl_hom DepthStats.Runs.toPass toPass_sortedRound, OrderStatistics.Pass.result]
    exact (apply_ite (fun v : Pixel => (v.val : ℚ)) _ _ _).symm

/-! ### The state -/

theorem mem_inRange {lowerThreshold upperThreshold : ℕ} {pixels : List Pixel} {px : Pixel} :
    px ∈ inRange lowerThreshold upperThreshold pixels ↔
      px ∈ pixels ∧ lowerThreshold < px.val ∧ px.val < upperThreshold := by
  rw [inRange, Multiset.mem_coe, List.mem_filter, decide_eq_true_iff]

namespace DepthStats

/-- **The pixels that are collected.** -/
structure Holds (lowerThreshold upperThreshold : ℕ) (this : DepthStats) (pixels : Multiset Pixel) :
    Prop where
  lower_eq : this.lowerThreshold = lowerThreshold
  upper_eq : this.upperThreshold = upperThreshold
  pixels_eq : (this.validPixels : Multiset Pixel) = pixels
  sum_eq : this.sum = (pixels.map fun px => (px.val : ℚ)).sum
  counter_eq : this.counter = pixels.card % UINT32
  min_le : ∀ px ∈ pixels, this.min ≤ px.val
  min_eq : this.min = 2 ^ 16 - 1 ∨ ∃ px ∈ pixels, px.val = this.min
  le_max : ∀ px ∈ pixels, px.val ≤ this.max
  max_eq : this.max = 0 ∨ ∃ px ∈ pixels, px.val = this.max

section Step

variable {lowerThreshold upperThreshold : ℕ} {this : DepthStats} {pixels : Multiset Pixel}

theorem holds_empty : Holds lowerThreshold upperThreshold { lowerThreshold, upperThreshold } 0 where
  lower_eq := rfl
  upper_eq := rfl
  pixels_eq := rfl
  sum_eq := rfl
  counter_eq := rfl
  min_le _ h := absurd h (Multiset.notMem_zero _)
  min_eq := .inl rfl
  le_max _ h := absurd h (Multiset.notMem_zero _)
  max_eq := .inl rfl

theorem Holds.addPixel_of_inRange (h : Holds lowerThreshold upperThreshold this pixels) {px : Pixel}
    (hpx : lowerThreshold < px.val ∧ px.val < upperThreshold) :
    Holds lowerThreshold upperThreshold (this.addPixel px) (px ::ₘ pixels) := by
  rw [← h.lower_eq, ← h.upper_eq] at hpx
  rw [addPixel, if_pos hpx]
  refine ⟨h.lower_eq, h.upper_eq, ?_, ?_, ?_, ?_, ?_, ?_, ?_⟩
  · rw [← Multiset.coe_add, Multiset.coe_singleton, h.pixels_eq, add_comm,
      Multiset.singleton_add]
  · rw [Multiset.map_cons, Multiset.sum_cons, h.sum_eq, add_comm]
  · rw [h.counter_eq, Multiset.card_cons, Nat.mod_add_mod]
  · intro v hv
    rcases Multiset.mem_cons.1 hv with rfl | hv
    · dsimp only
      split_ifs <;> omega
    · have hle := h.min_le v hv
      dsimp only
      split_ifs <;> omega
  · dsimp only
    split_ifs with hlt
    · exact .inr ⟨px, Multiset.mem_cons_self px pixels, rfl⟩
    · exact h.min_eq.imp_right fun ⟨v, hv, heq⟩ => ⟨v, Multiset.mem_cons_of_mem hv, heq⟩
  · intro v hv
    rcases Multiset.mem_cons.1 hv with rfl | hv
    · dsimp only
      split_ifs <;> omega
    · have hle := h.le_max v hv
      dsimp only
      split_ifs <;> omega
  · dsimp only
    split_ifs with hlt
    · exact .inr ⟨px, Multiset.mem_cons_self px pixels, rfl⟩
    · exact h.max_eq.imp_right fun ⟨v, hv, heq⟩ => ⟨v, Multiset.mem_cons_of_mem hv, heq⟩

theorem Holds.addPixel_of_not (h : Holds lowerThreshold upperThreshold this pixels) {px : Pixel}
    (hpx : ¬ (lowerThreshold < px.val ∧ px.val < upperThreshold)) :
    Holds lowerThreshold upperThreshold (this.addPixel px) pixels := by
  rw [← h.lower_eq, ← h.upper_eq] at hpx
  rw [addPixel, if_neg hpx]
  exact h

/-- **A calculation rearranges the pixels at most.** -/
theorem exists_perm_calculateDepth (nth : NthElement) (this : DepthStats)
    (algo : SpatialLocationCalculatorAlgorithm) : ∃ l, l.Perm this.validPixels ∧
      (this.calculateDepth nth algo).2 = { this with validPixels := l } := by
  have hself : ∃ l : List Pixel, l.Perm this.validPixels ∧
      this = { this with validPixels := l } := ⟨this.validPixels, .refl _, rfl⟩
  have hselect : ∃ l : List Pixel, l.Perm this.validPixels ∧
      { this with validPixels := nth.select this.validPixels (this.validPixels.length / 2) } =
        { this with validPixels := l } := ⟨_, nth.perm _ _, rfl⟩
  rw [calculateDepth]
  split_ifs
  · exact hself
  · cases algo with
    | AVERAGE | MIN | MAX => exact hself
    | MODE =>
      dsimp only [switch]
      split_ifs
      · exact hself
      · exact hself
      · exact ⟨_, sort_perm _, rfl⟩
    | MEDIAN => exact hselect
    | other _ => exact hselect

theorem Holds.calculateDepth (h : Holds lowerThreshold upperThreshold this pixels)
    (nth : NthElement) (algo : SpatialLocationCalculatorAlgorithm) :
    Holds lowerThreshold upperThreshold (this.calculateDepth nth algo).2 pixels := by
  obtain ⟨l, hperm, heq⟩ := exists_perm_calculateDepth nth this algo
  rw [heq]
  exact { h with pixels_eq := (Multiset.coe_eq_coe.2 hperm).trans h.pixels_eq }

/-- **What a call keeps.** -/
theorem Holds.step (nth : NthElement) {before : List Pixel}
    (h : Holds lowerThreshold upperThreshold this (inRange lowerThreshold upperThreshold before))
    (call : Call) : Holds lowerThreshold upperThreshold (this.step nth call)
      (inRange lowerThreshold upperThreshold (before ++ call.pixel?.toList)) := by
  cases call with
  | calculateDepth algo =>
    rw [Call.pixel?, Option.toList_none, List.append_nil]
    exact h.calculateDepth nth algo
  | addPixel px =>
    rw [Call.pixel?, Option.toList_some, inRange, List.filter_append]
    by_cases hpx : lowerThreshold < px.val ∧ px.val < upperThreshold
    · rw [List.filter_cons_of_pos (by simpa using hpx), List.filter_nil, ← Multiset.coe_add,
        add_comm, Multiset.coe_singleton, Multiset.singleton_add]
      exact h.addPixel_of_inRange hpx
    · rw [List.filter_cons_of_neg (by simpa using hpx), List.filter_nil, List.append_nil]
      exact h.addPixel_of_not hpx

/-- **What calls have collected.** -/
theorem holds_run (nth : NthElement) (calls : List Call) : Holds lowerThreshold upperThreshold
    (run nth { lowerThreshold, upperThreshold } calls)
    (inRange lowerThreshold upperThreshold (Call.pixels calls)) := by
  induction calls using List.reverseRecOn with
  | nil => exact holds_empty
  | append_singleton calls call ih =>
    rw [run, List.foldl_append, List.foldl_cons, List.foldl_nil, Call.pixels,
      List.filterMap_append]
    have hpixel : [call].filterMap Call.pixel? = call.pixel?.toList := by
      cases call <;> rfl
    rw [hpixel]
    exact ih.step nth call

/-! ### The result -/

theorem Holds.isLeast (h : Holds lowerThreshold upperThreshold this pixels) (hne : pixels ≠ 0) :
    ∃ px : Pixel, IsLeast {v | v ∈ pixels} px ∧ this.min = px.val := by
  have hmem : ∃ px ∈ pixels, px.val = this.min := by
    rcases h.min_eq with hmin | hmem
    · obtain ⟨px, hpx⟩ := Multiset.exists_mem_of_ne_zero hne
      have hle := h.min_le px hpx
      have hlt := px.isLt
      exact ⟨px, hpx, by omega⟩
    · exact hmem
  obtain ⟨px, hpx, heq⟩ := hmem
  exact ⟨px, ⟨hpx, fun v hv => Fin.le_def.2 (heq ▸ h.min_le v hv)⟩, heq.symm⟩

theorem Holds.isGreatest (h : Holds lowerThreshold upperThreshold this pixels) (hne : pixels ≠ 0) :
    ∃ px : Pixel, IsGreatest {v | v ∈ pixels} px ∧ this.max = px.val := by
  have hmem : ∃ px ∈ pixels, px.val = this.max := by
    rcases h.max_eq with hmax | hmem
    · obtain ⟨px, hpx⟩ := Multiset.exists_mem_of_ne_zero hne
      have hle := h.le_max px hpx
      exact ⟨px, hpx, by omega⟩
    · exact hmem
  obtain ⟨px, hpx, heq⟩ := hmem
  exact ⟨px, ⟨hpx, fun v hv => Fin.le_def.2 (heq ▸ h.le_max v hv)⟩, heq.symm⟩

theorem Holds.length_eq (h : Holds lowerThreshold upperThreshold this pixels) :
    this.validPixels.length = pixels.card := by
  rw [← h.pixels_eq, Multiset.coe_card]

theorem Holds.pixels_eq_nil_iff (h : Holds lowerThreshold upperThreshold this pixels) :
    this.validPixels = [] ↔ pixels = 0 := by
  rw [← h.pixels_eq, Multiset.coe_eq_zero]

/-- The median is the element of the rank in the middle. -/
theorem Holds.isRank (h : Holds lowerThreshold upperThreshold this pixels) (hne : pixels ≠ 0)
    (nth : NthElement) : OrderStatistics.IsRank pixels (pixels.card / 2)
      ((nth.select this.validPixels (this.validPixels.length / 2)).getD
        (this.validPixels.length / 2) 0) := by
  have hpos : 0 < this.validPixels.length := by
    rw [h.length_eq]
    exact Multiset.card_pos.2 hne
  obtain ⟨before, v, after, hselect, hlength, hbefore, hafter⟩ :=
    nth.split this.validPixels (this.validPixels.length / 2) (by omega)
  have hrank := OrderStatistics.isRank_of_split hbefore hafter
  rw [← hselect, Multiset.coe_eq_coe.2 (nth.perm _ _), h.pixels_eq, hlength, h.length_eq] at hrank
  have hget : (before ++ v :: after).getD before.length 0 = v := by
    rw [List.getD_eq_getElem?_getD, List.getElem?_append_right le_rfl, Nat.sub_self]
    rfl
  rwa [hselect, ← hlength, hget]

theorem Holds.exists_mode (h : Holds lowerThreshold upperThreshold this pixels) (hne : pixels ≠ 0)
    (hcard : pixels.card < UINT32) (nth : NthElement) : ∃ px : Pixel,
      OrderStatistics.IsMode pixels px ∧ (this.switch nth .MODE).1 = px.val := by
  obtain ⟨lo, hlo, hmin⟩ := h.isLeast hne
  obtain ⟨hi, hhi, hmax⟩ := h.isGreatest hne
  have hnil : this.validPixels ≠ [] := fun hnil => hne (h.pixels_eq_nil_iff.1 hnil)
  have hlength : this.validPixels.length < UINT32 := h.length_eq ▸ hcard
  have hmem : ∀ px, px ∈ this.validPixels ↔ px ∈ pixels := fun px => by
    rw [← h.pixels_eq, Multiset.mem_coe]
  dsimp only [switch]
  rw [hmin, hmax, uint16_t_val, uint16_t_val, if_neg (not_lt.2 (hhi.2 hlo.1)), ← h.pixels_eq]
  split_ifs
  · refine exists_modeByHistogram (fun px hpx => ?_) ((hmem lo).2 hlo.1) hlength
    exact ⟨hlo.2 ((hmem px).1 hpx), hhi.2 ((hmem px).1 hpx)⟩
  · exact exists_modeBySorting hnil hlength

/-- **Fewer than 2^32 pixels.** -/
theorem Holds.isDepth (h : Holds lowerThreshold upperThreshold this pixels)
    (hcard : pixels.card < UINT32) (nth : NthElement) (algo : SpatialLocationCalculatorAlgorithm) :
    IsDepth algo pixels (this.calculateDepth nth algo).1 := by
  unfold IsDepth
  by_cases hzero : pixels = 0
  · rw [if_pos hzero, DepthStats.calculateDepth, if_pos (.inr (h.pixels_eq_nil_iff.2 hzero))]
  · have hnil : this.validPixels ≠ [] := fun hnil => hzero (h.pixels_eq_nil_iff.1 hnil)
    have hcounter : this.counter = pixels.card := by rw [h.counter_eq, Nat.mod_eq_of_lt hcard]
    have hne : this.counter ≠ 0 := hcounter ▸ (Multiset.card_pos.2 hzero).ne'
    rw [if_neg hzero, DepthStats.calculateDepth, if_neg (not_or.2 ⟨hne, hnil⟩)]
    cases algo with
    | MODE => exact h.exists_mode hzero hcard nth
    | AVERAGE =>
      show this.sum / this.counter = _
      rw [h.sum_eq, hcounter]
    | MIN =>
      obtain ⟨px, hleast, hmin⟩ := h.isLeast hzero
      exact ⟨px, hleast, congrArg Nat.cast hmin⟩
    | MAX =>
      obtain ⟨px, hgreatest, hmax⟩ := h.isGreatest hzero
      exact ⟨px, hgreatest, congrArg Nat.cast hmax⟩
    | MEDIAN | other _ => exact ⟨_, h.isRank hzero nth, rfl⟩

end Step

end DepthStats

/-! ### When every result is right -/

/-- Sorting keeps the promises of `std::nth_element`. -/
def NthElement.ofSort : NthElement where
  select l _ := sort l
  perm l _ := sort_perm l
  split l n hn := by
    have hlt : n < (sort l).length := by rwa [(sort_perm l).length_eq]
    have hsplit : sort l = (sort l).take n ++ (sort l).get ⟨n, hlt⟩ :: (sort l).drop (n + 1) := by
      rw [List.get_eq_getElem, List.getElem_cons_drop, List.take_append_drop]
    have hsorted := pairwise_sort l
    rw [hsplit, List.pairwise_append, List.pairwise_cons] at hsorted
    obtain ⟨-, ⟨hafter, -⟩, hbefore⟩ := hsorted
    refine ⟨_, _, _, hsplit, ?_, fun a ha => hbefore a ha _ List.mem_cons_self, hafter⟩
    rw [List.length_take, Nat.min_eq_left hlt.le]

theorem pixels_map_addPixel (pixels : List Pixel) :
    Call.pixels (pixels.map .addPixel) = pixels := by
  rw [Call.pixels, List.filterMap_map]
  exact List.filterMap_some

/-- Pixels above a threshold have a sum that is not zero. -/
theorem sum_pos {lowerThreshold upperThreshold : ℕ} {pixels : List Pixel}
    (hne : inRange lowerThreshold upperThreshold pixels ≠ 0) :
    0 < ((inRange lowerThreshold upperThreshold pixels).map fun px => (px.val : ℚ)).sum := by
  obtain ⟨px, hpx⟩ := Multiset.exists_mem_of_ne_zero hne
  have hpos : ∀ v ∈ (inRange lowerThreshold upperThreshold pixels).map fun px => (px.val : ℚ),
      0 < v := by
    intro v hv
    obtain ⟨px, hpx, rfl⟩ := Multiset.mem_map.1 hv
    exact Nat.cast_pos.2 (Nat.zero_lt_of_lt (mem_inRange.1 hpx).2.1)
  have hmem := Multiset.mem_map_of_mem (fun px : Pixel => (px.val : ℚ)) hpx
  exact (hpos _ hmem).trans_le (Multiset.single_le_sum (fun v hv => (hpos v hv).le) _ hmem)

/-- **From 2^32 pixels on, the average is wrong.** -/
theorem not_isDepth_average {lowerThreshold upperThreshold : ℕ} {this : DepthStats}
    {pixels : List Pixel}
    (h : this.Holds lowerThreshold upperThreshold (inRange lowerThreshold upperThreshold pixels))
    (hcard : UINT32 ≤ (inRange lowerThreshold upperThreshold pixels).card) (nth : NthElement) :
    ¬ IsDepth .AVERAGE (inRange lowerThreshold upperThreshold pixels)
      (this.calculateDepth nth .AVERAGE).1 := by
  have hUINT32 : 0 < UINT32 := Nat.two_pow_pos 32
  have hne : inRange lowerThreshold upperThreshold pixels ≠ 0 :=
    Multiset.card_pos.1 (hUINT32.trans_le hcard)
  have hsum := sum_pos hne
  have hnil : this.validPixels ≠ [] := fun hnil => hne (h.pixels_eq_nil_iff.1 hnil)
  have hcounter : this.counter < (inRange lowerThreshold upperThreshold pixels).card := by
    rw [h.counter_eq]
    exact (Nat.mod_lt _ hUINT32).trans_le hcard
  have hcardq : (0 : ℚ) < (inRange lowerThreshold upperThreshold pixels).card :=
    Nat.cast_pos.2 (hUINT32.trans_le hcard)
  intro hdepth
  unfold IsDepth at hdepth
  rw [if_neg hne] at hdepth
  change (this.calculateDepth nth .AVERAGE).1 = _ at hdepth
  rw [DepthStats.calculateDepth] at hdepth
  by_cases hzero : this.counter = 0
  · rw [if_pos (.inl hzero)] at hdepth
    exact absurd hdepth (div_pos hsum hcardq).ne
  · rw [if_neg (not_or.2 ⟨hzero, hnil⟩)] at hdepth
    change this.sum / this.counter = _ at hdepth
    rw [h.sum_eq, div_eq_div_iff (Nat.cast_ne_zero.2 hzero) hcardq.ne'] at hdepth
    have heq := Nat.cast_injective (mul_left_cancel₀ hsum.ne' hdepth)
    omega

theorem card_lt_of_rightFor {lowerThreshold upperThreshold : ℕ} {pixels : List Pixel}
    (h : RightFor lowerThreshold upperThreshold pixels) :
    (inRange lowerThreshold upperThreshold pixels).card < 2 ^ 32 := by
  by_contra hcard
  have hcalls := pixels_map_addPixel pixels
  refine not_isDepth_average ?_ (not_lt.1 hcard) _ (h NthElement.ofSort _ .AVERAGE hcalls)
  nth_rewrite 2 [← hcalls]
  exact DepthStats.holds_run NthElement.ofSort _

/-- **Every result is right exactly if fewer than 2^32 pixels are between the thresholds.** -/
theorem rightFor_iff (lowerThreshold upperThreshold : ℕ) (pixels : List Pixel) :
    RightFor lowerThreshold upperThreshold pixels ↔
      (inRange lowerThreshold upperThreshold pixels).card < 2 ^ 32 := by
  constructor
  · exact card_lt_of_rightFor
  · rintro hcard nth calls algo rfl
    exact (DepthStats.holds_run nth calls).isDepth hcard nth algo

theorem card_inRange_replicate {lowerThreshold upperThreshold : ℕ} {px : Pixel}
    (hlower : lowerThreshold < px.val) (hupper : px.val < upperThreshold) (n : ℕ) :
    (inRange lowerThreshold upperThreshold (List.replicate n px)).card = n := by
  have hall : ∀ v ∈ List.replicate n px,
      decide (lowerThreshold < v.val ∧ v.val < upperThreshold) = true := by
    intro v hv
    rw [List.eq_of_mem_replicate hv]
    exact decide_eq_true ⟨hlower, hupper⟩
  rw [inRange, List.filter_eq_self.2 hall, Multiset.coe_card, List.length_replicate]

/-- **The pixel 1,** 2^32 times. -/
theorem not_rightFor : ¬ RightFor 0 2 (List.replicate (2 ^ 32) (uint16_t 1)) := by
  intro h
  have hcard := card_lt_of_rightFor h
  rw [card_inRange_replicate (by decide) (by decide)] at hcard
  exact lt_irrefl _ hcard

/-! ### Between the extremes -/

theorem IsDepth.bounds {algo : SpatialLocationCalculatorAlgorithm} {pixels : Multiset Pixel} {z : ℚ}
    (h : IsDepth algo pixels z) (hne : pixels ≠ 0) {lo hi : Pixel}
    (hbounds : ∀ px ∈ pixels, lo ≤ px ∧ px ≤ hi) : (lo.val : ℚ) ≤ z ∧ z ≤ hi.val := by
  have hmem {px : Pixel} (hpx : px ∈ pixels) : (lo.val : ℚ) ≤ px.val ∧ (px.val : ℚ) ≤ hi.val :=
    ⟨Nat.cast_le.2 (hbounds px hpx).1, Nat.cast_le.2 (hbounds px hpx).2⟩
  unfold IsDepth at h
  rw [if_neg hne] at h
  cases algo with
  | AVERAGE =>
    have hcard : (0 : ℚ) < pixels.card := Nat.cast_pos.2 (Multiset.card_pos.2 hne)
    have hlower := (pixels.map fun px : Pixel => (px.val : ℚ)).card_nsmul_le_sum (a := lo.val)
      (Multiset.forall_mem_map_iff.2 fun px hpx => (hmem hpx).1)
    have hupper := (pixels.map fun px : Pixel => (px.val : ℚ)).sum_le_card_nsmul (hi.val : ℚ)
      (Multiset.forall_mem_map_iff.2 fun px hpx => (hmem hpx).2)
    rw [Multiset.card_map, nsmul_eq_mul] at hlower hupper
    rw [h, le_div_iff₀ hcard, div_le_iff₀ hcard, mul_comm _ (pixels.card : ℚ),
      mul_comm _ (pixels.card : ℚ)]
    exact ⟨hlower, hupper⟩
  | MIN =>
    obtain ⟨px, hpx, rfl⟩ := h
    exact hmem hpx.1
  | MAX =>
    obtain ⟨px, hpx, rfl⟩ := h
    exact hmem hpx.1
  | MODE =>
    obtain ⟨px, hpx, rfl⟩ := h
    exact hmem hpx.mem
  | MEDIAN | other _ =>
    obtain ⟨px, hpx, rfl⟩ := h
    exact hmem hpx.mem

end SpatialUtils

end DepthaiCore
