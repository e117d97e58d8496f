import DepthaiCore.Lib.Runs
import DepthaiCore.Node.PipelineEventAggregation
import Mathlib.Order.Bounds.Basic

/-!
# Statistics of durations

The recent statistics of a track are those of the durations in its buffer. The extremes over all
durations are kept up from one update to the next, but only the newest duration goes into them. So
they are the extremes of the durations that were the newest ones when the statistics were made, and
those recorded between two updates may lie outside.
-/

namespace DepthaiCore

namespace NodeEventAggregation

open Transition

/-- A call from outside. -/
inductive Call
  | add (event : PipelineEvent)
  | updateStats (due : Bool)
  deriving DecidableEq, Repr

/-- The sum of the two elements in the middle of a list. They are one if its length is odd. -/
def middleSum (l : List ℕ) : ℕ :=
  let sorted := l.insertionSort (· ≤ ·)
  sorted.getD ((l.length - 1) / 2) 0 + sorted.getD (l.length / 2) 0

/-- The median of a list, rounded down. -/
def median (l : List ℕ) : ℕ := middleSum l / 2

/-- **What the statistics should be** for the durations in the buffer, and all that were
recorded. -/
structure Consistent (stats : DurationStats) (window history : List ℕ) : Prop where
  min_le : stats.minMicros ≤ stats.minMicrosRecent
  min_le_median : stats.minMicrosRecent ≤ stats.medianMicrosRecent
  median_le_max : stats.medianMicrosRecent ≤ stats.maxMicrosRecent
  max_le : stats.maxMicrosRecent ≤ stats.maxMicros
  isLeast_recent : IsLeast {d | d ∈ window} stats.minMicrosRecent
  isGreatest_recent : IsGreatest {d | d ∈ window} stats.maxMicrosRecent
  median : stats.medianMicrosRecent = median window
  isLeast : IsLeast {d | d ∈ history} stats.minMicros
  isGreatest : IsGreatest {d | d ∈ history} stats.maxMicros

/-! ### Runs -/

section Runs

variable (stdDev : List ℕ → ℕ → ℕ)

/-- One call. An event that ends without a result ends the run. -/
def step (a : NodeEventAggregation) : Call → Option NodeEventAggregation
  | .add event => (a.add event).toOption
  | .updateStats due => some (a.updateStats stdDev due).2

/-- The duration that a call records for a track. -/
def Call.duration (track : Track) (a : NodeEventAggregation) : Call → Option ℕ
  | .add event =>
    if event.track = track then (a.recorded event).map (·.durationUs) else none
  | .updateStats _ => none

/-- The newest duration of a track, when a call makes new statistics. -/
def Call.sample (track : Track) (a : NodeEventAggregation) : Call → Option ℕ
  | .updateStats true => (a.timings track).last
  | _ => none

/-- The durations recorded for a track in a run. -/
def history (track : Track) (tr : List (NodeEventAggregation × Call)) : List ℕ :=
  tr.filterMap fun p => p.2.duration track p.1

/-- The durations of a track that were the newest when its statistics were made. -/
def samples (track : Track) (tr : List (NodeEventAggregation × Call)) : List ℕ :=
  tr.filterMap fun p => p.2.sample track p.1

end Runs

/-! ### Sorted windows -/

section Sorted

variable {l : List ℕ}

theorem getD_insertionSort_le {i j : ℕ} (hij : i ≤ j) (hj : j < l.length) :
    (l.insertionSort (· ≤ ·)).getD i 0 ≤ (l.insertionSort (· ≤ ·)).getD j 0 := by
  have hlength := List.length_insertionSort (r := (· ≤ ·)) l
  have hi : i < (l.insertionSort (· ≤ ·)).length := by omega
  have hj' : j < (l.insertionSort (· ≤ ·)).length := by omega
  rw [← List.getElem_eq_getD (h := hi), ← List.getElem_eq_getD (h := hj')]
  exact List.sortedLE_insertionSort.getElem_le_getElem_of_le hij

theorem getD_insertionSort_mem {i : ℕ} (hi : i < l.length) :
    (l.insertionSort (· ≤ ·)).getD i 0 ∈ l := by
  have hi' : i < (l.insertionSort (· ≤ ·)).length := by
    rwa [List.length_insertionSort]
  rw [← List.getElem_eq_getD (h := hi'), ← List.mem_insertionSort (· ≤ ·)]
  exact List.getElem_mem hi'

theorem exists_getD_insertionSort {d : ℕ} (hd : d ∈ l) :
    ∃ i < l.length, (l.insertionSort (· ≤ ·)).getD i 0 = d := by
  obtain ⟨i, hi, hget⟩ := List.mem_iff_getElem.1 ((List.mem_insertionSort (· ≤ ·)).2 hd)
  refine ⟨i, by rwa [List.length_insertionSort] at hi, ?_⟩
  rw [← List.getElem_eq_getD (h := hi), hget]

theorem headD_insertionSort (l : List ℕ) :
    (l.insertionSort (· ≤ ·)).headD 0 = (l.insertionSort (· ≤ ·)).getD 0 0 := by
  cases l.insertionSort (· ≤ ·) with
  | nil => rfl
  | cons x xs => rfl

theorem getLastD_insertionSort (l : List ℕ) :
    (l.insertionSort (· ≤ ·)).getLastD 0 = (l.insertionSort (· ≤ ·)).getD (l.length - 1) 0 := by
  rw [List.getLastD_eq_getLast?, List.getLast?_eq_getElem?, List.length_insertionSort,
    List.getD_eq_getElem?_getD]

theorem isLeast_insertionSort (hl : 0 < l.length) :
    IsLeast {d | d ∈ l} ((l.insertionSort (· ≤ ·)).headD 0) := by
  rw [headD_insertionSort]
  refine ⟨getD_insertionSort_mem hl, fun d hd => ?_⟩
  obtain ⟨i, hi, rfl⟩ := exists_getD_insertionSort hd
  exact getD_insertionSort_le (Nat.zero_le i) hi

theorem isGreatest_insertionSort (hl : 0 < l.length) :
    IsGreatest {d | d ∈ l} ((l.insertionSort (· ≤ ·)).getLastD 0) := by
  rw [getLastD_insertionSort]
  refine ⟨getD_insertionSort_mem (by omega), fun d hd => ?_⟩
  obtain ⟨i, hi, rfl⟩ := exists_getD_insertionSort hd
  exact getD_insertionSort_le (by omega) (by omega)

theorem median_bounds (hl : 0 < l.length) :
    (l.insertionSort (· ≤ ·)).headD 0 ≤ median l ∧
      median l ≤ (l.insertionSort (· ≤ ·)).getLastD 0 := by
  rw [headD_insertionSort, getLastD_insertionSort, median, middleSum]
  have hlow₁ := getD_insertionSort_le (l := l) (Nat.zero_le ((l.length - 1) / 2)) (by omega)
  have hlow₂ := getD_insertionSort_le (l := l) (Nat.zero_le (l.length / 2)) (by omega)
  have hhigh₁ := getD_insertionSort_le (l := l) (i := (l.length - 1) / 2) (j := l.length - 1)
    (by omega) (by omega)
  have hhigh₂ := getD_insertionSort_le (l := l) (i := l.length / 2) (j := l.length - 1)
    (by omega) (by omega)
  constructor
  · show _ ≤ (_ + _) / 2
    omega
  · show (_ + _) / 2 ≤ _
    omega

/-- **The median is the right one** if the sum of the elements in the middle fits. -/
theorem medianRecent_eq_iff (hl : 0 < l.length) (hbound : ∀ d ∈ l, d < 2 ^ 64) :
    medianRecent 64 (l.insertionSort (· ≤ ·)) = median l ↔
      (l.length % 2 = 0 → middleSum l < 2 ^ 64) := by
  have hmiddle := hbound _ (getD_insertionSort_mem (l := l) (i := l.length / 2) (by omega))
  have hbefore := hbound _ (getD_insertionSort_mem (l := l) (i := (l.length - 1) / 2) (by omega))
  rw [medianRecent, List.length_insertionSort, median, middleSum]
  by_cases heven : l.length % 2 = 0
  · rw [if_pos heven, show l.length / 2 - 1 = (l.length - 1) / 2 by omega]
    omega
  · rw [if_neg heven, show (l.length - 1) / 2 = l.length / 2 by omega]
    omega

end Sorted

/-! ### What runs keep -/

section Invariants

variable {stdDev : List ℕ → ℕ → ℕ} {track : Track} {a a' : NodeEventAggregation} {call : Call}
  {tr : List (NodeEventAggregation × Call)}

/-- **The extremes are those of the samples.** -/
structure Sampled (track : Track) (tr : List (NodeEventAggregation × Call))
    (a : NodeEventAggregation) : Prop where
  isLeast : IsLeast (insert (2 ^ 64 - 1) {d | d ∈ samples track tr})
    (a.tracks track).durationStats.minMicros
  isGreatest : IsGreatest (insert 0 {d | d ∈ samples track tr})
    (a.tracks track).durationStats.maxMicros
  samples_subset : samples track tr ⊆ history track tr
  recent_subset : (a.timings track).recent ⊆ history track tr
  bound : ∀ d ∈ history track tr, d < 2 ^ 64

theorem history_append (track : Track) (tr : List (NodeEventAggregation × Call))
    (a : NodeEventAggregation) (call : Call) :
    history track (tr ++ [(a, call)]) = history track tr ++ (call.duration track a).toList := by
  rw [history, List.filterMap_append, history]
  cases h : call.duration track a with
  | none => simp [h]
  | some d => simp [h]

theorem samples_append (track : Track) (tr : List (NodeEventAggregation × Call))
    (a : NodeEventAggregation) (call : Call) :
    samples track (tr ++ [(a, call)]) = samples track tr ++ (call.sample track a).toList := by
  rw [samples, List.filterMap_append, samples]
  cases h : call.sample track a with
  | none => simp [h]
  | some d => simp [h]

theorem durationUs_lt {event : PipelineEvent} {d : DurationEvent}
    (h : a.recorded event = some d) : d.durationUs < 2 ^ 64 := by
  have hbetween : ∀ startEvent, (DurationEvent.between startEvent event).durationUs < 2 ^ 64 := by
    intro startEvent
    show ((_ : ℤ) % 2 ^ 64).toNat < 2 ^ 64
    omega
  unfold recorded at h
  split at h
  case isFalse => cases h
  case isTrue =>
    split at h
    case h_4 => cases h
    all_goals
      obtain ⟨found, -, rfl⟩ := Option.map_eq_some_iff.1 h
      exact hbetween found.2

theorem recent_of_add_call {event : PipelineEvent}
    (h : Recording a event.track (a.recorded event) a') (track : Track) :
    (a'.timings track).recent ⊆
      ((Call.add event).duration track a).toList ++ (a.timings track).recent := by
  intro x hx
  by_cases htrack : event.track = track
  · subst htrack
    rw [Call.duration, if_pos rfl]
    rcases h.timings.recent_eq with heq | ⟨d, hd, heq⟩
    · rw [heq] at hx
      exact List.mem_append_right _ hx
    · rw [hd]
      rw [heq] at hx
      exact List.mem_of_mem_take hx
  · have hsame : a'.timings track = a.timings track := by
      rw [timings, h.others track (Ne.symm htrack), h.windowSize, timings]
    rw [hsame] at hx
    exact List.mem_append_right _ hx

theorem Sampled.add {event : PipelineEvent} (h : Sampled track tr a) (hadd : a.add event = .ok a') :
    Sampled track (tr ++ [(a, .add event)]) a' := by
  have hrecording := recording_of_add hadd
  have hsamples : samples track (tr ++ [(a, .add event)]) = samples track tr := by
    rw [samples_append]
    exact List.append_nil _
  have hgrows : history track tr ⊆ history track (tr ++ [(a, .add event)]) := by
    rw [history_append]
    exact List.subset_append_left _ _
  refine ⟨?_, ?_, ?_, fun x hx => ?_, fun d hd => ?_⟩
  · rw [hsamples, hrecording.durationStats]
    exact h.isLeast
  · rw [hsamples, hrecording.durationStats]
    exact h.isGreatest
  · rw [hsamples]
    exact List.Subset.trans h.samples_subset hgrows
  · rw [history_append, List.mem_append, or_comm]
    exact (List.mem_append.1 (recent_of_add_call hrecording track hx)).imp_right
      fun hold => h.recent_subset hold
  · rw [history_append, List.mem_append] at hd
    rcases hd with hd | hd
    · exact h.bound d hd
    · have hcall : (Call.add event).duration track a = some d := Option.mem_toList.1 hd
      rw [Call.duration] at hcall
      split at hcall
      case isFalse => cases hcall
      case isTrue =>
        obtain ⟨duration, hduration, rfl⟩ := Option.map_eq_some_iff.1 hcall
        exact durationUs_lt hduration

/-- The statistics of a track that has a newest duration. -/
theorem durationStats_updateStats {newest : ℕ} (hnewest : (a.timings track).last = some newest) :
    ((a.updateStats stdDev true).2.tracks track).durationStats =
      updateTimingStats stdDev (a.tracks track).durationStats (a.timings track) := by
  show (Tracked.updateStats stdDev (a.tracks track)).durationStats = _
  rw [timings] at hnewest ⊢
  unfold Tracked.updateStats
  cases hbuffer : (a.tracks track).timingsBuffer with
  | none =>
    rw [hbuffer, Option.getD_none, CircularBuffer.last_eq, CircularBuffer.recent_empty] at hnewest
    cases hnewest
  | some buffer => rfl

theorem durationStats_of_last_eq_none (hnone : (a.timings track).last = none) :
    ((a.updateStats stdDev true).2.tracks track).durationStats =
      (a.tracks track).durationStats := by
  show (Tracked.updateStats stdDev (a.tracks track)).durationStats = _
  rw [timings] at hnone
  unfold Tracked.updateStats
  cases hbuffer : (a.tracks track).timingsBuffer with
  | none => rfl
  | some buffer =>
    rw [hbuffer, Option.getD_some] at hnone
    show (updateTimingStats stdDev _ buffer) = _
    unfold updateTimingStats
    rw [hnone]

theorem timings_updateStats (due : Bool) (track : Track) :
    (a.updateStats stdDev due).2.timings track = a.timings track := by
  cases due with
  | false => rfl
  | true =>
    show (Tracked.updateStats stdDev (a.tracks track)).timingsBuffer.getD _ = _
    unfold Tracked.updateStats timings
    cases hbuffer : (a.tracks track).timingsBuffer with
    | none => rw [hbuffer]; rfl
    | some buffer => rfl

theorem extremes_updateTimingStats (stdDev : List ℕ → ℕ → ℕ) (stats : DurationStats)
    {buffer : CircularBuffer ℕ} {newest : ℕ} (hnewest : buffer.last = some newest) :
    (updateTimingStats stdDev stats buffer).minMicros = min newest stats.minMicros ∧
      (updateTimingStats stdDev stats buffer).maxMicros = max newest stats.maxMicros := by
  unfold updateTimingStats
  rw [hnewest]
  exact ⟨min_comm _ _, max_comm _ _⟩

theorem newest_mem {newest : ℕ} (hnewest : (a.timings track).last = some newest) :
    newest ∈ (a.timings track).recent := by
  rw [CircularBuffer.last_eq] at hnewest
  exact List.mem_of_mem_head? hnewest

theorem insert_samples (newest bound : ℕ) (l : List ℕ) :
    (insert bound {d | d ∈ l ++ [newest]} : Set ℕ) = insert newest (insert bound {d | d ∈ l}) := by
  ext d
  simp only [Set.mem_insert_iff, Set.mem_ofPred_eq, List.mem_append, List.mem_singleton]
  tauto

theorem Sampled.updateStats (h : Sampled track tr a) (due : Bool) :
    Sampled track (tr ++ [(a, .updateStats due)]) (a.updateStats stdDev due).2 := by
  have hhistory : history track (tr ++ [(a, .updateStats due)]) = history track tr := by
    rw [history_append]
    exact List.append_nil _
  have hsample : ∀ sample, (Call.updateStats due).sample track a = sample →
      samples track (tr ++ [(a, .updateStats due)]) = samples track tr ++ sample.toList := by
    intro sample hsample
    rw [samples_append, hsample]
  have hkeeps : (Call.updateStats due).sample track a = none →
      ((a.updateStats stdDev due).2.tracks track).durationStats = (a.tracks track).durationStats →
      Sampled track (tr ++ [(a, .updateStats due)]) (a.updateStats stdDev due).2 := by
    intro hnone hstats
    have hsamples := hsample none hnone
    rw [Option.toList_none, List.append_nil] at hsamples
    refine ⟨?_, ?_, ?_, ?_, ?_⟩
    · rw [hstats, hsamples]
      exact h.isLeast
    · rw [hstats, hsamples]
      exact h.isGreatest
    · rw [hsamples, hhistory]
      exact h.samples_subset
    · rw [timings_updateStats, hhistory]
      exact h.recent_subset
    · rw [hhistory]
      exact h.bound
  cases due with
  | false => exact hkeeps rfl rfl
  | true =>
    cases hnewest : (a.timings track).last with
    | none => exact hkeeps hnewest (durationStats_of_last_eq_none hnewest)
    | some newest =>
      have hsamples := hsample _ hnewest
      have hextremes := extremes_updateTimingStats stdDev (a.tracks track).durationStats hnewest
      refine ⟨?_, ?_, ?_, ?_, ?_⟩
      · rw [durationStats_updateStats hnewest, hextremes.1, hsamples]
        exact insert_samples newest _ _ ▸ h.isLeast.insert newest
      · rw [durationStats_updateStats hnewest, hextremes.2, hsamples]
        exact insert_samples newest _ _ ▸ h.isGreatest.insert newest
      · rw [hsamples, hhistory]
        refine List.append_subset.2 ⟨h.samples_subset, fun d hd => ?_⟩
        obtain rfl := List.mem_singleton.1 hd
        exact h.recent_subset (newest_mem hnewest)
      · rw [timings_updateStats, hhistory]
        exact h.recent_subset
      · rw [hhistory]
        exact h.bound

theorem Sampled.init (windowSize eventWaitWindow : ℕ) (track : Track) :
    Sampled track [] (init windowSize eventWaitWindow) := by
  have hrecent :
      ((NodeEventAggregation.init windowSize eventWaitWindow).timings track).recent = [] := by
    cases track <;> exact CircularBuffer.recent_empty _
  have hstats :
      ((NodeEventAggregation.init windowSize eventWaitWindow).tracks track).durationStats = {} := by
    cases track <;> rfl
  refine ⟨?_, ?_, List.Subset.refl _, ?_, nofun⟩
  · rw [hstats]
    exact ⟨Set.mem_insert _ _, fun d hd => by
      rcases hd with rfl | hd
      · exact le_rfl
      · cases hd⟩
  · rw [hstats]
    exact ⟨Set.mem_insert _ _, fun d _ => by
      rcases ‹_› with rfl | hd
      · exact le_rfl
      · cases hd⟩
  · rw [hrecent]
    exact List.nil_subset _

theorem sampled_of_run {windowSize eventWaitWindow : ℕ}
    (h : Run (step stdDev) (init windowSize eventWaitWindow) tr a) (track : Track) :
    Sampled track tr a := by
  induction h with
  | nil => exact Sampled.init windowSize eventWaitWindow track
  | @snoc a a' call tr hrun hstep ih =>
    cases call with
    | add event =>
      refine ih.add ?_
      have hok : (a.add event).toOption = some a' := hstep
      cases hadd : a.add event with
      | error fault =>
        rw [hadd] at hok
        cases hok
      | ok b =>
        rw [hadd] at hok
        exact congrArg _ (Option.some.inj hok)
    | updateStats due =>
      have hsome : some (a.updateStats stdDev due).2 = some a' := hstep
      rw [← Option.some.inj hsome]
      exact ih.updateStats due

/-! ### When the statistics are right -/

/-- Extremes of samples are those of the history if no duration is outside. -/
theorem isLeast_history_iff {m newest : ℕ} {samples history : List ℕ} (hnewest : newest ∈ history)
    (hsamples : samples ⊆ history) (hbound : ∀ d ∈ history, d < 2 ^ 64)
    (hm : IsLeast (insert newest (insert (2 ^ 64 - 1) {d | d ∈ samples})) m) :
    IsLeast {d | d ∈ history} m ↔ ∀ d ∈ history, ∃ x ∈ newest :: samples, x ≤ d := by
  -- the bound is no less than the newest duration
  have hmem : m ∈ newest :: samples := by
    rcases hm.1 with hm' | hm' | hm'
    · rw [hm']
      exact List.mem_cons_self
    · have hle : m ≤ newest := hm.2 (Set.mem_insert _ _)
      have hlt := hbound newest hnewest
      rw [show m = newest by omega]
      exact List.mem_cons_self
    · exact List.mem_cons_of_mem _ hm'
  constructor
  · intro h d hd
    exact ⟨m, hmem, h.2 hd⟩
  · intro h
    refine ⟨?_, fun d hd => ?_⟩
    · rcases List.mem_cons.1 hmem with rfl | hsample
      · exact hnewest
      · exact hsamples hsample
    · obtain ⟨x, hx, hxd⟩ := h d hd
      refine le_trans (hm.2 ?_) hxd
      rcases List.mem_cons.1 hx with rfl | hsample
      · exact Set.mem_insert _ _
      · exact Set.mem_insert_of_mem _ (Set.mem_insert_of_mem _ hsample)

theorem isGreatest_history_iff {m newest : ℕ} {samples history : List ℕ}
    (hnewest : newest ∈ history) (hsamples : samples ⊆ history)
    (hm : IsGreatest (insert newest (insert 0 {d | d ∈ samples})) m) :
    IsGreatest {d | d ∈ history} m ↔ ∀ d ∈ history, ∃ x ∈ newest :: samples, d ≤ x := by
  have hmem : m ∈ newest :: samples := by
    rcases hm.1 with hm' | hm' | hm'
    · rw [hm']
      exact List.mem_cons_self
    · have hle : newest ≤ m := hm.2 (Set.mem_insert _ _)
      rw [show m = newest by omega]
      exact List.mem_cons_self
    · exact List.mem_cons_of_mem _ hm'
  constructor
  · intro h d hd
    exact ⟨m, hmem, h.2 hd⟩
  · intro h
    refine ⟨?_, fun d hd => ?_⟩
    · rcases List.mem_cons.1 hmem with rfl | hsample
      · exact hnewest
      · exact hsamples hsample
    · obtain ⟨x, hx, hxd⟩ := h d hd
      refine le_trans hxd (hm.2 ?_)
      rcases List.mem_cons.1 hx with rfl | hsample
      · exact Set.mem_insert _ _
      · exact Set.mem_insert_of_mem _ (Set.mem_insert_of_mem _ hsample)

/-- **When the statistics are what they should be**: every duration lies between two that were the
newest at an update, and the sum of those in the middle fits. -/
theorem consistent_iff {windowSize eventWaitWindow newest : ℕ}
    (h : Run (step stdDev) (NodeEventAggregation.init windowSize eventWaitWindow) tr a)
    (hnewest : (a.timings track).last = some newest) :
    Consistent ((a.updateStats stdDev true).2.tracks track).durationStats
        (a.timings track).getBuffer (history track tr) ↔
      (∀ d ∈ history track tr, ∃ x ∈ newest :: samples track tr, x ≤ d) ∧
      (∀ d ∈ history track tr, ∃ x ∈ newest :: samples track tr, d ≤ x) ∧
      ((a.timings track).getBuffer.length % 2 = 0 →
        middleSum (a.timings track).getBuffer < 2 ^ 64) := by
  have hsampled := sampled_of_run h track
  have hwindow : ∀ d ∈ (a.timings track).getBuffer, d ∈ history track tr := fun d hd =>
    hsampled.recent_subset (List.mem_reverse.2 hd)
  have hmem := hsampled.recent_subset (newest_mem hnewest)
  have hlength : 0 < (a.timings track).getBuffer.length :=
    List.length_pos_of_mem (List.mem_reverse.1 (newest_mem hnewest))
  rw [durationStats_updateStats hnewest]
  have hextremes := extremes_updateTimingStats stdDev (a.tracks track).durationStats hnewest
  set stats := updateTimingStats stdDev (a.tracks track).durationStats (a.timings track) with hstats
  have hminRecent : stats.minMicrosRecent =
      ((a.timings track).getBuffer.insertionSort (· ≤ ·)).headD 0 := by
    rw [hstats, updateTimingStats, hnewest]
  have hmaxRecent : stats.maxMicrosRecent =
      ((a.timings track).getBuffer.insertionSort (· ≤ ·)).getLastD 0 := by
    rw [hstats, updateTimingStats, hnewest]
  have hmedian : stats.medianMicrosRecent =
      medianRecent 64 ((a.timings track).getBuffer.insertionSort (· ≤ ·)) := by
    rw [hstats, updateTimingStats, hnewest]
  have hleast := isLeast_history_iff hmem hsampled.samples_subset hsampled.bound
    (hextremes.1 ▸ hsampled.isLeast.insert newest)
  have hgreatest := isGreatest_history_iff hmem hsampled.samples_subset
    (hextremes.2 ▸ hsampled.isGreatest.insert newest)
  have hfits := medianRecent_eq_iff hlength fun d hd => hsampled.bound d (hwindow d hd)
  have hwindowLeast := isLeast_insertionSort hlength
  have hwindowGreatest := isGreatest_insertionSort hlength
  rw [← hleast, ← hgreatest, ← hfits, ← hmedian]
  rw [← hminRecent] at hwindowLeast
  rw [← hmaxRecent] at hwindowGreatest
  constructor
  · intro hconsistent
    exact ⟨hconsistent.isLeast, hconsistent.isGreatest, hconsistent.median⟩
  · rintro ⟨hleast, hgreatest, hmiddle⟩
    have hbounds := median_bounds hlength
    rw [← hminRecent, ← hmaxRecent, ← hmiddle] at hbounds
    exact ⟨hleast.2 (hwindow _ hwindowLeast.1), hbounds.1, hbounds.2,
      hgreatest.2 (hwindow _ hwindowGreatest.1), hwindowLeast, hwindowGreatest, hmiddle, hleast,
      hgreatest⟩

end Invariants

/-! ### Durations between two updates -/

/-- The events of an interval of the main loop. -/
def mainLoopInterval (sequenceNum start stop : ℤ) : List Call :=
  [.add ⟨sequenceNum, start, .SUCCESS, none, .START, .LOOP, "_mainLoop"⟩,
   .add ⟨sequenceNum, stop, .SUCCESS, none, .END, .LOOP, "_mainLoop"⟩]

/-- One interval of twenty microseconds and an update. -/
theorem consistent_iff_oneInterval :
    ∃ tr a, Run (step fun _ _ => 0) (init 4 16) tr a ∧
      Consistent ((a.updateStats (fun _ _ => 0) true).2.tracks .mainLoop).durationStats
        (a.timings .mainLoop).getBuffer (history .mainLoop tr) := by
  have hrun : (exec (step fun _ _ => 0) (init 4 16) (mainLoopInterval 1 0 20000)).isSome := by
    decide
  refine ⟨_, _, Run.of_isSome hrun, ?_⟩
  have hnewest : ((((exec (step fun _ _ => 0) (init 4 16) (mainLoopInterval 1 0 20000)).get
      hrun).2.timings .mainLoop).last) = some 20 := by
    decide +revert
  refine (consistent_iff (Run.of_isSome hrun) hnewest).2 ⟨?_, ?_, ?_⟩
  all_goals
    clear hnewest
    decide +revert

/-- **A short duration is missed**: intervals of one, a hundred and fifty microseconds, and an
update. -/
theorem not_consistent_shortInterval :
    ∃ tr a newest, Run (step fun _ _ => 0) (init 4 16) tr a ∧
      (a.timings .mainLoop).last = some newest ∧
      ¬ Consistent ((a.updateStats (fun _ _ => 0) true).2.tracks .mainLoop).durationStats
        (a.timings .mainLoop).getBuffer (history .mainLoop tr) := by
  have hrun : (exec (step fun _ _ => 0) (init 4 16) (mainLoopInterval 1 0 1000 ++
      mainLoopInterval 2 2000 102000 ++ mainLoopInterval 3 200000 250000)).isSome := by
    decide
  refine ⟨_, _, 50, Run.of_isSome hrun, by decide +revert, fun h => absurd h.min_le ?_⟩
  clear h
  decide +revert

end NodeEventAggregation

end DepthaiCore
