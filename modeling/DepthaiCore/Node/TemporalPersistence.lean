import DepthaiCore.Node.TemporalFilter
import Mathlib.Algebra.Order.BigOperators.Group.Finset

/-!
# Persistence of the temporal filter

A pixel that is not measured may be filled with its accumulated value. The modes of the form
"valid in `t` of the last `m` frames" ask how many of the `m` frames before the current one count.
A frame counts if the pixel was measured in it and no later frame restarted the pixel. This is said
here of the list of the values that the pixel had in the frames so far, without the history byte,
its position and the table; the filter is then shown to agree with it on every frame, at every
position and for any number of frames.
-/

namespace DepthaiCore

namespace ImageFilters

/-! ### A pixel over time -/

section Pixel

variable {K : Type} [Field K] [LinearOrder K] [FloorSemiring K] (alpha : K) (delta : ℕ)

/-- The weighted mean of a measurement and the accumulated value, rounded down. -/
def blend (c p : ℕ) : ℕ :=
  ⌊alpha * c + (1 - alpha) * p⌋₊

/-- A measurement `c` starts anew: it is the first one, or it differs from the accumulated value
`p` by `delta` or more. -/
def Anew (c p : ℕ) : Prop :=
  p = 0 ∨ delta ≤ ((c : ℤ) - p).natAbs

instance (c p : ℕ) : Decidable (Anew delta c p) :=
  inferInstanceAs (Decidable (_ ∨ _))

/-- The accumulated value after one more frame. -/
def accumulate (p c : ℕ) : ℕ :=
  if c = 0 then p else if Anew delta c p then c else blend alpha c p

/-- The accumulated value of a pixel with the values `cs` in the frames so far, `0` if there was no
measurement. -/
def accumulated (cs : List ℕ) : ℕ :=
  cs.foldl (accumulate alpha delta) 0

/-- Frame `k` restarts the pixel. -/
def Restarts (cs : List ℕ) (k : ℕ) : Prop :=
  cs.getD k 0 ≠ 0 ∧ Anew delta (cs.getD k 0) (accumulated alpha delta (cs.take k))

instance (cs : List ℕ) (k : ℕ) : Decidable (Restarts alpha delta cs k) :=
  inferInstanceAs (Decidable (_ ∧ _))

/-- Frame `k` counts: the pixel was measured in it and no later frame restarted the pixel. -/
def Counts (cs : List ℕ) (k : ℕ) : Prop :=
  cs.getD k 0 ≠ 0 ∧ ∀ j < cs.length, k < j → ¬Restarts alpha delta cs j

instance (cs : List ℕ) (k : ℕ) : Decidable (Counts alpha delta cs k) :=
  inferInstanceAs (Decidable (_ ∧ _))

/-- How many of the last `m` frames count. -/
def counting (cs : List ℕ) (m : ℕ) : ℕ :=
  ((Finset.Ico (cs.length - m) cs.length).filter (Counts alpha delta cs)).card

variable {alpha delta} {cs : List ℕ} {c k : ℕ}

theorem accumulated_concat : accumulated alpha delta (cs ++ [c]) =
    accumulate alpha delta (accumulated alpha delta cs) c := by
  rw [accumulated, List.foldl_append]
  rfl

theorem restarts_last : Restarts alpha delta (cs ++ [c]) cs.length ↔
    c ≠ 0 ∧ Anew delta c (accumulated alpha delta cs) := by
  have hvalue : (cs ++ [c]).getD cs.length 0 = c := by simp
  rw [Restarts, hvalue, List.take_left]

theorem restarts_earlier (hk : k < cs.length) :
    Restarts alpha delta (cs ++ [c]) k ↔ Restarts alpha delta cs k := by
  have hvalue : (cs ++ [c]).getD k 0 = cs.getD k 0 := by
    rw [List.getD_eq_getElem?_getD, List.getElem?_append_left hk, List.getD_eq_getElem?_getD]
  rw [Restarts, Restarts, hvalue, List.take_append_of_le_length hk.le]

theorem counts_last : Counts alpha delta (cs ++ [c]) cs.length ↔ c ≠ 0 := by
  have hvalue : (cs ++ [c]).getD cs.length 0 = c := by simp
  rw [Counts, hvalue, List.length_append, List.length_singleton, and_iff_left]
  intro j hj hlt
  omega

/-- A frame goes on counting until the pixel is restarted. -/
theorem counts_earlier (hk : k < cs.length) : Counts alpha delta (cs ++ [c]) k ↔
    Counts alpha delta cs k ∧ ¬Restarts alpha delta (cs ++ [c]) cs.length := by
  have hvalue : (cs ++ [c]).getD k 0 = cs.getD k 0 := by
    rw [List.getD_eq_getElem?_getD, List.getElem?_append_left hk, List.getD_eq_getElem?_getD]
  rw [Counts, Counts, hvalue, and_assoc, List.length_append, List.length_singleton]
  refine and_congr_right fun _ => ⟨fun h => ⟨fun j hj hkj => ?_, h _ (Nat.lt_succ_self _) hk⟩, ?_⟩
  · rw [← restarts_earlier (c := c) hj]
    exact h j (Nat.lt_succ_of_lt hj) hkj
  · rintro ⟨hold, hlast⟩ j hj hkj
    rcases Nat.lt_succ_iff_lt_or_eq.1 hj with hj | rfl
    · rw [restarts_earlier hj]
      exact hold j hj hkj
    · exact hlast

/-- What the history byte is to remember: whether the frame `j` before the last one counts. -/
def Seen (alpha : K) (delta : ℕ) (cs : List ℕ) (j : ℕ) : Prop :=
  j < cs.length ∧ Counts alpha delta cs (cs.length - 1 - j)

theorem seen_zero : Seen alpha delta (cs ++ [c]) 0 ↔ c ≠ 0 := by
  rw [Seen, List.length_append, List.length_singleton, Nat.add_sub_cancel, Nat.sub_zero,
    counts_last]
  exact and_iff_right (Nat.succ_pos _)

theorem seen_succ (j : ℕ) : Seen alpha delta (cs ++ [c]) (j + 1) ↔
    Seen alpha delta cs j ∧ ¬(c ≠ 0 ∧ Anew delta c (accumulated alpha delta cs)) := by
  rw [Seen, Seen, List.length_append, List.length_singleton, Nat.add_sub_cancel,
    ← restarts_last, show cs.length - (j + 1) = cs.length - 1 - j by omega]
  rw [Nat.succ_lt_succ_iff, and_assoc]
  exact and_congr_right fun hj => counts_earlier (by omega)

theorem card_seen [DecidablePred (Seen alpha delta cs)] (m : ℕ) :
    ((Finset.range m).filter (Seen alpha delta cs)).card = counting alpha delta cs m := by
  refine Finset.card_nbij' (fun j => cs.length - 1 - j) (fun k => cs.length - 1 - k) ?_ ?_ ?_ ?_
  · intro j hj
    obtain ⟨hm, hlt, hcounts⟩ : j < m ∧ j < cs.length ∧ _ := by simpa [Seen] using hj
    simp only [Finset.coe_filter, Finset.mem_Ico, Set.mem_ofPred_eq]
    exact ⟨by omega, hcounts⟩
  · intro k hk
    obtain ⟨⟨hlo, hhi⟩, hcounts⟩ : (cs.length - m ≤ k ∧ k < cs.length) ∧ _ := by
      simpa only [Finset.coe_filter, Finset.mem_Ico, Set.mem_ofPred_eq] using hk
    simp only [Finset.coe_filter, Finset.mem_range, Set.mem_ofPred_eq, Seen]
    refine ⟨by omega, by omega, ?_⟩
    rwa [show cs.length - 1 - (cs.length - 1 - k) = k by omega]
  · intro j hj
    obtain ⟨hm, hlt, -⟩ : j < m ∧ j < cs.length ∧ _ := by simpa [Seen] using hj
    show cs.length - 1 - (cs.length - 1 - j) = j
    omega
  · intro k hk
    obtain ⟨⟨hlo, hhi⟩, -⟩ : (cs.length - m ≤ k ∧ k < cs.length) ∧ _ := by
      simpa only [Finset.coe_filter, Finset.mem_Ico, Set.mem_ofPred_eq] using hk
    show cs.length - 1 - (cs.length - 1 - k) = k
    omega

/-! ### The weighted mean -/

variable [IsStrictOrderedRing K]

theorem blend_mem_Icc (h0 : 0 ≤ alpha) (h1 : alpha ≤ 1) (c p : ℕ) :
    min c p ≤ blend alpha c p ∧ blend alpha c p ≤ max c p := by
  have h1' : 0 ≤ 1 - alpha := sub_nonneg.2 h1
  constructor
  · refine Nat.le_floor ?_
    have hc : ((min c p : ℕ) : K) ≤ c := Nat.cast_le.2 (min_le_left c p)
    have hp : ((min c p : ℕ) : K) ≤ p := Nat.cast_le.2 (min_le_right c p)
    calc ((min c p : ℕ) : K) = alpha * (min c p : ℕ) + (1 - alpha) * (min c p : ℕ) := by ring
      _ ≤ alpha * c + (1 - alpha) * p :=
        add_le_add (mul_le_mul_of_nonneg_left hc h0) (mul_le_mul_of_nonneg_left hp h1')
  · refine Nat.floor_le_of_le ?_
    have hc : (c : K) ≤ (max c p : ℕ) := Nat.cast_le.2 (le_max_left c p)
    have hp : (p : K) ≤ (max c p : ℕ) := Nat.cast_le.2 (le_max_right c p)
    calc alpha * c + (1 - alpha) * p ≤ alpha * (max c p : ℕ) + (1 - alpha) * (max c p : ℕ) :=
        add_le_add (mul_le_mul_of_nonneg_left hc h0) (mul_le_mul_of_nonneg_left hp h1')
      _ = (max c p : ℕ) := by ring

/-- There is an accumulated value once there has been a measurement. -/
theorem accumulated_ne_zero_iff (h0 : 0 ≤ alpha) (h1 : alpha ≤ 1) :
    accumulated alpha delta cs ≠ 0 ↔ ∃ c ∈ cs, c ≠ 0 := by
  induction cs using List.reverseRecOn with
  | nil => simp [accumulated]
  | append_singleton cs c ih =>
    simp only [accumulated_concat, List.mem_append, List.mem_singleton, or_and_right, exists_or,
      ← ih, exists_eq_left]
    rw [accumulate]
    split
    case isTrue hc => simp [hc]
    case isFalse hc =>
      refine iff_of_true ?_ (.inr hc)
      split
      case isTrue => exact hc
      case isFalse hold =>
        have hp : accumulated alpha delta cs ≠ 0 := fun hzero => hold (.inl hzero)
        have hle := (blend_mem_Icc h0 h1 c (accumulated alpha delta cs)).1
        omega

end Pixel

/-! ### The table -/

/-- A mode of the form "valid in `t` of the last `m` frames". -/
def PersistencyMode.validIn : PersistencyMode → Option (ℕ × ℕ)
  | .VALID_8_OUT_OF_8 => some (8, 8)
  | .VALID_2_IN_LAST_3 => some (2, 3)
  | .VALID_2_IN_LAST_4 => some (2, 4)
  | .VALID_2_OUT_OF_8 => some (2, 8)
  | .VALID_1_IN_LAST_2 => some (1, 2)
  | .VALID_1_IN_LAST_5 => some (1, 5)
  | .VALID_1_IN_LAST_8 => some (1, 8)
  | .PERSISTENCY_OFF => none
  | .PERSISTENCY_INDEFINITELY => none

section Table

variable {mode : PersistencyMode} {t m : ℕ}

/-- The mode looks at no more frames than the byte remembers. -/
theorem PersistencyMode.le_of_validIn (h : mode.validIn = some (t, m)) : m ≤ 8 := by
  cases mode <;> cases h <;> decide

/-- A history with the last frame on top has enough frames if `t` of the `m` upper bits are set. -/
theorem enoughFrames_iff (h : mode.validIn = some (t, m)) (x : BitVec 8) :
    enoughFrames mode.value x ≠ 0 ↔
      t ≤ ((Finset.range m).filter fun j => x.getLsbD (8 - 1 - j) = true).card := by
  have hbit (k : ℕ) (hk : k < 8) (y : BitVec 8) (hy : y = RotatingWindow.bit 8 k) :
      x &&& y ≠ 0 ↔ x.getLsbD k = true := by
    rw [hy]
    exact RotatingWindow.and_bit_ne_zero_iff hk x
  have h0 := hbit 0 (by decide) 1 rfl
  have h1 := hbit 1 (by decide) 2 rfl
  have h2 := hbit 2 (by decide) 4 rfl
  have h3 := hbit 3 (by decide) 8 rfl
  have h4 := hbit 4 (by decide) 16 rfl
  have h5 := hbit 5 (by decide) 32 rfl
  have h6 := hbit 6 (by decide) 64 rfl
  have h7 := hbit 7 (by decide) 128 rfl
  have hone (P : Prop) [Decidable P] : ((if P then 1 else 0) : BitVec 8) ≠ 0 ↔ P := by
    by_cases hP : P <;> simp [hP]
  rw [Finset.card_filter]
  cases mode <;> cases h <;>
    simp only [enoughFrames, PersistencyMode.value, hone, h0, h1, h2, h3, h4, h5, h6, h7,
      Finset.sum_range_succ, Finset.sum_range_zero, Nat.zero_add, ge_iff_le, Nat.reduceSub]

/-- The table tells, for every position, whether the history has enough frames. -/
theorem buildPersistenceMap_iff (persistenceMode : ℕ) {p : ℕ} (hp : p < 8) (hist : BitVec 8) :
    (buildPersistenceMap persistenceMode).getD hist.toNat 0 &&& RotatingWindow.bit 8 p ≠ 0 ↔
      enoughFrames persistenceMode (RotatingWindow.rotate hist p) ≠ 0 := by
  have hrow {f : ℕ → BitVec 8} (x : BitVec 8) :
      ((List.range 256).map f).getD x.toNat 0 = f x.toNat := by
    have hx : x.toNat < 256 := x.isLt
    rw [List.getD_eq_getElem?_getD, List.getElem?_map, List.getElem?_range hx]
    rfl
  rw [RotatingWindow.and_bit_ne_zero_iff hp, buildPersistenceMap, hrow]
  simp only [hrow, BitVec.ofNat_toNat, BitVec.setWidth_eq]
  refine Iff.trans (Bool.eq_iff_iff.1 (RotatingWindow.getLsbD_collect le_rfl p)) ?_
  rw [decide_eq_true_iff]
  exact and_iff_right hp

end Table

/-! ### One frame -/

section Frame

variable {K : Type} [Field K] [LinearOrder K] [FloorSemiring K] {alpha : K} {delta bytes : ℕ}
  {mode : PersistencyMode} {t m p idx : ℕ} {cs : List ℕ} {c : ℕ} {hist : BitVec 8}

/-- The filter's data of a pixel with the values `cs` so far. -/
structure Tracks (alpha : K) (delta : ℕ) (cs : List ℕ) (p : ℕ) (hist : BitVec 8) (idx : ℕ) :
    Prop where
  value : p = accumulated alpha delta cs
  remembers : RotatingWindow.Remembers hist idx (Seen alpha delta cs)

/-- **The table and the history byte decide as the count does.** -/
theorem fills_iff (hmode : mode.validIn = some (t, m))
    (h : RotatingWindow.Remembers hist idx (Seen alpha delta cs)) (hidx : idx < 8) :
    (buildPersistenceMap mode.value).getD hist.toNat 0 &&& RotatingWindow.bit 8 idx ≠ 0 ↔
      t ≤ counting alpha delta cs m := by
  classical
  rw [buildPersistenceMap_iff mode.value hidx, enoughFrames_iff hmode, ← card_seen]
  have hsame : (Finset.range m).filter
      (fun j => (RotatingWindow.rotate hist idx).getLsbD (8 - 1 - j) = true) =
      (Finset.range m).filter (Seen alpha delta cs) := by
    refine Finset.filter_congr fun j hj => h.getLsbD_rotate hidx ?_
    exact (Finset.mem_range.1 hj).trans_le (PersistencyMode.le_of_validIn hmode)
  rw [hsame]

/-- The pixel of the output: a measurement is replaced by the new accumulated value, a missing one
by the old one if enough frames count. -/
def filtered (alpha : K) (delta t m : ℕ) (cs : List ℕ) (c : ℕ) : ℕ :=
  if c ≠ 0 then accumulate alpha delta (accumulated alpha delta cs) c
  else if t ≤ counting alpha delta cs m then accumulated alpha delta cs else 0

variable [IsStrictOrderedRing K]

/-- **One pixel of one frame**, and what the filter remembers of it. -/
theorem Tracks.processPixel (h : Tracks alpha delta cs p hist idx)
    (hmode : mode.validIn = some (t, m)) (hidx : idx < 8) (h0 : 0 ≤ alpha) (h1 : alpha ≤ 1)
    (hc : c < 256 ^ bytes) (hp : p < 256 ^ bytes) :
    let out := processPixel bytes alpha delta (RotatingWindow.bit 8 idx)
      (buildPersistenceMap mode.value) c p hist
    out.1 = filtered alpha delta t m cs c ∧
      Tracks alpha delta (cs ++ [c]) (out.2.1 % 256 ^ bytes) out.2.2 ((idx + 1) % 8) := by
  have hcast : castPixel bytes (alpha * c + (1 - alpha) * p) = blend alpha c p :=
    Nat.mod_eq_of_lt ((blend_mem_Icc h0 h1 c p).2.trans_lt (max_lt hc hp))
  have hblend : blend alpha c p < 256 ^ bytes :=
    (blend_mem_Icc h0 h1 c p).2.trans_lt (max_lt hc hp)
  by_cases hzero : c = 0
  · -- no measurement: the history forgets the oldest frame
    subst hzero
    have hclear : RotatingWindow.Remembers (hist &&& ~~~RotatingWindow.bit 8 idx)
        ((idx + 1) % 8) (Seen alpha delta (cs ++ [0])) :=
      h.remembers.clear hidx (fun hs => seen_zero.1 hs rfl) fun j => by
        rw [seen_succ, and_iff_left fun hanew => hanew.1 rfl]
    have hkeep : p % 256 ^ bytes = accumulated alpha delta (cs ++ [0]) := by
      rw [accumulated_concat, accumulate, if_pos rfl, ← h.value, Nat.mod_eq_of_lt hp]
    simp only [ImageFilters.processPixel, filtered, ne_eq, not_true_eq_false, if_false]
    split
    case isTrue hfill =>
      rw [if_pos ((fills_iff hmode h.remembers hidx).1 hfill.2)]
      exact ⟨h.value, hkeep, hclear⟩
    case isFalse hfill =>
      refine ⟨?_, hkeep, hclear⟩
      split
      case isTrue hcount =>
        have hnone : p = 0 := by
          by_contra hp0
          exact hfill ⟨hp0, (fills_iff hmode h.remembers hidx).2 hcount⟩
        exact hnone.symm.trans h.value
      case isFalse => rfl
  · have hlast : Seen alpha delta (cs ++ [c]) 0 := seen_zero.2 hzero
    by_cases hanew : Anew delta c p
    · -- the pixel starts anew: the history holds this frame only
      have hout : ImageFilters.processPixel bytes alpha delta (RotatingWindow.bit 8 idx)
          (buildPersistenceMap mode.value) c p hist = (c, c, RotatingWindow.bit 8 idx) := by
        rw [ImageFilters.processPixel, if_pos hzero]
        rcases hanew with hp0 | hdiff
        · rw [if_pos hp0]
        · split
          · rfl
          · exact if_neg (Nat.not_lt.2 hdiff)
      have hacc : accumulate alpha delta (accumulated alpha delta cs) c = c := by
        rw [accumulate, if_neg hzero, ← h.value, if_pos hanew]
      refine ⟨?_, ?_, ?_⟩
      · rw [hout, filtered, if_pos hzero, hacc]
      · rw [hout, accumulated_concat, hacc]
        exact Nat.mod_eq_of_lt hc
      · rw [hout]
        refine RotatingWindow.Remembers.restart hidx hlast fun j hj => ?_
        exact ((seen_succ j).1 hj).2 ⟨hzero, h.value ▸ hanew⟩
    · -- the pixel goes on: the history gets this frame besides
      obtain ⟨hp0, hdiff⟩ := not_or.1 hanew
      have hout : ImageFilters.processPixel bytes alpha delta (RotatingWindow.bit 8 idx)
          (buildPersistenceMap mode.value) c p hist =
          (blend alpha c p, blend alpha c p, hist ||| RotatingWindow.bit 8 idx) := by
        rw [ImageFilters.processPixel, if_pos hzero, if_neg hp0]
        simp only [if_pos (Nat.not_le.1 hdiff), hcast]
      have hacc : accumulate alpha delta (accumulated alpha delta cs) c = blend alpha c p := by
        rw [accumulate, if_neg hzero, ← h.value, if_neg hanew]
      refine ⟨?_, ?_, ?_⟩
      · rw [hout, filtered, if_pos hzero, hacc]
      · rw [hout, accumulated_concat, hacc]
        exact Nat.mod_eq_of_lt hblend
      · rw [hout]
        refine h.remembers.mark hidx hlast fun j => ?_
        rw [seen_succ, and_iff_left fun hanew' => hanew (h.value ▸ hanew'.2)]

end Frame

/-! ### All frames -/

section Frames

variable {K : Type} [Field K] [LinearOrder K] [FloorSemiring K] {alpha : K}
  {delta bytes pixels n t m : ℕ} {mode : PersistencyMode} {filter : TemporalFilter K}
  {past : List ImgFrame} {frame : ImgFrame}

/-- The value of pixel `i`. -/
def ImgFrame.value (i : ℕ) (frame : ImgFrame) : ℕ :=
  frame.data.getD i 0

/-- The frame's data holds every pixel, as a value of `bytes` bytes. -/
structure ImgFrame.Typed (bytes : ℕ) (frame : ImgFrame) : Prop where
  enough : frame.Enough
  lt : ∀ v ∈ frame.data, v < 256 ^ bytes

theorem ImgFrame.Typed.value_lt (h : frame.Typed bytes) (i : ℕ) :
    frame.value i < 256 ^ bytes := by
  rw [ImgFrame.value, List.getD_eq_getElem?_getD]
  cases hi : frame.data[i]? with
  | none => exact pow_pos (by decide) _
  | some v => exact h.lt v (List.mem_of_getElem? hi)

namespace TemporalFilter

/-- The filter processes the frames one after the other. -/
def feed (filter : TemporalFilter K) (frames : List ImgFrame) : Except Fault (TemporalFilter K) :=
  frames.foldlM (fun filter frame => do
    let (filter, _) ← filter.process frame
    return filter) filter

/-- The two blocks have `n` bytes, all of them zero, and the table is that of `mode`. -/
structure Zeroed (mode : PersistencyMode) (n : ℕ) (filter : TemporalFilter K) : Prop where
  accumulator : filter.rawAccumulatorFrame.mem = some (List.replicate n 0)
  history : filter.rawHistoryFrame.mem = some (List.replicate n 0)
  table : filter.rawPersistenceMapLUT.mem = some (buildPersistenceMap mode.value)
  idx : filter.currFrameIdx < 8

/-- The filter has seen the frames `past`. -/
structure Follows (alpha : K) (delta bytes pixels : ℕ) (mode : PersistencyMode)
    (past : List ImgFrame) (filter : TemporalFilter K) : Prop where
  alpha_eq : filter.alpha = alpha
  delta_eq : filter.delta = delta
  table : filter.rawPersistenceMapLUT.mem = some (buildPersistenceMap mode.value)
  idx : filter.currFrameIdx < 8
  accumulator : pixels * bytes ≤ (filter.rawAccumulatorFrame.mem.getD []).length
  history : pixels ≤ (filter.rawHistoryFrame.mem.getD []).length
  tracks : ∀ i < pixels, ∃ p hist,
    WordArray.load bytes (filter.rawAccumulatorFrame.mem.getD []) i = some p ∧
    (filter.rawHistoryFrame.mem.getD [])[i]? = some hist ∧
    Tracks alpha delta (past.map (ImgFrame.value i)) p hist filter.currFrameIdx

theorem Zeroed.follows (h : filter.Zeroed mode n) (hbytes : 0 < bytes)
    (hfit : pixels * bytes ≤ n) :
    filter.Follows filter.alpha filter.delta bytes pixels mode [] := by
  have hpixels : pixels ≤ n := (Nat.le_mul_of_pos_right _ hbytes).trans hfit
  refine ⟨rfl, rfl, h.table, h.idx, ?_, ?_, ?_⟩
  · simpa [h.accumulator] using hfit
  · simpa [h.history] using hpixels
  · intro i hi
    have hword : i * bytes + bytes ≤ n := by
      rw [← Nat.succ_mul]
      exact (Nat.mul_le_mul_right bytes hi).trans hfit
    refine ⟨0, 0, ?_, ?_, rfl, RotatingWindow.remembers_zero fun j hj => ?_⟩
    · rw [h.accumulator, Option.getD_some]
      exact WordArray.load_replicate hword
    · rw [h.history, Option.getD_some]
      exact List.getElem?_replicate_of_lt (hi.trans_le hpixels)
    · exact Nat.not_lt_zero j hj.1

variable [IsStrictOrderedRing K]

/-- **One frame**, pixel by pixel. -/
theorem Follows.process (h : filter.Follows alpha delta bytes pixels mode past)
    (h0 : 0 ≤ alpha) (h1 : alpha ≤ 1) (hmode : mode.validIn = some (t, m))
    (htype : bytesPerPixel frame.type = .ok bytes) (hpixels : frame.pixels = pixels)
    (hframe : frame.Typed bytes) :
    ∃ out, filter.process frame = .ok out ∧
      (∀ i < pixels, out.2.value i =
        filtered alpha delta t m (past.map (ImgFrame.value i)) (frame.value i)) ∧
      out.1.Follows alpha delta bytes pixels mode (past ++ [frame]) := by
  obtain ⟨s, hs⟩ : ∃ s : Buffers, s = ⟨frame.data, filter.rawAccumulatorFrame.mem.getD [],
    filter.rawHistoryFrame.mem.getD []⟩ := ⟨_, rfl⟩
  have hin : s.Inside bytes pixels := by
    rw [hs]
    exact ⟨hpixels ▸ hframe.enough, h.accumulator, h.history⟩
  obtain ⟨u, hu, hdone⟩ :=
    processImpl_spec alpha delta filter.currFrameIdx (buildPersistenceMap mode.value) hin
  have hprocess : filter.process frame = .ok (
      { filter with
        rawAccumulatorFrame := { filter.rawAccumulatorFrame with mem := some u.accumulatorFrame }
        rawHistoryFrame := { filter.rawHistoryFrame with mem := some u.history }
        currFrameIdx := (filter.currFrameIdx + 1) % 8 },
      { frame with data := u.data }) := by
    rw [TemporalFilter.process, htype, Loop.ok_bind, h.alpha_eq, h.delta_eq, h.table, hpixels, ← hs,
      Option.getD_some, hu]
    rfl
  -- what the loop leaves of a pixel
  have hpixel : ∀ i < pixels, ∃ p hist, u.pixel bytes i =
      some (filtered alpha delta t m (past.map (ImgFrame.value i)) (frame.value i), p, hist) ∧
      Tracks alpha delta ((past ++ [frame]).map (ImgFrame.value i)) p hist
        ((filter.currFrameIdx + 1) % 8) := by
    intro i hi
    obtain ⟨p, hist, hp, hhist, htracks⟩ := h.tracks i hi
    have hvalue : frame.data[i]? = some (frame.value i) := by
      have hlt : i < frame.data.length := hi.trans_le (hpixels ▸ hframe.enough)
      rw [ImgFrame.value, List.getD_eq_getElem?_getD, List.getElem?_eq_getElem hlt]
      rfl
    have hbefore : s.pixel bytes i = some (frame.value i, p, hist) := by
      rw [hs, Buffers.pixel, hvalue, hp, hhist]
      rfl
    obtain ⟨hout, hnext⟩ := htracks.processPixel hmode h.idx h0 h1 (hframe.value_lt i)
      (WordArray.load_lt hp)
    refine ⟨_, _, (hdone.done i hi _ _ _ hbefore).trans (by rw [← hout]), ?_⟩
    rw [List.map_append]
    exact hnext
  refine ⟨_, hprocess, ?_, h.alpha_eq, h.delta_eq, h.table, Nat.mod_lt _ (by decide), ?_, ?_, ?_⟩
  · intro i hi
    obtain ⟨p, hist, hp, -⟩ := hpixel i hi
    obtain ⟨v, hv, hp⟩ := Option.bind_eq_some_iff.1 hp
    obtain ⟨a, -, hp⟩ := Option.bind_eq_some_iff.1 hp
    obtain ⟨b, -, hp⟩ := Option.bind_eq_some_iff.1 hp
    cases hp
    show u.data.getD i 0 = _
    rw [List.getD_eq_getElem?_getD, hv]
    rfl
  · exact (hdone.lengths.inside hin).accumulatorFrame
  · exact (hdone.lengths.inside hin).history
  · intro i hi
    obtain ⟨p, hist, hp, htracks⟩ := hpixel i hi
    obtain ⟨v, -, hp⟩ := Option.bind_eq_some_iff.1 hp
    obtain ⟨a, ha, hp⟩ := Option.bind_eq_some_iff.1 hp
    obtain ⟨b, hb, hp⟩ := Option.bind_eq_some_iff.1 hp
    cases hp
    exact ⟨p, hist, ha, hb, htracks⟩

theorem Follows.feed {frames : List ImgFrame}
    (h : filter.Follows alpha delta bytes pixels mode past) (h0 : 0 ≤ alpha) (h1 : alpha ≤ 1)
    (hmode : mode.validIn = some (t, m))
    (hframes : ∀ f ∈ frames, bytesPerPixel f.type = .ok bytes ∧ f.pixels = pixels ∧
      f.Typed bytes) :
    ∃ filter', filter.feed frames = .ok filter' ∧
      filter'.Follows alpha delta bytes pixels mode (past ++ frames) := by
  induction frames generalizing filter past with
  | nil =>
    refine ⟨filter, rfl, ?_⟩
    rw [List.append_nil]
    exact h
  | cons f frames ih =>
    obtain ⟨htype, hpixels, htyped⟩ := hframes f List.mem_cons_self
    obtain ⟨out, hout, -, hnext⟩ := h.process h0 h1 hmode htype hpixels htyped
    obtain ⟨filter', hfeed, hlast⟩ := ih hnext fun g hg => hframes g (List.mem_cons_of_mem _ hg)
    refine ⟨filter', ?_, by rwa [List.append_assoc] at hlast⟩
    rw [TemporalFilter.feed, List.foldlM_cons, hout]
    exact hfeed

/-- What becomes of a pixel with the values `cs` in the frames so far and the value `c` in the
current one. -/
structure Persists (alpha : K) (delta t m : ℕ) (cs : List ℕ) (c out : ℕ) : Prop where
  fills : c = 0 → (∃ x ∈ cs, x ≠ 0) → accumulated alpha delta cs ≠ 0 ∧
    (out = accumulated alpha delta cs ↔ t ≤ counting alpha delta cs m) ∧
    (out ≠ accumulated alpha delta cs → out = 0)
  blank : c = 0 → (∀ x ∈ cs, x = 0) → out = 0
  anew : c ≠ 0 → Anew delta c (accumulated alpha delta cs) → out = c
  mean : c ≠ 0 → ¬Anew delta c (accumulated alpha delta cs) →
    out = blend alpha c (accumulated alpha delta cs)

theorem persists_filtered (h0 : 0 ≤ alpha) (h1 : alpha ≤ 1) (cs : List ℕ) (c : ℕ) :
    Persists alpha delta t m cs c (filtered alpha delta t m cs c) where
  fills := by
    intro hc hcs
    have hne : accumulated alpha delta cs ≠ 0 := (accumulated_ne_zero_iff h0 h1).2 hcs
    rw [filtered, if_neg (not_not.2 hc)]
    by_cases hcount : t ≤ counting alpha delta cs m
    · rw [if_pos hcount]
      exact ⟨hne, iff_of_true rfl hcount, fun hout => absurd rfl hout⟩
    · rw [if_neg hcount]
      exact ⟨hne, iff_of_false hne.symm hcount, fun _ => rfl⟩
  blank := by
    intro hc hcs
    have hzero : accumulated alpha delta cs = 0 := by
      by_contra hne
      obtain ⟨x, hx, hx0⟩ := (accumulated_ne_zero_iff h0 h1).1 hne
      exact hx0 (hcs x hx)
    rw [filtered, if_neg (not_not.2 hc), hzero, ite_self]
  anew := by
    intro hc hanew
    rw [filtered, if_pos hc, accumulate, if_neg hc, if_pos hanew]
  mean := by
    intro hc hanew
    rw [filtered, if_pos hc, accumulate, if_neg hc, if_neg hanew]

/-- **Persistence.** After any frames of one size and type since the blocks were zeroed, a pixel
that is not measured is filled with its accumulated value exactly if enough of the last frames
count, and a measured one never is. -/
theorem persistence (hz : filter.Zeroed mode n) (h0 : 0 ≤ filter.alpha) (h1 : filter.alpha ≤ 1)
    (hmode : mode.validIn = some (t, m)) (hbytes : bytesPerPixel frame.type = .ok bytes)
    (hfit : frame.pixels * bytes ≤ n)
    (hsame : ∀ f ∈ past, f.type = frame.type ∧ f.width = frame.width ∧ f.height = frame.height)
    (htyped : ∀ f ∈ past ++ [frame], f.Typed bytes) :
    ∃ filter' out, filter.feed past = .ok filter' ∧ filter'.process frame = .ok out ∧
      ∀ i < frame.pixels, Persists filter.alpha filter.delta t m (past.map (ImgFrame.value i))
        (frame.value i) (out.2.value i) := by
  have hframes : ∀ f ∈ past, bytesPerPixel f.type = .ok bytes ∧ f.pixels = frame.pixels ∧
      f.Typed bytes := by
    intro f hf
    obtain ⟨htype, hwidth, hheight⟩ := hsame f hf
    refine ⟨htype ▸ hbytes, ?_, htyped f (List.mem_append_left _ hf)⟩
    rw [ImgFrame.pixels, hwidth, hheight]
    rfl
  obtain ⟨filter', hfeed, hfollows⟩ :=
    (hz.follows (bytesPerPixel_pos hbytes) hfit).feed h0 h1 hmode hframes
  obtain ⟨out, hout, hvalues, -⟩ :=
    hfollows.process h0 h1 hmode hbytes rfl (htyped frame (by simp))
  refine ⟨filter', out, hfeed, hout, fun i hi => ?_⟩
  rw [hvalues i hi]
  exact persists_filtered h0 h1 _ _

/-- A filter for frames of one byte. -/
def oneByte : TemporalFilter ℚ :=
  { persistenceMode := 5
    alpha := 2 / 5
    delta := 3
    rawAccumulatorFrame := ⟨some [0], 1⟩
    rawHistoryFrame := ⟨some [0], 1⟩
    rawPersistenceMapLUT := ⟨some (buildPersistenceMap 5), 256⟩ }

/-- A measurement of 7 and then none. -/
theorem persistence_onePixel : ∃ filter' out, oneByte.feed [onePixel] = .ok filter' ∧
    filter'.process { onePixel with data := [0] } = .ok out ∧
      ∀ i < 1, Persists (2 / 5 : ℚ) 3 1 2 ([onePixel].map (ImgFrame.value i))
        (ImgFrame.value i { onePixel with data := [0] }) (out.2.value i) := by
  have hzeroed : oneByte.Zeroed .VALID_1_IN_LAST_2 1 := ⟨rfl, rfl, rfl, by decide⟩
  have htyped : ∀ f ∈ [onePixel, { onePixel with data := [0] }], f.Typed 1 := by
    intro f hf
    simp only [List.mem_cons, List.not_mem_nil, or_false] at hf
    rcases hf with rfl | rfl
    · exact ⟨by decide, by decide⟩
    · exact ⟨by decide, by decide⟩
  have h0 : (0 : ℚ) ≤ 2 / 5 := by norm_num
  have h1 : (2 / 5 : ℚ) ≤ 1 := by norm_num
  have hsame : ∀ f ∈ [onePixel], f.type = FrameType.RAW8 ∧ f.width = 1 ∧ f.height = 1 := by decide
  exact persistence hzeroed h0 h1 rfl rfl (by decide) hsame htyped

/-! ### When the blocks are zeroed -/

omit [FloorSemiring K] [IsStrictOrderedRing K] in
/-- **Parameters that are not those of the filter zero the blocks.** The table is that of the mode
if it was before. -/
theorem zeroed_configure {accumulatorFrame : List UInt8} {history : List (BitVec 8)}
    {delta : ℤ}
    (hacc : filter.rawAccumulatorFrame.mem = some accumulatorFrame)
    (hhist : filter.rawHistoryFrame.mem = some history)
    (hlength : history.length = accumulatorFrame.length)
    (htable : filter.persistenceMode = mode.value →
      filter.rawPersistenceMapLUT.mem = some (buildPersistenceMap mode.value))
    (hchanged : filter.persistenceMode ≠ mode.value ∨ alpha ≠ filter.alpha ∨
      delta ≠ filter.delta) :
    (filter.configure alpha delta mode.value).Zeroed mode accumulatorFrame.length := by
  have hsmall : mode.value % 256 = mode.value := by cases mode <;> rfl
  have hmode : (filter.setMode mode.value).rawPersistenceMapLUT.mem =
      some (buildPersistenceMap mode.value) := by
    rw [setMode]
    split
    case isTrue => rw [hsmall]
    case isFalse hsame => exact htable (not_not.1 hsame)
  have hacc' : (filter.setMode mode.value).rawAccumulatorFrame.mem = some accumulatorFrame := by
    rw [setMode]
    split <;> exact hacc
  have hhist' : (filter.setMode mode.value).rawHistoryFrame.mem = some history := by
    rw [setMode]
    split <;> exact hhist
  rw [configure]
  simp only [if_pos hchanged]
  refine ⟨?_, ?_, hmode, Nat.zero_lt_succ 7⟩
  · show (filter.setMode mode.value).rawAccumulatorFrame.mem.map _ = _
    rw [hacc', Option.map_some, List.map_const']
  · show (filter.setMode mode.value).rawHistoryFrame.mem.map _ = _
    rw [hhist', Option.map_some, List.map_const', hlength]

omit [FloorSemiring K] [IsStrictOrderedRing K] in
/-- **Initialising a new filter leaves the blocks zeroed**, with as many bytes as it asks for. -/
theorem zeroed_init {needed : ℕ} (hpos : 0 ≤ narrow needed) (alpha : K) (delta : ℤ) :
    ∃ filter', ({} : TemporalFilter K).init needed alpha delta mode.value = .ok filter' ∧
      filter'.Zeroed mode (narrow needed).toNat := by
  have hblock {β : Type} (zero : β) : ({} : MemSections β).allocate zero (narrow needed) =
      .ok ⟨some (List.replicate (narrow needed).toNat zero), (narrow needed).toNat⟩ := by
    have hlt := narrow_lt needed
    have hsize : (narrow needed % 2 ^ 64).toNat = (narrow needed).toNat := by
      rw [Int.emod_eq_of_lt hpos (by omega)]
    rw [MemSections.allocate, hsize]
    simp only [ite_self]
    exact if_pos (by omega)
  have hmode : 255 ≠ mode.value := by cases mode <;> decide
  obtain ⟨table, htable⟩ := exists_allocate_table {}
  -- the blocks are there, and the parameters of a new filter are none that can be given
  let allocated : TemporalFilter K := {
    rawAccumulatorFrame := ⟨some (List.replicate (narrow needed).toNat 0), (narrow needed).toNat⟩
    rawHistoryFrame := ⟨some (List.replicate (narrow needed).toNat 0), (narrow needed).toNat⟩
    rawPersistenceMapLUT := table }
  have hinit : ({} : TemporalFilter K).init needed alpha delta mode.value =
      .ok (allocated.configure alpha delta mode.value) := by
    rw [init, allocateBuffers, hblock, hblock, htable]
    rfl
  have hzeroed : (allocated.configure alpha delta mode.value).Zeroed mode
      (List.replicate (narrow needed).toNat (0 : UInt8)).length :=
    zeroed_configure rfl rfl (by simp) (fun h => absurd h hmode) (.inl hmode)
  rw [List.length_replicate] at hzeroed
  exact ⟨_, hinit, hzeroed⟩

end TemporalFilter

end Frames

end ImageFilters

end DepthaiCore
