import DepthaiCore.Utility.LapjvReduction

/-!
# The searches of the assignment solver

A search starts at a free row and keeps the distances of the columns. The array `cols` has the
columns that are scanned, then those on the SCAN list, which have the same distance, then the rest,
which are farther away. The search ends at a column without a row.
-/

namespace DepthaiCore.Lapjv

open Function (update)
open Assignment (Cheapest)

/-! ### Places of columns -/

section Places

variable {n k hi : ℕ} {cols : ℕ → ℕ}

/-- The array has every column once. -/
def Arranged (n : ℕ) (cols : ℕ → ℕ) : Prop :=
  Set.BijOn cols (Set.Iio n) (Set.Iio n)

theorem exchange_eq (cols : ℕ → ℕ) (k hi : ℕ) : exchange cols k hi = cols ∘ Equiv.swap k hi := by
  funext p
  rw [exchange, Function.comp_apply, Function.update_apply, Function.update_apply,
    Equiv.swap_apply_def]
  split_ifs <;> simp_all

theorem Arranged.exchange (h : Arranged n cols) (hk : k < n) (hhi : hi < n) :
    Arranged n (exchange cols k hi) := by
  have hswap : Set.BijOn (Equiv.swap k hi) (Set.Iio n) (Set.Iio n) := by
    refine Set.BijOn.mk (fun p hp => ?_) (Equiv.injective _).injOn fun p hp =>
      ⟨Equiv.swap k hi p, ?_, Equiv.swap_apply_self ..⟩
    all_goals
      rw [Set.mem_Iio, Equiv.swap_apply_def]
      split_ifs
      exacts [hhi, hk, hp]
  rw [exchange_eq]
  exact Set.BijOn.comp h hswap

theorem Arranged.lt (h : Arranged n cols) {p : ℕ} (hp : p < n) : cols p < n :=
  h.mapsTo hp

theorem Arranged.ne (h : Arranged n cols) {p q : ℕ} (hp : p < n) (hq : q < n) (hne : p ≠ q) :
    cols p ≠ cols q :=
  fun heq => hne (h.injOn hp hq heq)

theorem Arranged.exists_place (h : Arranged n cols) {j : ℕ} (hj : j < n) : ∃ p < n, cols p = j :=
  h.surjOn hj

/-- If the columns before `lo` stay, the others are the others. -/
theorem Arranged.exists_place_ge (h : Arranged n cols) {cols' : ℕ → ℕ} (h' : Arranged n cols')
    {lo : ℕ} (hsame : ∀ p < lo, cols' p = cols p) {p : ℕ} (hlo : lo ≤ p) (hp : p < n) :
    ∃ p', lo ≤ p' ∧ p' < n ∧ cols p' = cols' p := by
  obtain ⟨p', hp', hplace⟩ := h.exists_place (h'.lt hp)
  refine ⟨p', not_lt.1 fun hlt => ?_, hp', hplace⟩
  rw [← hsame p' hlt] at hplace
  exact absurd (h'.injOn hp' hp hplace) (hlt.trans_le hlo).ne

theorem exchange_of_ne {p : ℕ} (hk : p ≠ k) (hhi : p ≠ hi) : exchange cols k hi p = cols p := by
  rw [exchange_eq, Function.comp_apply, Equiv.swap_apply_of_ne_of_ne hk hhi]

theorem exchange_left : exchange cols k hi k = cols hi := by
  rw [exchange_eq, Function.comp_apply, Equiv.swap_apply_left]

theorem exchange_right : exchange cols k hi hi = cols k := by
  rw [exchange_eq, Function.comp_apply, Equiv.swap_apply_right]

end Places

/-! ### The closest columns -/

section Find

variable {K : Type} [LinearOrder K] {n lo k : ℕ} {d : ℕ → K} {cols : ℕ → ℕ} {s : Closest K}

/-- The closest of the columns from `lo` to `k` stand together. -/
structure Nearest (n lo : ℕ) (d : ℕ → K) (cols : ℕ → ℕ) (k : ℕ) (s : Closest K) : Prop where
  arranged : Arranged n s.cols
  before : ∀ p < lo, s.cols p = cols p
  lo_lt : lo < s.hi
  hi_le : s.hi ≤ k
  near : ∀ p, lo ≤ p → p < s.hi → d (s.cols p) = s.mind
  far : ∀ p, s.hi ≤ p → p < k → s.mind < d (s.cols p)

theorem Nearest.findColumn (hk : k < n) (h : Nearest n lo d cols k s) :
    Nearest n lo d cols (k + 1) (findColumn lo d s k) := by
  have hlo := h.lo_lt
  have hhi := h.hi_le
  rcases lt_trichotomy (d (s.cols k)) s.mind with hlt | heq | hgt
  · -- A new minimum: its column comes first.
    have hfind : Lapjv.findColumn lo d s k = ⟨lo + 1, d (s.cols k), exchange s.cols k lo⟩ := by
      rw [Lapjv.findColumn]
      dsimp only
      rw [if_pos hlt.le, if_pos hlt]
    rw [hfind]
    refine ⟨h.arranged.exchange hk (by omega), fun p hp => ?_, Nat.lt_succ_self lo,
      show lo + 1 ≤ k + 1 by omega, fun p hp hp' => ?_, fun p hp hp' => ?_⟩
    · show exchange s.cols k lo p = cols p
      rw [exchange_of_ne (by omega) hp.ne]
      exact h.before p hp
    · obtain rfl : p = lo := Nat.le_antisymm (Nat.le_of_lt_succ hp') hp
      exact congrArg d exchange_right
    · show d (s.cols k) < d (exchange s.cols k lo p)
      have hp : lo < p := hp
      rcases eq_or_ne p k with rfl | hne
      · rw [exchange_left, h.near lo le_rfl hlo]
        exact hlt
      · rw [exchange_of_ne hne hp.ne']
        rcases lt_or_ge p s.hi with hlt' | hge
        · rw [h.near p hp.le hlt']
          exact hlt
        · exact hlt.trans (h.far p hge (lt_of_le_of_ne (Nat.le_of_lt_succ hp') hne))
  · -- As close as the closest so far.
    have hfind : Lapjv.findColumn lo d s k = ⟨s.hi + 1, s.mind, exchange s.cols k s.hi⟩ := by
      rw [Lapjv.findColumn]
      dsimp only
      rw [if_pos heq.le, if_neg heq.not_lt]
    rw [hfind]
    refine ⟨h.arranged.exchange hk (by omega), fun p hp => ?_, show lo < s.hi + 1 by omega,
      show s.hi + 1 ≤ k + 1 by omega, fun p hp hp' => ?_, fun p hp hp' => ?_⟩
    · show exchange s.cols k s.hi p = cols p
      rw [exchange_of_ne (by omega) (by omega)]
      exact h.before p hp
    · show d (exchange s.cols k s.hi p) = s.mind
      rcases eq_or_ne p s.hi with rfl | hne
      · rw [exchange_right]
        exact heq
      · have hlt' : p < s.hi := lt_of_le_of_ne (Nat.le_of_lt_succ hp') hne
        rw [exchange_of_ne (by omega) hne]
        exact h.near p hp hlt'
    · show s.mind < d (exchange s.cols k s.hi p)
      have hp : s.hi < p := hp
      rcases eq_or_ne p k with rfl | hne'
      · rw [exchange_left]
        exact h.far s.hi le_rfl hp
      · rw [exchange_of_ne hne' hp.ne']
        exact h.far p hp.le (lt_of_le_of_ne (Nat.le_of_lt_succ hp') hne')
  · have hfind : Lapjv.findColumn lo d s k = s := by
      rw [Lapjv.findColumn]
      exact if_neg hgt.not_ge
    rw [hfind]
    refine ⟨h.arranged, h.before, hlo, Nat.le_succ_of_le hhi, h.near, fun p hp hp' => ?_⟩
    rcases Nat.lt_succ_iff_lt_or_eq.1 hp' with hp' | rfl
    · exact h.far p hp hp'
    · exact hgt

theorem nearest_find_dense (hlo : lo < n) (h : Arranged n cols) :
    Nearest n lo d cols n (find_dense n lo d cols) := by
  have hstart : Nearest n lo d cols (lo + 1) ⟨lo + 1, d (cols lo), cols⟩ := by
    refine ⟨h, fun _ _ => rfl, Nat.lt_succ_self lo, le_rfl, fun p hp hp' => ?_, fun p hp hp' => ?_⟩
    · rw [Nat.le_antisymm (Nat.le_of_lt_succ hp') hp]
    · exact absurd hp' (Nat.not_lt.2 hp)
  have hend := Loop.foldl_range' (n := n - (lo + 1)) (I := Nearest n lo d cols) hstart
    fun k s hk hk' hs => hs.findColumn (by omega)
  rwa [Nat.add_sub_cancel' hlo] at hend

/-- The last of the columns without a row, if there is one. -/
theorem foldl_final (y : ℕ → Option ℕ) (cols : ℕ → ℕ) {hi : ℕ} (hle : lo ≤ hi) :
    let final_j := (List.range' lo (hi - lo)).foldl (fun final_j k =>
      if y (cols k) = none then some (cols k) else final_j) none
    (final_j = none ∧ ∀ p, lo ≤ p → p < hi → y (cols p) ≠ none) ∨
      ∃ p, lo ≤ p ∧ p < hi ∧ final_j = some (cols p) ∧ y (cols p) = none := by
  have hend := Loop.foldl_range' (n := hi - lo) (s := (none : Option ℕ))
    (g := fun final_j k => if y (cols k) = none then some (cols k) else final_j)
    (I := fun k final_j => (final_j = none ∧ ∀ p, lo ≤ p → p < k → y (cols p) ≠ none) ∨
      ∃ p, lo ≤ p ∧ p < k ∧ final_j = some (cols p) ∧ y (cols p) = none)
    (.inl ⟨rfl, fun p hp hp' => absurd hp' (Nat.not_lt.2 hp)⟩) ?_
  · rwa [Nat.add_sub_cancel' hle] at hend
  · intro k final_j hk _ h
    split_ifs with hy
    · exact .inr ⟨k, hk, Nat.lt_succ_self k, rfl, hy⟩
    · rcases h with ⟨hnone, hall⟩ | ⟨p, hp, hp', hfinal⟩
      · refine .inl ⟨hnone, fun p hp hp' => ?_⟩
        rcases Nat.lt_succ_iff_lt_or_eq.1 hp' with hp' | rfl
        · exact hall p hp hp'
        · exact hy
      · exact .inr ⟨p, hp, Nat.lt_succ_of_lt hp', hfinal⟩

end Find

/-! ### The distances -/

section Search

variable {K : Type} [Field K] (n : ℕ) (cost : ℕ → ℕ → K) (y : ℕ → Option ℕ) (v : ℕ → K)
  (start_i : ℕ)

/-- The distance of a column by way of another one and its row. -/
def via (d : ℕ → K) (i j₀ j : ℕ) : K :=
  d j₀ + (cost i j - v j) - (cost i j₀ - v j₀)

variable {cost v} in
theorem via_congr {d d' : ℕ → K} {i j₀ j : ℕ} (hd : d' j₀ = d j₀) :
    via cost v d' i j₀ j = via cost v d i j₀ j := by
  rw [via, via, hd]

/-- What a distance comes from: the free row, or a column at an earlier place. -/
def Reached (hi : ℕ) (s : Search K) (p : ℕ) : Prop :=
  s.pred (s.cols p) = start_i ∧ s.d (s.cols p) = cost start_i (s.cols p) - v (s.cols p) ∨
    ∃ q < p, q < hi ∧ y (s.cols q) = some (s.pred (s.cols p)) ∧
      s.d (s.cols p) = via cost v s.d (s.pred (s.cols p)) (s.cols q) (s.cols p)

variable [LinearOrder K]

/-- The columns before `lo` are scanned, and those before `hi` have rows. -/
structure Scanned (lo hi : ℕ) (s : Search K) : Prop where
  lo_le : lo ≤ hi
  hi_le : hi ≤ n
  arranged : Arranged n s.cols
  start_le : ∀ j < n, s.d j ≤ cost start_i j - v j
  step_le : ∀ p < lo, ∀ i, y (s.cols p) = some i → ∀ j < n,
    s.d j ≤ via cost v s.d i (s.cols p) j
  reached : ∀ p < n, Reached cost y v start_i hi s p
  assigned : ∀ p < hi, y (s.cols p) ≠ none

variable {n cost y v start_i} {lo hi : ℕ} {s : Search K}

namespace Scanned

theorem of_le (h : Scanned n cost y v start_i lo hi s) {lo' : ℕ} (hle : lo' ≤ lo) :
    Scanned n cost y v start_i lo' hi s :=
  ⟨hle.trans h.lo_le, h.hi_le, h.arranged, h.start_le, fun p hp => h.step_le p (hp.trans_le hle),
    h.reached, h.assigned⟩

theorem rearrange (h : Scanned n cost y v start_i lo hi s) {cols : ℕ → ℕ}
    (hcols : Arranged n cols) (hsame : ∀ p < hi, cols p = s.cols p) :
    Scanned n cost y v start_i lo hi { s with cols := cols } := by
  refine ⟨h.lo_le, h.hi_le, hcols, h.start_le, fun p hp i hi j hj => ?_, fun p hp => ?_,
    fun p hp => ?_⟩
  · have hp' := hsame p (hp.trans_le h.lo_le)
    dsimp only at hi ⊢
    rw [hp'] at hi ⊢
    exact h.step_le p hp i hi j hj
  · -- The place the column had.
    obtain ⟨p', hp', hplace⟩ := h.arranged.exists_place (hcols.lt hp)
    have horder {q : ℕ} (hq : q < p') (hqhi : q < hi) : q < p := by
      rcases lt_or_ge p hi with hlt | hge
      · rw [hsame p hlt] at hplace
        rwa [h.arranged.injOn hp' hp hplace] at hq
      · exact hqhi.trans_le hge
    have hreached := h.reached p' hp'
    rw [Reached, hplace] at hreached
    rcases hreached with hstart | ⟨q, hq, hqhi, hy, hd⟩
    · exact .inl hstart
    · refine .inr ⟨q, horder hq hqhi, hqhi, ?_⟩
      show y (cols q) = _ ∧ _ = via cost v s.d _ (cols q) _
      rw [hsame q hqhi]
      exact ⟨hy, hd⟩
  · show y (cols p) ≠ none
    rw [hsame p hp]
    exact h.assigned p hp

/-- A column that is farther away gets a shorter distance. -/
theorem improve (h : Scanned n cost y v start_i lo hi s) {k q i : ℕ} (hk : hi ≤ k) (hkn : k < n)
    (hq : q < hi) (hy : y (s.cols q) = some i)
    (hlt : via cost v s.d i (s.cols q) (s.cols k) < s.d (s.cols k)) :
    Scanned n cost y v start_i lo hi { s with
      d := update s.d (s.cols k) (via cost v s.d i (s.cols q) (s.cols k))
      pred := update s.pred (s.cols k) i } := by
  have hne {p : ℕ} (hp : p < n) (hpk : p ≠ k) : s.cols p ≠ s.cols k := h.arranged.ne hp hkn hpk
  have hbefore {p : ℕ} (hp : p < hi) : s.cols p ≠ s.cols k :=
    hne (hp.trans_le h.hi_le) (hp.trans_le hk).ne
  have hle (j : ℕ) :
      update s.d (s.cols k) (via cost v s.d i (s.cols q) (s.cols k)) j ≤ s.d j := by
    rw [Function.update_apply]
    split_ifs with heq
    · exact heq ▸ hlt.le
    · exact le_rfl
  refine ⟨h.lo_le, h.hi_le, h.arranged, fun j hj => (hle j).trans (h.start_le j hj),
    fun p hp i' hi' j hj => ?_, fun p hp => ?_, h.assigned⟩
  · have hd := Function.update_of_ne (hbefore (hp.trans_le h.lo_le))
      (via cost v s.d i (s.cols q) (s.cols k)) s.d
    exact (hle j).trans ((h.step_le p hp i' hi' j hj).trans_eq (via_congr hd).symm)
  · rw [Reached]
    dsimp only
    rcases eq_or_ne p k with rfl | hpk
    · rw [Function.update_self, Function.update_self]
      exact .inr ⟨q, hq.trans_le hk, hq, hy,
        (via_congr (Function.update_of_ne (hbefore hq) ..)).symm⟩
    · rw [Function.update_of_ne (hne hp hpk), Function.update_of_ne (hne hp hpk)]
      rcases h.reached p hp with hstart | ⟨q', hq', hqhi, hy', hd⟩
      · exact .inl hstart
      · exact .inr ⟨q', hq', hqhi, hy',
          hd.trans (via_congr (Function.update_of_ne (hbefore hqhi) ..)).symm⟩

theorem of_assigned (h : Scanned n cost y v start_i lo hi s) {hi' : ℕ} (hle : hi ≤ hi')
    (hn : hi' ≤ n) (hy : ∀ p, hi ≤ p → p < hi' → y (s.cols p) ≠ none) :
    Scanned n cost y v start_i lo hi' s := by
  refine ⟨h.lo_le.trans hle, hn, h.arranged, h.start_le, h.step_le, fun p hp => ?_, fun p hp => ?_⟩
  · refine (h.reached p hp).imp_right ?_
    rintro ⟨q, hq, hqhi, hrest⟩
    exact ⟨q, hq, hqhi.trans_le hle, hrest⟩
  · rcases lt_or_ge p hi with hlt | hge
    · exact h.assigned p hlt
    · exact hy p hge hp

theorem succ_lo (h : Scanned n cost y v start_i lo hi s) (hlo : lo < hi)
    (hstep : ∀ i, y (s.cols lo) = some i → ∀ j < n, s.d j ≤ via cost v s.d i (s.cols lo) j) :
    Scanned n cost y v start_i (lo + 1) hi s := by
  refine ⟨hlo, h.hi_le, h.arranged, h.start_le, fun p hp => ?_, h.reached, h.assigned⟩
  rcases Nat.lt_succ_iff_lt_or_eq.1 hp with hp | rfl
  · exact h.step_le p hp
  · exact hstep

end Scanned

end Search

/-! ### Columns of one distance -/

section Scan

variable {K : Type} [Field K] [LinearOrder K] (n : ℕ) (cost : ℕ → ℕ → K) (y : ℕ → Option ℕ)
  (v : ℕ → K) (start_i n_ready : ℕ) (mind : K)

/-- The columns from `n_ready` to `hi` are scanned one after the other. -/
structure Exploring (lo hi : ℕ) (s : Search K) : Prop extends
    Scanned n cost y v start_i lo hi s where
  ready_le : n_ready ≤ lo
  ready_lt : n_ready < hi
  below : ∀ p < n_ready, s.d (s.cols p) ≤ mind
  level : ∀ p, n_ready ≤ p → p < hi → s.d (s.cols p) = mind
  above : ∀ p, hi ≤ p → p < n → mind < s.d (s.cols p)

/-- The column `j₀` is scanned, and the places before `k` are done. -/
structure Passing (lo i j₀ k : ℕ) (s : Scan K) : Prop extends
    Exploring n cost y v start_i n_ready mind lo s.hi s.toSearch where
  lo_lt : lo < s.hi
  hi_le_k : s.hi ≤ k
  place : s.cols lo = j₀
  row : y j₀ = some i
  passed : ∀ p < k, s.d (s.cols p) ≤ via cost v s.d i j₀ (s.cols p)

/-- The search has found a column without a row. -/
structure Found (final_j : ℕ) (s : Search K) : Prop where
  scanned : ∃ hi, Scanned n cost y v start_i n_ready hi s
  below : ∀ p < n_ready, s.d (s.cols p) ≤ mind
  above : ∀ p, n_ready ≤ p → p < n → mind ≤ s.d (s.cols p)
  mind_eq : s.d (s.cols n_ready) = mind
  final_lt : final_j < n
  final_free : y final_j = none
  final_eq : s.d final_j = mind

variable {n cost y v start_i n_ready mind} {lo hi i j₀ k : ℕ}

theorem Exploring.le {s : Search K} (h : Exploring n cost y v start_i n_ready mind lo hi s) {p : ℕ}
    (hp : p < hi) : s.d (s.cols p) ≤ mind := by
  rcases lt_or_ge p n_ready with hlt | hge
  · exact h.below p hlt
  · exact (h.level p hge hp).le

theorem Passing.mind_eq {s : Scan K}
    (h : Passing n cost y v start_i n_ready mind lo i j₀ k s) : s.d j₀ = mind := by
  rw [← h.place]
  exact h.level lo h.ready_le h.lo_lt

/-- The column at place `k` is not closer by way of `j₀`. -/
theorem Passing.skip {s : Scan K} (h : Passing n cost y v start_i n_ready mind lo i j₀ k s)
    (hle : s.d (s.cols k) ≤ via cost v s.d i j₀ (s.cols k)) :
    Passing n cost y v start_i n_ready mind lo i j₀ (k + 1) s := by
  refine ⟨h.toExploring, h.lo_lt, Nat.le_succ_of_le h.hi_le_k, h.place, h.row, fun p hp => ?_⟩
  rcases Nat.lt_succ_iff_lt_or_eq.1 hp with hp | rfl
  · exact h.passed p hp
  · exact hle

section Closer

variable {s : Scan K} (h : Passing n cost y v start_i n_ready mind lo i j₀ k s) (hk : k < n)
include h hk

theorem Passing.closer_of_ne (cred : K) {p : ℕ} (hp : p < n) (hne : p ≠ k) :
    update s.d (s.cols k) cred (s.cols p) = s.d (s.cols p) :=
  Function.update_of_ne (h.arranged.ne hp hk hne) ..

theorem Passing.via_closer (cred : K) (j : ℕ) :
    via cost v (update s.d (s.cols k) cred) i j₀ j = via cost v s.d i j₀ j := by
  have hlt := h.lo_lt.trans_le h.hi_le_k
  rw [← h.place]
  exact via_congr (h.closer_of_ne hk cred (hlt.trans hk) hlt.ne)

theorem Passing.scanned_closer (hlt : via cost v s.d i j₀ (s.cols k) < s.d (s.cols k)) :
    Scanned n cost y v start_i lo s.hi { s.toSearch with
      d := update s.d (s.cols k) (via cost v s.d i j₀ (s.cols k))
      pred := update s.pred (s.cols k) i } := by
  obtain ⟨hexploring, hlo, hle, rfl, hrow, -⟩ := h
  exact hexploring.toScanned.improve hle hk hlo hrow hlt

theorem Passing.closer (hlt : via cost v s.d i j₀ (s.cols k) < s.d (s.cols k))
    (hmind : mind < via cost v s.d i j₀ (s.cols k)) :
    Passing n cost y v start_i n_ready mind lo i j₀ (k + 1) { s with
      d := update s.d (s.cols k) (via cost v s.d i j₀ (s.cols k))
      pred := update s.pred (s.cols k) i } := by
  have hhi := h.hi_le_k
  have hd {p : ℕ} (hp : p < n) (hne : p ≠ k) :=
    h.closer_of_ne hk (via cost v s.d i j₀ (s.cols k)) hp hne
  have hself := Function.update_self (s.cols k) (via cost v s.d i j₀ (s.cols k)) s.d
  refine ⟨⟨h.scanned_closer hk hlt, h.ready_le, h.ready_lt, fun p hp => ?_, fun p hp hp' => ?_,
    fun p hp hp' => ?_⟩, h.lo_lt, Nat.le_succ_of_le hhi, h.place, h.row, fun p hp => ?_⟩
  · have hpk : p < k := hp.trans (h.ready_lt.trans_le hhi)
    exact (hd (hpk.trans hk) hpk.ne).trans_le (h.below p hp)
  · have hpk : p < k := lt_of_lt_of_le hp' hhi
    exact (hd (hpk.trans hk) hpk.ne).trans (h.level p hp hp')
  · rcases eq_or_ne p k with rfl | hne
    · exact hmind.trans_eq hself.symm
    · exact (h.above p hp hp').trans_eq (hd hp' hne).symm
  · refine le_trans ?_ (h.via_closer hk _ _).ge
    rcases Nat.lt_succ_iff_lt_or_eq.1 hp with hp | rfl
    · exact (hd (hp.trans hk) hp.ne).trans_le (h.passed p hp)
    · exact hself.le

theorem Passing.found (hlt : via cost v s.d i j₀ (s.cols k) < s.d (s.cols k))
    (hmind : via cost v s.d i j₀ (s.cols k) = mind) (hfree : y (s.cols k) = none) :
    Found n cost y v start_i n_ready mind (s.cols k) { s.toSearch with
      d := update s.d (s.cols k) (via cost v s.d i j₀ (s.cols k))
      pred := update s.pred (s.cols k) i } := by
  have hhi := h.hi_le_k
  have hd {p : ℕ} (hp : p < n) (hne : p ≠ k) :=
    h.closer_of_ne hk (via cost v s.d i j₀ (s.cols k)) hp hne
  have hself : update s.d (s.cols k) (via cost v s.d i j₀ (s.cols k)) (s.cols k) = mind :=
    (Function.update_self ..).trans hmind
  refine ⟨⟨s.hi, (h.scanned_closer hk hlt).of_le h.ready_le⟩, fun p hp => ?_, fun p hp hp' => ?_,
    ?_, h.arranged.lt hk, hfree, hself⟩
  · have hpk : p < k := hp.trans (h.ready_lt.trans_le hhi)
    exact (hd (hpk.trans hk) hpk.ne).trans_le (h.below p hp)
  · rcases eq_or_ne p k with rfl | hne
    · exact hself.ge
    · refine le_trans ?_ (hd hp' hne).ge
      rcases lt_or_ge p s.hi with hphi | hphi
      · exact (h.level p hp hphi).ge
      · exact (h.above p hphi hp').le
  · have hpk : n_ready < k := h.ready_lt.trans_le hhi
    exact (hd (hpk.trans hk) hpk.ne).trans (h.level n_ready le_rfl h.ready_lt)

/-- It is as close as `j₀`, and it gets on the SCAN list. -/
theorem Passing.add (hlt : via cost v s.d i j₀ (s.cols k) < s.d (s.cols k))
    (hmind : via cost v s.d i j₀ (s.cols k) = mind) (hrow : y (s.cols k) ≠ none) :
    Passing n cost y v start_i n_ready mind lo i j₀ (k + 1) {
      d := update s.d (s.cols k) (via cost v s.d i j₀ (s.cols k))
      pred := update s.pred (s.cols k) i
      cols := exchange s.cols k s.hi
      hi := s.hi + 1 } := by
  have hhi := h.hi_le_k
  have hlo := h.lo_lt
  have hready := h.ready_lt
  have hd {p : ℕ} (hp : p < n) (hne : p ≠ k) :=
    h.closer_of_ne hk (via cost v s.d i j₀ (s.cols k)) hp hne
  have hself : update s.d (s.cols k) (via cost v s.d i j₀ (s.cols k)) (s.cols k) = mind :=
    (Function.update_self ..).trans hmind
  have hbefore {p : ℕ} (hp : p < s.hi) : exchange s.cols k s.hi p = s.cols p :=
    exchange_of_ne (hp.trans_le hhi).ne hp.ne
  have hscanned := (h.scanned_closer hk hlt).rearrange
    (h.arranged.exchange hk (hhi.trans_lt hk)) fun p hp => hbefore hp
  have hscanned' := hscanned.of_assigned (Nat.le_succ _) (hhi.trans_lt hk) fun p hp hp' => by
    obtain rfl : p = s.hi := Nat.le_antisymm (Nat.le_of_lt_succ hp') hp
    show y (exchange s.cols k s.hi s.hi) ≠ none
    rwa [exchange_right]
  refine ⟨⟨hscanned', h.ready_le, Nat.lt_succ_of_lt hready, fun p hp => ?_, fun p hp hp' => ?_,
    fun p hp hp' => ?_⟩, Nat.lt_succ_of_lt hlo, Nat.succ_le_succ hhi, ?_, h.row, fun p hp => ?_⟩
  · show update s.d _ _ (exchange s.cols k s.hi p) ≤ mind
    rw [hbefore (hp.trans hready), hd (by omega) (by omega)]
    exact h.below p hp
  · show update s.d _ _ (exchange s.cols k s.hi p) = mind
    rcases Nat.lt_succ_iff_lt_or_eq.1 hp' with hphi | rfl
    · rw [hbefore hphi, hd (by omega) (by omega)]
      exact h.level p hp hphi
    · rw [exchange_right]
      exact hself
  · show mind < update s.d _ _ (exchange s.cols k s.hi p)
    have hlt' : s.hi < p := hp
    rcases eq_or_ne p k with rfl | hne
    · rw [exchange_left, hd (hlt'.trans hp') hlt'.ne]
      exact h.above s.hi le_rfl (hlt'.trans hp')
    · rw [exchange_of_ne hne hlt'.ne', hd hp' hne]
      exact h.above p hlt'.le hp'
  · show exchange s.cols k s.hi lo = j₀
    rw [hbefore hlo]
    exact h.place
  · show update s.d _ _ (exchange s.cols k s.hi p) ≤
      via cost v (update s.d _ _) i j₀ (exchange s.cols k s.hi p)
    rw [h.via_closer hk]
    rcases eq_or_ne p s.hi with rfl | hne
    · rw [exchange_right, Function.update_self]
    · rcases Nat.lt_succ_iff_lt_or_eq.1 hp with hp | rfl
      · rw [exchange_of_ne hp.ne hne, hd (hp.trans hk) hp.ne]
        exact h.passed p hp
      · have hlt' : s.hi < p := lt_of_le_of_ne hhi hne.symm
        rw [exchange_left, hd (hlt'.trans hk) hlt'.ne]
        exact h.passed s.hi hlt'

end Closer

variable [IsStrictOrderedRing K]

/-- **A round of the scan.** -/
theorem Passing.scanColumn {s : Scan K} (hk : k < n)
    (hcheapest : Cheapest cost v (Set.Iio n) i j₀)
    (h : Passing n cost y v start_i n_ready mind lo i j₀ k s) :
    Loop.Post (Passing n cost y v start_i n_ready mind lo i j₀ (k + 1))
      (fun found => Found n cost y v start_i n_ready mind found.1 found.2)
      (scanColumn cost y v i (cost i j₀ - v j₀ - mind) mind s k) := by
  have hcred : cost i (s.cols k) - v (s.cols k) - (cost i j₀ - v j₀ - mind) =
      via cost v s.d i j₀ (s.cols k) := by
    rw [via, h.mind_eq]
    ring
  have hge : mind ≤ via cost v s.d i j₀ (s.cols k) := by
    have hle := hcheapest (s.cols k) (h.arranged.lt hk)
    rw [via, h.mind_eq]
    linarith
  rw [Lapjv.scanColumn]
  dsimp only
  rw [hcred]
  split_ifs with hlt heq hfree
  · exact h.found hk hlt heq hfree
  · exact h.add hk hlt heq hfree
  · exact h.closer hk hlt (lt_of_le_of_ne hge (Ne.symm heq))
  · exact h.skip (not_lt.1 hlt)

/-- The SCAN list is used up. -/
structure Searched (n : ℕ) (cost : ℕ → ℕ → K) (y : ℕ → Option ℕ) (v : ℕ → K) (start_i lo : ℕ)
    (s : Search K) : Prop extends Scanned n cost y v start_i lo lo s where
  sorted : ∀ p < lo, ∀ p', lo ≤ p' → p' < n → s.d (s.cols p) ≤ s.d (s.cols p')

/-- What `_scan_dense` gives back. -/
def ScanEnds (n : ℕ) (cost : ℕ → ℕ → K) (y : ℕ → Option ℕ) (v : ℕ → K) (start_i n_ready : ℕ)
    (mind : K) (result : Option ℕ × Scanning K) : Prop :=
  match result.1 with
  | none => result.2.lo = result.2.hi ∧ n_ready < result.2.lo ∧
      Searched n cost y v start_i result.2.lo result.2.toSearch
  | some j => Found n cost y v start_i n_ready mind j result.2.toSearch

/-- A round: there is nothing to scan, or a column without a row is found, or the SCAN list has a
column less at its start. -/
theorem Exploring.scanRound {x : ℕ → Option ℕ} (hmatched : Matched n cost x y v) {s : Scanning K}
    (h : Exploring n cost y v start_i n_ready mind s.lo s.hi s.toSearch) :
    (∃ result, scanRound n cost y v s = .ok (.inr result) ∧
      ScanEnds n cost y v start_i n_ready mind result) ∨
    ∃ s', scanRound n cost y v s = .ok (.inl s') ∧ ∃ m' < n - s.lo,
      Exploring n cost y v start_i n_ready mind s'.lo s'.hi s'.toSearch ∧ n - s'.lo = m' := by
  rcases h.lo_le.eq_or_lt with heq | hlt
  · refine .inl ⟨(none, s), if_pos heq, heq, heq ▸ h.ready_lt, ?_, fun p hp p' hp' hpn => ?_⟩
    · rw [heq]
      exact heq ▸ h.toScanned
    · exact (h.le (heq ▸ hp)).trans (h.above p' (heq ▸ hp') hpn).le
  · have hlo : s.lo < n := hlt.trans_le h.hi_le
    obtain ⟨i, hi⟩ := Option.ne_none_iff_exists'.1 (h.assigned s.lo hlt)
    have hmind : s.d (s.cols s.lo) = mind := h.level s.lo h.ready_le hlt
    have hcheapest := hmatched.cheapest _ (h.arranged.lt hlo) i hi
    have hstart : Passing n cost y v start_i n_ready mind s.lo i (s.cols s.lo) s.hi s.toScan := by
      refine ⟨h, hlt, le_rfl, rfl, hi, fun p hp => ?_⟩
      have hprices := hcheapest _ (h.arranged.lt (hp.trans_le h.hi_le))
      have hle := h.le hp
      rw [via, hmind]
      linarith
    have hend := Loop.post_range' (n := n - s.hi) hstart fun k scan _ hk hscan =>
      hscan.scanColumn (by omega) hcheapest
    rw [Nat.add_sub_cancel' h.hi_le] at hend
    cases hfold : (List.range' s.hi (n - s.hi)).foldlM (scanColumn cost y v i
        (cost i (s.cols s.lo) - v (s.cols s.lo) - mind) mind) s.toScan with
    | error found =>
      obtain ⟨j, found⟩ := found
      have hround : Lapjv.scanRound n cost y v s =
          .ok (.inr (some j, { s with toSearch := found })) := by
        simp only [Lapjv.scanRound, if_neg hlt.ne, hi, hmind, hfold]
      rw [hfold] at hend
      exact .inl ⟨_, hround, hend⟩
    | ok scan =>
      have hround : Lapjv.scanRound n cost y v s =
          .ok (.inl { toScan := scan, lo := s.lo + 1 }) := by
        simp only [Lapjv.scanRound, if_neg hlt.ne, hi, hmind, hfold]
      rw [hfold] at hend
      obtain ⟨hexploring, hlo', hle, hplace, hrow, hpassed⟩ := hend
      refine .inr ⟨_, hround, n - (s.lo + 1), by omega, ⟨?_, ?_, ?_, ?_, ?_, ?_⟩, rfl⟩
      · refine hexploring.toScanned.succ_lo hlo' fun i' hi' j hj => ?_
        rw [hplace] at hi' ⊢
        obtain rfl := Option.some.inj (hrow.symm.trans hi')
        obtain ⟨p, hp, rfl⟩ := hexploring.arranged.exists_place hj
        exact hpassed p hp
      · exact Nat.le_succ_of_le h.ready_le
      · exact hexploring.ready_lt
      · exact hexploring.below
      · exact hexploring.level
      · exact hexploring.above

omit [IsStrictOrderedRing K] in
/-- **The next distance:** a column without a row is found, or the SCAN list has columns again. -/
theorem Searched.findStep {s : Path K} (h : Searched n cost y v start_i s.lo s.toSearch)
    (heq : s.lo = s.hi) (hlo : s.lo < n) (hnone : s.final_j = none) :
    (findStep n y s).lo = s.lo ∧ (findStep n y s).n_ready = s.lo ∧ ∃ mind,
      ((findStep n y s).final_j = none ∧ Exploring n cost y v start_i s.lo mind s.lo
        (findStep n y s).hi (findStep n y s).toSearch ∨
      ∃ j, (findStep n y s).final_j = some j ∧
        Found n cost y v start_i s.lo mind j (findStep n y s).toSearch) := by
  have hnearest := nearest_find_dense (d := s.d) hlo h.arranged
  have hfinal := foldl_final y (find_dense n s.lo s.d s.cols).cols hnearest.lo_lt.le
  have hfind : Lapjv.findStep n y s = { s with
      n_ready := s.lo
      hi := (find_dense n s.lo s.d s.cols).hi
      cols := (find_dense n s.lo s.d s.cols).cols
      final_j := (List.range' s.lo ((find_dense n s.lo s.d s.cols).hi - s.lo)).foldl
        (fun final_j k =>
          if y ((find_dense n s.lo s.d s.cols).cols k) = none then
            some ((find_dense n s.lo s.d s.cols).cols k)
          else final_j) none } := by
    rw [Lapjv.findStep, if_pos heq, hnone]
  rw [hfind]
  generalize find_dense n s.lo s.d s.cols = found at hnearest hfinal
  have hscanned := h.toScanned.rearrange hnearest.arranged hnearest.before
  have hbelow : ∀ p < s.lo, s.d (found.cols p) ≤ found.mind := by
    intro p hp
    obtain ⟨p', hp', hpn, hplace⟩ :=
      h.arranged.exists_place_ge hnearest.arranged hnearest.before le_rfl hlo
    rw [hnearest.before p hp, ← hnearest.near s.lo le_rfl hnearest.lo_lt, ← hplace]
    exact h.sorted p hp p' hp' hpn
  refine ⟨rfl, rfl, found.mind, ?_⟩
  rcases hfinal with ⟨hnone', hassigned⟩ | ⟨p, hp, hphi, hsome, hfree⟩
  · exact .inl ⟨hnone', hscanned.of_assigned hnearest.lo_lt.le hnearest.hi_le hassigned, le_rfl,
      hnearest.lo_lt, hbelow, hnearest.near, hnearest.far⟩
  · refine .inr ⟨_, hsome, ⟨s.lo, hscanned⟩, hbelow, fun p' hp' hpn => ?_,
      hnearest.near s.lo le_rfl hnearest.lo_lt, hnearest.arranged.lt (hphi.trans_le hnearest.hi_le),
      hfree, hnearest.near p hp hphi⟩
    rcases lt_or_ge p' found.hi with hlt | hge
    · exact (hnearest.near p' hp' hlt).ge
    · exact (hnearest.far p' hge hpn).le

/-- At the head of the loop of a search, with the number of rounds that may be left. -/
def Searching (n : ℕ) (cost : ℕ → ℕ → K) (y : ℕ → Option ℕ) (v : ℕ → K) (start_i m : ℕ)
    (s : Path K) : Prop :=
  (s.final_j = none ∧ s.lo = s.hi ∧ Searched n cost y v start_i s.lo s.toSearch ∧
      n - s.lo + 1 = m) ∨
    ∃ j mind, s.final_j = some j ∧ s.lo = s.n_ready ∧
      Found n cost y v start_i s.n_ready mind j s.toSearch ∧ 0 = m

theorem Exploring.scanStep {x : ℕ → Option ℕ} (hmatched : Matched n cost x y v) {s : Path K}
    (h : Exploring n cost y v start_i s.n_ready mind s.lo s.hi s.toSearch) (hlo : s.lo = s.n_ready)
    (hnone : s.final_j = none) {fuel : ℕ} (hfuel : n < fuel) :
    ∃ s', scanStep n cost y v fuel s = .ok s' ∧ ∃ m < n - s.lo + 1,
      Searching n cost y v start_i m s' := by
  obtain ⟨result, hloop, hend⟩ := Whiles.exists_loop_eq_ok
    (I := fun m (scanning : Scanning K) =>
      Exploring n cost y v start_i s.n_ready mind scanning.lo scanning.hi scanning.toSearch ∧
        n - scanning.lo = m)
    (Q := ScanEnds n cost y v start_i s.n_ready mind)
    (by
      rintro _ scanning ⟨hscanning, rfl⟩
      exact hscanning.scanRound hmatched)
    (s := { toSearch := s.toSearch, hi := s.hi, lo := s.lo }) ⟨h, rfl⟩
    (lt_of_le_of_lt (Nat.sub_le _ _) hfuel)
  obtain ⟨_ | j, scanned⟩ := result
  · obtain ⟨heq, hless, hsearched⟩ := hend
    refine ⟨_, Loop.bind_eq_ok.2 ⟨_, hloop, rfl⟩, n - scanned.lo + 1, ?_,
      .inl ⟨hnone, heq, hsearched, rfl⟩⟩
    have hle : scanned.lo ≤ n := hsearched.hi_le
    dsimp only at hless
    omega
  · exact ⟨_, Loop.bind_eq_ok.2 ⟨_, hloop, rfl⟩, 0, Nat.succ_pos _,
      .inr ⟨j, mind, rfl, hlo, hend, rfl⟩⟩

omit [IsStrictOrderedRing K] in
/-- A row without a column leaves a column without a row. -/
theorem Searched.lo_lt {x : ℕ → Option ℕ} (hmatched : Matched n cost x y v) {s : Search K}
    (h : Searched n cost y v start_i lo s) (hfree : Free n y start_i) : lo < n := by
  refine lt_of_le_of_ne h.hi_le fun heq => ?_
  have hall : ∀ j < n, ∃ i, y j = some i := by
    intro j hj
    obtain ⟨p, hp, rfl⟩ := h.arranged.exists_place hj
    exact Option.ne_none_iff_exists'.1 (h.assigned p (heq ▸ hp))
  have hsurj : Set.SurjOn (fun j => (y j).getD 0) (Finset.range n) (Finset.range n) := by
    refine Finset.surjOn_of_injOn_of_card_le _ (fun j hj => ?_) (fun j hj j' hj' heq => ?_) le_rfl
    · obtain ⟨i, hi⟩ := hall j (Finset.mem_range.1 hj)
      rw [hi]
      exact Finset.mem_coe.2 (Finset.mem_range.2 (hmatched.row_lt j (Finset.mem_range.1 hj) i hi))
    · obtain ⟨i, hi⟩ := hall j (Finset.mem_range.1 hj)
      obtain ⟨i', hi'⟩ := hall j' (Finset.mem_range.1 hj')
      rw [hi, hi', Option.getD_some, Option.getD_some] at heq
      exact hmatched.injective (Finset.mem_range.1 hj) (Finset.mem_range.1 hj') hi (heq ▸ hi')
  obtain ⟨j, hj, hj'⟩ := hsurj (Finset.mem_coe.2 (Finset.mem_range.2 hfree.1))
  obtain ⟨i, hi⟩ := hall j (Finset.mem_range.1 hj)
  dsimp only at hj'
  rw [hi, Option.getD_some] at hj'
  exact hfree.2 j (Finset.mem_range.1 hj) (hj' ▸ hi)

/-- **A round of a search.** -/
theorem Searching.pathRound {x : ℕ → Option ℕ} (hmatched : Matched n cost x y v)
    (hfree : Free n y start_i) {fuel m : ℕ} (hfuel : n < fuel) {s : Path K}
    (h : Searching n cost y v start_i m s) :
    (∃ result, pathRound n cost y v fuel s = .ok (.inr result) ∧
      ∃ mind, result.2.lo = result.2.n_ready ∧
        Found n cost y v start_i result.2.n_ready mind result.1 result.2.toSearch) ∨
    ∃ s', pathRound n cost y v fuel s = .ok (.inl s') ∧ ∃ m' < m,
      Searching n cost y v start_i m' s' := by
  rcases h with ⟨hnone, heq, hsearched, rfl⟩ | ⟨j, mind, hsome, hlo, hfound, rfl⟩
  · obtain ⟨hlo', hready, mind, hcases⟩ :=
      hsearched.findStep heq (hsearched.lo_lt hmatched hfree) hnone
    rw [Lapjv.pathRound, hnone]
    dsimp only
    generalize Lapjv.findStep n y s = s' at hlo' hready hcases
    right
    rcases hcases with ⟨hnone', hexploring⟩ | ⟨j, hsome, hfound⟩
    · have hexploring' :
          Exploring n cost y v start_i s'.n_ready mind s'.lo s'.hi s'.toSearch := by
        rwa [hready, hlo']
      rw [if_pos hnone']
      obtain ⟨s'', hscan, m, hm, hsearching⟩ :=
        hexploring'.scanStep hmatched (hlo'.trans hready.symm) hnone' hfuel
      exact ⟨s'', Loop.bind_eq_ok.2 ⟨s'', hscan, rfl⟩, m, hlo' ▸ hm, hsearching⟩
    · rw [if_neg (by rw [hsome]; exact Option.some_ne_none j)]
      rw [← hready] at hfound
      exact ⟨s', rfl, 0, Nat.succ_pos _,
        .inr ⟨j, mind, hsome, hlo'.trans hready.symm, hfound, rfl⟩⟩
  · rw [Lapjv.pathRound, hsome]
    exact .inl ⟨(j, s), rfl, mind, hlo, hfound⟩

end Scan

end DepthaiCore.Lapjv
