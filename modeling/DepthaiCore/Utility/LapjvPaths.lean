import DepthaiCore.Utility.LapjvSearch

/-!
# The shortest augmenting paths of the assignment solver

When a search has found a column without a row, the columns that are closer get cheaper, and along
the path each row goes on to the next column. The free row gets the first one.
-/

namespace DepthaiCore.Lapjv

open Function (update)
open Assignment (Cheapest Distances lowered)

/-! ### Augmenting paths -/

section Augmenting

variable {K : Type} [Field K] [LinearOrder K] {n : ℕ} {cost : ℕ → ℕ → K} {x y : ℕ → Option ℕ}
  {v v' : ℕ → K} {start_i n_ready : ℕ} {mind : K} {final_j : ℕ} {s : Search K}

omit [LinearOrder K] in
theorem foldl_prices {cols : ℕ → ℕ} (h : Arranged n cols) (v g : ℕ → K) {m : ℕ} (hm : m ≤ n) :
    ∀ p < n, (List.range m).foldl (fun v k => update v (cols k) (v (cols k) + g (cols k))) v
      (cols p) = if p < m then v (cols p) + g (cols p) else v (cols p) := by
  refine Loop.foldl_range
    (I := fun k (v' : ℕ → K) =>
      ∀ p < n, v' (cols p) = if p < k then v (cols p) + g (cols p) else v (cols p))
    (fun p _ => (if_neg (Nat.not_lt_zero p)).symm) fun k hk v' hv p hp => ?_
  rcases eq_or_ne p k with rfl | hne
  · rw [Function.update_self, hv p hp, if_neg (lt_irrefl p), if_pos (Nat.lt_succ_self p)]
  · rw [Function.update_of_ne (h.ne hp (hk.trans_le hm) hne), hv p hp]
    have hiff : p < k ↔ p < k + 1 := by omega
    exact if_congr hiff rfl rfl

theorem Found.n_ready_le (h : Found n cost y v start_i n_ready mind final_j s) : n_ready ≤ n := by
  obtain ⟨hi, hscanned⟩ := h.scanned
  exact hscanned.lo_le.trans hscanned.hi_le

theorem Found.arranged (h : Found n cost y v start_i n_ready mind final_j s) :
    Arranged n s.cols := by
  obtain ⟨hi, hscanned⟩ := h.scanned
  exact hscanned.arranged

/-- The distances within the radius of the column that is found are final. -/
theorem Found.distances (h : Found n cost y v start_i n_ready mind final_j s) :
    Distances cost v (Set.Iio n) y start_i s.d mind := by
  obtain ⟨hi, hscanned⟩ := h.scanned
  refine ⟨hscanned.start_le, fun j₀ hj₀ hlt i hi j hj => ?_⟩
  obtain ⟨p, hp, rfl⟩ := hscanned.arranged.exists_place hj₀
  have hready : p < n_ready := by
    by_contra hge
    exact absurd (h.above p (not_lt.1 hge) hp) hlt.not_ge
  exact hscanned.step_le p hready i hi j hj

variable [IsStrictOrderedRing K]

/-- **A search ends at a column without a row**, and lowers the prices of those that are closer. -/
theorem find_path_dense_spec (hmatched : Matched n cost x y v) (hfree : Free n y start_i)
    {fuel : ℕ} (hfuel : n + 1 < fuel) :
    ∃ (final_j n_ready : ℕ) (v' : ℕ → K) (s : Search K) (mind : K),
      find_path_dense n cost y v fuel start_i = .ok (final_j, v', s.pred) ∧
      Found n cost y v start_i n_ready mind final_j s ∧
      ∀ j < n, v' j = lowered v s.d mind j := by
  have hstart : Searching n cost y v start_i (n + 1)
      { cols := fun i => i
        pred := fun _ => start_i
        d := fun i => cost start_i i - v i
        lo := 0
        hi := 0
        n_ready := 0
        final_j := none } := by
    refine .inl ⟨rfl, rfl, ⟨⟨le_rfl, Nat.zero_le n, Set.bijOn_id _, fun j _ => le_rfl, nofun,
      fun p _ => .inl ⟨rfl, rfl⟩, nofun⟩, nofun⟩, rfl⟩
  obtain ⟨⟨final_j, s⟩, hloop, mind, hlo, hfound⟩ := Whiles.exists_loop_eq_ok
    (fun m s hs => Searching.pathRound hmatched hfree (Nat.lt_of_succ_lt hfuel) hs) hstart hfuel
  dsimp only at hlo hfound
  refine ⟨final_j, s.n_ready, _, s.toSearch, mind, Loop.bind_eq_ok.2 ⟨_, hloop, rfl⟩, hfound,
    fun j hj => ?_⟩
  obtain ⟨p, hp, rfl⟩ := hfound.arranged.exists_place hj
  have hprices := foldl_prices hfound.arranged v (fun j => s.d j - mind) hfound.n_ready_le p hp
  rw [hlo, hfound.mind_eq, hprices, lowered]
  split_ifs with hlt
  · rw [min_eq_left (hfound.below p hlt)]
  · rw [min_eq_right (hfound.above p (not_lt.1 hlt) hp), sub_self, add_zero]

/-- The rows on a shortest path may have its columns, at the new prices. -/
theorem Found.path (hmatched : Matched n cost x y v)
    (h : Found n cost y v start_i n_ready mind final_j s) {p : ℕ} (hp : p < n)
    (hd : s.d (s.cols p) ≤ mind) :
    Cheapest cost (lowered v s.d mind) (Set.Iio n) (s.pred (s.cols p)) (s.cols p) ∧
      (s.pred (s.cols p) = start_i ∨
        ∃ q < p, s.d (s.cols q) ≤ mind ∧ y (s.cols q) = some (s.pred (s.cols p))) := by
  obtain ⟨hi, hscanned⟩ := h.scanned
  rcases hscanned.reached p hp with ⟨hpred, hstart⟩ | ⟨q, hq, -, hrow, hstep⟩
  · rw [hpred]
    exact ⟨h.distances.cheapest_start hd hstart, .inl rfl⟩
  · have hlt := h.arranged.lt (hq.trans hp)
    have hcheapest := hmatched.cheapest _ hlt _ hrow
    have hle : s.d (s.cols q) ≤ s.d (s.cols p) := by
      have hprices := hcheapest _ (h.arranged.lt hp)
      rw [via] at hstep
      linarith
    exact ⟨h.distances.cheapest_next hlt hrow hcheapest hle hd hstep,
      .inr ⟨q, hq, hle.trans hd, hrow⟩⟩

namespace Matched

omit [IsStrictOrderedRing K] in
/-- Other prices, at which the rows keep their columns. -/
theorem of_cheapest (h : Matched n cost x y v)
    (hcheapest : ∀ j < n, ∀ i, y j = some i → Cheapest cost v' (Set.Iio n) i j) :
    Matched n cost x y v' :=
  ⟨h.row_lt, h.x_eq, hcheapest⟩

theorem congr (h : Matched n cost x y v) (hv : ∀ j < n, v' j = v j) : Matched n cost x y v' :=
  h.of_cheapest fun j hj i hi =>
    (h.cheapest j hj i hi).mono (hv j hj) fun j' hj' => (hv j' hj').le

omit [IsStrictOrderedRing K] in
theorem unassign (h : Matched n cost x y v) (j : ℕ) : Matched n cost x (update y j none) v := by
  have hold {j' i : ℕ} (hy : update y j none j' = some i) : y j' = some i := by
    rw [Function.update_apply] at hy
    split_ifs at hy
    exact hy
  exact ⟨fun j' hj' i hi => h.row_lt j' hj' i (hold hi),
    fun j' hj' i hi => h.x_eq j' hj' i (hold hi),
    fun j' hj' i hi => h.cheapest j' hj' i (hold hi)⟩

omit [IsStrictOrderedRing K] in
theorem free_unassign (h : Matched n cost x y v) {i j : ℕ} (hj : j < n) (hi : y j = some i)
    (i' : ℕ) : Free n (update y j none) i' ↔ Free n y i' ∨ i' = i := by
  constructor
  · rintro ⟨hlt, hnone⟩
    refine or_iff_not_imp_right.2 fun hne => ⟨hlt, fun j' hj' hy => ?_⟩
    have hne' : j' ≠ j := by
      rintro rfl
      exact hne (Option.some.inj (hy.symm.trans hi))
    exact hnone j' hj' ((Function.update_of_ne hne' ..).trans hy)
  · have hother {j' : ℕ} (hy : j' ≠ j → y j' ≠ some i') : update y j none j' ≠ some i' := by
      rw [Function.update_apply]
      split_ifs with heq
      · exact nofun
      · exact hy heq
    rintro (⟨hlt, hnone⟩ | rfl)
    · exact ⟨hlt, fun j' hj' => hother fun _ => hnone j' hj'⟩
    · exact ⟨h.row_lt j hj i' hi, fun j' hj' => hother fun hne hy =>
        hne (h.injective hj' hj hy hi)⟩

omit [IsStrictOrderedRing K] in
theorem move (h : Matched n cost x y v) {i j j' : ℕ} (hj : j < n) (hj' : j' < n)
    (hi : y j = some i) (hnone : y j' = none) (hcheapest : Cheapest cost v (Set.Iio n) i j') :
    Matched n cost (update x i (some j')) (update (update y j none) j' (some i)) v ∧
      ∀ i', Free n (update (update y j none) j' (some i)) i' ↔ Free n y i' := by
  have hfree : Free n (update y j none) i := (h.free_unassign hj hi i).2 (.inr rfl)
  have hne : j' ≠ j := by
    rintro rfl
    rw [hnone] at hi
    cases hi
  refine ⟨(h.unassign j).assign hfree hcheapest fun k hk _ => (h.unassign j).cheapest k hk,
    fun i' => ?_⟩
  rw [(h.unassign j).free_assign hfree hj', h.free_unassign hj hi, Function.update_of_ne hne, hnone]
  constructor
  · rintro (⟨hor, hne'⟩ | hsome)
    · exact hor.resolve_right hne'
    · cases hsome
  · intro hi'
    refine .inl ⟨.inl hi', ?_⟩
    rintro rfl
    exact hi'.2 j hj hi

end Matched

/-- Along the path, the column at place `p` is to get a row. Without its old row, the assignment is
as good as it was. -/
structure Tracing (n : ℕ) (cost : ℕ → ℕ → K) (y : ℕ → Option ℕ) (v' : ℕ → K) (start_i : ℕ)
    (mind : K) (s : Search K) (p : ℕ) (a : Augmenting) : Prop where
  lt : p < n
  near : s.d (s.cols p) ≤ mind
  column : a.j = some (s.cols p)
  row_ne : a.i ≠ some start_i
  matched : Matched n cost a.x (update a.y (s.cols p) none) v'
  free_iff : ∀ i, Free n (update a.y (s.cols p) none) i ↔ Free n y i
  before : ∀ q < p, a.y (s.cols q) = y (s.cols q)

/-- The free row has a column. -/
structure Augmented (n : ℕ) (cost : ℕ → ℕ → K) (y : ℕ → Option ℕ) (v' : ℕ → K) (start_i : ℕ)
    (a : Augmenting) : Prop where
  row : a.i = some start_i
  matched : Matched n cost a.x a.y v'
  free_iff : ∀ i, Free n a.y i ↔ Free n y i ∧ i ≠ start_i

/-- **A round along the path.** -/
theorem Tracing.augmentRound (hmatched : Matched n cost x y v) (hfree : Free n y start_i)
    (hfound : Found n cost y v start_i n_ready mind final_j s) {p : ℕ} {a : Augmenting}
    (h : Tracing n cost y (lowered v s.d mind) start_i mind s p a) :
    ∃ a', augmentRound s.pred start_i a = .ok (.inl a') ∧
      (Augmented n cost y (lowered v s.d mind) start_i a' ∨
        ∃ q < p, Tracing n cost y (lowered v s.d mind) start_i mind s q a') := by
  obtain ⟨hcheapest, hcases⟩ := hfound.path hmatched h.lt h.near
  have hplace : s.cols p < n := hfound.arranged.lt h.lt
  have hround : Lapjv.augmentRound s.pred start_i a = .ok (.inl ⟨some (s.pred (s.cols p)),
      a.x (s.pred (s.cols p)), update a.x (s.pred (s.cols p)) (some (s.cols p)),
      update a.y (s.cols p) (some (s.pred (s.cols p)))⟩) := by
    rw [Lapjv.augmentRound, if_neg h.row_ne]
    simp only [h.column]
  refine ⟨_, hround, ?_⟩
  generalize s.pred (s.cols p) = i at hcheapest hcases
  rcases hcases with rfl | ⟨q, hq, hnear, hrow⟩
  · -- The path begins here.
    have hfree' := (h.free_iff i).2 hfree
    have hassign := h.matched.assign hfree' hcheapest fun j' hj' _ => h.matched.cheapest j' hj'
    rw [Function.update_idem] at hassign
    refine .inl ⟨rfl, hassign, fun i' => ?_⟩
    have hiff := h.matched.free_assign hfree' hplace i'
    rw [Function.update_idem, Function.update_self, h.free_iff] at hiff
    exact hiff.trans (or_iff_left nofun)
  · -- The row had the column at an earlier place.
    have hq' : q < n := hq.trans h.lt
    have hne : s.cols q ≠ s.cols p := hfound.arranged.ne hq' h.lt hq.ne
    have hold : update a.y (s.cols p) none (s.cols q) = some i := by
      rw [Function.update_of_ne hne, h.before q hq]
      exact hrow
    obtain ⟨hmove, hiff⟩ := h.matched.move (hfound.arranged.lt hq') hplace hold
      (Function.update_self ..) hcheapest
    have hy : update (update (update a.y (s.cols p) none) (s.cols q) none) (s.cols p) (some i) =
        update (update a.y (s.cols p) (some i)) (s.cols q) none := by
      rw [Function.update_comm hne.symm, Function.update_idem, Function.update_comm hne.symm]
    rw [hy] at hmove hiff
    have hx := h.matched.x_eq _ (hfound.arranged.lt hq') i hold
    refine .inr ⟨q, hq, hq', hnear, hx, ?_, hmove, fun i' => (hiff i').trans (h.free_iff i'),
      fun q' hq'' => ?_⟩
    · intro heq
      exact hfree.2 _ (hfound.arranged.lt hq') (Option.some.inj heq ▸ hrow)
    · exact (Function.update_of_ne (hfound.arranged.ne (hq''.trans hq') h.lt
        (hq''.trans hq).ne) ..).trans (h.before q' (hq''.trans hq))

/-- **A free row gets a column**, and no row loses its own. -/
theorem augmentRow_spec {a : Arrays K} (hmatched : Matched n cost a.x a.y a.v) {k : ℕ}
    (hfree : Free n a.y (a.free_rows k)) {fuel : ℕ} (hfuel : n + 1 < fuel) :
    ∃ a', augmentRow n cost fuel a k = .ok a' ∧ Matched n cost a'.x a'.y a'.v ∧
      (∀ i, Free n a'.y i ↔ Free n a.y i ∧ i ≠ a.free_rows k) ∧
      a'.free_rows = a.free_rows ∧ a'.n_free_rows = a.n_free_rows := by
  obtain ⟨final_j, n_ready, v', s, mind, hfind, hfound, hv⟩ :=
    find_path_dense_spec hmatched hfree hfuel
  obtain ⟨p, hp, hplace⟩ := hfound.arranged.exists_place hfound.final_lt
  have hsame : update a.y (s.cols p) none = a.y := by
    rw [hplace, ← hfound.final_free]
    exact Function.update_eq_self ..
  have hkeep : Matched n cost a.x a.y (lowered a.v s.d mind) := hmatched.of_cheapest
    fun j hj i hi => hfound.distances.cheapest_assigned hj hi (hmatched.cheapest j hj i hi)
  have hstart : Tracing n cost a.y (lowered a.v s.d mind) (a.free_rows k) mind s p
      ⟨none, some final_j, a.x, a.y⟩ := by
    refine ⟨hp, ?_, congrArg some hplace.symm, nofun, ?_, fun i => ?_, fun _ _ => rfl⟩
    · rw [hplace, hfound.final_eq]
    · rwa [hsame]
    · rw [hsame]
  -- The place in `cols` bounds the rounds that are left.
  let I (m : ℕ) (b : Augmenting) : Prop :=
    Augmented n cost a.y (lowered a.v s.d mind) (a.free_rows k) b ∧ m = 0 ∨
      ∃ p, Tracing n cost a.y (lowered a.v s.d mind) (a.free_rows k) mind s p b ∧ p + 1 = m
  have hstep (m : ℕ) (b : Augmenting) (hb : I m b) :
      (∃ b', augmentRound s.pred (a.free_rows k) b = .ok (.inr b') ∧
        Augmented n cost a.y (lowered a.v s.d mind) (a.free_rows k) b') ∨
      ∃ b', augmentRound s.pred (a.free_rows k) b = .ok (.inl b') ∧ ∃ m' < m, I m' b' := by
    rcases hb with ⟨hdone, -⟩ | ⟨p, htracing, rfl⟩
    · exact .inl ⟨b, if_pos hdone.row, hdone⟩
    · obtain ⟨b', hround, hdone | ⟨q, hq, hnext⟩⟩ := htracing.augmentRound hmatched hfree hfound
      · exact .inr ⟨b', hround, 0, Nat.succ_pos p, .inl ⟨hdone, rfl⟩⟩
      · exact .inr ⟨b', hround, q + 1, Nat.succ_lt_succ hq, .inr ⟨q, hnext, rfl⟩⟩
  obtain ⟨b, hloop, haugmented⟩ := Whiles.exists_loop_eq_ok hstep
    (.inr ⟨p, hstart, rfl⟩) ((Nat.succ_lt_succ hp).trans hfuel)
  refine ⟨{ a with x := b.x, y := b.y, v := v' }, ?_, ?_, haugmented.free_iff, rfl, rfl⟩
  · rw [augmentRow]
    dsimp only
    rw [hfind, Loop.ok_bind]
    exact Loop.bind_eq_ok.2 ⟨b, hloop, rfl⟩
  · exact haugmented.matched.congr hv

end Augmenting

/-! ### The solver -/

section Solver

variable {K : Type} [Field K] [LinearOrder K] [IsStrictOrderedRing K] {large : K} {n : ℕ}
  {cost : ℕ → ℕ → K}

/-- **The third part ends, and then no row is free.** -/
theorem ca_dense_spec {a : Arrays K} (ha : Ready n cost a) {fuel : ℕ} (hfuel : n + 1 < fuel) :
    ∃ a', ca_dense n cost fuel a = .ok a' ∧ Matched n cost a'.x a'.y a'.v ∧
      ∀ i, ¬Free n a'.y i := by
  obtain ⟨a', hloop, hmatched, hfree, -⟩ := Loop.exists_foldlM_range_eq_ok (n := a.n_free_rows)
    (f := augmentRow n cost fuel) (s := a)
    (I := fun k a' => Matched n cost a'.x a'.y a'.v ∧
      FreeRows n a'.y ((List.range' k (a.n_free_rows - k)).map a.free_rows) ∧
      a'.free_rows = a.free_rows) (by
        refine ⟨ha.matched, ?_, rfl⟩
        rw [Nat.sub_zero, ← List.range_eq_range']
        exact ha.free) (by
        rintro k hk b ⟨hmatched, hfree, hrows⟩
        have hrange : List.range' k (a.n_free_rows - k) =
            k :: List.range' (k + 1) (a.n_free_rows - (k + 1)) := by
          rw [← List.range'_succ]
          congr 1
          omega
        rw [hrange, List.map_cons] at hfree
        have hk' : Free n b.y (b.free_rows k) := by
          rw [hrows]
          exact (hfree.mem_iff _).1 List.mem_cons_self
        obtain ⟨b', hb, hmatched', hfree', hrows', -⟩ := augmentRow_spec hmatched hk' hfuel
        refine ⟨b', hb, hmatched', ⟨hfree.nodup.of_cons, fun i => ?_⟩, hrows'.trans hrows⟩
        rw [hfree' i, ← hfree.mem_iff, hrows, List.mem_cons]
        constructor
        · intro hi
          refine ⟨.inr hi, ?_⟩
          rintro rfl
          exact (List.nodup_cons.1 hfree.nodup).1 hi
        · rintro ⟨hi, hne⟩
          exact hi.resolve_left hne)
  refine ⟨a', hloop, hmatched, fun i hi => ?_⟩
  rw [Nat.sub_self, List.range'_zero, List.map_nil] at hfree
  exact List.not_mem_nil ((hfree.mem_iff i).2 hi)

/-- **The solver ends**: every row has a column, and it is the cheapest at some prices. -/
theorem lapjv_internal_spec (large : K) (hn : 0 < n) (cost : ℕ → ℕ → K) {fuel : ℕ}
    (hfuel : n + n * n + 1 < fuel) :
    ∃ x y v, lapjv_internal large n cost fuel = .ok (0, x, y) ∧ Matched n cost x y v ∧
      ∀ i, ¬Free n y i := by
  have hround (a : Arrays K) (ha : Ready n cost a) : ∃ a',
      (if 0 < a.n_free_rows then carr_dense large n cost fuel a else .ok a) = .ok a' ∧
        Ready n cost a' := by
    split_ifs with hsome
    · exact carr_dense_ready hn ha (Nat.lt_of_succ_lt hfuel)
    · exact ⟨a, rfl, ha⟩
  obtain ⟨a, hloop, ha⟩ := Loop.exists_foldlM_range_eq_ok (n := 2) (I := fun _ => Ready n cost)
    (f := fun a _ => if 0 < a.n_free_rows then carr_dense large n cost fuel a else .ok a)
    ccrrt_dense_ready fun _ _ a ha => hround a ha
  rw [lapjv_internal, hloop, Loop.ok_bind]
  split_ifs with hsome
  · have hfuel' : n + 1 < fuel := by omega
    obtain ⟨a', hca, hmatched, hfree⟩ := ca_dense_spec ha hfuel'
    exact ⟨a'.x, a'.y, a'.v, Loop.bind_eq_ok.2 ⟨a', hca, rfl⟩, hmatched, hfree⟩
  · refine ⟨a.x, a.y, a.v, ?_, ha.matched, fun i hi => ?_⟩
    · show (.ok (a.n_free_rows, a.x, a.y) : Except (Stop Fault) _) = .ok (0, a.x, a.y)
      rw [Nat.eq_zero_of_not_pos hsome]
    · have hfree := ha.free
      rw [Nat.eq_zero_of_not_pos hsome, List.range_zero, List.map_nil] at hfree
      exact List.not_mem_nil ((hfree.mem_iff i).2 hi)

end Solver

end DepthaiCore.Lapjv
