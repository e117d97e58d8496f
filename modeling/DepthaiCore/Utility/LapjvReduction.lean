import DepthaiCore.Lib.Assignment
import DepthaiCore.Utility.Lapjv

/-!
# The reductions of the assignment solver

The solver keeps a partial assignment and prices of the columns. Every row that has a column has the
cheapest one. The column reduction establishes this, and the augmenting row reduction keeps it: it
lowers the price of the column that a row gets until another one is as cheap.
-/

namespace DepthaiCore.Lapjv

open Function (update)
open Assignment (Cheapest)

/-! ### The minima of the columns -/

section Columns

variable {K : Type} [LinearOrder K] {n : ℕ} {cost : ℕ → ℕ → K}

/-- A column after the first `m` rows. -/
def Least (cost : ℕ → ℕ → K) (m : ℕ) (s : Minima K) (j : ℕ) : Prop :=
  (∀ i < m, s.v j ≤ cost i j) ∧
    (m = 0 ∧ s.v j = ⊤ ∨ ∃ i < m, s.y j = some i ∧ s.v j = cost i j)

theorem reduceColumn_of_ne {i j j' : ℕ} {s : Minima K} (hne : j' ≠ j) :
    (reduceColumn cost i s j).v j' = s.v j' ∧ (reduceColumn cost i s j).y j' = s.y j' := by
  rw [reduceColumn]
  split_ifs
  · exact ⟨Function.update_of_ne hne .., Function.update_of_ne hne ..⟩
  · exact ⟨rfl, rfl⟩

theorem least_reduceColumn {m j : ℕ} {s : Minima K} (h : Least cost m s j) :
    Least cost (m + 1) (reduceColumn cost m s j) j := by
  obtain ⟨hle, hattained⟩ := h
  rw [reduceColumn]
  split_ifs with hlt
  · have hv : update s.v j (cost m j : WithTop K) j = cost m j := Function.update_self ..
    refine ⟨fun i hi => ?_, .inr ⟨m, Nat.lt_succ_self m, Function.update_self .., hv⟩⟩
    refine hv.le.trans ?_
    rcases Nat.lt_succ_iff_lt_or_eq.1 hi with hi | rfl
    · exact hlt.le.trans (hle i hi)
    · exact le_rfl
  · have hge : s.v j ≤ cost m j := not_lt.1 hlt
    refine ⟨fun i hi => ?_, .inr ?_⟩
    · rcases Nat.lt_succ_iff_lt_or_eq.1 hi with hi | rfl
      · exact hle i hi
      · exact hge
    · rcases hattained with ⟨-, htop⟩ | ⟨i, hi, hattained⟩
      · rw [htop, top_le_iff] at hge
        exact absurd hge (WithTop.coe_ne_top)
      · exact ⟨i, Nat.lt_succ_of_lt hi, hattained⟩

theorem Least.reduceColumn {m j k : ℕ} {s : Minima K} (h : Least cost m s j) (i : ℕ) (hne : j ≠ k) :
    Least cost m (reduceColumn cost i s k) j := by
  obtain ⟨hv, hy⟩ : (Lapjv.reduceColumn cost i s k).v j = s.v j ∧
      (Lapjv.reduceColumn cost i s k).y j = s.y j := reduceColumn_of_ne hne
  rw [Least, hv, hy]
  exact h

/-- **The first loop finds the minima of the columns.** -/
theorem least_columnMinima (cost : ℕ → ℕ → K) {j : ℕ} (hj : j < n) :
    Least cost n (columnMinima n cost) j := by
  suffices hrows : ∀ j < n, Least cost n (columnMinima n cost) j from hrows j hj
  rw [columnMinima]
  refine Loop.foldl_range (I := fun m s => ∀ j < n, Least cost m s j) ?_ fun m _ s hs => ?_
  · exact fun j _ => ⟨nofun, .inl ⟨rfl, rfl⟩⟩
  · -- The columns below `k` have seen row `m`, the others have not.
    have hrow := Loop.foldl_range (g := reduceColumn cost m) (s := s) (n := n)
      (I := fun k s => (∀ j < k, Least cost (m + 1) s j) ∧ ∀ j < n, k ≤ j → Least cost m s j)
      ⟨nofun, fun j hj _ => hs j hj⟩ ?_
    · exact hrow.1
    · rintro k hk s ⟨hdone, htodo⟩
      refine ⟨fun j hj => ?_, fun j hj hkj => ?_⟩
      · rcases Nat.lt_succ_iff_lt_or_eq.1 hj with hj | rfl
        · exact (hdone j hj).reduceColumn m hj.ne
        · exact least_reduceColumn (htodo j hk le_rfl)
      · exact (htodo j hj (Nat.le_of_succ_le hkj)).reduceColumn m (Nat.lt_of_succ_le hkj).ne'

end Columns

/-! ### The free rows of a row reduction -/

section Rows

theorem map_range_succ_update (f : ℕ → ℕ) (m i : ℕ) :
    (List.range (m + 1)).map (update f m i) = (List.range m).map f ++ [i] := by
  rw [List.range_succ, List.map_append, List.map_singleton, Function.update_self]
  refine congrArg (· ++ [i]) (List.map_congr_left fun k hk => ?_)
  exact Function.update_of_ne (List.mem_range.1 hk).ne ..

variable {K : Type} {s : RowReduction K} {n_free_rows : ℕ}

/-- The free rows of a row reduction: those for the next one, and those that are left. -/
def RowReduction.rows (n_free_rows : ℕ) (s : RowReduction K) : List ℕ :=
  (List.range s.new_free_rows).map s.free_rows ++
    (List.range' s.current (n_free_rows - s.current)).map s.free_rows

theorem rows_eq (hlt : s.current < n_free_rows) :
    (s.rows n_free_rows).Perm (s.free_rows s.current ::
      ({ s with current := s.current + 1 } : RowReduction K).rows n_free_rows) := by
  have hrange : List.range' s.current (n_free_rows - s.current) =
      s.current :: List.range' (s.current + 1) (n_free_rows - (s.current + 1)) := by
    rw [← List.range'_succ]
    congr 1
    omega
  rw [RowReduction.rows, RowReduction.rows, hrange, List.map_cons]
  exact List.perm_middle

theorem rows_release (hle : s.new_free_rows < s.current) (i₀ : Option ℕ) :
    ((s.release i₀).rows n_free_rows).Perm (i₀.toList ++ s.rows n_free_rows) := by
  cases i₀ with
  | none => exact .refl _
  | some i₀ =>
    have hrest : (List.range' s.current (n_free_rows - s.current)).map
        (update s.free_rows s.new_free_rows i₀) =
        (List.range' s.current (n_free_rows - s.current)).map s.free_rows := by
      refine List.map_congr_left fun k hk => Function.update_of_ne ?_ ..
      have hk' := (List.mem_range'_1.1 hk).1
      omega
    rw [RowReduction.rows, RowReduction.rows]
    dsimp only [RowReduction.release]
    rw [map_range_succ_update, hrest, List.append_assoc, List.singleton_append]
    exact List.perm_middle

theorem rows_again (hle : s.new_free_rows < s.current) (hlt : s.current ≤ n_free_rows)
    (i₀ : Option ℕ) :
    ((s.again i₀).rows n_free_rows).Perm (i₀.toList ++ s.rows n_free_rows) := by
  cases i₀ with
  | none => exact .refl _
  | some i₀ =>
    have hnew : (List.range s.new_free_rows).map (update s.free_rows (s.current - 1) i₀) =
        (List.range s.new_free_rows).map s.free_rows := by
      refine List.map_congr_left fun k hk => Function.update_of_ne ?_ ..
      have hk' := List.mem_range.1 hk
      omega
    have hrest : (List.range' s.current (n_free_rows - s.current)).map
        (update s.free_rows (s.current - 1) i₀) =
        (List.range' s.current (n_free_rows - s.current)).map s.free_rows := by
      refine List.map_congr_left fun k hk => Function.update_of_ne ?_ ..
      have hk' := (List.mem_range'_1.1 hk).1
      omega
    have hrange : List.range' (s.current - 1) (n_free_rows - (s.current - 1)) =
        (s.current - 1) :: List.range' s.current (n_free_rows - s.current) := by
      have hsucc : s.current = s.current - 1 + 1 := by omega
      have hcount : n_free_rows - (s.current - 1) = n_free_rows - s.current + 1 := by omega
      rw [hcount, List.range'_succ, ← hsucc]
    rw [RowReduction.rows, RowReduction.rows]
    dsimp only [RowReduction.again]
    rw [hnew, hrange, List.map_cons, hrest, Function.update_self]
    exact List.perm_middle

theorem release_eq (s : RowReduction K) (i₀ : Option ℕ) : (s.release i₀).x = s.x ∧
    (s.release i₀).y = s.y ∧ (s.release i₀).v = s.v ∧ (s.release i₀).current = s.current ∧
    (s.release i₀).rr_cnt = s.rr_cnt ∧ (s.release i₀).new_free_rows ≤ s.new_free_rows + 1 := by
  cases i₀ with
  | none => exact ⟨rfl, rfl, rfl, rfl, rfl, Nat.le_succ _⟩
  | some i₀ => exact ⟨rfl, rfl, rfl, rfl, rfl, le_rfl⟩

theorem again_eq (s : RowReduction K) (i₀ : Option ℕ) : (s.again i₀).x = s.x ∧
    (s.again i₀).y = s.y ∧ (s.again i₀).v = s.v ∧ (s.again i₀).rr_cnt = s.rr_cnt ∧
    (s.again i₀).new_free_rows = s.new_free_rows ∧ s.current - 1 ≤ (s.again i₀).current ∧
    (s.again i₀).current ≤ s.current := by
  cases i₀ with
  | none => exact ⟨rfl, rfl, rfl, rfl, rfl, Nat.sub_le _ _, le_rfl⟩
  | some i₀ => exact ⟨rfl, rfl, rfl, rfl, rfl, le_rfl, Nat.sub_le _ _⟩

end Rows

variable {K : Type} [Field K] [LinearOrder K] {large : K} {n : ℕ} {cost : ℕ → ℕ → K}

/-! ### Partial assignments -/

/-- The rows and columns know each other, and every column is the cheapest for its row. -/
structure Matched (n : ℕ) (cost : ℕ → ℕ → K) (x y : ℕ → Option ℕ) (v : ℕ → K) : Prop where
  row_lt : ∀ j < n, ∀ i, y j = some i → i < n
  x_eq : ∀ j < n, ∀ i, y j = some i → x i = some j
  cheapest : ∀ j < n, ∀ i, y j = some i → Cheapest cost v (Set.Iio n) i j

/-- A row without a column. -/
def Free (n : ℕ) (y : ℕ → Option ℕ) (i : ℕ) : Prop :=
  i < n ∧ ∀ j < n, y j ≠ some i

/-- A list of the free rows. -/
structure FreeRows (n : ℕ) (y : ℕ → Option ℕ) (l : List ℕ) : Prop where
  nodup : l.Nodup
  mem_iff : ∀ i, i ∈ l ↔ Free n y i

theorem FreeRows.perm {y : ℕ → Option ℕ} {l l' : List ℕ} (h : FreeRows n y l) (hperm : l'.Perm l) :
    FreeRows n y l' :=
  ⟨hperm.nodup_iff.2 h.nodup, fun i => hperm.mem_iff.trans (h.mem_iff i)⟩

theorem FreeRows.length_le {y : ℕ → Option ℕ} {l : List ℕ} (h : FreeRows n y l) : l.length ≤ n := by
  have hsub : l.Subperm (List.range n) := List.subperm_of_subset h.nodup fun i hi =>
    List.mem_range.2 ((h.mem_iff i).1 hi).1
  exact hsub.length_le.trans_eq List.length_range

namespace Matched

variable {x y : ℕ → Option ℕ} {v v' : ℕ → K} {i j : ℕ}

theorem injective (h : Matched n cost x y v) {j' : ℕ} (hj : j < n) (hj' : j' < n)
    (hi : y j = some i) (hi' : y j' = some i) : j = j' :=
  Option.some.inj ((h.x_eq j hj i hi).symm.trans (h.x_eq j' hj' i hi'))

theorem assign (h : Matched n cost x y v) (hi : Free n y i)
    (hcheapest : Cheapest cost v' (Set.Iio n) i j)
    (hothers : ∀ j' < n, j' ≠ j → ∀ i', y j' = some i' → Cheapest cost v' (Set.Iio n) i' j') :
    Matched n cost (update x i (some j)) (update y j (some i)) v' := by
  have hcases {j' i' : ℕ} (hy : update y j (some i) j' = some i') :
      j' = j ∧ i' = i ∨ j' ≠ j ∧ y j' = some i' := by
    rw [Function.update_apply] at hy
    split_ifs at hy with heq
    · exact .inl ⟨heq, (Option.some.inj hy).symm⟩
    · exact .inr ⟨heq, hy⟩
  refine ⟨fun j' hj' i' hy => ?_, fun j' hj' i' hy => ?_, fun j' hj' i' hy => ?_⟩
  · rcases hcases hy with ⟨-, rfl⟩ | ⟨-, hold⟩
    · exact hi.1
    · exact h.row_lt j' hj' i' hold
  · rcases hcases hy with ⟨rfl, rfl⟩ | ⟨-, hold⟩
    · exact Function.update_self ..
    · have hne : i' ≠ i := fun heq => hi.2 j' hj' (heq ▸ hold)
      rw [Function.update_of_ne hne]
      exact h.x_eq j' hj' i' hold
  · rcases hcases hy with ⟨rfl, rfl⟩ | ⟨hne, hold⟩
    · exact hcheapest
    · exact hothers j' hj' hne i' hold

theorem free_assign (h : Matched n cost x y v) (hi : Free n y i) (hj : j < n) (i' : ℕ) :
    Free n (update y j (some i)) i' ↔ Free n y i' ∧ i' ≠ i ∨ y j = some i' := by
  constructor
  · rintro ⟨hlt, hfree⟩
    by_cases hold : y j = some i'
    · exact .inr hold
    · refine .inl ⟨⟨hlt, fun j' hj' hy => ?_⟩, ?_⟩
      · have hne : j' ≠ j := fun heq => hold (heq ▸ hy)
        exact hfree j' hj' (by rwa [Function.update_of_ne hne])
      · rintro rfl
        exact hfree j hj (Function.update_self ..)
  · rintro (⟨⟨hlt, hfree⟩, hne⟩ | hold)
    · refine ⟨hlt, fun j' hj' hy => ?_⟩
      rw [Function.update_apply] at hy
      split_ifs at hy
      · exact hne (Option.some.inj hy).symm
      · exact hfree j' hj' hy
    · refine ⟨h.row_lt j hj i' hold, fun j' hj' hy => ?_⟩
      rw [Function.update_apply] at hy
      split_ifs at hy with heq
      · obtain rfl := Option.some.inj hy
        exact hi.2 j hj hold
      · exact heq (h.injective hj' hj hy hold)

theorem freeRows_assign (h : Matched n cost x y v) {l : List ℕ} (hl : FreeRows n y (i :: l))
    (hj : j < n) : FreeRows n (update y j (some i)) ((y j).toList ++ l) := by
  have hi : Free n y i := (hl.mem_iff i).1 List.mem_cons_self
  obtain ⟨hnot, hnodup⟩ := List.nodup_cons.1 hl.nodup
  have hmem (i' : ℕ) : i' ∈ l ↔ Free n y i' ∧ i' ≠ i := by
    rw [← hl.mem_iff, List.mem_cons]
    constructor
    · exact fun hi' => ⟨.inr hi', fun heq => hnot (heq ▸ hi')⟩
    · exact fun hi' => hi'.1.resolve_left hi'.2
  refine ⟨List.nodup_append.2 ⟨?_, hnodup, ?_⟩, fun i' => ?_⟩
  · cases y j with
    | none => exact List.nodup_nil
    | some i₀ => exact List.nodup_singleton i₀
  · rintro i₀ hi₀ i' hi' rfl
    exact ((hmem i₀).1 hi').1.2 j hj (Option.mem_toList.1 hi₀)
  · rw [h.free_assign hi hj, List.mem_append, Option.mem_toList, hmem, or_comm]

end Matched

/-- The arrays between two parts of the solver. -/
structure Ready (n : ℕ) (cost : ℕ → ℕ → K) (a : Arrays K) : Prop where
  matched : Matched n cost a.x a.y a.v
  free : FreeRows n a.y ((List.range a.n_free_rows).map a.free_rows)

theorem Ready.n_free_rows_le {a : Arrays K} (h : Ready n cost a) : a.n_free_rows ≤ n := by
  have hle := h.free.length_le
  rwa [List.length_map, List.length_range] at hle

/-! ### The first assignment -/

/-- The columns from `k` on have been claimed. -/
structure Claimed (n : ℕ) (y₀ : ℕ → Option ℕ) (k : ℕ) (c : Claims) : Prop where
  todo : ∀ j < k, c.y j = y₀ j
  y_eq : ∀ j < n, k ≤ j → ∀ i, c.y j = some i → y₀ j = some i ∧ c.x i = some j
  x_eq : ∀ i j, c.x i = some j → k ≤ j ∧ j < n ∧ c.y j = some i
  unique : ∀ i, c.unique i = true

theorem Claimed.claimColumn {y₀ : ℕ → Option ℕ} {k : ℕ} {c : Claims} (hk : k < n)
    (h : Claimed n y₀ (k + 1) c) : Claimed n y₀ k (claimColumn c k) := by
  have hold := h.todo k (Nat.lt_succ_self k)
  have hlater {j : ℕ} (hj : j < n) (hkj : k ≤ j) (hne : j ≠ k) :=
    h.y_eq j hj (Nat.lt_of_le_of_ne hkj hne.symm)
  cases hy : c.y k with
  | none =>
    have hclaim : Lapjv.claimColumn c k = c := by
      simp only [Lapjv.claimColumn, hy]
    rw [hclaim]
    refine ⟨fun j hj => h.todo j (Nat.lt_succ_of_lt hj), fun j hj hkj i hi => ?_, fun i j hi => ?_,
      h.unique⟩
    · have hne : j ≠ k := by
        rintro rfl
        rw [hy] at hi
        cases hi
      exact hlater hj hkj hne i hi
    · obtain ⟨hkj, hrest⟩ := h.x_eq i j hi
      exact ⟨Nat.le_of_succ_le hkj, hrest⟩
  | some i₀ =>
    cases hx : c.x i₀ with
    | none =>
      have hclaim : Lapjv.claimColumn c k = { c with x := update c.x i₀ (some k) } := by
        simp only [Lapjv.claimColumn, hy, hx]
      rw [hclaim]
      refine ⟨fun j hj => h.todo j (Nat.lt_succ_of_lt hj), fun j hj hkj i hi => ?_,
        fun i j hi => ?_, h.unique⟩
      · rcases eq_or_ne j k with rfl | hne
        · obtain rfl := Option.some.inj (hy.symm.trans hi)
          exact ⟨hold.symm.trans hy, Function.update_self ..⟩
        · obtain ⟨hyi, hxi⟩ := hlater hj hkj hne i hi
          have hne' : i ≠ i₀ := by
            rintro rfl
            rw [hx] at hxi
            cases hxi
          exact ⟨hyi, (Function.update_of_ne hne' ..).trans hxi⟩
      · dsimp only at hi
        rw [Function.update_apply] at hi
        split_ifs at hi with heq
        · obtain rfl := Option.some.inj hi
          exact ⟨le_rfl, hk, heq ▸ hy⟩
        · obtain ⟨hkj, hrest⟩ := h.x_eq i j hi
          exact ⟨Nat.le_of_succ_le hkj, hrest⟩
    | some j₀ =>
      have hclaim : Lapjv.claimColumn c k =
          { c with unique := update c.unique i₀ true, y := update c.y k none } := by
        simp only [Lapjv.claimColumn, hy, hx]
      rw [hclaim]
      refine ⟨fun j hj => ?_, fun j hj hkj i hi => ?_, fun i j hi => ?_, fun i => ?_⟩
      · exact (Function.update_of_ne hj.ne ..).trans (h.todo j (Nat.lt_succ_of_lt hj))
      · dsimp only at hi
        rw [Function.update_apply] at hi
        split_ifs at hi with heq
        exact hlater hj hkj heq i hi
      · obtain ⟨hkj, hj, hyj⟩ := h.x_eq i j hi
        exact ⟨Nat.le_of_succ_le hkj, hj,
          (Function.update_of_ne (Nat.lt_of_succ_le hkj).ne' ..).trans hyj⟩
      · dsimp only
        rw [Function.update_apply]
        split_ifs
        · rfl
        · exact h.unique i

theorem claimed_claims (n : ℕ) (y₀ : ℕ → Option ℕ) : Claimed n y₀ 0 (claims n y₀) := by
  refine Loop.foldl_reverse_range (I := Claimed n y₀) ?_ fun k hk c => Claimed.claimColumn hk
  exact ⟨fun _ _ => rfl, fun j hj hnj => absurd hj (Nat.not_lt.2 hnj), nofun, fun _ => rfl⟩

theorem leastOther_spec (n : ℕ) (cost : ℕ → ℕ → K) (v : ℕ → K) (i j : ℕ) :
    leastOther n cost v i j = ⊤ ∧ (∀ j' < n, j' = j) ∨
      ∃ j2 < n, j2 ≠ j ∧ leastOther n cost v i j = ((cost i j2 - v j2 : K) : WithTop K) ∧
        ∀ j' < n, j' ≠ j → cost i j2 - v j2 ≤ cost i j' - v j' := by
  refine Loop.foldl_range (I := fun k (least : WithTop K) => least = ⊤ ∧ (∀ j' < k, j' = j) ∨
      ∃ j2 < k, j2 ≠ j ∧ least = ((cost i j2 - v j2 : K) : WithTop K) ∧
        ∀ j' < k, j' ≠ j → cost i j2 - v j2 ≤ cost i j' - v j') (.inl ⟨rfl, nofun⟩) ?_
  rintro k - least h
  dsimp only
  split_ifs with heq hlt
  · rcases h with ⟨htop, hall⟩ | ⟨j2, hj2, hne, hleast, hall⟩
    · refine .inl ⟨htop, fun j' hj' => ?_⟩
      rcases Nat.lt_succ_iff_lt_or_eq.1 hj' with hj' | rfl
      · exact hall j' hj'
      · exact heq
    · refine .inr ⟨j2, Nat.lt_succ_of_lt hj2, hne, hleast, fun j' hj' hne' => ?_⟩
      rcases Nat.lt_succ_iff_lt_or_eq.1 hj' with hj' | rfl
      · exact hall j' hj' hne'
      · exact absurd heq hne'
  · refine .inr ⟨k, Nat.lt_succ_self k, heq, rfl, fun j' hj' hne' => ?_⟩
    rcases Nat.lt_succ_iff_lt_or_eq.1 hj' with hj' | rfl
    · rcases h with ⟨-, hall⟩ | ⟨j2, -, -, rfl, hall⟩
      · exact absurd (hall j' hj') hne'
      · exact (WithTop.coe_lt_coe.1 hlt).le.trans (hall j' hj' hne')
    · exact le_rfl
  · rcases h with ⟨rfl, -⟩ | ⟨j2, hj2, hne, rfl, hall⟩
    · exact absurd (WithTop.coe_lt_top _) hlt
    · refine .inr ⟨j2, Nat.lt_succ_of_lt hj2, hne, rfl, fun j' hj' hne' => ?_⟩
      rcases Nat.lt_succ_iff_lt_or_eq.1 hj' with hj' | rfl
      · exact hall j' hj' hne'
      · exact not_lt.1 fun h => hlt (WithTop.coe_lt_coe.2 h)

/-- The rows from `k` on have not been looked at: they have their columns at the least costs. -/
structure Transferring (n : ℕ) (cost : ℕ → ℕ → K) (c : Claims) (k : ℕ) (t : Transfer K) : Prop where
  cheapest : ∀ i < n, ∀ j, c.x i = some j → Cheapest cost t.v (Set.Iio n) i j
  price : ∀ i < n, k ≤ i → ∀ j, c.x i = some j → t.v j = cost i j
  le : ∀ i < n, k ≤ i → ∀ j, c.x i = some j → ∀ j' < n, t.v j' ≤ cost i j'
  free : (List.range t.n_free_rows).map t.free_rows = (List.range k).filter fun i => c.x i = none

variable [IsStrictOrderedRing K]

theorem Transferring.transferRow (large : K) {y₀ : ℕ → Option ℕ} {c : Claims}
    (hc : Claimed n y₀ 0 c) {k : ℕ} {t : Transfer K} (hk : k < n) (h : Transferring n cost c k t) :
    Transferring n cost c (k + 1) (transferRow large n cost c t k) := by
  rw [Lapjv.transferRow]
  cases hx : c.x k with
  | none =>
    refine ⟨h.cheapest, fun i hi hki => h.price i hi (Nat.le_of_succ_le hki),
      fun i hi hki => h.le i hi (Nat.le_of_succ_le hki), ?_⟩
    dsimp only
    rw [map_range_succ_update, h.free, List.range_succ, List.filter_append]
    simp [hx]
  | some j =>
    dsimp only
    rw [if_pos (hc.unique k)]
    obtain ⟨-, hj, hyj⟩ := hc.x_eq k j hx
    have hfree : (List.range t.n_free_rows).map t.free_rows =
        (List.range (k + 1)).filter fun i => c.x i = none := by
      rw [h.free, List.range_succ, List.filter_append]
      simp [hx]
    -- No other row has this column.
    have hne {i j' : ℕ} (hi : i ≠ k) (hxi : c.x i = some j') : j' ≠ j := by
      rintro rfl
      obtain ⟨-, -, hyi⟩ := hc.x_eq i j' hxi
      exact hi (Option.some.inj (hyi.symm.trans hyj))
    rcases leastOther_spec n cost t.v k j with
      ⟨-, honly⟩ | ⟨j2, hj2, hj2ne, hleast, hall⟩
    · -- There is one column only, and its row is this one.
      have hrows {i : ℕ} (hi : i ≠ k) {j' : ℕ} (hxi : c.x i = some j') : False :=
        hne hi hxi (honly j' (hc.x_eq i j' hxi).2.1)
      refine ⟨fun i hi j' hxi j'' hj'' => ?_, fun i hi hki j' hxi => ?_, fun i hi hki j' hxi => ?_,
        hfree⟩
      · rw [honly j'' hj'', honly j' (hc.x_eq i j' hxi).2.1]
      · exact (hrows (Nat.lt_of_succ_le hki).ne' hxi).elim
      · exact (hrows (Nat.lt_of_succ_le hki).ne' hxi).elim
    · have hprice := h.price k hk le_rfl j hx
      have hle := h.le k hk le_rfl j hx
      have hnonneg := sub_nonneg.2 (hle j2 hj2)
      rw [hleast, WithTop.untopD_coe]
      have hlower : ∀ j' : ℕ, update t.v j (t.v j - (cost k j2 - t.v j2)) j' ≤ t.v j' := by
        intro j'
        rw [Function.update_apply]
        split_ifs with heq
        · rw [heq]
          exact sub_le_self _ hnonneg
        · exact le_rfl
      refine ⟨fun i hi j' hxi => ?_, fun i hi hki j' hxi => ?_, fun i hi hki j' hxi j'' hj'' => ?_,
        hfree⟩
      · rcases eq_or_ne i k with rfl | hik
        · obtain rfl := Option.some.inj (hx.symm.trans hxi)
          intro j' hj'
          dsimp only
          rw [Function.update_self, hprice]
          rcases eq_or_ne j' j with rfl | hj'ne
          · rw [Function.update_self]
          · rw [Function.update_of_ne hj'ne]
            have hother := hall j' hj' hj'ne
            linarith
        · refine (h.cheapest i hi j' hxi).mono ?_ fun j'' _ => hlower j''
          exact Function.update_of_ne (hne hik hxi) ..
      · have hik : i ≠ k := (Nat.lt_of_succ_le hki).ne'
        exact (Function.update_of_ne (hne hik hxi) ..).trans
          (h.price i hi (Nat.le_of_succ_le hki) j' hxi)
      · exact (hlower j'').trans (h.le i hi (Nat.le_of_succ_le hki) j' hxi j'' hj'')

/-- **The column reduction leaves the arrays ready.** -/
theorem ccrrt_dense_ready : Ready n cost (ccrrt_dense large n cost) := by
  have hc := claimed_claims n (columnMinima n cost).y
  have hprice {i j : ℕ} (hx : (claims n (columnMinima n cost).y).x i = some j) :
      j < n ∧ i < n ∧ (columnMinima n cost).v j = cost i j := by
    obtain ⟨-, hj, hyj⟩ := hc.x_eq i j hx
    obtain ⟨hy₀, -⟩ := hc.y_eq j hj (Nat.zero_le j) i hyj
    rcases (least_columnMinima cost hj).2 with ⟨hn, -⟩ | ⟨i', hi', hy', hv'⟩
    · exact absurd hj (hn ▸ Nat.not_lt_zero j)
    · obtain rfl := Option.some.inj (hy₀.symm.trans hy')
      exact ⟨hj, hi', hv'⟩
  have hle {i j : ℕ} (hi : i < n) (hj : j < n) :
      ((columnMinima n cost).v j).untopD large ≤ cost i j := by
    have hmin := (least_columnMinima cost hj).1 i hi
    cases hv : (columnMinima n cost).v j with
    | top =>
      rw [hv, top_le_iff] at hmin
      exact absurd hmin WithTop.coe_ne_top
    | coe a =>
      rw [hv] at hmin
      exact WithTop.coe_le_coe.1 hmin
  have hstart : Transferring n cost (claims n (columnMinima n cost).y) 0
      ⟨fun j => ((columnMinima n cost).v j).untopD large, fun _ => 0, 0⟩ := by
    have hequal {i j : ℕ} (hx : (claims n (columnMinima n cost).y).x i = some j) :
        ((columnMinima n cost).v j).untopD large = cost i j := by
      rw [(hprice hx).2.2, WithTop.untopD_coe]
    refine ⟨fun i hi j hx j' hj' => ?_, fun i _ _ j hx => hequal hx,
      fun i hi _ _ _ j' hj' => hle hi hj', rfl⟩
    dsimp only
    rw [hequal hx, sub_self]
    exact sub_nonneg.2 (hle hi hj')
  have hend := Loop.foldl_range (I := Transferring n cost (claims n (columnMinima n cost).y)) hstart
    fun k hk t ht => ht.transferRow large hc hk
  refine ⟨⟨fun j hj i hy => ?_, fun j hj i hy => ?_, fun j hj i hy => ?_⟩, ?_⟩
  · exact (hprice (hc.y_eq j hj (Nat.zero_le j) i hy).2).2.1
  · exact (hc.y_eq j hj (Nat.zero_le j) i hy).2
  · have hx := (hc.y_eq j hj (Nat.zero_le j) i hy).2
    exact hend.cheapest i (hprice hx).2.1 j hx
  · have hfree := hend.free
    refine ⟨?_, fun i => ?_⟩
    · exact hfree.symm ▸ List.nodup_range.filter _
    · have hmem : i ∈ (List.range (ccrrt_dense large n cost).n_free_rows).map
          (ccrrt_dense large n cost).free_rows ↔
          i < n ∧ (claims n (columnMinima n cost).y).x i = none := by
        refine (hfree.symm ▸ List.mem_filter).trans ?_
        rw [List.mem_range, decide_eq_true_iff]
      rw [hmem]
      refine and_congr_right fun _ => ⟨fun hx j hj hy => ?_, fun hnone => ?_⟩
      · have hx' := (hc.y_eq j hj (Nat.zero_le j) i hy).2
        rw [hx] at hx'
        cases hx'
      · refine Option.eq_none_iff_forall_ne_some.2 fun j hx => ?_
        obtain ⟨-, hj, hyj⟩ := hc.x_eq i j hx
        exact hnone j hj hyj

/-! ### Augmenting row reduction -/

/-- The two smallest reduced costs of the first `k` columns. -/
structure TwoLeast (cost : ℕ → ℕ → K) (v : ℕ → K) (i k : ℕ) (m : TwoSmallest K) : Prop where
  lt : m.j1 < k
  v1_eq : m.v1 = cost i m.j1 - v m.j1
  le : ∀ j < k, m.v1 ≤ cost i j - v j
  second : m.j2 = none ∧ m.v2 = ⊤ ∧ (∀ j < k, j = m.j1) ∨
    ∃ j2 < k, j2 ≠ m.j1 ∧ m.j2 = some j2 ∧ m.v2 = ((cost i j2 - v j2 : K) : WithTop K) ∧
      ∀ j < k, j ≠ m.j1 → cost i j2 - v j2 ≤ cost i j - v j

omit [IsStrictOrderedRing K] in
theorem TwoLeast.smaller {v : ℕ → K} {i k : ℕ} {m : TwoSmallest K} (h : TwoLeast cost v i k m) :
    TwoLeast cost v i (k + 1) (smaller cost v i m k) := by
  have hsplit {j : ℕ} (hj : j < k + 1) : j < k ∨ j = k := Nat.lt_succ_iff_lt_or_eq.1 hj
  have hlt := Nat.lt_succ_of_lt h.lt
  rw [Lapjv.smaller]
  split_ifs with hless hge
  · -- The second smallest.
    refine ⟨hlt, h.v1_eq, fun j hj => ?_, .inr ⟨k, Nat.lt_succ_self k, h.lt.ne', rfl, rfl, ?_⟩⟩
    · rcases hsplit hj with hj | rfl
      · exact h.le j hj
      · exact hge
    · intro j hj hne
      rcases hsplit hj with hj | rfl
      · rcases h.second with ⟨-, -, honly⟩ | ⟨j2, -, -, -, hv2, hall⟩
        · exact absurd (honly j hj) hne
        · rw [hv2, WithTop.coe_lt_coe] at hless
          exact hless.le.trans (hall j hj hne)
      · exact le_rfl
  · -- The smallest.
    have hless' : cost i k - v k < m.v1 := not_le.1 hge
    refine ⟨Nat.lt_succ_self k, rfl, fun j hj => ?_,
      .inr ⟨m.j1, hlt, h.lt.ne, rfl, congrArg _ h.v1_eq, ?_⟩⟩
    · rcases hsplit hj with hj | rfl
      · exact hless'.le.trans (h.le j hj)
      · exact le_rfl
    · intro j hj hne
      rcases hsplit hj with hj | rfl
      · exact h.v1_eq ▸ h.le j hj
      · exact absurd rfl hne
  · rcases h.second with ⟨-, htop, -⟩ | ⟨j2, hj2, hne, hj2', hv2, hall⟩
    · rw [htop] at hless
      exact absurd (WithTop.coe_lt_top _) hless
    · rw [hv2, WithTop.coe_lt_coe, not_lt] at hless
      have hsmallest : m.v1 ≤ cost i j2 - v j2 := h.le j2 hj2
      refine ⟨hlt, h.v1_eq, fun j hj => ?_,
        .inr ⟨j2, Nat.lt_succ_of_lt hj2, hne, hj2', hv2, fun j hj hne' => ?_⟩⟩
      · rcases hsplit hj with hj | rfl
        · exact h.le j hj
        · exact hsmallest.trans hless
      · rcases hsplit hj with hj | rfl
        · exact hall j hj hne'
        · exact hless

omit [IsStrictOrderedRing K] in
theorem twoLeast_twoSmallest (cost : ℕ → ℕ → K) (hn : 0 < n) (v : ℕ → K) (i : ℕ) :
    TwoLeast cost v i n (twoSmallest n cost v i) := by
  have hstart : TwoLeast cost v i 1 ⟨0, cost i 0 - v 0, none, ⊤⟩ := by
    refine ⟨Nat.zero_lt_one, rfl, fun j hj => ?_, .inl ⟨rfl, rfl, fun j hj => ?_⟩⟩
    · rw [Nat.lt_one_iff.1 hj]
    · exact Nat.lt_one_iff.1 hj
  have hend := Loop.foldl_range' (n := n - 1) (I := TwoLeast cost v i) hstart
    fun k m _ _ => TwoLeast.smaller
  rwa [Nat.add_sub_cancel' hn] at hend

/-- What a row reduction keeps. -/
structure Reducing (n : ℕ) (cost : ℕ → ℕ → K) (n_free_rows : ℕ) (s : RowReduction K) : Prop where
  matched : Matched n cost s.x s.y s.v
  new_le : s.new_free_rows ≤ s.current
  current_le : s.current ≤ n_free_rows
  free : FreeRows n s.y (s.rows n_free_rows)

section Rounds

variable {s : RowReduction K} {n_free_rows : ℕ}

/-- What a round does: a free row gets its cheapest column, at prices that the others accept, and
the row that had it is looked at again, at once if there are rounds left. -/
theorem reduceRow_cases (large : K) (hn : 0 < n) (h : Matched n cost s.x s.y s.v) :
    ∃ j < n, ∃ v', Cheapest cost v' (Set.Iio n) (s.free_rows s.current) j ∧
      (∀ j' < n, j' ≠ j → ∀ i', s.y j' = some i' → Cheapest cost v' (Set.Iio n) i' j') ∧
      let next : RowReduction K :=
        { s with rr_cnt := s.rr_cnt + 1, current := s.current + 1, v := v' }
      reduceRow large n cost s = (next.release (s.y j)).assign (s.free_rows s.current) j ∨
        s.rr_cnt + 1 < (s.current + 1) * n ∧
          reduceRow large n cost s = (next.again (s.y j)).assign (s.free_rows s.current) j := by
  have hm := twoLeast_twoSmallest cost hn s.v (s.free_rows s.current)
  have hkeep : ∀ j' < n, ∀ i', s.y j' = some i' → Cheapest cost s.v (Set.Iio n) i' j' := h.cheapest
  have hfirst : Cheapest cost s.v (Set.Iio n) (s.free_rows s.current)
      (twoSmallest n cost s.v (s.free_rows s.current)).j1 := by
    intro j hj
    rw [← hm.v1_eq]
    exact hm.le j hj
  rw [reduceRow]
  generalize twoSmallest n cost s.v (s.free_rows s.current) = m at hm hfirst
  dsimp only
  split_ifs with hcount hlowers
  · -- The price of the first column is lowered to that of the second.
    refine ⟨m.j1, hm.lt, _, ?_, ?_, .inr ⟨hcount, rfl⟩⟩
    · rcases hm.second with ⟨-, -, honly⟩ | ⟨j2, -, -, -, hv2, hall⟩
      · intro j hj
        rw [honly j hj]
      · intro j hj
        rw [hv2, WithTop.untopD_coe, hm.v1_eq, Function.update_self]
        rcases eq_or_ne j m.j1 with rfl | hne
        · rw [Function.update_self]
        · rw [Function.update_of_ne hne]
          have hother := hall j hj hne
          linarith
    · intro j' hj' hne i' hy
      refine (hkeep j' hj' i' hy).mono (Function.update_of_ne hne ..) fun j _ => ?_
      rw [Function.update_apply]
      split_ifs with heq
      · exact heq ▸ hlowers.le
      · exact le_rfl
  · -- The second column is as cheap as the first one.
    split
    case h_1 j2 _ hj2 =>
      rcases hm.second with ⟨hnone, -, -⟩ | ⟨j2', hj2lt, -, hj2', hv2, hall⟩
      · rw [hnone] at hj2
        cases hj2
      · obtain rfl := Option.some.inj (hj2'.symm.trans hj2)
        refine ⟨j2', hj2lt, s.v, fun j hj => ?_, fun j' hj' _ => hkeep j' hj', .inl rfl⟩
        rw [hv2, WithTop.untopD_coe, not_lt] at hlowers
        have hsame : cost (s.free_rows s.current) j2' - s.v j2' ≤ m.v1 := by linarith
        exact hsame.trans (hm.le j hj)
    case h_2 =>
      exact ⟨m.j1, hm.lt, s.v, hfirst, fun j' hj' _ => hkeep j' hj', .inl rfl⟩
  · exact ⟨m.j1, hm.lt, s.v, hfirst, fun j' hj' _ => hkeep j' hj', .inl rfl⟩

/-- The rounds that may be left. -/
def RowReduction.left (n n_free_rows : ℕ) (s : RowReduction K) : ℕ :=
  (n_free_rows - s.current) + (n_free_rows * n - s.rr_cnt)

theorem Reducing.reduceRow (large : K) (hn : 0 < n) (h : Reducing n cost n_free_rows s)
    (hlt : s.current < n_free_rows) :
    Reducing n cost n_free_rows (reduceRow large n cost s) ∧
      (reduceRow large n cost s).left n n_free_rows < s.left n n_free_rows := by
  have hrows := h.free.perm (rows_eq hlt).symm
  have hfree : Free n s.y (s.free_rows s.current) := (hrows.mem_iff _).1 List.mem_cons_self
  obtain ⟨j, hj, v', hcheapest, hothers, hcases⟩ := reduceRow_cases large hn h.matched
  have hmatched := h.matched.assign hfree hcheapest hothers
  have hassign := h.matched.freeRows_assign hrows hj
  have hnew := h.new_le
  dsimp only at hcases
  generalize hnext : ({ s with
      rr_cnt := s.rr_cnt + 1, current := s.current + 1, v := v' } : RowReduction K) = next at hcases
  obtain ⟨hx, hy, hv, hcurrent, hrr, hnewEq⟩ : next.x = s.x ∧ next.y = s.y ∧ next.v = v' ∧
      next.current = s.current + 1 ∧ next.rr_cnt = s.rr_cnt + 1 ∧
      next.new_free_rows = s.new_free_rows := by
    rw [← hnext]
    exact ⟨rfl, rfl, rfl, rfl, rfl, rfl⟩
  have hnextRows : next.rows n_free_rows =
      ({ s with current := s.current + 1 } : RowReduction K).rows n_free_rows := by
    rw [← hnext]
    rfl
  rw [← hnextRows] at hassign
  rcases hcases with heq | ⟨hcount, heq⟩
  · obtain ⟨hx', hy', hv', hcurrent', hrr', hnew'⟩ := release_eq next (s.y j)
    rw [heq]
    refine ⟨⟨?_, ?_, ?_, ?_⟩, ?_⟩
    · rwa [RowReduction.assign, hx', hy', hv', hx, hy, hv]
    · show (next.release (s.y j)).new_free_rows ≤ (next.release (s.y j)).current
      omega
    · show (next.release (s.y j)).current ≤ n_free_rows
      omega
    · show FreeRows n (update (next.release (s.y j)).y j (some (s.free_rows s.current)))
        ((next.release (s.y j)).rows n_free_rows)
      rw [hy', hy]
      exact hassign.perm (rows_release (by omega) _)
    · show (n_free_rows - (next.release (s.y j)).current) +
        (n_free_rows * n - (next.release (s.y j)).rr_cnt) < s.left n n_free_rows
      rw [RowReduction.left]
      omega
  · obtain ⟨hx', hy', hv', hrr', hnew', hge', hle'⟩ := again_eq next (s.y j)
    rw [heq]
    refine ⟨⟨?_, ?_, ?_, ?_⟩, ?_⟩
    · rwa [RowReduction.assign, hx', hy', hv', hx, hy, hv]
    · show (next.again (s.y j)).new_free_rows ≤ (next.again (s.y j)).current
      omega
    · show (next.again (s.y j)).current ≤ n_free_rows
      omega
    · show FreeRows n (update (next.again (s.y j)).y j (some (s.free_rows s.current)))
        ((next.again (s.y j)).rows n_free_rows)
      rw [hy', hy]
      exact hassign.perm (rows_again (by omega) (by omega) _)
    · -- A round more for this place in the list, of which there are not too many.
      show (n_free_rows - (next.again (s.y j)).current) +
        (n_free_rows * n - (next.again (s.y j)).rr_cnt) < s.left n n_free_rows
      have hbound : (s.current + 1) * n ≤ n_free_rows * n := Nat.mul_le_mul_right n hlt
      rw [RowReduction.left]
      omega

theorem Reducing.carrRound (large : K) (hn : 0 < n) (h : Reducing n cost n_free_rows s) :
    (∃ s', carrRound large n cost n_free_rows s = .ok (.inr s') ∧
      Reducing n cost n_free_rows s' ∧ s'.current = n_free_rows) ∨
    ∃ s', carrRound large n cost n_free_rows s = .ok (.inl s') ∧ ∃ m' < s.left n n_free_rows,
      Reducing n cost n_free_rows s' ∧ s'.left n n_free_rows = m' := by
  by_cases hlt : s.current < n_free_rows
  · obtain ⟨hnext, hless⟩ := h.reduceRow large hn hlt
    exact .inr ⟨_, if_pos hlt, _, hless, hnext, rfl⟩
  · exact .inl ⟨s, if_neg hlt, h, le_antisymm h.current_le (not_lt.1 hlt)⟩

end Rounds

/-- **The augmenting row reduction ends and leaves the arrays ready.** -/
theorem carr_dense_ready (hn : 0 < n) {a : Arrays K} (ha : Ready n cost a) {fuel : ℕ}
    (hfuel : n + n * n < fuel) :
    ∃ a', carr_dense large n cost fuel a = .ok a' ∧ Ready n cost a' := by
  have hle := ha.n_free_rows_le
  have hstart : Reducing n cost a.n_free_rows ⟨0, 0, 0, a.x, a.y, a.v, a.free_rows⟩ := by
    refine ⟨ha.matched, le_rfl, Nat.zero_le _, ?_⟩
    rw [RowReduction.rows]
    dsimp only
    rw [List.range_zero, List.map_nil, List.nil_append, Nat.sub_zero, ← List.range_eq_range']
    exact ha.free
  have hleft : RowReduction.left n a.n_free_rows
      (⟨0, 0, 0, a.x, a.y, a.v, a.free_rows⟩ : RowReduction K) < fuel := by
    have hmul : a.n_free_rows * n ≤ n * n := Nat.mul_le_mul_right n hle
    rw [RowReduction.left]
    dsimp only
    omega
  obtain ⟨s, hs, hend, hcurrent⟩ := Whiles.exists_loop_eq_ok
    (I := fun m s => Reducing n cost a.n_free_rows s ∧ s.left n a.n_free_rows = m)
    (by
      rintro _ s ⟨hs, rfl⟩
      exact hs.carrRound large hn) ⟨hstart, rfl⟩ hleft
  refine ⟨_, Loop.bind_eq_ok.2 ⟨s, hs, rfl⟩, hend.matched, ?_⟩
  have hfree := hend.free
  rw [RowReduction.rows, hcurrent, Nat.sub_self, List.range'_zero, List.map_nil,
    List.append_nil] at hfree
  exact hfree

end DepthaiCore.Lapjv
