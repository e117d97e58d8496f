import DepthaiCore.Utility.LapjvPaths
import Mathlib.Data.List.GetD
import Mathlib.Logic.Equiv.Fin.Basic

/-!
# Linear assignment

A rectangular matrix is extended to a square one with a row more for each column and a column more
for each row, at half of the limit each. So a full assignment of the extended matrix is a partial
matching of the original one, in which what is left out costs half of the limit.

The vectors of the result are written only if the matrix was extended.
-/

open scoped Numerals

namespace DepthaiCore.Lapjv

open Assignment (Cheapest extended restrict value)

variable {K : Type}

/-! ### Permutations -/

section Permutations

variable [Field K] [LinearOrder K] {n : ℕ} {cost : ℕ → ℕ → K} {x y : ℕ → Option ℕ} {v : ℕ → K}

theorem Matched.exists_equiv (h : Matched n cost x y v) (hfree : ∀ i, ¬Free n y i) :
    ∃ σ : Fin n ≃ Fin n, (∀ i : Fin n, x i = some ↑(σ i)) ∧ (∀ j : Fin n, y j = some ↑(σ.symm j)) ∧
      ∀ i : Fin n, Cheapest cost v (Set.Iio n) i (σ i) := by
  have hcolumn (i : Fin n) : ∃ j : Fin n, y j = some ↑i := by
    by_contra hnone
    exact hfree i ⟨i.isLt, fun j hj hy => hnone ⟨⟨j, hj⟩, hy⟩⟩
  choose f hf using hcolumn
  have hinjective : Function.Injective f := fun i i' heq =>
    Fin.ext (Option.some.inj ((hf i).symm.trans (heq ▸ hf i')))
  refine ⟨.ofBijective f (Finite.injective_iff_bijective.1 hinjective),
    fun i => h.x_eq _ (f i).isLt i (hf i), fun j => ?_, fun i => h.cheapest _ (f i).isLt i (hf i)⟩
  rw [← hf]
  congr
  exact (Equiv.ofBijective_apply_symm_apply f _ j).symm

end Permutations

/-! ### Extended matrices -/

section Extended

variable {R C : ℕ}

/-- Old indices come first, and new ones after them. -/
def index (m k : ℕ) : Fin m ⊕ Fin k → ℕ :=
  Sum.elim (fun i => i) fun j => m + j

theorem finSumFinEquiv_eq_index (m k : ℕ) (p : Fin m ⊕ Fin k) :
    ((finSumFinEquiv p : Fin (m + k)) : ℕ) = index m k p := by
  cases p <;> simp [index]

theorem cut_index (m k : ℕ) (p : Fin m ⊕ Fin k) :
    cut m (some (index m k p)) = p.getLeft?.map Fin.val := by
  cases p with
  | inl i => exact if_neg i.isLt.not_ge
  | inr j => exact if_pos (Nat.le_add_right m j)

/-- The rows of a matrix. -/
def matrix (costs : Fin R → Fin C → K) : List (List K) :=
  List.ofFn fun i => List.ofFn (costs i)

theorem length_matrix (costs : Fin R → Fin C → K) : (matrix costs).length = R :=
  List.length_ofFn

theorem getD_ofFn {β : Type*} {m : ℕ} (f : Fin m → β) (i : Fin m) (d : β) :
    (List.ofFn f).getD i d = f i := by
  rw [List.getD_eq_getElem _ _ (i.isLt.trans_eq List.length_ofFn.symm), List.getElem_ofFn]

theorem getD_getD_matrix [Zero K] (costs : Fin R → Fin C → K) (i : Fin R) (j : Fin C) :
    ((matrix costs).getD i []).getD j 0 = costs i j := by
  rw [matrix, getD_ofFn, getD_ofFn]

theorem columns_matrix (costs : Fin R → Fin C → K) (hR : 0 < R) :
    ((matrix costs).getD 0 []).length = C := by
  have hrow : (matrix costs).getD 0 [] = List.ofFn (costs ⟨0, hR⟩) := getD_ofFn _ (⟨0, hR⟩ : Fin R) _
  rw [hrow, List.length_ofFn]

theorem extend_index [Field K] [LinearOrder K] (costs : Fin R → Fin C → K) (L : K)
    (r : Fin R ⊕ Fin C) (c : Fin C ⊕ Fin R) :
    extend (matrix costs) R C (some L) (index R C r) (index C R c) =
      extended costs (L / 2) r c := by
  rcases r with i | j <;> rcases c with j' | i'
  · rw [extend, if_pos ⟨i.isLt, j'.isLt⟩]
    exact getD_getD_matrix costs i j'
  · rw [extend, if_neg fun h => absurd h.2 (Nat.le_add_right C i').not_gt,
      if_neg fun h => absurd h.1 i.isLt.not_ge]
    rfl
  · rw [extend, if_neg fun h => absurd h.1 (Nat.le_add_right R j).not_gt,
      if_neg fun h => absurd h.2 j'.isLt.not_ge]
    rfl
  · rw [extend, if_neg fun h => absurd h.1 (Nat.le_add_right R j).not_gt,
      if_pos ⟨Nat.le_add_right R j, Nat.le_add_right C i'⟩]
    rfl

theorem map_range_eq_ofFn {β : Type*} (f : ℕ → β) (m : ℕ) :
    (List.range m).map f = List.ofFn fun i : Fin m => f i := by
  rw [List.ofFn_eq_map, ← List.map_coe_finRange_eq_range, List.map_map]
  rfl

end Extended

/-! ### What a call should give -/

section Calls

variable {R C : ℕ}

/-- The vectors are a partial matching and its inverse. -/
structure Assigns (f : Fin R ≃. Fin C) (rowsol colsol : List (Option ℕ)) : Prop where
  rowsol_eq : rowsol = List.ofFn fun i => (f i).map Fin.val
  colsol_eq : colsol = List.ofFn fun j => (f.symm j).map Fin.val

variable [Field K] [LinearOrder K]

/-- They are a best partial matching, if it costs `w` to leave out a row or a column. -/
def Cheap (costs : Fin R → Fin C → K) (w : K) (rowsol colsol : List (Option ℕ)) : Prop :=
  ∃ f : Fin R ≃. Fin C, Assigns f rowsol colsol ∧
    ∀ g : Fin R ≃. Fin C, value costs w f ≤ value costs w g

/-- They are a perfect matching of minimal cost. -/
def Perfect (costs : Fin R → Fin C → K) (rowsol colsol : List (Option ℕ)) : Prop :=
  ∃ σ : Fin R ≃ Fin C, Assigns σ.toPEquiv rowsol colsol ∧
    ∀ τ : Fin R ≃ Fin C, ∑ i, costs i (σ i) ≤ ∑ i, costs i (τ i)

/-- A call terminates, with vectors that have a property. -/
def Gives (large : K) (costs : Fin R → Fin C → K) (rowsol colsol : List (Option ℕ))
    (extend_cost : Bool) (cost_limit : Option K) (return_cost : Bool)
    (P : List (Option ℕ) → List (Option ℕ) → Prop) : Prop :=
  ∃ N, ∀ fuel ≥ N, ∃ rowsol' colsol' opt,
    execLapjv large fuel (matrix costs) rowsol colsol extend_cost cost_limit return_cost =
      .ok (rowsol', colsol', opt) ∧ P rowsol' colsol'

/-- What `execLapjv` should do, with a limit and for square matrices. -/
def LinearAssignment (large : K) (costs : Fin R → Fin C → K) (rowsol colsol : List (Option ℕ))
    (extend_cost : Bool) (cost_limit : Option K) (return_cost : Bool) : Prop :=
  (extend_cost = true → ∀ L > 0, cost_limit = some L →
    Gives large costs rowsol colsol extend_cost cost_limit return_cost (Cheap costs (L / 2))) ∧
  (R = C → extend_cost = false → cost_limit = none →
    Gives large costs rowsol colsol extend_cost cost_limit return_cost (Perfect costs))

omit [LinearOrder K] in
/-- The sum of the costs is defined for indices in the matrix. -/
theorem total_eq_ok {n : ℕ} {cost : ℕ → ℕ → K} {skip : Bool} {rowsol : List (Option ℕ)}
    (h : ∀ j ∈ rowsol, (j = none → skip = true) ∧ ∀ k, j = some k → k < n) :
    ∃ opt, total n cost skip rowsol = .ok opt := by
  have hpost : Loop.Post (fun _ => True) (fun _ => False) (total n cost skip rowsol) := by
    refine Loop.post (I := fun _ _ => True) (fun done p rest opt hl _ => ?_) trivial
    obtain ⟨j, i⟩ := p
    have hmem : (j, i) ∈ rowsol.zipIdx := hl ▸ List.mem_append_right _ List.mem_cons_self
    obtain ⟨hskip, hlt⟩ := h j (List.fst_mem_of_mem_zipIdx hmem)
    cases j with
    | none =>
      rw [hskip rfl]
      trivial
    | some k =>
      dsimp only
      rw [if_pos (hlt k rfl)]
      trivial
  cases htotal : total n cost skip rowsol with
  | error e =>
    rw [htotal] at hpost
    exact hpost.elim
  | ok opt => exact ⟨opt, rfl⟩

variable [IsStrictOrderedRing K] {costs : Fin R → Fin C → K} {L : K} {x y : ℕ → Option ℕ}
  {v : ℕ → K}

omit [IsStrictOrderedRing K] in
theorem Matched.exists_extended (h : Matched (R + C) (extend (matrix costs) R C (some L)) x y v)
    (hfree : ∀ i, ¬Free (R + C) y i) :
    ∃ (σ : Fin R ⊕ Fin C ≃ Fin C ⊕ Fin R) (price : Fin C ⊕ Fin R → K),
      (∀ r, x (index R C r) = some (index C R (σ r))) ∧
      (∀ c, y (index C R c) = some (index R C (σ.symm c))) ∧
      ∀ r, Cheapest (extended costs (L / 2)) price Set.univ r (σ r) := by
  obtain ⟨π, hx, hy, hcheapest⟩ := h.exists_equiv hfree
  let rows : Fin R ⊕ Fin C ≃ Fin (R + C) := finSumFinEquiv
  let columns : Fin C ⊕ Fin R ≃ Fin (R + C) := finSumFinEquiv.trans (finCongr (add_comm C R))
  have hrows (r : Fin R ⊕ Fin C) : ((rows r : Fin (R + C)) : ℕ) = index R C r :=
    finSumFinEquiv_eq_index R C r
  have hcolumns (c : Fin C ⊕ Fin R) : ((columns c : Fin (R + C)) : ℕ) = index C R c :=
    finSumFinEquiv_eq_index C R c
  let σ : Fin R ⊕ Fin C ≃ Fin C ⊕ Fin R := rows.trans (π.trans columns.symm)
  have hσ (r : Fin R ⊕ Fin C) : ((π (rows r) : Fin (R + C)) : ℕ) = index C R (σ r) := by
    rw [← hcolumns]
    exact congrArg Fin.val (columns.apply_symm_apply _).symm
  refine ⟨σ, fun c => v (index C R c), fun r => ?_, fun c => ?_, fun r c _ => ?_⟩
  · rw [← hrows, hx, hσ]
  · rw [← hcolumns, hy, ← hrows]
    exact congrArg (fun i : Fin (R + C) => some (i : ℕ)) (rows.apply_symm_apply _).symm
  · have hprice := hcheapest (rows r) _ (hcolumns c ▸ (columns c).isLt)
    rw [hσ, hrows, extend_index, extend_index] at hprice
    exact hprice

/-- **With an extended matrix, a call ends with a best partial matching.** -/
theorem execLapjv_extended (large : K) (costs : Fin R → Fin C → K) (hR : 0 < R)
    (rowsol colsol : List (Option ℕ)) (L : K) (return_cost : Bool) (hC : 0 < C) {fuel : ℕ}
    (hfuel : (R + C) + (R + C) * (R + C) + 1 < fuel) :
    ∃ rowsol' colsol' opt,
      execLapjv large fuel (matrix costs) rowsol colsol true (some L) return_cost =
        .ok (rowsol', colsol', opt) ∧ Cheap costs (L / 2) rowsol' colsol' := by
  obtain ⟨x, y, v, hsolve, hmatched, hfree⟩ := lapjv_internal_spec large
    (Nat.add_pos_left hR C) (extend (matrix costs) R C (some L)) hfuel
  obtain ⟨σ, price, hx, hy, hcheapest⟩ := hmatched.exists_extended hfree
  have hrowsol : (List.range R).map (fun i => cut C (x i)) =
      List.ofFn fun i => (restrict σ i).map Fin.val := by
    rw [map_range_eq_ofFn]
    congr 1
    funext i
    have hi := hx (.inl i)
    exact (congrArg (cut C) hi).trans (cut_index C R _)
  have hcolsol : (List.range C).map (fun j => cut R (y j)) =
      List.ofFn fun j => ((restrict σ).symm j).map Fin.val := by
    rw [map_range_eq_ofFn]
    congr 1
    funext j
    have hj := hy (.inl j)
    exact (congrArg (cut R) hj).trans (cut_index R C _)
  obtain ⟨opt, hopt⟩ : ∃ opt, (if return_cost then
      total (R + C) (extend (matrix costs) R C (some L)) true
        ((List.range R).map fun i => cut C (x i)) else .ok 0) = .ok opt := by
    split_ifs
    · refine total_eq_ok fun j hj => ⟨fun _ => rfl, ?_⟩
      rintro k rfl
      rw [hrowsol, List.mem_ofFn] at hj
      obtain ⟨i, hi⟩ := hj
      obtain ⟨j, -, rfl⟩ := Option.map_eq_some_iff.1 hi
      exact j.isLt.trans_le (Nat.le_add_left C R)
    · exact ⟨0, rfl⟩
  refine ⟨_, _, opt, ?_, restrict σ, ⟨hrowsol, hcolsol⟩,
    Assignment.value_restrict_le hcheapest⟩
  rw [execLapjv]
  dsimp only
  have hextends : R + C ≠ R := by omega
  simp only [length_matrix, columns_matrix costs hR, true_or, if_true]
  rw [if_neg (fun h => absurd h.2 Bool.false_ne_true), hsolve, Loop.ok_bind]
  dsimp only
  rw [if_neg (not_not.2 rfl), if_pos hextends, hopt]
  rfl

theorem execLapjv_square (large : K) {n : ℕ} (costs : Fin n → Fin n → K) (hn : 0 < n)
    (rowsol colsol : List (Option ℕ)) (return_cost : Bool) {fuel : ℕ}
    (hfuel : n + n * n + 1 < fuel) :
    execLapjv large fuel (matrix costs) rowsol colsol false none return_cost =
      (Stop.lift (if return_cost then
        total n (fun i j => ((matrix costs).getD i []).getD j 0) false (rowsol.takeD n (some 0))
        else .ok 0)).map fun opt => (rowsol.takeD n (some 0), colsol.takeD n (some 0), opt) := by
  obtain ⟨x, y, v, hsolve, -, -⟩ := lapjv_internal_spec large hn
    (fun i j => ((matrix costs).getD i []).getD j 0) hfuel
  rw [execLapjv]
  dsimp only
  simp only [length_matrix, columns_matrix costs hn, Option.isSome_none, Bool.false_eq_true, or_self,
    if_false]
  rw [if_neg (fun h => absurd rfl h.1), hsolve, Loop.ok_bind]
  dsimp only
  rw [if_neg (not_not.2 rfl), if_neg (not_not.2 rfl)]
  rfl

/-- The vectors for a square matrix are those of the caller. -/
theorem Gives.of_square {large : K} {n : ℕ} {costs : Fin n → Fin n → K} (hn : 0 < n)
    {rowsol colsol : List (Option ℕ)} {return_cost : Bool}
    {P : List (Option ℕ) → List (Option ℕ) → Prop}
    (h : Gives large costs rowsol colsol false none return_cost P) :
    P (rowsol.takeD n (some 0)) (colsol.takeD n (some 0)) := by
  obtain ⟨N, hN⟩ := h
  obtain ⟨rowsol', colsol', opt, hcall, hP⟩ := hN (max N (n + n * n + 2)) (le_max_left _ _)
  have hfuel : n + n * n + 1 < max N (n + n * n + 2) :=
    (Nat.lt_succ_self _).trans_le (le_max_right _ _)
  rw [execLapjv_square large costs hn rowsol colsol return_cost hfuel] at hcall
  generalize Stop.lift _ = opt' at hcall
  cases opt' with
  | error e => cases hcall
  | ok opt' =>
    cases hcall
    exact hP

theorem gives_of_perfect (large : K) {n : ℕ} {costs : Fin n → Fin n → K} (hn : 0 < n)
    {rowsol colsol : List (Option ℕ)} (return_cost : Bool)
    (h : Perfect costs (rowsol.takeD n (some 0)) (colsol.takeD n (some 0))) :
    Gives large costs rowsol colsol false none return_cost (Perfect costs) := by
  refine ⟨n + n * n + 2, fun fuel hfuel => ?_⟩
  obtain ⟨opt, hopt⟩ : ∃ opt, (if return_cost then
      total n (fun i j => ((matrix costs).getD i []).getD j 0) false (rowsol.takeD n (some 0))
      else .ok 0) = .ok opt := by
    obtain ⟨σ, hσ, -⟩ := h
    split_ifs
    · refine total_eq_ok fun j hj => ?_
      rw [hσ.rowsol_eq, List.mem_ofFn] at hj
      obtain ⟨i, rfl⟩ := hj
      refine ⟨nofun, fun k hk => ?_⟩
      obtain rfl := Option.some.inj hk
      exact (σ i).isLt
    · exact ⟨0, rfl⟩
  refine ⟨_, _, opt, ?_, h⟩
  rw [execLapjv_square large costs hn rowsol colsol return_cost hfuel, hopt]
  rfl

/-- **A call does what it should exactly if it does not have to write the vectors itself for a
square matrix:** the matrix is extended, or the vectors of the caller, with zeros up to their new
length, are a perfect matching of minimal cost already. -/
theorem linearAssignment_iff (large : K) (costs : Fin R → Fin C → K) (hR : 0 < R) (hC : 0 < C)
    (rowsol colsol : List (Option ℕ)) (extend_cost : Bool) (cost_limit : Option K)
    (return_cost : Bool) :
    LinearAssignment large costs rowsol colsol extend_cost cost_limit return_cost ↔
      (R = C → extend_cost = false → cost_limit = none →
        Perfect costs (rowsol.takeD R (some 0)) (colsol.takeD C (some 0))) := by
  constructor
  · rintro ⟨-, hsquare⟩ rfl rfl rfl
    exact (hsquare rfl rfl rfl).of_square hR
  · intro h
    refine ⟨?_, ?_⟩
    · rintro rfl L - rfl
      exact ⟨(R + C) + (R + C) * (R + C) + 2, fun fuel hfuel =>
        execLapjv_extended large costs hR rowsol colsol L return_cost hC hfuel⟩
    · rintro rfl rfl rfl
      exact gives_of_perfect large hR return_cost (h rfl rfl rfl)

end Calls

/-- Two rows and three columns. -/
theorem linearAssignment_twoByThree :
    LinearAssignment (1000 : ℚ) (fun (i : Fin 2) (j : Fin 3) => (i + j : ℚ)) [] [] true (some 1)
      true :=
  (linearAssignment_iff 1000 _ Nat.two_pos (Nat.succ_pos 2) [] [] true (some 1) true).2 nofun

/-- A square matrix, whose diagonal is the matching of minimal cost: both rows get the first
column. -/
theorem not_linearAssignment_diagonal :
    ¬LinearAssignment (1000 : ℚ) (fun i j : Fin 2 => if i = j then 0 else 1) [] [] false none
      true := by
  rintro ⟨-, hsquare⟩
  obtain ⟨σ, hσ, -⟩ := (hsquare rfl rfl rfl).of_square Nat.two_pos
  have hrows : [some 0, some 0] = [some (σ 0 : ℕ), some (σ 1 : ℕ)] := hσ.rowsol_eq
  have hsame : σ 0 = σ 1 := by
    simp only [List.cons.injEq, Option.some.injEq] at hrows
    exact Fin.ext (hrows.1.symm.trans hrows.2.1)
  exact absurd (σ.injective hsame) (by decide)

end DepthaiCore.Lapjv
