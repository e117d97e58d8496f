import DepthaiCore.Lib.Loops
import Mathlib.Tactic.Ring

/-!
# Loops over the cells of a grid

Two nested loops visit the cells of a grid row by row. When every round changes its own cell only,
and what it makes of the cell depends on nothing but the cell, the loops change every cell once. The
state of the loops is whatever keeps the cells, such as a list or two of them.
-/

namespace Grid

variable {σ ε A : Type*} {m n : ℕ}

/-! ### Cells in a list -/

/-- The cells as a list. -/
def cells (N : ℕ) (p : ℕ → A) : List A :=
  (List.range N).map p

@[simp] theorem length_cells (N : ℕ) (p : ℕ → A) : (cells N p).length = N := by
  rw [cells, List.length_map, List.length_range]

theorem getElem?_cells {N i : ℕ} (hi : i < N) (p : ℕ → A) : (cells N p)[i]? = some (p i) := by
  rw [cells, List.getElem?_map, List.getElem?_range hi]
  rfl

theorem set_cells (N i : ℕ) (p : ℕ → A) (a : A) :
    (cells N p).set i a = cells N (Function.update p i a) := by
  refine List.ext_getElem (by simp) fun k hk hk' => ?_
  rw [List.getElem_set]
  simp only [cells, List.getElem_map, List.getElem_range, Function.update_apply]
  exact if_congr eq_comm rfl rfl

theorem replicate_eq_cells (N : ℕ) (a : A) : List.replicate N a = cells N fun _ => a := by
  rw [cells, List.map_const', List.length_range]

theorem cells_congr {N : ℕ} {p q : ℕ → A} (h : ∀ k < N, p k = q k) : cells N p = cells N q :=
  List.map_congr_left fun k hk => h k (List.mem_range.1 hk)

theorem row_eq {i j : ℕ} (hj : j < n) : (i * n + j) / n = i := by
  rw [Nat.mul_comm, Nat.mul_add_div (Nat.zero_lt_of_lt hj), Nat.div_eq_of_lt hj, Nat.add_zero]

theorem column_eq {i j : ℕ} (hj : j < n) : (i * n + j) % n = j := by
  rw [Nat.mul_comm, Nat.mul_add_mod, Nat.mod_eq_of_lt hj]

/-- What holds for all cells holds for all rows and columns. -/
theorem forall_cell_iff {P : ℕ → ℕ → Prop} :
    (∀ k < m * n, P (k / n) (k % n)) ↔ ∀ i < m, ∀ j < n, P i j := by
  constructor
  · intro h i hi j hj
    have hmul := Nat.mul_le_mul_right n (Nat.succ_le_of_lt hi)
    rw [Nat.succ_mul] at hmul
    have hcell := h (i * n + j) (by omega)
    rwa [row_eq hj, column_eq hj] at hcell
  · intro h k hk
    have hn : 0 < n := Nat.pos_of_ne_zero fun hzero => by simp [hzero] at hk
    exact h _ (Nat.div_lt_of_lt_mul (Nat.mul_comm m n ▸ hk)) _ (Nat.mod_lt k hn)

theorem cells_eq_iff {N : ℕ} {p q : ℕ → A} : cells N p = cells N q ↔ ∀ k < N, p k = q k := by
  constructor
  · intro h k hk
    have hget := congrArg (fun l => l[k]?) h
    simp only [getElem?_cells hk, Option.some.injEq] at hget
    exact hget
  · exact cells_congr

/-! ### The loops -/

/-- The cells in the first `k` places of a row are changed. -/
def rowDone (g : ℕ → ℕ → A → A) (n i j : ℕ) (p : ℕ → A) (k : ℕ) : A :=
  if i * n ≤ k ∧ k < i * n + j then g i (k - i * n) (p k) else p k

/-- The cells in the first `i` rows are changed. -/
def rowsDone (g : ℕ → ℕ → A → A) (n i : ℕ) (p : ℕ → A) (k : ℕ) : A :=
  if k < i * n then g (k / n) (k % n) (p k) else p k

variable {g : ℕ → ℕ → A → A} {S : (ℕ → A) → σ} {body : σ → ℕ → ℕ → Except ε σ}

theorem rowDone_zero (i : ℕ) (p : ℕ → A) : rowDone g n i 0 p = p := by
  funext k
  rw [rowDone, if_neg (by omega)]

theorem update_rowDone (i j : ℕ) (p : ℕ → A) :
    Function.update (rowDone g n i j p) (i * n + j) (g i j (rowDone g n i j p (i * n + j))) =
      rowDone g n i (j + 1) p := by
  funext k
  rw [Function.update_apply]
  simp only [rowDone]
  by_cases hk : k = i * n + j
  · subst hk
    rw [if_pos rfl, if_neg (by omega), if_pos ⟨by omega, by omega⟩, Nat.add_sub_cancel_left]
  · rw [if_neg hk]
    exact if_congr (by omega) rfl rfl

theorem rowsDone_zero (p : ℕ → A) : rowsDone g n 0 p = p := by
  funext k
  rw [rowsDone, if_neg (by omega)]

theorem rowDone_rowsDone (i : ℕ) (p : ℕ → A) :
    rowDone g n i n (rowsDone g n i p) = rowsDone g n (i + 1) p := by
  funext k
  have hsucc : (i + 1) * n = i * n + n := Nat.succ_mul i n
  simp only [rowDone, rowsDone]
  by_cases hrow : i * n ≤ k ∧ k < i * n + n
  · have hdiv : k / n = i :=
      Nat.div_eq_of_lt_le hrow.1 (by rw [Nat.succ_mul]; exact hrow.2)
    have hmod : k % n = k - i * n := by
      have hk := Nat.div_add_mod k n
      rw [hdiv, Nat.mul_comm] at hk
      omega
    rw [if_pos hrow, if_neg (by omega), if_pos (by omega), hdiv, hmod]
  · rw [if_neg hrow]
    exact if_congr (by omega) rfl rfl

/-- **The loops change every cell once.** -/
theorem foldlM_eq_ok (hbody : ∀ p i j, i < m → j < n →
      body (S p) i j = .ok (S (Function.update p (i * n + j) (g i j (p (i * n + j)))))) (p : ℕ → A) :
    (List.range m).foldlM (fun s i => (List.range n).foldlM (fun s j => body s i j) s) (S p) =
      .ok (S (rowsDone g n m p)) := by
  have hrows := Loop.foldlM_range_eq_ok (n := m) (s := fun i => S (rowsDone g n i p))
    (f := fun s i => (List.range n).foldlM (fun s j => body s i j) s) fun i hi => ?_
  · rw [← hrows]
    simp only [rowsDone_zero]
  · have hrow := Loop.foldlM_range_eq_ok (n := n) (s := fun j => S (rowDone g n i j (rowsDone g n i p)))
      (f := fun s j => body s i j) fun j hj => ?_
    · simp only [rowDone_zero, rowDone_rowsDone] at hrow
      exact hrow
    · rw [hbody _ i j hi hj, update_rowDone]

theorem rowsDone_eq (p : ℕ → A) {k : ℕ} (hk : k < m * n) :
    rowsDone g n m p k = g (k / n) (k % n) (p k) :=
  if_pos hk

section Ends

variable {I : σ → Prop} {s t : σ}

theorem row_invariant (hbody : ∀ s i j t, I s → body s i j = .ok t → I t) {i : ℕ} (hs : I s)
    (h : (List.range n).foldlM (fun s j => body s i j) s = .ok t) : I t :=
  Loop.invariant (I := fun _ s => I s) (fun _ j _ s t _ hs hst => hbody s i j t hs hst) hs h

theorem invariant (hbody : ∀ s i j t, I s → body s i j = .ok t → I t) (hs : I s)
    (h : (List.range m).foldlM (fun s i => (List.range n).foldlM (fun s j => body s i j) s) s =
      .ok t) : I t :=
  Loop.invariant (I := fun _ s => I s) (fun _ _ _ _ _ _ hs hst => row_invariant hbody hs hst) hs h

/-- **Loops that end have ended every round.** -/
theorem exists_round (hbody : ∀ s i j t, I s → body s i j = .ok t → I t) (hs : I s)
    (h : (List.range m).foldlM (fun s i => (List.range n).foldlM (fun s j => body s i j) s) s = .ok t)
    {i j : ℕ} (hi : i < m) (hj : j < n) : ∃ u v, I u ∧ body u i j = .ok v := by
  obtain ⟨u, v, hu, huv⟩ := Loop.exists_round (fun s i t hs hst => row_invariant hbody hs hst) hs h
    (List.mem_range.2 hi)
  exact Loop.exists_round (fun s j t hs hst => hbody s i j t hs hst) hu huv (List.mem_range.2 hj)

end Ends

end Grid
