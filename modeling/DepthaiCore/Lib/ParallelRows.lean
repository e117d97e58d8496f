import DepthaiCore.Lib.Loops
import Mathlib.Data.List.Perm.Basic
import Mathlib.Data.List.Nodup
import Mathlib.Data.List.Range
import Mathlib.Tactic.Ring

/-!
# Rows shared out among tasks

The rows of an array are split into ranges of equal length, and the last range also takes the
remainder. The ranges come one after another and have every row once.

Tasks that write to elements of one list do so in any order that keeps the order of each task. When
no element is written twice, what they leave does not depend on it.
-/

namespace ParallelRows

universe u

variable {α ε : Type*}

/-! ### The split -/

section Split

variable (height tasks t : ℕ)

/-- The first row of task `t`. -/
def startRow : ℕ :=
  t * (height / tasks)

/-- The row behind the last of task `t`. -/
def endRow : ℕ :=
  if t + 1 = tasks then height else t * (height / tasks) + height / tasks

/-- The rows of task `t`. -/
def rows : List ℕ :=
  List.range' (startRow height tasks t) (endRow height tasks t - startRow height tasks t)

end Split

variable {height tasks t : ℕ}

theorem startRow_le_endRow (height : ℕ) (ht : t < tasks) :
    startRow height tasks t ≤ endRow height tasks t := by
  have hmul : t * (height / tasks) ≤ tasks * (height / tasks) := Nat.mul_le_mul_right _ ht.le
  have hdiv := Nat.mul_div_le height tasks
  simp only [startRow, endRow]
  generalize height / tasks = q at *
  split_ifs <;> omega

theorem endRow_le (height : ℕ) (ht : t < tasks) : endRow height tasks t ≤ height := by
  have hmul := Nat.mul_le_mul_right (height / tasks) (Nat.succ_le_of_lt ht)
  have hdiv := Nat.mul_div_le height tasks
  rw [Nat.succ_mul] at hmul
  simp only [endRow]
  generalize height / tasks = q at *
  split_ifs <;> omega

theorem flatMap_range' (q n : ℕ) :
    ((List.range n).flatMap fun t => List.range' (t * q) q) = List.range (n * q) := by
  induction n with
  | zero => simp
  | succ n ih =>
    rw [List.range_succ, List.flatMap_append, ih, List.flatMap_singleton, Nat.succ_mul,
      List.range_eq_range', List.range_eq_range']
    have happend := List.range'_append_1 (s := 0) (m := n * q) (n := q)
    rwa [Nat.zero_add] at happend

/-- **The ranges have every row once**, in order. -/
theorem flatMap_rows (height : ℕ) (htasks : 0 < tasks) :
    (List.range tasks).flatMap (rows height tasks) = List.range height := by
  obtain ⟨n, rfl⟩ := Nat.exists_eq_succ_of_ne_zero htasks.ne'
  have hbefore : ∀ t ∈ List.range n, rows height (n + 1) t =
      List.range' (t * (height / (n + 1))) (height / (n + 1)) := by
    intro t ht
    have hne : t + 1 ≠ n + 1 := by have := List.mem_range.1 ht; omega
    rw [rows, startRow, endRow, if_neg hne, Nat.add_sub_cancel_left]
  have hlast : rows height (n + 1) n =
      List.range' (n * (height / (n + 1))) (height - n * (height / (n + 1))) := by
    rw [rows, startRow, endRow, if_pos rfl]
  have hle : n * (height / (n + 1)) ≤ height :=
    (Nat.mul_le_mul_right _ n.le_succ).trans (Nat.mul_div_le height (n + 1))
  rw [List.range_succ, List.flatMap_append, List.flatMap_congr hbefore, flatMap_range',
    List.flatMap_singleton, hlast, List.range_eq_range', List.range_eq_range']
  have happend := List.range'_append_1 (s := 0) (m := n * (height / (n + 1)))
    (n := height - n * (height / (n + 1)))
  rwa [Nat.zero_add, Nat.add_sub_cancel' hle] at happend

/-- A loop over what tasks have one after another is a loop over all. -/
theorem mapM_flatMap {α β γ : Type u} (g : α → List β) (f : β → Except ε γ) (l : List α) :
    (l.mapM fun a => (g a).mapM f).map List.flatten = (l.flatMap g).mapM f := by
  induction l with
  | nil => rfl
  | cons a l ih =>
    rw [List.flatMap_cons, List.mapM_append, ← ih, List.mapM_cons]
    cases (g a).mapM f with
    | error e => rfl
    | ok part => cases l.mapM fun a => (g a).mapM f <;> rfl

theorem div_mod_cell (row : ℕ) {col w : ℕ} (hcol : col < w) :
    (row * w + col) / w = row ∧ (row * w + col) % w = col := by
  have hpos : 0 < w := Nat.zero_lt_of_lt hcol
  rw [Nat.mul_comm row, Nat.mul_add_div hpos, Nat.div_eq_of_lt hcol, Nat.add_zero, Nat.mul_add_mod,
    Nat.mod_eq_of_lt hcol]
  exact ⟨rfl, rfl⟩

/-- A loop over rows with a loop over columns is a loop over the cells in row-major order. -/
theorem mapM_cells {γ : Type} {ε : Type*} (h w : ℕ) (f : ℕ → ℕ → Except ε γ) :
    ((List.range h).mapM fun row => (List.range w).mapM (f row)).map List.flatten =
      (List.range (h * w)).mapM fun i => f (i / w) (i % w) := by
  have hrow : ∀ row, (List.range w).mapM (f row) =
      (List.range' (row * w) w).mapM fun i => f (i / w) (i % w) := by
    intro row
    rw [List.range'_eq_map_range, List.mapM_map]
    refine Loop.mapM_congr fun col hcol => ?_
    obtain ⟨hdiv, hmod⟩ := div_mod_cell row (List.mem_range.1 hcol)
    rw [Function.comp_apply, hdiv, hmod]
  rw [← flatMap_range', ← mapM_flatMap]
  simp only [hrow]

/-! ### Writes -/

/-- The orders in which the steps of tasks can come. -/
inductive Interleaving : List (List α) → List α → Prop
  | nil {tasks : List (List α)} (h : ∀ task ∈ tasks, task = []) : Interleaving tasks []
  | cons {before after : List (List α)} {task : List α} {a : α} {steps : List α} :
      Interleaving (before ++ task :: after) steps →
        Interleaving (before ++ (a :: task) :: after) (a :: steps)

theorem interleaving_flatten (tasks : List (List α)) : Interleaving tasks tasks.flatten := by
  suffices hmain : ∀ before : List (List α), (∀ task ∈ before, task = []) →
      Interleaving (before ++ tasks) tasks.flatten from hmain [] (by simp)
  induction tasks with
  | nil =>
    intro before hbefore
    exact .nil (by simpa using hbefore)
  | cons task tasks ih =>
    intro before hbefore
    induction task with
    | nil =>
      have h := ih (before ++ [[]]) (by simpa [or_imp, forall_and] using hbefore)
      simpa using h
    | cons a task ihtask => exact .cons ihtask

theorem Interleaving.perm {tasks : List (List α)} {steps : List α} (h : Interleaving tasks steps) :
    steps.Perm tasks.flatten := by
  induction h with
  | nil h => rw [List.flatten_eq_nil_iff.2 h]
  | @cons before after task a steps _ ih =>
    rw [List.flatten_append, List.flatten_cons] at ih ⊢
    rw [List.cons_append]
    exact (ih.cons a).trans List.perm_middle.symm

/-- Write elements of a list; `missing` if there is no such element. -/
def store (missing : ε) (l : List α) (writes : List (ℕ × α)) : Except ε (List α) :=
  writes.foldlM (fun l w => if w.1 < l.length then .ok (l.set w.1 w.2) else .error missing) l

theorem store_eq_ok {missing : ε} {l : List α} {writes : List (ℕ × α)}
    (h : ∀ w ∈ writes, w.1 < l.length) :
    store missing l writes = .ok (writes.foldl (fun l w => l.set w.1 w.2) l) := by
  induction writes generalizing l with
  | nil => rfl
  | cons w writes ih =>
    obtain ⟨hw, hwrites⟩ := List.forall_mem_cons.1 h
    rw [store, List.foldlM_cons, if_pos hw, List.foldl_cons]
    exact ih (by simpa using hwrites)

theorem store_eq_error {missing : ε} {l : List α} {writes : List (ℕ × α)} {w : ℕ × α}
    (hw : w ∈ writes) (hlength : l.length ≤ w.1) : store missing l writes = .error missing := by
  induction writes generalizing l with
  | nil => cases hw
  | cons v writes ih =>
    rw [store, List.foldlM_cons]
    split_ifs with hv
    · rcases List.mem_cons.1 hw with rfl | hw
      · omega
      · exact ih hw (by simpa using hlength)
    · rfl

theorem length_of_store {missing : ε} {l l' : List α} {writes : List (ℕ × α)}
    (h : store missing l writes = .ok l') : l'.length = l.length := by
  induction writes generalizing l with
  | nil =>
    cases h
    rfl
  | cons w writes ih =>
    rw [store, List.foldlM_cons] at h
    split_ifs at h
    · exact (ih h).trans List.length_set
    · cases h

/-- **Writes to different elements come to the same in every order.** -/
theorem store_perm (missing : ε) (l : List α) {writes writes' : List (ℕ × α)}
    (hperm : writes.Perm writes') (hnodup : (writes.map Prod.fst).Nodup) :
    store missing l writes = store missing l writes' := by
  by_cases hall : ∀ w ∈ writes, w.1 < l.length
  · rw [store_eq_ok hall, store_eq_ok fun w hw => hall w (hperm.mem_iff.2 hw)]
    congr 1
    refine hperm.foldl_eq' ?_ l
    intro v hv w hw z
    by_cases hvw : v.1 = w.1
    · rw [List.inj_on_of_nodup_map hnodup hv hw hvw]
    · exact List.set_comm _ _ hvw
  · push Not at hall
    obtain ⟨w, hw, hlength⟩ := hall
    rw [store_eq_error hw hlength, store_eq_error (hperm.mem_iff.1 hw) hlength]

theorem store_perm_of_missing {missing : ε} {l : List α} {writes writes' : List (ℕ × α)}
    (hperm : writes.Perm writes') (hmiss : ∃ w ∈ writes, l.length ≤ w.1) :
    store missing l writes = store missing l writes' := by
  obtain ⟨w, hw, hlength⟩ := hmiss
  rw [store_eq_error hw hlength, store_eq_error (hperm.mem_iff.1 hw) hlength]

theorem foldl_set (left : List α) {right : List α} {writes : List (ℕ × α)}
    (h : writes.map Prod.fst = List.range' left.length right.length) :
    writes.foldl (fun l w => l.set w.1 w.2) (left ++ right) = left ++ writes.map Prod.snd := by
  induction writes generalizing left right with
  | nil =>
    obtain rfl : right = [] := by simpa using congrArg List.length h.symm
    rfl
  | cons w writes ih =>
    cases right with
    | nil => simp at h
    | cons b right =>
      rw [List.map_cons, List.length_cons, List.range'_succ, List.cons.injEq] at h
      have hset : (left ++ b :: right).set w.1 w.2 = left ++ [w.2] ++ right := by
        rw [h.1, List.set_append_right _ _ le_rfl, Nat.sub_self, List.append_assoc]
        rfl
      rw [List.foldl_cons, hset, ih (left ++ [w.2]) (by simpa using h.2)]
      simp

/-- **Writes to all elements**, in order, leave what is written. -/
theorem store_range (missing : ε) {l : List α} {writes : List (ℕ × α)}
    (h : writes.map Prod.fst = List.range l.length) :
    store missing l writes = .ok (writes.map Prod.snd) := by
  have hlt : ∀ w ∈ writes, w.1 < l.length := fun w hw =>
    List.mem_range.1 (h ▸ List.mem_map_of_mem hw)
  rw [store_eq_ok hlt]
  exact congrArg Except.ok (foldl_set [] (by rw [h, List.range_eq_range']; rfl))

end ParallelRows
