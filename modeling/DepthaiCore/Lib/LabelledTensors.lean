import DepthaiCore.Lib.RowMajor
import Mathlib.Data.Fintype.Basic

/-!
# Tensors whose axes have labels

A tensor has a shape and an element for each tuple of coordinates within it. Axes are permuted, axes
of extent 1 are inserted and taken away. A list of labels names the axes of a tensor, in their
order, and a label that it does not have stands for an axis of extent 1. The element at label
coordinates then does not depend on the order of the axes, and it is kept when the labels follow the
axes.
-/

open RowMajor

/-- A shape, and the element at the coordinates within it. -/
@[ext] structure Tensor (T : Type*) where
  shape : List ℕ
  at? : List ℕ → Option T
  isSome_at? : ∀ v, (at? v).isSome ↔ Within v shape

namespace Tensor

variable {T : Type*} {v shape : List ℕ} {p : ℕ}

/-- The tensor of a function on coordinates. -/
def ofFn (shape : List ℕ) (f : List ℕ → T) : Tensor T where
  shape
  at? v := if Within v shape then some (f v) else none
  isSome_at? v := by split <;> simp [*]

/-! ### Coordinates -/

theorem within_iff :
    Within v shape ↔ v.length = shape.length ∧ ∀ i < shape.length, v.getD i 0 < shape.getD i 0 := by
  induction shape generalizing v with
  | nil =>
    rw [Within, List.forall₂_nil_right_iff, List.length_nil, List.length_eq_zero_iff]
    simp
  | cons extent shape ih =>
    cases v with
    | nil => simp [Within]
    | cons x v =>
      rw [Within, List.forall₂_cons, ← Within, ih, List.length_cons, List.length_cons,
        Nat.forall_lt_succ_left']
      simp only [List.getD_cons_zero, List.getD_cons_succ, Nat.add_right_cancel_iff]
      tauto

theorem within_insertIdx (h : shape[p]? = some 1) :
    Within (v.insertIdx p 0) shape ↔ Within v (shape.eraseIdx p) := by
  induction p generalizing v shape with
  | zero =>
    cases shape with
    | nil => cases h
    | cons extent shape =>
      cases h
      simp [Within]
  | succ p ih =>
    cases shape with
    | nil => cases h
    | cons extent shape =>
      cases v with
      | nil => simp [Within]
      | cons x v =>
        rw [List.insertIdx_succ_cons, List.eraseIdx_cons_succ, Within, List.forall₂_cons, ← Within,
          ih h, Within, Within, List.forall₂_cons]

theorem within_eraseIdx (h : p ≤ shape.length) :
    Within v (shape.insertIdx p 1) ↔ v[p]? = some 0 ∧ Within (v.eraseIdx p) shape := by
  induction p generalizing v shape with
  | zero =>
    cases v with
    | nil => simp [Within]
    | cons x v => simp [Within]
  | succ p ih =>
    cases shape with
    | nil => exact absurd h (Nat.not_succ_le_zero p)
    | cons extent shape =>
      cases v with
      | nil => simp [Within]
      | cons x v =>
        rw [List.insertIdx_succ_cons, List.eraseIdx_cons_succ, Within, List.forall₂_cons, ← Within,
          ih (Nat.le_of_succ_le_succ h), Within, Within, List.forall₂_cons,
          List.getElem?_cons_succ]
        tauto

/-! ### Operations -/

/-- The coordinates before a permutation of the axes. -/
def unpermute (perm v : List ℕ) (rank : ℕ) : List ℕ :=
  (List.range rank).map fun a => v.getD (perm.idxOf a) 0

theorem getD_map_range (f : ℕ → ℕ) {n i : ℕ} (h : i < n) :
    ((List.range n).map f).getD i 0 = f i := by
  simp [h]

theorem idxOf_lt_of_perm {perm : List ℕ} {rank a : ℕ} (h : perm.Perm (List.range rank))
    (ha : a < rank) : perm.idxOf a < rank := by
  have hmem : a ∈ perm := h.mem_iff.2 (List.mem_range.2 ha)
  simpa [h.length_eq] using List.idxOf_lt_length_of_mem hmem

theorem within_unpermute {perm : List ℕ} (h : perm.Perm (List.range shape.length)) :
    v.length = shape.length ∧ Within (unpermute perm v shape.length) shape ↔
      Within v (perm.map fun a => shape.getD a 0) := by
  have hlength : perm.length = shape.length := by rw [h.length_eq, List.length_range]
  rw [within_iff, within_iff, unpermute, List.length_map, List.length_range, List.length_map,
    hlength, and_iff_right rfl]
  refine and_congr_right fun hc => ?_
  constructor
  · intro hall i hi
    have ha : perm[i] < shape.length :=
      List.mem_range.1 (h.mem_iff.1 (List.getElem_mem (by omega)))
    have hi' := hall perm[i] ha
    rw [getD_map_range _ ha] at hi'
    have hidx : perm.idxOf perm[i] = i :=
      (h.nodup_iff.2 List.nodup_range).idxOf_getElem i (by omega)
    rw [hidx] at hi'
    simpa [hlength, hi] using hi'
  · intro hall a ha
    have hi := idxOf_lt_of_perm h ha
    have ha' := hall (perm.idxOf a) hi
    rw [getD_map_range _ ha]
    have hidx : perm.idxOf a < perm.length := hlength ▸ hi
    have hget : perm[perm.idxOf a] = a := List.getElem_idxOf hidx
    simpa [hlength, hi, hget] using ha'

/-- The axes in another order: the axis `perm[i]` comes to the place `i`. -/
def transpose (t : Tensor T) (perm : List ℕ) (h : perm.Perm (List.range t.shape.length)) :
    Tensor T where
  shape := perm.map fun a => t.shape.getD a 0
  at? v := if v.length = t.shape.length then t.at? (unpermute perm v t.shape.length) else none
  isSome_at? v := by
    rw [← within_unpermute h, ← t.isSome_at?]
    split <;> simp [*]

/-- A new axis of extent 1 at a place. -/
def expandDims (t : Tensor T) (p : ℕ) (h : p ≤ t.shape.length) : Tensor T where
  shape := t.shape.insertIdx p 1
  at? v := if v[p]? = some 0 then t.at? (v.eraseIdx p) else none
  isSome_at? v := by
    rw [within_eraseIdx h, ← t.isSome_at?]
    split <;> simp [*]

/-- An axis of extent 1 less. -/
def squeeze (t : Tensor T) (p : ℕ) (h : t.shape[p]? = some 1) : Tensor T where
  shape := t.shape.eraseIdx p
  at? v := t.at? (v.insertIdx p 0)
  isSome_at? v := by rw [t.isSome_at?, within_insertIdx h]

variable {t : Tensor T}

theorem at?_eq_none (h : ¬Within v t.shape) : t.at? v = none := by
  rw [← Option.not_isSome_iff_eq_none, t.isSome_at?]
  exact h

theorem getElem?_of_within (h : Within v shape) (hp : shape[p]? = some 1) : v[p]? = some 0 := by
  obtain ⟨hlt, hone⟩ := List.getElem?_eq_some_iff.1 hp
  obtain ⟨hlength, hall⟩ := within_iff.1 h
  have hzero := hall p hlt
  have hp' : p < v.length := hlength ▸ hlt
  rw [← List.getElem_eq_getD (h := hlt), hone, ← List.getElem_eq_getD (h := hp')] at hzero
  rw [List.getElem?_eq_getElem hp', Nat.lt_one_iff.1 hzero]

/-- **Of two neighbours of extent 1** either may be taken away. -/
theorem squeeze_succ (h : t.shape[p]? = some 1) (h' : t.shape[p + 1]? = some 1) :
    t.squeeze (p + 1) h' = t.squeeze p h := by
  have hshape : t.shape.eraseIdx (p + 1) = t.shape.eraseIdx p := by
    refine List.ext_getElem? fun i => ?_
    rw [List.getElem?_eraseIdx, List.getElem?_eraseIdx]
    rcases lt_trichotomy i p with hi | rfl | hi
    · rw [if_pos hi, if_pos (Nat.lt_succ_of_lt hi)]
    · rw [if_pos (Nat.lt_succ_self i), if_neg (lt_irrefl i), h, h']
    · rw [if_neg (by omega), if_neg (by omega)]
  refine Tensor.ext hshape (funext fun v => ?_)
  change t.at? (v.insertIdx (p + 1) 0) = t.at? (v.insertIdx p 0)
  by_cases hc : Within v (t.shape.eraseIdx p)
  · have hone : (t.shape.eraseIdx p)[p]? = some 1 := by
      rw [List.getElem?_eraseIdx_of_ge le_rfl, h']
    obtain ⟨hlt, hzero⟩ := List.getElem?_eq_some_iff.1 (getElem?_of_within hc hone)
    have hsame : v.insertIdx (p + 1) 0 = v.insertIdx p 0 := by
      refine List.ext_getElem? fun i => ?_
      rw [List.getElem?_insertIdx, List.getElem?_insertIdx]
      rcases lt_trichotomy i p with hi | rfl | hi
      · rw [if_pos hi, if_pos (Nat.lt_succ_of_lt hi)]
      · simp [hlt, hzero, hlt.le]
      · rcases Nat.eq_or_lt_of_le (Nat.succ_le_of_lt hi) with rfl | hi'
        · simp [hlt, hzero, Nat.succ_le_of_lt hlt]
        · rw [if_neg (by omega), if_neg (by omega), if_neg (by omega), if_neg (by omega)]
    rw [hsame]
  · rw [at?_eq_none (mt (within_insertIdx h).1 hc),
      at?_eq_none (mt (within_insertIdx h').1 (hshape ▸ hc))]

/-! ### Labels -/

section Labels

variable {α : Type*} [DecidableEq α] [Fintype α] {labels labels' : List α}

/-- The element at label coordinates. A label that the tensor does not have stands for an axis of
extent 1. -/
def value (labels : List α) (t : Tensor T) (coord : α → ℕ) : Option T :=
  if ∀ a, a ∉ labels → coord a = 0 then t.at? (labels.map coord) else none

omit [Fintype α] in
theorem perm_map_idxOf (hnodup : labels.Nodup) (hperm : labels'.Perm labels) :
    (labels'.map labels.idxOf).Perm (List.range labels.length) := by
  have hself : labels.map labels.idxOf = List.range labels.length := by
    refine List.ext_getElem (by simp) fun i hi _ => ?_
    rw [List.getElem_map, List.getElem_range]
    exact hnodup.idxOf_getElem i _
  rw [← hself]
  exact hperm.map _

/-- **The labels follow the axes** when these are permuted. -/
theorem value_transpose (hnodup : labels.Nodup) (hperm : labels'.Perm labels)
    (hlength : labels.length = t.shape.length)
    (h : (labels'.map labels.idxOf).Perm (List.range t.shape.length)) :
    value labels' (t.transpose _ h) = value labels t := by
  funext coord
  have hunpermute : unpermute (labels'.map labels.idxOf) (labels'.map coord) t.shape.length =
      labels.map coord := by
    refine List.ext_getElem (by simp [unpermute, hlength]) fun i hi hi' => ?_
    have hi'' : i < labels.length := by simpa using hi'
    have hmem : labels[i] ∈ labels' := hperm.mem_iff.2 (List.getElem_mem hi'')
    have hidx : (labels'.map labels.idxOf).idxOf i = labels'.idxOf labels[i] := by
      have hlt := List.idxOf_lt_length_of_mem hmem
      have hget : (labels'.map labels.idxOf)[labels'.idxOf labels[i]]? = some i := by
        rw [List.getElem?_map, List.getElem?_eq_getElem hlt, List.getElem_idxOf hlt]
        exact congrArg some (hnodup.idxOf_getElem i hi'')
      obtain ⟨hlt', hget'⟩ := List.getElem?_eq_some_iff.1 hget
      have hself := (h.nodup_iff.2 List.nodup_range).idxOf_getElem _ hlt'
      rwa [hget'] at hself
    have hlt := List.idxOf_lt_length_of_mem hmem
    have hlt' : labels'.idxOf labels[i] < (labels'.map coord).length := by simpa using hlt
    simp only [unpermute, List.getElem_map, List.getElem_range, hidx]
    rw [← List.getElem_eq_getD (h := hlt'), List.getElem_map, List.getElem_idxOf hlt]
  have hcondition : (∀ a, a ∉ labels' → coord a = 0) ↔ ∀ a, a ∉ labels → coord a = 0 := by
    simp only [hperm.mem_iff]
  have hlength' : (labels'.map coord).length = t.shape.length := by
    rw [List.length_map, hperm.length_eq, hlength]
  rw [value, value]
  simp only [hcondition]
  split
  · exact (if_pos hlength').trans (congrArg t.at? hunpermute)
  · rfl

theorem value_expandDims {a : α} (ha : a ∉ labels) (hlength : labels.length = t.shape.length) :
    value (labels ++ [a]) (t.expandDims t.shape.length le_rfl) = value labels t := by
  funext coord
  have hlast : ((labels ++ [a]).map coord)[t.shape.length]? = some (coord a) := by
    rw [← hlength]
    simp
  have herase : ((labels ++ [a]).map coord).eraseIdx t.shape.length = labels.map coord := by
    rw [← hlength, List.map_append, List.eraseIdx_append_of_length_le (by simp)]
    simp
  by_cases hzero : coord a = 0
  · have hcondition : (∀ b, b ∉ labels ++ [a] → coord b = 0) ↔ ∀ b, b ∉ labels → coord b = 0 := by
      refine forall_congr' fun b => ?_
      by_cases hb : b = a
      · simp [hb, hzero]
      · simp [hb]
    rw [value, value]
    simp only [hcondition]
    split
    · change (if _ then _ else _) = _
      rw [hlast, if_pos (by rw [hzero]), herase]
    · rfl
  · have hnot : ¬∀ b, b ∉ labels → coord b = 0 := fun h => hzero (h a ha)
    rw [value, value, if_neg hnot]
    split
    · change (if _ then _ else _) = _
      rw [hlast, if_neg fun h => hzero (Option.some.inj h)]
    · rfl

theorem value_squeeze (hnodup : labels.Nodup) (hlength : labels.length = t.shape.length)
    (h : t.shape[p]? = some 1) :
    value (labels.eraseIdx p) (t.squeeze p h) = value labels t := by
  funext coord
  obtain ⟨hp, -⟩ := List.getElem?_eq_some_iff.1 h
  have hp' : p < labels.length := hlength ▸ hp
  have hinsert : (labels.eraseIdx p).insertIdx p labels[p] = labels :=
    List.insertIdx_eraseIdx_getElem hp'
  have hmem (b : α) : b ∈ labels ↔ b = labels[p] ∨ b ∈ labels.eraseIdx p := by
    have hlen : p ≤ (labels.eraseIdx p).length := by
      rw [List.length_eraseIdx_of_lt hp']
      omega
    conv_lhs => rw [← hinsert]
    exact List.mem_insertIdx hlen
  by_cases hzero : coord labels[p] = 0
  · have hcondition : (∀ b, b ∉ labels.eraseIdx p → coord b = 0) ↔
        ∀ b, b ∉ labels → coord b = 0 := by
      refine forall_congr' fun b => ?_
      rw [hmem]
      by_cases hb : b = labels[p]
      · simp [hb, hzero]
      · simp [hb]
    have hcoords : ((labels.eraseIdx p).map coord).insertIdx p 0 = labels.map coord := by
      have hmap : p < (labels.map coord).length := by rwa [List.length_map]
      have hget : (labels.map coord)[p] = 0 := by rw [List.getElem_map, hzero]
      rw [← List.eraseIdx_map, ← hget]
      exact List.insertIdx_eraseIdx_getElem hmap
    rw [value, value]
    simp only [hcondition]
    split
    · exact congrArg t.at? hcoords
    · rfl
  · have hnotMem : labels[p] ∉ labels.eraseIdx p := by
      rw [List.mem_eraseIdx_iff_getElem]
      rintro ⟨i, hi, hne, heq⟩
      exact hne ((hnodup.getElem_inj_iff).1 heq)
    have hnot : ¬∀ b, b ∉ labels.eraseIdx p → coord b = 0 := fun h => hzero (h _ hnotMem)
    have hnone : t.at? (labels.map coord) = none := by
      refine at?_eq_none fun hwithin => hzero ?_
      have hcoord := getElem?_of_within hwithin h
      rw [List.getElem?_map, List.getElem?_eq_getElem hp'] at hcoord
      exact Option.some.inj hcoord
    rw [value, value, if_neg hnot, hnone]
    split <;> rfl

/-- **A tensor is its shape and its elements at label coordinates.** -/
theorem ext_of_value {t' : Tensor T} (hnodup : labels.Nodup)
    (hlength : labels.length = t.shape.length) (hshape : t.shape = t'.shape)
    (h : value labels t = value labels t') : t = t' := by
  refine Tensor.ext hshape (funext fun v => ?_)
  by_cases hc : v.length = t.shape.length
  · have hvalue := congrFun h fun a => v.getD (labels.idxOf a) 0
    have hcoords : labels.map (fun a => v.getD (labels.idxOf a) 0) = v := by
      refine List.ext_getElem (by simp [hlength, hc]) fun i hi hi' => ?_
      rw [List.getElem_map, hnodup.idxOf_getElem i (by simpa using hi), ← List.getElem_eq_getD]
    have hcondition : ∀ a, a ∉ labels → v.getD (labels.idxOf a) 0 = 0 := by
      intro a ha
      rw [List.idxOf_eq_length ha]
      simp [hlength, hc]
    rwa [value, value, if_pos hcondition, if_pos hcondition, hcoords] at hvalue
  · have hnot : ¬Within v t.shape := fun hwithin => hc (within_iff.1 hwithin).1
    rw [at?_eq_none hnot, at?_eq_none (hshape ▸ hnot)]

end Labels

end Tensor
