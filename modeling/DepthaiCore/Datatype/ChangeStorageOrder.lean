import DepthaiCore.Datatype.TensorGeometry
import DepthaiCore.Lib.LabelledTensors
import DepthaiCore.Lib.Loops

/-!
# Changing the storage order

`NNData::changeStorageOrder` brings the axes of a tensor into another order. Axes that are new get
the extent 1, and axes that are dropped must have it. The axes stand for labels, so the element at
label coordinates should stay the same.

The operations on arrays have their documented meaning: a permutation must have as many axes as the
array, an axis is inserted within it or at its end, and only an axis of extent 1 can be squeezed.
The axes to drop are squeezed one after the other, at the positions that they had before the first
of them was gone.
-/

namespace DepthaiCore.NN

instance : Fintype Axis where
  elems := {.W, .H, .C, .N}
  complete a := by cases a <;> decide

/-! ### What the source computes -/

/-- How the operations end that give no array. -/
inductive StorageFailure
  | runtimeError (what : String)
  | transposeError (what : String)
  /-- An operation outside its documentation. -/
  | undefined
  deriving DecidableEq, Repr

variable {T : Type}

namespace xt

def transpose (array : Tensor T) (permutation : List ℕ) : Except StorageFailure (Tensor T) :=
  if permutation.length ≠ array.shape.length then
    .error (.transposeError "Permutation does not have the same size as shape")
  else if h : permutation.Perm (List.range array.shape.length) then
    .ok (array.transpose permutation h)
  else .error .undefined

def expand_dims (array : Tensor T) (axis : ℕ) : Except StorageFailure (Tensor T) :=
  if h : axis ≤ array.shape.length then .ok (array.expandDims axis h) else .error .undefined

def squeeze (array : Tensor T) (axis : ℕ) : Except StorageFailure (Tensor T) :=
  if h : array.shape[axis]? = some 1 then .ok (array.squeeze axis h) else .error .undefined

end xt

/-- The positions of the axes, with what is thrown if there is none. -/
def permutation (what : String) (order toOrder : List Axis) : Except StorageFailure (List ℕ) :=
  toOrder.mapM fun axis =>
    match order.idxOf? axis with
    | some dim => .ok dim
    | none => .error (.runtimeError what)

/-- The positions of new axes behind the others, and the axes with them. -/
def expandOrder (fromOrder toOrder : List Axis) : List ℕ × List Axis :=
  toOrder.foldl (fun s axis =>
    if axis ∈ fromOrder then s else (s.1 ++ [s.2.length], s.2 ++ [axis])) ([], fromOrder)

/-- A round of the loop that collects the axes to squeeze, and the axes without them. -/
def squeezeRound (shape : List ℕ) (toOrder : List Axis) (s : List ℕ × List Axis) (x : Axis × ℕ) :
    Except StorageFailure (List ℕ × List Axis) :=
  if x.1 ∈ toOrder then .ok (s.1, s.2 ++ [x.1])
  else
    match shape[x.2]? with
    | none => .error .undefined
    | some extent =>
      if extent ≠ 1 then
        .error (.runtimeError "Cannot change storage order. Squeeze dimension is not 1")
      else .ok (s.1 ++ [x.2], s.2)

/-- **`NNData::changeStorageOrder`.** The digits of the two numbers name the axes. -/
def changeStorageOrder (array : Tensor T) (src dst : StorageOrder) :
    Except StorageFailure (Tensor T) :=
  let fromOrder := src.axes
  let toOrder := dst.axes
  if fromOrder.length = toOrder.length then do
    let permute ← permutation
      "Cannot change storage order. Dimension not found [Permute]" fromOrder toOrder
    xt.transpose array permute
  else if fromOrder.length < toOrder.length then do
    let (expand, fromOrderExpanded) := expandOrder fromOrder toOrder
    let array ← expand.foldlM xt.expand_dims array
    let permute ← permutation
      "Cannot change storage order. Dimension not found [Expand and Permute]" fromOrderExpanded
      toOrder
    xt.transpose array permute
  else do
    let (squeeze, fromOrderSqueezed) ←
      fromOrder.zipIdx.foldlM (squeezeRound array.shape toOrder) ([], [])
    let array ← squeeze.foldlM xt.squeeze array
    let permute ← permutation
      "Cannot change storage order. Dimension not found [Squeeze and Permute]" fromOrderSqueezed
      toOrder
    xt.transpose array permute

/-! ### What it should keep -/

/-- Every result has the elements of the array at their label coordinates. -/
def LabelLaw (array : Tensor T) (src dst : StorageOrder) : Prop :=
  match changeStorageOrder array src dst with
  | .ok result => Tensor.value dst.axes result = Tensor.value src.axes array
  | .error .undefined => False
  | .error _ => True

/-- To an order with the same axes, and back. -/
def RoundTrip (array : Tensor T) (src dst : StorageOrder) : Prop :=
  src.axes.Perm dst.axes → ∀ result, changeStorageOrder array src dst = .ok result →
    changeStorageOrder result dst src = .ok array

/-- The positions of the axes that are dropped. -/
def dropped (src dst : StorageOrder) : List ℕ :=
  (src.axes.zipIdx.filter fun x => x.1 ∉ dst.axes).map Prod.snd

/-- The axes that stay. -/
def kept (src dst : StorageOrder) : List Axis :=
  src.axes.filter (· ∈ dst.axes)

/-- An array that gets new axes has all of its own. One that loses axes has an extent other than 1
along one of them, or the extent 1 along all of them and also along every axis that is squeezed in
their place: one further for each axis that is gone already. -/
structure Fits (shape : List ℕ) (src dst : StorageOrder) : Prop where
  expand : src.axes.length < dst.axes.length → src.axes.length ≤ shape.length
  squeeze : dst.axes.length < src.axes.length →
    (∃ p ∈ dropped src dst, ∃ extent, shape[p]? = some extent ∧ extent ≠ 1) ∨
      ∀ t p : ℕ, (dropped src dst)[t]? = some p → shape[p]? = some 1 ∧ shape[p + t]? = some 1

/-! ### The tables of the orders -/

theorem nodup_axes (order : StorageOrder) : order.axes.Nodup := by
  cases order <;> decide

theorem nodup_kept (src dst : StorageOrder) : (kept src dst).Nodup :=
  (nodup_axes src).filter _

theorem pairwise_dropped (src dst : StorageOrder) : (dropped src dst).Pairwise (· < ·) := by
  cases src <;> cases dst <;> decide

theorem length_kept (src dst : StorageOrder) :
    (kept src dst).length + (dropped src dst).length = src.axes.length := by
  cases src <;> cases dst <;> decide

/-- Axes that are dropped are erased one after the other, the positions of the others moved up. -/
theorem kept_eq (src dst : StorageOrder) :
    match dropped src dst with
    | [] => kept src dst = src.axes
    | [i] => kept src dst = src.axes.eraseIdx i
    | [i, j] => kept src dst = (src.axes.eraseIdx i).eraseIdx (j - 1)
    | _ :: _ :: k :: _ => src.axes.length ≤ k + 2 := by
  cases src <;> cases dst <;> first | rfl | exact Nat.le_of_ble_eq_true rfl

/-! ### Permutations -/

section Permutations

variable {labels toOrder : List Axis} {what : String} {array : Tensor T}

theorem find_eq_ok_iff {a : Axis} {dim : ℕ} :
    ((match labels.idxOf? a with
      | some dim => .ok dim
      | none => .error (.runtimeError what)) : Except StorageFailure ℕ) = .ok dim ↔
      a ∈ labels ∧ dim = labels.idxOf a := by
  have hidx : labels.idxOf a = (labels.idxOf? a).getD labels.length :=
    List.idxOf_eq_getD_idxOf? a labels
  rw [hidx, ← List.isSome_idxOf?]
  cases labels.idxOf? a with
  | none => simp
  | some i => simp [eq_comm]

theorem permutation_eq_ok_iff {permute : List ℕ} :
    permutation what labels toOrder = .ok permute ↔
      (∀ a ∈ toOrder, a ∈ labels) ∧ permute = toOrder.map labels.idxOf := by
  rw [permutation, Loop.mapM_eq_ok_iff]
  simp only [find_eq_ok_iff]
  induction toOrder generalizing permute with
  | nil => simp [List.forall₂_nil_left_iff]
  | cons a toOrder ih =>
    simp only [List.forall₂_cons_left_iff, ih, List.forall_mem_cons, List.map_cons]
    constructor
    · rintro ⟨dim, permute', ⟨ha, rfl⟩, ⟨hall, rfl⟩, rfl⟩
      exact ⟨⟨ha, hall⟩, rfl⟩
    · rintro ⟨⟨ha, hall⟩, rfl⟩
      exact ⟨_, _, ⟨ha, rfl⟩, ⟨hall, rfl⟩, rfl⟩

theorem permutation_of_not (what : String) (h : ¬∀ a ∈ toOrder, a ∈ labels) :
    permutation what labels toOrder = .error (.runtimeError what) := by
  rw [permutation]
  induction toOrder with
  | nil => exact absurd (fun a ha => by cases ha) h
  | cons a toOrder ih =>
    rw [List.mapM_cons]
    by_cases ha : a ∈ labels
    · have hrest : ¬∀ a ∈ toOrder, a ∈ labels := fun hrest =>
        h (List.forall_mem_cons.2 ⟨ha, hrest⟩)
      rw [find_eq_ok_iff.2 ⟨ha, rfl⟩, Loop.ok_bind, ih hrest]
      rfl
    · rw [List.idxOf?_eq_none_iff.2 ha]
      rfl

theorem transpose_of_length {permute : List ℕ} (h : permute.length ≠ array.shape.length) :
    xt.transpose array permute =
      .error (.transposeError "Permutation does not have the same size as shape") :=
  if_pos h

/-- **A permutation of all axes** keeps the elements at label coordinates. -/
theorem transpose_of_perm (hnodup : labels.Nodup) (hperm : toOrder.Perm labels)
    (hlength : labels.length = array.shape.length) :
    ∃ result, xt.transpose array (toOrder.map labels.idxOf) = .ok result ∧
      result.shape = toOrder.map (fun a => array.shape.getD (labels.idxOf a) 0) ∧
      Tensor.value toOrder result = Tensor.value labels array := by
  have h : (toOrder.map labels.idxOf).Perm (List.range array.shape.length) :=
    hlength ▸ Tensor.perm_map_idxOf hnodup hperm
  have hsize : ¬(toOrder.map labels.idxOf).length ≠ array.shape.length := by
    rw [h.length_eq, List.length_range]
    exact not_not.2 rfl
  refine ⟨array.transpose _ h, ?_, ?_, Tensor.value_transpose hnodup hperm hlength h⟩
  · rw [xt.transpose, if_neg hsize, dif_pos h]
  · exact List.map_map

/-- The last two steps of every branch, on an array with these axes: they throw, or all axes are
permuted. -/
theorem permute_outcome (what : String) (array : Tensor T) (hnodup : labels.Nodup)
    (hto : toOrder.Nodup)
    (hrank : labels.length ≤ array.shape.length ∨ array.shape.length ≠ toOrder.length) :
    (∃ e, e ≠ .undefined ∧
      (permutation what labels toOrder >>= xt.transpose array) = .error e) ∨
    toOrder.Perm labels ∧ labels.length = array.shape.length ∧
      ∃ result, (permutation what labels toOrder >>= xt.transpose array) = .ok result ∧
        result.shape = toOrder.map (fun a => array.shape.getD (labels.idxOf a) 0) ∧
        Tensor.value toOrder result = Tensor.value labels array := by
  by_cases hall : ∀ a ∈ toOrder, a ∈ labels
  · rw [permutation_eq_ok_iff.2 ⟨hall, rfl⟩, Loop.ok_bind]
    have hsub : toOrder.Subperm labels := List.subperm_of_subset hto hall
    by_cases hlength : toOrder.length = array.shape.length
    · have hle : labels.length ≤ toOrder.length := by
        rcases hrank with hrank | hrank
        · omega
        · exact absurd hlength.symm hrank
      have hperm : toOrder.Perm labels := hsub.perm_of_length_le hle
      have hlabels : labels.length = array.shape.length := hperm.length_eq.symm.trans hlength
      exact .inr ⟨hperm, hlabels, transpose_of_perm hnodup hperm hlabels⟩
    · refine .inl ⟨_, ?_, transpose_of_length (by rwa [List.length_map])⟩
      nofun
  · rw [permutation_of_not what hall]
    refine .inl ⟨_, ?_, rfl⟩
    nofun

end Permutations

/-! ### New axes -/

section Expand

variable {fromOrder toOrder : List Axis} {array : Tensor T}

/-- The positions follow each other behind the axes that are there. -/
theorem expandOrder_eq (fromOrder toOrder : List Axis) :
    expandOrder fromOrder toOrder =
      (List.range' fromOrder.length (toOrder.filter (· ∉ fromOrder)).length,
        fromOrder ++ toOrder.filter (· ∉ fromOrder)) := by
  rw [expandOrder]
  induction toOrder using List.reverseRecOn with
  | nil => simp
  | append_singleton toOrder a ih =>
    rw [List.foldl_append, ih, List.foldl_cons, List.foldl_nil, List.filter_append]
    by_cases ha : a ∈ fromOrder
    · simp [ha]
    · simp [ha, List.range'_1_concat]

theorem expand_rank {n k : ℕ} (h : n ≤ array.shape.length) :
    ∃ result, (List.range' n k).foldlM xt.expand_dims array = .ok result ∧
      result.shape.length = array.shape.length + k := by
  induction k generalizing n array with
  | zero => exact ⟨array, rfl, rfl⟩
  | succ k ih =>
    have hlength : (array.expandDims n h).shape.length = array.shape.length + 1 :=
      List.length_insertIdx_of_le_length h _
    have hnext : n + 1 ≤ (array.expandDims n h).shape.length := by omega
    obtain ⟨result, hresult, hrank⟩ := ih hnext
    refine ⟨result, ?_, by omega⟩
    rw [List.range'_succ, List.foldlM_cons, xt.expand_dims, dif_pos h]
    exact hresult

/-- **New axes behind all others** keep the elements at label coordinates. -/
theorem expand_value {labels missing : List Axis} (hnodup : (labels ++ missing).Nodup)
    (hlength : labels.length = array.shape.length) :
    ∃ result, (List.range' labels.length missing.length).foldlM xt.expand_dims array = .ok result ∧
      (labels ++ missing).length = result.shape.length ∧
      Tensor.value (labels ++ missing) result = Tensor.value labels array := by
  induction missing generalizing labels array with
  | nil =>
    refine ⟨array, rfl, ?_, ?_⟩
    · rwa [List.append_nil]
    · rw [List.append_nil]
  | cons a missing ih =>
    have ha : a ∉ labels := fun ha =>
      (List.nodup_append.1 hnodup).2.2 a ha a List.mem_cons_self rfl
    have hassoc : labels ++ a :: missing = labels ++ [a] ++ missing := by simp
    rw [hassoc] at hnodup ⊢
    have hrank : (labels ++ [a]).length =
        (array.expandDims array.shape.length le_rfl).shape.length := by
      rw [List.length_append, List.length_singleton, hlength]
      exact (List.length_insertIdx_of_le_length le_rfl _).symm
    obtain ⟨result, hresult, hlength', hvalue⟩ := ih hnodup hrank
    refine ⟨result, ?_, hlength', hvalue.trans (Tensor.value_expandDims ha hlength)⟩
    rw [List.length_cons, List.range'_succ, List.foldlM_cons, hlength, xt.expand_dims,
      dif_pos le_rfl, Loop.ok_bind]
    rwa [List.length_append, List.length_singleton, hlength] at hresult

end Expand

/-! ### Axes that are dropped -/

section Squeeze

variable {shape : List ℕ} {order toOrder : List Axis} {array : Tensor T} {src dst : StorageOrder}

/-- The positions of the axes that are dropped, from a place on. -/
def droppedFrom (k : ℕ) (order toOrder : List Axis) : List ℕ :=
  ((order.zipIdx k).filter fun x => x.1 ∉ toOrder).map Prod.snd

theorem droppedFrom_cons (k : ℕ) (a : Axis) :
    droppedFrom k (a :: order) toOrder =
      if a ∈ toOrder then droppedFrom (k + 1) order toOrder
      else k :: droppedFrom (k + 1) order toOrder := by
  rw [droppedFrom, List.zipIdx_cons, List.filter_cons]
  split <;> split <;> simp_all [droppedFrom]

theorem le_of_mem_droppedFrom {k p : ℕ} (h : p ∈ droppedFrom k order toOrder) : k ≤ p := by
  induction order generalizing k with
  | nil => cases h
  | cons a order ih =>
    rw [droppedFrom_cons] at h
    split at h
    · exact (Nat.le_succ k).trans (ih h)
    · rcases List.mem_cons.1 h with rfl | h
      · exact le_rfl
      · exact (Nat.le_succ k).trans (ih h)

theorem squeezeRound_of_mem {a : Axis} (ha : a ∈ toOrder) (s : List ℕ × List Axis) (k : ℕ) :
    squeezeRound shape toOrder s (a, k) = .ok (s.1, s.2 ++ [a]) :=
  if_pos ha

theorem squeezeRound_of_notMem {a : Axis} (ha : a ∉ toOrder) (s : List ℕ × List Axis) (k : ℕ) :
    squeezeRound shape toOrder s (a, k) =
      match shape[k]? with
      | none => .error .undefined
      | some extent =>
        if extent ≠ 1 then
          .error (.runtimeError "Cannot change storage order. Squeeze dimension is not 1")
        else .ok (s.1 ++ [k], s.2) :=
  if_neg ha

theorem squeezeAxes_ok (k : ℕ) (s : List ℕ × List Axis)
    (h : ∀ p ∈ droppedFrom k order toOrder, shape[p]? = some 1) :
    (order.zipIdx k).foldlM (squeezeRound shape toOrder) s =
      .ok (s.1 ++ droppedFrom k order toOrder, s.2 ++ order.filter (· ∈ toOrder)) := by
  induction order generalizing k s with
  | nil => simp [droppedFrom, pure, Except.pure]
  | cons a order ih =>
    rw [droppedFrom_cons] at h ⊢
    rw [List.zipIdx_cons, List.foldlM_cons]
    by_cases ha : a ∈ toOrder
    · rw [if_pos ha] at h ⊢
      rw [squeezeRound_of_mem ha, Loop.ok_bind, ih _ _ h]
      simp [ha]
    · rw [if_neg ha] at h ⊢
      rw [List.forall_mem_cons] at h
      rw [squeezeRound_of_notMem ha, h.1]
      dsimp only
      rw [if_neg (by simp), Loop.ok_bind, ih _ _ h.2]
      simp [ha]

theorem squeezeAxes_throws (k : ℕ) (s : List ℕ × List Axis)
    (h : ∃ p ∈ droppedFrom k order toOrder, ∃ extent, shape[p]? = some extent ∧ extent ≠ 1) :
    ∃ what, (order.zipIdx k).foldlM (squeezeRound shape toOrder) s =
      .error (.runtimeError what) := by
  induction order generalizing k s with
  | nil => simp [droppedFrom] at h
  | cons a order ih =>
    obtain ⟨p, hp, extent, hextent, hne⟩ := h
    rw [droppedFrom_cons] at hp
    rw [List.zipIdx_cons, List.foldlM_cons]
    by_cases ha : a ∈ toOrder
    · rw [if_pos ha] at hp
      rw [squeezeRound_of_mem ha]
      exact ih _ _ ⟨p, hp, extent, hextent, hne⟩
    · rw [if_neg ha] at hp
      rw [squeezeRound_of_notMem ha]
      have hk : k < shape.length := by
        have hlt := (List.getElem?_eq_some_iff.1 hextent).1
        rcases List.mem_cons.1 hp with rfl | hp
        · exact hlt
        · have hle := le_of_mem_droppedFrom hp
          omega
      rw [List.getElem?_eq_getElem hk]
      dsimp only
      by_cases hone : shape[k] = 1
      · rw [if_neg (not_not.2 hone)]
        refine ih _ _ ⟨p, ?_, extent, hextent, hne⟩
        rcases List.mem_cons.1 hp with rfl | hp
        · rw [List.getElem?_eq_getElem hk, hone] at hextent
          exact absurd (Option.some.inj hextent).symm hne
        · exact hp
      · rw [if_pos hone]
        exact ⟨_, rfl⟩

theorem squeezeAxes_undefined (k : ℕ) (s : List ℕ × List Axis)
    (h : ¬∀ p ∈ droppedFrom k order toOrder, shape[p]? = some 1)
    (h' : ¬∃ p ∈ droppedFrom k order toOrder, ∃ extent, shape[p]? = some extent ∧ extent ≠ 1) :
    (order.zipIdx k).foldlM (squeezeRound shape toOrder) s = .error .undefined := by
  induction order generalizing k s with
  | nil => simp [droppedFrom] at h
  | cons a order ih =>
    rw [droppedFrom_cons] at h h'
    rw [List.zipIdx_cons, List.foldlM_cons]
    by_cases ha : a ∈ toOrder
    · rw [if_pos ha] at h h'
      rw [squeezeRound_of_mem ha]
      exact ih _ _ h h'
    · rw [if_neg ha] at h h'
      rw [squeezeRound_of_notMem ha]
      cases hextent : shape[k]? with
      | none => rfl
      | some extent =>
        have hone : extent = 1 := by
          by_contra hne
          exact h' ⟨k, List.mem_cons_self, extent, hextent, hne⟩
        dsimp only
        rw [if_neg (not_not.2 hone)]
        refine ih _ _ (fun hall => h (List.forall_mem_cons.2 ⟨by rw [hextent, hone], hall⟩)) ?_
        rintro ⟨p, hp, hrest⟩
        exact h' ⟨p, List.mem_cons_of_mem _ hp, hrest⟩

/-- Squeezing one after the other goes one further for each axis that is gone. -/
theorem squeezes_ok_iff {positions : List ℕ} (h : positions.Pairwise (· < ·)) (array : Tensor T) :
    (∃ result, positions.foldlM xt.squeeze array = .ok result ∧
      result.shape.length + positions.length = array.shape.length) ∧
      (∀ t p : ℕ, positions[t]? = some p → array.shape[p + t]? = some 1) ∨
    positions.foldlM xt.squeeze array = .error .undefined ∧
      ¬∀ t p : ℕ, positions[t]? = some p → array.shape[p + t]? = some 1 := by
  induction positions generalizing array with
  | nil => exact .inl ⟨⟨array, rfl, rfl⟩, nofun⟩
  | cons p positions ih =>
    obtain ⟨hlt, hpairwise⟩ := List.pairwise_cons.1 h
    rw [List.foldlM_cons, xt.squeeze]
    by_cases hp : array.shape[p]? = some 1
    · have hplt := (List.getElem?_eq_some_iff.1 hp).1
      have hlength : (array.squeeze p hp).shape.length + 1 = array.shape.length := by
        have hpos : 0 < array.shape.length := Nat.zero_lt_of_lt hplt
        rw [Tensor.squeeze, List.length_eraseIdx_of_lt hplt]
        omega
      have hshift : (∀ t q : ℕ, positions[t]? = some q →
          (array.squeeze p hp).shape[q + t]? = some 1) ↔
          ∀ t q : ℕ, (p :: positions)[t]? = some q → array.shape[q + t]? = some 1 := by
        constructor
        · intro hall t q hq
          cases t with
          | zero =>
            cases hq
            exact hp
          | succ t =>
            have hle := hlt q (List.mem_of_getElem? hq)
            have hrest := hall t q hq
            rwa [Tensor.squeeze, List.getElem?_eraseIdx_of_ge (by omega)] at hrest
        · intro hall t q hq
          have hle := hlt q (List.mem_of_getElem? hq)
          rw [Tensor.squeeze, List.getElem?_eraseIdx_of_ge (by omega)]
          exact hall (t + 1) q hq
      rw [dif_pos hp, Loop.ok_bind, ← hshift]
      refine (ih hpairwise (array.squeeze p hp)).imp_left fun ⟨⟨result, hresult, hrank⟩, hall⟩ => ?_
      exact ⟨⟨result, hresult, by rw [List.length_cons]; omega⟩, hall⟩
    · rw [dif_neg hp]
      exact .inr ⟨rfl, fun hall => hp (hall 0 p rfl)⟩

/-- **At most two axes can be dropped,** and then the elements are kept. -/
theorem squeeze_value (hrank : src.axes.length = array.shape.length)
    (h : ∀ t p : ℕ, (dropped src dst)[t]? = some p →
      array.shape[p]? = some 1 ∧ array.shape[p + t]? = some 1) :
    ∃ result, (dropped src dst).foldlM xt.squeeze array = .ok result ∧
      Tensor.value (kept src dst) result = Tensor.value src.axes array := by
  have hnodup := nodup_axes src
  have hkept := kept_eq src dst
  have hpairwise := pairwise_dropped src dst
  generalize dropped src dst = positions at h hkept hpairwise ⊢
  match positions with
  | [] => exact ⟨array, rfl, by rw [show kept src dst = src.axes from hkept]⟩
  | [i] =>
    have hi : array.shape[i]? = some 1 := (h 0 i rfl).1
    refine ⟨array.squeeze i hi, ?_, ?_⟩
    · rw [List.foldlM_cons, xt.squeeze, dif_pos hi]
      rfl
    · rw [show kept src dst = src.axes.eraseIdx i from hkept]
      exact Tensor.value_squeeze hnodup hrank hi
  | [i, j] =>
    have hlt : i < j := (List.pairwise_cons.1 hpairwise).1 j (List.mem_singleton.2 rfl)
    obtain ⟨m, rfl⟩ : ∃ m, j = m + 1 := ⟨j - 1, by omega⟩
    have hi : array.shape[i]? = some 1 := (h 0 i rfl).1
    -- the axis at `m + 1` has moved up, and its neighbour is squeezed in its place
    obtain ⟨hj, hj'⟩ := h 1 (m + 1) rfl
    have hm : (array.squeeze i hi).shape[m]? = some 1 := by
      rw [Tensor.squeeze, List.getElem?_eraseIdx_of_ge (by omega), hj]
    have hm' : (array.squeeze i hi).shape[m + 1]? = some 1 := by
      rw [Tensor.squeeze, List.getElem?_eraseIdx_of_ge (by omega), hj']
    have hrank' : (src.axes.eraseIdx i).length = (array.squeeze i hi).shape.length := by
      have hilt := (List.getElem?_eq_some_iff.1 hi).1
      rw [Tensor.squeeze, List.length_eraseIdx_of_lt hilt, List.length_eraseIdx_of_lt (by omega),
        hrank]
    refine ⟨(array.squeeze i hi).squeeze (m + 1) hm', ?_, ?_⟩
    · rw [List.foldlM_cons, xt.squeeze, dif_pos hi, Loop.ok_bind, List.foldlM_cons, xt.squeeze,
        dif_pos hm']
      rfl
    · rw [show kept src dst = (src.axes.eraseIdx i).eraseIdx m from hkept,
        Tensor.squeeze_succ hm hm']
      exact (Tensor.value_squeeze (hnodup.eraseIdx i) hrank' hm).trans
        (Tensor.value_squeeze hnodup hrank hi)
  | i :: j :: k :: rest =>
    have hle : src.axes.length ≤ k + 2 := hkept
    have hk := (List.getElem?_eq_some_iff.1 (h 2 k rfl).2).1
    omega

end Squeeze

/-! ### The branches -/

section Branches

variable {array result : Tensor T} {src dst : StorageOrder} {e : StorageFailure}

theorem labelLaw_of_ok (h : changeStorageOrder array src dst = .ok result)
    (hvalue : Tensor.value dst.axes result = Tensor.value src.axes array) :
    LabelLaw array src dst := by
  rw [LabelLaw, h]
  exact hvalue

theorem labelLaw_of_error (h : changeStorageOrder array src dst = .error e) (he : e ≠ .undefined) :
    LabelLaw array src dst := by
  rw [LabelLaw, h]
  cases e with
  | undefined => exact absurd rfl he
  | _ => trivial

theorem not_labelLaw (h : changeStorageOrder array src dst = .error .undefined) :
    ¬LabelLaw array src dst := by
  rw [LabelLaw, h]
  exact id

theorem labelLaw_of_eq (h : src.axes.length = dst.axes.length) : LabelLaw array src dst := by
  have hchange : changeStorageOrder array src dst = _ := if_pos h
  have hrank : src.axes.length ≤ array.shape.length ∨ array.shape.length ≠ dst.axes.length := by
    omega
  rcases permute_outcome "Cannot change storage order. Dimension not found [Permute]" array
    (nodup_axes src) (nodup_axes dst) hrank with ⟨e, he, herror⟩ | ⟨-, -, result, hresult, -, hvalue⟩
  · exact labelLaw_of_error (hchange.trans herror) he
  · exact labelLaw_of_ok (hchange.trans hresult) hvalue

theorem labelLaw_of_lt (h : src.axes.length < dst.axes.length) :
    LabelLaw array src dst ↔ src.axes.length ≤ array.shape.length := by
  have hchange : changeStorageOrder array src dst = _ :=
    (if_neg h.ne).trans (if_pos h)
  rw [expandOrder_eq] at hchange
  dsimp only at hchange
  have hmissing (a : Axis) : a ∈ dst.axes.filter (· ∉ src.axes) ↔ a ∈ dst.axes ∧ a ∉ src.axes := by
    simp
  have hfilter : (dst.axes.filter (· ∉ src.axes)).Nodup := (nodup_axes dst).filter _
  generalize dst.axes.filter (· ∉ src.axes) = missing at hchange hmissing hfilter
  have hnodup : (src.axes ++ missing).Nodup :=
    (nodup_axes src).append hfilter fun a ha ha' => ((hmissing a).1 ha').2 ha
  have hle : dst.axes.length ≤ src.axes.length + missing.length := by
    rw [← List.length_append]
    refine (List.subperm_of_subset (nodup_axes dst) fun a ha => ?_).length_le
    rw [List.mem_append, hmissing]
    tauto
  rcases lt_trichotomy array.shape.length src.axes.length with hrank | hrank | hrank
  · -- the first new axis would be behind the end
    refine iff_of_false (not_labelLaw ?_) (not_le.2 hrank)
    obtain ⟨k, hk⟩ : ∃ k, missing.length = k + 1 := ⟨missing.length - 1, by omega⟩
    rw [hchange, hk, List.range'_succ, List.foldlM_cons, xt.expand_dims, dif_neg (not_le.2 hrank)]
    rfl
  · refine iff_of_true ?_ hrank.ge
    obtain ⟨expanded, hexpanded, hlength, hexpand⟩ := expand_value hnodup hrank.symm
    rw [hexpanded, Loop.ok_bind] at hchange
    rcases permute_outcome
      "Cannot change storage order. Dimension not found [Expand and Permute]" expanded hnodup (nodup_axes dst) (.inl hlength.le) with
      ⟨e, he, herror⟩ | ⟨-, -, result, hresult, -, hvalue⟩
    · exact labelLaw_of_error (hchange.trans herror) he
    · exact labelLaw_of_ok (hchange.trans hresult) (hvalue.trans hexpand)
  · -- an axis without a label: the permutation is too short
    refine iff_of_true ?_ hrank.le
    obtain ⟨expanded, hexpanded, hlength⟩ :=
      expand_rank (k := missing.length) hrank.le
    rw [hexpanded, Loop.ok_bind] at hchange
    rcases permute_outcome
      "Cannot change storage order. Dimension not found [Expand and Permute]" expanded hnodup (nodup_axes dst) (.inr (by omega)) with
      ⟨e, he, herror⟩ | ⟨-, hsame, -⟩
    · exact labelLaw_of_error (hchange.trans herror) he
    · rw [List.length_append] at hsame
      omega

theorem labelLaw_of_gt (h : dst.axes.length < src.axes.length) :
    LabelLaw array src dst ↔
      (∃ p ∈ dropped src dst, ∃ extent, array.shape[p]? = some extent ∧ extent ≠ 1) ∨
        ∀ t p : ℕ, (dropped src dst)[t]? = some p →
          array.shape[p]? = some 1 ∧ array.shape[p + t]? = some 1 := by
  have hchange : changeStorageOrder array src dst = _ :=
    (if_neg h.ne').trans (if_neg h.not_gt)
  by_cases hextent : ∃ p ∈ dropped src dst, ∃ extent, array.shape[p]? = some extent ∧ extent ≠ 1
  · refine iff_of_true ?_ (.inl hextent)
    obtain ⟨what, hwhat⟩ := squeezeAxes_throws 0 ([], []) hextent
    rw [hwhat] at hchange
    exact labelLaw_of_error hchange nofun
  rw [or_iff_right hextent]
  by_cases hall : ∀ p ∈ dropped src dst, array.shape[p]? = some 1
  · have hcollect := squeezeAxes_ok 0 ([], []) hall
    rw [List.nil_append, List.nil_append] at hcollect
    rw [hcollect, Loop.ok_bind] at hchange
    dsimp only at hchange
    have hcondition : (∀ t p : ℕ, (dropped src dst)[t]? = some p →
        array.shape[p]? = some 1 ∧ array.shape[p + t]? = some 1) ↔
        ∀ t p : ℕ, (dropped src dst)[t]? = some p → array.shape[p + t]? = some 1 :=
      forall₃_congr fun t p ht => and_iff_right (hall p (List.mem_of_getElem? ht))
    rw [hcondition]
    rcases squeezes_ok_iff (pairwise_dropped src dst) array with
      ⟨⟨squeezed, hsqueezed, hrank⟩, hpositions⟩ | ⟨hundefined, hnot⟩
    · refine iff_of_true ?_ hpositions
      have hlength := length_kept src dst
      have hsqueezed' : (droppedFrom 0 src.axes dst.axes).foldlM xt.squeeze array =
        .ok squeezed := hsqueezed
      rw [hsqueezed', Loop.ok_bind] at hchange
      by_cases hsame : src.axes.length = array.shape.length
      · obtain ⟨squeezed', hsqueezed'', hvalue⟩ := squeeze_value hsame (hcondition.2 hpositions)
        rw [hsqueezed] at hsqueezed''
        cases hsqueezed''
        rcases permute_outcome
          "Cannot change storage order. Dimension not found [Squeeze and Permute]" squeezed
          (nodup_kept src dst) (nodup_axes dst) (.inl (by omega)) with
          ⟨e, he, herror⟩ | ⟨-, -, result, hresult, -, hvalue'⟩
        · exact labelLaw_of_error (hchange.trans herror) he
        · exact labelLaw_of_ok (hchange.trans hresult) (hvalue'.trans hvalue)
      · -- another number of axes than labels: no permutation fits
        have hsub : (kept src dst).length ≤ dst.axes.length := by
          refine (List.subperm_of_subset (nodup_kept src dst) fun a ha => ?_).length_le
          exact of_decide_eq_true (List.mem_filter.1 ha).2
        by_cases hmissing : ∀ a ∈ dst.axes, a ∈ kept src dst
        · have hsub' := (List.subperm_of_subset (nodup_axes dst) hmissing).length_le
          rcases permute_outcome
            "Cannot change storage order. Dimension not found [Squeeze and Permute]" squeezed
            (nodup_kept src dst) (nodup_axes dst) (.inr (by omega)) with
            ⟨e, he, herror⟩ | ⟨-, hsame', -⟩
          · exact labelLaw_of_error (hchange.trans herror) he
          · omega
        · have herror := permutation_of_not
            "Cannot change storage order. Dimension not found [Squeeze and Permute]" hmissing
          have hkept : src.axes.filter (· ∈ dst.axes) = kept src dst := rfl
          rw [hkept, herror] at hchange
          exact labelLaw_of_error hchange nofun
    · refine iff_of_false (not_labelLaw ?_) hnot
      have hundefined' : (droppedFrom 0 src.axes dst.axes).foldlM xt.squeeze array =
        .error .undefined := hundefined
      rw [hchange, hundefined']
      rfl
  · refine iff_of_false (not_labelLaw ?_) fun h => hall fun p hp => ?_
    · rw [hchange, squeezeAxes_undefined 0 ([], []) hall hextent]
      rfl
    · obtain ⟨t, ht⟩ := List.mem_iff_getElem?.1 hp
      exact (h t p ht).1

/-- **To an order with the same axes, and back.** -/
theorem roundTrip (array : Tensor T) (src dst : StorageOrder) : RoundTrip array src dst := by
  intro hperm result hresult
  have hlength := hperm.length_eq
  rw [changeStorageOrder, if_pos hlength] at hresult
  rcases permute_outcome "Cannot change storage order. Dimension not found [Permute]" array
    (nodup_axes src) (nodup_axes dst) (by omega) with
    ⟨e, -, herror⟩ | ⟨-, hrank, result', hresult', hshape, hvalue⟩
  · have hcontra := hresult.symm.trans herror
    cases hcontra
  obtain rfl : result = result' := Except.ok.inj (hresult.symm.trans hresult')
  have hrank' : dst.axes.length = result.shape.length := by rw [hshape, List.length_map]
  obtain ⟨back, hback, hshape', hvalue'⟩ := transpose_of_perm (nodup_axes dst) hperm hrank'
  have hextents : back.shape = array.shape := by
    have hself : src.axes.map (fun a => array.shape.getD (src.axes.idxOf a) 0) = array.shape := by
      refine List.ext_getElem (by simp [hrank]) fun i hi hi' => ?_
      rw [List.getElem_map, (nodup_axes src).idxOf_getElem i, ← List.getElem_eq_getD]
    rw [hshape']
    refine (List.map_congr_left fun a ha => ?_).trans hself
    have hlt := List.idxOf_lt_length_of_mem (hperm.mem_iff.1 ha)
    have hlt' : dst.axes.idxOf a < result.shape.length := hrank' ▸ hlt
    rw [← List.getElem_eq_getD (h := hlt')]
    simp only [hshape, List.getElem_map, List.getElem_idxOf hlt]
  have hsame : back = array := by
    refine Tensor.ext_of_value (nodup_axes src) ?_ hextents (hvalue'.trans hvalue)
    rw [hextents, hrank]
  rw [changeStorageOrder, if_pos hlength.symm,
    permutation_eq_ok_iff.2 ⟨fun a ha => hperm.mem_iff.1 ha, rfl⟩, Loop.ok_bind, hback, hsame]

end Branches

/-- **When the elements stay at their label coordinates.** -/
theorem changeStorageOrder_iff (array : Tensor T) (src dst : StorageOrder) :
    LabelLaw array src dst ∧ RoundTrip array src dst ↔ Fits array.shape src dst := by
  rw [and_iff_left (roundTrip array src dst)]
  rcases lt_trichotomy src.axes.length dst.axes.length with h | h | h
  · rw [labelLaw_of_lt h]
    exact ⟨fun hle => ⟨fun _ => hle, fun hgt => absurd h hgt.not_gt⟩, fun hfits => hfits.expand h⟩
  · exact iff_of_true (labelLaw_of_eq h)
      ⟨fun hlt => absurd h hlt.ne, fun hgt => absurd h hgt.ne'⟩
  · rw [labelLaw_of_gt h]
    exact ⟨fun hcondition => ⟨fun hlt => absurd h hlt.not_gt, fun _ => hcondition⟩,
      fun hfits => hfits.squeeze h⟩

/-- One cell with two channels. -/
def twoChannels : Tensor ℕ :=
  .ofFn [1, 1, 1, 2] fun c => c.getD 3 0

/-- **The second axis to drop has moved up,** and the channels are squeezed in its place. -/
theorem not_labelLaw_twoChannels : ¬LabelLaw twoChannels .NHWC .NC :=
  not_labelLaw rfl

end DepthaiCore.NN
