import DepthaiCore.Utility.MatrixRows

/-!
# Inverses of matrices of any size

`matInv` divides the adjugate by the determinant. Both come from minors, which are copied into
scratch matrices that keep the size of the matrix they were made for: a minor of a minor stands in
the corner of a larger vector of rows. An index outside a vector is a fault.
-/

namespace DepthaiCore

namespace MatrixOps

open Matrix

variable {K : Type}

/-! ### What the source computes -/

/-- `rows[i][j]`. -/
def read (rows : List (List K)) (i j : ℕ) : Except RowFault K :=
  match (rows.getD i [])[j]? with
  | some x => .ok x
  | none => .error .outside

/-- `rows[i][j] = x`. -/
def write (rows : List (List K)) (i j : ℕ) (x : K) : Except RowFault (List (List K)) :=
  if j < (rows.getD i []).length then .ok (rows.modify i (·.set j x)) else .error .outside

/-- A scratch matrix that is being filled, and the next place in it. -/
structure Copying (K : Type) where
  temp : List (List K)
  i : ℕ
  j : ℕ

/-- One element, which is copied if it is neither in row `p` nor in column `q`. -/
def copyElement (A : List (List K)) (p q n row : ℕ) (s : Copying K) (col : ℕ) :
    Except RowFault (Copying K) := do
  if row ≠ p ∧ col ≠ q then
    let x ← read A row col
    let temp ← write s.temp s.i s.j x
    -- the row is filled
    if s.j + 1 = n - 1 then
      return ⟨temp, s.i + 1, 0⟩
    else
      return ⟨temp, s.i, s.j + 1⟩
  else
    return s

/-- `getCofactor`: `temp` with the minor in its corner. -/
def getCofactor (A temp : List (List K)) (p q n : ℕ) : Except RowFault (List (List K)) := do
  let s ← (List.range n).foldlM
    (fun s row => (List.range n).foldlM (copyElement A p q n row) s) ⟨temp, 0, 0⟩
  return s.temp

section Ring

variable [Ring K]

/-- The locals of the loop of `determinant`. -/
structure Expansion (K : Type) where
  D : K
  temp : List (List K)
  sign : ℤ

/-- A square matrix of zeros. -/
def zeros (n : ℕ) : List (List K) :=
  List.replicate n (List.replicate n 0)

/-- One term of the expansion along the first row. -/
def expandTerm (determinant : List (List K) → Except RowFault K) (A : List (List K)) (n : ℕ)
    (s : Expansion K) (f : ℕ) : Except RowFault (Expansion K) := do
  let temp ← getCofactor A s.temp 0 f n
  let a ← read A 0 f
  let minor ← determinant temp
  return ⟨s.D + s.sign * a * minor, temp, -s.sign⟩

def determinant : List (List K) → ℕ → Except RowFault K
  | _, 0 => .ok 0
  | A, 1 => read A 0 0
  | A, n + 2 => do
    let s ← (List.range (n + 2)).foldlM
      (expandTerm (fun temp => determinant temp (n + 1)) A (n + 2)) ⟨0, zeros (n + 2), 1⟩
    return s.D

/-- One element of the adjugate: the vectors `adj` and `temp` after it. -/
def adjointElement (A : List (List K)) (i : ℕ) (s : List (List K) × List (List K)) (j : ℕ) :
    Except RowFault (List (List K) × List (List K)) := do
  let temp ← getCofactor A s.2 i j A.length
  let sign : ℤ := if (i + j) % 2 = 0 then 1 else -1
  let minor ← determinant temp (A.length - 1)
  let adj ← write s.1 j i (sign * minor)
  return (adj, temp)

/-- `adjoint`: `adj` with the adjugate in it. -/
def adjoint (A adj : List (List K)) : Except RowFault (List (List K)) :=
  if A.length = 1 then
    write adj 0 0 1
  else do
    let s ← (List.range A.length).foldlM
      (fun s i => (List.range A.length).foldlM (adjointElement A i) s) (adj, zeros A.length)
    return s.1

end Ring

section Field

variable [Field K] [DecidableEq K]

/-- The quotients of a matrix by its determinant, pushed onto `inverse` row by row. -/
def pushQuotients (adj : List (List K)) (det : K) (n : ℕ) (inverse : List (List K)) :
    Except RowFault (List (List K)) :=
  (List.range n).foldlM
    (fun inverse i => do
      let temp ← (List.range n).foldlM
        (fun temp j => do
          let x ← read adj i j
          return temp ++ [x / det])
        []
      return inverse ++ [temp])
    inverse

/-- `matInv`: what it returns, and what it leaves in `A` and `inverse`. -/
def matInv (A inverse : List (List K)) :
    Except RowFault (Bool × List (List K) × List (List K)) :=
  match A with
  | [] => .error .outside
  | row :: _ =>
    if row.length ≠ A.length then
      .error (.failure (.runtimeError "Not a Square Matrix "))
    else do
      let det ← determinant A A.length
      if det = 0 then
        return (false, A, inverse)
      else
        let adj ← adjoint A (zeros A.length)
        let inverse ← pushQuotients adj det A.length inverse
        return (true, A, inverse)

end Field

/-! ### Elements -/

/-- The index of a row or column in a minor, in the matrix. -/
def skip (p i : ℕ) : ℕ :=
  if i < p then i else i + 1

/-- The number of rows or columns before `k` that are in the minor. -/
def kept (p k : ℕ) : ℕ :=
  if k ≤ p then k else k - 1

theorem skip_kept {p k : ℕ} (h : k ≠ p) : skip p (kept p k) = k := by
  unfold skip kept
  split_ifs <;> omega

theorem kept_succ {p k : ℕ} (h : k ≠ p) : kept p (k + 1) = kept p k + 1 := by
  unfold kept
  split_ifs <;> omega

theorem kept_succ_self (p : ℕ) : kept p (p + 1) = kept p p := by
  simp [kept]

theorem kept_of_lt {p k : ℕ} (h : p < k) : kept p k = k - 1 :=
  if_neg h.not_ge

theorem kept_lt {p k n : ℕ} (hk : k < n) (hp : p < n) (h : k ≠ p) : kept p k < n - 1 := by
  unfold kept
  split_ifs <;> omega

theorem read_eq_ok_iff {rows : List (List K)} {i j : ℕ} {x : K} :
    read rows i j = .ok x ↔ (rows.getD i [])[j]? = some x := by
  unfold read
  cases (rows.getD i [])[j]? with
  | none => simp
  | some y => simp

/-- The first rows have elements at the first places. -/
def Room (n : ℕ) (rows : List (List K)) : Prop :=
  ∀ i < n, n ≤ (rows.getD i []).length

/-- **What stands in the corner** of a vector of rows. -/
def Corner (n : ℕ) (rows : List (List K)) (M : ℕ → ℕ → K) : Prop :=
  ∀ i < n, ∀ j < n, read rows i j = .ok (M i j)

theorem Room.mono {m n : ℕ} {rows : List (List K)} (h : Room n rows) (hmn : m ≤ n) :
    Room m rows :=
  fun i hi => hmn.trans (h i (hi.trans_le hmn))

theorem room_zeros [Ring K] (n : ℕ) : Room n (zeros n : List (List K)) := by
  intro i hi
  rw [zeros, ← List.getElem_eq_getD (h := by rwa [List.length_replicate]), List.getElem_replicate,
    List.length_replicate]

theorem getD_modify_self (rows : List (List K)) (i j : ℕ) (x : K) :
    (rows.modify i (·.set j x)).getD i [] = (rows.getD i []).set j x := by
  rw [List.getD_eq_getElem?_getD, List.getD_eq_getElem?_getD, List.getElem?_modify_eq]
  cases rows[i]? with
  | none => rfl
  | some row => rfl

theorem getD_modify_of_ne {i i' : ℕ} (h : i ≠ i') (rows : List (List K)) (j : ℕ) (x : K) :
    (rows.modify i (·.set j x)).getD i' [] = rows.getD i' [] := by
  rw [List.getD_eq_getElem?_getD, List.getD_eq_getElem?_getD, List.getElem?_modify_ne _ _ h]

theorem write_eq {n i j : ℕ} {rows : List (List K)} (h : Room n rows) (hi : i < n) (hj : j < n)
    (x : K) : ∃ rows', write rows i j x = .ok rows' ∧ Room n rows' ∧ read rows' i j = .ok x ∧
      ∀ i' j', (i', j') ≠ (i, j) → read rows' i' j' = read rows i' j' := by
  have hlength : j < (rows.getD i []).length := hj.trans_le (h i hi)
  refine ⟨_, if_pos hlength, fun i' hi' => ?_, ?_, fun i' j' hne => ?_⟩
  · by_cases hii : i = i'
    · rw [← hii, getD_modify_self, List.length_set]
      exact h i hi
    · rw [getD_modify_of_ne hii]
      exact h i' hi'
  · rw [read_eq_ok_iff, getD_modify_self]
    exact List.getElem?_set_self hlength
  · unfold read
    by_cases hii : i = i'
    · subst hii
      have hjj : j ≠ j' := fun hjj => hne (by rw [hjj])
      rw [getD_modify_self, List.getElem?_set_ne hjj]
    · rw [getD_modify_of_ne hii]

/-! ### The copy of a minor -/

section Minor

variable {A : List (List K)} {M : ℕ → ℕ → K} {p q n : ℕ}

/-- The minor is copied up to a place, row by row. -/
structure Copied (M : ℕ → ℕ → K) (p q n i j : ℕ) (temp : List (List K)) : Prop where
  room : Room (n - 1) temp
  copied : ∀ i' < n - 1, ∀ j' < n - 1, i' < i ∨ i' = i ∧ j' < j →
    read temp i' j' = .ok (M (skip p i') (skip q j'))

theorem Copied.next {i : ℕ} {temp : List (List K)} (h : Copied M p q n i (n - 1) temp) :
    Copied M p q n (i + 1) 0 temp :=
  ⟨h.room, fun i' hi' j' hj' hbefore => h.copied i' hi' j' hj' (by omega)⟩

/-- The place of the next element, in the row or at the start of the following row. -/
def nextPlace (n i j : ℕ) : ℕ × ℕ :=
  if j = n - 1 then (i + 1, 0) else (i, j)

theorem copyElement_eq (hA : Corner n A M) {row col : ℕ} (hrow : row < n) (hcol : col < n)
    (hp : p < n) (hq : q < n) (hrp : row ≠ p) {s : Copying K}
    (hs : Copied M p q n (kept p row) (kept q col) s.temp ∧
      (s.i, s.j) = nextPlace n (kept p row) (kept q col)) :
    ∃ t, copyElement A p q n row s col = .ok t ∧
      Copied M p q n (kept p row) (kept q (col + 1)) t.temp ∧
      (t.i, t.j) = nextPlace n (kept p row) (kept q (col + 1)) := by
  obtain ⟨hcopied, hplace⟩ := hs
  by_cases hcq : col = q
  · subst hcq
    refine ⟨s, ?_, ?_⟩
    · rw [copyElement, if_neg fun h => h.2 rfl]
      rfl
    · rw [kept_succ_self]
      exact ⟨hcopied, hplace⟩
  · have hi := kept_lt hrow hp hrp
    have hj := kept_lt hcol hq hcq
    rw [nextPlace, if_neg hj.ne] at hplace
    obtain ⟨hsi, hsj⟩ := Prod.mk.inj hplace
    obtain ⟨temp, hwrite, hroom, hself, hother⟩ := write_eq hcopied.room hi hj (M row col)
    have hnext : Copied M p q n (kept p row) (kept q (col + 1)) temp := by
      refine ⟨hroom, fun i' hi' j' hj' hbefore => ?_⟩
      rw [kept_succ hcq] at hbefore
      by_cases hhere : (i', j') = (kept p row, kept q col)
      · obtain ⟨rfl, rfl⟩ := Prod.mk.inj hhere
        rw [hself, skip_kept hrp, skip_kept hcq]
      · rw [hother i' j' hhere]
        refine hcopied.copied i' hi' j' hj' ?_
        rw [Prod.mk.injEq, not_and] at hhere
        omega
    have hround : copyElement A p q n row s col =
        if s.j + 1 = n - 1 then .ok ⟨temp, s.i + 1, 0⟩ else .ok ⟨temp, s.i, s.j + 1⟩ := by
      rw [copyElement, if_pos ⟨hrp, hcq⟩, hA row hrow col hcol, Loop.ok_bind, hsi, hsj, hwrite]
      rfl
    rw [hround, hsi, hsj, nextPlace, kept_succ hcq]
    by_cases hfilled : kept q col + 1 = n - 1
    · rw [if_pos hfilled, if_pos hfilled]
      exact ⟨_, rfl, by rwa [kept_succ hcq] at hnext, rfl⟩
    · rw [if_neg hfilled, if_neg hfilled]
      exact ⟨_, rfl, by rwa [kept_succ hcq] at hnext, rfl⟩

theorem copyRow_self (s : Copying K) :
    (List.range n).foldlM (copyElement A p q n p) s = .ok s :=
  Loop.foldlM_range_eq_ok (s := fun _ => s) fun _ _ => if_neg fun h => h.1 rfl

theorem copyRow_eq (hA : Corner n A M) {row : ℕ} (hrow : row < n) (hp : p < n) (hq : q < n)
    (hrp : row ≠ p) {s : Copying K} (hs : Copied M p q n (kept p row) 0 s.temp)
    (hi : s.i = kept p row) (hj : s.j = 0) :
    ∃ t, (List.range n).foldlM (copyElement A p q n row) s = .ok t ∧
      Copied M p q n (kept p (row + 1)) 0 t.temp ∧ t.i = kept p (row + 1) ∧ t.j = 0 := by
  have hzero : kept q 0 = 0 := if_pos (Nat.zero_le q)
  have hlt := kept_lt hrow hp hrp
  have hstart : Copied M p q n (kept p row) (kept q 0) s.temp ∧
      (s.i, s.j) = nextPlace n (kept p row) (kept q 0) := by
    rw [hzero, nextPlace, if_neg (by omega), hi, hj]
    exact ⟨hs, rfl⟩
  obtain ⟨t, ht, hcopied, hplace⟩ := Loop.exists_foldlM_range_eq_ok
    (I := fun col (t : Copying K) => Copied M p q n (kept p row) (kept q col) t.temp ∧
      (t.i, t.j) = nextPlace n (kept p row) (kept q col)) hstart
    fun col hcol t ht => copyElement_eq hA hrow hcol hp hq hrp ht
  rw [kept_of_lt hq] at hcopied hplace
  rw [nextPlace, if_pos rfl] at hplace
  rw [kept_succ hrp]
  exact ⟨t, ht, hcopied.next, Prod.mk.inj hplace⟩

/-- **The copy of a minor** fills the corner of the scratch matrix. -/
theorem getCofactor_eq (hA : Corner n A M) (hp : p < n) (hq : q < n) {temp : List (List K)}
    (htemp : Room (n - 1) temp) :
    ∃ temp', getCofactor A temp p q n = .ok temp' ∧ Room (n - 1) temp' ∧
      Corner (n - 1) temp' fun i j => M (skip p i) (skip q j) := by
  have hstart : Copied M p q n (kept p 0) 0 temp ∧ (0 : ℕ) = kept p 0 ∧ (0 : ℕ) = 0 := by
    rw [show kept p 0 = 0 from if_pos (Nat.zero_le p)]
    exact ⟨⟨htemp, fun _ _ _ _ hbefore => by omega⟩, rfl, rfl⟩
  obtain ⟨t, ht, hcopied, -⟩ := Loop.exists_foldlM_range_eq_ok
    (f := fun s row => (List.range n).foldlM (copyElement A p q n row) s)
    (s := (⟨temp, 0, 0⟩ : Copying K))
    (I := fun row t => Copied M p q n (kept p row) 0 t.temp ∧ t.i = kept p row ∧ t.j = 0) hstart
    fun row hrow s hs => by
      by_cases hrp : row = p
      · rw [hrp] at hs ⊢
        rw [kept_succ_self]
        exact ⟨s, copyRow_self s, hs⟩
      · exact copyRow_eq hA hrow hp hq hrp hs.1 hs.2.1 hs.2.2
  refine ⟨t.temp, ?_, hcopied.room, fun i hi j hj => hcopied.copied i hi j hj (.inl ?_)⟩
  · rw [getCofactor, ht]
    rfl
  · rwa [kept_of_lt hp]

end Minor

/-! ### Determinants and adjugates -/

section CommRing

variable [CommRing K] {A : List (List K)} {M : ℕ → ℕ → K} {n : ℕ}

/-- The matrix in a corner. -/
def corner (n : ℕ) (M : ℕ → ℕ → K) : Matrix (Fin n) (Fin n) K :=
  of fun i j => M i j

/-- The signed minor at a place. -/
def cofactor (n : ℕ) (M : ℕ → ℕ → K) (i j : ℕ) : K :=
  (-1) ^ (i + j) * (corner n fun i' j' => M (skip i i') (skip j j')).det

theorem val_succAbove (p : Fin (n + 1)) (i : Fin n) : (p.succAbove i : ℕ) = skip p i := by
  unfold skip Fin.succAbove
  split_ifs with hsucc hlt hlt
  · rfl
  · exact absurd hsucc hlt
  · exact absurd hlt hsucc
  · rfl

omit [CommRing K] in
theorem corner_minor (M : ℕ → ℕ → K) (p q : Fin (n + 1)) :
    (corner n fun i j => M (skip p i) (skip q j)) =
      (corner (n + 1) M).submatrix p.succAbove q.succAbove := by
  funext i j
  show M (skip p i) (skip q j) = M (p.succAbove i) (q.succAbove j)
  rw [val_succAbove, val_succAbove]

theorem det_corner_succ (M : ℕ → ℕ → K) :
    (corner (n + 1) M).det = ∑ f ∈ Finset.range (n + 1), M 0 f * cofactor n M 0 f := by
  rw [det_succ_row_zero, Finset.sum_range]
  refine Finset.sum_congr rfl fun f _ => ?_
  have hminor := corner_minor M 0 f
  rw [Fin.succAbove_zero] at hminor
  show (-1) ^ (f : ℕ) * M 0 f * _ = M 0 f * ((-1) ^ (0 + (f : ℕ)) * _)
  rw [← hminor, zero_add, mul_comm ((-1) ^ (f : ℕ)), mul_assoc]
  rfl

theorem adjugate_corner (M : ℕ → ℕ → K) (i j : Fin (n + 1)) :
    adjugate (corner (n + 1) M) i j = cofactor n M j i := by
  rw [adjugate_fin_succ_eq_det_submatrix, cofactor, corner_minor]

/-- **The expansion is the determinant.** -/
theorem determinant_eq (hA : Corner (n + 1) A M) :
    determinant A (n + 1) = .ok (corner (n + 1) M).det := by
  induction n generalizing A M with
  | zero =>
    rw [det_fin_one]
    exact hA 0 Nat.one_pos 0 Nat.one_pos
  | succ n ih =>
    have hroom : Room (n + 1) (zeros (n + 2) : List (List K)) :=
      (room_zeros (n + 2)).mono (Nat.le_succ _)
    -- what the sum and the sign are before the term of column `f`
    obtain ⟨s, hs, hD, -⟩ := Loop.exists_foldlM_range_eq_ok
      (f := expandTerm (fun temp => determinant temp (n + 1)) A (n + 2))
      (I := fun f s => s.D = ∑ k ∈ Finset.range f, M 0 k * cofactor (n + 1) M 0 k ∧
        s.sign = (-1) ^ f ∧ Room (n + 1) s.temp)
      (n := n + 2) (s := ⟨0, zeros (n + 2), 1⟩) ⟨rfl, rfl, hroom⟩ fun f hf s hs => by
        obtain ⟨hD, hsign, htemp⟩ := hs
        obtain ⟨temp, hcopy, htemp', hminor⟩ := getCofactor_eq hA (Nat.succ_pos _) hf htemp
        refine ⟨⟨s.D + s.sign * M 0 f * (corner (n + 1) fun i j => M (skip 0 i) (skip f j)).det,
          temp, -s.sign⟩, ?_, ?_, ?_, htemp'⟩
        · rw [expandTerm, hcopy, Loop.ok_bind, hA 0 (Nat.succ_pos _) f hf, Loop.ok_bind]
          show (determinant temp (n + 1) >>= _) = _
          rw [ih hminor]
          rfl
        · show s.D + _ = _
          rw [Finset.sum_range_succ, hD, hsign, cofactor, zero_add]
          push_cast
          ring
        · show -s.sign = _
          rw [hsign, pow_succ, mul_neg_one]
    rw [determinant, hs, Loop.ok_bind, hD, det_corner_succ]
    rfl

/-- The columns of the adjugate up to a place are written. -/
structure Signed (M : ℕ → ℕ → K) (n i j : ℕ) (adj temp : List (List K)) : Prop where
  adj_room : Room (n + 1) adj
  temp_room : Room n temp
  written : ∀ i' < n + 1, ∀ j' < n + 1, i' < i ∨ i' = i ∧ j' < j →
    read adj j' i' = .ok (cofactor n M i' j')

theorem Signed.next {i : ℕ} {adj temp : List (List K)} (h : Signed M n i (n + 1) adj temp) :
    Signed M n (i + 1) 0 adj temp :=
  ⟨h.adj_room, h.temp_room, fun i' hi' j' hj' hbefore => h.written i' hi' j' hj' (by omega)⟩

theorem adjointElement_eq (hlength : A.length = n + 2) (hA : Corner (n + 2) A M) {i j : ℕ}
    (hi : i < n + 2) (hj : j < n + 2) {s : List (List K) × List (List K)}
    (hs : Signed M (n + 1) i j s.1 s.2) :
    ∃ t, adjointElement A i s j = .ok t ∧ Signed M (n + 1) i (j + 1) t.1 t.2 := by
  obtain ⟨temp, hcopy, htemp, hminor⟩ := getCofactor_eq hA hi hj hs.temp_room
  have hsign : ((if (i + j) % 2 = 0 then 1 else -1 : ℤ) : K) = (-1) ^ (i + j) := by
    rcases Nat.even_or_odd (i + j) with heven | hodd
    · rw [if_pos (Nat.even_iff.1 heven), heven.neg_one_pow, Int.cast_one]
    · rw [if_neg (by rw [Nat.odd_iff.1 hodd]; exact Nat.one_ne_zero), hodd.neg_one_pow,
        Int.cast_neg, Int.cast_one]
  obtain ⟨adj, hwrite, hroom, hself, hother⟩ :=
    write_eq hs.adj_room hj hi (cofactor (n + 1) M i j)
  refine ⟨(adj, temp), ?_, hroom, htemp, fun i' hi' j' hj' hbefore => ?_⟩
  · rw [adjointElement, hlength, hcopy, Loop.ok_bind]
    show (determinant temp (n + 1) >>= _) = _
    rw [determinant_eq hminor, Loop.ok_bind]
    show (write s.1 j i (((if (i + j) % 2 = 0 then 1 else -1 : ℤ) : K) * _) >>= _) = _
    rw [hsign]
    show (write s.1 j i (cofactor (n + 1) M i j) >>= _) = _
    rw [hwrite]
    rfl
  · by_cases hhere : (j', i') = (j, i)
    · obtain ⟨rfl, rfl⟩ := Prod.mk.inj hhere
      exact hself
    · rw [hother j' i' hhere]
      refine hs.written i' hi' j' hj' ?_
      rw [Prod.mk.injEq, not_and] at hhere
      omega

/-- **The signed minors are the adjugate.** -/
theorem adjoint_eq (hlength : A.length = n + 1) (hA : Corner (n + 1) A M) {adj : List (List K)}
    (hadj : Room (n + 1) adj) :
    ∃ adj', adjoint A adj = .ok adj' ∧ Corner (n + 1) adj' fun i j => cofactor n M j i := by
  rw [adjoint, hlength]
  cases n with
  | zero =>
    obtain ⟨adj', hwrite, -, hself, -⟩ := write_eq hadj Nat.one_pos Nat.one_pos 1
    refine ⟨adj', hwrite, fun i hi j hj => ?_⟩
    obtain rfl := Nat.lt_one_iff.1 hi
    obtain rfl := Nat.lt_one_iff.1 hj
    show read adj' 0 0 = .ok (cofactor 0 M 0 0)
    rw [hself, cofactor, det_fin_zero, mul_one, pow_zero]
  | succ n =>
    have hroom : Room (n + 1) (zeros (n + 2) : List (List K)) :=
      (room_zeros (n + 2)).mono (Nat.le_succ _)
    obtain ⟨s, hs, hsigned⟩ := Loop.exists_foldlM_range_eq_ok
      (f := fun s i => (List.range (n + 2)).foldlM (adjointElement A i) s)
      (I := fun i s => Signed M (n + 1) i 0 s.1 s.2) (n := n + 2) (s := (adj, zeros (n + 2)))
      ⟨hadj, hroom, fun _ _ _ _ hbefore => by omega⟩ fun i hi s hs => by
        obtain ⟨t, ht, hsigned⟩ := Loop.exists_foldlM_range_eq_ok (f := adjointElement A i)
          (I := fun j s => Signed M (n + 1) i j s.1 s.2) (n := n + 2) hs
          fun j hj s hs => adjointElement_eq hlength hA hi hj hs
        exact ⟨t, ht, hsigned.next⟩
    refine ⟨s.1, ?_, fun i hi j hj => hsigned.written j hj i hi (.inl hj)⟩
    rw [if_neg (by omega), hs]
    rfl

end CommRing

/-! ### Inverses -/

/-- The vector of the rows of a matrix. -/
def ofMatrix {n : ℕ} (M : Matrix (Fin n) (Fin n) K) : List (List K) :=
  List.ofFn fun i => List.ofFn (M i)

section Field

variable [Field K] [DecidableEq K] {n : ℕ}

/-- The elements of a matrix with a row, by their numbers. -/
def elements (M : Matrix (Fin (n + 1)) (Fin (n + 1)) K) (i j : ℕ) : K :=
  M (Fin.ofNat (n + 1) i) (Fin.ofNat (n + 1) j)

omit [Field K] [DecidableEq K] in
theorem corner_elements (M : Matrix (Fin (n + 1)) (Fin (n + 1)) K) :
    corner (n + 1) (elements M) = M := by
  funext i j
  show M (Fin.ofNat (n + 1) i) (Fin.ofNat (n + 1) j) = M i j
  rw [Fin.ofNat_val_eq_self, Fin.ofNat_val_eq_self]

theorem ofFn_eq_map_range {α : Type} (f : ℕ → α) (n : ℕ) :
    List.ofFn (fun i : Fin n => f i) = (List.range n).map f := by
  refine List.ext_getElem (by simp) fun i h h' => ?_
  rw [List.getElem_ofFn, List.getElem_map, List.getElem_range]

omit [Field K] [DecidableEq K] in
theorem getD_ofMatrix (M : Matrix (Fin n) (Fin n) K) (i : Fin n) :
    (ofMatrix M).getD i [] = List.ofFn (M i) := by
  rw [← List.getElem_eq_getD (h := by rw [ofMatrix, List.length_ofFn]; exact i.isLt)]
  exact List.getElem_ofFn _

omit [Field K] [DecidableEq K] in
theorem corner_ofMatrix (M : Matrix (Fin (n + 1)) (Fin (n + 1)) K) :
    Corner (n + 1) (ofMatrix M) (elements M) := by
  intro i hi j hj
  have hcast : ∀ k (hk : k < n + 1), Fin.ofNat (n + 1) k = ⟨k, hk⟩ := fun k hk =>
    Fin.ext (Nat.mod_eq_of_lt hk)
  rw [read_eq_ok_iff, elements, hcast i hi, hcast j hj]
  show ((ofMatrix M).getD (⟨i, hi⟩ : Fin (n + 1)) [])[j]? = _
  rw [getD_ofMatrix, List.getElem?_eq_getElem (by rwa [List.length_ofFn]), List.getElem_ofFn]

omit [DecidableEq K] in
theorem pushQuotients_eq {adj : List (List K)} {N : ℕ → ℕ → K} (hadj : Corner n adj N) (det : K) :
    pushQuotients adj det n [] =
      .ok ((List.range n).map fun i => (List.range n).map fun j => N i j / det) := by
  refine Loop.foldlM_range_eq_ok
    (s := fun k => (List.range k).map fun i => (List.range n).map fun j => N i j / det)
    fun i hi => ?_
  have hrow : (List.range n).foldlM
      (fun temp j => do
        let x ← read adj i j
        return temp ++ [x / det])
      [] = (.ok ((List.range n).map fun j => N i j / det) : Except RowFault (List K)) := by
    refine Loop.foldlM_range_eq_ok (s := fun k => (List.range k).map fun j => N i j / det)
      fun j hj => ?_
    rw [hadj i hi j hj, List.range_succ, List.map_append]
    rfl
  rw [hrow, List.range_succ, List.map_append]
  rfl

omit [DecidableEq K] in
theorem ofMatrix_inv (M : Matrix (Fin (n + 1)) (Fin (n + 1)) K) :
    (List.range (n + 1)).map (fun i => (List.range (n + 1)).map fun j =>
      cofactor n (elements M) j i / M.det) = ofMatrix M⁻¹ := by
  have hrow : ∀ i : Fin (n + 1), (List.range (n + 1)).map
      (fun j => cofactor n (elements M) j i / M.det) = List.ofFn (M⁻¹ i) := by
    intro i
    rw [← ofFn_eq_map_range]
    congr 1
    funext j
    rw [inv_def, Matrix.smul_apply, Ring.inverse_eq_inv', smul_eq_mul, ← adjugate_corner,
      corner_elements, div_eq_inv_mul]
  rw [← ofFn_eq_map_range (fun i => (List.range (n + 1)).map fun j =>
    cofactor n (elements M) j i / M.det), ofMatrix]
  exact congrArg List.ofFn (funext hrow)

theorem matInv_eq {A : List (List K)} (hlength : A.length = n)
    (hrow : ∃ row rest, A = row :: rest ∧ row.length = n) (inverse : List (List K)) :
    matInv A inverse = do
      let det ← determinant A n
      if det = 0 then
        return (false, A, inverse)
      else
        let adj ← adjoint A (zeros n)
        let inverse ← pushQuotients adj det n inverse
        return (true, A, inverse) := by
  obtain ⟨row, rest, rfl, hsquare⟩ := hrow
  rw [matInv, if_neg (not_not.2 (hsquare.trans hlength.symm)), hlength]

theorem matInv_ofMatrix (M : Matrix (Fin (n + 1)) (Fin (n + 1)) K) :
    matInv (ofMatrix M) [] =
      if M.det = 0 then .ok (false, ofMatrix M, []) else .ok (true, ofMatrix M, ofMatrix M⁻¹) := by
  have hlength : (ofMatrix M).length = n + 1 := List.length_ofFn
  have hA := corner_ofMatrix M
  have hdet := determinant_eq hA
  rw [corner_elements] at hdet
  obtain ⟨adj, hadj, hcorner⟩ := adjoint_eq hlength hA (room_zeros (n + 1))
  have hcons : ofMatrix M = List.ofFn (M 0) :: List.ofFn fun i : Fin n => List.ofFn (M i.succ) :=
    List.ofFn_succ
  rw [matInv_eq hlength ⟨_, _, hcons, List.length_ofFn⟩, hdet, Loop.ok_bind]
  by_cases hzero : M.det = 0
  · rw [if_pos hzero, if_pos hzero]
    rfl
  · rw [if_neg hzero, if_neg hzero, hadj]
    show (pushQuotients adj M.det (n + 1) [] >>= _) = _
    rw [pushQuotients_eq hcorner, ofMatrix_inv]
    rfl

/-- **A matrix is inverted if it can be**, and is itself left as it was. -/
theorem matInv_inverse (M : Matrix (Fin (n + 1)) (Fin (n + 1)) K) :
    ∃ result inverse, matInv (ofMatrix M) [] = .ok (result, ofMatrix M, inverse) ∧
      (result = true ↔ IsUnit M) ∧
      (result = true → ∃ N, inverse = ofMatrix N ∧ M * N = 1 ∧ N * M = 1) := by
  have hunit : IsUnit M ↔ M.det ≠ 0 := by
    rw [isUnit_iff_isUnit_det, isUnit_iff_ne_zero]
  rw [matInv_ofMatrix, hunit]
  by_cases hzero : M.det = 0
  · rw [if_pos hzero]
    exact ⟨false, [], rfl, ⟨nofun, fun h => absurd hzero h⟩, nofun⟩
  · rw [if_neg hzero]
    have hdet : IsUnit M.det := isUnit_iff_ne_zero.2 hzero
    exact ⟨true, _, rfl, ⟨fun _ => hzero, fun _ => rfl⟩,
      fun _ => ⟨M⁻¹, rfl, mul_nonsing_inv M hdet, nonsing_inv_mul M hdet⟩⟩

end Field

end MatrixOps

end DepthaiCore
