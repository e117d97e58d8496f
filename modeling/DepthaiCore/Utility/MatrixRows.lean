import DepthaiCore.Lib.Correspondence
import DepthaiCore.Lib.Loops
import DepthaiCore.Lib.RigidMotion
import DepthaiCore.Utility.MatrixOps

/-!
# Matrices as vectors of rows

The calibration has its matrices as vectors of rows, whose sizes the functions check as they go. A
matrix with four rows and columns passes all the checks.
-/

open scoped Numerals

namespace DepthaiCore

/-- What an evaluation ends with that does not return. -/
inductive RowFault
  | failure (what : Failure)
  | outside
  deriving DecidableEq, Repr

namespace MatrixOps

open Matrix RigidMotion

variable {K : Type} [Field K]

/-! ### What the source computes -/

/-- One element of the product of `matMul`. -/
def matMulCell (B : List (List K)) (m q : ℕ) (row : List K) (j : ℕ) : Except Failure K :=
  if row.length ≠ m then
    .error (.runtimeError "All rows of the matrix A need to have the same number of columns.")
  else if row.length ≠ B.length then
    .error (.runtimeError
      "Number of columns of A need to match number of rows of B for multiplication.")
  else
    (List.range m).foldlM
      (fun res k =>
        if (B.getD k []).length ≠ q then
          .error (.runtimeError
            "All rows of the matrix B need to have the same number of columns.")
        else .ok (res + row.getD k 0 * entry B k j))
      0

/-- `matMul` of vectors of rows. -/
def matMulRows (A B : List (List K)) : Except Failure (List (List K)) :=
  match A, B with
  | [], _ => .error (.runtimeError "First matrix should not be empty")
  | _ :: _, [] => .error (.runtimeError "Second matrix should not be empty")
  | a :: _, b :: _ =>
    A.mapM fun row => (List.range b.length).mapM fun j => matMulCell B a.length b.length row j

def invertSe3Matrix4x4InPlace (mat : List (List K)) : Except Failure (List (List K)) :=
  if mat.length ≠ 4 ∨ ∃ row ∈ mat, row.length ≠ 4 then
    .error (.invalidArgument "Expected a 4x4 matrix.")
  else
    let r := entry mat
    let tx := r 0 3
    let ty := r 1 3
    let tz := r 2 3
    .ok
      [[r 0 0, r 1 0, r 2 0, -(r 0 0 * tx + r 1 0 * ty + r 2 0 * tz)],
       [r 0 1, r 1 1, r 2 1, -(r 0 1 * tx + r 1 1 * ty + r 2 1 * tz)],
       [r 0 2, r 1 2, r 2 2, -(r 0 2 * tx + r 1 2 * ty + r 2 2 * tz)],
       [0, 0, 0, 1]]

/-- A translation pushed behind the rows of a rotation, and the last row below them. -/
def pushTranslation (rotation : List (List K)) (translation : Point3f K) : List (List K) :=
  let transformationMatrix := rotation.modify 0 (· ++ [translation.x])
  let transformationMatrix := transformationMatrix.modify 1 (· ++ [translation.y])
  let transformationMatrix := transformationMatrix.modify 2 (· ++ [translation.z])
  transformationMatrix ++ [[0, 0, 0, 1]]

/-- The translations of the rows, scaled. -/
def scaleTranslation (mat : List (List K)) (scale : K) : List (List K) :=
  (List.range 3).foldl (fun mat i => mat.modify i fun row => row.modify 3 (· * scale)) mat

/-! ### Matrices with four rows -/

/-- The rows of a matrix. -/
def rows (M : Matrix4 K) : List (List K) :=
  [[M 0 0, M 0 1, M 0 2, M 0 3],
   [M 1 0, M 1 1, M 1 2, M 1 3],
   [M 2 0, M 2 1, M 2 2, M 2 3],
   [M 3 0, M 3 1, M 3 2, M 3 3]]

omit [Field K] in
theorem rows_injective {M N : Matrix4 K} (h : rows M = rows N) : M = N := by
  simp only [rows, List.cons.injEq, and_true] at h
  obtain ⟨⟨h00, h01, h02, h03⟩, ⟨h10, h11, h12, h13⟩, ⟨h20, h21, h22, h23⟩, h30, h31, h32, h33⟩ := h
  funext i j
  fin_cases i <;> fin_cases j <;> assumption

theorem matMulCell_rows (B : Matrix4 K) (a b c d : K) (j : Fin 4) :
    matMulCell (rows B) 4 4 [a, b, c, d] j =
      .ok (a * B 0 j + b * B 1 j + c * B 2 j + d * B 3 j) := by
  have hrange : List.range 4 = [0, 1, 2, 3] := rfl
  rw [matMulCell, if_neg (by simp), if_neg (by simp [rows]), hrange]
  fin_cases j <;> simp [rows, entry, pure, Except.pure, bind, Except.bind]

theorem matMulRows_rows (A B : Matrix4 K) : matMulRows (rows A) (rows B) = .ok (rows (A * B)) := by
  have hrow : ∀ a b c d : K,
      ((List.range 4).mapM fun j => matMulCell (rows B) 4 4 [a, b, c, d] j) =
        .ok ((List.finRange 4).map fun j => a * B 0 j + b * B 1 j + c * B 2 j + d * B 3 j) := by
    intro a b c d
    have hrange : List.range 4 = [((0 : Fin 4) : ℕ), (1 : Fin 4), (2 : Fin 4), (3 : Fin 4)] := rfl
    rw [hrange]
    simp only [List.mapM_cons, List.mapM_nil, matMulCell_rows]
    rfl
  have hmul : rows (A * B) = (List.finRange 4).map fun i =>
      (List.finRange 4).map fun j =>
        A i 0 * B 0 j + A i 1 * B 1 j + A i 2 * B 2 j + A i 3 * B 3 j := by
    simp only [rows, Matrix.mul_apply, Fin.sum_univ_four]
    rfl
  rw [hmul]
  show ((rows A).mapM fun row => (List.range 4).mapM fun j => matMulCell (rows B) 4 4 row j) = _
  simp only [rows, List.mapM_cons, List.mapM_nil]
  rw [← rows, hrow, hrow, hrow, hrow]
  rfl

theorem invertSe3Matrix4x4InPlace_rows (M : Matrix4 K) :
    invertSe3Matrix4x4InPlace (rows M) = .ok (rows (reverse M)) := by
  rw [invertSe3Matrix4x4InPlace, if_neg (by simp [rows])]
  simp [rows, entry, reverse, motion, linear, shift, Matrix.mulVec, dotProduct, Fin.sum_univ_three]

theorem scaleTranslation_rows (M : Matrix4 K) (scale : K) :
    scaleTranslation (rows M) scale = rows (scaleShift scale M) := by
  simp [scaleTranslation, rows, scaleShift, List.range_succ]

/-- **A rotation with a translation beside it** is a motion. -/
theorem pushTranslation_eq {rotation : List (List K)} (h : IsThreeByThree rotation)
    (translation : Point3f K) :
    pushTranslation rotation translation =
      rows (motion (rotationOf rotation) ![translation.x, translation.y, translation.z]) := by
  obtain ⟨hlength, h0, h1, h2⟩ := h
  obtain ⟨r0, r1, r2, rfl⟩ := List.length_eq_three.1 hlength
  obtain ⟨a0, a1, a2, rfl⟩ := List.length_eq_three.1 h0
  obtain ⟨b0, b1, b2, rfl⟩ := List.length_eq_three.1 h1
  obtain ⟨c0, c1, c2, rfl⟩ := List.length_eq_three.1 h2
  rfl

/-! ### Shapes -/

theorem exists_matMulCell_iff {B : List (List K)} {m q j : ℕ} {row : List K} :
    (∃ x, matMulCell B m q row j = .ok x) ↔
      row.length = m ∧ row.length = B.length ∧ ∀ k < m, (B.getD k []).length = q := by
  rw [matMulCell]
  split
  case isTrue h => simp [h]
  case isFalse h =>
    split
    case isTrue h' => simp [h']
    case isFalse h' =>
      rw [not_not] at h h'
      rw [and_iff_right h, and_iff_right h']
      clear h h'
      induction m with
      | zero => exact iff_of_true ⟨0, rfl⟩ fun k hk => absurd hk (Nat.not_lt_zero k)
      | succ m ih =>
        rw [List.range_succ, List.foldlM_append, Nat.forall_lt_succ_right, ← ih]
        constructor
        · rintro ⟨x, hx⟩
          obtain ⟨y, hy, hx⟩ := Loop.bind_eq_ok.1 hx
          rw [List.foldlM_cons] at hx
          obtain ⟨z, hz, -⟩ := Loop.bind_eq_ok.1 hx
          split at hz
          case isTrue => cases hz
          case isFalse hlength => exact ⟨⟨y, hy⟩, not_not.1 hlength⟩
        · rintro ⟨⟨y, hy⟩, hlength⟩
          rw [hy, Loop.ok_bind, List.foldlM_cons, if_neg (not_not.2 hlength)]
          exact ⟨_, rfl⟩

/-- **Which matrices can be multiplied.** The second one has a column at least. -/
theorem exists_matMulRows_iff {a b : List K} {A B : List (List K)} (hb : 0 < b.length) :
    (∃ R, matMulRows (a :: A) (b :: B) = .ok R) ↔
      (∀ row ∈ a :: A, row.length = (b :: B).length) ∧ ∀ row ∈ b :: B, row.length = b.length := by
  have hrows (row : List K) : (∃ r, ((List.range b.length).mapM fun j =>
      matMulCell (b :: B) a.length b.length row j) = .ok r) ↔
        row.length = a.length ∧ row.length = (b :: B).length ∧
          ∀ k < a.length, ((b :: B).getD k []).length = b.length := by
    simp only [Loop.exists_mapM_eq_ok_iff, List.mem_range, exists_matMulCell_iff]
    exact ⟨fun h => h 0 hb, fun h _ _ => h⟩
  simp only [matMulRows, Loop.exists_mapM_eq_ok_iff, hrows]
  constructor
  · intro h
    have hlength := (h a List.mem_cons_self).2.1
    refine ⟨fun row hrow => (h row hrow).2.1, fun row hrow => ?_⟩
    obtain ⟨k, hk, rfl⟩ := List.mem_iff_getElem.1 hrow
    have hcell := (h a List.mem_cons_self).2.2 k (by omega)
    rwa [← List.getElem_eq_getD (h := hk)] at hcell
  · rintro ⟨hA, hB⟩ row hrow
    have ha := hA a List.mem_cons_self
    refine ⟨(hA row hrow).trans ha.symm, hA row hrow, fun k hk => ?_⟩
    rw [← List.getElem_eq_getD (h := by omega)]
    exact hB _ (List.getElem_mem _)

theorem shape_matMulRows {A R : List (List K)} {b : List K} {B : List (List K)}
    (h : matMulRows A (b :: B) = .ok R) : R.length = A.length ∧ ∀ row ∈ R, row.length = b.length := by
  cases A with
  | nil => cases h
  | cons a A =>
    have hrows := Loop.mapM_eq_ok_iff.1 h
    refine ⟨hrows.length_eq.symm, fun row hrow => ?_⟩
    obtain ⟨_, -, hcells⟩ := hrows.exists_of_mem_right hrow
    rw [← (Loop.mapM_eq_ok_iff.1 hcells).length_eq, List.length_range]

theorem matMulRows_ne_nil {A B R : List (List K)} (h : matMulRows A B = .ok R) : R ≠ [] := by
  cases A with
  | nil => cases h
  | cons a A =>
    cases B with
    | nil => cases h
    | cons b B => exact List.ne_nil_of_length_pos (by rw [(shape_matMulRows h).1]; exact Nat.succ_pos _)

end MatrixOps

end DepthaiCore
