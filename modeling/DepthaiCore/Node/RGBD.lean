import DepthaiCore.Node.DepthPoints

/-!
# Point clouds of the node `RGBD`

The node makes a point of every pixel of a colour frame and a depth frame. Sizes and rows are of
type `int`. With several threads the rows are shared out, every thread collects its points in a list
of its own, and the lists are put one behind the other.
-/

namespace DepthaiCore

namespace RGBD

open DepthPoints

/-! ### Numbers of type `int` -/

/-- A result of type `int`. -/
def int (n : ℤ) : Except PointFault ℤ :=
  if -2 ^ 31 ≤ n ∧ n < 2 ^ 31 then .ok n else .error .undefined

/-- The conversion of an unsigned number. -/
def ofUnsigned (n : UInt32) : ℤ :=
  Int.bmod n.toNat (2 ^ 32)

/-- A quotient of type `int`. -/
def divide (a b : ℤ) : Except PointFault ℤ :=
  if b = 0 then .error .undefined else int (a.tdiv b)

/-- `reserve` with an `int`; a negative number is a huge one. -/
def reserve (n : ℤ) : Except PointFault PUnit :=
  if n < 0 then .error (.thrown "vector::reserve") else .ok ⟨⟩

/-- An `int` as an index. -/
def index (n : ℤ) : Except PointFault ℕ :=
  if 0 ≤ n then .ok n.toNat else .error .undefined

/-! ### The computation -/

/-- `ComputeMethod`, without the GPU. -/
inductive ComputeMethod
  | CPU | CPU_MT
  deriving DecidableEq, Repr

/-- What `setIntrinsics` sets. -/
structure Intrinsics (F : Type) where
  fx : F
  fy : F
  cx : F
  cy : F
  width : ℤ
  height : ℤ
  size : ℤ
  deriving DecidableEq, Repr

structure Impl (F : Type) where
  computeMethod : ComputeMethod := .CPU
  scaleFactor : F
  /-- The intrinsics; none for `intrinsicsSet == false`. -/
  intrinsics : Option (Intrinsics F) := none
  threadNum : ℤ := 2
  deriving DecidableEq, Repr

namespace Impl

variable {F : Type}

def useCPU (self : Impl F) : Impl F :=
  { self with computeMethod := .CPU }

def useCPUMT (self : Impl F) (numThreads : UInt32) : Impl F :=
  { self with threadNum := ofUnsigned numThreads, computeMethod := .CPU_MT }

def setIntrinsics (self : Impl F) (fx fy cx cy : F) (width height : UInt32) :
    Except PointFault (Impl F) := do
  let width := ofUnsigned width
  let height := ofUnsigned height
  let size ← int (width * height)
  return { self with intrinsics := some { fx, fy, cx, cy, width, height, size } }

variable [Sub F] [Mul F] [Div F] [IntCast F] [NatCast F]

/-- The point of a pixel with this depth value and colour. -/
def makePoint (scale : F) (k : Intrinsics F) (row col : ℤ) (depthValue : ℕ)
    (color : UInt8 × UInt8 × UInt8) : Point3fRGBA F :=
  let z := (depthValue : F) * scale
  { x := ((col : F) - k.cx) * z / k.fx
    y := ((row : F) - k.cy) * z / k.fy
    z
    r := color.1
    g := color.2.1
    b := color.2.2 }

/-- The round of the inner loop of `calcPointsChunk`. -/
def calcPoint (scale : F) (k : Intrinsics F) (depthData colorData : List UInt8) (row rowStart : ℤ)
    (col : ℕ) : Except PointFault (Point3fRGBA F) := do
  let i ← index (← int (rowStart + col))
  let depthValue ← depthAt depthData i
  let color ← colorAt colorData i
  return makePoint scale k row col depthValue color

/-- The round of the outer loop of `calcPointsChunk`. -/
def calcRow (scale : F) (k : Intrinsics F) (depthData colorData : List UInt8) (row : ℤ) :
    Except PointFault (List (Point3fRGBA F)) := do
  let rowStart ← int (row * k.width)
  (List.range k.width.toNat).mapM (calcPoint scale k depthData colorData row rowStart)

/-- The rows from `startRow` to `endRow`. -/
def rowsBetween (startRow endRow : ℤ) : List ℤ :=
  (List.range (endRow - startRow).toNat).map fun k : ℕ => startRow + k

def calcPointsChunk (scale : F) (k : Intrinsics F) (depthData colorData : List UInt8)
    (startRow endRow : ℤ) : Except PointFault (List (Point3fRGBA F)) := do
  reserve (← int ((← int (endRow - startRow)) * k.width))
  let rows ← (rowsBetween startRow endRow).mapM (calcRow scale k depthData colorData)
  return rows.flatten

def computePointCloudCPU (scale : F) (k : Intrinsics F) (depthData colorData : List UInt8) :
    Except PointFault (List (Point3fRGBA F)) :=
  calcPointsChunk scale k depthData colorData 0 k.height

/-- The rows that `computePointCloudCPUMT` gives to thread `t`. -/
def taskRows (height threadNum rowsPerThread t : ℤ) : Except PointFault (ℤ × ℤ) := do
  let startRow ← int (t * rowsPerThread)
  let endRow ← if t = threadNum - 1 then pure height else int (startRow + rowsPerThread)
  return (startRow, endRow)

/-- The rows of all threads. -/
def tasks (height threadNum : ℤ) : Except PointFault (List (ℤ × ℤ)) := do
  let rowsPerThread ← divide height threadNum
  (List.range threadNum.toNat).mapM fun t : ℕ => taskRows height threadNum rowsPerThread t

def computePointCloudCPUMT (threadNum : ℤ) (scale : F) (k : Intrinsics F)
    (depthData colorData : List UInt8) : Except PointFault (List (Point3fRGBA F)) := do
  let futures ← (← tasks k.height threadNum).mapM fun rows =>
    calcPointsChunk scale k depthData colorData rows.1 rows.2
  return futures.flatten

def computePointCloud (self : Impl F) (depthData colorData : List UInt8) :
    Except PointFault (List (Point3fRGBA F)) :=
  match self.intrinsics with
  | none => .error (.thrown "Intrinsics not set")
  | some k => do
    reserve k.size
    match self.computeMethod with
    | .CPU => computePointCloudCPU self.scaleFactor k depthData colorData
    | .CPU_MT => computePointCloudCPUMT self.threadNum self.scaleFactor k depthData colorData

end Impl

/-! ### Numbers in range -/

theorem int_eq_ok {n : ℤ} (hlo : -2 ^ 31 ≤ n) (hhi : n < 2 ^ 31) : int n = .ok n :=
  if_pos ⟨hlo, hhi⟩

theorem bmod_bounds (n : ℤ) {m : ℕ} (hm : m = 2 ^ 32) :
    -2 ^ 31 ≤ n.bmod m ∧ n.bmod m < 2 ^ 31 := by
  have hlo := Int.le_bmod (x := n) (m := m) (by omega)
  have hhi := Int.bmod_lt (x := n) (m := m) (by omega)
  omega

theorem bmod_of_le {n : ℤ} {m : ℕ} (hm : m = 2 ^ 32) (hge : 2 ^ 31 ≤ n) (hlt : n < 2 ^ 32) :
    n.bmod m = n - 2 ^ 32 := by
  rw [← Int.sub_bmod_right, Int.bmod_eq_of_le (by omega) (by omega)]
  omega

theorem ofUnsigned_bounds (n : UInt32) : -2 ^ 31 ≤ ofUnsigned n ∧ ofUnsigned n < 2 ^ 31 :=
  bmod_bounds _ rfl

theorem reserve_eq_ok {n : ℤ} (h : 0 ≤ n) : reserve n = .ok ⟨⟩ :=
  if_neg (not_lt.2 h)

/-- The intrinsics of a frame. -/
def Intrinsics.ofFrame {F : Type} (fx fy cx cy : F) (width height : UInt32) : Intrinsics F where
  fx := fx
  fy := fy
  cx := cx
  cy := cy
  width := ofUnsigned width
  height := ofUnsigned height
  size := ofUnsigned width * ofUnsigned height

/-- Intrinsics as `setIntrinsics` leaves them. -/
structure Intrinsics.Valid {F : Type} (k : Intrinsics F) : Prop where
  height_ge : -2 ^ 31 ≤ k.height
  height_lt : k.height < 2 ^ 31
  size_eq : k.size = k.width * k.height
  size_ge : -2 ^ 31 ≤ k.size
  size_lt : k.size < 2 ^ 31

namespace Impl

variable {F : Type}

theorem setIntrinsics_eq_ok (self : Impl F) {fx fy cx cy : F} {width height : UInt32}
    (h : (Intrinsics.ofFrame fx fy cx cy width height).Valid) :
    self.setIntrinsics fx fy cx cy width height =
      .ok { self with intrinsics := some (.ofFrame fx fy cx cy width height) } := by
  have hsize : int (ofUnsigned width * ofUnsigned height) =
      .ok (ofUnsigned width * ofUnsigned height) := int_eq_ok h.size_ge h.size_lt
  rw [setIntrinsics, hsize]
  rfl

theorem setIntrinsics_eq_error (self : Impl F) {fx fy cx cy : F} {width height : UInt32}
    (h : ¬(Intrinsics.ofFrame fx fy cx cy width height).Valid) :
    self.setIntrinsics fx fy cx cy width height = .error .undefined := by
  have hsize : int (ofUnsigned width * ofUnsigned height) = .error .undefined := by
    refine if_neg fun hbounds => h ⟨?_, ?_, ?_, ?_, ?_⟩ <;> dsimp only [Intrinsics.ofFrame]
    · exact (ofUnsigned_bounds height).1
    · exact (ofUnsigned_bounds height).2
    · exact hbounds.1
    · exact hbounds.2
  rw [setIntrinsics, hsize]
  rfl

/-! ### The rows of the threads -/

section Rows

variable {height : ℤ} {n t : ℕ}

theorem tdiv_eq (height : ℤ) (n : ℕ) :
    height.tdiv n = height.sign * (height.natAbs / n : ℕ) := by
  rcases Int.natAbs_eq height with hpos | hneg
  · obtain ⟨a, rfl⟩ : ∃ a : ℕ, height = a := ⟨_, hpos⟩
    rw [Int.natAbs_natCast, ← Int.ofNat_tdiv]
    rcases Nat.eq_zero_or_pos a with rfl | ha
    · simp
    · rw [Int.sign_eq_one_of_pos (by exact_mod_cast ha), one_mul]
  · obtain ⟨a, rfl⟩ : ∃ a : ℕ, height = -a := ⟨_, hneg⟩
    rw [Int.natAbs_neg, Int.natAbs_natCast, Int.neg_tdiv, ← Int.ofNat_tdiv]
    rcases Nat.eq_zero_or_pos a with rfl | ha
    · simp
    · rw [Int.sign_neg, Int.sign_eq_one_of_pos (by exact_mod_cast ha), neg_mul, one_mul]

/-- A part of the height, with its sign, is of type `int`. -/
theorem int_sign_mul (hge : -2 ^ 31 ≤ height) (hlt : height < 2 ^ 31) {m : ℕ}
    (hm : m ≤ height.natAbs) : int (height.sign * m) = .ok (height.sign * m) := by
  rcases lt_trichotomy height 0 with hneg | rfl | hpos
  · rw [Int.sign_eq_neg_one_of_neg hneg]
    exact int_eq_ok (by omega) (by omega)
  · simp [int]
  · rw [Int.sign_eq_one_of_pos hpos]
    exact int_eq_ok (by omega) (by omega)

/-- **The rows of a thread**, if the number of threads fits an `int`. -/
theorem taskRows_eq (hge : -2 ^ 31 ≤ height) (hlt : height < 2 ^ 31) (ht : t < n) :
    taskRows height n (height.sign * (height.natAbs / n : ℕ)) t =
      .ok (height.sign * ParallelRows.startRow height.natAbs n t,
        height.sign * ParallelRows.endRow height.natAbs n t) := by
  have hstart : (t : ℤ) * (height.sign * (height.natAbs / n : ℕ)) =
      height.sign * ParallelRows.startRow height.natAbs n t := by
    rw [ParallelRows.startRow]
    push_cast
    ring
  have hle := ParallelRows.endRow_le height.natAbs ht
  have hordered := ParallelRows.startRow_le_endRow height.natAbs ht
  rw [taskRows, hstart, int_sign_mul hge hlt (hordered.trans hle), Loop.ok_bind]
  by_cases hlast : t + 1 = n
  · have hcast : (t : ℤ) = n - 1 := by omega
    rw [if_pos hcast, ParallelRows.endRow, if_pos hlast, Int.sign_mul_natAbs]
    rfl
  · have hcast : (t : ℤ) ≠ n - 1 := by omega
    have hend : height.sign * ParallelRows.startRow height.natAbs n t +
        height.sign * (height.natAbs / n : ℕ) =
          height.sign * ParallelRows.endRow height.natAbs n t := by
      rw [ParallelRows.endRow, if_neg hlast, ParallelRows.startRow]
      push_cast
      ring
    rw [if_neg hcast, hend, int_sign_mul hge hlt hle]
    rfl

theorem tasks_eq (hge : -2 ^ 31 ≤ height) (hlt : height < 2 ^ 31) (hn : 0 < n) :
    tasks height n = .ok ((List.range n).map fun t =>
      (height.sign * (ParallelRows.startRow height.natAbs n t : ℤ),
        height.sign * (ParallelRows.endRow height.natAbs n t : ℤ))) := by
  have hzero : (n : ℤ) ≠ 0 := by omega
  rw [tasks, divide, if_neg hzero, tdiv_eq,
    int_sign_mul hge hlt (Nat.div_le_self _ _), Loop.ok_bind, Int.toNat_natCast]
  exact Loop.mapM_eq_ok fun t ht => taskRows_eq hge hlt (List.mem_range.1 ht)

/-- The rows of a thread as natural numbers: without any for a height that is negative. -/
theorem rowsBetween_eq (ht : t < n) :
    rowsBetween (height.sign * ParallelRows.startRow height.natAbs n t)
        (height.sign * ParallelRows.endRow height.natAbs n t) =
      (ParallelRows.rows height.toNat n t).map Nat.cast := by
  have hordered := ParallelRows.startRow_le_endRow height.natAbs ht
  rcases Int.lt_or_le 0 height with hpos | hneg
  · rw [Int.sign_eq_one_of_pos hpos, one_mul, one_mul, rowsBetween, ParallelRows.rows,
      show height.toNat = height.natAbs by omega, List.range'_eq_map_range, List.map_map,
      show (_ - _ : ℤ).toNat = ParallelRows.endRow height.natAbs n t -
        ParallelRows.startRow height.natAbs n t by omega]
    refine List.map_congr_left fun k _ => ?_
    simp
  · have hrows : ParallelRows.rows height.toNat n t = [] := by
      have hle := ParallelRows.endRow_le height.toNat ht
      rw [ParallelRows.rows, show _ - _ = 0 by omega]
      rfl
    have hsign : height.sign = 0 ∨ height.sign = -1 := by
      rcases hneg.lt_or_eq with hlt | rfl
      · exact .inr (Int.sign_eq_neg_one_of_neg hlt)
      · exact .inl rfl
    have hempty : (height.sign * (ParallelRows.endRow height.natAbs n t : ℤ) -
        height.sign * ParallelRows.startRow height.natAbs n t).toNat = 0 := by
      rcases hsign with h | h <;> rw [h] <;> omega
    rw [hrows, rowsBetween, hempty]
    rfl

/-- **The threads have every row once**, in order. -/
theorem flatMap_rowsBetween (height : ℤ) (hn : 0 < n) :
    ((List.range n).map fun t => (height.sign * (ParallelRows.startRow height.natAbs n t : ℤ),
        height.sign * (ParallelRows.endRow height.natAbs n t : ℤ))).flatMap
      (fun rows => rowsBetween rows.1 rows.2) = rowsBetween 0 height := by
  have hrows : ∀ t ∈ List.range n, rowsBetween
      (height.sign * (ParallelRows.startRow height.natAbs n t : ℤ))
      (height.sign * (ParallelRows.endRow height.natAbs n t : ℤ)) =
        (ParallelRows.rows height.toNat n t).map Nat.cast :=
    fun t ht => rowsBetween_eq (List.mem_range.1 ht)
  rw [List.flatMap_map, List.flatMap_congr hrows, ← List.map_flatMap,
    ParallelRows.flatMap_rows height.toNat hn, rowsBetween, sub_zero]
  refine List.map_congr_left fun k _ => ?_
  simp

end Rows

/-! ### Points row after row -/

section Points

variable [Sub F] [Mul F] [Div F] [IntCast F] [NatCast F] {k : Intrinsics F} {scale : F}
  {depthData colorData : List UInt8} {n t : ℕ}

/-- The point of the cell in this row and column, read at place `i`. -/
def pointAt (scale : F) (k : Intrinsics F) (depthData colorData : List UInt8) (row col i : ℕ) :
    Except PointFault (Point3fRGBA F) := do
  let depthValue ← depthAt depthData i
  let color ← colorAt colorData i
  return makePoint scale k row col depthValue color

/-- What a range of rows comes to, if there is room for its points. -/
theorem calcPointsChunk_eq_map {startRow endRow : ℤ}
    (hrows : int (endRow - startRow) = .ok (endRow - startRow))
    (hnonneg : 0 ≤ (endRow - startRow) * k.width)
    (hlt : (endRow - startRow) * k.width < 2 ^ 31) :
    calcPointsChunk scale k depthData colorData startRow endRow =
      ((rowsBetween startRow endRow).mapM (calcRow scale k depthData colorData)).map
        List.flatten := by
  rw [calcPointsChunk, hrows, Loop.ok_bind, int_eq_ok (by omega) hlt, Loop.ok_bind,
    reserve_eq_ok hnonneg, Loop.ok_bind]
  rfl

theorem calcPointsChunk_thread (hk : k.Valid) (hsize : 0 ≤ k.size) (ht : t < n) :
    calcPointsChunk scale k depthData colorData
        (k.height.sign * ParallelRows.startRow k.height.natAbs n t)
        (k.height.sign * ParallelRows.endRow k.height.natAbs n t) =
      ((rowsBetween (k.height.sign * ParallelRows.startRow k.height.natAbs n t)
        (k.height.sign * ParallelRows.endRow k.height.natAbs n t)).mapM
          (calcRow scale k depthData colorData)).map List.flatten := by
  have hordered := ParallelRows.startRow_le_endRow k.height.natAbs ht
  have hle := ParallelRows.endRow_le k.height.natAbs ht
  obtain ⟨m, hm⟩ := Nat.exists_eq_add_of_le hordered
  have hdiff : k.height.sign * (ParallelRows.endRow k.height.natAbs n t : ℤ) -
      k.height.sign * ParallelRows.startRow k.height.natAbs n t = k.height.sign * m := by
    rw [hm]
    push_cast
    ring
  have hm' : m ≤ k.height.natAbs := by omega
  have hroom : 0 ≤ k.height.sign * m * k.width ∧ k.height.sign * m * k.width ≤ k.size := by
    have htotal : k.size = k.height.natAbs * (k.height.sign * k.width) := by
      rw [hk.size_eq, ← mul_assoc, mul_comm (k.height.natAbs : ℤ), Int.sign_mul_natAbs, mul_comm]
    have hpart : k.height.sign * m * k.width = m * (k.height.sign * k.width) := by ring
    have hmle : (m : ℤ) ≤ k.height.natAbs := by exact_mod_cast hm'
    rw [htotal] at hsize
    rw [hpart, htotal]
    rcases Nat.eq_zero_or_pos m with rfl | hpos
    · rw [Nat.cast_zero, zero_mul]
      exact ⟨le_rfl, hsize⟩
    · have hwidth : 0 ≤ k.height.sign * k.width := by
        refine nonneg_of_mul_nonneg_right hsize ?_
        omega
      exact ⟨mul_nonneg (Int.natCast_nonneg m) hwidth, mul_le_mul_of_nonneg_right hmle hwidth⟩
  refine calcPointsChunk_eq_map ?_ ?_ ?_ <;> rw [hdiff]
  · exact int_sign_mul hk.height_ge hk.height_lt hm'
  · exact hroom.1
  · exact hroom.2.trans_lt hk.size_lt

theorem computePointCloudCPU_eq_map (hk : k.Valid) (hsize : 0 ≤ k.size) :
    computePointCloudCPU scale k depthData colorData =
      ((rowsBetween 0 k.height).mapM (calcRow scale k depthData colorData)).map List.flatten := by
  have hroom : (k.height - 0) * k.width = k.size := by rw [sub_zero, mul_comm, hk.size_eq]
  refine calcPointsChunk_eq_map ?_ (hroom ▸ hsize) (hroom ▸ hk.size_lt)
  rw [sub_zero]
  exact int_eq_ok hk.height_ge hk.height_lt

/-- **Threads make the cloud of a single one**, if their number fits an `int`. -/
theorem computePointCloudCPUMT_eq (hk : k.Valid) (hsize : 0 ≤ k.size) (hn : 0 < n) :
    computePointCloudCPUMT n scale k depthData colorData =
      computePointCloudCPU scale k depthData colorData := by
  have hchunk : ∀ t ∈ List.range n,
      calcPointsChunk scale k depthData colorData
          (k.height.sign * (ParallelRows.startRow k.height.natAbs n t : ℤ))
          (k.height.sign * (ParallelRows.endRow k.height.natAbs n t : ℤ)) =
        ((rowsBetween (k.height.sign * (ParallelRows.startRow k.height.natAbs n t : ℤ))
          (k.height.sign * (ParallelRows.endRow k.height.natAbs n t : ℤ))).mapM
            (calcRow scale k depthData colorData)).map List.flatten :=
    fun t ht => calcPointsChunk_thread hk hsize (List.mem_range.1 ht)
  rw [computePointCloudCPU_eq_map hk hsize, ← flatMap_rowsBetween k.height hn,
    ← ParallelRows.mapM_flatMap, computePointCloudCPUMT, tasks_eq hk.height_ge hk.height_lt hn,
    Loop.ok_bind, List.mapM_map, List.mapM_map]
  simp only [Function.comp_def]
  rw [Loop.mapM_congr hchunk, Loop.mapM_map]
  cases (List.range n).mapM fun t => (rowsBetween
      (k.height.sign * (ParallelRows.startRow k.height.natAbs n t : ℤ))
      (k.height.sign * (ParallelRows.endRow k.height.natAbs n t : ℤ))).mapM
        (calcRow scale k depthData colorData) with
  | error e => rfl
  | ok parts => exact congrArg Except.ok List.flatten_flatten.symm

theorem calcRow_eq (hk : k.Valid) (hsize : 0 ≤ k.size) {row : ℕ} (hrow : row < k.height.toNat) :
    calcRow scale k depthData colorData row = (List.range k.width.toNat).mapM fun col =>
      pointAt scale k depthData colorData row col (row * k.width.toNat + col) := by
  have hheight : 0 < k.height := by omega
  have hwidth : 0 ≤ k.width := by
    refine nonneg_of_mul_nonneg_left ?_ hheight
    rw [← hk.size_eq]
    exact hsize
  have hlt := hk.size_lt
  obtain ⟨w, hw⟩ := Int.eq_ofNat_of_zero_le hwidth
  obtain ⟨h, hh⟩ := Int.eq_ofNat_of_zero_le hheight.le
  rw [hk.size_eq, hw, hh] at hlt
  have hcells : (row + 1) * w ≤ w * h := by
    rw [Nat.mul_comm w]
    exact Nat.mul_le_mul_right w (by omega)
  have hlt' : w * h < 2 ^ 31 := by exact_mod_cast hlt
  have hstart : (row : ℤ) * k.width = (row * w : ℕ) := by rw [hw]; push_cast; rfl
  rw [Nat.succ_mul] at hcells
  rw [calcRow, hstart, int_eq_ok (by omega) (by omega), Loop.ok_bind, hw, Int.toNat_natCast]
  refine Loop.mapM_congr fun col hcol => ?_
  have hcol := List.mem_range.1 hcol
  have hindex : index ((row * w : ℕ) + col : ℤ) = .ok (row * w + col) := by
    rw [index, if_pos (by omega), show ((row * w : ℕ) + col : ℤ).toNat = row * w + col by omega]
  rw [calcPoint, int_eq_ok (by omega) (by omega), Loop.ok_bind, hindex, Loop.ok_bind]
  rfl

/-- **The cloud of a single thread is the cloud of the pixels**, row after row. -/
theorem computePointCloudCPU_eq (hk : k.Valid) (hsize : 0 ≤ k.size) :
    computePointCloudCPU scale k depthData colorData =
      (List.range (k.height.toNat * k.width.toNat)).mapM fun i =>
        pointAt scale k depthData colorData (i / k.width.toNat) (i % k.width.toNat) i := by
  have hcell : ∀ i ∈ List.range (k.height.toNat * k.width.toNat),
      pointAt scale k depthData colorData (i / k.width.toNat) (i % k.width.toNat) i =
        pointAt scale k depthData colorData (i / k.width.toNat) (i % k.width.toNat)
          (i / k.width.toNat * k.width.toNat + i % k.width.toNat) := by
    intro i _
    rw [Nat.mul_comm, Nat.div_add_mod]
  rw [computePointCloudCPU_eq_map hk hsize, Loop.mapM_congr hcell, rowsBetween, sub_zero,
    ← ParallelRows.mapM_cells k.height.toNat k.width.toNat fun row col =>
      pointAt scale k depthData colorData row col (row * k.width.toNat + col), List.mapM_map]
  refine congrArg _ (Loop.mapM_congr fun row hrow => ?_)
  rw [Function.comp_apply, zero_add]
  exact calcRow_eq hk hsize (List.mem_range.1 hrow)

/-- The cloud for a frame of this size. -/
def cloud (self : Impl F) (fx fy cx cy : F) (width height : UInt32)
    (depthData colorData : List UInt8) : Except PointFault (List (Point3fRGBA F)) := do
  let self ← self.setIntrinsics fx fy cx cy width height
  self.computePointCloud depthData colorData

/-- **What threads should do**: make the cloud of a single thread, which has the points of the
pixels row after row, and share the rows out among them. -/
structure ThreadsAgree (self : Impl F) (numThreads : UInt32) (fx fy cx cy : F)
    (width height : UInt32) (depthData colorData : List UInt8) : Prop where
  same : (self.useCPUMT numThreads).cloud fx fy cx cy width height depthData colorData =
    self.useCPU.cloud fx fy cx cy width height depthData colorData
  rowMajor : ∀ points,
    self.useCPU.cloud fx fy cx cy width height depthData colorData = .ok points →
      let k := Intrinsics.ofFrame fx fy cx cy width height
      (List.range (k.height.toNat * k.width.toNat)).mapM (fun i =>
        pointAt self.scaleFactor k depthData colorData (i / k.width.toNat) (i % k.width.toNat) i) =
          .ok points
  partition : ∃ rows, tasks (ofUnsigned height) (ofUnsigned numThreads) = .ok rows ∧
    rows.flatMap (fun r => rowsBetween r.1 r.2) = rowsBetween 0 (ofUnsigned height)

end Points

/-- The number of threads fits an `int`; or there are no rows for them, and no quotient that
overflows. -/
def ThreadsFit (numThreads height : UInt32) : Prop :=
  numThreads.toNat < 2 ^ 31 ∨ (height.toNat = 0 ∨ 2 ^ 31 ≤ height.toNat) ∧
    ¬(height.toNat = 2 ^ 31 ∧ numThreads.toNat = 2 ^ 32 - 1)

section Threads

variable {numThreads width height : UInt32}

theorem ofUnsigned_of_lt {n : UInt32} (h : n.toNat < 2 ^ 31) : ofUnsigned n = n.toNat :=
  Int.bmod_eq_of_le (by omega) (by omega)

theorem ofUnsigned_of_le {n : UInt32} (h : 2 ^ 31 ≤ n.toNat) :
    ofUnsigned n = n.toNat - 2 ^ 32 :=
  bmod_of_le rfl (by omega) (by have := n.toNat_lt; omega)

theorem ofUnsigned_nonpos_iff {n : UInt32} :
    ofUnsigned n ≤ 0 ↔ n.toNat = 0 ∨ 2 ^ 31 ≤ n.toNat := by
  have hlt := n.toNat_lt
  rcases Nat.lt_or_ge n.toNat (2 ^ 31) with h | h
  · rw [ofUnsigned_of_lt h]
    omega
  · rw [ofUnsigned_of_le h]
    omega

/-- No thread is started for a negative number of them. -/
theorem tasks_of_neg {height threadNum : ℤ} (hthreads : threadNum < 0) :
    tasks height threadNum = (int (height.tdiv threadNum)).map fun _ => [] := by
  rw [tasks, divide, if_neg hthreads.ne, Int.toNat_of_nonpos hthreads.le]
  cases int (height.tdiv threadNum) <;> rfl

/-- The quotient by a negative number overflows in one place. -/
theorem int_tdiv_of_neg {height threadNum : ℤ} (hge : -2 ^ 31 ≤ height) (hlt : height < 2 ^ 31)
    (hthreads : threadNum < 0) :
    int (height.tdiv threadNum) =
      if height = -2 ^ 31 ∧ threadNum = -1 then .error .undefined
      else .ok (height.tdiv threadNum) := by
  have habs : (height.tdiv threadNum).natAbs = height.natAbs / threadNum.natAbs :=
    Int.natAbs_tdiv _ _
  have hle := Nat.div_le_self height.natAbs threadNum.natAbs
  split_ifs with hoverflow
  · obtain ⟨rfl, rfl⟩ := hoverflow
    rfl
  · refine int_eq_ok (by omega) ?_
    by_contra hbig
    have hmin : height = -2 ^ 31 := by omega
    have hone : threadNum ≠ -1 := fun h => hoverflow ⟨hmin, h⟩
    have hhalf : height.natAbs / threadNum.natAbs ≤ height.natAbs / 2 :=
      Nat.div_le_div_left (by omega) (by omega)
    omega

section Iff

variable {F : Type} [Sub F] [Mul F] [Div F] [IntCast F] [NatCast F] {self : Impl F}
  {fx fy cx cy : F} {depthData colorData : List UInt8}

theorem computePointCloud_of_neg {k : Intrinsics F} (hk : self.intrinsics = some k)
    (hsize : k.size < 0) :
    self.computePointCloud depthData colorData = .error (.thrown "vector::reserve") := by
  simp only [computePointCloud, hk, reserve, if_pos hsize]
  rfl

theorem computePointCloud_of_room {k : Intrinsics F} (hk : self.intrinsics = some k)
    (hsize : 0 ≤ k.size) :
    self.computePointCloud depthData colorData =
      match self.computeMethod with
      | .CPU => computePointCloudCPU self.scaleFactor k depthData colorData
      | .CPU_MT => computePointCloudCPUMT self.threadNum self.scaleFactor k depthData
          colorData := by
  simp only [computePointCloud, hk, reserve_eq_ok hsize]
  rfl

theorem cloud_of_not_valid (self : Impl F)
    (hk : ¬(Intrinsics.ofFrame fx fy cx cy width height).Valid) :
    self.cloud fx fy cx cy width height depthData colorData = .error .undefined := by
  rw [cloud, setIntrinsics_eq_error self hk]
  rfl

theorem cloud_of_neg (self : Impl F) (hk : (Intrinsics.ofFrame fx fy cx cy width height).Valid)
    (hsize : (Intrinsics.ofFrame fx fy cx cy width height).size < 0) :
    self.cloud fx fy cx cy width height depthData colorData =
      .error (.thrown "vector::reserve") := by
  rw [cloud, setIntrinsics_eq_ok self hk, Loop.ok_bind]
  exact computePointCloud_of_neg rfl hsize

theorem cloud_useCPU (self : Impl F) (hk : (Intrinsics.ofFrame fx fy cx cy width height).Valid)
    (hsize : 0 ≤ (Intrinsics.ofFrame fx fy cx cy width height).size) :
    self.useCPU.cloud fx fy cx cy width height depthData colorData =
      computePointCloudCPU self.scaleFactor (.ofFrame fx fy cx cy width height) depthData
        colorData := by
  rw [cloud, setIntrinsics_eq_ok _ hk, Loop.ok_bind]
  exact computePointCloud_of_room rfl hsize

theorem cloud_useCPUMT (self : Impl F) (hk : (Intrinsics.ofFrame fx fy cx cy width height).Valid)
    (hsize : 0 ≤ (Intrinsics.ofFrame fx fy cx cy width height).size) :
    (self.useCPUMT numThreads).cloud fx fy cx cy width height depthData colorData =
      computePointCloudCPUMT (ofUnsigned numThreads) self.scaleFactor
        (.ofFrame fx fy cx cy width height) depthData colorData := by
  rw [cloud, setIntrinsics_eq_ok _ hk, Loop.ok_bind]
  rw [computePointCloud_of_room rfl hsize]
  dsimp only [useCPUMT]

/-- The two clouds are the same if they are for a size that is one. -/
theorem cloud_useCPUMT_eq (self : Impl F)
    (h : ∀ k : Intrinsics F, k.Valid → 0 ≤ k.size → k.height = ofUnsigned height →
      computePointCloudCPUMT (ofUnsigned numThreads) self.scaleFactor k depthData colorData =
        computePointCloudCPU self.scaleFactor k depthData colorData) :
    (self.useCPUMT numThreads).cloud fx fy cx cy width height depthData colorData =
      self.useCPU.cloud fx fy cx cy width height depthData colorData := by
  by_cases hk : (Intrinsics.ofFrame fx fy cx cy width height).Valid
  · rcases Int.lt_or_le (Intrinsics.ofFrame fx fy cx cy width height).size 0 with hsize | hsize
    · rw [cloud_of_neg _ hk hsize, cloud_of_neg _ hk hsize]
    · rw [cloud_useCPUMT self hk hsize, cloud_useCPU self hk hsize]
      exact h _ hk hsize (by dsimp only [Intrinsics.ofFrame])
  · rw [cloud_of_not_valid _ hk, cloud_of_not_valid _ hk]

/-- The cloud of a single thread has the points of the pixels, row after row. -/
theorem mapM_of_cloud (self : Impl F) {points : List (Point3fRGBA F)}
    (h : self.useCPU.cloud fx fy cx cy width height depthData colorData = .ok points) :
    let k := Intrinsics.ofFrame fx fy cx cy width height
    (List.range (k.height.toNat * k.width.toNat)).mapM (fun i =>
      pointAt self.scaleFactor k depthData colorData (i / k.width.toNat) (i % k.width.toNat) i) =
        .ok points := by
  by_cases hk : (Intrinsics.ofFrame fx fy cx cy width height).Valid
  · rcases Int.lt_or_le (Intrinsics.ofFrame fx fy cx cy width height).size 0 with hsize | hsize
    · rw [cloud_of_neg _ hk hsize] at h
      cases h
    · rw [cloud_useCPU self hk hsize, computePointCloudCPU_eq hk hsize] at h
      exact h
  · rw [cloud_of_not_valid _ hk] at h
    cases h

/-- Without rows and without threads there are no points. -/
theorem computePointCloudCPUMT_of_neg {k : Intrinsics F} {threadNum : ℤ} (hk : k.Valid)
    (hsize : 0 ≤ k.size) (hthreads : threadNum < 0) (hheight : k.height ≤ 0)
    (hquotient : ¬(k.height = -2 ^ 31 ∧ threadNum = -1)) (scale : F) :
    computePointCloudCPUMT threadNum scale k depthData colorData =
      computePointCloudCPU scale k depthData colorData := by
  rw [computePointCloudCPU_eq hk hsize, computePointCloudCPUMT, tasks_of_neg hthreads,
    int_tdiv_of_neg hk.height_ge hk.height_lt hthreads, if_neg hquotient,
    Int.toNat_of_nonpos hheight, Nat.zero_mul]
  rfl

/-- **Threads make the same cloud** exactly if their number fits. -/
theorem threadsAgree_iff (hthreads : 0 < numThreads) :
    ThreadsAgree self numThreads fx fy cx cy width height depthData colorData ↔
      ThreadsFit numThreads height := by
  have hpos : 0 < numThreads.toNat := hthreads
  have hlt := numThreads.toNat_lt
  obtain ⟨hge, hheight⟩ := ofUnsigned_bounds height
  constructor
  · rintro ⟨-, -, rows, htasks, hrows⟩
    refine or_iff_not_imp_left.2 fun hfits => ?_
    have hnum := ofUnsigned_of_le (Nat.le_of_not_lt hfits)
    rw [tasks_of_neg (by omega), int_tdiv_of_neg hge hheight (by omega)] at htasks
    split_ifs at htasks with hoverflow
    · cases htasks
    · obtain rfl : [] = rows := Except.ok.inj htasks
      have hempty : (ofUnsigned height - 0).toNat = 0 := by
        have hlength := congrArg List.length hrows
        simpa [rowsBetween] using hlength.symm
      refine ⟨ofUnsigned_nonpos_iff.1 (by omega), fun h => hoverflow ?_⟩
      rw [ofUnsigned_of_le h.1.ge]
      omega
  · intro hfit
    rcases Nat.lt_or_ge numThreads.toNat (2 ^ 31) with hfits | hlarge
    · have hnum := ofUnsigned_of_lt hfits
      refine ⟨cloud_useCPUMT_eq self fun k hk hsize _ => ?_, fun points => mapM_of_cloud self,
        ⟨_, by rw [hnum]; exact tasks_eq hge hheight hpos, flatMap_rowsBetween _ hpos⟩⟩
      rw [hnum]
      exact computePointCloudCPUMT_eq hk hsize hpos
    · obtain ⟨hrows, hquotient⟩ := hfit.resolve_left (Nat.not_lt.2 hlarge)
      have hnum := ofUnsigned_of_le hlarge
      have hnone : ofUnsigned height ≤ 0 := ofUnsigned_nonpos_iff.2 hrows
      have hquotient' : ¬(ofUnsigned height = -2 ^ 31 ∧ ofUnsigned numThreads = -1) := by
        rintro ⟨hmin, hone⟩
        rcases hrows with hzero | hbig
        · rw [ofUnsigned_of_lt (by omega)] at hmin
          omega
        · rw [ofUnsigned_of_le hbig] at hmin
          exact hquotient ⟨by omega, by omega⟩
      refine ⟨cloud_useCPUMT_eq self fun k hk hsize hk' => ?_, fun points => mapM_of_cloud self,
        [], ?_, ?_⟩
      · exact computePointCloudCPUMT_of_neg hk hsize (by omega)
          (by rw [hk']; exact hnone) (by rw [hk']; exact hquotient') _
      · rw [tasks_of_neg (by omega), int_tdiv_of_neg hge hheight (by omega), if_neg hquotient']
        rfl
      · rw [rowsBetween, sub_zero, Int.toNat_of_nonpos hnone]
        rfl

end Iff

end Threads

end Impl

end RGBD

end DepthaiCore
