import DepthaiCore.Node.DepthPoints

/-!
# Point clouds of the node `PointCloud`

The node makes a point of every pixel of a depth frame, and gives it a colour if there is a frame of
colours. Sizes, rows and columns are of type `unsigned int`, and so is the place of a pixel. The
points stand in one list from the start, and threads write to it each in its own rows.
-/

namespace DepthaiCore

namespace PointCloud

open DepthPoints MatrixOps

/-- `ComputeMethod`, without the GPU. -/
inductive ComputeMethod
  | CPU | CPU_MT
  deriving DecidableEq, Repr

/-- What `setIntrinsics` sets. -/
structure Intrinsics (F : Type) where
  fx : F
  fy : F
  cx : F
  cy : F
  width : UInt32
  height : UInt32
  size : ℕ
  deriving DecidableEq, Repr

structure Impl (F : Type) where
  computeMethod : ComputeMethod := .CPU
  targetLengthUnit : LengthUnit := .MILLIMETER
  scaleFactor : F
  /-- The intrinsics; none for `intrinsicsSet == false`. -/
  intrinsics : Option (Intrinsics F) := none
  threadNum : UInt32 := 2
  /-- The transformation; none for `hasExtrinsics == false`. -/
  extrinsics : Option (List (List F)) := none

namespace Impl

variable {F : Type}

/-! ### Settings -/

def useCPU (self : Impl F) : Impl F :=
  { self with computeMethod := .CPU }

def useCPUMT (self : Impl F) (numThreads : UInt32) : Impl F :=
  { self with threadNum := max 1 numThreads, computeMethod := .CPU_MT }

def setLengthUnit {K : Type} [Field K] (self : Impl K) (lengthUnit : LengthUnit) : Impl K :=
  { self with
    targetLengthUnit := lengthUnit
    scaleFactor := getLengthUnitMultiplier lengthUnit / getLengthUnitMultiplier .MILLIMETER }

def setIntrinsics [Zero F] [DecidableEq F] (self : Impl F) (fx fy cx cy : F)
    (width height : UInt32) : Except PointFault (Impl F) :=
  if fx = 0 ∨ fy = 0 then .error (.thrown "Focal lengths fx and fy must be non-zero")
  else .ok
    { self with
      intrinsics := some { fx, fy, cx, cy, width, height, size := (width * height).toNat } }

def clearExtrinsics (self : Impl F) : Impl F :=
  { self with extrinsics := none }

def setExtrinsics (self : Impl F) (transformMatrix : List (List F)) : Except PointFault (Impl F) :=
  if transformMatrix.length ≠ 4 ∨ ∃ row ∈ transformMatrix, row.length ≠ 4 then
    .error (.thrown "Transformation matrix must be 4x4")
  else .ok { self with extrinsics := some transformMatrix }

/-! ### Rows, columns and places -/

/-- The rows from `startRow` to `endRow`. -/
def rowsBetween (startRow endRow : UInt32) : List UInt32 :=
  (List.range' startRow.toNat (endRow.toNat - startRow.toNat)).map UInt32.ofNat

/-- The rows and columns that the loops of a chunk go through. -/
def cells (width startRow endRow : UInt32) : List (UInt32 × UInt32) :=
  (rowsBetween startRow endRow).flatMap fun row =>
    (List.range width.toNat).map fun col => (row, UInt32.ofNat col)

/-- The place `i` of a pixel. -/
def place (width : UInt32) (cell : UInt32 × UInt32) : ℕ :=
  let rowStart := cell.1 * width
  (rowStart + cell.2).toNat

/-- The rows for the tasks of the threads. -/
def tasks (height threadNum : UInt32) : List (UInt32 × UInt32) :=
  let rowsPerThread := height / threadNum
  (List.range threadNum.toNat).map fun t =>
    let t := UInt32.ofNat t
    let startRow := t * rowsPerThread
    let endRow := if t = threadNum - 1 then height else startRow + rowsPerThread
    (startRow, endRow)

/-! ### Chunks and points -/

section Chunk

variable {P : Type}

/-- The loops of a chunk: the places that are written, with the points. -/
def calcPoints (point : UInt32 × UInt32 → ℕ → Except PointFault P)
    (width startRow endRow : UInt32) : Except PointFault (List (ℕ × P)) :=
  (cells width startRow endRow).mapM fun cell => do
    let i := place width cell
    return (i, ← point cell i)

variable (chunk : UInt32 → UInt32 → Except PointFault (List (ℕ × P)))

/-- All rows as one chunk. -/
def computeRows (height : UInt32) (points : List P) : Except PointFault (List P) := do
  ParallelRows.store .undefined points (← chunk 0 height)

/-- A chunk for each thread. -/
def computeRowsMT (schedule : Schedule (ℕ × P)) (threadNum height : UInt32) (points : List P) :
    Except PointFault (List P) :=
  if threadNum = 0 then computeRows chunk height points
  else do
    let futures ← (tasks height threadNum).mapM fun rows => chunk rows.1 rows.2
    ParallelRows.store .undefined points (schedule.merge futures)

end Chunk

section Points

variable [Sub F] [Mul F] [Div F] [NatCast F] [Zero F] [LT F] [DecidableLT F]

/-- The point in a round of `calcPointsChunkDense`. -/
def densePoint (scale : F) (k : Intrinsics F) (depthData : List UInt8) (cell : UInt32 × UInt32)
    (i : ℕ) : Except PointFault (Point3f F) := do
  let depthValue ← depthAt depthData i
  let z := (depthValue : F) * scale
  if 0 < z then
    return {
      x := ((cell.2.toNat : F) - k.cx) * z / k.fx
      y := ((cell.1.toNat : F) - k.cy) * z / k.fy
      z }
  else return { x := 0, y := 0, z }

/-- The point in a round of `calcPointsChunkDenseColored`. -/
def denseColoredPoint (scale : F) (k : Intrinsics F) (depthData colorData : List UInt8)
    (cell : UInt32 × UInt32) (i : ℕ) : Except PointFault (Point3fRGBA F) := do
  let p ← densePoint scale k depthData cell i
  let (r, g, b) ← colorAt colorData i
  return { x := p.x, y := p.y, z := p.z, r, g, b }

def calcPointsChunkDense (scale : F) (k : Intrinsics F) (depthData : List UInt8) :
    UInt32 → UInt32 → Except PointFault (List (ℕ × Point3f F)) :=
  calcPoints (densePoint scale k depthData) k.width

def calcPointsChunkDenseColored (scale : F) (k : Intrinsics F) (depthData colorData : List UInt8) :
    UInt32 → UInt32 → Except PointFault (List (ℕ × Point3fRGBA F)) :=
  calcPoints (denseColoredPoint scale k depthData colorData) k.width

def computePointCloudDenseCPU (scale : F) (k : Intrinsics F) (depthData : List UInt8) :
    List (Point3f F) → Except PointFault (List (Point3f F)) :=
  computeRows (calcPointsChunkDense scale k depthData) k.height

def computePointCloudDenseCPUMT (schedule : Schedule (ℕ × Point3f F)) (threadNum : UInt32)
    (scale : F) (k : Intrinsics F) (depthData : List UInt8) :
    List (Point3f F) → Except PointFault (List (Point3f F)) :=
  computeRowsMT (calcPointsChunkDense scale k depthData) schedule threadNum k.height

def computePointCloudDenseColoredCPU (scale : F) (k : Intrinsics F)
    (depthData colorData : List UInt8) :
    List (Point3fRGBA F) → Except PointFault (List (Point3fRGBA F)) :=
  computeRows (calcPointsChunkDenseColored scale k depthData colorData) k.height

def computePointCloudDenseColoredCPUMT (schedule : Schedule (ℕ × Point3fRGBA F))
    (threadNum : UInt32) (scale : F) (k : Intrinsics F) (depthData colorData : List UInt8) :
    List (Point3fRGBA F) → Except PointFault (List (Point3fRGBA F)) :=
  computeRowsMT (calcPointsChunkDenseColored scale k depthData colorData) schedule threadNum
    k.height

/-- `computePointCloudDense`, with a list of points that is empty before `resize`. -/
def computePointCloudDense (schedule : Schedule (ℕ × Point3f F)) (self : Impl F)
    (depthData : List UInt8) : Except PointFault (List (Point3f F)) :=
  match self.intrinsics with
  | none => .error (.thrown "Intrinsics not set")
  | some k =>
    let points := List.replicate k.size { x := 0, y := 0, z := 0 }
    match self.computeMethod with
    | .CPU => computePointCloudDenseCPU self.scaleFactor k depthData points
    | .CPU_MT =>
      computePointCloudDenseCPUMT schedule self.threadNum self.scaleFactor k depthData points

/-- `computePointCloudDenseColored`, with a list of points that is empty before `resize`. -/
def computePointCloudDenseColored (schedule : Schedule (ℕ × Point3fRGBA F)) (self : Impl F)
    (depthData colorData : List UInt8) : Except PointFault (List (Point3fRGBA F)) :=
  match self.intrinsics with
  | none => .error (.thrown "Intrinsics not set")
  | some k =>
    let points := List.replicate k.size { x := 0, y := 0, z := 0, r := 0, g := 0, b := 0 }
    match self.computeMethod with
    | .CPU => computePointCloudDenseColoredCPU self.scaleFactor k depthData colorData points
    | .CPU_MT =>
      computePointCloudDenseColoredCPUMT schedule self.threadNum self.scaleFactor k depthData
        colorData points

end Points

end Impl

end PointCloud

end DepthaiCore
