import DepthaiCore.Common.ImgTransformation
import DepthaiCore.Lib.Int32s
import DepthaiCore.Lib.Rounding
import DepthaiCore.Lib.SteppedLoops
import DepthaiCore.Utility.DepthStats
import Mathlib.Data.List.TakeWhile
import Mathlib.Data.Rat.Floor

/-!
# Spatial data of regions

`computeSpatialData` goes through a list of regions of a depth frame. It reads the pixels of a
region in steps, makes a depth of them and calculates where the middle of the region is in space.

A step comes from a message as it is. It divides, and it drives two loops; the function asks only
whether it is too large. A region is cut down to the frame corner by corner, so one that has a
negative width or height can end up with its corners exchanged, and the number of pixels for which
space is reserved becomes negative and then, without a sign, very large.

The arithmetic of `int` has 32 bits, and what leaves them is a fault. The arithmetic of floating
point numbers is exact.
-/

open scoped Numerals

namespace DepthaiCore

/-! ### Rectangles -/

structure Rect where
  x : ℚ
  y : ℚ
  width : ℚ
  height : ℚ
  normalized : Bool := false
  hasNormalized : Bool := false
  deriving DecidableEq, Repr

namespace Rect

variable (self : Rect)

def isNormalized : Bool :=
  if self.hasNormalized then self.normalized
  else decide (self.x + self.width ≤ 1 ∧ self.y + self.height ≤ 1)

def topLeft : Point2f ℚ :=
  { x := self.x, y := self.y, normalized := self.isNormalized, hasNormalized := true }

def bottomRight : Point2f ℚ :=
  { x := self.x + self.width
    y := self.y + self.height
    normalized := self.isNormalized
    hasNormalized := true }

def denormalize (destWidth destHeight : ℤ) : Rect :=
  if self.isNormalized then
    { x := Rounding.nearest (self.x * destWidth)
      y := Rounding.nearest (self.y * destHeight)
      width := Rounding.nearest (self.width * destWidth)
      height := Rounding.nearest (self.height * destHeight)
      normalized := false
      hasNormalized := true }
  else self

end Rect

namespace SpatialUtils

open Int32s

/-! ### Integers -/

/-- How the function ends without a result: with an exception, or with something that it must not
do. -/
inductive Halt
  | invalidArgument
  | runtimeError
  | divisionByZero
  | overflow
  | outOfRange
  deriving DecidableEq, Repr

/-- The exceptions. -/
def Halt.thrown : Halt → Bool
  | .invalidArgument | .runtimeError => true
  | .divisionByZero | .overflow | .outOfRange => false

abbrev Outcome := Except (Stop Halt)

/-- The result of an operation on `int`. -/
def int (n : ℤ) : Outcome ℤ :=
  checked (.throws .overflow) n

/-- A division of `int`. -/
def divInt (a b : ℤ) : Outcome ℤ :=
  if b = 0 then .error (.throws .divisionByZero) else int (a.tdiv b)

/-- A division of `float`. -/
def divFloat (a b : ℚ) : Outcome ℚ :=
  if b = 0 then .error (.throws .divisionByZero) else .ok (a / b)

/-- The conversion to `std::int32_t`. -/
def int32_t (n : ℕ) : ℤ := (n : ℤ).bmod (2 ^ 32)

/-- The conversion to `std::uint32_t`. -/
def uint32_t (n : ℤ) : ℕ := (n % 2 ^ 32).toNat

/-! ### The function -/

/-- A frame of 16-bit depths with all of its pixels. -/
structure DepthFrame where
  width : ℕ
  height : ℕ
  plane : List Pixel
  transformation : ImgTransformation ℚ
  length_plane : plane.length = width * height

structure SpatialLocationCalculatorConfigData where
  roi : Rect
  lowerThreshold : ℕ
  upperThreshold : ℕ
  calculationAlgorithm : SpatialLocationCalculatorAlgorithm
  stepSize : Int32
  deriving DecidableEq

structure SpatialLocations where
  config : SpatialLocationCalculatorConfigData
  depthAverage : ℚ
  depthMin : ℕ
  depthMax : ℕ
  depthAveragePixelCount : ℕ
  spatialCoordinates : ℚ × ℚ × ℚ

def AUTO : Int32 := -1

def getStepSize (stepSize : Int32) (algo : SpatialLocationCalculatorAlgorithm) : UInt32 :=
  if stepSize = AUTO then if algo = .MODE ∨ algo = .MEDIAN then 2 else 1 else stepSize.toUInt32

/-- The step as an `int`. -/
def SpatialLocationCalculatorConfigData.step (cfg : SpatialLocationCalculatorConfigData) : ℤ :=
  (getStepSize cfg.stepSize cfg.calculationAlgorithm).toInt32.toInt

def clampPoint (point : Point2f ℚ) (width height : ℤ) : Point2f ℚ :=
  { x := min (max 0 point.x) width, y := min (max 0 point.y) height }

/-- What `clampRectCorners` returns. -/
structure Corners where
  xstart : ℤ
  ystart : ℤ
  xend : ℤ
  yend : ℤ
  deriving DecidableEq, Repr

/-- `clampRectCorners`, but for the subtractions. -/
def clampRectCorners (topLeft bottomRight : Point2f ℚ) (width height : ℤ) : Corners :=
  let clampedTopLeft := clampPoint topLeft (width - 1) (height - 1)
  let clampedBottomRight := clampPoint bottomRight width height
  { xstart := min (max 0 (Rounding.trunc clampedTopLeft.x)) width
    ystart := min (max 0 (Rounding.trunc clampedTopLeft.y)) height
    xend := min (max 0 (Rounding.trunc clampedBottomRight.x)) width
    yend := min (max 0 (Rounding.trunc clampedBottomRight.y)) height }

/-- The number of steps from `start` to `stop`, as it is calculated. -/
def stepsBetween (start stop stepSize : ℤ) : Outcome ℤ := do
  let extent ← int (stop - start)
  let extent ← int (extent + stepSize)
  let extent ← int (extent - 1)
  divInt extent stepSize

/-- A region whose pixels are read. -/
structure Region where
  denormRoi : Rect
  corners : Corners
  maxNumPixels : ℕ
  deriving DecidableEq, Repr

namespace DepthFrame

variable (frame : DepthFrame) (cfg : SpatialLocationCalculatorConfigData)

def depthWidth : ℤ := int32_t frame.width

def depthHeight : ℤ := int32_t frame.height

/-- The step is half of the frame or more. -/
def TooLarge : Prop :=
  frame.depthWidth.tdiv 2 ≤ cfg.step ∨ frame.depthHeight.tdiv 2 ≤ cfg.step

instance : Decidable (frame.TooLarge cfg) := inferInstanceAs (Decidable (_ ∨ _))

/-- The region is not within the range of the frame. -/
def OutOfMap : Prop :=
  (if cfg.roi.isNormalized then 1 else (frame.width : ℚ)) < cfg.roi.x + cfg.roi.width ∨
    (if cfg.roi.isNormalized then 1 else (frame.height : ℚ)) < cfg.roi.y + cfg.roi.height

instance : Decidable (frame.OutOfMap cfg) := inferInstanceAs (Decidable (_ ∨ _))

def denormRoi : Rect := cfg.roi.denormalize frame.depthWidth frame.depthHeight

/-- `xstart`, `ystart`, `xend` and `yend`. -/
def corners : Corners :=
  clampRectCorners (frame.denormRoi cfg).topLeft (frame.denormRoi cfg).bottomRight frame.depthWidth
    frame.depthHeight

/-- The body of the loop over the regions, as far as the space for the pixels. -/
def prepare : Outcome (Option Region) :=
  if frame.TooLarge cfg then .error (.throws .invalidArgument)
  else if frame.OutOfMap cfg then .ok none
  else do
    -- The two subtractions of `clampRectCorners`.
    let _ ← int (frame.depthWidth - 1)
    let _ ← int (frame.depthHeight - 1)
    let c := frame.corners cfg
    let columns ← stepsBetween c.xstart c.xend cfg.step
    let rows ← stepsBetween c.ystart c.yend cfg.step
    let maxNumPixels ← int (columns * rows)
    return some ⟨frame.denormRoi cfg, c, uint32_t maxNumPixels⟩

/-- `plane[y * depthWidth + x]`. -/
def pixel (y x : ℤ) : Outcome Pixel := do
  let row ← int (y * frame.depthWidth)
  let index ← int (row + x)
  if index < 0 then .error (.throws .outOfRange)
  else
    match frame.plane[index.toNat]? with
    | some px => return px
    | none => .error (.throws .outOfRange)

/-- The loop over the pixels of a row. -/
def readRow (rounds : ℕ) (stepSize : ℤ) (c : Corners) (y : ℤ) (depthStats : DepthStats) :
    Outcome DepthStats :=
  SteppedLoop.run (fun x => int (x + stepSize))
    (fun x depthStats => do return depthStats.addPixel (← frame.pixel y x)) c.xend rounds c.xstart
    depthStats

/-- The loop over the rows. -/
def readRows (rounds : ℕ) (stepSize : ℤ) (c : Corners) (depthStats : DepthStats) :
    Outcome DepthStats :=
  SteppedLoop.run (fun y => int (y + stepSize)) (frame.readRow rounds stepSize c) c.yend rounds
    c.ystart depthStats

def calculateSpatialCoordinates (z x y : ℚ) (intrinsicMatrix : MatrixOps.Matrix3 ℚ) :
    Outcome (ℚ × ℚ × ℚ) := do
  let x ← divFloat ((x - intrinsicMatrix 0 2) * z) (intrinsicMatrix 0 0)
  let y ← divFloat ((y - intrinsicMatrix 1 2) * z) (intrinsicMatrix 1 1)
  return (x, y, z)

/-- The rest of the body. -/
def measure (nth : NthElement) (rounds : ℕ) (region : Region) : Outcome SpatialLocations := do
  let depthStats ← frame.readRows rounds cfg.step region.corners
    { lowerThreshold := cfg.lowerThreshold, upperThreshold := cfg.upperThreshold }
  let (depthAverage, depthStats) := depthStats.calculateDepth nth .AVERAGE
  let (z, _) := depthStats.calculateDepth nth cfg.calculationAlgorithm
  let roi := region.denormRoi
  let spatialCoordinates ← calculateSpatialCoordinates z (roi.x + roi.width / 2)
    (roi.y + roi.height / 2) frame.transformation.getIntrinsicMatrix
  return {
    config := cfg
    depthAverage
    depthMin := depthStats.min
    depthMax := depthStats.max
    depthAveragePixelCount := depthStats.counter
    spatialCoordinates }

end DepthFrame

/-- The locations so far, where none stands for a region that is left out, and the numbers of pixels
for which space was reserved. -/
structure Progress where
  spatialLocations : List (Option SpatialLocations) := []
  reserved : List ℕ := []

/-- The loop over the regions, and how it stops before the end. -/
def computeRegions (nth : NthElement) (rounds : ℕ) (frame : DepthFrame) :
    List SpatialLocationCalculatorConfigData → Progress → Progress × Option (Stop Halt)
  | [], progress => (progress, none)
  | cfg :: rest, progress =>
    match frame.prepare cfg with
    | .error stop => (progress, some stop)
    | .ok none =>
      computeRegions nth rounds frame rest
        { progress with spatialLocations := progress.spatialLocations ++ [none] }
    | .ok (some region) =>
      let progress := { progress with reserved := progress.reserved ++ [region.maxNumPixels] }
      match frame.measure cfg nth rounds region with
      | .error stop => (progress, some stop)
      | .ok location =>
        computeRegions nth rounds frame rest
          { progress with spatialLocations := progress.spatialLocations ++ [some location] }

/-- **`computeSpatialData`.** -/
def computeSpatialData (nth : NthElement) (rounds : ℕ) (frame : DepthFrame)
    (configDataVec : List SpatialLocationCalculatorConfigData) : Progress × Option (Stop Halt) :=
  if configDataVec = [] then ({}, none)
  else if ¬ frame.transformation.isValid then ({}, some (.throws .runtimeError))
  else computeRegions nth rounds frame configDataVec {}

/-- It has returned or thrown, and has reserved space for no more pixels than there are. -/
def Clean (frame : DepthFrame) (outcome : Progress × Option (Stop Halt)) : Prop :=
  (∀ stop, outcome.2 = some stop → ∃ halt : Halt, stop = .throws halt ∧ halt.thrown) ∧
    ∀ n ∈ outcome.1.reserved, n ≤ frame.width * frame.height

/-- **The function terminates** by returning or throwing. It divides by nothing that is zero, reads
pixels of the frame only and reserves space for no more than it has. -/
def Safe (frame : DepthFrame) (configDataVec : List SpatialLocationCalculatorConfigData) : Prop :=
  ∀ nth : NthElement, ∃ rounds, Clean frame (computeSpatialData nth rounds frame configDataVec)

/-! ### The numbers that occur -/

/-- The number of steps that is calculated. -/
def count (start stop stepSize : ℤ) : ℤ := (stop - start + stepSize - 1).tdiv stepSize

/-- The number of steps is calculated within `int`. -/
structure CountFits (start stop stepSize : ℤ) : Prop where
  extent : Fits (stop - start)
  more : Fits (stop - start + stepSize)
  less : Fits (stop - start + stepSize - 1)
  quotient : Fits (count start stop stepSize)

/-- The rows and columns that are visited. -/
structure LoopsFit (depthWidth stepSize : ℤ) (c : Corners) : Prop where
  row : ∀ y, SteppedLoop.Visited c.ystart c.yend stepSize y → Fits (y + stepSize)
  column : ∀ y x, SteppedLoop.Visited c.ystart c.yend stepSize y →
    SteppedLoop.Visited c.xstart c.xend stepSize x →
    Fits (x + stepSize) ∧ Fits (y * depthWidth) ∧ Fits (y * depthWidth + x)

/-- **All goes well with a region,** number by number. -/
structure NumbersFit (frame : DepthFrame) (cfg : SpatialLocationCalculatorConfigData) : Prop where
  width : Fits (frame.depthWidth - 1)
  height : Fits (frame.depthHeight - 1)
  step_ne_zero : cfg.step ≠ 0
  columns : CountFits (frame.corners cfg).xstart (frame.corners cfg).xend cfg.step
  rows : CountFits (frame.corners cfg).ystart (frame.corners cfg).yend cfg.step
  product : Fits (count (frame.corners cfg).xstart (frame.corners cfg).xend cfg.step *
    count (frame.corners cfg).ystart (frame.corners cfg).yend cfg.step)
  capacity : uint32_t (count (frame.corners cfg).xstart (frame.corners cfg).xend cfg.step *
    count (frame.corners cfg).ystart (frame.corners cfg).yend cfg.step) ≤ frame.width * frame.height
  loops : (frame.corners cfg).ystart < (frame.corners cfg).yend →
    0 < cfg.step ∧ LoopsFit frame.depthWidth cfg.step (frame.corners cfg)

/-- The focal lengths are not zero. -/
def Focal (frame : DepthFrame) : Prop :=
  frame.transformation.getIntrinsicMatrix 0 0 ≠ 0 ∧ frame.transformation.getIntrinsicMatrix 1 1 ≠ 0

/-- A region is measured without a fault. -/
def Measured (nth : NthElement) (rounds : ℕ) (frame : DepthFrame)
    (cfg : SpatialLocationCalculatorConfigData) : Prop :=
  ∃ region location, frame.prepare cfg = .ok (some region) ∧
    region.maxNumPixels ≤ frame.width * frame.height ∧
    frame.measure cfg nth rounds region = .ok location

section Numbers

variable {a b start stop s : ℤ}

theorem int_eq_ok_iff : int a = .ok b ↔ Fits a ∧ a = b :=
  checked_eq_ok_iff

theorem int_of_fits (h : Fits a) : int a = .ok a :=
  int_eq_ok_iff.2 ⟨h, rfl⟩

theorem divInt_eq_ok_iff : divInt a b = .ok s ↔ b ≠ 0 ∧ Fits (a.tdiv b) ∧ a.tdiv b = s := by
  rw [divInt]
  split_ifs with h
  · exact iff_of_false (fun heq => by cases heq) fun heq => heq.1 h
  · rw [int_eq_ok_iff]
    exact (and_iff_right h).symm

theorem stepsBetween_eq_ok_iff : stepsBetween start stop s = .ok a ↔
    s ≠ 0 ∧ CountFits start stop s ∧ count start stop s = a := by
  rw [stepsBetween]
  constructor
  · intro h
    obtain ⟨_, hok, h⟩ := Loop.bind_eq_ok.1 h
    obtain ⟨hextent, rfl⟩ := int_eq_ok_iff.1 hok
    obtain ⟨_, hok, h⟩ := Loop.bind_eq_ok.1 h
    obtain ⟨hmore, rfl⟩ := int_eq_ok_iff.1 hok
    obtain ⟨_, hok, h⟩ := Loop.bind_eq_ok.1 h
    obtain ⟨hless, rfl⟩ := int_eq_ok_iff.1 hok
    obtain ⟨hs, hquotient, rfl⟩ := divInt_eq_ok_iff.1 h
    exact ⟨hs, ⟨hextent, hmore, hless, hquotient⟩, rfl⟩
  · rintro ⟨hs, h, rfl⟩
    rw [int_of_fits h.extent, Loop.ok_bind, int_of_fits h.more, Loop.ok_bind, int_of_fits h.less,
      Loop.ok_bind]
    exact divInt_eq_ok_iff.2 ⟨hs, h.quotient, rfl⟩

theorem divFloat_eq_ok_iff {x y z : ℚ} : divFloat x y = .ok z ↔ y ≠ 0 ∧ x / y = z := by
  rw [divFloat]
  split_ifs with h
  · exact iff_of_false (fun heq => by cases heq) fun heq => heq.1 h
  · rw [Except.ok.injEq]
    exact (and_iff_right h).symm

end Numbers

/-! ### The corners -/

section Corners

variable (frame : DepthFrame) (cfg : SpatialLocationCalculatorConfigData)

theorem xend_le : (frame.corners cfg).xend ≤ frame.depthWidth :=
  min_le_right _ _

theorem yend_le : (frame.corners cfg).yend ≤ frame.depthHeight :=
  min_le_right _ _

variable {frame cfg}

/-- Where there is something between two numbers that are cut down, neither is negative. -/
theorem clamp_nonneg {a b n : ℤ} (h : min (max 0 a) n < min (max 0 b) n) :
    0 ≤ min (max 0 a) n := by
  omega

theorem xstart_nonneg (h : (frame.corners cfg).xstart < (frame.corners cfg).xend) :
    0 ≤ (frame.corners cfg).xstart :=
  clamp_nonneg h

theorem ystart_nonneg (h : (frame.corners cfg).ystart < (frame.corners cfg).yend) :
    0 ≤ (frame.corners cfg).ystart :=
  clamp_nonneg h

theorem int32_t_le (n : ℕ) : int32_t n ≤ n :=
  bmod_le_self n _

end Corners

/-! ### Reading -/

section Reading

variable {frame : DepthFrame} {cfg : SpatialLocationCalculatorConfigData}

/-- **A pixel of the region is a pixel of the frame.** -/
theorem exists_pixel_eq_ok_iff {x y step : ℤ}
    (hy : SteppedLoop.Visited (frame.corners cfg).ystart (frame.corners cfg).yend step y)
    (hx : SteppedLoop.Visited (frame.corners cfg).xstart (frame.corners cfg).xend step x) :
    (∃ px, frame.pixel y x = .ok px) ↔
      Fits (y * frame.depthWidth) ∧ Fits (y * frame.depthWidth + x) := by
  have hx0 := xstart_nonneg (hx.le.trans_lt hx.lt)
  have hy0 := ystart_nonneg (hy.le.trans_lt hy.lt)
  have hxW := xend_le frame cfg
  have hyH := yend_le frame cfg
  have hxle := hx.le
  have hxlt := hx.lt
  have hyle := hy.le
  have hylt := hy.lt
  constructor
  · rintro ⟨px, h⟩
    rw [DepthFrame.pixel] at h
    obtain ⟨_, hok, h⟩ := Loop.bind_eq_ok.1 h
    obtain ⟨hrow, rfl⟩ := int_eq_ok_iff.1 hok
    obtain ⟨_, hok, h⟩ := Loop.bind_eq_ok.1 h
    obtain ⟨hindex, rfl⟩ := int_eq_ok_iff.1 hok
    exact ⟨hrow, hindex⟩
  · rintro ⟨hrow, hindex⟩
    have hnonneg : 0 ≤ y * frame.depthWidth + x :=
      add_nonneg (mul_nonneg (by omega) (by omega)) (by omega)
    have hlt : y * frame.depthWidth + x < frame.width * frame.height := by
      calc y * frame.depthWidth + x < y * frame.depthWidth + frame.depthWidth := by omega
        _ = (y + 1) * frame.depthWidth := by ring
        _ ≤ frame.depthHeight * frame.depthWidth := by
          exact mul_le_mul_of_nonneg_right (by omega) (by omega)
        _ ≤ frame.height * frame.width :=
          mul_le_mul (int32_t_le _) (int32_t_le _) (by omega) (Int.natCast_nonneg _)
        _ = frame.width * frame.height := mul_comm _ _
    have hlength : (y * frame.depthWidth + x).toNat < frame.plane.length := by
      rw [frame.length_plane]
      zify
      rwa [Int.toNat_of_nonneg hnonneg]
    rw [DepthFrame.pixel, int_of_fits hrow, Loop.ok_bind, int_of_fits hindex, Loop.ok_bind,
      if_neg (not_lt.2 hnonneg), List.getElem?_eq_getElem hlength]
    exact ⟨_, rfl⟩

theorem add_step {s x y : ℤ} (h : int (x + s) = .ok y) : y = x + s :=
  (int_eq_ok_iff.1 h).2.symm

theorem readRow_visited {rounds : ℕ} {step y : ℤ} {depthStats depthStats' : DepthStats}
    (hstep : 0 < step)
    (hy : SteppedLoop.Visited (frame.corners cfg).ystart (frame.corners cfg).yend step y)
    (h : frame.readRow rounds step (frame.corners cfg) y depthStats = .ok depthStats') {x : ℤ}
    (hx : SteppedLoop.Visited (frame.corners cfg).xstart (frame.corners cfg).xend step x) :
    Fits (x + step) ∧ Fits (y * frame.depthWidth) ∧ Fits (y * frame.depthWidth + x) := by
  obtain ⟨hadd, u, v, hact⟩ :=
    SteppedLoop.visited_of_run hstep (fun _ _ hadd => add_step hadd) h hx
  obtain ⟨px, hpx, -⟩ := Loop.bind_eq_ok.1 hact
  exact ⟨(int_eq_ok_iff.1 hadd).1, (exists_pixel_eq_ok_iff hy hx).1 ⟨px, hpx⟩⟩

/-- **The loops, if they have read all pixels.** -/
theorem loopsFit_of_readRows {rounds : ℕ} {depthStats depthStats' : DepthStats}
    (h : frame.readRows rounds cfg.step (frame.corners cfg) depthStats = .ok depthStats')
    (hrows : (frame.corners cfg).ystart < (frame.corners cfg).yend) (hne : cfg.step ≠ 0) :
    0 < cfg.step ∧ LoopsFit frame.depthWidth cfg.step (frame.corners cfg) := by
  have hstep : 0 < cfg.step := by
    refine lt_of_le_of_ne (not_lt.1 fun hneg => ?_) hne.symm
    exact SteppedLoop.run_ne_ok hneg (fun _ _ hadd => add_step hadd) hrows _ _ _ h
  refine ⟨hstep, ⟨fun y hy => ?_, fun y x hy hx => ?_⟩⟩
  · obtain ⟨hadd, -⟩ := SteppedLoop.visited_of_run hstep (fun _ _ hadd => add_step hadd) h hy
    exact (int_eq_ok_iff.1 hadd).1
  · obtain ⟨-, u, v, hact⟩ :=
      SteppedLoop.visited_of_run hstep (fun _ _ hadd => add_step hadd) h hy
    exact readRow_visited hstep hy hact hx

/-- **The loops end if their numbers fit.** -/
theorem readRows_eq_ok
    (hcolumns : Fits ((frame.corners cfg).xend - (frame.corners cfg).xstart))
    (hrows : Fits ((frame.corners cfg).yend - (frame.corners cfg).ystart))
    (hloops : (frame.corners cfg).ystart < (frame.corners cfg).yend →
      0 < cfg.step ∧ LoopsFit frame.depthWidth cfg.step (frame.corners cfg))
    (depthStats : DepthStats) : ∃ depthStats',
      frame.readRows (2 ^ 32) cfg.step (frame.corners cfg) depthStats = .ok depthStats' := by
  obtain ⟨-, hcolumns⟩ := hcolumns
  obtain ⟨-, hrows⟩ := hrows
  by_cases hlt : (frame.corners cfg).ystart < (frame.corners cfg).yend
  · obtain ⟨hstep, hrow, hcolumn⟩ := hloops hlt
    refine SteppedLoop.exists_run_eq_ok hstep (fun y hy => int_of_fits (hrow y hy))
      (fun y hy depthStats => ?_) depthStats (by omega)
    refine SteppedLoop.exists_run_eq_ok hstep (fun x hx => int_of_fits (hcolumn y x hy hx).1)
      (fun x hx depthStats => ?_) depthStats (by omega)
    obtain ⟨px, hpx⟩ := (exists_pixel_eq_ok_iff hy hx).2 (hcolumn y x hy hx).2
    exact ⟨depthStats.addPixel px, by rw [hpx]; rfl⟩
  · exact ⟨depthStats, SteppedLoop.run_of_not_lt hlt (Nat.two_pow_pos 32) depthStats⟩

end Reading

/-! ### A region -/

section OneRegion

variable {frame : DepthFrame} {cfg : SpatialLocationCalculatorConfigData} {nth : NthElement}
  {rounds : ℕ}

theorem calculateSpatialCoordinates_eq (h : Focal frame) (z x y : ℚ) :
    ∃ p, DepthFrame.calculateSpatialCoordinates z x y frame.transformation.getIntrinsicMatrix =
      .ok p := by
  rw [DepthFrame.calculateSpatialCoordinates, divFloat_eq_ok_iff.2 ⟨h.1, rfl⟩, Loop.ok_bind,
    divFloat_eq_ok_iff.2 ⟨h.2, rfl⟩]
  exact ⟨_, rfl⟩

theorem focal_of_calculateSpatialCoordinates {z x y : ℚ} {p : ℚ × ℚ × ℚ}
    (h : DepthFrame.calculateSpatialCoordinates z x y frame.transformation.getIntrinsicMatrix =
      .ok p) : Focal frame := by
  obtain ⟨_, hx, h⟩ := Loop.bind_eq_ok.1 h
  obtain ⟨_, hy, -⟩ := Loop.bind_eq_ok.1 h
  exact ⟨(divFloat_eq_ok_iff.1 hx).1, (divFloat_eq_ok_iff.1 hy).1⟩

/-- **What a region needs** to be measured. -/
theorem numbersFit_of_measured (hlarge : ¬ frame.TooLarge cfg) (hmap : ¬ frame.OutOfMap cfg)
    (h : Measured nth rounds frame cfg) : NumbersFit frame cfg ∧ Focal frame := by
  obtain ⟨region, location, hprepare, hcapacity, hmeasure⟩ := h
  rw [DepthFrame.prepare, if_neg hlarge, if_neg hmap] at hprepare
  obtain ⟨_, hok, hprepare⟩ := Loop.bind_eq_ok.1 hprepare
  obtain ⟨hwidth, rfl⟩ := int_eq_ok_iff.1 hok
  obtain ⟨_, hok, hprepare⟩ := Loop.bind_eq_ok.1 hprepare
  obtain ⟨hheight, rfl⟩ := int_eq_ok_iff.1 hok
  obtain ⟨_, hok, hprepare⟩ := Loop.bind_eq_ok.1 hprepare
  obtain ⟨hstep, hcolumns, rfl⟩ := stepsBetween_eq_ok_iff.1 hok
  obtain ⟨_, hok, hprepare⟩ := Loop.bind_eq_ok.1 hprepare
  obtain ⟨-, hrows, rfl⟩ := stepsBetween_eq_ok_iff.1 hok
  obtain ⟨_, hok, hprepare⟩ := Loop.bind_eq_ok.1 hprepare
  obtain ⟨hproduct, rfl⟩ := int_eq_ok_iff.1 hok
  cases hprepare
  dsimp only at hcapacity
  rw [DepthFrame.measure] at hmeasure
  obtain ⟨_, hread, hmeasure⟩ := Loop.bind_eq_ok.1 hmeasure
  obtain ⟨_, hcoordinates, -⟩ := Loop.bind_eq_ok.1 hmeasure
  exact ⟨⟨hwidth, hheight, hstep, hcolumns, hrows, hproduct, hcapacity,
    fun hlt => loopsFit_of_readRows hread hlt hstep⟩,
    focal_of_calculateSpatialCoordinates hcoordinates⟩

/-- **A region whose numbers fit is measured.** -/
theorem measured_of_numbersFit (hlarge : ¬ frame.TooLarge cfg) (hmap : ¬ frame.OutOfMap cfg)
    (h : NumbersFit frame cfg) (hfocal : Focal frame) (nth : NthElement) :
    Measured nth (2 ^ 32) frame cfg := by
  have hprepare : frame.prepare cfg = .ok (some ⟨frame.denormRoi cfg, frame.corners cfg, uint32_t
      (count (frame.corners cfg).xstart (frame.corners cfg).xend cfg.step *
        count (frame.corners cfg).ystart (frame.corners cfg).yend cfg.step)⟩) := by
    rw [DepthFrame.prepare, if_neg hlarge, if_neg hmap, int_of_fits h.width, Loop.ok_bind,
      int_of_fits h.height, Loop.ok_bind]
    dsimp only
    rw [stepsBetween_eq_ok_iff.2 ⟨h.step_ne_zero, h.columns, rfl⟩, Loop.ok_bind,
      stepsBetween_eq_ok_iff.2 ⟨h.step_ne_zero, h.rows, rfl⟩, Loop.ok_bind,
      int_of_fits h.product]
    rfl
  obtain ⟨depthStats, hread⟩ := readRows_eq_ok h.columns.extent h.rows.extent h.loops
    { lowerThreshold := cfg.lowerThreshold, upperThreshold := cfg.upperThreshold }
  have hmeasured : ∀ n, frame.prepare cfg = .ok (some ⟨frame.denormRoi cfg, frame.corners cfg, n⟩) →
      n ≤ frame.width * frame.height → Measured nth (2 ^ 32) frame cfg := by
    intro n hprepare hn
    have hmeasure : ∃ location, frame.measure cfg nth (2 ^ 32)
        ⟨frame.denormRoi cfg, frame.corners cfg, n⟩ = .ok location := by
      rw [DepthFrame.measure]
      dsimp only
      rw [hread, Loop.ok_bind]
      obtain ⟨p, hp⟩ := calculateSpatialCoordinates_eq hfocal _ _ _
      rw [hp]
      exact ⟨_, rfl⟩
    obtain ⟨location, hmeasure⟩ := hmeasure
    exact ⟨_, location, hprepare, hn, hmeasure⟩
  exact hmeasured _ hprepare h.capacity

end OneRegion

/-! ### The list of regions -/

/-- The regions before the first one whose step is too large. -/
def reached (frame : DepthFrame) (configDataVec : List SpatialLocationCalculatorConfigData) :
    List SpatialLocationCalculatorConfigData :=
  configDataVec.takeWhile fun cfg => ¬ frame.TooLarge cfg

section Regions

variable {frame : DepthFrame} {cfg : SpatialLocationCalculatorConfigData} {nth : NthElement}
  {rounds : ℕ}

/-- What is not an exception. -/
def Fault (stop : Stop Halt) : Prop :=
  ∀ halt : Halt, stop = .throws halt → halt.thrown = false

theorem fault_pending : Fault .pending := by
  rintro halt ⟨⟩

theorem fault_of_int {a : ℤ} (stop : Stop Halt) (h : int a = .error stop) : Fault stop := by
  rw [int, checked] at h
  split_ifs at h
  cases h
  rintro _ ⟨⟩
  rfl

theorem fault_of_bind {α β : Type} {x : Outcome α} {f : α → Outcome β} {stop : Stop Halt}
    (hx : ∀ stop, x = .error stop → Fault stop) (hf : ∀ a stop, f a = .error stop → Fault stop)
    (h : x >>= f = .error stop) : Fault stop := by
  rcases Loop.bind_eq_error.1 h with hx' | ⟨a, -, hf'⟩
  · exact hx stop hx'
  · exact hf a stop hf'

theorem fault_of_stepsBetween {lo hi s : ℤ} (stop : Stop Halt)
    (h : stepsBetween lo hi s = .error stop) : Fault stop := by
  refine fault_of_bind fault_of_int (fun _ _ => fault_of_bind fault_of_int fun _ _ =>
    fault_of_bind fault_of_int fun _ stop h => ?_) h
  rw [divInt] at h
  split_ifs at h
  · cases h
    rintro _ ⟨⟩
    rfl
  · exact fault_of_int stop h

theorem fault_of_pixel {y x : ℤ} (stop : Stop Halt) (h : frame.pixel y x = .error stop) :
    Fault stop := by
  refine fault_of_bind fault_of_int (fun _ _ => fault_of_bind fault_of_int fun index stop h => ?_) h
  split_ifs at h
  · cases h
    rintro _ ⟨⟩
    rfl
  · split at h
    · cases h
    · cases h
      rintro _ ⟨⟩
      rfl

theorem fault_of_readRows {s : ℤ} {c : Corners} {depthStats : DepthStats} (stop : Stop Halt)
    (h : frame.readRows rounds s c depthStats = .error stop) : Fault stop := by
  refine SteppedLoop.of_run_eq_error fault_pending (fun _ => fault_of_int) (fun y t => ?_) h
  intro stop h
  refine SteppedLoop.of_run_eq_error fault_pending (fun _ => fault_of_int) (fun x t => ?_) h
  exact fun stop => fault_of_bind fault_of_pixel fun _ _ h => by cases h

theorem fault_of_divFloat {a b : ℚ} (stop : Stop Halt) (h : divFloat a b = .error stop) :
    Fault stop := by
  rw [divFloat] at h
  split_ifs at h
  cases h
  rintro _ ⟨⟩
  rfl

theorem fault_of_prepare (hlarge : ¬ frame.TooLarge cfg) (stop : Stop Halt)
    (h : frame.prepare cfg = .error stop) : Fault stop := by
  rw [DepthFrame.prepare, if_neg hlarge] at h
  split_ifs at h
  exact fault_of_bind fault_of_int (fun _ _ => fault_of_bind fault_of_int fun _ _ =>
    fault_of_bind fault_of_stepsBetween fun _ _ => fault_of_bind fault_of_stepsBetween fun _ _ =>
    fault_of_bind fault_of_int fun _ _ h => by cases h) h

theorem fault_of_measure {region : Region} (stop : Stop Halt)
    (h : frame.measure cfg nth rounds region = .error stop) : Fault stop := by
  refine fault_of_bind fault_of_readRows (fun _ _ => fault_of_bind (fun _ => ?_)
    fun _ _ h => by cases h) h
  exact fault_of_bind fault_of_divFloat fun _ _ => fault_of_bind fault_of_divFloat fun _ _ h => by
    cases h

theorem Fault.not_clean {stop : Stop Halt} (h : Fault stop) {progress : Progress} :
    ¬ Clean frame (progress, some stop) := by
  rintro ⟨hthrown, -⟩
  obtain ⟨halt, rfl, hhalt⟩ := hthrown stop rfl
  rw [h halt rfl] at hhalt
  cases hhalt

/-- A region is left out if it is not within the frame. -/
theorem prepare_eq_none_iff (hlarge : ¬ frame.TooLarge cfg) :
    frame.prepare cfg = .ok none ↔ frame.OutOfMap cfg := by
  rw [DepthFrame.prepare, if_neg hlarge]
  split_ifs with hmap
  · exact iff_of_true rfl hmap
  · refine iff_of_false (fun h => ?_) hmap
    obtain ⟨_, -, h⟩ := Loop.bind_eq_ok.1 h
    obtain ⟨_, -, h⟩ := Loop.bind_eq_ok.1 h
    obtain ⟨_, -, h⟩ := Loop.bind_eq_ok.1 h
    obtain ⟨_, -, h⟩ := Loop.bind_eq_ok.1 h
    obtain ⟨_, -, h⟩ := Loop.bind_eq_ok.1 h
    cases h

/-- **The regions that are reached decide.** -/
theorem clean_computeRegions_iff (configDataVec : List SpatialLocationCalculatorConfigData)
    (progress : Progress) : Clean frame (computeRegions nth rounds frame configDataVec progress) ↔
      (∀ n ∈ progress.reserved, n ≤ frame.width * frame.height) ∧
        ∀ cfg ∈ reached frame configDataVec,
          frame.OutOfMap cfg ∨ Measured nth rounds frame cfg := by
  induction configDataVec generalizing progress with
  | nil =>
    rw [computeRegions, reached, List.takeWhile_nil]
    refine ⟨fun h => ⟨h.2, fun cfg hcfg => ?_⟩, fun h => ⟨fun stop hstop => ?_, h.1⟩⟩
    · cases hcfg
    · cases hstop
  | cons cfg rest ih =>
    rw [reached, List.takeWhile_cons]
    by_cases hlarge : frame.TooLarge cfg
    · have hprepare : frame.prepare cfg = .error (.throws .invalidArgument) := if_pos hlarge
      rw [if_neg (by simpa using hlarge), computeRegions, hprepare]
      refine ⟨fun h => ⟨h.2, fun cfg hcfg => ?_⟩, fun h => ⟨fun stop hstop => ?_, h.1⟩⟩
      · cases hcfg
      · cases hstop
        exact ⟨_, rfl, rfl⟩
    · rw [if_pos (by simpa using hlarge), List.forall_mem_cons, computeRegions]
      rcases hprepare : frame.prepare cfg with stop | (_ | region)
      · -- Something is wrong before any pixel is read.
        refine iff_of_false (fault_of_prepare hlarge stop hprepare).not_clean ?_
        rintro ⟨-, hmap | ⟨region, location, hregion, -⟩, -⟩
        · rw [(prepare_eq_none_iff hlarge).2 hmap] at hprepare
          cases hprepare
        · rw [hregion] at hprepare
          cases hprepare
      · dsimp only
        rw [ih, or_iff_left_of_imp fun _ => (prepare_eq_none_iff hlarge).1 hprepare,
          and_iff_right ((prepare_eq_none_iff hlarge).1 hprepare)]
        rfl
      · have hmap : ¬ frame.OutOfMap cfg := by
          intro hmap
          rw [(prepare_eq_none_iff hlarge).2 hmap] at hprepare
          cases hprepare
        dsimp only
        rcases hmeasure : frame.measure cfg nth rounds region with stop | location
        · refine iff_of_false (fault_of_measure stop hmeasure).not_clean ?_
          rintro ⟨-, hmap' | ⟨region', location, hregion, -, hlocation⟩, -⟩
          · exact hmap hmap'
          · rw [hprepare] at hregion
            cases hregion
            rw [hmeasure] at hlocation
            cases hlocation
        · have hmeasured : Measured nth rounds frame cfg ↔
              region.maxNumPixels ≤ frame.width * frame.height := by
            constructor
            · rintro ⟨region', -, hregion, hle, -⟩
              rw [hprepare] at hregion
              cases hregion
              exact hle
            · exact fun hle => ⟨region, location, hprepare, hle, hmeasure⟩
          rw [ih, or_iff_right hmap, hmeasured, List.forall_mem_append, List.forall_mem_singleton,
            and_assoc]
          rfl

end Regions

/-! ### Counting steps -/

section Counting

variable {n s lo hi : ℤ} {m : ℕ}

theorem count_pos_iff (hs : 0 < s) : 0 < count lo hi s ↔ lo < hi := by
  rw [count, tdiv_pos_iff hs]
  omega

theorem count_neg_iff (hs : 0 < s) : count lo hi s < 0 ↔ hi - lo ≤ 1 - 2 * s := by
  rw [count, tdiv_neg_iff hs]
  omega

theorem natAbs_count_le (hs : 0 < s) (h : (hi - lo).natAbs ≤ m) : (count lo hi s).natAbs ≤ m := by
  rcases le_total 0 (hi - lo + s - 1) with hn | hn
  · have hmul := Int.mul_tdiv_self_le (k := s) hn
    rw [← count] at hmul
    have hnonneg : 0 ≤ count lo hi s := Int.tdiv_nonneg hn hs.le
    have hextent : hi - lo ≤ m := by omega
    have hle : count lo hi s ≤ m := by
      by_contra hlt
      have hnext := mul_le_mul_of_nonneg_left (Int.add_one_le_of_lt (not_le.1 hlt)) hs.le
      nlinarith [mul_nonneg (Int.natCast_nonneg m) (sub_nonneg.2 (Int.add_one_le_of_lt hs))]
    omega
  · have hle := Int.natAbs_tdiv_le_natAbs (hi - lo + s - 1) s
    rw [← count] at hle
    omega

theorem count_neg (lo hi s : ℤ) : count lo hi (-s) = (s + 1 - (hi - lo)).tdiv s := by
  rw [count, Int.tdiv_neg, ← Int.neg_tdiv]
  congr 1
  ring

theorem count_neg_pos_iff (hs : 0 < s) : 0 < count lo hi (-s) ↔ hi - lo ≤ 1 := by
  rw [count_neg, tdiv_pos_iff hs]
  omega

theorem count_neg_nonneg_iff (hs : 0 < s) : 0 ≤ count lo hi (-s) ↔ hi - lo ≤ 2 * s := by
  rw [count_neg, ← not_lt, tdiv_neg_iff hs]
  omega

/-- Of more than one at a time there are no more than numbers. -/
theorem count_neg_le (hs : 1 < s) (hm : 0 < m) (h : lo - hi < m) : count lo hi (-s) ≤ m := by
  rw [count_neg]
  rcases le_total 0 (s + 1 - (hi - lo)) with hn | hn
  · have hmul := Int.mul_tdiv_self_le (k := s) hn
    by_contra hlt
    have hnext := mul_le_mul_of_nonneg_left (Int.add_one_le_of_lt (not_le.1 hlt)) (by omega : 0 ≤ s)
    nlinarith
  · have hneg := Int.tdiv_nonneg (neg_nonneg.2 hn) (by omega : 0 ≤ s)
    rw [Int.neg_tdiv] at hneg
    omega

/-- The number of steps is calculated within `int` if the extent and the step are together. -/
theorem countFits_of_forwards (hs : 0 < s) (h : (hi - lo).natAbs + s.toNat ≤ m)
    (hm : m < 2 ^ 31) : CountFits lo hi s := by
  have hcount := natAbs_count_le hs (le_refl (hi - lo).natAbs)
  refine ⟨?_, ?_, ?_, ?_⟩
  · exact fits_of_natAbs_le (by omega) hm
  · exact fits_of_natAbs_le (by omega) hm
  · exact fits_of_natAbs_le (by omega) hm
  · exact fits_of_natAbs_le (by omega) hm

theorem countFits_of_backwards (hs : s < -1) (h : (hi - lo).natAbs ≤ m) (hm : m < 2 ^ 31)
    (hless : Fits (hi - lo + s - 1)) : CountFits lo hi s := by
  have hextent := fits_of_natAbs_le h hm
  obtain ⟨hlo, hhi⟩ := hless
  refine ⟨hextent, ⟨by omega, by linarith only [hextent.2, hs]⟩, ⟨hlo, hhi⟩, ?_⟩
  have hhalf : (count lo hi s).natAbs ≤ (hi - lo + s - 1).natAbs / 2 := by
    rw [count, Int.natAbs_tdiv]
    exact Nat.div_le_div_left (by omega) two_pos
  exact fits_of_natAbs_le hhalf (by omega)

/-- The space is not too much if the number has not become negative. -/
theorem uint32_t_le_iff (hfits : Fits n) (hm : m < 2 ^ 31) : uint32_t n ≤ m ↔ 0 ≤ n ∧ n ≤ m := by
  obtain ⟨hlo, hhi⟩ := hfits
  rw [uint32_t]
  omega

end Counting

/-! ### A frame with fewer than 2^31 pixels -/

/-- The columns from one corner to the other. -/
def Corners.width (c : Corners) : ℤ := c.xend - c.xstart

/-- The rows. -/
def Corners.height (c : Corners) : ℤ := c.yend - c.ystart

/-- Numbers of columns, of rows and of pixels that are less than `2 ^ 31`. -/
structure Small (frame : DepthFrame) : Prop where
  width : frame.width < 2 ^ 31
  height : frame.height < 2 ^ 31
  pixels : frame.width * frame.height < 2 ^ 31

/-- **The step goes with the region.** A step forwards must not find one extent reversed by as much
as two steps while the other is not. With a step backwards there must be no row to read. -/
structure StepGoes (frame : DepthFrame) (cfg : SpatialLocationCalculatorConfigData) : Prop where
  ne_zero : cfg.step ≠ 0
  forwards : 0 < cfg.step →
    ¬ ((frame.corners cfg).width ≤ 1 - 2 * cfg.step ∧ 0 < (frame.corners cfg).height) ∧
      ¬ ((frame.corners cfg).height ≤ 1 - 2 * cfg.step ∧ 0 < (frame.corners cfg).width)
  backwards : cfg.step < 0 →
    (frame.corners cfg).height ≤ 0 ∧ (frame.corners cfg).width ≤ -2 * cfg.step ∧
      Fits ((frame.corners cfg).width + cfg.step - 1) ∧
      Fits ((frame.corners cfg).height + cfg.step - 1) ∧
      (frame.width * frame.height = 0 → 1 < (frame.corners cfg).width)

section SmallFrame

variable {frame : DepthFrame} {cfg : SpatialLocationCalculatorConfigData}

theorem step_ne_neg_one (cfg : SpatialLocationCalculatorConfigData) : cfg.step ≠ -1 := by
  have hAUTO : AUTO.toInt = -1 := by decide
  rw [SpatialLocationCalculatorConfigData.step, getStepSize, ← hAUTO]
  split_ifs with hauto
  · decide
  · decide
  · rw [Int32.toInt32_toUInt32, Ne, Int32.toInt_inj]
    exact hauto

theorem int32_t_of_lt {n : ℕ} (h : n < 2 ^ 31) : int32_t n = n :=
  bmod_of_lt (by omega)

theorem Small.depthWidth_eq (h : Small frame) : frame.depthWidth = frame.width :=
  int32_t_of_lt h.width

theorem Small.depthHeight_eq (h : Small frame) : frame.depthHeight = frame.height :=
  int32_t_of_lt h.height

/-- The first corner is within the frame if there is something within it. -/
theorem start_mem (x : ℚ) (n : ℕ) :
    0 ≤ min (max 0 (Rounding.trunc (min (max 0 x) ((n - 1 : ℤ) : ℚ)))) (n : ℤ) ∧
      min (max 0 (Rounding.trunc (min (max 0 x) ((n - 1 : ℤ) : ℚ)))) (n : ℤ) ≤ max 0 (n - 1) := by
  have hle := (Rounding.trunc_mem (Int.floor_le _) (min_le_right (max 0 x) ((n - 1 : ℤ) : ℚ))).2
  omega

/-- The extents of what is read. -/
structure Extents (frame : DepthFrame) (c : Corners) : Prop where
  natAbs_width_le : c.width.natAbs ≤ frame.width
  natAbs_height_le : c.height.natAbs ≤ frame.height
  lt_width : 0 < frame.width → -frame.width < c.width
  lt_height : 0 < frame.height → -frame.height < c.height

theorem Small.extents (h : Small frame) (cfg : SpatialLocationCalculatorConfigData) :
    Extents frame (frame.corners cfg) := by
  have hx := start_mem (frame.denormRoi cfg).topLeft.x frame.width
  have hy := start_mem (frame.denormRoi cfg).topLeft.y frame.height
  rw [DepthFrame.corners, clampRectCorners, h.depthWidth_eq, h.depthHeight_eq]
  constructor <;> simp only [Corners.width, Corners.height, clampPoint] <;> omega

/-- The numbers of the loops, where no step leaves `int` with the row or the column. -/
theorem loopsFit_of_small (hsmall : Small frame) (hstep : 0 ≤ cfg.step)
    (hx : frame.width + cfg.step.toNat ≤ frame.width * frame.height)
    (hy : frame.height + cfg.step.toNat ≤ frame.width * frame.height) :
    LoopsFit frame.depthWidth cfg.step (frame.corners cfg) := by
  have hpixels : (frame.width : ℤ) * frame.height < 2 ^ 31 := by exact_mod_cast hsmall.pixels
  zify at hx hy
  rw [Int.toNat_of_nonneg hstep] at hx hy
  have hxend := xend_le frame cfg
  have hyend := yend_le frame cfg
  rw [hsmall.depthWidth_eq] at hxend
  rw [hsmall.depthHeight_eq] at hyend
  refine ⟨fun y hvisited => ?_, fun y x hvisited hcolumn => ?_⟩
  · have hstart := ystart_nonneg (hvisited.le.trans_lt hvisited.lt)
    have hle := hvisited.le
    have hlt := hvisited.lt
    exact ⟨by omega, by omega⟩
  · have hstart := ystart_nonneg (hvisited.le.trans_lt hvisited.lt)
    have hle := hvisited.le
    have hlt := hvisited.lt
    have hstart' := xstart_nonneg (hcolumn.le.trans_lt hcolumn.lt)
    have hle' := hcolumn.le
    have hlt' := hcolumn.lt
    have hrow : 0 ≤ y * (frame.width : ℤ) := mul_nonneg (by omega) (Int.natCast_nonneg _)
    have hindex : y * (frame.width : ℤ) + frame.width ≤ frame.width * frame.height := by
      calc y * (frame.width : ℤ) + frame.width = frame.width * (y + 1) := by ring
        _ ≤ frame.width * frame.height :=
          mul_le_mul_of_nonneg_left (by omega) (Int.natCast_nonneg _)
    rw [hsmall.depthWidth_eq]
    exact ⟨⟨by omega, by omega⟩, ⟨by omega, by omega⟩, ⟨by omega, by omega⟩⟩

/-- A product is not negative unless its factors have different signs. -/
theorem mul_nonneg_iff_not (a b : ℤ) : 0 ≤ a * b ↔ ¬ (a < 0 ∧ 0 < b) ∧ ¬ (b < 0 ∧ 0 < a) := by
  rw [mul_nonneg_iff]
  omega

theorem add_step_le (hsmall : Small frame) (hlarge : ¬ frame.TooLarge cfg) (hstep : 0 < cfg.step) :
    frame.width + cfg.step.toNat ≤ frame.width * frame.height ∧
      frame.height + cfg.step.toNat ≤ frame.width * frame.height := by
  obtain ⟨hhalf, hhalf'⟩ := not_or.1 hlarge
  rw [hsmall.depthWidth_eq, Int.tdiv_eq_ediv_of_nonneg (Int.natCast_nonneg _), not_le] at hhalf
  rw [hsmall.depthHeight_eq, Int.tdiv_eq_ediv_of_nonneg (Int.natCast_nonneg _), not_le] at hhalf'
  have hwidth : frame.width * 4 ≤ frame.width * frame.height :=
    Nat.mul_le_mul_left _ (by omega)
  have hheight : 4 * frame.height ≤ frame.width * frame.height :=
    Nat.mul_le_mul_right _ (by omega)
  omega

/-- **Steps forwards.** -/
theorem numbersFit_iff_forwards (hsmall : Small frame) (hlarge : ¬ frame.TooLarge cfg)
    (hstep : 0 < cfg.step) : NumbersFit frame cfg ↔
      ¬ ((frame.corners cfg).width ≤ 1 - 2 * cfg.step ∧ 0 < (frame.corners cfg).height) ∧
        ¬ ((frame.corners cfg).height ≤ 1 - 2 * cfg.step ∧ 0 < (frame.corners cfg).width) := by
  obtain ⟨hwidth, hheight⟩ := add_step_le hsmall hlarge hstep
  have hextents := hsmall.extents cfg
  have hproduct := Nat.mul_le_mul (natAbs_count_le hstep hextents.natAbs_width_le)
    (natAbs_count_le hstep hextents.natAbs_height_le)
  rw [← Int.natAbs_mul] at hproduct
  have hsign : 0 ≤ count (frame.corners cfg).xstart (frame.corners cfg).xend cfg.step *
      count (frame.corners cfg).ystart (frame.corners cfg).yend cfg.step ↔
      ¬ ((frame.corners cfg).width ≤ 1 - 2 * cfg.step ∧ 0 < (frame.corners cfg).height) ∧
        ¬ ((frame.corners cfg).height ≤ 1 - 2 * cfg.step ∧ 0 < (frame.corners cfg).width) := by
    rw [mul_nonneg_iff_not, count_neg_iff hstep, count_neg_iff hstep, count_pos_iff hstep,
      count_pos_iff hstep, Corners.width, Corners.height, sub_pos, sub_pos]
  have hfits := fits_of_natAbs_le hproduct hsmall.pixels
  have hcapacity := uint32_t_le_iff hfits hsmall.pixels
  rw [← hsign]
  constructor
  · intro h
    exact (hcapacity.1 h.capacity).1
  · intro h
    refine ⟨?_, ?_, hstep.ne', ?_, ?_, hfits, hcapacity.2 ⟨h, ?_⟩, fun _ =>
      ⟨hstep, loopsFit_of_small hsmall hstep.le hwidth hheight⟩⟩
    · rw [hsmall.depthWidth_eq]
      exact fits_sub_one hsmall.width
    · rw [hsmall.depthHeight_eq]
      exact fits_sub_one hsmall.height
    · exact countFits_of_forwards hstep
        ((Nat.add_le_add_right hextents.natAbs_width_le _).trans hwidth) hsmall.pixels
    · exact countFits_of_forwards hstep
        ((Nat.add_le_add_right hextents.natAbs_height_le _).trans hheight) hsmall.pixels
    · exact Int.le_natAbs.trans (Int.ofNat_le.2 hproduct)

/-- **Steps backwards.** -/
theorem numbersFit_iff_backwards (hsmall : Small frame) (hstep : cfg.step < 0) :
    NumbersFit frame cfg ↔
      (frame.corners cfg).height ≤ 0 ∧ (frame.corners cfg).width ≤ -2 * cfg.step ∧
        Fits ((frame.corners cfg).width + cfg.step - 1) ∧
        Fits ((frame.corners cfg).height + cfg.step - 1) ∧
        (frame.width * frame.height = 0 → 1 < (frame.corners cfg).width) := by
  obtain ⟨t, ht⟩ : ∃ t, cfg.step = -t := ⟨-cfg.step, (neg_neg _).symm⟩
  have hne := step_ne_neg_one cfg
  have ht1 : 1 < t := by omega
  have hextents := hsmall.extents cfg
  have hcolumns : 0 ≤ count (frame.corners cfg).xstart (frame.corners cfg).xend cfg.step ↔
      (frame.corners cfg).width ≤ -2 * cfg.step := by
    rw [ht, count_neg_nonneg_iff (by omega), Corners.width]
    omega
  have hcolumns' : 0 < count (frame.corners cfg).xstart (frame.corners cfg).xend cfg.step ↔
      (frame.corners cfg).width ≤ 1 := by
    rw [ht, count_neg_pos_iff (by omega), Corners.width]
  have hrows : (frame.corners cfg).height ≤ 0 →
      0 < count (frame.corners cfg).ystart (frame.corners cfg).yend cfg.step := by
    intro h
    rw [ht, count_neg_pos_iff (by omega), ← Corners.height]
    omega
  constructor
  · intro h
    have hheight : (frame.corners cfg).height ≤ 0 := by
      by_contra hpos
      have := (h.loops (by rw [Corners.height] at hpos; omega)).1
      omega
    obtain ⟨hnonneg, hle⟩ := (uint32_t_le_iff h.product hsmall.pixels).1 h.capacity
    refine ⟨hheight, hcolumns.1 (nonneg_of_mul_nonneg_left hnonneg (hrows hheight)), h.columns.less,
      h.rows.less, fun hzero => ?_⟩
    by_contra hone
    have hpos := mul_pos (hcolumns'.2 (not_lt.1 hone)) (hrows hheight)
    omega
  · rintro ⟨hheight, hwidth, hless, hless', hempty⟩
    have hnonneg := hcolumns.2 hwidth
    have hle : count (frame.corners cfg).xstart (frame.corners cfg).xend cfg.step *
        count (frame.corners cfg).ystart (frame.corners cfg).yend cfg.step ≤
        frame.width * frame.height := by
      rcases Nat.eq_zero_or_pos (frame.width * frame.height) with hzero | hpos
      · have hnone := le_antisymm (not_lt.1 fun h => (hempty hzero).not_ge (hcolumns'.1 h)) hnonneg
        rw [hnone, zero_mul]
        exact mul_nonneg (Int.natCast_nonneg _) (Int.natCast_nonneg _)
      · have hx := Nat.pos_of_mul_pos_right hpos
        have hy := Nat.pos_of_mul_pos_left hpos
        refine mul_le_mul ?_ ?_ (hrows hheight).le (Int.natCast_nonneg _)
        · rw [ht]
          refine count_neg_le ht1 hx ?_
          have := hextents.lt_width hx
          rw [Corners.width] at this
          omega
        · rw [ht]
          refine count_neg_le ht1 hy ?_
          have := hextents.lt_height hy
          rw [Corners.height] at this
          omega
    have hproduct := mul_nonneg hnonneg (hrows hheight).le
    have hnatAbs : (count (frame.corners cfg).xstart (frame.corners cfg).xend cfg.step *
        count (frame.corners cfg).ystart (frame.corners cfg).yend cfg.step).natAbs ≤
        frame.width * frame.height := by
      zify
      rw [abs_of_nonneg hproduct]
      exact hle
    have hfits := fits_of_natAbs_le hnatAbs hsmall.pixels
    have hcapacity := uint32_t_le_iff hfits hsmall.pixels
    rw [Nat.cast_mul] at hcapacity
    refine ⟨?_, ?_, by omega, ?_, ?_, hfits, hcapacity.2 ⟨hproduct, hle⟩, fun hlt => ?_⟩
    · rw [hsmall.depthWidth_eq]
      exact fits_sub_one hsmall.width
    · rw [hsmall.depthHeight_eq]
      exact fits_sub_one hsmall.height
    · exact countFits_of_backwards (by omega) hextents.natAbs_width_le hsmall.width hless
    · exact countFits_of_backwards (by omega) hextents.natAbs_height_le hsmall.height hless'
    · rw [Corners.height] at hheight
      omega

end SmallFrame

/-! ### When it is safe -/

/-- **The condition on a region.** For a frame whose pixels an `int` cannot count, it is about each
of the numbers. -/
structure Sound (frame : DepthFrame) (cfg : SpatialLocationCalculatorConfigData) : Prop where
  small : Small frame → StepGoes frame cfg
  large : ¬ Small frame → NumbersFit frame cfg
  focal : Focal frame

section Conditions

variable {frame : DepthFrame} {cfg : SpatialLocationCalculatorConfigData}

theorem fits_iff_stepGoes (hsmall : Small frame) (hlarge : ¬ frame.TooLarge cfg) :
    NumbersFit frame cfg ↔ StepGoes frame cfg := by
  rcases lt_trichotomy cfg.step 0 with hstep | hstep | hstep
  · rw [numbersFit_iff_backwards hsmall hstep]
    exact ⟨fun h => ⟨hstep.ne, fun hpos => absurd hpos hstep.not_gt, fun _ => h⟩,
      fun h => h.backwards hstep⟩
  · exact iff_of_false (fun h => h.step_ne_zero hstep) fun h => h.ne_zero hstep
  · rw [numbersFit_iff_forwards hsmall hlarge hstep]
    exact ⟨fun h => ⟨hstep.ne', fun _ => h, fun hneg => absurd hneg hstep.not_gt⟩,
      fun h => h.forwards hstep⟩

theorem sound_iff (hlarge : ¬ frame.TooLarge cfg) :
    Sound frame cfg ↔ NumbersFit frame cfg ∧ Focal frame := by
  by_cases hsmall : Small frame
  · rw [fits_iff_stepGoes hsmall hlarge]
    exact ⟨fun h => ⟨h.small hsmall, h.focal⟩,
      fun h => ⟨fun _ => h.1, fun hnot => absurd hsmall hnot, h.2⟩⟩
  · exact ⟨fun h => ⟨h.large hsmall, h.focal⟩,
      fun h => ⟨fun hyes => absurd hyes hsmall, fun _ => h.1, h.2⟩⟩

theorem not_tooLarge_of_mem_reached {configDataVec : List SpatialLocationCalculatorConfigData}
    (h : cfg ∈ reached frame configDataVec) : ¬ frame.TooLarge cfg := by
  simpa using List.mem_takeWhile_imp h

/-- The function has nothing to do, or it throws, or it goes through the regions. -/
theorem clean_computeSpatialData_iff {nth : NthElement} {rounds : ℕ} (frame : DepthFrame)
    (configDataVec : List SpatialLocationCalculatorConfigData) :
    Clean frame (computeSpatialData nth rounds frame configDataVec) ↔
      (frame.transformation.isValid → ∀ cfg ∈ reached frame configDataVec,
        frame.OutOfMap cfg ∨ Measured nth rounds frame cfg) := by
  rw [computeSpatialData]
  split_ifs with hnil hvalid
  · subst hnil
    refine iff_of_true ⟨fun stop hstop => ?_, fun n hn => ?_⟩ fun _ cfg hcfg => ?_
    · cases hstop
    · cases hn
    · cases hcfg
  · rw [clean_computeRegions_iff]
    exact ⟨fun h _ => h.2, fun h => ⟨fun n hn => (List.not_mem_nil hn).elim, h hvalid⟩⟩
  · refine iff_of_true ⟨fun stop hstop => ?_, fun n hn => ?_⟩ fun h => absurd h hvalid
    · cases hstop
      exact ⟨_, rfl, rfl⟩
    · cases hn

end Conditions

/-- A frame of two by two pixels. -/
def twoByTwo : DepthFrame where
  width := 2
  height := 2
  plane := List.replicate 4 0
  transformation := .ofSizes 2 2 2 2
  length_plane := rfl

/-- The pixel in its corner, with a step of zero. -/
def stepZero : SpatialLocationCalculatorConfigData where
  roi := { x := 0, y := 0, width := 1, height := 1, normalized := false, hasNormalized := true }
  lowerThreshold := 0
  upperThreshold := 65535
  calculationAlgorithm := .MEDIAN
  stepSize := 0

end SpatialUtils

end DepthaiCore
