import DepthaiCore.Lib.Loops
import DepthaiCore.Lib.Numerals
import DepthaiCore.Lib.RotatingWindow
import DepthaiCore.Lib.WordArray
import Mathlib.Data.Rat.Floor

/-!
# The temporal filter and its buffers

The temporal filter keeps, for every pixel, an accumulated value and a byte that remembers in which
of the last eight frames the pixel was measured. Both lie in blocks of bytes that are allocated for
the first frame after the filter is created or gets new parameters, and only grow. Every later
frame is run through the same blocks, whatever its size and the width of its pixels.

So the accesses are inside exactly if no frame needs more bytes than the largest frame that the
blocks have been allocated for. What the blocks hold is not looked at for this: `Sizing` follows
the calls with the byte counts alone.

The weight of the current frame is a number of an ordered field with exact arithmetic. An exception
ends the calls, as nothing catches it on the way out of `ImageFilters::run`. The values of a frame
are its pixels, not their bytes.
-/

open scoped Numerals

namespace DepthaiCore

namespace ImageFilters

/-! ### Frames -/

/-- The frame types that the filters tell apart. -/
inductive FrameType
  | RAW8
  | RAW16
  | other
  deriving DecidableEq, Repr

/-- What the filters read of an `ImgFrame`. `data` holds the values of the pixels. -/
structure ImgFrame where
  type : FrameType
  width : UInt32
  height : UInt32
  data : List ℕ
  deriving DecidableEq, Repr

namespace ImgFrame

/-- `getWidth() * getHeight()`, a product of two `unsigned int`. -/
def pixels (frame : ImgFrame) : ℕ :=
  (frame.width * frame.height).toNat

/-- The data holds every pixel. -/
def Enough (frame : ImgFrame) : Prop :=
  frame.pixels ≤ frame.data.length

instance (frame : ImgFrame) : Decidable frame.Enough :=
  inferInstanceAs (Decidable (_ ≤ _))

end ImgFrame

/-- What ends a call: a frame of another type, parameters of another filter, a size that the median
filter does not take, an exception of OpenCV, a block longer than a vector can be, an access to
the frame's data that is outside it, or one to the filter's own blocks. -/
inductive Fault
  | unsupportedType
  | invalidParams
  | invalidMedianSize
  | openCV
  | lengthError
  | outsideFrame
  | outsideBuffer
  deriving DecidableEq, Repr

/-- `x`, or the fault that its absence is. -/
def orFault {α : Type} (fault : Fault) : Option α → Except Fault α
  | some a => .ok a
  | none => .error fault

/-- `sizeof` of the pixel type that a frame is read with. -/
def bytesPerPixel : FrameType → Except Fault ℕ
  | .RAW16 => .ok 2
  | .RAW8 => .ok 1
  | .other => .error .unsupportedType

/-! ### Parameters -/

inductive PersistencyMode
  | PERSISTENCY_OFF
  | VALID_8_OUT_OF_8
  | VALID_2_IN_LAST_3
  | VALID_2_IN_LAST_4
  | VALID_2_OUT_OF_8
  | VALID_1_IN_LAST_2
  | VALID_1_IN_LAST_5
  | VALID_1_IN_LAST_8
  | PERSISTENCY_INDEFINITELY
  deriving DecidableEq, Repr

/-- The enumerators' values. -/
def PersistencyMode.value : PersistencyMode → ℕ
  | .PERSISTENCY_OFF => 0
  | .VALID_8_OUT_OF_8 => 1
  | .VALID_2_IN_LAST_3 => 2
  | .VALID_2_IN_LAST_4 => 3
  | .VALID_2_OUT_OF_8 => 4
  | .VALID_1_IN_LAST_2 => 5
  | .VALID_1_IN_LAST_5 => 6
  | .VALID_1_IN_LAST_8 => 7
  | .PERSISTENCY_INDEFINITELY => 8

/-- `dai::filters::params::MedianFilter`. -/
inductive MedianFilterParams
  | MEDIAN_OFF
  | KERNEL_3x3
  | KERNEL_5x5
  | KERNEL_7x7
  deriving DecidableEq, Repr

/-- `dai::filters::params::SpatialFilter`. -/
structure SpatialFilterParams (K : Type) [Field K] where
  enable : Bool := false
  holeFillingRadius : UInt8 := 2
  alpha : K := 1 / 2
  delta : ℤ := 3
  numIterations : ℤ := 1

/-- `dai::filters::params::SpeckleFilter`. -/
structure SpeckleFilterParams where
  enable : Bool := false
  speckleRange : UInt32 := 50
  differenceThreshold : UInt32 := 2
  deriving DecidableEq, Repr

/-- `dai::filters::params::TemporalFilter`. -/
structure TemporalFilterParams (K : Type) [Field K] where
  enable : Bool := false
  persistencyMode : PersistencyMode := .VALID_2_IN_LAST_4
  alpha : K := 2 / 5
  delta : ℤ := 3

/-- `FilterParams`, the variant of the parameters of all filters. -/
inductive FilterParams (K : Type) [Field K]
  | median (params : MedianFilterParams)
  | spatial (params : SpatialFilterParams K)
  | speckle (params : SpeckleFilterParams)
  | temporal (params : TemporalFilterParams K)

/-! ### One pixel -/

section Pixel

variable {K : Type} [Field K] [LinearOrder K] [FloorSemiring K]

/-- `static_cast<T>` of a number to an unsigned type of `bytes` bytes. -/
def castPixel (bytes : ℕ) (x : K) : ℕ :=
  ⌊x⌋₊ % 256 ^ bytes

/-- The body of the loop of `processImpl`: the pixel of the frame, its accumulated value and its
history. A branch that leaves one of them alone gives it back. -/
def processPixel (bytes : ℕ) (alpha : K) (delta : ℕ) (mask : BitVec 8)
    (persistenceMap : List (BitVec 8)) (currentVal previousVal : ℕ) (hist : BitVec 8) :
    ℕ × ℕ × BitVec 8 :=
  if currentVal ≠ 0 then
    if previousVal = 0 then
      (currentVal, currentVal, mask)
    else
      let diff := ((currentVal : ℤ) - previousVal).natAbs
      if diff < delta then
        let filtered := alpha * currentVal + (1 - alpha) * previousVal
        let result := castPixel bytes filtered
        (result, result, hist ||| mask)
      else
        (currentVal, currentVal, mask)
  else
    let classification := persistenceMap.getD hist.toNat 0
    if previousVal ≠ 0 ∧ classification &&& mask ≠ 0 then
      (previousVal, previousVal, hist &&& ~~~mask)
    else
      (currentVal, previousVal, hist &&& ~~~mask)

end Pixel

/-! ### The table of histories -/

/-- The first half of `buildPersistenceMap`: whether a history with the last frame on top has
enough frames. -/
def enoughFrames (persistenceMode : ℕ) (i : BitVec 8) : BitVec 8 :=
  let last_7 := if i &&& 1 ≠ 0 then 1 else 0
  let last_6 := if i &&& 2 ≠ 0 then 1 else 0
  let last_5 := if i &&& 4 ≠ 0 then 1 else 0
  let last_4 := if i &&& 8 ≠ 0 then 1 else 0
  let last_3 := if i &&& 16 ≠ 0 then 1 else 0
  let last_2 := if i &&& 32 ≠ 0 then 1 else 0
  let last_1 := if i &&& 64 ≠ 0 then 1 else 0
  let accumulatorFrame := if i &&& 128 ≠ 0 then 1 else 0
  match persistenceMode with
  | 1 =>
    if accumulatorFrame + last_1 + last_2 + last_3 + last_4 + last_5 + last_6 + last_7 ≥ 8
    then 1 else 0
  | 2 => if accumulatorFrame + last_1 + last_2 ≥ 2 then 1 else 0
  | 3 => if accumulatorFrame + last_1 + last_2 + last_3 ≥ 2 then 1 else 0
  | 4 =>
    if accumulatorFrame + last_1 + last_2 + last_3 + last_4 + last_5 + last_6 + last_7 ≥ 2
    then 1 else 0
  | 5 => if accumulatorFrame + last_1 ≥ 1 then 1 else 0
  | 6 => if accumulatorFrame + last_1 + last_2 + last_3 + last_4 ≥ 1 then 1 else 0
  | 7 =>
    if accumulatorFrame + last_1 + last_2 + last_3 + last_4 + last_5 + last_6 + last_7 ≥ 1
    then 1 else 0
  | 8 => 1
  | _ => 0

/-- `buildPersistenceMap`: bit `phase` of entry `i` says whether the history `i` has enough frames
when `phase` is the position written next. -/
def buildPersistenceMap (persistenceMode : ℕ) : List (BitVec 8) :=
  let persistenceMapLUT := (List.range 256).map fun i => enoughFrames persistenceMode (.ofNat 8 i)
  (List.range 256).map fun i =>
    (List.range 8).foldl (fun credible phase =>
      let pos := (BitVec.ofNat 8 i <<< (8 - phase)) ||| (BitVec.ofNat 8 i >>> phase)
      if persistenceMapLUT.getD pos.toNat 0 ≠ 0 then credible ||| (1#8 <<< phase) else credible) 0

/-! ### The filter -/

/-- `MemSections`: a block of bytes, if it is allocated, and its size. -/
structure MemSections (β : Type) where
  mem : Option (List β) := none
  size : ℕ := 0

/-- The part of `allocateBuffers` for one block. A negative `frameSize` is a huge `size_t`. -/
def MemSections.allocate {β : Type} (section' : MemSections β) (zero : β) (frameSize : ℤ) :
    Except Fault (MemSections β) :=
  let size := (frameSize % 2 ^ 64).toNat
  let mem := if section'.size < size then none else section'.mem
  match mem with
  | some mem => .ok { section' with mem := some mem }
  | none =>
    if size < 2 ^ 63 then .ok ⟨some (List.replicate size zero), size⟩ else .error .lengthError

/-- `impl::TemporalFilter`. The pointers that `params` holds besides are those of the blocks, once
`Init` has returned. -/
structure TemporalFilter (K : Type) [Field K] where
  persistenceMode : ℕ := 255
  currFrameIdx : ℕ := 0
  alpha : K := 2 / 5
  delta : ℕ := 20
  rawAccumulatorFrame : MemSections UInt8 := {}
  rawHistoryFrame : MemSections (BitVec 8) := {}
  rawPersistenceMapLUT : MemSections (BitVec 8) := {}

section Filter

variable {K : Type} [Field K] [LinearOrder K] [FloorSemiring K]

namespace TemporalFilter

def allocateBuffers (filter : TemporalFilter K) (frameSize : ℤ) :
    Except Fault (TemporalFilter K) := do
  let rawAccumulatorFrame ← filter.rawAccumulatorFrame.allocate 0 frameSize
  let rawHistoryFrame ← filter.rawHistoryFrame.allocate 0 frameSize
  let rawPersistenceMapLUT ← filter.rawPersistenceMapLUT.allocate 0 256
  return { filter with rawAccumulatorFrame, rawHistoryFrame, rawPersistenceMapLUT }

/-- The mode is kept as a byte, and the table is built anew for another mode. -/
def setMode (filter : TemporalFilter K) (persistenceMode : ℕ) : TemporalFilter K :=
  if filter.persistenceMode ≠ persistenceMode then
    { filter with
      persistenceMode := persistenceMode % 256
      rawPersistenceMapLUT :=
        { filter.rawPersistenceMapLUT with
          mem := some (buildPersistenceMap (persistenceMode % 256)) } }
  else filter

/-- The two blocks are filled with zeros. -/
def resetBuffers (filter : TemporalFilter K) : TemporalFilter K :=
  { filter with
    currFrameIdx := 0
    rawAccumulatorFrame :=
      { filter.rawAccumulatorFrame with
        mem := filter.rawAccumulatorFrame.mem.map (·.map fun _ => 0) }
    rawHistoryFrame :=
      { filter.rawHistoryFrame with mem := filter.rawHistoryFrame.mem.map (·.map fun _ => 0) } }

/-- The part of `Init` after the allocation. `delta` is compared as it is given and kept as a
byte. -/
def configure (filter : TemporalFilter K) (alpha : K) (delta : ℤ) (persistenceMode : ℕ) :
    TemporalFilter K :=
  let changed := filter.persistenceMode ≠ persistenceMode ∨ alpha ≠ filter.alpha ∨
    delta ≠ filter.delta
  let filter := { filter.setMode persistenceMode with alpha := alpha, delta := (delta % 256).toNat }
  if changed then filter.resetBuffers else filter

/-- A `size_t` passed as an `int`. -/
def narrow (n : ℕ) : ℤ :=
  (n : ℤ).bmod (2 ^ 32)

/-- `Init`. The size is narrowed on the way to `allocateBuffers`. -/
def init (filter : TemporalFilter K) (frameSize : ℕ) (alpha : K) (delta : ℤ)
    (persistenceMode : ℕ) : Except Fault (TemporalFilter K) := do
  let filter ← filter.allocateBuffers (narrow frameSize)
  return filter.configure alpha delta persistenceMode

end TemporalFilter

/-- What the loop of `processImpl` writes: the pixels of the frame and the two blocks. -/
structure Buffers where
  data : List ℕ
  accumulatorFrame : List UInt8
  history : List (BitVec 8)
  deriving DecidableEq

/-- One round of the loop of `processImpl`. Whatever the branch, the round reads the accumulated
value and reads or writes the history. -/
def processAt (bytes : ℕ) (alpha : K) (delta : ℕ) (mask : BitVec 8)
    (persistenceMap : List (BitVec 8)) (buffers : Buffers) (i : ℕ) : Except Fault Buffers := do
  let currentVal ← orFault .outsideFrame buffers.data[i]?
  let previousVal ← orFault .outsideBuffer (WordArray.load bytes buffers.accumulatorFrame i)
  let hist ← orFault .outsideBuffer buffers.history[i]?
  let (value, accumulated, hist) :=
    processPixel bytes alpha delta mask persistenceMap currentVal previousVal hist
  return {
    data := buffers.data.set i value
    accumulatorFrame := WordArray.store bytes buffers.accumulatorFrame i accumulated
    history := buffers.history.set i hist }

/-- `processImpl<T>` for a type `T` of `bytes` bytes. -/
def processImpl (bytes : ℕ) (alpha : K) (delta currFrameIdx : ℕ)
    (persistenceMap : List (BitVec 8)) (frameSize : ℕ) (buffers : Buffers) :
    Except Fault Buffers :=
  (List.range frameSize).foldlM
    (processAt bytes alpha delta (1#8 <<< currFrameIdx) persistenceMap) buffers

namespace TemporalFilter

/-- `process`: the filter afterwards and the frame. A block that is not there is empty. -/
def process (filter : TemporalFilter K) (frame : ImgFrame) :
    Except Fault (TemporalFilter K × ImgFrame) := do
  let bytes ← bytesPerPixel frame.type
  let buffers ← processImpl bytes filter.alpha filter.delta filter.currFrameIdx
    (filter.rawPersistenceMapLUT.mem.getD []) frame.pixels
    ⟨frame.data, filter.rawAccumulatorFrame.mem.getD [], filter.rawHistoryFrame.mem.getD []⟩
  return (
    { filter with
      rawAccumulatorFrame :=
        { filter.rawAccumulatorFrame with mem := some buffers.accumulatorFrame }
      rawHistoryFrame := { filter.rawHistoryFrame with mem := some buffers.history }
      currFrameIdx := (filter.currFrameIdx + 1) % 8 },
    { frame with data := buffers.data })

end TemporalFilter

structure TemporalFilterWrapper (K : Type) [Field K] where
  isInitialized : Bool := false
  params : TemporalFilterParams K
  temporalFilter : TemporalFilter K := {}

namespace TemporalFilterWrapper

/-- What `process` does before it runs the filter, where it has not been initialised. -/
def ensureInitialized (wrapper : TemporalFilterWrapper K) (frame : ImgFrame) :
    Except Fault (TemporalFilterWrapper K) :=
  if wrapper.isInitialized then .ok wrapper
  else do
    let bytes ← bytesPerPixel frame.type
    let frameSize := (frame.height * frame.width).toNat * bytes
    let temporalFilter ← wrapper.temporalFilter.init frameSize wrapper.params.alpha
      wrapper.params.delta wrapper.params.persistencyMode.value
    return { wrapper with isInitialized := true, temporalFilter }

def process (wrapper : TemporalFilterWrapper K) (frame : ImgFrame) :
    Except Fault (TemporalFilterWrapper K × ImgFrame) :=
  if wrapper.params.enable then do
    let wrapper ← wrapper.ensureInitialized frame
    let (temporalFilter, frame) ← wrapper.temporalFilter.process frame
    return ({ wrapper with temporalFilter }, frame)
  else .ok (wrapper, frame)

def setParams (wrapper : TemporalFilterWrapper K) :
    FilterParams K → Except Fault (TemporalFilterWrapper K)
  | .temporal params => .ok { wrapper with params, isInitialized := false }
  | _ => .error .invalidParams

end TemporalFilterWrapper

/-! ### The loop over the pixels -/

/-- What the blocks and the frame hold of pixel `i`. -/
def Buffers.pixel (bytes : ℕ) (buffers : Buffers) (i : ℕ) : Option (ℕ × ℕ × BitVec 8) := do
  let value ← buffers.data[i]?
  let accumulated ← WordArray.load bytes buffers.accumulatorFrame i
  let hist ← buffers.history[i]?
  return (value, accumulated, hist)

/-- The frame and the two blocks keep their lengths. -/
structure Buffers.SameLengths (buffers buffers' : Buffers) : Prop where
  data : buffers'.data.length = buffers.data.length
  accumulatorFrame : buffers'.accumulatorFrame.length = buffers.accumulatorFrame.length
  history : buffers'.history.length = buffers.history.length

/-- The first `n` pixels are inside the frame and the two blocks. -/
structure Buffers.Inside (bytes n : ℕ) (buffers : Buffers) : Prop where
  data : n ≤ buffers.data.length
  accumulatorFrame : n * bytes ≤ buffers.accumulatorFrame.length
  history : n ≤ buffers.history.length

/-- `buffers'` is `buffers` with the first `n` pixels run through `processPixel`. The accumulated
value is kept in a word of `bytes` bytes. -/
structure Buffers.Processed (bytes : ℕ) (alpha : K) (delta : ℕ) (mask : BitVec 8)
    (persistenceMap : List (BitVec 8)) (n : ℕ) (buffers buffers' : Buffers) : Prop where
  lengths : buffers.SameLengths buffers'
  done : ∀ i < n, ∀ c p h, buffers.pixel bytes i = some (c, p, h) →
    buffers'.pixel bytes i =
      let out := processPixel bytes alpha delta mask persistenceMap c p h
      some (out.1, out.2.1 % 256 ^ bytes, out.2.2)
  left : ∀ i, n ≤ i → buffers'.pixel bytes i = buffers.pixel bytes i

section Loop

variable {bytes delta n i : ℕ} {alpha : K} {mask : BitVec 8} {persistenceMap : List (BitVec 8)}
  {buffers buffers' : Buffers}

omit [LinearOrder K] [FloorSemiring K] [Field K] in
theorem Buffers.Inside.word (h : buffers.Inside bytes n) (hi : i < n) :
    i * bytes + bytes ≤ buffers.accumulatorFrame.length := by
  have hword : (i + 1) * bytes ≤ n * bytes := Nat.mul_le_mul_right bytes hi
  rw [Nat.succ_mul] at hword
  exact hword.trans h.accumulatorFrame

theorem Buffers.Inside.exists_pixel (h : buffers.Inside bytes n) (hi : i < n) :
    ∃ c p hist, buffers.data[i]? = some c ∧
      WordArray.load bytes buffers.accumulatorFrame i = some p ∧ buffers.history[i]? = some hist :=
  ⟨_, _, _, List.getElem?_eq_getElem (hi.trans_le h.data), WordArray.load_of_le (h.word hi),
    List.getElem?_eq_getElem (hi.trans_le h.history)⟩

theorem Buffers.SameLengths.inside (h : buffers.SameLengths buffers')
    (hin : buffers.Inside bytes n) : buffers'.Inside bytes n where
  data := h.data ▸ hin.data
  accumulatorFrame := h.accumulatorFrame ▸ hin.accumulatorFrame
  history := h.history ▸ hin.history

/-- The pixels other than `i` are left alone by round `i`. -/
theorem Buffers.pixel_set_of_ne {v a : ℕ} {hist : BitVec 8} {j : ℕ} (hij : i ≠ j)
    (hin : i * bytes + bytes ≤ buffers.accumulatorFrame.length) :
    Buffers.pixel bytes ⟨buffers.data.set i v,
      WordArray.store bytes buffers.accumulatorFrame i a, buffers.history.set i hist⟩ j =
      buffers.pixel bytes j := by
  simp only [Buffers.pixel]
  rw [List.getElem?_set_ne hij, List.getElem?_set_ne hij, WordArray.load_store_of_ne hin a hij]

theorem Buffers.pixel_set_self {v a : ℕ} {hist : BitVec 8} (hin : buffers.Inside bytes n)
    (hi : i < n) :
    Buffers.pixel bytes ⟨buffers.data.set i v,
      WordArray.store bytes buffers.accumulatorFrame i a, buffers.history.set i hist⟩ i =
      some (v, a % 256 ^ bytes, hist) := by
  simp only [Buffers.pixel]
  rw [List.getElem?_set_self (hi.trans_le hin.data), WordArray.load_store_self (hin.word hi),
    List.getElem?_set_self (hi.trans_le hin.history)]
  rfl

theorem Buffers.Processed.next
    (h : Buffers.Processed bytes alpha delta mask persistenceMap i buffers buffers')
    (hin : buffers.Inside bytes n) (hi : i < n) :
    ∃ t, processAt bytes alpha delta mask persistenceMap buffers' i = .ok t ∧
      Buffers.Processed bytes alpha delta mask persistenceMap (i + 1) buffers t := by
  have hin' := h.lengths.inside hin
  obtain ⟨c, p, hist, hc, hp, hhist⟩ := hin'.exists_pixel hi
  have hpixel : buffers'.pixel bytes i = some (c, p, hist) := by
    simp only [Buffers.pixel, hc, hp, hhist]
    rfl
  refine ⟨_, by rw [processAt, hc, hp, hhist]; rfl, ⟨?_, ?_, ?_⟩, ?_, ?_⟩
  · exact List.length_set.trans h.lengths.data
  · exact (WordArray.length_store (hin'.word hi) _).trans h.lengths.accumulatorFrame
  · exact List.length_set.trans h.lengths.history
  · intro j hj c' p' h' hj'
    rcases Nat.lt_succ_iff_lt_or_eq.1 hj with hj | rfl
    · rw [Buffers.pixel_set_of_ne (Nat.ne_of_gt hj) (hin'.word hi)]
      exact h.done j hj c' p' h' hj'
    · have hsame : some (c, p, hist) = some (c', p', h') := by
        rw [← hpixel, ← hj', h.left j le_rfl]
      cases hsame
      exact Buffers.pixel_set_self hin' hi
  · intro j hj
    rw [Buffers.pixel_set_of_ne (Nat.ne_of_lt hj) (hin'.word hi)]
    exact h.left j (Nat.le_of_succ_le hj)

/-- **The loop over the pixels, pixel by pixel.** -/
theorem processImpl_spec (alpha : K) (delta currFrameIdx : ℕ) (persistenceMap : List (BitVec 8))
    (hin : buffers.Inside bytes n) :
    ∃ t, processImpl bytes alpha delta currFrameIdx persistenceMap n buffers = .ok t ∧
      Buffers.Processed bytes alpha delta (RotatingWindow.bit 8 currFrameIdx) persistenceMap n
        buffers t := by
  have hstart : Buffers.Processed bytes alpha delta (RotatingWindow.bit 8 currFrameIdx)
      persistenceMap 0 buffers buffers :=
    ⟨⟨rfl, rfl, rfl⟩, fun i hi => absurd hi (Nat.not_lt_zero i), fun i _ => rfl⟩
  exact Loop.exists_foldlM_range_eq_ok
    (I := fun k => Buffers.Processed bytes alpha delta (RotatingWindow.bit 8 currFrameIdx)
      persistenceMap k buffers) hstart fun k hk s hs => hs.next hin hk

/-- A pixel whose word is not inside the block stops the loop. -/
theorem processImpl_of_outside {currFrameIdx : ℕ} (hdata : n ≤ buffers.data.length)
    (hsame : buffers.history.length = buffers.accumulatorFrame.length) (hbytes : 0 < bytes)
    (hout : buffers.accumulatorFrame.length < n * bytes) :
    processImpl bytes alpha delta currFrameIdx persistenceMap n buffers =
      .error .outsideBuffer := by
  -- the pixels before the first one that is outside
  obtain ⟨k, hk⟩ : ∃ k, k = buffers.accumulatorFrame.length / bytes := ⟨_, rfl⟩
  have hkn : k < n := by rw [hk]; exact (Nat.div_lt_iff_lt_mul hbytes).2 hout
  have hfit : k * bytes ≤ buffers.accumulatorFrame.length := by
    rw [hk]; exact Nat.div_mul_le_self _ _
  have hpast : buffers.accumulatorFrame.length < k * bytes + bytes := by
    rw [hk]; exact Nat.lt_div_mul_add hbytes
  have hin : buffers.Inside bytes k :=
    ⟨hkn.le.trans hdata, hfit, by rw [hsame, hk]; exact Nat.div_le_self _ _⟩
  obtain ⟨t, ht, hdone⟩ := processImpl_spec alpha delta currFrameIdx persistenceMap hin
  have hrange : List.range n = List.range k ++ k :: List.range' (k + 1) (n - (k + 1)) := by
    have hsplit : List.range' 0 k ++ List.range' (0 + k) (n - k) = List.range' 0 (k + (n - k)) :=
      List.range'_append_1
    rw [Nat.zero_add, Nat.add_sub_cancel' hkn.le, show n - k = n - (k + 1) + 1 by omega,
      List.range'_succ] at hsplit
    rw [List.range_eq_range', List.range_eq_range', hsplit]
  have hvalue : ∃ c, t.data[k]? = some c :=
    ⟨_, List.getElem?_eq_getElem (by rw [hdone.lengths.data]; exact hkn.trans_le hdata)⟩
  obtain ⟨c, hc⟩ := hvalue
  have hload : WordArray.load bytes t.accumulatorFrame k = none :=
    WordArray.load_eq_none_iff.2 (by rw [hdone.lengths.accumulatorFrame]; exact hpast)
  rw [processImpl] at ht ⊢
  rw [hrange, List.foldlM_append, ht, Loop.ok_bind, List.foldlM_cons, processAt, hc, hload]
  rfl

end Loop

/-! ### The size of the blocks -/

/-- One call of the wrapper. -/
inductive Call (K : Type) [Field K]
  | setParams (params : FilterParams K)
  | process (frame : ImgFrame)

namespace TemporalFilterWrapper

/-- The wrapper after a call. -/
def call (wrapper : TemporalFilterWrapper K) : Call K → Except Fault (TemporalFilterWrapper K)
  | .setParams params => wrapper.setParams params
  | .process frame => do
    let (wrapper, _) ← wrapper.process frame
    return wrapper

/-- The calls of a filter that is created with `params`. -/
def run (params : TemporalFilterParams K) (calls : List (Call K)) :
    Except Fault (TemporalFilterWrapper K) :=
  calls.foldlM call { params }

end TemporalFilterWrapper

/-- What the calls do to the size of the blocks: whether the filter is enabled, whether the next
frame initialises it, and how many bytes each of the two blocks has. -/
structure Sizing where
  enabled : Bool
  pending : Bool
  capacity : ℕ
  deriving DecidableEq, Repr

namespace Sizing

/-- The blocks are made to hold `needed` bytes, counted in an `int`, if the filter is not
initialised. A negative count throws. -/
def resize (sizing : Sizing) (needed : ℕ) : Option Sizing :=
  if sizing.pending then
    if TemporalFilter.narrow needed < 0 then none
    else some { sizing with
      pending := false, capacity := max sizing.capacity (TemporalFilter.narrow needed).toNat }
  else some sizing

/-- The calls go through and every frame that the filter sees fits the blocks as they are by then,
up to a call that throws. -/
def Fits (sizing : Sizing) : List (Call K) → Prop
  | [] => True
  | .setParams (.temporal params) :: calls =>
    Fits { sizing with enabled := params.enable, pending := true } calls
  | .setParams _ :: _ => True
  | .process frame :: calls =>
    if sizing.enabled then
      match bytesPerPixel frame.type with
      | .error _ => True
      | .ok bytes =>
        match sizing.resize (frame.pixels * bytes) with
        | none => True
        | some sizing => frame.pixels * bytes ≤ sizing.capacity ∧ Fits sizing calls
    else Fits sizing calls

end Sizing

/-- The block has `n` bytes, none of them before it is allocated. -/
structure MemSections.Holds {β : Type} (n : ℕ) (block : MemSections β) : Prop where
  size : block.size = n
  length : (block.mem.getD []).length = n

/-- The state of the wrapper is the one that `sizing` tells. -/
structure TemporalFilterWrapper.Sized (wrapper : TemporalFilterWrapper K) (sizing : Sizing) :
    Prop where
  enabled : wrapper.params.enable = sizing.enabled
  pending : wrapper.isInitialized = !sizing.pending
  accumulator : wrapper.temporalFilter.rawAccumulatorFrame.Holds sizing.capacity
  history : wrapper.temporalFilter.rawHistoryFrame.Holds sizing.capacity
  bounded : sizing.capacity < 2 ^ 31

section Sizes

variable {β : Type} {n bytes : ℕ} {alpha : K} {delta : ℤ} {persistenceMode : ℕ}
  {filter : TemporalFilter K} {frame : ImgFrame} {wrapper : TemporalFilterWrapper K}
  {sizing : Sizing}

theorem bytesPerPixel_pos {type : FrameType} (h : bytesPerPixel type = .ok bytes) : 0 < bytes := by
  cases type with
  | RAW8 => cases h; exact Nat.one_pos
  | RAW16 => cases h; exact Nat.two_pos
  | other => cases h

theorem bytesPerPixel_error {type : FrameType} {fault : Fault}
    (h : bytesPerPixel type = .error fault) : fault = .unsupportedType := by
  cases type with
  | RAW8 => cases h
  | RAW16 => cases h
  | other => cases h; rfl

/-- A count that is not negative is allocated, if the block does not hold it yet. -/
theorem MemSections.Holds.allocate {block : MemSections β} (h : block.Holds n) (zero : β)
    {frameSize : ℤ} (hpos : 0 ≤ frameSize) (hlt : frameSize < 2 ^ 31) :
    ∃ block', block.allocate zero frameSize = .ok block' ∧
      block'.Holds (max n frameSize.toNat) := by
  have hsize : (frameSize % 2 ^ 64).toNat = frameSize.toNat := by
    rw [Int.emod_eq_of_lt hpos (by omega)]
  have hsmall : frameSize.toNat < 2 ^ 63 := by omega
  have hfresh (hle : n ≤ frameSize.toNat) : MemSections.Holds (max n frameSize.toNat)
      (⟨some (List.replicate frameSize.toNat zero), frameSize.toNat⟩ : MemSections β) :=
    ⟨(max_eq_right hle).symm, by rw [Option.getD_some, List.length_replicate, max_eq_right hle]⟩
  rw [MemSections.allocate, hsize, h.size]
  by_cases hgrow : n < frameSize.toNat
  · simp only [if_pos hgrow, if_pos hsmall]
    exact ⟨_, rfl, hfresh hgrow.le⟩
  · simp only [if_neg hgrow]
    cases hmem : block.mem with
    | none =>
      have hzero : n = 0 := by simpa [hmem] using h.length.symm
      simp only [if_pos hsmall]
      exact ⟨_, rfl, hfresh (hzero ▸ Nat.zero_le _)⟩
    | some mem =>
      have hmax : max n frameSize.toNat = n := max_eq_left (Nat.le_of_not_lt hgrow)
      have hlength := h.length
      rw [hmem] at hlength
      exact ⟨_, rfl, hmax.symm, hlength.trans hmax.symm⟩

theorem MemSections.Holds.allocate_of_neg {block : MemSections β} (h : block.Holds n) (zero : β)
    (hn : n < 2 ^ 31) {frameSize : ℤ} (hneg : frameSize < 0) (hge : -2 ^ 31 ≤ frameSize) :
    block.allocate zero frameSize = .error .lengthError := by
  have hsize : (frameSize % 2 ^ 64).toNat = (frameSize + 2 ^ 64).toNat := by
    rw [← Int.add_emod_right, Int.emod_eq_of_lt (by omega) (by omega)]
  rw [MemSections.allocate, hsize, h.size]
  simp only [if_pos (show n < (frameSize + 2 ^ 64).toNat by omega),
    if_neg (show ¬(frameSize + 2 ^ 64).toNat < 2 ^ 63 by omega)]

theorem exists_allocate_table (block : MemSections (BitVec 8)) :
    ∃ block', block.allocate 0 256 = .ok block' := by
  rw [MemSections.allocate]
  split
  · exact ⟨_, rfl⟩
  · exact ⟨_, rfl⟩

omit [FloorSemiring K] in
theorem TemporalFilter.holds_configure
    (hacc : filter.rawAccumulatorFrame.Holds n) (hhist : filter.rawHistoryFrame.Holds n) :
    (filter.configure alpha delta persistenceMode).rawAccumulatorFrame.Holds n ∧
      (filter.configure alpha delta persistenceMode).rawHistoryFrame.Holds n := by
  have hreset {γ : Type} {block : MemSections γ} (zero : γ) (h : block.Holds n) :
      MemSections.Holds n { block with mem := block.mem.map (·.map fun _ => zero) } := by
    refine ⟨h.size, ?_⟩
    rw [← h.length]
    cases block.mem with
    | none => rfl
    | some mem => exact List.length_map _
  have hacc' : (filter.setMode persistenceMode).rawAccumulatorFrame.Holds n := by
    rw [TemporalFilter.setMode]
    split <;> exact hacc
  have hhist' : (filter.setMode persistenceMode).rawHistoryFrame.Holds n := by
    rw [TemporalFilter.setMode]
    split <;> exact hhist
  simp only [TemporalFilter.configure]
  split
  · exact ⟨hreset 0 hacc', hreset 0 hhist'⟩
  · exact ⟨hacc', hhist'⟩

theorem TemporalFilter.narrow_lt (needed : ℕ) : narrow needed < 2 ^ 31 := by
  have hlt := Int.bmod_lt (x := needed) (m := 4294967296) (by decide)
  show (needed : ℤ).bmod 4294967296 < 2147483648
  omega

theorem TemporalFilter.le_narrow (needed : ℕ) : -2 ^ 31 ≤ narrow needed := by
  have hle := Int.le_bmod (x := needed) (m := 4294967296) (by decide)
  show -2147483648 ≤ (needed : ℤ).bmod 4294967296
  omega

omit [FloorSemiring K] in
theorem TemporalFilter.init_spec (needed : ℕ) (alpha : K) (delta : ℤ) (persistenceMode : ℕ)
    (hacc : filter.rawAccumulatorFrame.Holds n) (hhist : filter.rawHistoryFrame.Holds n)
    (hpos : 0 ≤ narrow needed) :
    ∃ filter', filter.init needed alpha delta persistenceMode = .ok filter' ∧
      filter'.rawAccumulatorFrame.Holds (max n (narrow needed).toNat) ∧
      filter'.rawHistoryFrame.Holds (max n (narrow needed).toNat) := by
  obtain ⟨a, ha, hacc'⟩ := hacc.allocate (0 : UInt8) hpos (narrow_lt needed)
  obtain ⟨b, hb, hhist'⟩ := hhist.allocate (0 : BitVec 8) hpos (narrow_lt needed)
  obtain ⟨c, hc⟩ := exists_allocate_table filter.rawPersistenceMapLUT
  have hinit : filter.init needed alpha delta persistenceMode =
      .ok (TemporalFilter.configure { filter with
        rawAccumulatorFrame := a, rawHistoryFrame := b, rawPersistenceMapLUT := c }
        alpha delta persistenceMode) := by
    rw [TemporalFilter.init, TemporalFilter.allocateBuffers, ha, hb, hc]
    rfl
  exact ⟨_, hinit, TemporalFilter.holds_configure hacc' hhist'⟩

omit [FloorSemiring K] in
/-- `Init` throws where the count is negative as an `int`. -/
theorem TemporalFilter.init_of_neg (needed : ℕ) (hn : n < 2 ^ 31)
    (hacc : filter.rawAccumulatorFrame.Holds n) (hneg : narrow needed < 0) :
    filter.init needed alpha delta persistenceMode = .error .lengthError := by
  rw [TemporalFilter.init, TemporalFilter.allocateBuffers,
    hacc.allocate_of_neg (0 : UInt8) hn hneg (le_narrow needed)]
  rfl

/-- A frame that fits the blocks is run through them, and they keep their size. -/
theorem TemporalFilter.process_of_fits (hacc : filter.rawAccumulatorFrame.Holds n)
    (hhist : filter.rawHistoryFrame.Holds n) (hframe : frame.Enough)
    (hbytes : bytesPerPixel frame.type = .ok bytes) (hfit : frame.pixels * bytes ≤ n) :
    ∃ out, filter.process frame = .ok out ∧
      out.1.rawAccumulatorFrame.Holds n ∧ out.1.rawHistoryFrame.Holds n := by
  have hpixels : frame.pixels ≤ frame.pixels * bytes :=
    Nat.le_mul_of_pos_right _ (bytesPerPixel_pos hbytes)
  have hin : Buffers.Inside bytes frame.pixels ⟨frame.data,
      filter.rawAccumulatorFrame.mem.getD [], filter.rawHistoryFrame.mem.getD []⟩ :=
    ⟨hframe, by rw [hacc.length]; exact hfit, by rw [hhist.length]; exact hpixels.trans hfit⟩
  obtain ⟨t, ht, hdone⟩ := processImpl_spec filter.alpha filter.delta filter.currFrameIdx
    (filter.rawPersistenceMapLUT.mem.getD []) hin
  refine ⟨_, by rw [TemporalFilter.process, hbytes, Loop.ok_bind, ht]; rfl, ?_, ?_⟩
  · exact ⟨hacc.size, hdone.lengths.accumulatorFrame.trans hacc.length⟩
  · exact ⟨hhist.size, hdone.lengths.history.trans hhist.length⟩

theorem TemporalFilter.process_of_not_fits (hacc : filter.rawAccumulatorFrame.Holds n)
    (hhist : filter.rawHistoryFrame.Holds n) (hframe : frame.Enough)
    (hbytes : bytesPerPixel frame.type = .ok bytes) (hfit : n < frame.pixels * bytes) :
    filter.process frame = .error .outsideBuffer := by
  have hout : (filter.rawAccumulatorFrame.mem.getD []).length < frame.pixels * bytes := by
    rw [hacc.length]
    exact hfit
  rw [TemporalFilter.process, hbytes, Loop.ok_bind, processImpl_of_outside hframe
    (hhist.length.trans hacc.length.symm) (bytesPerPixel_pos hbytes) hout]
  rfl

namespace TemporalFilterWrapper

omit [FloorSemiring K] in
/-- The blocks are allocated for the byte count of the frame. -/
theorem ensureInitialized_eq (hinit : wrapper.isInitialized = false)
    (hbytes : bytesPerPixel frame.type = .ok bytes) :
    wrapper.ensureInitialized frame =
      (wrapper.temporalFilter.init (frame.pixels * bytes) wrapper.params.alpha wrapper.params.delta
        wrapper.params.persistencyMode.value).map
          fun temporalFilter => { wrapper with isInitialized := true, temporalFilter } := by
  have hsize : (frame.height * frame.width).toNat = frame.pixels := by
    rw [ImgFrame.pixels, UInt32.mul_comm]
  rw [ensureInitialized, if_neg (by rw [hinit]; exact Bool.false_ne_true), hbytes, Loop.ok_bind,
    ← hsize]
  show (wrapper.temporalFilter.init ((frame.height * frame.width).toNat * bytes) _ _ _ >>= _) = _
  cases wrapper.temporalFilter.init ((frame.height * frame.width).toNat * bytes)
    wrapper.params.alpha wrapper.params.delta wrapper.params.persistencyMode.value with
  | error fault => rfl
  | ok filter' => rfl

omit [FloorSemiring K] in
/-- The first frame that the filter sees allocates the blocks. -/
theorem Sized.ensureInitialized (h : wrapper.Sized sizing)
    (hbytes : bytesPerPixel frame.type = .ok bytes) {sizing' : Sizing}
    (hresize : sizing.resize (frame.pixels * bytes) = some sizing') :
    ∃ wrapper', wrapper.ensureInitialized frame = .ok wrapper' ∧ wrapper'.Sized sizing' := by
  rw [Sizing.resize] at hresize
  cases hp : sizing.pending with
  | false =>
    rw [hp] at hresize
    cases hresize
    rw [TemporalFilterWrapper.ensureInitialized, h.pending, hp]
    exact ⟨wrapper, rfl, h⟩
  | true =>
    simp only [hp, if_true, Option.ite_none_left_eq_some, not_lt] at hresize
    obtain ⟨hpos, hresize⟩ := hresize
    obtain ⟨filter', hinit, hacc, hhist⟩ := TemporalFilter.init_spec (frame.pixels * bytes)
      wrapper.params.alpha wrapper.params.delta wrapper.params.persistencyMode.value
      h.accumulator h.history hpos
    have hlt := TemporalFilter.narrow_lt (frame.pixels * bytes)
    rw [ensureInitialized_eq (by rw [h.pending, hp]; rfl) hbytes, hinit]
    cases hresize
    exact ⟨_, rfl, h.enabled, rfl, hacc, hhist, max_lt h.bounded (by omega)⟩

omit [FloorSemiring K] in
theorem Sized.ensureInitialized_of_none (h : wrapper.Sized sizing)
    (hbytes : bytesPerPixel frame.type = .ok bytes)
    (hresize : sizing.resize (frame.pixels * bytes) = none) :
    wrapper.ensureInitialized frame = .error .lengthError := by
  rw [Sizing.resize] at hresize
  cases hp : sizing.pending with
  | false =>
    rw [hp] at hresize
    exact absurd hresize (Option.some_ne_none _)
  | true =>
    have hneg : TemporalFilter.narrow (frame.pixels * bytes) < 0 := by
      by_contra hpos
      rw [hp, if_pos rfl, if_neg hpos] at hresize
      exact absurd hresize (Option.some_ne_none _)
    rw [ensureInitialized_eq (by rw [h.pending, hp]; rfl) hbytes,
      TemporalFilter.init_of_neg _ h.bounded h.accumulator hneg]
    rfl

/-- A frame of another type is refused by an enabled filter. -/
theorem call_of_unsupported (henable : wrapper.params.enable = true) {fault : Fault}
    (htype : bytesPerPixel frame.type = .error fault) :
    wrapper.call (.process frame) = .error .unsupportedType := by
  cases bytesPerPixel_error htype
  simp only [call, TemporalFilterWrapper.process, henable, if_true]
  rw [TemporalFilterWrapper.ensureInitialized]
  split
  · rw [Loop.ok_bind, TemporalFilter.process, htype]
    rfl
  · rw [htype]
    rfl

/-- The frame after which the blocks have the sizes of `sizing'` fits them, or is read outside. -/
theorem Sized.call_process (h : wrapper.Sized sizing) (henable : sizing.enabled = true)
    (hframe : frame.Enough) (hbytes : bytesPerPixel frame.type = .ok bytes) {sizing' : Sizing}
    (hresize : sizing.resize (frame.pixels * bytes) = some sizing') :
    (frame.pixels * bytes ≤ sizing'.capacity ∧
      ∃ wrapper', wrapper.call (.process frame) = .ok wrapper' ∧ wrapper'.Sized sizing') ∨
    (sizing'.capacity < frame.pixels * bytes ∧
      wrapper.call (.process frame) = .error .outsideBuffer) := by
  obtain ⟨w, hw, hs⟩ := h.ensureInitialized hbytes hresize
  simp only [call, TemporalFilterWrapper.process, h.enabled.trans henable, if_true, hw,
    Loop.ok_bind]
  rcases Nat.lt_or_ge sizing'.capacity (frame.pixels * bytes) with hout | hfit
  · refine .inr ⟨hout, ?_⟩
    rw [TemporalFilter.process_of_not_fits hs.accumulator hs.history hframe hbytes hout]
    rfl
  · obtain ⟨out, ho, hacc, hhist⟩ :=
      TemporalFilter.process_of_fits hs.accumulator hs.history hframe hbytes hfit
    refine .inl ⟨hfit, { w with temporalFilter := out.1 }, ?_, ?_⟩
    · rw [ho]
      rfl
    · exact ⟨hs.enabled, hs.pending, hacc, hhist, hs.bounded⟩

/-- From any state, the calls stay inside exactly if their frames fit. -/
theorem Sized.calls_inside_iff (h : wrapper.Sized sizing) {calls : List (Call K)}
    (hframes : ∀ frame, Call.process frame ∈ calls → frame.Enough) :
    calls.foldlM call wrapper ≠ .error .outsideBuffer ↔ sizing.Fits calls := by
  induction calls generalizing wrapper sizing with
  | nil =>
    simp only [List.foldlM_nil, Sizing.Fits, iff_true]
    exact nofun
  | cons c calls ih =>
    have hrest : ∀ frame, Call.process frame ∈ calls → frame.Enough := fun frame hf =>
      hframes frame (List.mem_cons_of_mem _ hf)
    rw [List.foldlM_cons]
    match c with
    | .setParams (.temporal params) =>
      have hset : TemporalFilterWrapper.Sized { wrapper with params, isInitialized := false }
          { sizing with enabled := params.enable, pending := true } :=
        ⟨rfl, rfl, h.accumulator, h.history, h.bounded⟩
      exact ih hset hrest
    | .setParams (.median params) => exact iff_of_true nofun trivial
    | .setParams (.spatial params) => exact iff_of_true nofun trivial
    | .setParams (.speckle params) => exact iff_of_true nofun trivial
    | .process frame =>
      rw [Sizing.Fits]
      cases henable : sizing.enabled with
      | false =>
        have hcall : wrapper.call (.process frame) = .ok wrapper := by
          simp only [call, TemporalFilterWrapper.process, h.enabled.trans henable]
          rfl
        rw [hcall, Loop.ok_bind]
        exact ih h hrest
      | true =>
        rw [if_pos rfl]
        cases hbytes : bytesPerPixel frame.type with
        | error fault =>
          rw [call_of_unsupported (h.enabled.trans henable) hbytes]
          exact iff_of_true nofun trivial
        | ok bytes =>
          simp only
          cases hresize : sizing.resize (frame.pixels * bytes) with
          | none =>
            simp only [call, TemporalFilterWrapper.process, h.enabled.trans henable, if_true,
              h.ensureInitialized_of_none hbytes hresize]
            exact iff_of_true nofun trivial
          | some sizing' =>
            rcases h.call_process henable (hframes frame List.mem_cons_self) hbytes hresize with
              ⟨hfit, w, hw, hs⟩ | ⟨hout, hw⟩
            · rw [hw, Loop.ok_bind, ih hs hrest]
              exact (and_iff_right hfit).symm
            · rw [hw]
              exact iff_of_false (fun hne => hne rfl) fun hfits => hout.not_ge hfits.1

/-- **The accesses are inside exactly if the frames fit.** Every enabled frame must need at most
as many bytes as the largest of the frames that the blocks were allocated for, which are the first
ones that the filter sees after it is created or gets new parameters. -/
theorem inside_iff (params : TemporalFilterParams K) (calls : List (Call K))
    (hframes : ∀ frame, Call.process frame ∈ calls → frame.Enough) :
    run params calls ≠ .error .outsideBuffer ↔
      Sizing.Fits ⟨params.enable, true, 0⟩ calls :=
  Sized.calls_inside_iff ⟨rfl, rfl, ⟨rfl, rfl⟩, ⟨rfl, rfl⟩, Nat.two_pow_pos 31⟩ hframes

end TemporalFilterWrapper

/-- A frame of one byte, and one of two. -/
def onePixel : ImgFrame := ⟨.RAW8, 1, 1, [7]⟩

def twoPixels : ImgFrame := ⟨.RAW8, 2, 1, [7, 7]⟩

/-- Both frames can be processed in this order or the other, by a filter that is set up anew for
the second one. -/
theorem inside_iff_reset :
    TemporalFilterWrapper.run (K := ℚ) { enable := true }
      [.process onePixel, .setParams (.temporal { enable := true }), .process twoPixels,
        .process onePixel] ≠ .error .outsideBuffer :=
  (TemporalFilterWrapper.inside_iff _ _ (by simp; decide)).2
    ⟨by decide, by decide, by decide, trivial⟩

/-- A larger frame after a smaller one is outside. -/
theorem not_inside_larger : ¬∀ calls : List (Call ℚ),
    (∀ frame, Call.process frame ∈ calls → frame.Enough) →
      TemporalFilterWrapper.run { enable := true } calls ≠ .error .outsideBuffer := by
  intro h
  refine h [.process onePixel, .process twoPixels] ?_ rfl
  simp only [List.mem_cons, List.not_mem_nil, or_false]
  rintro frame (hf | hf) <;> cases hf <;> decide

end Sizes

end Filter

end ImageFilters

end DepthaiCore
