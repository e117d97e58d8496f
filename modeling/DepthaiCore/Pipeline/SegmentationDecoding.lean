import DepthaiCore.Lib.BlockLayout
import DepthaiCore.Pipeline.SegmentationParserUtils

/-!
# The mask of a segmentation tensor

The mask should have a cell for every pixel that is looked at, with the first class that has the
highest score there, or the background if that score is not above the threshold. All traversals make
as many rounds as there are multiples of the step below an extent, and that is more than there are
cells when the step does not divide the extent.
-/

namespace DepthaiCore.NN

namespace Segmentation

open FloatingPoint

variable {info : TensorInfo Datum} {bytes : List UInt8} {config : SegmentationParserConfig}

/-! ### What the tensor says -/

/-- The place of an element, from the beginning of the tensor. -/
def place (info : TensorInfo Datum) (c y x : ℕ) : ℕ :=
  info.stride .C * c + info.stride .H * y + info.stride .W * x

/-- An element as it is stored. -/
def element (info : TensorInfo Datum) (bytes : List UInt8) (y x c : ℕ) : Datum :=
  DataType.datum info.dataType
    ((bytes.drop (info.offset.toNat + place info c y x)).take info.dataType.size)

/-- The number that a stored number stands for, without rounding. -/
def dequantize (info : TensorInfo Datum) : Datum → Datum
  | .num x =>
    match info.qpScale, info.qpZp with
    | .num scale, .num zp => .num ((x - zp) * scale)
    | _, _ => .nan
  | .inf negative => .inf negative
  | .nan => .nan

/-- The score of a class at a pixel. -/
def score (info : TensorInfo Datum) (bytes : List UInt8) (y x c : ℕ) : Extended :=
  (dequantize info (element info bytes y x c)).extended

/-- A tensor with the channels last, or in planes, whose elements are numbers and in the memory. -/
structure Tensor (info : TensorInfo Datum) (bytes : List UInt8) : Prop where
  order : info.order ∈ [StorageOrder.NHWC, .NHCW, .NCHW, .HWC, .CHW]
  rank : info.RightRank
  extents : ∀ axis ∈ [Axis.W, .H, .C], info.extent axis < 2 ^ 31
  inside : ∃ size, info.getTensorSize = some size ∧ info.offset.toNat + size ≤ bytes.length ∧
    ∀ c < info.extent .C, ∀ y < info.extent .H, ∀ x < info.extent .W,
      place info c y x + info.dataType.size ≤ size
  numbers : ∀ c < info.extent .C, ∀ y < info.extent .H, ∀ x < info.extent .W,
    element info bytes y x c ≠ .nan
  quantization : ∃ scale zp, info.qpScale = .num scale ∧ info.qpZp = .num zp ∧ 0 < scale

/-! ### What the mask should be -/

/-- A negative threshold is none. -/
def Above (config : SegmentationParserConfig) (s : Extended) : Prop :=
  config.confidenceThreshold.lt (.num 0) = true ∨ config.confidenceThreshold.extended < s

/-- A class is not the background. -/
def Foreground (info : TensorInfo Datum) (bytes : List UInt8) (backgroundClass : Bool) (y x c : ℕ) :
    Prop :=
  backgroundClass = true → score info bytes y x 0 < score info bytes y x c

/-- The value is the first class with the highest score, or the background if that does not suffice.
-/
def IsArgmax (info : TensorInfo Datum) (bytes : List UInt8) (config : SegmentationParserConfig)
    (backgroundClass : Bool) (y x : ℕ) (value : UInt8) : Prop :=
  ∃ c, FirstMaximum (score info bytes y x) (cStart backgroundClass) (info.extent .C) c ∧
    (value = BACKGROUND_INDEX ↔ ¬(Above config (score info bytes y x c) ∧
      Foreground info bytes backgroundClass y x c)) ∧
    (Above config (score info bytes y x c) ∧ Foreground info bytes backgroundClass y x c →
      value.toNat = c)

/-- The value is the class that is stored, as far as it has a number in the mask. -/
def IsStored (info : TensorInfo Datum) (bytes : List UInt8) (y x : ℕ) (value : UInt8) : Prop :=
  ∃ n : ℤ, element info bytes y x 0 = .num n ∧ (value.toNat : ℤ) = min (max n 0) 255

/-- The mask has a right value for every pixel that is looked at, and no others. -/
structure Decoded (info : TensorInfo Datum) (step : ℕ) (right : ℕ → ℕ → UInt8 → Prop)
    (mask : SegmentationMask) : Prop where
  width : mask.width = info.extent .W / step
  height : mask.height = info.extent .H / step
  length : mask.data.length = info.extent .H / step * (info.extent .W / step)
  pixel : ∀ y < info.extent .H / step, ∀ x < info.extent .W / step, ∃ value,
    mask.data[y * (info.extent .W / step) + x]? = some value ∧ right (y * step) (x * step) value

/-- The step divides the extents, and the cells of the mask have `int`s for indices. -/
structure Divides (info : TensorInfo Datum) (step : ℕ) : Prop where
  height : step ∣ info.extent .H
  width : step ∣ info.extent .W
  count : info.extent .H / step * (info.extent .W / step) ≤ 2 ^ 31

/-- The converted threshold decides as the threshold does, and class 255 is not taken for the
background. Where the background has the highest score this does not matter. -/
def Decisive (info : TensorInfo Datum) (bytes : List UInt8) (config : SegmentationParserConfig)
    (backgroundClass : Bool) (threshold : Datum) (y x : ℕ) : Prop :=
  ∀ c, FirstMaximum (score info bytes y x) (cStart backgroundClass) (info.extent .C) c →
    Foreground info bytes backgroundClass y x c →
      ((threshold.extended < (element info bytes y x c).extended ∧ c ≠ 255) ↔
        Above config (score info bytes y x c))

/-- When the mask of the classes with the highest scores is what it should be. -/
structure Regular (info : TensorInfo Datum) (bytes : List UInt8) (config : SegmentationParserConfig)
    (backgroundClass : Bool) : Prop where
  divides : Divides info config.stepSize.toNat
  threshold : ∃ threshold, getThreshold config info = .ok threshold ∧
    ∀ y < info.extent .H / config.stepSize.toNat, ∀ x < info.extent .W / config.stepSize.toNat,
      Decisive info bytes config backgroundClass threshold (y * config.stepSize.toNat)
        (x * config.stepSize.toNat)

/-! ### Rounds and cells -/

theorem rounds_eq {n step : ℕ} (hstep : 0 < step) (h : step ∣ n) : rounds n step = n / step := by
  obtain ⟨k, rfl⟩ := h
  rw [rounds, Nat.mul_div_cancel_left k hstep, Nat.add_sub_assoc hstep,
    Nat.mul_add_div hstep, Nat.div_eq_of_lt (by omega), Nat.add_zero]

theorem div_lt_rounds {n step : ℕ} (hstep : 0 < step) (h : ¬step ∣ n) : n / step < rounds n step := by
  have hmod : 0 < n % step := Nat.pos_of_ne_zero fun hzero => h (Nat.dvd_of_mod_eq_zero hzero)
  have hdiv := Nat.div_add_mod n step
  rw [rounds, Nat.lt_iff_add_one_le, Nat.le_div_iff_mul_le hstep, Nat.add_mul, Nat.one_mul,
    Nat.mul_comm]
  omega

theorem rounds_pos {n step : ℕ} (hstep : 0 < step) (hn : 0 < n) : 0 < rounds n step :=
  Nat.div_pos (by omega) hstep

theorem coordinateIndex_eq_ok {size dstWidth outY outX i : ℕ} :
    coordinateIndex size dstWidth outY outX = .ok i ↔
      i = outY * dstWidth + outX ∧ i < 2 ^ 31 ∧ i < size := by
  simp only [coordinateIndex]
  constructor
  · intro h
    split at h
    · exact nomatch h
    split at h
    · exact nomatch h
    obtain rfl := Except.ok.inj h
    omega
  · rintro ⟨rfl, hint, hsize⟩
    rw [if_neg (by omega), if_neg (by omega)]

/-- Every round finds its cell exactly when the step divides. -/
theorem divides_of_rounds {info : TensorInfo Datum} {step : ℕ} (hstep : 0 < step)
    (hH : 0 < info.extent .H) (hW : 0 < info.extent .W)
    (h : ∀ outY < rounds (info.extent .H) step, ∀ outX < rounds (info.extent .W) step, ∃ i,
      coordinateIndex (info.extent .H / step * (info.extent .W / step)) (info.extent .W / step) outY
        outX = .ok i) : Divides info step := by
  have hheight : step ∣ info.extent .H := by
    by_contra hndvd
    obtain ⟨i, hi⟩ := h _ (div_lt_rounds hstep hndvd) 0 (rounds_pos hstep hW)
    obtain ⟨rfl, -, hlt⟩ := coordinateIndex_eq_ok.1 hi
    omega
  have hpos : 0 < info.extent .H / step := by
    rw [← rounds_eq hstep hheight]
    exact rounds_pos hstep hH
  have hlast : (info.extent .H / step - 1) * (info.extent .W / step) + info.extent .W / step =
      info.extent .H / step * (info.extent .W / step) := by
    rw [← Nat.succ_mul, Nat.succ_eq_add_one, Nat.sub_add_cancel hpos]
  have hwidth : step ∣ info.extent .W := by
    by_contra hndvd
    obtain ⟨i, hi⟩ := h (info.extent .H / step - 1) (by rw [rounds_eq hstep hheight]; omega) _
      (div_lt_rounds hstep hndvd)
    obtain ⟨rfl, -, hlt⟩ := coordinateIndex_eq_ok.1 hi
    omega
  refine ⟨hheight, hwidth, ?_⟩
  obtain ⟨i, hi⟩ := h (info.extent .H / step - 1) (by rw [rounds_eq hstep hheight]; omega)
    (rounds (info.extent .W) step - 1) (Nat.sub_lt (rounds_pos hstep hW) Nat.one_pos)
  obtain ⟨rfl, hlt, -⟩ := coordinateIndex_eq_ok.1 hi
  have hrounds := rounds_pos hstep hW
  rw [rounds_eq hstep hwidth] at hlt hrounds
  omega

theorem Divides.coordinateIndex_eq {step outY outX : ℕ} (h : Divides info step)
    (hY : outY < info.extent .H / step) (hX : outX < info.extent .W / step) :
    coordinateIndex (info.extent .H / step * (info.extent .W / step)) (info.extent .W / step) outY
      outX = .ok (outY * (info.extent .W / step) + outX) := by
  have hcount := h.count
  have hmul : (outY + 1) * (info.extent .W / step) ≤ info.extent .H / step * (info.extent .W / step) :=
    Nat.mul_le_mul_right _ hY
  rw [Nat.succ_mul] at hmul
  exact coordinateIndex_eq_ok.2 ⟨rfl, by omega, by omega⟩

theorem mul_lt_of_lt_div {n step k : ℕ} (hstep : 0 < step) (h : k < n / step) : k * step < n := by
  have hle : (k + 1) * step ≤ n / step * step := Nat.mul_le_mul_right step h
  have hdiv := Nat.div_mul_le_self n step
  rw [Nat.succ_mul] at hle
  omega

/-! ### Reading the tensor -/

namespace Tensor

theorem table_eq (h : Tensor info bytes) :
    info.order ≠ .WHC ∧ info.order ≠ .HCW ∧ info.order ≠ .WCH ∧ info.order ≠ .CWH := by
  have horder := h.order
  refine ⟨?_, ?_, ?_, ?_⟩ <;>
  · intro heq
    rw [heq] at horder
    revert horder
    decide

theorem getWidth_eq (h : Tensor info bytes) : info.getWidth = .ok (info.extent .W : ℤ) :=
  (TensorInfo.dim_eq_iff h.rank (TensorInfo.getWidth.table_eq h.table_eq.1)).2
    (h.extents _ (by decide))

theorem getHeight_eq (h : Tensor info bytes) : info.getHeight = .ok (info.extent .H : ℤ) :=
  (TensorInfo.dim_eq_iff h.rank (TensorInfo.getHeight.table_eq _)).2 (h.extents _ (by decide))

theorem getChannels_eq (h : Tensor info bytes) : info.getChannels = .ok (info.extent .C : ℤ) :=
  (TensorInfo.dim_eq_iff h.rank (TensorInfo.getChannels.table_eq _)).2 (h.extents _ (by decide))

theorem getChannelStride_eq (h : Tensor info bytes) : info.getChannelStride = .ok (info.stride .C) :=
  (TensorInfo.stride_eq_iff h.rank).2
    (by rw [TensorInfo.getChannelStride.table_eq h.table_eq.1, TensorInfo.stride])

theorem getHeightStride_eq (h : Tensor info bytes) : info.getHeightStride = .ok (info.stride .H) :=
  (TensorInfo.stride_eq_iff h.rank).2
    (by rw [TensorInfo.getHeightStride.table_eq h.table_eq.2.2.1 h.table_eq.2.2.2, TensorInfo.stride])

theorem getWidthStride_eq (h : Tensor info bytes) : info.getWidthStride = .ok (info.stride .W) :=
  (TensorInfo.stride_eq_iff h.rank).2
    (by rw [TensorInfo.getWidthStride.table_eq h.table_eq.2.1, TensorInfo.stride])

theorem view_eq (h : Tensor info bytes) : view info = .ok ⟨info.extent .C, info.extent .W,
    info.extent .H, info.stride .C, info.stride .H, info.stride .W⟩ := by
  rw [view, h.getChannels_eq, h.getWidth_eq, h.getHeight_eq, h.getChannelStride_eq,
    h.getHeightStride_eq, h.getWidthStride_eq]
  rfl

theorem exists_span (h : Tensor info bytes) : ∃ span, tensorSpan bytes info = .ok span ∧
    ∀ c < info.extent .C, ∀ y < info.extent .H, ∀ x < info.extent .W,
      loadBytes span (place info c y x) info.dataType.size =
        .ok ((bytes.drop (info.offset.toNat + place info c y x)).take info.dataType.size) := by
  obtain ⟨size, hsize, hmemory, hinside⟩ := h.inside
  have hlength : ((bytes.drop info.offset.toNat).take size).length = size := by
    rw [List.length_take, List.length_drop]
    omega
  have hholds : BlockLayout.Holds bytes info.offset.toNat ((bytes.drop info.offset.toNat).take size) :=
    ⟨by omega, by rw [hlength]⟩
  refine ⟨(bytes.drop info.offset.toNat).take size, ?_, fun c hc y hy x hx => ?_⟩
  · rw [tensorSpan, hsize]
    exact if_neg (by omega)
  · have hle := hinside c hc y hy x hx
    rw [loadBytes, if_neg (by omega), hholds.take_drop (by omega)]

end Tensor

/-- The elements of the tensor are where the traversals look for them. -/
def Spans (info : TensorInfo Datum) (bytes span : List UInt8) : Prop :=
  ∀ c < info.extent .C, ∀ y < info.extent .H, ∀ x < info.extent .W,
    loadT info.dataType span (place info c y x) = .ok (element info bytes y x c)

theorem spans_of_loadBytes {span : List UInt8} (h : ∀ c < info.extent .C, ∀ y < info.extent .H,
    ∀ x < info.extent .W, loadBytes span (place info c y x) info.dataType.size =
      .ok ((bytes.drop (info.offset.toNat + place info c y x)).take info.dataType.size)) :
    Spans info bytes span := by
  intro c hc y hy x hx
  rw [loadT, h c hc y hy x hx]
  rfl

/-! ### One pixel -/

/-- What the traversals take from a tensor. -/
abbrev viewOf (info : TensorInfo Datum) : View :=
  ⟨info.extent .C, info.extent .W, info.extent .H, info.stride .C, info.stride .H, info.stride .W⟩

/-- The value that a pixel starts with. -/
def startOf (info : TensorInfo Datum) (bytes : List UInt8) (backgroundClass : Bool) (threshold : Datum)
    (y x : ℕ) : Datum :=
  if backgroundClass then (element info bytes y x 0).max threshold else threshold

/-- The best value of a pixel and its class, after a list of classes. -/
def bestOf (info : TensorInfo Datum) (bytes : List UInt8) (backgroundClass : Bool) (threshold : Datum)
    (classes : List ℕ) (y x : ℕ) : Datum × UInt8 :=
  classes.foldl (FirstMaximum.pass Datum.lt (element info bytes y x) UInt8.ofNat)
    (startOf info bytes backgroundClass threshold y x, BACKGROUND_INDEX)

/-- The classes that are looked at. -/
abbrev classesOf (info : TensorInfo Datum) (backgroundClass : Bool) : List ℕ :=
  List.range' (cStart backgroundClass) (info.extent .C - cStart backgroundClass)

variable {backgroundClass : Bool} {threshold : Datum} {span : List UInt8} {step : ℕ}

theorem lt_of_mem_classesOf {c : ℕ} (h : c ∈ classesOf info backgroundClass) : c < info.extent .C := by
  obtain ⟨hge, hlt⟩ := List.mem_range'_1.1 h
  omega

theorem place_zero (info : TensorInfo Datum) (y x : ℕ) :
    place info 0 y x = info.stride .H * y + info.stride .W * x := by
  rw [place, Nat.mul_zero, Nat.zero_add]

section Pixel

variable (hspans : Spans info bytes span) {y x : ℕ} (hy : y < info.extent .H) (hx : x < info.extent .W)
include hspans hy hx

theorem startVal_eq (hC : 0 < info.extent .C) :
    startVal info.dataType backgroundClass span threshold (info.stride .H * y + info.stride .W * x) =
      .ok (startOf info bytes backgroundClass threshold y x) := by
  have hload := hspans 0 hC y hy x hx
  rw [place_zero] at hload
  cases backgroundClass with
  | false => rfl
  | true =>
    rw [startVal, if_pos rfl, hload]
    rfl

theorem classRound_eq {c : ℕ} (hc : c < info.extent .C) (best : Datum × UInt8) :
    classRound info.dataType span (viewOf info) (info.stride .H * y + info.stride .W * x) best c =
      .ok (FirstMaximum.pass Datum.lt (element info bytes y x) UInt8.ofNat best c) := by
  have hload := hspans c hc y hy x hx
  have hplace : place info c y x =
      info.stride .H * y + info.stride .W * x + info.stride .C * c := by
    rw [place]
    omega
  rw [hplace] at hload
  rw [classRound, hload]
  rfl

end Pixel

/-! ### The traversals -/

/-- The number of cells of the mask. -/
abbrev cellCount (info : TensorInfo Datum) (step : ℕ) : ℕ :=
  info.extent .H / step * (info.extent .W / step)

/-- The cells of the mask after a list of classes, with the best values. -/
def cellOf (info : TensorInfo Datum) (bytes : List UInt8) (step : ℕ) (backgroundClass : Bool)
    (threshold : Datum) (classes : List ℕ) (k : ℕ) : Datum × UInt8 :=
  bestOf info bytes backgroundClass threshold classes (k / (info.extent .W / step) * step)
    (k % (info.extent .W / step) * step)

section Traversals

variable (hspans : Spans info bytes span) (hdivides : Divides info step) (hstep : 0 < step)
  (hC : 0 < info.extent .C)
include hspans hdivides hstep hC

theorem pixelRound_eq (p : ℕ → UInt8) {outY outX : ℕ} (hY : outY < info.extent .H / step)
    (hX : outX < info.extent .W / step) :
    pixelRound info.dataType backgroundClass span (viewOf info) step threshold
      (Grid.cells (cellCount info step) p) outY outX =
        .ok (Grid.cells (cellCount info step) (Function.update p (outY * (info.extent .W / step) + outX)
          (bestOf info bytes backgroundClass threshold (classesOf info backgroundClass) (outY * step)
            (outX * step)).2)) := by
  have hy := mul_lt_of_lt_div hstep hY
  have hx := mul_lt_of_lt_div hstep hX
  rw [pixelRound, startVal_eq hspans hy hx hC, Loop.ok_bind]
  show ((classesOf info backgroundClass).foldlM _ _ >>= _) = _
  rw [Loop.foldlM_eq_ok fun best c hc => classRound_eq hspans hy hx (lt_of_mem_classesOf hc) best,
    Loop.ok_bind, Grid.length_cells]
  show (coordinateIndex _ (info.extent .W / step) outY outX >>= _) = _
  rw [hdivides.coordinateIndex_eq hY hX, Loop.ok_bind, Grid.set_cells]
  rfl

/-- **With the channels last,** every cell gets the best class of its pixel. -/
theorem parseNHWCTensor_eq (p : ℕ → UInt8) :
    parseNHWCTensor info.dataType backgroundClass span (viewOf info) step threshold
      (Grid.cells (cellCount info step) p) =
        .ok (Grid.cells (cellCount info step) fun k => (cellOf info bytes step backgroundClass threshold
          (classesOf info backgroundClass) k).2) := by
  rw [parseNHWCTensor, rounds_eq hstep hdivides.height, rounds_eq hstep hdivides.width]
  rw [Grid.foldlM_eq_ok (S := Grid.cells (cellCount info step))
    (g := fun i j _ => (bestOf info bytes backgroundClass threshold (classesOf info backgroundClass)
      (i * step) (j * step)).2) fun p i j hi hj => pixelRound_eq hspans hdivides hstep hC p hi hj]
  exact congrArg Except.ok (Grid.cells_congr fun k hk => Grid.rowsDone_eq p hk)

theorem fillBestVals_eq (p : ℕ → Datum) :
    fillBestVals info.dataType backgroundClass span (viewOf info) step threshold
      (Grid.cells (cellCount info step) p) =
        .ok (Grid.cells (cellCount info step) fun k => (cellOf info bytes step backgroundClass threshold [] k).1) := by
  cases backgroundClass with
  | false =>
    rw [fillBestVals, if_neg (by decide), Grid.length_cells, Grid.replicate_eq_cells]
    rfl
  | true =>
    rw [fillBestVals, if_pos rfl, rounds_eq hstep hdivides.height, rounds_eq hstep hdivides.width,
      Grid.foldlM_eq_ok (S := Grid.cells (cellCount info step))
        (g := fun i j _ => startOf info bytes true threshold (i * step) (j * step))]
    · exact congrArg Except.ok (Grid.cells_congr fun k hk => Grid.rowsDone_eq p hk)
    · intro p i j hi hj
      have hload := hspans 0 hC _ (mul_lt_of_lt_div hstep hi) _ (mul_lt_of_lt_div hstep hj)
      rw [place_zero] at hload
      rw [fillRound, hload, Loop.ok_bind, Grid.length_cells]
      show (coordinateIndex _ (info.extent .W / step) i j >>= _) = _
      rw [hdivides.coordinateIndex_eq hi hj, Loop.ok_bind, Grid.set_cells]
      rfl

/-- The best values and the mask, as the traversal in planes keeps them. -/
def planes (info : TensorInfo Datum) (step : ℕ) (p : ℕ → Datum × UInt8) : List Datum × List UInt8 :=
  (Grid.cells (cellCount info step) fun k => (p k).1, Grid.cells (cellCount info step) fun k => (p k).2)

omit hspans hdivides hstep hC in
theorem planes_update (p : ℕ → Datum × UInt8) (i : ℕ) (best : Datum × UInt8) :
    planes info step (Function.update p i best) =
      ((planes info step p).1.set i best.1, (planes info step p).2.set i best.2) := by
  simp only [planes, Grid.set_cells]
  congr 2 <;>
  · funext k
    simp only [Function.update_apply]
    split <;> rfl

omit hC in
theorem planeRound_eq (p : ℕ → Datum × UInt8) {c outY outX : ℕ} (hc : c < info.extent .C)
    (hY : outY < info.extent .H / step) (hX : outX < info.extent .W / step) :
    planeRound info.dataType span (viewOf info) step c (planes info step p) outY outX =
      .ok (planes info step (Function.update p (outY * (info.extent .W / step) + outX)
        (FirstMaximum.pass Datum.lt (element info bytes (outY * step) (outX * step)) UInt8.ofNat
          (p (outY * (info.extent .W / step) + outX)) c))) := by
  have hload := hspans c hc _ (mul_lt_of_lt_div hstep hY) _ (mul_lt_of_lt_div hstep hX)
  have hindex := hdivides.coordinateIndex_eq hY hX
  obtain ⟨-, -, hlt⟩ := coordinateIndex_eq_ok.1 hindex
  rw [place] at hload
  rw [planeRound, hload, Loop.ok_bind]
  show (coordinateIndex (Grid.cells _ _).length (info.extent .W / step) outY outX >>= _) = _
  have hbest : bestValue (planes info step p).1 (outY * (info.extent .W / step) + outX) =
      .ok (p (outY * (info.extent .W / step) + outX)).1 := by
    rw [bestValue, planes, Grid.getElem?_cells hlt]
  rw [Grid.length_cells, hindex, Loop.ok_bind, hbest, Loop.ok_bind]
  show (Except.ok (if _ then _ else _) : Except Failure _) = _
  rw [FirstMaximum.pass]
  split
  · rw [planes_update]
  · rw [Function.update_eq_self]

omit hC in
/-- One plane: the best values of all pixels are compared with one class. -/
theorem plane_eq (classes : List ℕ) {c : ℕ} (hc : c < info.extent .C) :
    (List.range (rounds (viewOf info).height step)).foldlM (fun state outY =>
      (List.range (rounds (viewOf info).width step)).foldlM (fun state outX =>
        planeRound info.dataType span (viewOf info) step c state outY outX) state)
      (planes info step (cellOf info bytes step backgroundClass threshold classes)) =
        .ok (planes info step (cellOf info bytes step backgroundClass threshold (classes ++ [c]))) := by
  rw [rounds_eq hstep hdivides.height, rounds_eq hstep hdivides.width,
    Grid.foldlM_eq_ok (S := planes info step)
      (g := fun i j best => FirstMaximum.pass Datum.lt (element info bytes (i * step) (j * step))
        UInt8.ofNat best c) fun p i j hi hj => planeRound_eq hspans hdivides hstep p hc hi hj]
  have hcell : ∀ k < cellCount info step, Grid.rowsDone (fun i j best => FirstMaximum.pass Datum.lt
      (element info bytes (i * step) (j * step)) UInt8.ofNat best c) (info.extent .W / step)
        (info.extent .H / step) (cellOf info bytes step backgroundClass threshold classes) k =
          cellOf info bytes step backgroundClass threshold (classes ++ [c]) k := by
    intro k hk
    rw [Grid.rowsDone_eq _ hk, cellOf, cellOf, bestOf, bestOf, List.foldl_append]
    rfl
  refine congrArg Except.ok (Prod.ext ?_ ?_)
  · exact Grid.cells_congr fun k hk => congrArg Prod.fst (hcell k hk)
  · exact Grid.cells_congr fun k hk => congrArg Prod.snd (hcell k hk)

/-- **In planes,** every cell gets the best class of its pixel as well. -/
theorem parseNCHWTensor_eq (left : List Datum) :
    parseNCHWTensor info.dataType backgroundClass span (viewOf info) step threshold left
      (Grid.cells (cellCount info step) fun _ => BACKGROUND_INDEX) =
        .ok (Grid.cells (cellCount info step) fun k => (cellOf info bytes step backgroundClass threshold
          (classesOf info backgroundClass) k).2) := by
  have hplanes : ∀ rest classes : List ℕ, (∀ c ∈ rest, c < info.extent .C) →
      rest.foldlM (fun state c => (List.range (rounds (viewOf info).height step)).foldlM
        (fun state outY => (List.range (rounds (viewOf info).width step)).foldlM (fun state outX =>
          planeRound info.dataType span (viewOf info) step c state outY outX) state) state)
        (planes info step (cellOf info bytes step backgroundClass threshold classes)) =
          .ok (planes info step (cellOf info bytes step backgroundClass threshold (classes ++ rest))) := by
    intro rest
    induction rest with
    | nil =>
      intro classes _
      rw [List.append_nil]
      rfl
    | cons c rest ih =>
      intro classes hrest
      rw [List.foldlM_cons, plane_eq hspans hdivides hstep classes (hrest c List.mem_cons_self),
        Loop.ok_bind, ih _ fun c hc => hrest c (List.mem_cons_of_mem _ hc), List.append_assoc]
      rfl
  have hall := hplanes (classesOf info backgroundClass) [] fun c hc => lt_of_mem_classesOf hc
  rw [parseNCHWTensor, Grid.length_cells, fillBestVals_eq hspans hdivides hstep hC, Loop.ok_bind]
  rw [List.nil_append] at hall
  show ((classesOf info backgroundClass).foldlM _ (planes info step
    (cellOf info bytes step backgroundClass threshold [])) >>= _) = _
  rw [hall]
  rfl

/-- **Both traversals compute the same cells.** -/
theorem tensorArgmax_eq (left : List Datum) :
    tensorArgmax info.dataType backgroundClass span (viewOf info) step threshold info.order left
      (Grid.cells (cellCount info step) fun _ => BACKGROUND_INDEX) =
        .ok (Grid.cells (cellCount info step) fun k => (cellOf info bytes step backgroundClass threshold
          (classesOf info backgroundClass) k).2) := by
  rw [tensorArgmax]
  split
  · exact parseNHWCTensor_eq hspans hdivides hstep hC _
  · exact parseNCHWTensor_eq hspans hdivides hstep hC left

end Traversals

/-! ### Traversals that end -/

section Ends

variable {N : ℕ} {v : View}

theorem coordinateIndex_of_pixelRound {dst dst' : List UInt8} {outY outX : ℕ}
    (h : pixelRound info.dataType backgroundClass span v step threshold dst outY outX = .ok dst') :
    dst'.length = dst.length ∧
      ∃ i, coordinateIndex dst.length (v.width / step) outY outX = .ok i := by
  obtain ⟨bestVal, -, h⟩ := Loop.bind_eq_ok.1 h
  obtain ⟨best, -, h⟩ := Loop.bind_eq_ok.1 h
  obtain ⟨i, hi, h⟩ := Loop.bind_eq_ok.1 h
  obtain rfl := Except.ok.inj h
  exact ⟨List.length_set, i, hi⟩

theorem coordinateIndex_of_planeRound {c : ℕ} {state state' : List Datum × List UInt8}
    {outY outX : ℕ}
    (h : planeRound info.dataType span v step c state outY outX = .ok state') :
    state'.2.length = state.2.length ∧
      ∃ i, coordinateIndex state.2.length (v.width / step) outY outX = .ok i := by
  obtain ⟨x, -, h⟩ := Loop.bind_eq_ok.1 h
  obtain ⟨i, hi, h⟩ := Loop.bind_eq_ok.1 h
  obtain ⟨best, -, h⟩ := Loop.bind_eq_ok.1 h
  obtain rfl := Except.ok.inj h
  refine ⟨?_, i, hi⟩
  split
  · exact List.length_set
  · rfl

theorem coordinateIndex_of_copyRound {strideH strideW dstWidth : ℕ} {dst dst' : List UInt8}
    {outY outX : ℕ} (h : copyRound span strideH strideW dstWidth step dst outY outX = .ok dst') :
    dst'.length = dst.length ∧ ∃ i, coordinateIndex dst.length dstWidth outY outX = .ok i := by
  obtain ⟨bytes, -, h⟩ := Loop.bind_eq_ok.1 h
  obtain ⟨i, hi, h⟩ := Loop.bind_eq_ok.1 h
  obtain rfl := Except.ok.inj h
  exact ⟨List.length_set, i, hi⟩

/-- A traversal with the channels last that ends finds all its cells. -/
theorem coordinateIndex_of_parseNHWCTensor {dst dst' : List UInt8}
    (h : parseNHWCTensor info.dataType backgroundClass span v step threshold dst = .ok dst')
    {outY outX : ℕ} (hY : outY < rounds v.height step) (hX : outX < rounds v.width step) :
    ∃ i, coordinateIndex dst.length (v.width / step) outY outX = .ok i := by
  obtain ⟨u, w, hu, huw⟩ := Grid.exists_round (I := fun s => s.length = dst.length)
    (fun s i j t hs hst => (coordinateIndex_of_pixelRound hst).1.trans hs) rfl h hY hX
  rw [← hu]
  exact (coordinateIndex_of_pixelRound huw).2

/-- So does one in planes, if there is a class to be looked at. -/
theorem coordinateIndex_of_parseNCHWTensor {left : List Datum} {dst dst' : List UInt8}
    (hclasses : cStart backgroundClass < v.channels)
    (h : parseNCHWTensor info.dataType backgroundClass span v step threshold left dst = .ok dst')
    {outY outX : ℕ} (hY : outY < rounds v.height step) (hX : outX < rounds v.width step) :
    ∃ i, coordinateIndex dst.length (v.width / step) outY outX = .ok i := by
  obtain ⟨bestValues, -, h⟩ := Loop.bind_eq_ok.1 h
  obtain ⟨state, h, -⟩ := Loop.bind_eq_ok.1 h
  have hkeep : ∀ c (s : List Datum × List UInt8) i j t, s.2.length = dst.length →
      planeRound info.dataType span v step c s i j = .ok t → t.2.length = dst.length :=
    fun c s i j t hs hst => (coordinateIndex_of_planeRound hst).1.trans hs
  obtain ⟨u, w, hu, huw⟩ := Loop.exists_round (I := fun s => s.2.length = dst.length)
    (fun s c t hs hst => Grid.invariant (I := fun s => s.2.length = dst.length) (hkeep c) hs hst) rfl h
    (List.mem_range'_1.2 ⟨le_refl (cStart backgroundClass), by omega⟩)
  obtain ⟨u', w', hu', huw'⟩ := Grid.exists_round (I := fun s => s.2.length = dst.length) (hkeep _) hu
    huw hY hX
  rw [← hu']
  exact (coordinateIndex_of_planeRound huw').2

end Ends

/-! ### Thresholds and scores -/

theorem getThreshold_ne_nan (hquantization : ∃ scale zp, info.qpScale = .num scale ∧
      info.qpZp = .num zp ∧ 0 < scale) (hthreshold : config.confidenceThreshold ≠ .nan)
    (h : getThreshold config info = .ok threshold) : threshold ≠ .nan := by
  obtain ⟨scale, zp, hscale, hzp, hpos⟩ := hquantization
  rw [getThreshold] at h
  split at h
  case isTrue =>
    obtain rfl := Except.ok.inj h
    rw [halfThreshold]
    split
    · exact nofun
    · exact hthreshold
  case isFalse =>
    rw [getQuantizedThreshold] at h
    split at h
    · obtain rfl := Except.ok.inj h
      split <;> exact nofun
    · rw [staticCast] at h
      split at h
      · obtain rfl := Except.ok.inj h
        rw [hscale, hzp]
        exact binary32.add_num_ne_nan (binary32.div_num_ne_nan hthreshold hpos.ne') zp
      · split at h
        · exact nomatch h
        split at h
        · obtain rfl := Except.ok.inj h
          exact nofun
        · exact nomatch h

section Quantization

variable (hquantization : ∃ scale zp, info.qpScale = .num scale ∧ info.qpZp = .num zp ∧ 0 < scale)
include hquantization

theorem dequantize_num : ∃ scale zp : ℚ, 0 < scale ∧
    ∀ x, dequantize info (.num x) = .num ((x - zp) * scale) := by
  obtain ⟨scale, zp, hscale, hzp, hpos⟩ := hquantization
  refine ⟨scale, zp, hpos, fun x => ?_⟩
  rw [dequantize, hscale, hzp]

theorem dequantize_ne_nan {a : Datum} (ha : a ≠ .nan) : dequantize info a ≠ .nan := by
  obtain ⟨scale, zp, -, hnum⟩ := dequantize_num hquantization
  cases a with
  | nan => exact absurd rfl ha
  | inf negative => exact nofun
  | num x =>
    rw [hnum]
    exact nofun

theorem dequantize_lt_iff {a b : Datum} (ha : a ≠ .nan) (hb : b ≠ .nan) :
    (dequantize info a).extended < (dequantize info b).extended ↔ a.extended < b.extended := by
  rw [← Datum.lt_iff ha hb, ← Datum.lt_iff (dequantize_ne_nan hquantization ha)
    (dequantize_ne_nan hquantization hb)]
  obtain ⟨scale, zp, hpos, hnum⟩ := dequantize_num hquantization
  cases a with
  | nan => exact absurd rfl ha
  | inf negative =>
    cases b with
    | nan => exact absurd rfl hb
    | inf negative' => exact Iff.rfl
    | num y =>
      rw [hnum]
      exact Iff.rfl
  | num x =>
    rw [hnum]
    cases b with
    | nan => exact absurd rfl hb
    | inf negative => exact Iff.rfl
    | num y =>
      rw [hnum, Datum.lt, Datum.lt, decide_eq_true_iff, decide_eq_true_iff,
        mul_lt_mul_iff_left₀ hpos, sub_lt_sub_iff_right]

end Quantization

/-! ### The value of a cell -/

/-- What a class needs to get into the mask. -/
def Taken (info : TensorInfo Datum) (bytes : List UInt8) (backgroundClass : Bool) (threshold : Datum)
    (y x c : ℕ) : Prop :=
  threshold.extended < (element info bytes y x c).extended ∧ Foreground info bytes backgroundClass y x c

namespace Tensor

variable {y x c : ℕ} (h : Tensor info bytes) (hy : y < info.extent .H) (hx : x < info.extent .W)
include h hy hx

theorem score_lt_iff {c d : ℕ} (hc : c < info.extent .C) (hd : d < info.extent .C) :
    score info bytes y x c < score info bytes y x d ↔
      (element info bytes y x c).extended < (element info bytes y x d).extended :=
  dequantize_lt_iff h.quantization (h.numbers c hc y hy x hx) (h.numbers d hd y hy x hx)

theorem startOf_ne_nan (hC : 0 < info.extent .C) (hthreshold : threshold ≠ .nan) :
    startOf info bytes backgroundClass threshold y x ≠ .nan := by
  rw [startOf]
  split
  · exact Datum.max_ne_nan (h.numbers 0 hC y hy x hx) hthreshold
  · exact hthreshold

theorem startOf_lt_iff (hthreshold : threshold ≠ .nan) (hc : c < info.extent .C) :
    (startOf info bytes backgroundClass threshold y x).extended <
        (element info bytes y x c).extended ↔ Taken info bytes backgroundClass threshold y x c := by
  have hC := Nat.zero_lt_of_lt hc
  rw [startOf, Taken, Foreground]
  cases backgroundClass with
  | false => simp
  | true =>
    rw [if_pos rfl, Datum.extended_max (h.numbers 0 hC y hy x hx) hthreshold, max_lt_iff,
      h.score_lt_iff hy hx hC hc, and_comm]
    simp

/-- **The value of a cell** is the first class with the highest score, if it is to be taken. -/
theorem bestOf_eq (hthreshold : threshold ≠ .nan)
    (hfirst : FirstMaximum (score info bytes y x) (cStart backgroundClass) (info.extent .C) c) :
    ((bestOf info bytes backgroundClass threshold (classesOf info backgroundClass) y x).2 =
        UInt8.ofNat c ∧ Taken info bytes backgroundClass threshold y x c) ∨
      ((bestOf info bytes backgroundClass threshold (classesOf info backgroundClass) y x).2 =
        BACKGROUND_INDEX ∧ ¬Taken info bytes backgroundClass threshold y x c) := by
  have hC := Nat.zero_lt_of_lt hfirst.lt_hi
  have hrange : cStart backgroundClass + (info.extent .C - cStart backgroundClass) =
      info.extent .C := by
    have hlo := hfirst.lo_le
    have hhi := hfirst.lt_hi
    omega
  have hfirst' : FirstMaximum (fun c => (element info bytes y x c).extended) (cStart backgroundClass)
      (cStart backgroundClass + (info.extent .C - cStart backgroundClass)) c := by
    rw [hrange]
    exact hfirst.of_lt_iff fun j k _ hj _ hk => (h.score_lt_iff hy hx hj hk).symm
  have hlt : ∀ a b : Datum, a ≠ .nan → b ≠ .nan → (a.lt b = true ↔ a.extended < b.extended) :=
    fun _ _ => Datum.lt_iff
  have hpass : bestOf info bytes backgroundClass threshold (classesOf info backgroundClass) y x =
      if (startOf info bytes backgroundClass threshold y x).extended <
          (element info bytes y x c).extended then (element info bytes y x c, UInt8.ofNat c)
      else (startOf info bytes backgroundClass threshold y x, BACKGROUND_INDEX) :=
    FirstMaximum.foldl_pass hlt (h.startOf_ne_nan hy hx hC hthreshold)
      (fun j _ hj => h.numbers j (hrange ▸ hj) y hy x hx) hfirst'
  rw [hpass]
  by_cases htaken : Taken info bytes backgroundClass threshold y x c
  · rw [if_pos ((h.startOf_lt_iff hy hx hthreshold hfirst.lt_hi).2 htaken)]
    exact .inl ⟨rfl, htaken⟩
  · rw [if_neg fun hlt => htaken ((h.startOf_lt_iff hy hx hthreshold hfirst.lt_hi).1 hlt)]
    exact .inr ⟨rfl, htaken⟩

end Tensor

/-! ### Masks -/

theorem lift_ok {α : Type} (a : α) : lift (.ok a) = .ok a :=
  rfl

theorem maskExtent_eq {n : ℕ} (h : n < 2 ^ 31) : maskExtent config (n : ℤ) = n / config.stepSize.toNat := by
  rw [maskExtent, Int.emod_eq_of_lt (by omega) (by omega), Int.toNat_natCast]

/-- A mask of these cells. -/
def maskOf (info : TensorInfo Datum) (step : ℕ) (p : ℕ → UInt8) : SegmentationMask :=
  ⟨info.extent .W / step, info.extent .H / step, Grid.cells (cellCount info step) p⟩

theorem decoded_maskOf_iff {right : ℕ → ℕ → UInt8 → Prop} {p : ℕ → UInt8} :
    Decoded info step right (maskOf info step p) ↔
      ∀ y < info.extent .H / step, ∀ x < info.extent .W / step,
        right (y * step) (x * step) (p (y * (info.extent .W / step) + x)) := by
  have hcell : ∀ y < info.extent .H / step, ∀ x < info.extent .W / step,
      (maskOf info step p).data[y * (info.extent .W / step) + x]? =
        some (p (y * (info.extent .W / step) + x)) := by
    intro y hy x hx
    have hmul := Nat.mul_le_mul_right (info.extent .W / step) (Nat.succ_le_of_lt hy)
    rw [Nat.succ_mul] at hmul
    exact Grid.getElem?_cells (by rw [cellCount]; omega) p
  constructor
  · intro h y hy x hx
    obtain ⟨value, hvalue, hright⟩ := h.pixel y hy x hx
    rw [hcell y hy x hx] at hvalue
    exact Option.some.inj hvalue ▸ hright
  · intro h
    exact ⟨rfl, rfl, Grid.length_cells _ _, fun y hy x hx => ⟨_, hcell y hy x hx, h y hy x hx⟩⟩

namespace Tensor

variable (h : Tensor info bytes) (hstep : 0 < config.stepSize.toNat)
include h hstep

/-- **The mask of the best classes,** whatever the traversal. -/
theorem computeSegmentationMask_eq (hC : 0 < info.extent .C) (left : List Datum)
    (hdivides : Divides info config.stepSize.toNat)
    (hthreshold : getThreshold config info = .ok threshold) :
    computeSegmentationMask left bytes info config backgroundClass =
      .ok (maskOf info config.stepSize.toNat fun k =>
        (cellOf info bytes config.stepSize.toNat backgroundClass threshold
          (classesOf info backgroundClass) k).2) := by
  obtain ⟨span, hspan, hload⟩ := h.exists_span
  have hspans := spans_of_loadBytes hload
  rw [computeSegmentationMask, h.getWidth_eq, h.getHeight_eq, lift_ok, Loop.ok_bind, lift_ok,
    Loop.ok_bind, maskExtent_eq (h.extents .W (by decide)), maskExtent_eq (h.extents .H (by decide)),
    hspan, Loop.ok_bind, h.view_eq, Loop.ok_bind, hthreshold, Loop.ok_bind,
    Nat.mul_comm (info.extent .W / _), Grid.replicate_eq_cells, tensorArgmax_eq hspans hdivides hstep hC]
  rfl

/-- If there is a mask, the step divides the extents and the threshold fits. -/
theorem divides_of_computeSegmentationMask (hH : 0 < info.extent .H) (hW : 0 < info.extent .W)
    (hclasses : cStart backgroundClass < info.extent .C) {left : List Datum} {mask : SegmentationMask}
    (hmask : computeSegmentationMask left bytes info config backgroundClass = .ok mask) :
    Divides info config.stepSize.toNat ∧ ∃ threshold, getThreshold config info = .ok threshold := by
  obtain ⟨span, hspan, -⟩ := h.exists_span
  rw [computeSegmentationMask, h.getWidth_eq, h.getHeight_eq, lift_ok, Loop.ok_bind, lift_ok,
    Loop.ok_bind, maskExtent_eq (h.extents .W (by decide)), maskExtent_eq (h.extents .H (by decide)),
    hspan, Loop.ok_bind, h.view_eq, Loop.ok_bind, Nat.mul_comm (info.extent .W / _),
    Grid.replicate_eq_cells] at hmask
  obtain ⟨threshold, hthreshold, hmask⟩ := Loop.bind_eq_ok.1 hmask
  obtain ⟨data, hdata, -⟩ := Loop.bind_eq_ok.1 hmask
  refine ⟨divides_of_rounds hstep hH hW fun outY hY outX hX => ?_, threshold, hthreshold⟩
  rw [tensorArgmax] at hdata
  split at hdata
  · have hindex := coordinateIndex_of_parseNHWCTensor hdata hY hX
    rwa [Grid.length_cells] at hindex
  · have hindex := coordinateIndex_of_parseNCHWTensor hclasses hdata hY hX
    rwa [Grid.length_cells] at hindex

end Tensor

/-! ### The mask of the best classes -/

theorem ofNat_eq_BACKGROUND_INDEX_iff {c : ℕ} (hc : c < 256) :
    UInt8.ofNat c = BACKGROUND_INDEX ↔ c = 255 := by
  rw [← UInt8.toNat_inj, UInt8.toNat_ofNat', Nat.mod_eq_of_lt hc]
  rfl

theorem cellOf_eq (classes : List ℕ) {y x : ℕ} (hx : x < info.extent .W / step) :
    cellOf info bytes step backgroundClass threshold classes (y * (info.extent .W / step) + x) =
      bestOf info bytes backgroundClass threshold classes (y * step) (x * step) := by
  rw [cellOf, Grid.row_eq hx, Grid.column_eq hx]

/-- **One cell is right exactly when the converted threshold is decisive.** -/
theorem Tensor.isArgmax_iff (h : Tensor info bytes) {y x : ℕ} (hy : y < info.extent .H)
    (hx : x < info.extent .W) (hclasses : cStart backgroundClass < info.extent .C)
    (hC : info.extent .C ≤ 256) (hthreshold : threshold ≠ .nan) :
    IsArgmax info bytes config backgroundClass y x
        (bestOf info bytes backgroundClass threshold (classesOf info backgroundClass) y x).2 ↔
      Decisive info bytes config backgroundClass threshold y x := by
  obtain ⟨c, hfirst⟩ := FirstMaximum.exists_of_lt (score info bytes y x) hclasses
  have hc : c < 256 := hfirst.lt_hi.trans_le hC
  have hindex := ofNat_eq_BACKGROUND_INDEX_iff hc
  have htoNat : (UInt8.ofNat c).toNat = c := by rw [UInt8.toNat_ofNat', Nat.mod_eq_of_lt hc]
  have hvalue := h.bestOf_eq hy hx hthreshold hfirst
  constructor
  · rintro ⟨c', hfirst', hbackground, -⟩ c'' hfirst'' hforeground
    obtain rfl := hfirst.unique hfirst'
    obtain rfl := hfirst.unique hfirst''
    rcases hvalue with ⟨hvalue, htaken⟩ | ⟨hvalue, htaken⟩
    · rw [hvalue, hindex] at hbackground
      constructor
      · rintro ⟨-, hne⟩
        by_contra habove
        exact hne (hbackground.2 fun hboth => habove hboth.1)
      · intro habove
        exact ⟨htaken.1, fun heq => hbackground.1 heq ⟨habove, hforeground⟩⟩
    · have hnot := hbackground.1 hvalue
      constructor
      · rintro ⟨hlt, -⟩
        exact absurd ⟨hlt, hforeground⟩ htaken
      · intro habove
        exact absurd ⟨habove, hforeground⟩ hnot
  · intro hdecisive
    refine ⟨c, hfirst, ?_⟩
    rcases hvalue with ⟨hvalue, htaken⟩ | ⟨hvalue, htaken⟩
    · have hiff := hdecisive c hfirst htaken.2
      rw [hvalue, hindex, htoNat]
      refine ⟨⟨?_, fun hnot => ?_⟩, fun _ => rfl⟩
      · rintro heq ⟨habove, -⟩
        exact (hiff.2 habove).2 heq
      · by_contra hne
        exact hnot ⟨hiff.1 ⟨htaken.1, hne⟩, htaken.2⟩
    · have hnot : ¬(Above config (score info bytes y x c) ∧
          Foreground info bytes backgroundClass y x c) := by
        rintro ⟨habove, hforeground⟩
        exact htaken ⟨((hdecisive c hfirst hforeground).2 habove).1, hforeground⟩
      rw [hvalue]
      exact ⟨iff_of_true rfl hnot, fun hboth => absurd hboth hnot⟩

/-- **The mask is what it should be exactly when the tensor is regular.** -/
theorem Tensor.computeSegmentationMask_iff (h : Tensor info bytes) (hstep : 0 < config.stepSize.toNat)
    (hH : 0 < info.extent .H) (hW : 0 < info.extent .W)
    (hclasses : cStart backgroundClass < info.extent .C) (hC : info.extent .C ≤ 256)
    (hthreshold : config.confidenceThreshold ≠ .nan) (left : List Datum) :
    (∃ mask, computeSegmentationMask left bytes info config backgroundClass = .ok mask ∧
        Decoded info config.stepSize.toNat (IsArgmax info bytes config backgroundClass) mask) ↔
      Regular info bytes config backgroundClass := by
  have hpos : 0 < info.extent .C := Nat.zero_lt_of_lt hclasses
  have hcells : ∀ threshold, getThreshold config info = .ok threshold →
      ((∀ y < info.extent .H / config.stepSize.toNat, ∀ x < info.extent .W / config.stepSize.toNat,
        IsArgmax info bytes config backgroundClass (y * config.stepSize.toNat)
          (x * config.stepSize.toNat)
          (cellOf info bytes config.stepSize.toNat backgroundClass threshold
            (classesOf info backgroundClass) (y * (info.extent .W / config.stepSize.toNat) + x)).2) ↔
      ∀ y < info.extent .H / config.stepSize.toNat, ∀ x < info.extent .W / config.stepSize.toNat,
        Decisive info bytes config backgroundClass threshold (y * config.stepSize.toNat)
          (x * config.stepSize.toNat)) := by
    intro threshold hconverted
    have hne := getThreshold_ne_nan h.quantization hthreshold hconverted
    refine forall₂_congr fun y hy => forall₂_congr fun x hx => ?_
    rw [cellOf_eq _ hx]
    exact h.isArgmax_iff (mul_lt_of_lt_div hstep hy) (mul_lt_of_lt_div hstep hx) hclasses hC hne
  constructor
  · rintro ⟨mask, hmask, hdecoded⟩
    obtain ⟨hdivides, threshold, hconverted⟩ :=
      h.divides_of_computeSegmentationMask hstep hH hW hclasses hmask
    rw [h.computeSegmentationMask_eq hstep hpos left hdivides hconverted] at hmask
    obtain rfl := Except.ok.inj hmask
    exact ⟨hdivides, threshold, hconverted, (hcells _ hconverted).1 (decoded_maskOf_iff.1 hdecoded)⟩
  · rintro ⟨hdivides, threshold, hconverted, hdecisive⟩
    exact ⟨_, h.computeSegmentationMask_eq hstep hpos left hdivides hconverted,
      decoded_maskOf_iff.2 ((hcells _ hconverted).2 hdecisive)⟩

/-! ### Classes that are copied -/

section Copy

/-- The class that is stored at a pixel. -/
def storedClass (info : TensorInfo Datum) (bytes : List UInt8) (y x : ℕ) : ℤ :=
  (UInt32.ofNat (LittleEndian.decode
    ((bytes.drop (info.offset.toNat + place info 0 y x)).take 4))).toInt32.toInt

theorem isStored_copied (htype : info.dataType = .INT) (y x : ℕ) :
    IsStored info bytes y x (UInt8.ofNat (min (max (storedClass info bytes y x) 0) 255).toNat) := by
  refine ⟨storedClass info bytes y x, ?_, ?_⟩
  · rw [element, htype]
    rfl
  · rw [UInt8.toNat_ofNat']
    omega

variable (h : Tensor info bytes) (hstep : 0 < config.stepSize.toNat) (old : List UInt8)
include h hstep

/-- **The classes at the pixels,** as the copy leaves them. -/
theorem Tensor.copySingleLayerMaskData_eq (htype : info.dataType = .INT) (hC : 0 < info.extent .C)
    (hdivides : Divides info config.stepSize.toNat) :
    copySingleLayerMaskData bytes info config old =
      .ok (maskOf info config.stepSize.toNat fun k => UInt8.ofNat (min (max (storedClass info bytes
        (k / (info.extent .W / config.stepSize.toNat) * config.stepSize.toNat)
        (k % (info.extent .W / config.stepSize.toNat) * config.stepSize.toNat)) 0) 255).toNat) := by
  obtain ⟨span, hspan, hload⟩ := h.exists_span
  rw [copySingleLayerMaskData, h.getWidth_eq, h.getHeight_eq, h.getHeightStride_eq,
    h.getWidthStride_eq, lift_ok, Loop.ok_bind, lift_ok, Loop.ok_bind, lift_ok, Loop.ok_bind, lift_ok,
    Loop.ok_bind, hspan, Loop.ok_bind, Int.toNat_natCast, Int.toNat_natCast,
    Nat.mul_comm (info.extent .W / config.stepSize.toNat), rounds_eq hstep hdivides.height,
    rounds_eq hstep hdivides.width,
    Grid.foldlM_eq_ok (S := Grid.cells (cellCount info config.stepSize.toNat))
      (g := fun i j _ => UInt8.ofNat (min (max (storedClass info bytes (i * config.stepSize.toNat)
        (j * config.stepSize.toNat)) 0) 255).toNat)]
  · exact congrArg (fun data => Except.ok (SegmentationMask.mk _ _ data))
      (Grid.cells_congr fun k hk => Grid.rowsDone_eq _ hk)
  · intro p i j hi hj
    have hbytes := hload 0 hC _ (mul_lt_of_lt_div hstep hi) _ (mul_lt_of_lt_div hstep hj)
    rw [place_zero, htype] at hbytes
    rw [copyRound]
    show (loadBytes span _ (DataType.size .INT) >>= _) = _
    rw [hbytes, Loop.ok_bind, Grid.length_cells, hdivides.coordinateIndex_eq hi hj, Loop.ok_bind,
      Grid.set_cells, ← place_zero]
    rfl

theorem Tensor.divides_of_copySingleLayerMaskData (hH : 0 < info.extent .H) (hW : 0 < info.extent .W)
    {mask : SegmentationMask} (hmask : copySingleLayerMaskData bytes info config old = .ok mask) :
    Divides info config.stepSize.toNat := by
  obtain ⟨span, hspan, -⟩ := h.exists_span
  rw [copySingleLayerMaskData, h.getWidth_eq, h.getHeight_eq, h.getHeightStride_eq,
    h.getWidthStride_eq, lift_ok, Loop.ok_bind, lift_ok, Loop.ok_bind, lift_ok, Loop.ok_bind, lift_ok,
    Loop.ok_bind, hspan, Loop.ok_bind, Int.toNat_natCast, Int.toNat_natCast,
    Nat.mul_comm (info.extent .W / config.stepSize.toNat)] at hmask
  obtain ⟨data, hdata, -⟩ := Loop.bind_eq_ok.1 hmask
  refine divides_of_rounds hstep hH hW fun outY hY outX hX => ?_
  obtain ⟨u, w, hu, huw⟩ := Grid.exists_round (I := fun s => s.length = cellCount info _)
    (fun s i j t hs hst => (coordinateIndex_of_copyRound hst).1.trans hs) (Grid.length_cells _ _) hdata
    hY hX
  have hindex := (coordinateIndex_of_copyRound huw).2
  rwa [hu] at hindex

/-- **The copy ends exactly when the step divides.** -/
theorem Tensor.copySingleLayerMaskData_iff (htype : info.dataType = .INT) (hH : 0 < info.extent .H)
    (hW : 0 < info.extent .W) (hC : 0 < info.extent .C) :
    (∃ mask, copySingleLayerMaskData bytes info config old = .ok mask ∧
        Decoded info config.stepSize.toNat (IsStored info bytes) mask) ↔
      Divides info config.stepSize.toNat := by
  constructor
  · rintro ⟨mask, hmask, -⟩
    exact h.divides_of_copySingleLayerMaskData hstep old hH hW hmask
  · intro hdivides
    refine ⟨_, h.copySingleLayerMaskData_eq hstep old htype hC hdivides,
      decoded_maskOf_iff.2 fun y hy x hx => ?_⟩
    rw [Grid.row_eq hx, Grid.column_eq hx]
    exact isStored_copied htype _ _

end Copy

end Segmentation

/-! ### The node -/

namespace SegmentationParser

open FloatingPoint Segmentation

variable {properties : SegmentationParserProperties} {info : TensorInfo Datum} {bytes : List UInt8}
  {config : SegmentationParserConfig}

theorem extents_of_validateTensor (h : Tensor info bytes) (hvalid : validateTensor properties info = .ok ()) :
    0 < info.extent .W ∧ 0 < info.extent .H ∧ 0 < info.extent .C ∧ info.extent .C ≤ 256 := by
  have hW := h.extents .W (by decide)
  have hH := h.extents .H (by decide)
  rw [validateTensor, h.getWidth_eq, h.getHeight_eq, h.getChannels_eq, lift_ok, Loop.ok_bind, lift_ok,
    Loop.ok_bind, lift_ok, Loop.ok_bind, Int.emod_eq_of_lt (by omega) (by omega), Int.toNat_natCast,
    Int.emod_eq_of_lt (by omega) (by omega), Int.toNat_natCast] at hvalid
  split at hvalid
  · exact nomatch hvalid
  rename_i hpositive
  split at hvalid
  · exact nomatch hvalid
  rename_i hchannels
  omega

/-- Two classes at two by two pixels, in planes. -/
def bytePlanes : TensorInfo Datum where
  order := .CHW
  dataType := .U8F
  numDimensions := 3
  dims := [2, 2, 2]
  strides := [4, 2, 1]
  name := "mask"
  offset := 0
  qpScale := .num 1
  qpZp := .num 0

/-- The scores of the first class, and of the second. -/
def byteScores : List UInt8 := [1, 2, 3, 4, 5, 1, 3, 7]

theorem tensor_bytePlanes : Tensor bytePlanes byteScores where
  order := by decide
  rank := by decide
  extents := by decide
  inside := ⟨8, by decide, by decide, by decide⟩
  numbers := by decide +kernel
  quantization := ⟨1, 0, rfl, rfl, by decide⟩

/-- One class at one pixel, with a negative score of single precision. -/
def logit : TensorInfo Datum :=
  { bytePlanes with dataType := .FP32, dims := [1, 1, 1], strides := [4, 4, 4] }

/-- The score is a quarter below zero. -/
def logitScore : List UInt8 := [0x00, 0x00, 0x80, 0xBE]

theorem tensor_logit : Tensor logit logitScore where
  order := by decide
  rank := by decide
  extents := by decide
  inside := ⟨4, by decide, by decide, by decide⟩
  numbers := by decide +kernel
  quantization := ⟨1, 0, rfl, rfl, by decide⟩

end SegmentationParser

end DepthaiCore.NN
