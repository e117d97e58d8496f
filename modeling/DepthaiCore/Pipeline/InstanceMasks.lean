import DepthaiCore.Datatype.ChangeStorageOrder
import DepthaiCore.Datatype.NNDataPacking
import DepthaiCore.Pipeline.ConfidentCells
import Mathlib.Data.Rat.Floor

/-!
# Instance masks of a segmentation network

A segmentation network gives, besides the boxes, a few prototype planes and for every box the
weights of the planes. The mask of a box is the part of the weighted sum that the box covers, at
the resolution of the planes, scaled up to the box. The part is found by dividing the borders of the
box by how often the planes fit into the input.

These quotients are taken of integers. The factor is zero if a plane is larger than the input, a box
may lie between two multiples of it, and if the input is not a multiple of the plane, a box may end
behind the last row or column of the plane. The theorem says for which boxes none of this happens.

The arithmetic of the weights is exact, and the resizing is a parameter. A mask is a function of the
row and the column.
-/

namespace DepthaiCore

namespace DetectionParserUtils

open NN (NNData NNDataViewer Numbers StorageFailure StorageOrder TensorInfo)
open NN.NNData (NoTensor)

/-- How `segmentationDecode` ends where it does not return. -/
inductive MaskFailure
  | failure (why : Failure)
  | noTensor (why : NoTensor)
  | storage (why : StorageFailure)
  /-- The value of an empty `std::optional` is used. -/
  | nullopt
  /-- `std::map::at` finds no key. -/
  | outOfRange
  | divisionByZero
  /-- The assertion of `cv::Mat::operator()`: the region is inside the matrix. -/
  | roiOutside
  /-- The assertion of `cv::resize`: the source is not empty. -/
  | emptySource
  deriving DecidableEq

/-- The failures that a scale or a region of interest makes. -/
def MaskFailure.OfRoi (why : MaskFailure) : Prop :=
  why = .divisionByZero ∨ why = .roiOutside ∨ why = .emptySource

section Source

variable {T K : Type} [Field K] [LinearOrder K] [FloorRing K]

/-! ### The layers -/

/-- `operator*` of a `std::optional`. -/
def value {α : Type} : Option α → Except MaskFailure α
  | none => .error .nullopt
  | some a => .ok a

/-- The coordinates of the element at a place in row-major order. -/
def coordinates : List ℕ → ℕ → List ℕ
  | [], _ => []
  | extent :: shape, k => k / shape.prod % extent :: coordinates shape k

/-- `getTensor` and `changeStorageOrder` of the prototypes: the elements in the order `NHWC`. -/
def protoElements (N : Numbers T K) (nnData : NNData K) (name : String) (order : StorageOrder) :
    Except MaskFailure (List K) := do
  let (shape, values) ← (nnData.getTensor N name true).mapError .noTensor
  if order ≠ .NHWC then
    let array := Tensor.ofFn shape fun v => values.getD (RowMajor.place shape v) 0
    let changed ← (NN.changeStorageOrder array order .NHWC).mapError .storage
    return (List.range changed.shape.prod).map fun k =>
      (changed.at? (coordinates changed.shape k)).getD 0
  else return values

/-- What is read before the loop over the candidates: the size of a plane, the matrix of the
prototypes and `get` of every mask layer. -/
structure Protos (K : Type) where
  width : ℤ
  height : ℤ
  channels : ℤ
  matrix : ℕ → ℕ → K
  masks : List (ℕ → ℕ → ℕ → K)

/-- The round of the loop over the mask layers; `none` where the function returns. -/
def openMask (N : Numbers T K) (nnData : NNData K) (protoChannels : ℤ) (name : String) :
    Except MaskFailure (Option (ℕ → ℕ → ℕ → K)) := do
  let tensorInfo ← value (getTensorInfo nnData name)
  match isTensorOrderValid tensorInfo (Int32.ofInt protoChannels).toUInt32 with
  | none => return none
  | some tensorInfo =>
    let mask : NNDataViewer K := ⟨tensorInfo, nnData.bytes⟩
    match mask.build with
    | none => return none
    | some factorsBefore =>
      return some fun c row col => ((mask.get N factorsBefore c row col).map Prod.fst).getD 0

/-- All mask layers; `none` as soon as one is `none`. -/
def openMasks (N : Numbers T K) (nnData : NNData K) (protoChannels : ℤ) :
    List String → Except MaskFailure (Option (List (ℕ → ℕ → ℕ → K)))
  | [] => return some []
  | name :: names => do
    match ← openMask N nnData protoChannels name with
    | none => return none
    | some mask =>
      let masks ← openMasks N nnData protoChannels names
      return masks.map (mask :: ·)

/-- The part before the loop over the candidates; `none` where the function returns. -/
def openProtos (N : Numbers T K) (nnData : NNOutput K) (parser : DetectionParserOptions K) :
    Except MaskFailure (Option (Protos K)) := do
  let maskLayerNames := resolveLayerNames nnData.toNNData [] "mask"
  let strides := parser.strides.length
  let layers := maskLayerNames.length
  (check (strides = layers)
    (s!"Number of strides does not match number of mask output layers. Strides size: {strides}, "
      ++ s!"mask output layers size: {layers}.")).mapError .failure
  match resolveLayerNames nnData.toNNData [] "proto" with
  | [] => return none
  | name :: _ =>
    let protoInfo ← value (getTensorInfo nnData.toNNData name)
    let protoValues : NNDataViewer K := ⟨protoInfo, nnData.bytes⟩
    if protoValues.build = none then return none
    let width ← (protoInfo.getWidth.mapError .runtimeError).mapError .failure
    let height ← (protoInfo.getHeight.mapError .runtimeError).mapError .failure
    let channels ← (protoInfo.getChannels.mapError .runtimeError).mapError .failure
    if width ≤ 0 ∨ height ≤ 0 ∨ channels ≤ 0 then return none
    let protoData ← protoElements N nnData.toNNData name protoInfo.order
    match ← openMasks N nnData.toNNData channels maskLayerNames with
    | none => return none
    | some masks =>
      return some {
        width, height, channels
        matrix := fun c i => protoData.getD (c + i * channels.toNat) 0
        masks }

/-! ### One candidate -/

def clamp (v lo hi : ℤ) : ℤ :=
  if v < lo then lo else if hi < v then hi else v

/-- The borders of a box, on the grid of the input or of a plane. -/
structure Borders where
  x0 : ℤ
  y0 : ℤ
  x1 : ℤ
  y1 : ℤ
  deriving DecidableEq, Repr

/-- The borders of a candidate in the input. -/
def borders (inputWidth inputHeight : ℤ) (c : DetectionCandidate K) : Borders where
  x0 := clamp ⌊c.xmin⌋ 0 (inputWidth - 1)
  y0 := clamp ⌊c.ymin⌋ 0 (inputHeight - 1)
  x1 := clamp ⌈c.xmax⌉ 0 inputWidth
  y1 := clamp ⌈c.ymax⌉ 0 inputHeight

/-- The borders on a plane. -/
def Borders.scale (b : Borders) (widthScaleFactor heightScaleFactor : ℤ) :
    Except MaskFailure Borders :=
  if widthScaleFactor = 0 ∨ heightScaleFactor = 0 then .error .divisionByZero
  else .ok {
    x0 := b.x0.tdiv widthScaleFactor
    y0 := b.y0.tdiv heightScaleFactor
    x1 := b.x1.tdiv widthScaleFactor
    y1 := b.y1.tdiv heightScaleFactor }

/-- The region of a matrix with these borders, for a resize. -/
def Borders.cut (b : Borders) (width height : ℤ) : Except MaskFailure Unit :=
  if ¬(0 ≤ b.x0 ∧ 0 ≤ b.x1 - b.x0 ∧ b.x1 ≤ width ∧ 0 ≤ b.y0 ∧ 0 ≤ b.y1 - b.y0 ∧ b.y1 ≤ height)
  then .error .roiOutside
  else if b.x1 - b.x0 = 0 ∨ b.y1 - b.y0 = 0 then .error .emptySource
  else .ok ()

/-- `cv::resize` with linear interpolation: a matrix of a size to one of another size. -/
abbrev Resize (K : Type) :=
  (ℕ → ℕ → K) → (rows cols newRows newCols : ℕ) → ℕ → ℕ → K

/-- The round of the loop over the candidates: what is in the mask afterwards. -/
def paint (resize : Resize K) (inputWidth inputHeight : ℤ) (protos : Protos K)
    (indexMask : ℕ → ℕ → ℕ) (candidate : DetectionCandidate K × ℕ) :
    Except MaskFailure (ℕ → ℕ → ℕ) := do
  let (c, detIdx) := candidate
  match protos.masks[c.headIndex]? with
  | none => .error .outOfRange
  | some mask =>
    let maskLow : ℕ → ℕ → K := fun y x =>
      ((List.range protos.channels.toNat).map fun ch =>
        mask ch c.rowIndex c.columnIndex * protos.matrix ch (y * protos.width.toNat + x)).sum
    let b := borders inputWidth inputHeight c
    if b.x1 ≤ b.x0 ∨ b.y1 ≤ b.y0 then .ok indexMask
    else do
      let p ← b.scale (inputWidth.tdiv protos.width) (inputHeight.tdiv protos.height)
      p.cut protos.width protos.height
      let roiProb := resize (fun y x => maskLow (p.y0.toNat + y) (p.x0.toNat + x))
        (p.y1 - p.y0).toNat (p.x1 - p.x0).toNat (b.y1 - b.y0).toNat (b.x1 - b.x0).toNat
      return fun y x =>
        if b.y0 ≤ y ∧ y < b.y1 ∧ b.x0 ≤ x ∧ x < b.x1 ∧ indexMask y x = 255 ∧
            0 < roiProb (y - b.y0.toNat) (x - b.x0.toNat)
        then min detIdx 254 else indexMask y x

/-- **`segmentationDecode`:** the mask that it sets; `none` if it sets none. -/
def segmentationDecode (N : Numbers T K) (resize : Resize K) (nnData : NNOutput K)
    (detectionCandidates : List (DetectionCandidate K)) (parser : DetectionParserOptions K) :
    Except MaskFailure (Option (ℕ → ℕ → ℕ)) :=
  if detectionCandidates = [] then .ok (some fun _ _ => 255)
  else do
    match ← openProtos N nnData parser with
    | none => return none
    | some protos =>
      let indexMask ← detectionCandidates.zipIdx.foldlM
        (paint resize nnData.inputWidth nnData.inputHeight protos) fun _ _ => 255
      return some indexMask

end Source

/-! ### Failures that are none of a region -/

/-- What does not fail with a failure of a region, and has a property if it does not fail. -/
def Ends {α : Type} (P : α → Prop) : Except MaskFailure α → Prop
  | .ok a => P a
  | .error why => ¬why.OfRoi

theorem ends_iff {α : Type} {x : Except MaskFailure α} :
    Ends (fun _ => True) x ↔ ∀ why, x = .error why → ¬why.OfRoi := by
  cases x with
  | error why => exact ⟨fun h _ hwhy => Except.error.inj hwhy ▸ h, fun h => h why rfl⟩
  | ok a => exact iff_of_true trivial nofun

theorem ends_bind_pure_iff {α β : Type} {x : Except MaskFailure α} {f : α → β} :
    Ends (fun _ => True) (x >>= fun a => .ok (f a)) ↔ Ends (fun _ => True) x := by
  cases x <;> rfl

theorem Ends.bind {α β : Type} {P : α → Prop} {Q : β → Prop} {x : Except MaskFailure α}
    {f : α → Except MaskFailure β} (hx : Ends P x) (hf : ∀ a, P a → Ends Q (f a)) :
    Ends Q (x >>= f) := by
  cases x with
  | error why => exact hx
  | ok a => exact hf a hx

theorem Ends.mapError {α E : Type} {wrap : E → MaskFailure} (hwrap : ∀ why, ¬(wrap why).OfRoi)
    (x : Except E α) : Ends (fun _ => True) (x.mapError wrap) := by
  cases x with
  | error why => exact hwrap why
  | ok a => trivial

theorem ends_value {α : Type} (a : Option α) : Ends (fun _ => True) (value a) := by
  cases a with
  | none => exact fun h => by rcases h with h | h | h <;> cases h
  | some a => trivial

theorem not_ofRoi_failure (why : Failure) : ¬(MaskFailure.failure why).OfRoi := by
  rintro (h | h | h) <;> cases h

theorem not_ofRoi_noTensor (why : NoTensor) : ¬(MaskFailure.noTensor why).OfRoi := by
  rintro (h | h | h) <;> cases h

theorem not_ofRoi_storage (why : StorageFailure) : ¬(MaskFailure.storage why).OfRoi := by
  rintro (h | h | h) <;> cases h

theorem not_ofRoi_outOfRange : ¬MaskFailure.outOfRange.OfRoi := by
  rintro (h | h | h) <;> cases h

section Layers

variable {T K : Type} [Field K] {N : Numbers T K}

theorem ends_protoElements (nnData : NNData K) (name : String) (order : StorageOrder) :
    Ends (fun _ => True) (protoElements N nnData name order) := by
  refine (Ends.mapError not_ofRoi_noTensor _).bind fun ⟨shape, values⟩ _ => ?_
  dsimp only
  split_ifs
  · exact (Ends.mapError not_ofRoi_storage _).bind fun _ _ => trivial
  · trivial

theorem ends_openMask (nnData : NNData K) (protoChannels : ℤ) (name : String) :
    Ends (fun _ => True) (openMask N nnData protoChannels name) := by
  refine (ends_value _).bind fun tensorInfo _ => ?_
  dsimp only
  split
  · trivial
  · split <;> trivial

theorem ends_openMasks (nnData : NNData K) (protoChannels : ℤ) (names : List String) :
    Ends (fun _ => True) (openMasks N nnData protoChannels names) := by
  induction names with
  | nil => trivial
  | cons name names ih =>
    refine (ends_openMask nnData protoChannels name).bind fun mask _ => ?_
    cases mask with
    | none => trivial
    | some mask => exact ih.bind fun _ _ => trivial

theorem ends_openProtos (nnData : NNOutput K) (parser : DetectionParserOptions K) :
    Ends (fun protos => ∀ p ∈ protos, 0 < p.width ∧ 0 < p.height)
      (openProtos N nnData parser) := by
  refine (Ends.mapError not_ofRoi_failure _).bind fun _ _ => ?_
  cases resolveLayerNames nnData.toNNData [] "proto" with
  | nil => exact fun p hp => nomatch hp
  | cons name _ =>
    refine (ends_value _).bind fun protoInfo _ => ?_
    dsimp only
    split_ifs
    · exact fun p hp => nomatch hp
    refine (Ends.mapError not_ofRoi_failure _).bind fun width _ => ?_
    refine (Ends.mapError not_ofRoi_failure _).bind fun height _ => ?_
    refine (Ends.mapError not_ofRoi_failure _).bind fun channels _ => ?_
    split_ifs with hsize
    · exact fun p hp => nomatch hp
    refine (ends_protoElements _ _ _).bind fun protoData _ => ?_
    refine (ends_openMasks _ _ _).bind fun masks _ => ?_
    cases masks with
    | none => exact fun p hp => nomatch hp
    | some masks =>
      intro p hp
      cases hp
      push Not at hsize
      exact ⟨hsize.1, hsize.2.1⟩

end Layers

/-! ### One side of a box -/

theorem clamp_mem {v lo hi : ℤ} (h : lo ≤ hi) : lo ≤ clamp v lo hi ∧ clamp v lo hi ≤ hi := by
  rw [clamp]
  split_ifs <;> omega

/-- **A side of a box covers a part of the plane:** the plane is not larger than the input, between
the borders is a multiple of the factor, and the multiples do not end before the box does. -/
def Covered (inputExtent protoExtent lo hi : ℤ) : Prop :=
  protoExtent ≤ inputExtent ∧
    (∃ k, lo < k * (inputExtent / protoExtent) ∧ k * (inputExtent / protoExtent) ≤ hi) ∧
      hi < (protoExtent + 1) * (inputExtent / protoExtent)

/-- There is a multiple between two numbers if the quotient grows. -/
theorem exists_multiple_iff {s lo hi : ℤ} (hs : 0 < s) :
    (∃ k, lo < k * s ∧ k * s ≤ hi) ↔ lo / s < hi / s := by
  constructor
  · rintro ⟨k, hlo, hhi⟩
    exact (Int.ediv_lt_of_lt_mul hs hlo).trans_le ((Int.le_ediv_iff_mul_le hs).2 hhi)
  · intro h
    exact ⟨hi / s, Int.lt_mul_of_ediv_lt hs h, Int.ediv_mul_le hi hs.ne'⟩

theorem tdiv_le_tdiv_of_neg {a b s : ℤ} (hs : s < 0) (h : a ≤ b) : b.tdiv s ≤ a.tdiv s := by
  have hle := Int.tdiv_le_tdiv (neg_pos.2 hs) h
  rw [Int.tdiv_neg, Int.tdiv_neg] at hle
  exact neg_le_neg_iff.1 hle

/-- A side that is divided by a factor is a part of the plane. -/
def Inside (factor protoExtent lo hi : ℤ) : Prop :=
  factor ≠ 0 ∧ 0 ≤ lo.tdiv factor ∧ lo.tdiv factor < hi.tdiv factor ∧ hi.tdiv factor ≤ protoExtent

/-- A side with these borders is cut inside the plane exactly if it covers a part of it. -/
theorem inside_iff_covered {inputExtent protoExtent lo hi : ℤ} (hproto : 0 < protoExtent)
    (hlt : lo < hi) (hlo : 0 < inputExtent → 0 ≤ lo) :
    Inside (inputExtent.tdiv protoExtent) protoExtent lo hi ↔
      Covered inputExtent protoExtent lo hi := by
  rcases le_or_gt inputExtent 0 with hinput | hinput
  · -- without pixels the factor is not positive, and the quotients do not grow
    refine iff_of_false ?_ fun h => by have := h.1; omega
    rintro ⟨hne, -, hgrow, -⟩
    have hle : inputExtent.tdiv protoExtent ≤ 0 := by
      simpa using Int.tdiv_le_tdiv hproto hinput
    exact (tdiv_le_tdiv_of_neg (lt_of_le_of_ne hle hne) hlt.le).not_gt hgrow
  have h0 := hlo hinput
  rw [Int.tdiv_eq_ediv_of_nonneg hinput.le, Inside]
  rcases le_or_gt protoExtent inputExtent with hfit | hlarge
  · have hs : 0 < inputExtent / protoExtent :=
      (Int.le_ediv_iff_mul_le hproto).2 ((one_mul protoExtent).trans_le hfit)
    have hhi : 0 ≤ hi := h0.trans hlt.le
    rw [Int.tdiv_eq_ediv_of_nonneg h0, Int.tdiv_eq_ediv_of_nonneg hhi, Covered,
      exists_multiple_iff hs, ← Int.ediv_lt_iff_lt_mul hs, Int.lt_add_one_iff]
    exact ⟨fun h => ⟨hfit, h.2.2.1, h.2.2.2⟩,
      fun h => ⟨hs.ne', Int.ediv_nonneg h0 hs.le, h.2.1, h.2.2⟩⟩
  · refine iff_of_false (fun h => h.1 (Int.ediv_eq_zero_of_lt hinput.le hlarge)) fun h => ?_
    exact h.1.not_gt hlarge

/-! ### All boxes -/

section Boxes

variable {T K : Type} [Field K] [LinearOrder K] [FloorRing K]

/-- The mask of a candidate is defined: the box is empty, or both sides cover a part of the
plane. -/
def Protos.Fits (protos : Protos K) (inputWidth inputHeight : ℤ) (c : DetectionCandidate K) :
    Prop :=
  let b := borders inputWidth inputHeight c
  b.x0 < b.x1 → b.y0 < b.y1 →
    Covered inputWidth protos.width b.x0 b.x1 ∧ Covered inputHeight protos.height b.y0 b.y1

theorem Borders.cut_ok {p : Borders} {width height : ℤ}
    (hx : 0 ≤ p.x0 ∧ p.x0 < p.x1 ∧ p.x1 ≤ width) (hy : 0 ≤ p.y0 ∧ p.y0 < p.y1 ∧ p.y1 ≤ height) :
    p.cut width height = .ok () := by
  rw [Borders.cut, if_neg (by omega), if_neg (by omega)]

theorem Borders.cut_fails {p : Borders} {width height : ℤ}
    (h : ¬((0 ≤ p.x0 ∧ p.x0 < p.x1 ∧ p.x1 ≤ width) ∧ 0 ≤ p.y0 ∧ p.y0 < p.y1 ∧ p.y1 ≤ height)) :
    ∃ why : MaskFailure, why.OfRoi ∧ p.cut width height = .error why := by
  rw [Borders.cut]
  by_cases hroi : 0 ≤ p.x0 ∧ 0 ≤ p.x1 - p.x0 ∧ p.x1 ≤ width ∧
      0 ≤ p.y0 ∧ 0 ≤ p.y1 - p.y0 ∧ p.y1 ≤ height
  · rw [if_neg (not_not.2 hroi), if_pos (by omega)]
    exact ⟨.emptySource, .inr (.inr rfl), rfl⟩
  · rw [if_pos hroi]
    exact ⟨.roiOutside, .inr (.inl rfl), rfl⟩

theorem exists_cut {b : Borders} {sx sy width height : ℤ} (hx : Inside sx width b.x0 b.x1)
    (hy : Inside sy height b.y0 b.y1) :
    ∃ p, b.scale sx sy = .ok p ∧ p.cut width height = .ok () :=
  ⟨_, if_neg (not_or.2 ⟨hx.1, hy.1⟩), Borders.cut_ok hx.2 hy.2⟩

/-- Otherwise the division, the region or the resize fails. -/
theorem exists_ofRoi {b : Borders} {sx sy width height : ℤ}
    (h : ¬(Inside sx width b.x0 b.x1 ∧ Inside sy height b.y0 b.y1)) :
    ∃ why : MaskFailure, why.OfRoi ∧
      (b.scale sx sy = .error why ∨
        ∃ p, b.scale sx sy = .ok p ∧ p.cut width height = .error why) := by
  by_cases hzero : sx = 0 ∨ sy = 0
  · exact ⟨.divisionByZero, .inl rfl, .inl (if_pos hzero)⟩
  obtain ⟨hsx, hsy⟩ := not_or.1 hzero
  obtain ⟨why, hwhy, hcut⟩ := Borders.cut_fails
    (p := ⟨b.x0.tdiv sx, b.y0.tdiv sy, b.x1.tdiv sx, b.y1.tdiv sy⟩)
    fun hin => h ⟨⟨hsx, hin.1⟩, hsy, hin.2⟩
  exact ⟨why, hwhy, .inr ⟨_, if_neg hzero, hcut⟩⟩

section Loop

variable {resize : Resize K} {inputWidth inputHeight : ℤ} {protos : Protos K}
  {indexMask : ℕ → ℕ → ℕ} {c : DetectionCandidate K} {detIdx : ℕ}

variable (resize indexMask detIdx) in
/-- A box that is not empty is painted after its region is cut. -/
theorem paint_eq (hmask : c.headIndex < protos.masks.length)
    (hx : (borders inputWidth inputHeight c).x0 < (borders inputWidth inputHeight c).x1)
    (hy : (borders inputWidth inputHeight c).y0 < (borders inputWidth inputHeight c).y1) :
    ∃ painted : Borders → ℕ → ℕ → ℕ,
      paint resize inputWidth inputHeight protos indexMask (c, detIdx) = do
        let p ← (borders inputWidth inputHeight c).scale (inputWidth.tdiv protos.width)
          (inputHeight.tdiv protos.height)
        p.cut protos.width protos.height
        return painted p := by
  simp only [paint, List.getElem?_eq_getElem hmask]
  rw [if_neg (not_or.2 ⟨hx.not_ge, hy.not_ge⟩)]
  exact ⟨_, rfl⟩

variable (resize indexMask detIdx) in
theorem paint_of_fits (hwidth : 0 < protos.width) (hheight : 0 < protos.height)
    (hmask : c.headIndex < protos.masks.length) (hfits : protos.Fits inputWidth inputHeight c) :
    ∃ indexMask', paint resize inputWidth inputHeight protos indexMask (c, detIdx) =
      .ok indexMask' := by
  by_cases hempty : (borders inputWidth inputHeight c).x1 ≤ (borders inputWidth inputHeight c).x0 ∨
      (borders inputWidth inputHeight c).y1 ≤ (borders inputWidth inputHeight c).y0
  · simp only [paint, List.getElem?_eq_getElem hmask]
    exact ⟨_, if_pos hempty⟩
  obtain ⟨hx, hy⟩ := not_or.1 hempty
  rw [not_le] at hx hy
  obtain ⟨hcx, hcy⟩ := hfits hx hy
  obtain ⟨p, hscale, hcut⟩ := exists_cut
    ((inside_iff_covered hwidth hx fun h => (clamp_mem (by omega)).1).2 hcx)
    ((inside_iff_covered hheight hy fun h => (clamp_mem (by omega)).1).2 hcy)
  obtain ⟨painted, hpaint⟩ := paint_eq resize indexMask detIdx hmask hx hy
  refine ⟨painted p, ?_⟩
  rw [hpaint, hscale, Loop.ok_bind, hcut]
  rfl

variable (resize indexMask detIdx) in
/-- A candidate that does not fit fails with its region. -/
theorem paint_of_not_fits (hwidth : 0 < protos.width) (hheight : 0 < protos.height)
    (hmask : c.headIndex < protos.masks.length)
    (hfits : ¬protos.Fits inputWidth inputHeight c) :
    ∃ why : MaskFailure, why.OfRoi ∧
      paint resize inputWidth inputHeight protos indexMask (c, detIdx) = .error why := by
  simp only [Protos.Fits, Classical.not_imp] at hfits
  obtain ⟨hx, hy, hnot⟩ := hfits
  obtain ⟨painted, hpaint⟩ := paint_eq resize indexMask detIdx hmask hx hy
  rw [← inside_iff_covered hwidth hx fun h => (clamp_mem (by omega)).1,
    ← inside_iff_covered hheight hy fun h => (clamp_mem (by omega)).1] at hnot
  obtain ⟨why, hwhy, hscale | ⟨p, hscale, hcut⟩⟩ := exists_ofRoi hnot
  · exact ⟨why, hwhy, by rw [hpaint, hscale]; rfl⟩
  · exact ⟨why, hwhy, by rw [hpaint, hscale, Loop.ok_bind, hcut]; rfl⟩

/-- A candidate of an unknown layer fails before its region is cut. -/
theorem paint_of_unknown (hmask : ¬c.headIndex < protos.masks.length) :
    paint resize inputWidth inputHeight protos indexMask (c, detIdx) = .error .outOfRange := by
  simp only [paint, List.getElem?_eq_none (not_lt.1 hmask)]

variable (resize) in
/-- No region of the loop fails exactly if every candidate fits that comes before the first one of
an unknown layer. -/
theorem foldlM_paint_iff (hwidth : 0 < protos.width) (hheight : 0 < protos.height)
    (candidates : List (DetectionCandidate K)) (first : ℕ) (indexMask : ℕ → ℕ → ℕ) :
    Ends (fun _ => True) ((candidates.zipIdx first).foldlM
        (paint resize inputWidth inputHeight protos) indexMask) ↔
      ∀ c ∈ candidates.takeWhile (·.headIndex < protos.masks.length),
        protos.Fits inputWidth inputHeight c := by
  induction candidates generalizing first indexMask with
  | nil => exact iff_of_true trivial nofun
  | cons c candidates ih =>
    rw [List.zipIdx_cons, List.foldlM_cons]
    by_cases hmask : c.headIndex < protos.masks.length
    · rw [List.takeWhile_cons_of_pos (by simpa using hmask), List.forall_mem_cons]
      by_cases hfits : protos.Fits inputWidth inputHeight c
      · obtain ⟨indexMask', hpaint⟩ := paint_of_fits resize indexMask first hwidth hheight
          hmask hfits
        rw [hpaint, Loop.ok_bind, ih, and_iff_right hfits]
      · obtain ⟨why, hwhy, hpaint⟩ := paint_of_not_fits resize indexMask first hwidth
          hheight hmask hfits
        rw [hpaint]
        exact iff_of_false (not_not.2 hwhy) fun h => hfits h.1
    · rw [List.takeWhile_cons_of_neg (by simpa using hmask), paint_of_unknown hmask]
      exact iff_of_true not_ofRoi_outOfRange nofun

end Loop

variable {N : Numbers T K} {resize : Resize K} {nnData : NNOutput K}
  {detectionCandidates : List (DetectionCandidate K)} {parser : DetectionParserOptions K}

/-- **The regions of the masks are cut inside the plane** exactly if every candidate fits that comes
before the first one of an unknown layer. -/
theorem segmentationDecode_safe_iff :
    (∀ why, segmentationDecode N resize nnData detectionCandidates parser = .error why →
      ¬why.OfRoi) ↔
      ∀ protos, openProtos N nnData parser = .ok (some protos) →
        ∀ c ∈ detectionCandidates.takeWhile (·.headIndex < protos.masks.length),
          protos.Fits nnData.inputWidth nnData.inputHeight c := by
  rw [← ends_iff, segmentationDecode]
  split_ifs with hnil
  · rw [hnil]
    exact iff_of_true trivial nofun
  have hends := ends_openProtos (N := N) nnData parser
  cases hopen : openProtos N nnData parser with
  | error why =>
    rw [hopen] at hends
    exact iff_of_true hends nofun
  | ok opened =>
    rw [hopen] at hends
    cases opened with
    | none => exact iff_of_true trivial nofun
    | some protos =>
      obtain ⟨hwidth, hheight⟩ := hends protos rfl
      simp only [Except.ok.injEq, Option.some.injEq, forall_eq']
      rw [← foldlM_paint_iff resize hwidth hheight detectionCandidates 0 fun _ _ => 255,
        Loop.ok_bind]
      exact ends_bind_pure_iff

end Boxes

namespace OnePlane

/-- One plane with three rows and columns for an input of a size, and one weight. -/
def output (size : ℤ) : NNOutput ℚ where
  bytes := List.replicate 10 1
  tensors := [{
    order := .NHWC
    dataType := .U8F
    numDimensions := 4
    dims := [1, 3, 3, 1]
    strides := [9, 3, 1, 1]
    name := "proto"
    offset := 0
    qpScale := 1
    qpZp := 0 }, {
    order := .HWC
    dataType := .U8F
    numDimensions := 3
    dims := [1, 1, 1]
    strides := [1, 1, 1]
    name := "mask"
    offset := 9
    qpScale := 1
    qpZp := 0 }]
  inputWidth := size
  inputHeight := size

/-- The mask for a box at the origin, with a resize that repeats the first element. -/
def decode (size : ℤ) (extent : ℚ) : Except MaskFailure (Option (ℕ → ℕ → ℕ)) :=
  segmentationDecode SingleCell.fractions (fun m _ _ _ _ _ _ => m 0 0) (output size)
    [⟨0, 0, extent, extent, 1, 0, 0, 0, 0, none⟩] (SingleCell.options .TLBR)

end OnePlane

/-- A box that is the whole input ends behind the plane if the input is not a multiple of it, an
input that is smaller than the plane has the factor zero, and a box of one pixel is between two
multiples of the factor. -/
theorem segmentationDecode_fails :
    OnePlane.decode 5 5 = .error .roiOutside ∧ OnePlane.decode 2 2 = .error .divisionByZero ∧
      OnePlane.decode 6 1 = .error .emptySource :=
  ⟨by rfl, by rfl, by rfl⟩

end DetectionParserUtils

end DepthaiCore
