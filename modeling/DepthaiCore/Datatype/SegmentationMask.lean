import DepthaiCore.Lib.Loops
import DepthaiCore.Lib.StridedViews
import DepthaiCore.Utility.ImageManip

/-!
# Segmentation masks

A segmentation mask has a byte for each pixel. `SegmentationMask` has one, and so does
`ImgDetectionsT`. It is set from a vector, from a frame or from a matrix of OpenCV, and the rows of
the latter two may be part of longer ones.

What is set should be what one gets. Of the setters some copy more than the mask, and one leaves the
size as it was.

A size is a `size_t` in the messages and an `int` in OpenCV. A list of bytes without elements has no
address.
-/

namespace DepthaiCore

namespace MaskMessages

/-- How a call ends without a result. -/
inductive MaskFault
  | thrown (what : String)
  /-- An `int` overflows, or something outside the data is read. -/
  | undefined
  deriving DecidableEq, Repr

/-! ### Sources -/

/-- A mask. -/
structure Mask where
  width : ℕ
  height : ℕ
  pixels : List UInt8
  length_eq : pixels.length = width * height

/-- A vector of bytes. No vector is longer. -/
structure PackedMask extends Mask where
  length_lt : pixels.length < 2 ^ 63

/-- What the setters read of an `ImgFrame`. The stride is that of `getStride`. -/
structure ImgFrame where
  type : ImgFrameType
  width : UInt32
  height : UInt32
  stride : UInt32
  data : List UInt8

/-- A `GRAY8` frame that has all its rows. -/
structure GrayFrame where
  frame : ImgFrame
  gray : frame.type = .GRAY8
  width_le : frame.width.toNat ≤ frame.stride.toNat
  within : 0 < frame.height.toNat →
    (frame.height.toNat - 1) * frame.stride.toNat + frame.width.toNat ≤ frame.data.length
  length_lt : frame.data.length < 2 ^ 63

namespace GrayFrame

variable (f : GrayFrame)

/-- The pixels of a frame. -/
def view : StridedView UInt8 where
  data := f.frame.data
  offset := 0
  stride := f.frame.stride.toNat
  rows := f.frame.height.toNat
  cols := f.frame.width.toNat
  cols_le_stride := f.width_le
  within hrows _ := by simpa using f.within hrows

def mask : Mask where
  width := f.frame.width.toNat
  height := f.frame.height.toNat
  pixels := f.view.elements
  length_eq := by rw [f.view.length_elements, Nat.mul_comm]; rfl

end GrayFrame

/-- What the setters read of a `cv::Mat`: a view of what is between `datastart` and `dataend`. -/
structure Mat where
  /-- The type, as `typeToString` names it. -/
  type : String
  view : StridedView UInt8
  rows_lt : view.rows < 2 ^ 31
  cols_lt : view.cols < 2 ^ 31

/-- `isContinuous`, as OpenCV sets it. -/
def Mat.isContinuous (m : Mat) : Bool := decide m.view.Packed

/-- A matrix of bytes. -/
structure GrayMat where
  mat : Mat
  gray : mat.type = "CV_8UC1"

def GrayMat.mask (m : GrayMat) : Mask where
  width := m.mat.view.cols
  height := m.mat.view.rows
  pixels := m.mat.view.elements
  length_eq := by rw [StridedView.length_elements, Nat.mul_comm]

/-! ### Bytes and sizes -/

/-- A number as a `size_t`. -/
def size_t (n : ℕ) : ℕ := n % 2 ^ 64

/-- `static_cast<int>` of a `size_t`. -/
def toInt (n : ℕ) : ℤ := (n : ℤ).bmod (2 ^ 32)

/-- `setSize` of the memory. -/
def setSize (data : List UInt8) (size : ℕ) : List UInt8 :=
  data.take size ++ List.replicate (size - data.length) 0

/-- `memcpy` to a place in `dst`. -/
def memcpy (dst : List UInt8) (offset : ℕ) (src : List UInt8) : List UInt8 :=
  dst.take offset ++ src ++ dst.drop (offset + src.length)

/-- `size.area()`. -/
def area (width height : ℤ) : Except MaskFault ℤ :=
  if -2 ^ 31 ≤ width * height ∧ width * height < 2 ^ 31 then .ok (width * height)
  else .error .undefined

/-- The `cv::Mat` that is returned. -/
structure Image where
  rows : ℕ
  cols : ℕ
  pixels : List UInt8
  deriving DecidableEq, Repr

/-- A copy of `data` as a matrix. OpenCV refuses a negative size. -/
def copyTo (width height : ℤ) (data : List UInt8) : Except MaskFault Image :=
  if width < 0 ∨ height < 0 then .error (.thrown "cv::Exception")
  else .ok ⟨height.toNat, width.toNat, data⟩

/-- The bytes that `setCvMask` and `setCvSegmentationMask` take from a matrix. -/
def bytesOf (mask : Mat) : List UInt8 :=
  if mask.isContinuous then mask.view.data else mask.view.elements

/-! ### `SegmentationMask` -/

structure SegmentationMask where
  data : List UInt8 := []
  width : ℕ := 0
  height : ℕ := 0
  deriving DecidableEq, Repr

namespace SegmentationMask

variable (this : SegmentationMask)

/-- `setMask` of a vector. -/
def setMask (mask : List UInt8) (width height : ℕ) : Except MaskFault SegmentationMask :=
  if mask.length ≠ size_t (width * height) then
    .error (.thrown "SegmentationMask: data size does not match width*height")
  else .ok { data := mask, width, height }

/-- `setMask` of a span. -/
def setMaskSpan (mask : List UInt8) (width height : ℕ) : Except MaskFault SegmentationMask :=
  if mask.length ≠ size_t (width * height) then
    .error (.thrown "SegmentationMask: data size does not match width*height")
  else .ok { data := memcpy (setSize this.data mask.length) 0 mask, width, height }

def prepareMask (width height : ℕ) : SegmentationMask :=
  { data := setSize this.data (size_t (width * height)), width, height }

/-- The rows of a frame, without what is between them. -/
def repack (frame : ImgFrame) (dst : List UInt8) : List UInt8 :=
  (List.range frame.height.toNat).foldl (fun dst y =>
    let srcOffset := y * frame.stride.toNat
    let dstOffset := y * frame.width.toNat
    memcpy dst dstOffset ((frame.data.drop srcOffset).take frame.width.toNat)) dst

/-- `setMask` of a frame. If the rows have to be repacked, the size is not set. -/
def setMaskFrame (frame : ImgFrame) : Except MaskFault SegmentationMask :=
  if frame.type ≠ .GRAY8 then .error (.thrown "SegmentationMask: ImgFrame type must be GRAY8")
  else
    let width := frame.width.toNat
    let height := frame.height.toNat
    let stride := frame.stride.toNat
    if stride = width then this.setMaskSpan frame.data width height
    else
      let packedSize := size_t (width * height)
      let minSourceSize := size_t (size_t (height + (2 ^ 64 - 1)) * stride + width)
      if frame.data.length < minSourceSize then
        .error (.thrown "SegmentationMask: ImgFrame data size does not match width/height/stride")
      else .ok { this with data := repack frame (setSize this.data packedSize) }

def setCvMask (mask : Mat) : Except MaskFault SegmentationMask :=
  if mask.type ≠ "CV_8UC1" then
    let type := mask.type
    .error (.thrown
      s!"SetCvSegmentationMask: Mask must be of INT8 type, got opencv type {type}.")
  else .ok { data := bytesOf mask, width := mask.view.cols, height := mask.view.rows }

def getMaskData : List UInt8 := this.data

def getCvMask : Except MaskFault Image :=
  if this.data = [] then .ok ⟨0, 0, []⟩
  else do
    let width := toInt this.width
    let height := toInt this.height
    let requiredSize : ℤ := (← area width height) % 2 ^ 64
    let actualSize : ℤ := this.data.length
    if actualSize = requiredSize then copyTo width height this.data
    else .error (.thrown (s!"Segmentation mask data size does not match the expected size, " ++
      s!"required {requiredSize}, actual {actualSize}."))

end SegmentationMask

/-! ### `ImgDetectionsT` -/

/-- `ImgDetectionsT`: the mask and the detections. -/
structure ImgDetectionsT (DetectionT : Type) where
  data : List UInt8 := []
  segmentationMaskWidth : ℕ := 0
  segmentationMaskHeight : ℕ := 0
  detections : List DetectionT := []

namespace ImgDetectionsT

variable {DetectionT : Type} (this : ImgDetectionsT DetectionT)

/-- `setSegmentationMask` of a vector. -/
def setSegmentationMask (mask : List UInt8) (width height : ℕ) :
    Except MaskFault (ImgDetectionsT DetectionT) :=
  if mask.length ≠ size_t (width * height) then
    .error (.thrown "SegmentationMask: data size does not match width*height")
  else .ok { this with
    data := mask, segmentationMaskWidth := width, segmentationMaskHeight := height }

/-- `setSegmentationMask` of a frame. -/
def setSegmentationMaskFrame (frame : ImgFrame) : Except MaskFault (ImgDetectionsT DetectionT) :=
  if frame.type ≠ .GRAY8 then .error (.thrown "SegmentationMask: ImgFrame type must be GRAY8")
  else .ok { this with
    data := frame.data
    segmentationMaskWidth := frame.width.toNat
    segmentationMaskHeight := frame.height.toNat }

def setCvSegmentationMask (mask : Mat) : Except MaskFault (ImgDetectionsT DetectionT) :=
  if mask.type ≠ "CV_8UC1" then
    let type := mask.type
    .error (.thrown
      s!"SetCvSegmentationMask: Mask must be of INT8 type, got opencv type {type}.")
  else .ok { this with
    data := bytesOf mask
    segmentationMaskWidth := mask.view.cols
    segmentationMaskHeight := mask.view.rows }

def getMaskData : Option (List UInt8) :=
  if this.data = [] then none else some this.data

def getCvSegmentationMask : Except MaskFault (Option Image) :=
  if this.data = [] then .ok none
  else
    let width := toInt this.segmentationMaskWidth
    let height := toInt this.segmentationMaskHeight
    if width ≤ 0 ∨ height ≤ 0 then
      .error (.thrown "Segmentation mask metadata not valid (width or height <= 0).")
    else do
      let requiredSize : ℤ := (← area width height) % 2 ^ 64
      let actualSize : ℤ := this.data.length
      if actualSize ≠ requiredSize then
        .error (.thrown (s!"Segmentation mask data size does not match the expected size, " ++
          s!"required {requiredSize}, actual {actualSize}."))
      else return some (← copyTo width height this.data)

end ImgDetectionsT

/-! ### What should hold -/

/-- The pixels that a matrix shows, none if there is no matrix. -/
def Image.Shows (image : Image) (m : Mask) : Prop :=
  image.pixels = m.pixels ∧ (m.pixels ≠ [] → image.cols = m.width ∧ image.rows = m.height)

/-- A mask with its size is stored, and returned by the getters. -/
structure SegmentationMask.Holds (this : SegmentationMask) (m : Mask) : Prop where
  width : this.width = m.width
  height : this.height = m.height
  getMaskData : this.getMaskData = m.pixels
  getCvMask : ∃ image, this.getCvMask = .ok image ∧ image.Shows m

/-- The same for `ImgDetectionsT`. A mask without pixels counts as not set. -/
structure ImgDetectionsT.Holds {DetectionT : Type} (this : ImgDetectionsT DetectionT) (m : Mask) :
    Prop where
  width : this.segmentationMaskWidth = m.width
  height : this.segmentationMaskHeight = m.height
  getMaskData : this.getMaskData.getD [] = m.pixels
  getCvSegmentationMask : ∃ image, this.getCvSegmentationMask = .ok image ∧
    (image.getD ⟨0, 0, []⟩).Shows m

/-- The setters of `SegmentationMask`. -/
inductive SegmentationMask.Call
  | setMask (m : PackedMask)
  | setMaskSpan (m : PackedMask)
  | setMaskFrame (f : GrayFrame)
  | setCvMask (m : GrayMat)

/-- The setters of `ImgDetectionsT`. -/
inductive ImgDetectionsT.Call
  | setSegmentationMask (m : PackedMask)
  | setSegmentationMaskFrame (f : GrayFrame)
  | setCvSegmentationMask (m : GrayMat)

namespace SegmentationMask

/-- The mask that is set. -/
def Call.mask : Call → Mask
  | .setMask m => m.toMask
  | .setMaskSpan m => m.toMask
  | .setMaskFrame f => f.mask
  | .setCvMask m => m.mask

def Call.run (this : SegmentationMask) : Call → Except MaskFault SegmentationMask
  | .setMask m => SegmentationMask.setMask m.pixels m.width m.height
  | .setMaskSpan m => this.setMaskSpan m.pixels m.width m.height
  | .setMaskFrame f => this.setMaskFrame f.frame
  | .setCvMask m => SegmentationMask.setCvMask m.mat

/-- What is set is what one gets. -/
def RoundTrips (this : SegmentationMask) (call : Call) : Prop :=
  ∀ after, call.run this = .ok after → after.Holds call.mask

/-- The call takes the pixels and nothing else, the size is set or was the same before, and the
number of pixels is an `int`. -/
def Kept (this : SegmentationMask) : Call → Prop
  | .setMask m => m.pixels.length < 2 ^ 31
  | .setMaskSpan m => m.pixels.length < 2 ^ 31
  | .setMaskFrame f =>
    if f.frame.stride = f.frame.width then
      f.frame.data.length = f.mask.width * f.mask.height → f.mask.width * f.mask.height < 2 ^ 31
    else f.mask.height = 0 ∨ this.width = f.mask.width ∧ this.height = f.mask.height ∧
      f.mask.width * f.mask.height < 2 ^ 31
  | .setCvMask m =>
    (m.mat.isContinuous → m.mat.view.data.length = m.mask.width * m.mask.height) ∧
      m.mask.width * m.mask.height < 2 ^ 31

end SegmentationMask

namespace ImgDetectionsT

variable {DetectionT : Type}

/-- The mask that is set. -/
def Call.mask : Call → Mask
  | .setSegmentationMask m => m.toMask
  | .setSegmentationMaskFrame f => f.mask
  | .setCvSegmentationMask m => m.mask

def Call.run (this : ImgDetectionsT DetectionT) :
    Call → Except MaskFault (ImgDetectionsT DetectionT)
  | .setSegmentationMask m => this.setSegmentationMask m.pixels m.width m.height
  | .setSegmentationMaskFrame f => this.setSegmentationMaskFrame f.frame
  | .setCvSegmentationMask m => this.setCvSegmentationMask m.mat

/-- What is set is what one gets. -/
def RoundTrips (this : ImgDetectionsT DetectionT) (call : Call) : Prop :=
  ∀ after, call.run this = .ok after → after.Holds call.mask

/-- The call takes the pixels and nothing else, and their number is an `int`. -/
def Call.Kept : Call → Prop
  | .setSegmentationMask m => m.pixels.length < 2 ^ 31
  | .setSegmentationMaskFrame f =>
    f.frame.data.length = f.mask.width * f.mask.height ∧ f.mask.width * f.mask.height < 2 ^ 31
  | .setCvSegmentationMask m =>
    (m.mat.isContinuous → m.mat.view.data.length = m.mask.width * m.mask.height) ∧
      m.mask.width * m.mask.height < 2 ^ 31

end ImgDetectionsT

/-! ### Sizes -/

section Sizes

variable {w h n : ℕ}

theorem toInt_eq (hn : n < 2 ^ 31) : toInt n = n := by
  refine Int.bmod_eq_of_le_mul_two ?_ ?_ <;> push_cast <;> omega

theorem area_eq (hpos : 0 < w * h) (hlt : w * h < 2 ^ 31) :
    toInt w = w ∧ toInt h = h ∧ area (toInt w) (toInt h) = .ok (w * h : ℕ) := by
  have hw : w < 2 ^ 31 :=
    (Nat.le_mul_of_pos_right w (Nat.pos_of_mul_pos_left hpos)).trans_lt hlt
  have hh : h < 2 ^ 31 :=
    (Nat.le_mul_of_pos_left h (Nat.pos_of_mul_pos_right hpos)).trans_lt hlt
  refine ⟨toInt_eq hw, toInt_eq hh, ?_⟩
  rw [toInt_eq hw, toInt_eq hh, area, ← Nat.cast_mul, if_pos]
  omega

theorem lt_of_area {a b c : ℤ} (harea : area a b = .ok c) (hn : (n : ℤ) = c % 2 ^ 64)
    (hlt : n < 2 ^ 63) : n < 2 ^ 31 := by
  rw [area] at harea
  split_ifs at harea with hrange
  cases harea
  omega

end Sizes

/-! ### The getters -/

theorem Mask.pixels_eq_nil_iff {m : Mask} : m.pixels = [] ↔ m.width * m.height = 0 := by
  rw [← List.length_eq_zero_iff, m.length_eq]

/-- **A copy shows the mask.** -/
theorem copyTo_eq {m : Mask} (hpos : m.pixels ≠ []) (hlt : m.pixels.length < 2 ^ 31) :
    copyTo (toInt m.width) (toInt m.height) m.pixels =
      .ok ⟨m.height, m.width, m.pixels⟩ := by
  rw [m.length_eq] at hlt
  have hne := Nat.pos_of_ne_zero fun h => hpos (Mask.pixels_eq_nil_iff.2 h)
  obtain ⟨hw, hh, -⟩ := area_eq hne hlt
  rw [copyTo, hw, hh, if_neg (by omega)]
  rfl

namespace SegmentationMask

variable {this : SegmentationMask} {m : Mask}

/-- The matrix shows a stored mask if the number of pixels is an `int`. -/
theorem exists_getCvMask_iff (hw : this.width = m.width) (hh : this.height = m.height)
    (hdata : this.data = m.pixels) (hlt : m.pixels.length < 2 ^ 63) :
    (∃ image, this.getCvMask = .ok image ∧ image.Shows m) ↔ m.pixels.length < 2 ^ 31 := by
  rw [getCvMask, hw, hh, hdata]
  split_ifs with hempty
  · refine iff_of_true ⟨_, rfl, hempty.symm, fun hne => absurd hempty hne⟩ ?_
    rw [hempty]
    decide
  constructor
  · rintro ⟨image, hget, -⟩
    obtain ⟨c, harea, hget⟩ := Loop.bind_eq_ok.1 hget
    dsimp only at hget
    split_ifs at hget with hsize
    exact lt_of_area harea hsize hlt
  · intro hint
    refine ⟨⟨m.height, m.width, m.pixels⟩, ?_, rfl, fun _ => ⟨rfl, rfl⟩⟩
    have hne := Nat.pos_of_ne_zero fun h => hempty (Mask.pixels_eq_nil_iff.2 h)
    obtain ⟨-, -, harea⟩ := area_eq hne (m.length_eq ▸ hint)
    dsimp only
    rw [harea]
    refine (if_pos ?_).trans (copyTo_eq hempty hint)
    rw [← m.length_eq]
    omega

theorem holds_iff (hlt : m.pixels.length < 2 ^ 63) : this.Holds m ↔
    this.width = m.width ∧ this.height = m.height ∧ this.data = m.pixels ∧
      m.pixels.length < 2 ^ 31 := by
  constructor
  · intro h
    exact ⟨h.width, h.height, h.getMaskData,
      (exists_getCvMask_iff h.width h.height h.getMaskData hlt).1 h.getCvMask⟩
  · rintro ⟨hw, hh, hdata, hint⟩
    exact ⟨hw, hh, hdata, (exists_getCvMask_iff hw hh hdata hlt).2 hint⟩

end SegmentationMask

namespace ImgDetectionsT

variable {DetectionT : Type} {this : ImgDetectionsT DetectionT} {m : Mask}

theorem getD_getMaskData : this.getMaskData.getD [] = this.data := by
  rw [getMaskData]
  split_ifs with hempty
  · exact hempty.symm
  · rfl

/-- A matrix that is returned has as many pixels as an `int` can say. -/
theorem length_lt_of_getCvSegmentationMask (hlt : this.data.length < 2 ^ 63) {image : Option Image}
    (h : this.getCvSegmentationMask = .ok image) : this.data.length < 2 ^ 31 := by
  rw [getCvSegmentationMask] at h
  split_ifs at h with hempty
  · rw [hempty]
    decide
  dsimp only at h
  split_ifs at h with hneg
  obtain ⟨c, harea, h⟩ := Loop.bind_eq_ok.1 h
  split_ifs at h with hsize
  exact lt_of_area harea (not_not.1 hsize) hlt

/-- **The matrix of a stored mask.** -/
theorem getCvSegmentationMask_eq (hw : this.segmentationMaskWidth = m.width)
    (hh : this.segmentationMaskHeight = m.height) (hdata : this.data = m.pixels)
    (hempty : m.pixels ≠ []) (hint : m.pixels.length < 2 ^ 31) :
    this.getCvSegmentationMask = .ok (some ⟨m.height, m.width, m.pixels⟩) := by
  have hne := Nat.pos_of_ne_zero fun h => hempty (Mask.pixels_eq_nil_iff.2 h)
  obtain ⟨hw', hh', harea⟩ := area_eq hne (m.length_eq ▸ hint)
  have hwpos := Nat.pos_of_mul_pos_right hne
  have hhpos := Nat.pos_of_mul_pos_left hne
  rw [getCvSegmentationMask, hw, hh, hdata, if_neg hempty, if_neg (by omega), harea]
  refine (if_neg ?_).trans ?_
  · rw [not_not, ← m.length_eq]
    omega
  · rw [copyTo_eq hempty hint]
    rfl

theorem exists_getCvSegmentationMask_iff (hw : this.segmentationMaskWidth = m.width)
    (hh : this.segmentationMaskHeight = m.height) (hdata : this.data = m.pixels)
    (hlt : m.pixels.length < 2 ^ 63) :
    (∃ image, this.getCvSegmentationMask = .ok image ∧ (image.getD ⟨0, 0, []⟩).Shows m) ↔
      m.pixels.length < 2 ^ 31 := by
  constructor
  · rintro ⟨image, hget, -⟩
    rw [← hdata] at hlt ⊢
    exact length_lt_of_getCvSegmentationMask hlt hget
  · intro hint
    by_cases hempty : m.pixels = []
    · exact ⟨none, if_pos (hdata.trans hempty), hempty.symm, fun hne => absurd hempty hne⟩
    · exact ⟨_, getCvSegmentationMask_eq hw hh hdata hempty hint, rfl, fun _ => ⟨rfl, rfl⟩⟩

theorem holds_iff (hlt : m.pixels.length < 2 ^ 63) : this.Holds m ↔
    this.segmentationMaskWidth = m.width ∧ this.segmentationMaskHeight = m.height ∧
      this.data = m.pixels ∧ m.pixels.length < 2 ^ 31 := by
  constructor
  · intro h
    have hdata : this.data = m.pixels := getD_getMaskData.symm.trans h.getMaskData
    exact ⟨h.width, h.height, hdata,
      (exists_getCvSegmentationMask_iff h.width h.height hdata hlt).1 h.getCvSegmentationMask⟩
  · rintro ⟨hw, hh, hdata, hint⟩
    exact ⟨hw, hh, getD_getMaskData.trans hdata,
      (exists_getCvSegmentationMask_iff hw hh hdata hlt).2 hint⟩

end ImgDetectionsT

/-! ### The setters -/

theorem length_setSize (data : List UInt8) (size : ℕ) : (setSize data size).length = size := by
  rw [setSize, List.length_append, List.length_take, List.length_replicate]
  omega

theorem memcpy_all {dst src : List UInt8} (h : dst.length = src.length) :
    memcpy dst 0 src = src := by
  rw [memcpy, List.take_zero, List.nil_append, Nat.zero_add, ← h, List.drop_length,
    List.append_nil]

theorem size_t_eq {n : ℕ} (hlt : n < 2 ^ 63) : size_t n = n :=
  Nat.mod_eq_of_lt (by omega)

/-- What is taken from a matrix are the pixels, unless the rows follow one another and there are
more. -/
theorem bytesOf_eq_iff {m : GrayMat} : bytesOf m.mat = m.mask.pixels ↔
    (m.mat.isContinuous → m.mat.view.data.length = m.mask.width * m.mask.height) := by
  have hmul : m.mask.width * m.mask.height = m.mat.view.rows * m.mat.view.cols := Nat.mul_comm _ _
  rw [bytesOf, hmul]
  split_ifs with hcontinuous
  · simp only [hcontinuous, true_imp_iff]
    exact eq_comm.trans StridedView.elements_eq_data_iff
  · exact iff_of_true rfl fun h => absurd h hcontinuous

theorem memcpy_append (before rest src : List UInt8) :
    memcpy (before ++ rest) before.length src = before ++ src ++ rest.drop src.length := by
  rw [memcpy, List.take_left, ← List.drop_drop, List.drop_left]

/-- **The rows are copied one after the other.** -/
theorem repack_eq (f : GrayFrame) {dst : List UInt8}
    (hdst : dst.length = f.view.rows * f.view.cols) :
    SegmentationMask.repack f.frame dst = f.view.elements := by
  have hrow : ∀ y, (f.frame.data.drop (y * f.frame.stride.toNat)).take f.frame.width.toNat =
      f.view.row y := fun y => by
    rw [StridedView.row, show f.view.offset = 0 from rfl, Nat.zero_add]
    rfl
  -- The rows up to `n` are there, and what is left has the length of the others.
  have hloop : ∃ rest, SegmentationMask.repack f.frame dst =
      (List.range f.view.rows).flatMap f.view.row ++ rest ∧
        rest.length = (f.view.rows - f.view.rows) * f.view.cols := by
    refine Loop.foldl_range (I := fun n s => ∃ rest, s = (List.range n).flatMap f.view.row ++ rest ∧
      rest.length = (f.view.rows - n) * f.view.cols) ⟨dst, rfl, hdst⟩ ?_
    rintro n hn s ⟨rest, rfl, hrest⟩
    have hlength := StridedView.length_row (v := f.view) hn
    have hbefore : ((List.range n).flatMap f.view.row).length = n * f.frame.width.toNat :=
      StridedView.length_flatMap_row (v := f.view) hn.le
    refine ⟨rest.drop f.view.cols, ?_, ?_⟩
    · dsimp only
      rw [hrow, ← hbefore, memcpy_append, hlength, List.range_succ, List.flatMap_append,
        List.flatMap_singleton]
    · rw [List.length_drop, hrest, ← Nat.sub_one_mul, Nat.sub_sub]
  obtain ⟨rest, hrepack, hrest⟩ := hloop
  rw [Nat.sub_self, Nat.zero_mul, List.length_eq_zero_iff] at hrest
  rw [hrepack, hrest, List.append_nil, StridedView.elements]

/-! ### What the setters do -/

section Setters

variable {this : SegmentationMask}

theorem length_mask_lt (f : GrayFrame) : f.mask.pixels.length < 2 ^ 63 := by
  obtain hzero | hpos := f.mask.pixels.length.eq_zero_or_pos
  · omega
  rw [f.mask.length_eq] at hpos ⊢
  have hrows : 0 < f.frame.height.toNat := Nat.pos_of_mul_pos_left hpos
  have hwithin := f.within hrows
  have hlt := f.length_lt
  have hle := Nat.mul_le_mul_left (f.frame.height.toNat - 1) f.width_le
  have hmul : f.mask.width * f.mask.height =
      (f.frame.height.toNat - 1) * f.frame.width.toNat + f.frame.width.toNat := by
    rw [← Nat.succ_mul, Nat.succ_eq_add_one, Nat.sub_add_cancel hrows, Nat.mul_comm]
    rfl
  omega

theorem length_matrix_lt (m : GrayMat) : m.mask.pixels.length < 2 ^ 63 := by
  rw [m.mask.length_eq]
  calc m.mask.width * m.mask.height ≤ 2 ^ 31 * 2 ^ 31 :=
        Nat.mul_le_mul m.mat.cols_lt.le m.mat.rows_lt.le
    _ < 2 ^ 63 := by norm_num

theorem setMaskSpan_eq {mask : List UInt8} {width height : ℕ}
    (h : mask.length = size_t (width * height)) :
    this.setMaskSpan mask width height = .ok ⟨mask, width, height⟩ := by
  rw [SegmentationMask.setMaskSpan, if_neg (not_not.2 h), memcpy_all (length_setSize _ _)]

/-- The least number of bytes that `setMask` asks for. Without rows it is more than there are. -/
theorem length_lt_minSourceSize_iff (f : GrayFrame) (h : f.frame.stride ≠ f.frame.width) :
    f.frame.data.length < size_t (size_t (f.frame.height.toNat + (2 ^ 64 - 1)) *
      f.frame.stride.toNat + f.frame.width.toNat) ↔ f.frame.height.toNat = 0 := by
  have hstride := f.frame.stride.toNat_lt
  have hwidth := f.frame.width.toNat_lt
  have hheight := f.frame.height.toNat_lt
  have hlt := f.length_lt
  have hwider : f.frame.width.toNat < f.frame.stride.toNat :=
    lt_of_le_of_ne f.width_le fun heq => h (UInt32.toNat_inj.1 heq.symm)
  obtain hzero | hpos := f.frame.height.toNat.eq_zero_or_pos
  · refine iff_of_true ?_ hzero
    rw [hzero, size_t, size_t]
    omega
  · refine iff_of_false ?_ hpos.ne'
    have hwithin := f.within hpos
    have hrows : size_t (f.frame.height.toNat + (2 ^ 64 - 1)) = f.frame.height.toNat - 1 := by
      rw [size_t]
      omega
    rw [hrows, size_t_eq (hwithin.trans_lt hlt)]
    omega

/-- `setMask` of a frame with rows that follow one another. -/
theorem setMaskFrame_of_packed (f : GrayFrame) (h : f.frame.stride = f.frame.width) :
    this.setMaskFrame f.frame =
      this.setMaskSpan f.frame.data f.frame.width.toNat f.frame.height.toNat := by
  rw [SegmentationMask.setMaskFrame, if_neg (not_not.2 f.gray)]
  exact if_pos (congrArg UInt32.toNat h)

/-- **`setMask` of a frame with gaps between the rows:** the pixels are repacked, and the size stays
what it was. -/
theorem setMaskFrame_of_gaps (f : GrayFrame) (h : f.frame.stride ≠ f.frame.width) :
    this.setMaskFrame f.frame = if f.frame.height.toNat = 0 then
      .error (.thrown "SegmentationMask: ImgFrame data size does not match width/height/stride")
    else .ok { this with data := f.mask.pixels } := by
  have hne : f.frame.stride.toNat ≠ f.frame.width.toNat := fun heq => h (UInt32.toNat_inj.1 heq)
  have hpacked : size_t (f.frame.width.toNat * f.frame.height.toNat) =
      f.view.rows * f.view.cols := by
    have hlt := length_mask_lt f
    rw [f.mask.length_eq] at hlt
    rw [Nat.mul_comm f.view.rows]
    exact size_t_eq hlt
  rw [SegmentationMask.setMaskFrame, if_neg (not_not.2 f.gray)]
  dsimp only
  rw [if_neg hne, hpacked, repack_eq f (length_setSize _ _)]
  simp only [length_lt_minSourceSize_iff f h]
  rfl

end Setters

/-! ### Round trips -/

namespace SegmentationMask

variable (this : SegmentationMask)

theorem Call.length_lt (call : Call) : call.mask.pixels.length < 2 ^ 63 := by
  cases call with
  | setMask m => exact m.length_lt
  | setMaskSpan m => exact m.length_lt
  | setMaskFrame f => exact length_mask_lt f
  | setCvMask m => exact length_matrix_lt m

variable {this} in
theorem roundTrips_of_ok {call : Call} {after : SegmentationMask} (h : call.run this = .ok after) :
    this.RoundTrips call ↔ after.width = call.mask.width ∧ after.height = call.mask.height ∧
      after.data = call.mask.pixels ∧ call.mask.width * call.mask.height < 2 ^ 31 := by
  rw [RoundTrips, h, ← call.mask.length_eq]
  simp only [Except.ok.injEq, forall_eq']
  exact holds_iff call.length_lt

/-- **Where a setter of `SegmentationMask` stores the mask.** -/
theorem roundTrips_iff (call : Call) : this.RoundTrips call ↔ this.Kept call := by
  cases call with
  | setMask m =>
    have hlength : m.pixels.length = size_t (m.width * m.height) := by
      rw [← m.length_eq, size_t_eq m.length_lt]
    have hrun : Call.run this (.setMask m) = .ok ⟨m.pixels, m.width, m.height⟩ :=
      if_neg (not_not.2 hlength)
    rw [roundTrips_of_ok hrun, Kept, m.length_eq]
    exact ⟨fun h => h.2.2.2, fun h => ⟨rfl, rfl, rfl, h⟩⟩
  | setMaskSpan m =>
    have hlength : m.pixels.length = size_t (m.width * m.height) := by
      rw [← m.length_eq, size_t_eq m.length_lt]
    have hrun : Call.run this (.setMaskSpan m) = .ok ⟨m.pixels, m.width, m.height⟩ :=
      setMaskSpan_eq hlength
    rw [roundTrips_of_ok hrun, Kept, m.length_eq]
    exact ⟨fun h => h.2.2.2, fun h => ⟨rfl, rfl, rfl, h⟩⟩
  | setMaskFrame f =>
    rw [Kept]
    split_ifs with hpacked
    · have hrun : Call.run this (.setMaskFrame f) =
          this.setMaskSpan f.frame.data f.mask.width f.mask.height :=
        setMaskFrame_of_packed f hpacked
      have hsize : size_t (f.mask.width * f.mask.height) = f.mask.width * f.mask.height :=
        size_t_eq (f.mask.length_eq ▸ length_mask_lt f)
      by_cases hlength : f.frame.data.length = f.mask.width * f.mask.height
      · rw [setMaskSpan_eq (hlength.trans hsize.symm)] at hrun
        have hpixels : f.mask.pixels = f.frame.data :=
          StridedView.elements_of_length (v := f.view) (hlength.trans (Nat.mul_comm _ _))
        rw [roundTrips_of_ok hrun]
        exact ⟨fun h _ => h.2.2.2, fun h => ⟨rfl, rfl, hpixels.symm, h hlength⟩⟩
      · -- The data is longer than the mask, and the call throws.
        refine iff_of_true (fun after h => ?_) fun h => absurd h hlength
        rw [hrun, setMaskSpan, hsize, if_pos hlength] at h
        cases h
    · have hrun : Call.run this (.setMaskFrame f) = _ := setMaskFrame_of_gaps f hpacked
      by_cases hzero : f.frame.height.toNat = 0
      · refine iff_of_true (fun after h => ?_) (.inl hzero)
        rw [hrun, if_pos hzero] at h
        cases h
      · rw [if_neg hzero] at hrun
        rw [roundTrips_of_ok hrun]
        constructor
        · rintro ⟨hw, hh, -, hlt⟩
          exact .inr ⟨hw, hh, hlt⟩
        · rintro (h | ⟨hw, hh, hlt⟩)
          · exact absurd h hzero
          · exact ⟨hw, hh, rfl, hlt⟩
  | setCvMask m =>
    have hrun : Call.run this (.setCvMask m) =
        .ok ⟨bytesOf m.mat, m.mask.width, m.mask.height⟩ := if_neg (not_not.2 m.gray)
    rw [roundTrips_of_ok hrun, Kept, ← bytesOf_eq_iff]
    exact ⟨fun h => h.2.2, fun h => ⟨rfl, rfl, h⟩⟩

end SegmentationMask

namespace ImgDetectionsT

variable {DetectionT : Type} (this : ImgDetectionsT DetectionT)

theorem Call.length_lt (call : Call) : call.mask.pixels.length < 2 ^ 63 := by
  cases call with
  | setSegmentationMask m => exact m.length_lt
  | setSegmentationMaskFrame f => exact length_mask_lt f
  | setCvSegmentationMask m => exact length_matrix_lt m

variable {this} in
theorem roundTrips_of_ok {call : Call} {after : ImgDetectionsT DetectionT}
    (h : call.run this = .ok after) : this.RoundTrips call ↔
      after.segmentationMaskWidth = call.mask.width ∧
      after.segmentationMaskHeight = call.mask.height ∧ after.data = call.mask.pixels ∧
      call.mask.width * call.mask.height < 2 ^ 31 := by
  rw [RoundTrips, h, ← call.mask.length_eq]
  simp only [Except.ok.injEq, forall_eq']
  exact holds_iff call.length_lt

/-- **Where a setter of `ImgDetectionsT` stores the mask.** -/
theorem roundTrips_iff (call : Call) : this.RoundTrips call ↔ call.Kept := by
  cases call with
  | setSegmentationMask m =>
    have hlength : m.pixels.length = size_t (m.width * m.height) := by
      rw [← m.length_eq, size_t_eq m.length_lt]
    have hrun : Call.run this (.setSegmentationMask m) =
        .ok ⟨m.pixels, m.width, m.height, this.detections⟩ := if_neg (not_not.2 hlength)
    rw [roundTrips_of_ok hrun, Call.Kept, m.length_eq]
    exact ⟨fun h => h.2.2.2, fun h => ⟨rfl, rfl, rfl, h⟩⟩
  | setSegmentationMaskFrame f =>
    have hrun : Call.run this (.setSegmentationMaskFrame f) =
        .ok ⟨f.frame.data, f.mask.width, f.mask.height, this.detections⟩ :=
      if_neg (not_not.2 f.gray)
    have hpixels : f.frame.data = f.mask.pixels ↔
        f.frame.data.length = f.mask.width * f.mask.height := by
      rw [Nat.mul_comm]
      exact eq_comm.trans (StridedView.elements_eq_data_iff (v := f.view))
    rw [roundTrips_of_ok hrun, Call.Kept, ← hpixels]
    exact ⟨fun h => h.2.2, fun h => ⟨rfl, rfl, h⟩⟩
  | setCvSegmentationMask m =>
    have hrun : Call.run this (.setCvSegmentationMask m) =
        .ok ⟨bytesOf m.mat, m.mask.width, m.mask.height, this.detections⟩ :=
      if_neg (not_not.2 m.gray)
    rw [roundTrips_of_ok hrun, Call.Kept, ← bytesOf_eq_iff]
    exact ⟨fun h => h.2.2, fun h => ⟨rfl, rfl, h⟩⟩

end ImgDetectionsT

/-- **The seven setters:** what is set is what one gets exactly if the call takes the pixels and
nothing else, the size is set or was the same before, and the number of pixels is an `int`. -/
theorem roundTrips_all (DetectionT : Type) :
    (∀ (this : SegmentationMask) call, this.RoundTrips call ↔ this.Kept call) ∧
      ∀ (this : ImgDetectionsT DetectionT) call, this.RoundTrips call ↔ call.Kept :=
  ⟨SegmentationMask.roundTrips_iff, ImgDetectionsT.roundTrips_iff⟩

/-! ### Two pixels in a column -/

/-- Two rows of one pixel with a gap of one byte. -/
def gapFrame : GrayFrame where
  frame := ⟨.GRAY8, 1, 2, 2, [7, 0, 9]⟩
  gray := rfl
  width_le := by decide
  within := by decide
  length_lt := by decide

/-- The lower one of two rows. -/
def lowerRow : GrayMat where
  mat := { type := "CV_8UC1", view := ⟨[7, 9], 1, 1, 1, 1, by decide, by decide⟩,
           rows_lt := by decide, cols_lt := by decide }
  gray := rfl

/-- A frame with gaps leaves the size of a new mask zero, its data goes whole into the detections,
and a row of a matrix brings the other row with it. -/
theorem not_roundTrips : ¬SegmentationMask.RoundTrips {} (.setMaskFrame gapFrame) ∧
    ¬SegmentationMask.RoundTrips {} (.setCvMask lowerRow) ∧
    ¬({} : ImgDetectionsT Unit).RoundTrips (.setSegmentationMaskFrame gapFrame) := by
  refine ⟨fun h => ?_, fun h => ?_, fun h => ?_⟩
  · have hrun := @setMaskFrame_of_gaps {} gapFrame (by decide)
    rw [if_neg (by decide)] at hrun
    exact absurd (h _ hrun).height (by decide)
  · exact absurd (h _ rfl).getMaskData (by decide)
  · exact absurd (h _ rfl).getMaskData (by decide)

end MaskMessages

end DepthaiCore
