import DepthaiCore.Utility.FrameLayout
import DepthaiCore.Utility.ImageManipHistory

/-!
# The colormap

Between the warp and the conversion to the type of output, `apply` maps an image of one channel to
colors. It describes the two images to OpenCV by numbers of rows and columns, a pointer and a stride.
The numbers come the other way round, so only a square image is described as it is. What is written to
the frame between the steps has rows of three bytes for each pixel, but a stride for one; and the
conversion that follows is built for an image of one channel.
-/

namespace DepthaiCore

namespace ImageManip

namespace ImageManipOperations

variable {F M : Type}

/-! ### What the step does -/

/-- `cv::Mat(rows, cols, type, data, step)`, with elements of some bytes: the addresses from `data`
on. -/
def mat (rows cols step elemSize : ℕ) : Plane :=
  ⟨0, step, rows, elemSize * cols⟩

/-- The image that is read. -/
def gray (width height sourceStride : UInt32) : Plane :=
  mat width.toNat height.toNat sourceStride.toNat 1

/-- The image that is written. -/
def color (width height targetStride : UInt32) : Plane :=
  mat width.toNat height.toNat targetStride.toNat 3

/-- The image that a buffer holds when the step begins. -/
def given (this : ImageManipOperations F M) : Buffer → List Plane
  | .src => planes this.type this.srcSpecs
  | .convertedFrame => (this.preprocCc.map fun cc => planes cc.typeTo cc.dstSpecs).getD []
  | .colormapFrame => (this.warpEngine.map fun w => planes w.type w.dstSpecs).getD []
  | _ => []

/-- The sizes of the buffers, given those of the two frames. -/
def bufferSize (this : ImageManipOperations F M) (srcSize dstSize : ℕ) : Buffer → ℕ
  | .src => srcSize
  | .dst => dstSize
  | .convertedFrame => this.convertedFrame.getD 0
  | .colormapFrame => this.colormapFrame.getD 0
  | .warpedFrame => this.warpedFrame.getD 0

/-- The step fits the steps before and after it: it reads the image that it is given, writes three
bytes for every pixel to rows of the target, and a conversion of what it wrote is built for this. -/
structure Fits (this : ImageManipOperations F M) (srcSize dstSize : ℕ) (source : Buffer)
    (sourceStride : UInt32) (target : Buffer) (targetStride : UInt32)
    (after : List (Action F M)) : Prop where
  reads : ∀ x, x ∈ (gray this.base.outputWidth this.base.outputHeight sourceStride).addresses ↔
    ∃ p ∈ this.given source, x ∈ p.addresses
  separate : (color this.base.outputWidth this.base.outputHeight targetStride).Separate
  below : (color this.base.outputWidth this.base.outputHeight targetStride).Below
    (this.bufferSize srcSize dstSize target)
  converts : ∀ cc s t, .colorChange cc s t ∈ after → ∃ c, cc = some c ∧
    c.typeFrom = VALID_TYPE_COLOR ∧
      planes c.typeFrom c.srcSpecs =
        [color this.base.outputWidth this.base.outputHeight targetStride]

/-! ### A new object that is built -/

/-- What a new object has become that was built for gray frames with a colormap. -/
structure BuiltGray (c : BuildCall F) (this : ImageManipOperations F M) : Prop where
  size : 2 ≤ c.srcFrameSpecs.width.toNat ∧ 2 ≤ c.srcFrameSpecs.height.toNat
  warp : this.mode.warp = c.newBase.hasWarp c.srcFrameSpecs.width c.srcFrameSpecs.height
  colormap : this.mode.colormap = true
  convertInput : this.convertInput = false
  inType : this.inType = c.inFrameType
  type : this.type = c.inFrameType
  srcSpecs : this.srcSpecs = c.srcFrameSpecs
  baseColormap : this.base.colormap = c.newBase.colormap
  warped : this.mode.warp = true → ∃ w, this.warpEngine = some w ∧ w.type = c.inFrameType ∧
    getDstFrameSpecs this.base.outputWidth this.base.outputHeight c.inFrameType = .ok w.dstSpecs
  unwarped : this.mode.warp = false → this.base.outputWidth = c.srcFrameSpecs.width ∧
    this.base.outputHeight = c.srcFrameSpecs.height
  clrChange : ∀ cc, this.clrChange = some cc → cc.typeFrom = c.inFrameType
  warpedFrame : this.warpedFrame = some (getAlignedOutputFrameSize VALID_TYPE_COLOR
    this.base.outputWidth.toNat this.base.outputHeight.toNat)

variable {backend : Backend} {K : Geometry F M} {unset : Unset} {c : BuildCall F}
  {this : ImageManipOperations F M}

theorem isTypeSupported_of_gray {type : ImgFrameType} (h : isSingleChannelu8 type = true) :
    isTypeSupported backend type = true := by
  cases type <;> cases backend <;> first | rfl | cases h

theorem builtGray_transform {s : ImageManipOperations F M} (hone : ¬c.OneDimensional)
    (hcolormap : s.mode.colormap = true)
    (hwarp : s.mode.warp = c.newBase.hasWarp c.srcFrameSpecs.width c.srcFrameSpecs.height)
    (hconvert : s.convertInput = false) (hin : s.inType = c.inFrameType)
    (htype : s.type = c.inFrameType) (hspecs : s.srcSpecs = c.srcFrameSpecs)
    (hbase : s.base.colormap = c.newBase.colormap) (hclr : s.clrChange = none)
    (hwarped : s.warpedFrame = none) (hmap : c.newBase.colormap ≠ .NONE)
    (hgray : isSingleChannelu8 c.inFrameType = true) {s' : ImageManipOperations F M}
    (h : s.transform K = .ok s') : BuiltGray c s'.allocate := by
  have hmode : s.mode ≠ .zero := by
    intro hzero
    rw [hzero] at hcolormap
    cases hcolormap
  have hsize : 2 ≤ c.srcFrameSpecs.width.toNat ∧ 2 ≤ c.srcFrameSpecs.height.toNat := by
    rw [BuildCall.OneDimensional, not_or, UInt32.not_le, UInt32.not_le, UInt32.lt_iff_toNat_lt,
      UInt32.lt_iff_toNat_lt] at hone
    exact hone
  rw [transform] at h
  by_cases hw : s.mode.warp = true
  · simp only at h
    rw [if_pos hw] at h
    obtain ⟨full, hfull, h⟩ := Loop.bind_eq_ok.1 h
    obtain ⟨matrixInv, hinv, h⟩ := Loop.bind_eq_ok.1 h
    obtain ⟨dstSpecs, hdst, h⟩ := Loop.bind_eq_ok.1 h
    obtain ⟨warped, hbuild, h⟩ := Loop.bind_eq_ok.1 h
    have hdst' := raise_eq_ok.1 hdst
    rw [getOutputFrameSpecs, if_neg hmode] at hdst'
    rw [buildWarp] at hbuild
    split at hbuild
    · cases hbuild
    cases hbuild
    obtain ⟨ccSrcSpecs, hsrc, h⟩ := Loop.bind_eq_ok.1 h
    obtain ⟨ccDstSpecs, hccdst, h⟩ := Loop.bind_eq_ok.1 h
    cases h
    refine ⟨hsize, hwarp, hcolormap, hconvert, hin, htype, hspecs, hbase, fun _ => ⟨_, rfl, htype, ?_⟩,
      fun hfalse => absurd (hw.symm.trans hfalse) (by decide), ?_, ?_⟩
    · rw [← htype]
      exact hdst'
    · intro cc hcc
      cases hcc
      exact htype
    · simp [allocate, hwarped, grow, htype, hgray, hbase, hmap]
  · simp only at h
    rw [if_neg hw] at h
    cases h
    refine ⟨hsize, hwarp, hcolormap, hconvert, hin, htype, hspecs, hbase, fun htrue => absurd htrue hw,
      fun _ => ⟨congrArg FrameSpecs.width hspecs, congrArg FrameSpecs.height hspecs⟩, ?_, ?_⟩
    · intro cc hcc
      exact absurd (hclr.symm.trans hcc) (by simp)
    · simp [allocate, hwarped, grow, htype, hgray, hbase, hmap]

/-- **A new object that is built.** Gray frames are not converted first. -/
theorem builtGray (hbuild : (new K unset).build backend K c = .ok this)
    (hcolormap : c.newBase.colormap ≠ .NONE) (hgray : isSingleChannelu8 c.inFrameType = true) :
    BuiltGray c this := by
  rw [build, isCached_new, if_neg Bool.false_ne_true] at hbuild
  split at hbuild
  · cases hbuild
  next hone =>
  have hbit : (requestedMode c ((new K unset).resolveOutType c)).colormap = true := by
    simp [requestedMode, hcolormap, hgray]
  have hmode : ∀ m : Mode, m.colormap = true → m ≠ .zero ∧ m ≠ .CONVERT := by
    rintro m h
    constructor <;> rintro rfl <;> cases h
  obtain ⟨s, hs⟩ : ∃ s : ImageManipOperations F M,
      s = ({ new K unset with prevConfig := K.str c.newBase, outputOps := [] } :
        ImageManipOperations F M).configure c ((new K unset).resolveOutType c) := ⟨_, rfl⟩
  have hrebuild : s.rebuild backend K = .ok this := by
    rw [hs]
    exact hbuild
  have hsmode : s.mode = requestedMode c ((new K unset).resolveOutType c) := by
    rw [hs]
    exact zero_or _
  have hscolormap : s.mode.colormap = true := by
    rw [hsmode, hbit]
  rw [rebuild, if_neg (hmode _ hscolormap).1] at hrebuild
  obtain ⟨s', hpre, hrebuild⟩ := Loop.bind_eq_ok.1 hrebuild
  obtain ⟨s'', htransform, hrebuild⟩ := Loop.bind_eq_ok.1 hrebuild
  cases hrebuild
  have hin : s.inType = c.inFrameType := by
    rw [hs]
    rfl
  rw [preprocess, if_neg (hmode _ hscolormap).2, hin, isTypeSupported_of_gray hgray] at hpre
  cases hpre
  refine builtGray_transform hone hscolormap ?_ ?_ hin ?_ ?_ ?_ ?_ ?_ hcolormap hgray htransform
  · rw [hsmode]
    rfl
  all_goals rw [hs]
  · rfl
  · rfl
  · rfl
  · simp [configure, hgray]
  · rfl
  · rfl

/-! ### The output is not empty -/

theorem p1Stride_pos {type : ImgFrameType} {width height : UInt32} {specs : FrameSpecs}
    (hspecs : getDstFrameSpecs width height type = .ok specs) (hpos : 0 < specs.p1Stride.toNat) :
    0 < width.toNat := by
  rw [Nat.pos_iff_ne_zero]
  intro hzero
  obtain rfl : width = 0 := UInt32.toNat_inj.1 hzero
  cases type <;> cases hspecs <;> exact Nat.lt_irrefl 0 hpos

theorem planeSize_pos {plane size : ℕ} (hmode : this.mode ≠ .zero)
    (h : this.getOutputPlaneSize plane = .ok size) : this.planeSize plane = .ok size ∧ 0 < size := by
  rw [getOutputPlaneSize, if_neg hmode] at h
  obtain ⟨n, hn, h⟩ := Loop.bind_eq_ok.1 h
  split at h
  · cases h
  · next hne =>
    cases h
    exact ⟨hn, Nat.pos_of_ne_zero hne⟩

theorem exists_planeSize {size : ℕ} (hmode : this.mode ≠ .zero)
    (h : this.getOutputSize = .ok size) : ∃ n, this.planeSize 0 = .ok n ∧ 0 < n := by
  rw [getOutputSize, if_neg hmode] at h
  obtain ⟨n, hn, -⟩ := Loop.bind_eq_ok.1 h
  rw [outputSize] at hn
  split at hn
  case h_8 =>
    obtain ⟨k, -, hn⟩ := Loop.bind_eq_ok.1 hn
    obtain ⟨m, hm, -⟩ := Loop.bind_eq_ok.1 hn
    exact ⟨m, planeSize_pos hmode hm⟩
  case h_10 => cases hn
  all_goals
    first
      | exact ⟨n, planeSize_pos hmode hn⟩
      | (obtain ⟨m, hm, -⟩ := Loop.bind_eq_ok.1 hn
         exact ⟨m, planeSize_pos hmode hm⟩)

/-- **An output that has a size** has rows and columns. -/
theorem output_pos {size : ℕ} (hmode : this.mode ≠ .zero) (h : this.getOutputSize = .ok size) :
    0 < this.base.outputWidth.toNat ∧ 0 < this.base.outputHeight.toNat := by
  obtain ⟨n, hn, hpos⟩ := exists_planeSize hmode h
  have hstride : ∀ stride, this.getOutputStride 0 = .ok stride → 0 < stride →
      0 < this.base.outputWidth.toNat := by
    intro stride hstride hlt
    rw [getOutputStride, getOutputFrameSpecs, if_neg hmode] at hstride
    obtain ⟨specs, hspecs, hstride⟩ := Loop.bind_eq_ok.1 hstride
    cases hstride
    exact p1Stride_pos hspecs hlt
  have hrows : 0 < alignUp this.getOutputHeight 32 → 0 < this.base.outputHeight.toNat := by
    intro hlt
    rw [Nat.pos_iff_ne_zero]
    intro hzero
    rw [getOutputHeight, hzero] at hlt
    exact absurd hlt (by decide)
  rw [planeSize] at hn
  split at hn
  case h_10 => cases hn
  all_goals
    obtain ⟨stride, hs, hn⟩ := Loop.bind_eq_ok.1 hn
    cases hn
    obtain ⟨hlt, hlt'⟩ := CanonicallyOrderedAdd.mul_pos.1 hpos
    first
      | exact ⟨hstride _ hs hlt, hlt'⟩
      | exact ⟨hstride _ hs hlt, hrows hlt'⟩

/-! ### The step in its place -/

/-- Where the step reads, and with which stride. -/
def stepSource (this : ImageManipOperations F M) : Buffer × UInt32 :=
  if this.mode.warp then (.colormapFrame, ALIGN_UP this.base.outputWidth 128)
  else (.src, this.srcSpecs.p1Stride)

/-- Where the step writes, and with which stride. -/
def stepTarget (this : ImageManipOperations F M) : Buffer × UInt32 :=
  if this.outputFrameType = VALID_TYPE_COLOR then (.dst, this.base.outputWidth * 3)
  else (.warpedFrame, ALIGN_UP this.base.outputWidth 128)

/-- What follows the step. -/
def stepsAfter (this : ImageManipOperations F M) : List (Action F M) :=
  if this.type ≠ this.outputFrameType ∧ this.outputFrameType ≠ VALID_TYPE_COLOR then
    [.colorChange this.clrChange .warpedFrame .dst]
  else []

theorem BuiltGray.mode_ne (h : BuiltGray c this) : this.mode ≠ .zero ∧ this.mode ≠ .CONVERT := by
  have hcolormap := h.colormap
  constructor <;> intro hmode <;> rw [hmode] at hcolormap <;> cases hcolormap

/-- **What `apply` does** with gray frames: the step comes after the warp, if there is one. -/
theorem BuiltGray.apply_eq (h : BuiltGray c this) (hcolormap : c.newBase.colormap ≠ .NONE)
    (hgray : isSingleChannelu8 c.inFrameType = true) {specs : FrameSpecs}
    (hspecs : getDstFrameSpecs this.base.outputWidth this.base.outputHeight this.outputFrameType =
      .ok specs)
    {srcSize : ℕ} (hsrc : (getFrameSize c.inFrameType c.srcFrameSpecs).toNat ≤ srcSize) :
    ∃ before, this.apply srcSize = .ok (before ++
      .colormap this.base.colormap this.base.outputWidth this.base.outputHeight this.stepSource.1
        this.stepSource.2 this.stepTarget.1 this.stepTarget.2 :: this.stepsAfter) := by
  obtain ⟨hzero, hsole⟩ := h.mode_ne
  have hstep : this.applyColormap = .ok (.colormap this.base.colormap this.base.outputWidth
      this.base.outputHeight this.stepSource.1 this.stepSource.2 this.stepTarget.1
        this.stepTarget.2) := by
    have hcolor : this.outputFrameType = VALID_TYPE_COLOR →
        specs.p1Stride = this.base.outputWidth * 3 := by
      intro hout
      rw [hout] at hspecs
      cases hspecs
      rfl
    rw [applyColormap, getOutputFrameSpecs, if_neg hzero, hspecs]
    by_cases hout : this.outputFrameType = VALID_TYPE_COLOR <;>
      by_cases hwarp : this.mode.warp = true <;>
      simp [stepSource, stepTarget, hout, hwarp, hcolor, h.convertInput, Loop.ok_bind]
  have hafter : (if this.type != this.outputFrameType && !(isSingleChannelu8 this.type &&
      this.base.colormap != .NONE && this.outputFrameType == VALID_TYPE_COLOR) then
        [Action.colorChange this.clrChange .warpedFrame .dst] else []) = this.stepsAfter := by
    simp [stepsAfter, h.type, h.baseColormap, hgray, hcolormap]
  rw [apply, h.inType, h.srcSpecs, if_neg (Nat.not_lt.2 hsrc), if_neg hzero, if_neg hsole,
    if_pos h.colormap, hstep, hafter]
  exact ⟨_, congrArg Except.ok (List.append_assoc _ _ _)⟩

/-! ### What is read -/

/-- The stride of a gray image: it is wide enough, or it does not fit and is zero. -/
theorem stride_cases {width : UInt32} (hpos : 0 < width.toNat) :
    (ALIGN_UP width 128).toNat = alignUp width.toNat 128 ∨
      (ALIGN_UP width 128).toNat = 0 ∧ 43 ≤ width.toNat := by
  by_cases hfits : alignUp width.toNat (2 ^ 7) < 2 ^ 32
  · exact .inl (toNat_ALIGN_UP (k := 7) rfl rfl (by omega) hfits)
  · refine .inr ?_
    have hlt := width.toNat_lt
    have hbig : 2 ^ 32 ≤ width.toNat + 127 := by
      rw [alignUp] at hfits
      omega
    have hwrap : (width + (128 - 1)).toNat = width.toNat + 127 - 2 ^ 32 := by
      rw [UInt32.toNat_add]
      show (width.toNat + 127) % 2 ^ 32 = _
      omega
    refine ⟨?_, by omega⟩
    rw [toNat_ALIGN_UP_of_sum (k := 7) rfl (by omega), hwrap]
    omega

/-- The image that the step is given starts at zero unless it is the frame. -/
def stepOffset (c : BuildCall F) : ℕ :=
  if c.newBase.hasWarp c.srcFrameSpecs.width c.srcFrameSpecs.height then 0
  else c.srcFrameSpecs.p1Offset.toNat

theorem planes_gray {type : ImgFrameType} (hgray : isSingleChannelu8 type = true)
    (specs : FrameSpecs) : planes type specs =
      [⟨specs.p1Offset.toNat, specs.p1Stride.toNat, specs.height.toNat, specs.width.toNat⟩] := by
  cases type <;> first | rfl | cases hgray

theorem BuiltGray.given_eq (h : BuiltGray c this)
    (hgray : isSingleChannelu8 c.inFrameType = true) :
    this.given this.stepSource.1 = [⟨stepOffset c, this.stepSource.2.toNat,
      this.base.outputHeight.toNat, this.base.outputWidth.toNat⟩] := by
  by_cases hwarp : this.mode.warp = true
  · obtain ⟨w, hw, htype, hspecs⟩ := h.warped hwarp
    have hdst : w.dstSpecs = ⟨this.base.outputWidth, this.base.outputHeight, 0, 0, 0,
        ALIGN_UP this.base.outputWidth 128, 0, 0⟩ := by
      cases hin : c.inFrameType <;> rw [hin] at hgray hspecs <;> cases hgray <;>
        exact (Except.ok.inj hspecs).symm
    rw [stepSource, if_pos hwarp, given, hw]
    show planes w.type w.dstSpecs = _
    rw [htype, planes_gray hgray, hdst, stepOffset, ← h.warp, if_pos hwarp]
    rfl
  · obtain ⟨hwidth, hheight⟩ := h.unwarped (by simpa using hwarp)
    rw [stepSource, if_neg hwarp, given, h.type, planes_gray hgray, stepOffset, ← h.warp,
      if_neg hwarp, h.srcSpecs, hwidth, hheight]

/-- **What is read** is the image that the step is given if and only if that is square and starts at
zero. -/
theorem BuiltGray.reads_iff (h : BuiltGray c this)
    (hgray : isSingleChannelu8 c.inFrameType = true)
    (hstride : c.srcFrameSpecs.width.toNat ≤ c.srcFrameSpecs.p1Stride.toNat)
    (hpos : 0 < this.base.outputWidth.toNat ∧ 0 < this.base.outputHeight.toNat) :
    (∀ x, x ∈ (gray this.base.outputWidth this.base.outputHeight this.stepSource.2).addresses ↔
      ∃ p ∈ this.given this.stepSource.1, x ∈ p.addresses) ↔
      this.base.outputWidth.toNat = this.base.outputHeight.toNat ∧ stepOffset c = 0 := by
  rw [h.given_eq hgray]
  simp only [List.mem_singleton, exists_eq_left, gray, mat, one_mul]
  rw [← Set.ext_iff]
  by_cases hwarp : this.mode.warp = true
  · have hoffset : stepOffset c = 0 := by
      rw [stepOffset, ← h.warp, if_pos hwarp]
    rw [stepSource, if_pos hwarp]
    rcases stride_cases hpos.1 with hS | ⟨hS, -⟩
    · have hle : this.base.outputWidth.toNat ≤ alignUp this.base.outputWidth.toNat 128 :=
        le_alignUp (by omega)
      rw [hS]
      refine Plane.addresses_eq_iff hpos.1 hpos.2 hle ?_
      have := hpos.1
      rw [alignUp]
      omega
    · rw [hS, hoffset]
      refine ⟨fun heq => ⟨?_, rfl⟩, fun heq => by rw [heq.1]⟩
      have hmem := fun x => Set.ext_iff.1 heq x
      simp only [Plane.mem_addresses_zero hpos.1, Plane.mem_addresses_zero hpos.2] at hmem
      have hw := hmem this.base.outputWidth.toNat
      have hh := hmem this.base.outputHeight.toNat
      omega
  · have hwidth := (h.unwarped (by simpa using hwarp)).1
    rw [stepSource, if_neg hwarp, h.srcSpecs]
    have hsize := h.size.1
    rw [← hwidth] at hstride hsize
    exact Plane.addresses_eq_iff hpos.1 hpos.2 hstride (hsize.trans hstride)

/-! ### What is written, and what follows -/

/-- The output is square and has the size and the type that the step is right for. -/
def Meets (c : BuildCall F) (this : ImageManipOperations F M) : Prop :=
  this.base.outputWidth.toNat = this.base.outputHeight.toNat ∧ stepOffset c = 0 ∧
    (this.outputFrameType = VALID_TYPE_COLOR ∧ 3 * this.base.outputWidth.toNat < 2 ^ 32 ∨
      this.outputFrameType = c.inFrameType ∧ this.base.outputWidth.toNat ≤ 42)

theorem bytes_le_of_separate {w stride : ℕ} (h : (mat w w stride 3).Separate) (hw : 2 ≤ w) :
    3 * w ≤ stride :=
  h.bytes_le hw (Nat.mul_pos (by omega) (by omega))

theorem size_of_color {size : ℕ} (hmode : this.mode ≠ .zero)
    (hout : this.outputFrameType = VALID_TYPE_COLOR) (h : this.getOutputSize = .ok size) :
    size = (this.base.outputWidth * 3).toNat * this.base.outputHeight.toNat := by
  have hstride : this.getOutputStride 0 = .ok (this.base.outputWidth * 3).toNat := by
    rw [getOutputStride, getOutputFrameSpecs, if_neg hmode, hout]
    rfl
  rw [getOutputSize, if_neg hmode] at h
  obtain ⟨n, hn, h⟩ := Loop.bind_eq_ok.1 h
  split at h
  · cases h
  cases h
  rw [outputSize, hout] at hn
  have hplane := (planeSize_pos hmode hn).1
  rw [planeSize, hout] at hplane
  obtain ⟨stride, hs, hplane⟩ := Loop.bind_eq_ok.1 hplane
  rw [hstride] at hs
  cases hs
  exact (Except.ok.inj hplane).symm

theorem BuiltGray.fits_color (h : BuiltGray c this) (srcSize : ℕ) {dstSize size : ℕ}
    (hout : this.outputFrameType = VALID_TYPE_COLOR) (hsize : this.getOutputSize = .ok size)
    (hdst : size ≤ dstSize)
    (hsquare : this.base.outputWidth.toNat = this.base.outputHeight.toNat) :
    ((color this.base.outputWidth this.base.outputHeight this.stepTarget.2).Separate ∧
      (color this.base.outputWidth this.base.outputHeight this.stepTarget.2).Below
        (this.bufferSize srcSize dstSize this.stepTarget.1)) ↔
      3 * this.base.outputWidth.toNat < 2 ^ 32 := by
  have hbytes := size_of_color h.mode_ne.1 hout hsize
  have htoNat : (this.base.outputWidth * 3).toNat = this.base.outputWidth.toNat * 3 % 2 ^ 32 :=
    UInt32.toNat_mul _ _
  rw [stepTarget, if_pos hout, color, ← hsquare]
  rw [← hsquare] at hbytes
  simp only [bufferSize]
  generalize this.base.outputWidth.toNat = w at *
  generalize (this.base.outputWidth * 3).toNat = stride at *
  constructor
  · rintro ⟨hseparate, -⟩
    by_cases hw : 2 ≤ w
    · have := bytes_le_of_separate hseparate hw
      omega
    · omega
  · intro hfits
    have hstride : stride = 3 * w := by omega
    refine ⟨Plane.separate_of_le hstride.ge, Plane.below_of_le hstride.ge ?_⟩
    rw [Plane.stop, mat, zero_add, mul_comm]
    exact hbytes.symm.trans_le hdst

/-- The frame between the steps holds square images whose rows of color are not longer than a stride
for gray. -/
theorem BuiltGray.fits_warped (h : BuiltGray c this) (srcSize dstSize : ℕ)
    (hout : this.outputFrameType ≠ VALID_TYPE_COLOR) (hpos : 0 < this.base.outputWidth.toNat)
    (hsquare : this.base.outputWidth.toNat = this.base.outputHeight.toNat) :
    ((color this.base.outputWidth this.base.outputHeight this.stepTarget.2).Separate ∧
      (color this.base.outputWidth this.base.outputHeight this.stepTarget.2).Below
        (this.bufferSize srcSize dstSize this.stepTarget.1)) ↔
      this.base.outputWidth.toNat ≤ 42 := by
  have hstride := stride_cases hpos
  rw [stepTarget, if_neg hout, color, ← hsquare]
  simp only [bufferSize, h.warpedFrame, Option.getD_some, ← hsquare]
  generalize (ALIGN_UP this.base.outputWidth 128).toNat = stride at *
  generalize this.base.outputWidth.toNat = w at *
  constructor
  · rintro ⟨hseparate, -⟩
    by_cases hw : 2 ≤ w
    · have hle := bytes_le_of_separate hseparate hw
      rcases hstride with rfl | ⟨rfl, -⟩
      · rw [alignUp] at hle
        omega
      · omega
    · omega
  · intro hw
    obtain rfl : stride = 128 := by
      rcases hstride with rfl | ⟨-, hbig⟩
      · rw [alignUp]
        omega
      · omega
    have hbytes : (mat w w 128 3).bytes ≤ (mat w w 128 3).stride := by
      show 3 * w ≤ 128
      omega
    refine ⟨Plane.separate_of_le hbytes, Plane.below_of_le hbytes ?_⟩
    have hrow : 128 ≤ alignUp (3 * w) 128 := by
      rw [alignUp]
      omega
    have hrows : w ≤ alignUp w 32 := le_alignUp (by omega)
    rw [Plane.stop, mat, zero_add, mul_comm]
    exact (Nat.mul_le_mul hrow hrows).trans (le_alignUp (by omega))

theorem BuiltGray.converts_iff (h : BuiltGray c this)
    (hgray : isSingleChannelu8 c.inFrameType = true) (written : Plane) :
    (∀ cc s t, .colorChange cc s t ∈ this.stepsAfter → ∃ b, cc = some b ∧
      b.typeFrom = VALID_TYPE_COLOR ∧ planes b.typeFrom b.srcSpecs = [written]) ↔
      this.outputFrameType = VALID_TYPE_COLOR ∨ this.outputFrameType = c.inFrameType := by
  rw [stepsAfter, h.type]
  constructor
  · intro hconverts
    by_contra hnot
    rw [not_or] at hnot
    rw [if_pos ⟨Ne.symm hnot.2, hnot.1⟩] at hconverts
    obtain ⟨b, hb, htype, -⟩ := hconverts _ _ _ (List.mem_singleton.2 rfl)
    rw [h.clrChange b hb] at htype
    rw [htype] at hgray
    cases hgray
  · intro htypes cc s t hmem
    rw [if_neg] at hmem
    · cases hmem
    · rintro ⟨hin, hcolor⟩
      exact htypes.elim hcolor fun hout => hin hout.symm

/-- **When the colormap fits.** A new object is built for gray frames and a colormap, with any
configuration of warps and for any type of output that has a layout. What `apply` then does contains
the step, and the step reads the image that it is given, writes its colors to rows of the target, and
leaves no conversion that is built for something else, if and only if the output is square, the image
starts at the start of its buffer, and either the output is RGB888i, with strides of less than 2^32
bytes, or it has the type of the input and at most 42 rows. -/
theorem fits_iff {srcSize dstSize size : ℕ} {specs : FrameSpecs}
    (hbuild : (new K unset).build backend K c = .ok this) (hcolormap : c.newBase.colormap ≠ .NONE)
    (hgray : isSingleChannelu8 c.inFrameType = true)
    (hstride : c.srcFrameSpecs.width.toNat ≤ c.srcFrameSpecs.p1Stride.toNat)
    (hsrc : (getFrameSize c.inFrameType c.srcFrameSpecs).toNat ≤ srcSize)
    (hspecs : getDstFrameSpecs this.base.outputWidth this.base.outputHeight this.outputFrameType =
      .ok specs)
    (hsize : this.getOutputSize = .ok size) (hdst : size ≤ dstSize) :
    ∃ before source sourceStride target targetStride after,
      this.apply srcSize = .ok (before ++ .colormap this.base.colormap this.base.outputWidth
        this.base.outputHeight source sourceStride target targetStride :: after) ∧
      (this.Fits srcSize dstSize source sourceStride target targetStride after ↔ Meets c this) := by
  have h := builtGray hbuild hcolormap hgray
  obtain ⟨before, happly⟩ := h.apply_eq hcolormap hgray hspecs hsrc
  have hpos := output_pos h.mode_ne.1 hsize
  refine ⟨before, _, _, _, _, _, happly, ?_⟩
  have hreads := h.reads_iff hgray hstride hpos
  have hcolor : isSingleChannelu8 VALID_TYPE_COLOR = false := rfl
  constructor
  · rintro ⟨hr, hseparate, hbelow, hconverts⟩
    obtain ⟨hsquare, hoffset⟩ := hreads.1 hr
    refine ⟨hsquare, hoffset, ?_⟩
    by_cases hout : this.outputFrameType = VALID_TYPE_COLOR
    · exact .inl ⟨hout, (h.fits_color srcSize hout hsize hdst hsquare).1 ⟨hseparate, hbelow⟩⟩
    · exact .inr ⟨((h.converts_iff hgray _).1 hconverts).resolve_left hout,
        (h.fits_warped srcSize dstSize hout hpos.1 hsquare).1 ⟨hseparate, hbelow⟩⟩
  · rintro ⟨hsquare, hoffset, ⟨hout, hfits⟩ | ⟨hout, hfits⟩⟩
    · obtain ⟨hseparate, hbelow⟩ := (h.fits_color srcSize hout hsize hdst hsquare).2 hfits
      exact ⟨hreads.2 ⟨hsquare, hoffset⟩, hseparate, hbelow, (h.converts_iff hgray _).2 (.inl hout)⟩
    · have hne : this.outputFrameType ≠ VALID_TYPE_COLOR := by
        intro heq
        rw [← hout, heq, hcolor] at hgray
        cases hgray
      obtain ⟨hseparate, hbelow⟩ :=
        (h.fits_warped srcSize dstSize hne hpos.1 hsquare).2 hfits
      exact ⟨hreads.2 ⟨hsquare, hoffset⟩, hseparate, hbelow, (h.converts_iff hgray _).2 (.inr hout)⟩

/-- Gray frames without padding, to be colored. -/
def toJet (width height : UInt32) : BuildCall Unit :=
  ⟨{ colormap := .JET }, .RGB888i, ⟨width, height, 0, 0, 0, width, 0, 0⟩, .GRAY8⟩

theorem fits_iff_square :
    ∃ this : ImageManipOperations Unit Unit,
      (new Square.arithmetic Square.unset).build .OPENCV Square.arithmetic (toJet 4 4) = .ok this ∧
      ∃ before source sourceStride target targetStride after,
        this.apply 16 = .ok (before ++ .colormap this.base.colormap this.base.outputWidth
          this.base.outputHeight source sourceStride target targetStride :: after) ∧
        (this.Fits 16 48 source sourceStride target targetStride after ↔ Meets (toJet 4 4) this) := by
  obtain ⟨this, hbuild, hsize, hspecs⟩ : ∃ this : ImageManipOperations Unit Unit,
      (new Square.arithmetic Square.unset).build .OPENCV Square.arithmetic (toJet 4 4) = .ok this ∧
      this.getOutputSize = .ok 48 ∧ ∃ specs, getDstFrameSpecs this.base.outputWidth
        this.base.outputHeight this.outputFrameType = .ok specs := ⟨_, rfl, rfl, _, rfl⟩
  obtain ⟨specs, hspecs⟩ := hspecs
  exact ⟨this, hbuild, fits_iff hbuild (by decide) (by decide) (by decide) (by decide) hspecs hsize
    le_rfl⟩

/-- **A frame of four by two.** It is described as two by four: the last byte that is read is the
fourteenth of eight. -/
theorem not_fits :
    ∃ this : ImageManipOperations Unit Unit,
      (new Square.arithmetic Square.unset).build .OPENCV Square.arithmetic (toJet 4 2) = .ok this ∧
      this.getOutputSize = .ok 24 ∧ this.apply 8 = .ok [.colormap .JET 4 2 .src 4 .dst 12] ∧
      ¬this.Fits 8 24 .src 4 .dst 12 [] := by
  refine ⟨_, rfl, rfl, rfl, fun hfits => ?_⟩
  obtain ⟨p, hp, i, hi, -, hlt⟩ := (hfits.reads 13).1 ⟨3, by decide, by decide, by decide⟩
  obtain rfl := List.mem_singleton.1 hp
  have hrows : i < 2 := hi
  have hbytes : 13 < 0 + i * 4 + 4 := hlt
  omega

end ImageManipOperations

end ImageManip

end DepthaiCore
