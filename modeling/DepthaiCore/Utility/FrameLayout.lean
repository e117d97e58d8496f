import DepthaiCore.Lib.Planes
import DepthaiCore.Utility.ImageManip

/-!
# The layout of an output

The layout of an output is computed by `getDstFrameSpecs`, and its size in three other places: from
the layout by `getFrameSize`, from the planes by `getOutputSize`, and from the size of the image by
`getAlignedOutputFrameSize`. The numbers of a layout have 32 bits; where they are too few, planes
overlap.
-/

namespace DepthaiCore

namespace ImageManip

/-! ### What the source computes -/

/-- The planes of a layout, with the bytes of the pixels of a row. -/
def planes (type : ImgFrameType) (specs : FrameSpecs) : List Plane :=
  let width := specs.width.toNat
  let height := specs.height.toNat
  let p1 (bytes : ℕ) : Plane := ⟨specs.p1Offset.toNat, specs.p1Stride.toNat, height, bytes⟩
  let p2 (rows bytes : ℕ) : Plane := ⟨specs.p2Offset.toNat, specs.p2Stride.toNat, rows, bytes⟩
  let p3 (rows bytes : ℕ) : Plane := ⟨specs.p3Offset.toNat, specs.p3Stride.toNat, rows, bytes⟩
  match type with
  | .RGB888p | .BGR888p => [p1 width, p2 height width, p3 height width]
  | .RGB888i | .BGR888i => [p1 (3 * width)]
  | .NV12 => [p1 width, p2 (height / 2) width]
  | .YUV420p => [p1 width, p2 (height / 2) (width / 2), p3 (height / 2) (width / 2)]
  | .RAW8 | .GRAY8 => [p1 width]
  | .RAW16 => [p1 (2 * width)]
  | _ => []

namespace ImageManipOperations

variable {F M : Type} (this : ImageManipOperations F M)

def getOutputStride (plane : ℕ := 0) : Except String ℕ := do
  let specs ← this.getOutputFrameSpecs this.outputFrameType
  match plane with
  | 0 => return specs.p1Stride.toNat
  | 1 => return specs.p2Stride.toNat
  | 2 => return specs.p3Stride.toNat
  | _ => return 0

def getOutputHeight : ℕ :=
  this.base.outputHeight.toNat

/-- The size that `getOutputPlaneSize` computes, before it is checked. -/
def planeSize (plane : ℕ) : Except String ℕ :=
  let height := this.getOutputHeight
  let luma := do return (← this.getOutputStride 0) * alignUp height 32
  let chroma := do
    return alignUp ((← this.getOutputStride plane) * alignUp (height / 2) 16) 4096
  match this.outputFrameType with
  | .RGB888p | .BGR888p | .RGB888i | .BGR888i | .RAW16 => do
    return (← this.getOutputStride) * height
  | .GRAY8 | .RAW8 => luma
  | .NV12 => if plane = 0 then luma else if plane = 1 then chroma else .ok 0
  | .YUV420p => if plane = 0 then luma else if plane = 1 ∨ plane = 2 then chroma else .ok 0
  | _ => .error "Output frame type not supported"

def getOutputPlaneSize (plane : ℕ := 0) : Except String ℕ := do
  if this.mode = .zero then
    return 0
  let size ← this.planeSize plane
  if size = 0 then
    throw s!"Output size is 0 for plane {plane}"
  return size

/-- The size that `getOutputSize` computes, before it is checked. -/
def outputSize : Except String ℕ := do
  match this.outputFrameType with
  | .RGB888p | .BGR888p => return (← this.getOutputPlaneSize 0) * 3
  | .RGB888i | .BGR888i | .GRAY8 | .RAW8 | .RAW16 => this.getOutputPlaneSize 0
  | .YUV420p =>
    let size ← this.getOutputPlaneSize 2
    return size + ((← this.getOutputPlaneSize 0) + (← this.getOutputPlaneSize 1))
  | .NV12 => return (← this.getOutputPlaneSize 0) + (← this.getOutputPlaneSize 1)
  | _ => throw "Output frame type not supported"

def getOutputSize : Except String ℕ := do
  if this.mode = .zero then
    return 0
  let size ← this.outputSize
  if size = 0 then
    throw "Output size is 0"
  return size

end ImageManipOperations

/-! ### Without a bound on numbers -/

/-- The planes of a frame of the given size. -/
def layout (type : ImgFrameType) (width height : ℕ) : List Plane :=
  match type with
  | .RGB888p | .BGR888p =>
    [⟨0, width, height, width⟩, ⟨width * height, width, height, width⟩,
      ⟨2 * (width * height), width, height, width⟩]
  | .RGB888i | .BGR888i => [⟨0, 3 * width, height, 3 * width⟩]
  | .NV12 =>
    let stride := alignUp width 128
    [⟨0, stride, height, width⟩, ⟨stride * alignUp height 32, stride, height / 2, width⟩]
  | .YUV420p =>
    let stride := alignUp width 128
    let half := alignUp (width / 2) 128
    let luma := stride * alignUp height 32
    let chroma := alignUp (half * alignUp (height / 2) 16) 4096
    [⟨0, stride, height, width⟩, ⟨luma, half, height / 2, width / 2⟩,
      ⟨luma + chroma, half, height / 2, width / 2⟩]
  | .RAW8 | .GRAY8 => [⟨0, alignUp width 128, height, width⟩]
  | .RAW16 => [⟨0, 2 * width, height, 2 * width⟩]
  | _ => []

/-- The size of a frame: the end of its last plane. -/
def frameBytes (type : ImgFrameType) (width height : ℕ) : ℕ :=
  (((layout type width height).getLast?).map Plane.stop).getD 0

/-- The types that `getDstFrameSpecs` accepts. -/
def HasLayout (type : ImgFrameType) : Prop :=
  type ∈ [ImgFrameType.RGB888p, .BGR888p, .RGB888i, .BGR888i, .NV12, .YUV420p, .RAW8, .GRAY8, .RAW16]

instance (type : ImgFrameType) : Decidable (HasLayout type) :=
  inferInstanceAs (Decidable (type ∈ _))

/-! ### Multiples -/

section Multiples

variable {value alignment : ℕ}

theorem le_alignUp (h : 0 < alignment) : value ≤ alignUp value alignment := by
  have := Nat.lt_div_mul_add (a := value + (alignment - 1)) h
  rw [alignUp]
  omega

theorem dvd_alignUp : alignment ∣ alignUp value alignment :=
  Dvd.intro_left _ rfl

theorem alignUp_of_dvd (hpos : 0 < alignment) (h : alignment ∣ value) :
    alignUp value alignment = value := by
  obtain ⟨c, rfl⟩ := h
  rw [alignUp, Nat.mul_add_div hpos, Nat.div_eq_of_lt (Nat.sub_lt hpos one_pos), add_zero, mul_comm]

theorem alignUp_mono {value' : ℕ} (h : value ≤ value') :
    alignUp value alignment ≤ alignUp value' alignment :=
  Nat.mul_le_mul_right _ (Nat.div_le_div_right (Nat.add_le_add_right h _))

theorem add_pred_lt (hpos : 0 < alignment) {bound : ℕ} (hdvd : alignment ∣ bound)
    (hfits : alignUp value alignment < bound) : value + (alignment - 1) < bound := by
  obtain ⟨c, rfl⟩ := hdvd
  have hlt : (value + (alignment - 1)) / alignment < c := by
    rw [alignUp, mul_comm] at hfits
    exact lt_of_mul_lt_mul_left hfits (Nat.zero_le _)
  rw [mul_comm]
  exact (Nat.div_lt_iff_lt_mul hpos).1 hlt

end Multiples

/-! ### Numbers of 32 bits -/

theorem toNat_mul_of_lt {a b : UInt32} {m n : ℕ} (ha : a.toNat = m) (hb : b.toNat = n)
    (h : m * n < 2 ^ 32) : (a * b).toNat = m * n := by
  rw [UInt32.toNat_mul, ha, hb, Nat.mod_eq_of_lt h]

theorem toNat_add_of_lt {a b : UInt32} {m n : ℕ} (ha : a.toNat = m) (hb : b.toNat = n)
    (h : m + n < 2 ^ 32) : (a + b).toNat = m + n := by
  rw [UInt32.toNat_add, ha, hb, Nat.mod_eq_of_lt h]

theorem toNat_pred {a : UInt32} {n : ℕ} (ha : a.toNat = n) (hpos : 0 < n) :
    (a - 1).toNat = n - 1 := by
  rw [UInt32.toNat_sub_of_le, ha]
  · rfl
  · rw [UInt32.le_iff_toNat_le, ha]
    exact hpos

theorem toNat_ALIGN_UP_of_sum {a alignment : UInt32} {k : ℕ} (halignment : alignment.toNat = 2 ^ k)
    (hk : k ≤ 32) :
    (ALIGN_UP a alignment).toNat = (a + (alignment - 1)).toNat / 2 ^ k * 2 ^ k := by
  have hpred := toNat_pred halignment (Nat.two_pow_pos k)
  rw [ALIGN_UP, UInt32.toNat_and, UInt32.toNat_not, hpred]
  exact mask_eq_div_mul (UInt32.toNat_lt _) hk

theorem toNat_ALIGN_UP {a alignment : UInt32} {m k : ℕ} (ha : a.toNat = m)
    (halignment : alignment.toNat = 2 ^ k) (hk : k ≤ 32) (h : alignUp m (2 ^ k) < 2 ^ 32) :
    (ALIGN_UP a alignment).toNat = alignUp m (2 ^ k) := by
  have hpred := toNat_pred halignment (Nat.two_pow_pos k)
  have hsum := toNat_add_of_lt ha hpred
    (add_pred_lt (Nat.two_pow_pos k) (Nat.pow_dvd_pow 2 hk) h)
  rw [toNat_ALIGN_UP_of_sum halignment hk, hsum]
  rfl

/-! ### Layouts that fit -/

/-- The types with colors for every other row. -/
def IsSubsampled (type : ImgFrameType) : Prop :=
  type = .NV12 ∨ type = .YUV420p

/-- The code computes the layout of a frame of the given size. -/
structure Computed (type : ImgFrameType) (width height : UInt32) (specs : FrameSpecs) : Prop where
  eq : getDstFrameSpecs width height type = .ok specs
  planes : planes type specs = layout type width.toNat height.toNat
  frameSize : (getFrameSize type specs).toNat = frameBytes type width.toNat height.toNat

section Computed

variable {width height : UInt32}

theorem computed_planar (hfits : frameBytes .RGB888p width.toNat height.toNat < 2 ^ 32) :
    ∃ specs, Computed .RGB888p width height specs := by
  have hbytes : frameBytes .RGB888p width.toNat height.toNat =
    2 * (width.toNat * height.toNat) + height.toNat * width.toNat := rfl
  have hcomm := Nat.mul_comm height.toNat width.toNat
  rw [hbytes] at hfits
  have harea : (width * height).toNat = width.toNat * height.toNat :=
    toNat_mul_of_lt rfl rfl (by omega)
  have hp3 : (width * height + width * height).toNat =
      width.toNat * height.toNat + width.toNat * height.toNat :=
    toNat_add_of_lt harea harea (by omega)
  refine ⟨_, rfl, ?_, ?_⟩
  · simp only [planes, layout, harea, hp3, UInt32.toNat_zero, two_mul]
  · refine (toNat_add_of_lt hp3 harea (by omega)).trans ?_
    rw [hbytes, hcomm, two_mul]

theorem computed_interleaved (hheight : 0 < height.toNat)
    (hfits : frameBytes .RGB888i width.toNat height.toNat < 2 ^ 32) :
    ∃ specs, Computed .RGB888i width height specs := by
  have hbytes : frameBytes .RGB888i width.toNat height.toNat =
    0 + height.toNat * (3 * width.toNat) := rfl
  rw [hbytes, zero_add] at hfits
  have hrow := Nat.le_mul_of_pos_left (3 * width.toNat) hheight
  have hstride : (width * 3).toNat = width.toNat * 3 := toNat_mul_of_lt rfl rfl (by omega)
  refine ⟨_, rfl, ?_, ?_⟩
  · simp only [planes, layout, hstride, UInt32.toNat_zero, mul_comm]
  · refine (toNat_mul_of_lt hstride rfl (by linarith)).trans ?_
    rw [hbytes]
    ring

theorem computed_raw16 (hheight : 0 < height.toNat)
    (hfits : frameBytes .RAW16 width.toNat height.toNat < 2 ^ 32) :
    ∃ specs, Computed .RAW16 width height specs := by
  have hbytes : frameBytes .RAW16 width.toNat height.toNat =
    0 + height.toNat * (2 * width.toNat) := rfl
  rw [hbytes, zero_add] at hfits
  have hrow := Nat.le_mul_of_pos_left (2 * width.toNat) hheight
  have hstride : (width * 2).toNat = width.toNat * 2 := toNat_mul_of_lt rfl rfl (by omega)
  refine ⟨_, rfl, ?_, ?_⟩
  · simp only [planes, layout, hstride, UInt32.toNat_zero, mul_comm]
  · refine (toNat_mul_of_lt hstride rfl (by linarith)).trans ?_
    rw [hbytes]
    ring

theorem computed_gray (hheight : 0 < height.toNat)
    (hfits : frameBytes .GRAY8 width.toNat height.toNat < 2 ^ 32) :
    ∃ specs, Computed .GRAY8 width height specs := by
  have hbytes : frameBytes .GRAY8 width.toNat height.toNat =
    0 + height.toNat * alignUp width.toNat 128 := rfl
  rw [hbytes, zero_add] at hfits
  have hrow := Nat.le_mul_of_pos_left (alignUp width.toNat 128) hheight
  have hstride : (ALIGN_UP width 128).toNat = alignUp width.toNat 128 :=
    toNat_ALIGN_UP (k := 7) rfl rfl (by omega) (hrow.trans_lt hfits)
  refine ⟨_, rfl, ?_, ?_⟩
  · simp only [planes, layout, hstride, UInt32.toNat_zero]
  · refine (toNat_mul_of_lt hstride rfl (by linarith)).trans ?_
    rw [hbytes, zero_add, mul_comm]

/-- The first plane of the subsampled types: its strides and its rows make up whole pages. -/
theorem toNat_luma (hwidth : 0 < width.toNat) (hheight : 0 < height.toNat)
    (hfits : alignUp width.toNat 128 * alignUp height.toNat 32 < 2 ^ 32) :
    (ALIGN_UP width 128).toNat = alignUp width.toNat 128 ∧
      (ALIGN_UP (ALIGN_UP width 128 * ALIGN_UP height 32) 4096).toNat =
        alignUp width.toNat 128 * alignUp height.toNat 32 := by
  have hw : 0 < alignUp width.toNat 128 := hwidth.trans_le (le_alignUp (by omega))
  have hh : 0 < alignUp height.toNat 32 := hheight.trans_le (le_alignUp (by omega))
  have hstride : (ALIGN_UP width 128).toNat = alignUp width.toNat 128 :=
    toNat_ALIGN_UP (k := 7) rfl rfl (by omega) ((Nat.le_mul_of_pos_right _ hh).trans_lt hfits)
  have hrows : (ALIGN_UP height 32).toNat = alignUp height.toNat 32 :=
    toNat_ALIGN_UP (k := 5) rfl rfl (by omega) ((Nat.le_mul_of_pos_left _ hw).trans_lt hfits)
  have hpages : alignUp (alignUp width.toNat 128 * alignUp height.toNat 32) (2 ^ 12) =
      alignUp width.toNat 128 * alignUp height.toNat 32 :=
    alignUp_of_dvd (by omega) (mul_dvd_mul (a := 128) (c := 32) dvd_alignUp dvd_alignUp)
  refine ⟨hstride, ?_⟩
  rw [toNat_ALIGN_UP (k := 12) (toNat_mul_of_lt hstride hrows hfits) rfl (by omega), hpages]
  rw [hpages]
  exact hfits

theorem toNat_half (height : UInt32) {stride : UInt32} {n : ℕ} (hstride : stride.toNat = n)
    (heven : 2 ∣ height.toNat) (hfits : n * height.toNat < 2 ^ 32) :
    (stride * height / 2).toNat = height.toNat / 2 * n := by
  rw [UInt32.toNat_div, toNat_mul_of_lt hstride rfl hfits]
  show n * height.toNat / 2 = _
  rw [Nat.mul_div_assoc _ heven, mul_comm]

theorem computed_NV12 (hwidth : 0 < width.toNat) (hheight : 0 < height.toNat)
    (heven : 2 ∣ height.toNat) (hfits : frameBytes .NV12 width.toNat height.toNat < 2 ^ 32) :
    ∃ specs, Computed .NV12 width height specs := by
  have hbytes : frameBytes .NV12 width.toNat height.toNat =
    alignUp width.toNat 128 * alignUp height.toNat 32 +
      height.toNat / 2 * alignUp width.toNat 128 := rfl
  rw [hbytes] at hfits
  have hluma : alignUp width.toNat 128 * alignUp height.toNat 32 < 2 ^ 32 :=
    lt_of_le_of_lt (Nat.le_add_right _ _) hfits
  obtain ⟨hstride, hp2⟩ := toNat_luma hwidth hheight hluma
  have hhalf := toNat_half height hstride heven
    ((Nat.mul_le_mul_left _ (le_alignUp (by omega))).trans_lt hluma)
  refine ⟨_, rfl, ?_, ?_⟩
  · simp only [planes, layout, hstride, hp2, UInt32.toNat_zero]
  · refine (toNat_add_of_lt hp2 hhalf hfits).trans hbytes.symm

theorem computed_YUV420p (hwidth : 2 ≤ width.toNat) (hheight : 2 ≤ height.toNat)
    (heven : 2 ∣ height.toNat) (hfits : frameBytes .YUV420p width.toNat height.toNat < 2 ^ 32) :
    ∃ specs, Computed .YUV420p width height specs := by
  have hbytes : frameBytes .YUV420p width.toNat height.toNat =
    alignUp width.toNat 128 * alignUp height.toNat 32 +
      alignUp (alignUp (width.toNat / 2) 128 * alignUp (height.toNat / 2) 16) 4096 +
        height.toNat / 2 * alignUp (width.toNat / 2) 128 := rfl
  rw [hbytes] at hfits
  have hp3fits : alignUp width.toNat 128 * alignUp height.toNat 32 +
      alignUp (alignUp (width.toNat / 2) 128 * alignUp (height.toNat / 2) 16) 4096 < 2 ^ 32 :=
    lt_of_le_of_lt (Nat.le_add_right _ _) hfits
  have hluma : alignUp width.toNat 128 * alignUp height.toNat 32 < 2 ^ 32 :=
    lt_of_le_of_lt (Nat.le_add_right _ _) hp3fits
  have hpages : alignUp (alignUp (width.toNat / 2) 128 * alignUp (height.toNat / 2) 16) 4096 < 2 ^ 32 :=
    lt_of_le_of_lt (Nat.le_add_left _ _) hp3fits
  have hchroma : alignUp (width.toNat / 2) 128 * alignUp (height.toNat / 2) 16 < 2 ^ 32 :=
    lt_of_le_of_lt (le_alignUp (by omega)) hpages
  obtain ⟨hstride, hp2⟩ := toNat_luma (by omega) (by omega) hluma
  have hwhalf : (width / 2).toNat = width.toNat / 2 := UInt32.toNat_div _ _
  have hhhalf : (height / 2).toNat = height.toNat / 2 := UInt32.toNat_div _ _
  have hw : 0 < alignUp (width.toNat / 2) 128 :=
    (show 0 < width.toNat / 2 by omega).trans_le (le_alignUp (by omega))
  have hh : 0 < alignUp (height.toNat / 2) 16 :=
    (show 0 < height.toNat / 2 by omega).trans_le (le_alignUp (by omega))
  have hstride2 : (ALIGN_UP (width / 2) 128).toNat = alignUp (width.toNat / 2) 128 :=
    toNat_ALIGN_UP (k := 7) hwhalf rfl (by omega) ((Nat.le_mul_of_pos_right _ hh).trans_lt hchroma)
  have hrows2 : (ALIGN_UP (height / 2) 16).toNat = alignUp (height.toNat / 2) 16 :=
    toNat_ALIGN_UP (k := 4) hhhalf rfl (by omega) ((Nat.le_mul_of_pos_left _ hw).trans_lt hchroma)
  have hplane : (ALIGN_UP (ALIGN_UP (width / 2) 128 * ALIGN_UP (height / 2) 16) 4096).toNat =
      alignUp (alignUp (width.toNat / 2) 128 * alignUp (height.toNat / 2) 16) 4096 :=
    toNat_ALIGN_UP (k := 12) (toNat_mul_of_lt hstride2 hrows2 hchroma) rfl (by omega) hpages
  have hp3 := toNat_add_of_lt hp2 hplane hp3fits
  have hcolors : alignUp (width.toNat / 2) 128 * height.toNat < 2 ^ 32 := by
    have hle : alignUp (width.toNat / 2) 128 ≤ alignUp width.toNat 128 := alignUp_mono (Nat.div_le_self _ _)
    exact (Nat.mul_le_mul hle (le_alignUp (by omega))).trans_lt hluma
  refine ⟨_, rfl, ?_, ?_⟩
  · simp only [planes, layout, hstride, hp2, hp3, hstride2, UInt32.toNat_zero]
  · exact (toNat_add_of_lt hp3 (toNat_half height hstride2 heven hcolors) hfits).trans hbytes.symm

/-- **A frame that fits has its layout.** -/
theorem exists_computed {type : ImgFrameType} (htype : HasLayout type) (hwidth : 2 ≤ width.toNat)
    (hheight : 2 ≤ height.toNat) (heven : IsSubsampled type → 2 ∣ height.toNat)
    (hfits : frameBytes type width.toNat height.toNat < 2 ^ 32) :
    ∃ specs, Computed type width height specs := by
  simp only [HasLayout, List.mem_cons, List.not_mem_nil, or_false] at htype
  have hpos : 0 < height.toNat := by omega
  rcases htype with rfl | rfl | rfl | rfl | rfl | rfl | rfl | rfl | rfl
  · exact computed_planar hfits
  · obtain ⟨specs, heq, hplanes, hsize⟩ := computed_planar hfits
    exact ⟨specs, heq, hplanes, hsize⟩
  · exact computed_interleaved hpos hfits
  · obtain ⟨specs, heq, hplanes, hsize⟩ := computed_interleaved hpos hfits
    exact ⟨specs, heq, hplanes, hsize⟩
  · exact computed_NV12 (by omega) hpos (heven (.inl rfl)) hfits
  · exact computed_YUV420p hwidth hheight (heven (.inr rfl)) hfits
  · obtain ⟨specs, heq, hplanes, hsize⟩ := computed_gray hpos hfits
    exact ⟨specs, heq, hplanes, hsize⟩
  · exact computed_gray hpos hfits
  · exact computed_raw16 hpos hfits

end Computed

/-! ### Rows and planes -/

section Rows

/-- The planes of a frame come one after the other, up to its size. -/
theorem stacked_layout (type : ImgFrameType) (w h : ℕ) : Plane.Stacked (layout type w h) (frameBytes type w h) := by
  have hw : w ≤ alignUp w 128 := le_alignUp (by omega)
  have hhalf : w / 2 ≤ alignUp (w / 2) 128 := le_alignUp (by omega)
  have hluma : h * alignUp w 128 ≤ alignUp w 128 * alignUp h 32 := by
    rw [mul_comm]
    exact Nat.mul_le_mul_left _ (le_alignUp (by omega))
  have hchroma : h / 2 * alignUp (w / 2) 128 ≤
      alignUp (alignUp (w / 2) 128 * alignUp (h / 2) 16) 4096 := by
    rw [mul_comm]
    exact (Nat.mul_le_mul_left _ (le_alignUp (by omega))).trans (le_alignUp (by omega))
  have hcomm := mul_comm w h
  rw [frameBytes]
  unfold layout
  split <;> refine ⟨?_, ?_, ?_⟩ <;> simp [Plane.stop] <;> omega

end Rows

/-! ### The sizes -/

/-- What `getOutputSize` computes, without a bound on numbers. -/
def outputBytes (type : ImgFrameType) (width height : ℕ) : ℕ :=
  match type with
  | .RGB888p | .BGR888p => width * height * 3
  | .RGB888i | .BGR888i => 3 * width * height
  | .GRAY8 | .RAW8 => alignUp width 128 * alignUp height 32
  | .NV12 => alignUp width 128 * alignUp height 32 +
      alignUp (alignUp width 128 * alignUp (height / 2) 16) 4096
  | .YUV420p =>
    let chroma := alignUp (alignUp (width / 2) 128 * alignUp (height / 2) 16) 4096
    chroma + (alignUp width 128 * alignUp height 32 + chroma)
  | .RAW16 => 2 * width * height
  | _ => 0

section Sizes

variable {type : ImgFrameType} {w h : ℕ}

theorem frameBytes_le_outputBytes : frameBytes type w h ≤ outputBytes type w h := by
  have hgray : h * alignUp w 128 ≤ alignUp w 128 * alignUp h 32 := by
    rw [mul_comm]
    exact Nat.mul_le_mul_left _ (le_alignUp (by omega))
  have hcolors : ∀ n, h / 2 * n ≤ alignUp (n * alignUp (h / 2) 16) 4096 := by
    intro n
    rw [mul_comm]
    exact (Nat.mul_le_mul_left _ (le_alignUp (by omega))).trans (le_alignUp (by omega))
  have hnv12 := hcolors (alignUp w 128)
  have hyuv := hcolors (alignUp (w / 2) 128)
  have hcomm := mul_comm w h
  unfold frameBytes layout outputBytes
  split <;> simp [Plane.stop] <;> nlinarith

theorem outputBytes_le_getAlignedOutputFrameSize :
    outputBytes type w h ≤ getAlignedOutputFrameSize type w h := by
  have halign : ∀ m n, m * n ≤ alignUp (alignUp m 128 * alignUp n 32) 4096 := by
    intro m n
    exact (Nat.mul_le_mul (le_alignUp (by omega)) (le_alignUp (by omega))).trans
      (le_alignUp (by omega))
  have hluma : alignUp w 128 * alignUp h 32 ≤ alignUp (alignUp w 128 * alignUp h 32) 4096 :=
    le_alignUp (by omega)
  have hplanar := halign w h
  have hinterleaved := halign (3 * w) h
  have hraw16 : w * h * 2 ≤ alignUp (alignUp w 128 * alignUp h 32 * 2) 4096 :=
    (Nat.mul_le_mul_right _ (Nat.mul_le_mul (le_alignUp (by omega)) (le_alignUp (by omega)))).trans
      (le_alignUp (by omega))
  unfold outputBytes getAlignedOutputFrameSize
  split <;> simp <;> nlinarith

end Sizes

namespace ImageManipOperations

variable {F M : Type} {this : ImageManipOperations F M} {specs : FrameSpecs}

theorem getOutputStride_eq (hmode : this.mode ≠ .zero)
    (hspecs : getDstFrameSpecs this.base.outputWidth this.base.outputHeight this.outputFrameType =
      .ok specs) :
    this.getOutputStride 0 = .ok specs.p1Stride.toNat ∧
      this.getOutputStride 1 = .ok specs.p2Stride.toNat ∧
        this.getOutputStride 2 = .ok specs.p3Stride.toNat := by
  have hout : this.getOutputFrameSpecs this.outputFrameType = .ok specs := by
    rw [getOutputFrameSpecs, if_neg hmode, hspecs]
  refine ⟨?_, ?_, ?_⟩ <;> rw [getOutputStride, hout] <;> rfl

theorem getOutputPlaneSize_eq (hmode : this.mode ≠ .zero) {plane size : ℕ}
    (hsize : this.planeSize plane = .ok size) (hpos : 0 < size) :
    this.getOutputPlaneSize plane = .ok size := by
  rw [getOutputPlaneSize, if_neg hmode, hsize]
  show (if size = 0 then _ else _) = _
  rw [if_neg hpos.ne']
  rfl

theorem getOutputSize_of_outputSize (hmode : this.mode ≠ .zero) {size : ℕ}
    (hsize : this.outputSize = .ok size) (hpos : 0 < size) : this.getOutputSize = .ok size := by
  rw [getOutputSize, if_neg hmode, hsize]
  show (if size = 0 then _ else _) = _
  rw [if_neg hpos.ne']
  rfl

theorem getOutputPlaneSize_rows (hmode : this.mode ≠ .zero) {stride : ℕ}
    (hstride : this.getOutputStride 0 = .ok stride) (hpos : 0 < stride)
    (hheight : 0 < this.base.outputHeight.toNat)
    (htype : this.outputFrameType ∈ [ImgFrameType.RGB888p, .BGR888p, .RGB888i, .BGR888i, .RAW16]) :
    this.getOutputPlaneSize 0 = .ok (stride * this.base.outputHeight.toNat) := by
  refine getOutputPlaneSize_eq hmode ?_ (Nat.mul_pos hpos hheight)
  simp only [List.mem_cons, List.not_mem_nil, or_false] at htype
  rcases htype with h | h | h | h | h <;> rw [planeSize, h, hstride] <;> rfl

theorem getOutputPlaneSize_luma (hmode : this.mode ≠ .zero) {stride : ℕ}
    (hstride : this.getOutputStride 0 = .ok stride) (hpos : 0 < stride)
    (hheight : 0 < this.base.outputHeight.toNat)
    (htype : this.outputFrameType ∈ [ImgFrameType.GRAY8, .RAW8, .NV12, .YUV420p]) :
    this.getOutputPlaneSize 0 = .ok (stride * alignUp this.base.outputHeight.toNat 32) := by
  refine getOutputPlaneSize_eq hmode ?_ (Nat.mul_pos hpos (hheight.trans_le (le_alignUp (by omega))))
  simp only [List.mem_cons, List.not_mem_nil, or_false] at htype
  rcases htype with h | h | h | h <;> rw [planeSize, h, hstride] <;> rfl

theorem getOutputPlaneSize_chroma (hmode : this.mode ≠ .zero) {plane stride : ℕ}
    (hstride : this.getOutputStride plane = .ok stride) (hpos : 0 < stride)
    (hheight : 2 ≤ this.base.outputHeight.toNat)
    (htype : this.outputFrameType = .NV12 ∧ plane = 1 ∨
      this.outputFrameType = .YUV420p ∧ (plane = 1 ∨ plane = 2)) :
    this.getOutputPlaneSize plane =
      .ok (alignUp (stride * alignUp (this.base.outputHeight.toNat / 2) 16) 4096) := by
  have hrows : 0 < alignUp (this.base.outputHeight.toNat / 2) 16 :=
    lt_of_lt_of_le (by omega) (le_alignUp (by omega))
  refine getOutputPlaneSize_eq hmode ?_
    ((Nat.mul_pos hpos hrows).trans_le (le_alignUp (by omega)))
  rcases htype with ⟨h, rfl⟩ | ⟨h, rfl | rfl⟩ <;> rw [planeSize, h, hstride] <;> rfl

/-- **The size of the output**, from the layout. -/
theorem getOutputSize_eq (hmode : this.mode ≠ .zero) {type : ImgFrameType}
    (htype : this.outputFrameType = type) (hlayout : HasLayout type)
    (hcomputed : Computed type this.base.outputWidth this.base.outputHeight specs)
    (hwidth : 2 ≤ this.base.outputWidth.toNat) (hheight : 2 ≤ this.base.outputHeight.toNat) :
    this.getOutputSize =
      .ok (outputBytes type this.base.outputWidth.toNat this.base.outputHeight.toNat) := by
  obtain ⟨hspecs, hplanes, -⟩ := hcomputed
  obtain ⟨hs1, hs2, hs3⟩ := getOutputStride_eq hmode (htype ▸ hspecs)
  have hw : 0 < alignUp this.base.outputWidth.toNat 128 :=
    lt_of_lt_of_le (by omega) (le_alignUp (by omega))
  have hhalf : 0 < alignUp (this.base.outputWidth.toNat / 2) 128 :=
    lt_of_lt_of_le (by omega) (le_alignUp (by omega))
  have hpos : 0 < this.base.outputHeight.toNat := by omega
  have hwpos : 0 < this.base.outputWidth.toNat := by omega
  have hrows : 0 < alignUp this.base.outputHeight.toNat 32 := hpos.trans_le (le_alignUp (by omega))
  simp only [HasLayout, List.mem_cons, List.not_mem_nil, or_false] at hlayout
  have hbytes : 0 < outputBytes type this.base.outputWidth.toNat this.base.outputHeight.toNat := by
    rcases hlayout with rfl | rfl | rfl | rfl | rfl | rfl | rfl | rfl | rfl <;>
      simp only [outputBytes] <;> positivity
  refine getOutputSize_of_outputSize hmode ?_ hbytes
  rw [outputSize]
  rcases hlayout with rfl | rfl | rfl | rfl | rfl | rfl | rfl | rfl | rfl <;>
    simp only [planes, layout, List.cons.injEq, Plane.mk.injEq, and_true] at hplanes <;>
    simp only [htype]
  · rw [getOutputPlaneSize_rows hmode hs1 (by omega) hpos (by simp [htype]), hplanes.1.2.1]
    rfl
  · rw [getOutputPlaneSize_rows hmode hs1 (by omega) hpos (by simp [htype]), hplanes.1.2.1]
    rfl
  · rw [getOutputPlaneSize_rows hmode hs1 (by omega) hpos (by simp [htype]), hplanes.2.1]
    rfl
  · rw [getOutputPlaneSize_rows hmode hs1 (by omega) hpos (by simp [htype]), hplanes.2.1]
    rfl
  · rw [getOutputPlaneSize_luma hmode hs1 (by omega) hpos (by simp [htype]),
      getOutputPlaneSize_chroma hmode hs2 (by omega) hheight (.inl ⟨htype, rfl⟩), hplanes.1.2.1,
      hplanes.2.2.1]
    rfl
  · rw [getOutputPlaneSize_luma hmode hs1 (by omega) hpos (by simp [htype]),
      getOutputPlaneSize_chroma hmode hs2 (by omega) hheight (.inr ⟨htype, .inl rfl⟩),
      getOutputPlaneSize_chroma hmode hs3 (by omega) hheight (.inr ⟨htype, .inr rfl⟩), hplanes.1.2.1,
      hplanes.2.1.2.1, hplanes.2.2.2.1]
    rfl
  · rw [getOutputPlaneSize_luma hmode hs1 (by omega) hpos (by simp [htype]), hplanes.2.1]
    rfl
  · rw [getOutputPlaneSize_luma hmode hs1 (by omega) hpos (by simp [htype]), hplanes.2.1]
    rfl
  · rw [getOutputPlaneSize_rows hmode hs1 (by omega) hpos (by simp [htype]), hplanes.2.1]
    rfl

/-- **The layout of an output.** If the object has something to do and the frame has less than 4 GiB,
no rows of the layout overlap and all are within each of the three sizes; the second of them is never
above the third. -/
theorem layout_laid (this : ImageManipOperations F M) (hmode : this.mode ≠ .zero) (htype : HasLayout this.outputFrameType)
    (hwidth : 2 ≤ this.base.outputWidth.toNat) (hheight : 2 ≤ this.base.outputHeight.toNat)
    (heven : IsSubsampled this.outputFrameType →
      2 ∣ this.base.outputWidth.toNat ∧ 2 ∣ this.base.outputHeight.toNat)
    (hfits : frameBytes this.outputFrameType this.base.outputWidth.toNat
      this.base.outputHeight.toNat < 2 ^ 32) :
    ∃ specs size,
      getDstFrameSpecs this.base.outputWidth this.base.outputHeight this.outputFrameType = .ok specs ∧
      this.getOutputSize = .ok size ∧
      Plane.Laid (planes this.outputFrameType specs) ∧
      (∀ p ∈ planes this.outputFrameType specs,
        p.Below size ∧ p.Below (getFrameSize this.outputFrameType specs).toNat ∧
        p.Below (getAlignedOutputFrameSize this.outputFrameType this.base.outputWidth.toNat
          this.base.outputHeight.toNat)) ∧
      size ≤ getAlignedOutputFrameSize this.outputFrameType this.base.outputWidth.toNat
        this.base.outputHeight.toNat := by
  obtain ⟨specs, hcomputed⟩ := exists_computed htype hwidth hheight (fun h => (heven h).2) hfits
  have hsize := getOutputSize_eq hmode rfl htype hcomputed hwidth hheight
  have hstacked := stacked_layout this.outputFrameType this.base.outputWidth.toNat
    this.base.outputHeight.toNat
  refine ⟨specs, _, hcomputed.eq, hsize, ?_, ?_, outputBytes_le_getAlignedOutputFrameSize⟩
  · rw [hcomputed.planes]
    exact hstacked.laid
  · intro p hp
    rw [hcomputed.planes] at hp
    rw [hcomputed.frameSize]
    exact ⟨hstacked.below frameBytes_le_outputBytes hp, hstacked.below le_rfl hp,
      hstacked.below (frameBytes_le_outputBytes.trans outputBytes_le_getAlignedOutputFrameSize) hp⟩

/-- An object that is built for an output of a type and a size. -/
def builtFor (mode : Mode) (type : ImgFrameType) (width height : UInt32) :
    ImageManipOperations Unit Unit where
  mode := mode
  prevConfig := ""
  outputOps := []
  matrix := ()
  matrixInv := ()
  srcCorners := []
  base := { outputWidth := width, outputHeight := height }
  outputFrameType := type
  type := type
  inType := type
  convertInput := false
  colormapFrame := none
  convertedFrame := none
  warpedFrame := none
  srcSpecs := ⟨width, height, 0, 0, 0, width, 0, 0⟩
  preprocCc := none
  warpEngine := none
  clrChange := none

theorem layout_laid_NV12 :
    ∃ specs size,
      getDstFrameSpecs 130 34 .NV12 = .ok specs ∧
      (builtFor .CONVERT .NV12 130 34).getOutputSize = .ok size ∧
      Plane.Laid (planes .NV12 specs) ∧
      (∀ p ∈ planes .NV12 specs,
        p.Below size ∧ p.Below (getFrameSize .NV12 specs).toNat ∧
        p.Below (getAlignedOutputFrameSize .NV12 130 34)) ∧
      size ≤ getAlignedOutputFrameSize .NV12 130 34 :=
  layout_laid (builtFor .CONVERT .NV12 130 34) (by decide) (by decide) (by decide) (by decide)
    (fun _ => by decide) (by decide)

/-- **Layouts that do not fit.** The planes of an image of 65536 by 65536 all start at zero. And of an
object that has nothing to do the output has no size. -/
theorem not_layout_laid :
    (getDstFrameSpecs 65536 65536 .RGB888p =
        .ok ⟨65536, 65536, 0, 0, 0, 65536, 65536, 65536⟩ ∧
      ¬Plane.Laid (planes .RGB888p ⟨65536, 65536, 0, 0, 0, 65536, 65536, 65536⟩)) ∧
    (builtFor .zero .GRAY8 2 2).getOutputSize = .ok 0 ∧
      ¬∀ p ∈ planes .GRAY8 (builtFor .zero .GRAY8 2 2).srcSpecs, p.Below 0 := by
  refine ⟨⟨by decide, fun hlaid => ?_⟩, by decide, fun hbelow => ?_⟩
  · have hfirst := (List.pairwise_cons.1 hlaid.apart).1 _ List.mem_cons_self 0 (by decide) 0 (by decide)
    exact Set.disjoint_left.1 hfirst (show (0 : ℕ) ∈ _ from ⟨by decide, by decide⟩)
      ⟨by decide, by decide⟩
  · have hrow := hbelow _ List.mem_cons_self 0 (by decide)
    exact absurd (hrow (show (0 : ℕ) ∈ _ from ⟨by decide, by decide⟩)) (by simp)

end ImageManipOperations

end ImageManip

end DepthaiCore
