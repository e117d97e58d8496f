import DepthaiCore.Datatype.SegmentationMask
import DepthaiCore.Lib.Whiles

/-!
# The mask of a class

`getCvSegmentationMaskByClass` paints the pixels of all detections of a class. It goes through the
detections, and its counter is a byte: if there are more detections than a byte can count, it begins
again with the first one and never ends.
-/

namespace DepthaiCore

namespace MaskMessages

/-- `cv::compare` for equality. -/
def Image.compareEq (image : Image) (value : UInt8) : Image :=
  { image with pixels := image.pixels.map fun v => if v = value then 255 else 0 }

/-- `cv::Mat::zeros(size, CV_8UC1) + 255`. -/
def Image.background (image : Image) : Image :=
  { image with pixels := image.pixels.map fun _ => 255 }

/-- `setTo` with a mask. -/
def Image.setTo (image : Image) (value : UInt8) (mask : Image) : Image :=
  let paint (p q : UInt8) := if q ≠ 0 then value else p
  { image with pixels := List.zipWith paint image.pixels mask.pixels }

namespace ImgDetectionsT

variable {DetectionT : Type} (label : DetectionT → UInt32) (this : ImgDetectionsT DetectionT)

/-! ### The function -/

def getCvSegmentationMaskByIndex (index : UInt8) : Except MaskFault (Option Image) := do
  match ← this.getCvSegmentationMask with
  | none => return none
  | some mask => return some (mask.compareEq index)

/-- A round of the loop over the detections. -/
def paintRound (semanticClass : UInt8) (s : UInt8 × Image) :
    Except (Stop MaskFault) ((UInt8 × Image) ⊕ Option Image) :=
  let (idx, classMask) := s
  match this.detections[idx.toNat]? with
  | none => .ok (.inr (some classMask))
  | some detection =>
    if label detection = semanticClass.toUInt32 then do
      match ← Stop.lift (this.getCvSegmentationMaskByIndex idx) with
      | none => return .inr none
      | some indexMask => return .inl (idx + 1, classMask.setTo 0 indexMask)
    else .ok (.inl (idx + 1, classMask))

/-- **`getCvSegmentationMaskByClass`.** -/
def getCvSegmentationMaskByClass (semanticClass : UInt8) (rounds : ℕ) :
    Except (Stop MaskFault) (Option Image) := do
  match ← Stop.lift this.getCvSegmentationMask with
  | none => return none
  | some mask => Whiles.loop (this.paintRound label semanticClass) rounds (0, mask.background)

/-! ### What it should return -/

/-- The value of a pixel: zero if the mask has the index of a detection of the class. -/
def classPixel (detections : List DetectionT) (semanticClass v : UInt8) : UInt8 :=
  if detections[v.toNat]?.map label = some semanticClass.toUInt32 then 0 else 255

/-- A message with a mask. -/
def stored (m : Mask) (detections : List DetectionT) : ImgDetectionsT DetectionT :=
  ⟨m.pixels, m.width, m.height, detections⟩

/-- The function ends, and its pixels say where the detections of the class are. A mask without
pixels counts as not set. -/
def PaintsClass (m : Mask) (detections : List DetectionT) (semanticClass : UInt8) : Prop :=
  ∃ rounds image,
    (stored m detections).getCvSegmentationMaskByClass label semanticClass rounds = .ok image ∧
    (image.getD ⟨0, 0, []⟩).pixels = m.pixels.map (classPixel label detections semanticClass) ∧
    (m.pixels ≠ [] → (image.getD ⟨0, 0, []⟩).cols = m.width ∧
      (image.getD ⟨0, 0, []⟩).rows = m.height)

/-! ### The loop -/

section Loop

variable {label this} {mask : Image} {semanticClass : UInt8}
  (hmask : this.getCvSegmentationMask = .ok (some mask))

include hmask in
theorem getCvSegmentationMaskByIndex_eq (index : UInt8) :
    this.getCvSegmentationMaskByIndex index = .ok (some (mask.compareEq index)) := by
  rw [getCvSegmentationMaskByIndex, hmask]
  rfl

include hmask in
theorem paintRound_eq {idx : UInt8} {detection : DetectionT} (classMask : Image)
    (h : this.detections[idx.toNat]? = some detection) :
    this.paintRound label semanticClass (idx, classMask) = .ok (.inl (idx + 1,
      if label detection = semanticClass.toUInt32 then classMask.setTo 0 (mask.compareEq idx)
      else classMask)) := by
  rw [paintRound, h]
  dsimp only
  split_ifs with hlabel
  · rw [getCvSegmentationMaskByIndex_eq hmask]
    rfl
  · rfl

include hmask in
/-- **More than 255 detections:** every round is followed by another one. -/
theorem loop_eq_pending (hlength : 255 < this.detections.length) (rounds : ℕ)
    (s : UInt8 × Image) :
    Whiles.loop (this.paintRound label semanticClass) rounds s = .error .pending := by
  induction rounds generalizing s with
  | zero => rfl
  | succ rounds ih =>
    obtain ⟨idx, classMask⟩ := s
    have hidx : idx.toNat < this.detections.length := by
      have := idx.toNat_lt
      omega
    rw [Whiles.loop_of_next (paintRound_eq hmask classMask (List.getElem?_eq_getElem hidx))]
    exact ih _

/-- The pixels when the first detections are painted. -/
def paintedPixel (label : DetectionT → UInt32) (detections : List DetectionT)
    (semanticClass : UInt8) (k : ℕ) (v : UInt8) : UInt8 :=
  if v.toNat < k then classPixel label detections semanticClass v else 255

def painted (label : DetectionT → UInt32) (detections : List DetectionT) (semanticClass : UInt8)
    (k : ℕ) (mask : Image) : Image :=
  { mask with pixels := mask.pixels.map (paintedPixel label detections semanticClass k) }

theorem painted_succ {detections : List DetectionT} {idx : UInt8} {detection : DetectionT}
    (h : detections[idx.toNat]? = some detection) :
    (if label detection = semanticClass.toUInt32 then
      (painted label detections semanticClass idx.toNat mask).setTo 0 (mask.compareEq idx)
    else painted label detections semanticClass idx.toNat mask) =
      painted label detections semanticClass (idx.toNat + 1) mask := by
  have hpixel : ∀ v, paintedPixel label detections semanticClass (idx.toNat + 1) v =
      if v = idx then classPixel label detections semanticClass v
      else paintedPixel label detections semanticClass idx.toNat v := by
    intro v
    rw [paintedPixel, paintedPixel]
    by_cases hv : v = idx
    · rw [if_pos hv, hv, if_pos (Nat.lt_succ_self _)]
    · have hne : v.toNat ≠ idx.toNat := fun heq => hv (UInt8.toNat_inj.1 heq)
      rw [if_neg hv]
      exact if_congr (by omega) rfl rfl
  have hself : classPixel label detections semanticClass idx =
      if label detection = semanticClass.toUInt32 then 0 else 255 := by
    rw [classPixel, h, Option.map_some]
    simp only [Option.some.injEq]
  rw [painted, painted]
  split_ifs with hlabel
  · rw [Image.setTo, Image.compareEq]
    refine congrArg (Image.mk _ _) ?_
    dsimp only
    rw [List.zipWith_map, List.zipWith_self]
    refine List.map_congr_left fun v _ => ?_
    rw [hpixel]
    split_ifs with hv hzero hzero
    · rw [hv, hself, if_pos hlabel]
    · exact absurd (by decide) hzero
    · exact absurd rfl hzero
    · rfl
  · refine congrArg (Image.mk _ _) (List.map_congr_left fun v _ => ?_)
    rw [hpixel]
    split_ifs with hv
    · rw [hv, hself, if_neg hlabel, paintedPixel, if_neg (Nat.lt_irrefl _)]
    · rfl

include hmask in
/-- **At most 255 detections:** the loop paints one after the other and ends. -/
theorem loop_eq_painted (hlength : this.detections.length ≤ 255) {idx : UInt8} {n : ℕ}
    (hn : idx.toNat + n = this.detections.length) :
    Whiles.loop (this.paintRound label semanticClass) (n + 1)
      (idx, painted label this.detections semanticClass idx.toNat mask) =
        .ok (some (painted label this.detections semanticClass this.detections.length mask)) := by
  induction n generalizing idx with
  | zero =>
    have hend : this.detections[idx.toNat]? = none := List.getElem?_eq_none (by omega)
    refine Whiles.loop_of_done ?_
    rw [paintRound, hend, ← hn]
    rfl
  | succ n ih =>
    have hidx : idx.toNat < this.detections.length := by omega
    have hget := List.getElem?_eq_getElem hidx
    have hnext : (idx + 1).toNat = idx.toNat + 1 := by
      rw [UInt8.toNat_add]
      exact Nat.mod_eq_of_lt (by
        have hone : (1 : UInt8).toNat = 1 := rfl
        omega)
    rw [Whiles.loop_of_next (paintRound_eq hmask _ hget), painted_succ hget, ← hnext]
    exact ih (by omega)

end Loop

/-! ### Where it does so -/

/-- **The mask of a class** is right, and the function ends, exactly if there are no more detections
than the counter can count and the pixels can be counted by an `int`. -/
theorem paintsClass_iff (m : PackedMask) (detections : List DetectionT) (semanticClass : UInt8) :
    PaintsClass label m.toMask detections semanticClass ↔
      m.pixels = [] ∨ m.pixels.length < 2 ^ 31 ∧ detections.length ≤ 255 := by
  by_cases hempty : m.pixels = []
  · have hnone : (stored m.toMask detections).getCvSegmentationMask = .ok none := if_pos hempty
    refine iff_of_true ⟨0, none, ?_, ?_, fun hne => absurd hempty hne⟩ (.inl hempty)
    · rw [getCvSegmentationMaskByClass, hnone]
      rfl
    · rw [hempty]
      rfl
  have hstored (hint : m.pixels.length < 2 ^ 31) :
      (stored m.toMask detections).getCvSegmentationMask =
        .ok (some ⟨m.height, m.width, m.pixels⟩) :=
    getCvSegmentationMask_eq rfl rfl rfl hempty hint
  constructor
  · rintro ⟨rounds, image, hrun, -⟩
    obtain ⟨mask, hmask, hrun⟩ := Loop.bind_eq_ok.1 hrun
    rw [Stop.lift_eq_ok] at hmask
    have hint : m.pixels.length < 2 ^ 31 := length_lt_of_getCvSegmentationMask m.length_lt hmask
    refine .inr ⟨hint, ?_⟩
    by_contra hlength
    rw [hstored hint] at hmask
    cases hmask
    cases (loop_eq_pending (hstored hint) (not_le.1 hlength) rounds _).symm.trans hrun
  · rintro (h | ⟨hint, hlength⟩)
    · exact absurd h hempty
    have hstart : Image.background ⟨m.height, m.width, m.pixels⟩ =
        painted label detections semanticClass 0 ⟨m.height, m.width, m.pixels⟩ := by
      refine congrArg (Image.mk _ _) (List.map_congr_left fun v _ => ?_)
      rw [paintedPixel, if_neg (Nat.not_lt_zero _)]
    refine ⟨detections.length + 1, some (painted label detections semanticClass detections.length
      ⟨m.height, m.width, m.pixels⟩), ?_, ?_, fun _ => ⟨rfl, rfl⟩⟩
    · rw [getCvSegmentationMaskByClass, hstored hint, Stop.lift_ok, Loop.ok_bind]
      dsimp only
      rw [hstart]
      exact loop_eq_painted (hstored hint) hlength (Nat.zero_add _)
    · refine List.map_congr_left fun v _ => ?_
      rw [paintedPixel]
      split_ifs with hv
      · rfl
      · rw [classPixel, List.getElem?_eq_none (not_lt.1 hv)]
        rfl

/-- **256 detections:** the mask of a class is never returned. -/
theorem not_paintsClass : ¬PaintsClass id ⟨1, 1, [0], rfl⟩ (List.replicate 256 0) 0 := by
  rintro ⟨rounds, image, hrun, -⟩
  have hmask : (stored ⟨1, 1, [0], rfl⟩ (List.replicate 256 (0 : UInt32))).getCvSegmentationMask =
      .ok (some ⟨1, 1, [0]⟩) :=
    getCvSegmentationMask_eq (m := ⟨1, 1, [0], rfl⟩) rfl rfl rfl (List.cons_ne_nil _ _) (by decide)
  have hlength : 255 <
      (stored ⟨1, 1, [0], rfl⟩ (List.replicate 256 (0 : UInt32))).detections.length := by
    rw [stored, List.length_replicate]
    decide
  rw [getCvSegmentationMaskByClass, hmask, Stop.lift_ok, Loop.ok_bind] at hrun
  cases (loop_eq_pending hmask hlength rounds _).symm.trans hrun

end ImgDetectionsT

end MaskMessages

end DepthaiCore
