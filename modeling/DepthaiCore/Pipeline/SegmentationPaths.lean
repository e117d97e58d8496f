import DepthaiCore.Pipeline.SegmentationDecoding

/-!
# The paths of segmentation decoding

The same scores may come as bytes with a scale and a zero point, as integers or as floating point
numbers, and in either layout. The masks should be the same. They are when the converted thresholds
of the two types decide in the same way on the highest scores.
-/

namespace DepthaiCore.NN.Segmentation

open FloatingPoint

variable {info info' : TensorInfo Datum} {bytes bytes' : List UInt8} {config : SegmentationParserConfig}
  {backgroundClass : Bool} {threshold threshold' : Datum} {y x c : ℕ}

/-- Two tensors of the same extents have the same scores, whatever their types and layouts. -/
structure SameScores (info info' : TensorInfo Datum) (bytes bytes' : List UInt8) : Prop where
  extent : ∀ axis ∈ [Axis.W, .H, .C], info'.extent axis = info.extent axis
  score : ∀ c < info.extent .C, ∀ y < info.extent .H, ∀ x < info.extent .W,
    score info' bytes' y x c = score info bytes y x c

/-- The converted thresholds decide in the same way about the highest score of a pixel, unless it is
that of the background. -/
def SameDecision (info info' : TensorInfo Datum) (bytes bytes' : List UInt8) (backgroundClass : Bool)
    (threshold threshold' : Datum) (y x : ℕ) : Prop :=
  ∀ c, FirstMaximum (score info bytes y x) (cStart backgroundClass) (info.extent .C) c →
    Foreground info bytes backgroundClass y x c →
      (threshold.extended < (element info bytes y x c).extended ↔
        threshold'.extended < (element info' bytes' y x c).extended)

/-- When two tensors have the same mask. -/
structure SameDecisions (info info' : TensorInfo Datum) (bytes bytes' : List UInt8)
    (config : SegmentationParserConfig) (backgroundClass : Bool) : Prop where
  divides : Divides info config.stepSize.toNat
  thresholds : ∃ threshold threshold', getThreshold config info = .ok threshold ∧
    getThreshold config info' = .ok threshold' ∧
      ∀ y < info.extent .H / config.stepSize.toNat, ∀ x < info.extent .W / config.stepSize.toNat,
        SameDecision info info' bytes bytes' backgroundClass threshold threshold'
          (y * config.stepSize.toNat) (x * config.stepSize.toNat)

namespace SameScores

variable (h : SameScores info info' bytes bytes')
include h

theorem width : info'.extent .W = info.extent .W :=
  h.extent .W (by decide)

theorem height : info'.extent .H = info.extent .H :=
  h.extent .H (by decide)

theorem channels : info'.extent .C = info.extent .C :=
  h.extent .C (by decide)

theorem divides_iff {step : ℕ} : Divides info' step ↔ Divides info step := by
  constructor
  · rintro ⟨hheight, hwidth, hcount⟩
    rw [h.height] at hheight hcount
    rw [h.width] at hwidth hcount
    exact ⟨hheight, hwidth, hcount⟩
  · rintro ⟨hheight, hwidth, hcount⟩
    rw [← h.height] at hheight hcount
    rw [← h.width] at hwidth hcount
    exact ⟨hheight, hwidth, hcount⟩

variable (hy : y < info.extent .H) (hx : x < info.extent .W)
include hy hx

/-- The first class with the highest score is the same. -/
theorem firstMaximum
    (hfirst : FirstMaximum (Segmentation.score info bytes y x) (cStart backgroundClass)
      (info.extent .C) c) :
    FirstMaximum (Segmentation.score info' bytes' y x) (cStart backgroundClass) (info'.extent .C) c := by
  rw [h.channels]
  refine hfirst.of_lt_iff fun j k _ hj _ hk => ?_
  rw [h.score j hj y hy x hx, h.score k hk y hy x hx]

theorem foreground_iff (hc : c < info.extent .C) :
    Foreground info' bytes' backgroundClass y x c ↔ Foreground info bytes backgroundClass y x c := by
  rw [Foreground, Foreground, h.score c hc y hy x hx, h.score 0 (Nat.zero_lt_of_lt hc) y hy x hx]

/-- **One cell is the same exactly when the thresholds decide in the same way.** -/
theorem bestOf_eq_iff (htensor : Tensor info bytes) (htensor' : Tensor info' bytes')
    (hclasses : cStart backgroundClass < info.extent .C) (hC : info.extent .C ≤ 255)
    (hthreshold : threshold ≠ .nan) (hthreshold' : threshold' ≠ .nan) :
    (bestOf info bytes backgroundClass threshold (classesOf info backgroundClass) y x).2 =
        (bestOf info' bytes' backgroundClass threshold' (classesOf info' backgroundClass) y x).2 ↔
      SameDecision info info' bytes bytes' backgroundClass threshold threshold' y x := by
  obtain ⟨c, hfirst⟩ := FirstMaximum.exists_of_lt (Segmentation.score info bytes y x) hclasses
  have hne : UInt8.ofNat c ≠ BACKGROUND_INDEX := by
    have hlt := hfirst.lt_hi
    rw [Ne, ofNat_eq_BACKGROUND_INDEX_iff (by omega)]
    omega
  have hforeground : Foreground info' bytes' backgroundClass y x c ↔
      Foreground info bytes backgroundClass y x c := h.foreground_iff hy hx hfirst.lt_hi
  have hdecision : SameDecision info info' bytes bytes' backgroundClass threshold threshold' y x ↔
      (Taken info bytes backgroundClass threshold y x c ↔
        Taken info' bytes' backgroundClass threshold' y x c) := by
    rw [Taken, Taken, hforeground]
    constructor
    · intro hsame
      exact and_congr_left (hsame c hfirst)
    · intro hsame c' hfirst' hfore
      obtain rfl := hfirst.unique hfirst'
      exact (and_congr_left_iff.1 hsame) hfore
  rw [hdecision]
  rcases htensor.bestOf_eq hy hx hthreshold hfirst with ⟨hvalue, htaken⟩ | ⟨hvalue, htaken⟩ <;>
  rcases htensor'.bestOf_eq (h.height ▸ hy) (h.width ▸ hx) hthreshold' (h.firstMaximum hy hx hfirst)
    with ⟨hvalue', htaken'⟩ | ⟨hvalue', htaken'⟩ <;>
  rw [hvalue, hvalue']
  · exact iff_of_true rfl (iff_of_true htaken htaken')
  · exact iff_of_false hne fun hiff => htaken' (hiff.1 htaken)
  · exact iff_of_false hne.symm fun hiff => htaken (hiff.2 htaken')
  · exact iff_of_true rfl (iff_of_false htaken htaken')

end SameScores

/-- The same scores with the channels last. -/
def bytePixels : TensorInfo Datum :=
  { SegmentationParser.bytePlanes with order := .HWC }

def pixelScores : List UInt8 := [1, 5, 2, 1, 3, 3, 4, 7]

theorem tensor_bytePixels : Tensor bytePixels pixelScores where
  order := by decide
  rank := by decide
  extents := by decide
  inside := ⟨8, by decide, by decide, by decide⟩
  numbers := by decide +kernel
  quantization := ⟨1, 0, rfl, rfl, by decide⟩

/-- One class at one pixel, with a score of half precision. -/
def halfLogit : TensorInfo Datum :=
  { SegmentationParser.logit with dataType := .FP16, strides := [2, 2, 2] }

/-- The score is a quarter below zero. -/
def halfScore : List UInt8 := [0x00, 0xB4]

theorem tensor_halfLogit : Tensor halfLogit halfScore where
  order := by decide
  rank := by decide
  extents := by decide
  inside := ⟨2, by decide, by decide, by decide⟩
  numbers := by decide +kernel
  quantization := ⟨1, 0, rfl, rfl, by decide⟩

end DepthaiCore.NN.Segmentation
