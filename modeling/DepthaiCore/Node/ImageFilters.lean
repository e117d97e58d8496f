import DepthaiCore.Lib.Passes
import DepthaiCore.Node.TemporalFilter

/-!
# Filter pipelines and their updates

An `ImageFilters` node keeps a list of filters. A configuration either creates the list anew or
sets the parameters of some of the filters. The wrappers of the median and of the speckle filter
hand their parameters to the filter with every frame. The wrapper of the spatial filter hands them
over when it is created and never again: an update reaches its `enable` flag only.

So an updated pipeline does what one created with the final parameters does if, for every spatial
filter that ends up enabled, the parameters it was created with have the effect of the final ones.
They have if they are equal, and where nothing distinguishes them: radii of 0 and 1, weights that
round alike for all differences that are smoothed, and parameters that leave every frame alone.

The weights are numbers of an ordered field. The two functions of OpenCV are parameters.
-/

open scoped Numerals

namespace DepthaiCore

namespace ImageFilters

/-- The two functions of OpenCV that the filters call, on the pixels of a matrix of values of
`bytes` bytes. They may throw. A matrix holds values of its type only. -/
structure OpenCV where
  medianBlur : (bytes : ℕ) → (height width : UInt32) → List ℕ → ℕ → Except Fault (List ℕ)
  filterSpeckles : (bytes : ℕ) → (height width : UInt32) → List ℕ → (maxSpeckleSize maxDiff : ℤ) →
    Except Fault (List ℕ)
  lt_of_medianBlur : ∀ bytes height width data size out, (∀ v ∈ data, v < 256 ^ bytes) →
    medianBlur bytes height width data size = .ok out → ∀ v ∈ out, v < 256 ^ bytes
  lt_of_filterSpeckles : ∀ bytes height width data maxSpeckleSize maxDiff out,
    (∀ v ∈ data, v < 256 ^ bytes) →
    filterSpeckles bytes height width data maxSpeckleSize maxDiff = .ok out →
      ∀ v ∈ out, v < 256 ^ bytes

/-- The data holds values of the frame's type. -/
def ImgFrame.InRange (frame : ImgFrame) : Prop :=
  ∀ bytes, bytesPerPixel frame.type = .ok bytes → ∀ v ∈ frame.data, v < 256 ^ bytes

/-! ### The median filter -/

/-- The enumerators' values. -/
def MedianFilterParams.value : MedianFilterParams → ℕ
  | .MEDIAN_OFF => 0
  | .KERNEL_3x3 => 3
  | .KERNEL_5x5 => 5
  | .KERNEL_7x7 => 7

/-- `MedianFilter::process`. The blurred pixels are copied over the first ones of the frame. -/
def MedianFilter.process (cv : OpenCV) (frame : ImgFrame) (medianSize : ℕ) :
    Except Fault ImgFrame := do
  let bytes ← bytesPerPixel frame.type
  if medianSize % 2 ≠ 1 then .error .invalidMedianSize
  else if ¬medianSize ≤ 5 then .error .invalidMedianSize
  else do
    let cvFrameFiltered ← cv.medianBlur bytes frame.height frame.width
      (frame.data.take frame.pixels) medianSize
    return { frame with data := cvFrameFiltered ++ frame.data.drop cvFrameFiltered.length }

/-! ### The speckle filter -/

/-- `SpeckleFilter::process`, in place. -/
def SpeckleFilter.process (cv : OpenCV) (frame : ImgFrame) (speckleRange maxDiff : ℤ) :
    Except Fault ImgFrame := do
  let bytes ← bytesPerPixel frame.type
  let cvFrame ← cv.filterSpeckles bytes frame.height frame.width
    (frame.data.take frame.pixels) speckleRange maxDiff
  return { frame with data := cvFrame ++ frame.data.drop cvFrame.length }

/-! ### The spatial filter -/

section Spatial

variable {K : Type} [Field K] [LinearOrder K] [FloorSemiring K]

/-- `SpatialFilterParamsImpl`, with `delta` as a byte. -/
structure SpatialFilterParamsImpl (K : Type) [Field K] where
  alpha : K := 1 / 2
  delta : ℕ := 20
  iterationNr : ℤ := 2
  holesFillingRadius : ℕ := 0

/-- `static_cast<T>(val1 * alpha + val0 * (1.0f - alpha) + round)`. -/
def smooth (bytes : ℕ) (alpha : K) (val1 val0 : ℕ) : ℕ :=
  castPixel bytes (val1 * alpha + val0 * (1 - alpha) + 1 / 2)

/-- The hole filling of both directions: the last value, up to the radius. -/
def fillHole (radius last currentFill value : ℕ) : ℕ × ℕ :=
  if radius ≠ 0 then
    if currentFill + 1 < radius then (last, currentFill + 1) else (value, currentFill + 1)
  else (value, currentFill)

/-- The loop body from left to right: the old value `val0` and the new one `val1`. -/
def leftToRight (params : SpatialFilterParamsImpl K) (bytes val0 currentFill val1 : ℕ) : ℕ × ℕ :=
  if 1 ≤ val0 then
    if 1 ≤ val1 then
      let diff := ((val1 : ℤ) - val0).natAbs
      (if 1 ≤ diff ∧ diff ≤ params.delta then smooth bytes params.alpha val1 val0 else val1, 0)
    else fillHole params.holesFillingRadius val0 currentFill val1
  else (val1, currentFill)

/-- The loop body from right to left: the old value `val1` and the new one `val0`, which is
compared with the threshold strictly. -/
def rightToLeft (params : SpatialFilterParamsImpl K) (bytes val1 currentFill val0 : ℕ) : ℕ × ℕ :=
  if 1 ≤ val1 then
    if 1 < val0 then
      let diff := ((val1 : ℤ) - val0).natAbs
      (if diff ≤ params.delta then smooth bytes params.alpha val0 val1 else val0, 0)
    else fillHole params.holesFillingRadius val1 currentFill val0
  else (val0, currentFill)

/-- The loops of `recursiveFilterHorizontal`, for the two bodies. The last pixel of a row is left
out from left to right. -/
def sweepRows (ltr rtl : ℕ → ℕ → ℕ → ℕ × ℕ) (width height : ℕ) (image : List ℕ) : List ℕ :=
  (List.range height).foldl (fun image v =>
    let image := Pass.carry ltr (List.range' (v * width + 1) (width - 2))
      image (image.getD (v * width) 0) 0
    Pass.carry rtl (List.range' (v * width) (width - 1)).reverse
      image (image.getD ((v + 1) * width - 1) 0) 0) image

/-- `recursiveFilterHorizontal<T>`. -/
def recursiveFilterHorizontal (params : SpatialFilterParamsImpl K) (bytes width height : ℕ)
    (image : List ℕ) : List ℕ :=
  sweepRows (leftToRight params bytes) (rightToLeft params bytes) width height image

/-- The loop body from top to bottom: the pixel above and the one that is written. -/
def topToBottom (params : SpatialFilterParamsImpl K) (bytes im0 imw : ℕ) : ℕ :=
  let diff := ((im0 : ℤ) - imw).natAbs
  if diff < params.delta then smooth bytes params.alpha imw im0 else imw

/-- The loop body from bottom to top: the pixel below and the one that is written. -/
def bottomToTop (params : SpatialFilterParamsImpl K) (bytes imw im0 : ℕ) : ℕ :=
  if 1 ≤ im0 ∧ 1 ≤ imw then
    let diff := ((im0 : ℤ) - imw).natAbs
    if diff < params.delta then smooth bytes params.alpha im0 imw else im0
  else im0

/-- The loops of `recursiveFilterVertical`, for the two bodies. -/
def sweepColumns (down up : ℕ → ℕ → ℕ) (width height : ℕ) (image : List ℕ) : List ℕ :=
  let image := Pass.pairs down
    ((List.range' 1 (height - 1)).flatMap fun v =>
      (List.range width).map fun u => ((v - 1) * width + u, v * width + u)) image
  Pass.pairs up
    ((List.range' 1 (height - 1)).flatMap fun v =>
      (List.range width).map fun u =>
        ((height - v) * width + u, (height - 1 - v) * width + u)) image

/-- `recursiveFilterVertical<T>`. -/
def recursiveFilterVertical (params : SpatialFilterParamsImpl K) (bytes width height : ℕ)
    (image : List ℕ) : List ℕ :=
  sweepColumns (topToBottom params bytes) (bottomToTop params bytes) width height image

namespace SpatialFilter

/-- `SpatialFilter::Init`. -/
def init (params : SpatialFilterParamsImpl K) (alpha : K) (delta iterationNr : ℤ)
    (holesFillingRadius : ℕ) : SpatialFilterParamsImpl K :=
  let params := if alpha ≠ params.alpha then { params with alpha } else params
  let params :=
    if delta ≠ params.delta then { params with delta := (delta % 256).toNat } else params
  let params := if iterationNr ≠ params.iterationNr then { params with iterationNr } else params
  if holesFillingRadius ≠ params.holesFillingRadius then { params with holesFillingRadius }
  else params

/-- An `unsigned int` kept as an `int`, for the loops. -/
def extent (n : UInt32) : ℕ :=
  n.toInt32.toInt.toNat

/-- One round of the loop of `SpatialFilter::process`. -/
def round (params : SpatialFilterParamsImpl K) (bytes width height : ℕ) (image : List ℕ) :
    List ℕ :=
  recursiveFilterVertical params bytes width height
    (recursiveFilterHorizontal params bytes width height image)

def process (params : SpatialFilterParamsImpl K) (frame : ImgFrame) : Except Fault ImgFrame := do
  let bytes ← bytesPerPixel frame.type
  let filter := round params bytes (extent frame.width) (extent frame.height)
  return { frame with data := filter^[params.iterationNr.toNat] frame.data }

end SpatialFilter

end Spatial

/-! ### Wrappers and pipelines -/

section Pipeline

variable {K : Type} [Field K] [LinearOrder K] [FloorSemiring K]

/-- A filter of a pipeline: the wrappers of the four filters. -/
inductive Filter (K : Type) [Field K]
  | median (params : MedianFilterParams)
  | spatial (params : SpatialFilterParams K) (spatialFilter : SpatialFilterParamsImpl K)
  | speckle (params : SpeckleFilterParams)
  | temporal (wrapper : TemporalFilterWrapper K)

def createFilter : FilterParams K → Filter K
  | .median params => .median params
  | .spatial params =>
    .spatial params (SpatialFilter.init {} params.alpha params.delta params.numIterations
      params.holeFillingRadius.toNat)
  | .speckle params => .speckle params
  | .temporal params => .temporal { params }

namespace Filter

def setParams : Filter K → FilterParams K → Except Fault (Filter K)
  | .median _, .median params => .ok (.median params)
  | .spatial _ spatialFilter, .spatial params => .ok (.spatial params spatialFilter)
  | .speckle _, .speckle params => .ok (.speckle params)
  | .temporal wrapper, params => do
    let wrapper ← wrapper.setParams params
    return .temporal wrapper
  | _, _ => .error .invalidParams

/-- `Filter::process`: the filter afterwards and the frame. -/
def process (cv : OpenCV) : Filter K → ImgFrame → Except Fault (Filter K × ImgFrame)
  | .median params, frame =>
    if params ≠ .MEDIAN_OFF then do
      let frame ← MedianFilter.process cv frame params.value
      return (.median params, frame)
    else .ok (.median params, frame)
  | .spatial params spatialFilter, frame =>
    if params.enable then do
      let frame ← SpatialFilter.process spatialFilter frame
      return (.spatial params spatialFilter, frame)
    else .ok (.spatial params spatialFilter, frame)
  | .speckle params, frame =>
    if params.enable then do
      let frame ← SpeckleFilter.process cv frame params.speckleRange.toInt32.toInt
        params.differenceThreshold.toInt32.toInt
      return (.speckle params, frame)
    else .ok (.speckle params, frame)
  | .temporal wrapper, frame => do
    let (wrapper, frame) ← wrapper.process frame
    return (.temporal wrapper, frame)

end Filter

structure ImageFiltersConfig (K : Type) [Field K] where
  filterIndices : List ℤ := []
  filterParams : List (FilterParams K) := []

def createNewFilterPipeline (config : ImageFiltersConfig K) : List (Filter K) :=
  config.filterParams.map createFilter

/-- One round of the loop of `updateExistingFilterPipeline`: an index outside the pipeline is
only warned about. -/
def updateFilter (filters : List (Filter K)) (update : ℤ × FilterParams K) :
    Except Fault (List (Filter K)) :=
  if 0 ≤ update.1 then
    match filters[update.1.toNat]? with
    | some filter => do
      let filter ← filter.setParams update.2
      return filters.set update.1.toNat filter
    | none => .ok filters
  else .ok filters

/-- `updateExistingFilterPipeline`, for as many parameters as indices. -/
def updateExistingFilterPipeline (filters : List (Filter K)) (config : ImageFiltersConfig K) :
    Except Fault (List (Filter K)) :=
  (config.filterIndices.zip config.filterParams).foldlM updateFilter filters

/-- The loop over the filters in `ImageFilters::run`. -/
def filterFrame (cv : OpenCV) : List (Filter K) → ImgFrame →
    Except Fault (List (Filter K) × ImgFrame)
  | [], frame => .ok ([], frame)
  | filter :: filters, frame => do
    let (filter, frame) ← filter.process cv frame
    let (filters, frame) ← filterFrame cv filters frame
    return (filter :: filters, frame)

/-- The frames that `ImageFilters::run` sends for the frames it gets, and what ends it, if
something does. -/
def filterFrames (cv : OpenCV) (filters : List (Filter K)) :
    List ImgFrame → List ImgFrame × Option Fault
  | [] => ([], none)
  | frame :: frames =>
    match filterFrame cv filters frame with
    | .error fault => ([], some fault)
    | .ok (filters, frame) =>
      let (sent, fault) := filterFrames cv filters frames
      (frame :: sent, fault)

end Pipeline

/-! ### Parameters that nothing distinguishes -/

section Effect

variable {K : Type} [Field K] [LinearOrder K] [FloorSemiring K]
  {params params' : SpatialFilterParamsImpl K} {bytes : ℕ}

/-- `smooth` before it is cast. -/
def rounded (alpha : K) (x y : ℕ) : ℕ :=
  ⌊x * alpha + y * (1 - alpha) + 1 / 2⌋₊

namespace SpatialFilterParamsImpl

/-- The filter leaves every frame alone: there is no round, or no hole is filled and what is
smoothed is rounded back. -/
def Idle (params : SpatialFilterParamsImpl K) : Prop :=
  params.iterationNr ≤ 0 ∨ params.holesFillingRadius ≤ 1 ∧
    ∀ x y : ℕ, ((x : ℤ) - y).natAbs ≤ params.delta → rounded params.alpha x y = x

/-- Two filters make the same rounds: the radii are equal or fill no hole, and the weights are
rounded alike for the differences that are smoothed. -/
structure Alike (params params' : SpatialFilterParamsImpl K) : Prop where
  iterationNr : params.iterationNr = params'.iterationNr
  delta : params.delta = params'.delta
  radius : params.holesFillingRadius = params'.holesFillingRadius ∨
    params.holesFillingRadius ≤ 1 ∧ params'.holesFillingRadius ≤ 1
  rounded : ∀ x y : ℕ, ((x : ℤ) - y).natAbs ≤ params.delta →
    rounded params.alpha x y = ImageFilters.rounded params'.alpha x y

/-- Nothing distinguishes the two sets of parameters. -/
def SameEffect (params params' : SpatialFilterParamsImpl K) : Prop :=
  params.Alike params' ∨ params.Idle ∧ params'.Idle

theorem Alike.refl (params : SpatialFilterParamsImpl K) : params.Alike params :=
  ⟨rfl, rfl, .inl rfl, fun _ _ _ => rfl⟩

end SpatialFilterParamsImpl

theorem smooth_lt (alpha : K) (x y : ℕ) : smooth bytes alpha x y < 256 ^ bytes :=
  Nat.mod_lt _ (pow_pos (by decide) _)

theorem smooth_eq (alpha : K) (x y : ℕ) :
    smooth bytes alpha x y = rounded alpha x y % 256 ^ bytes :=
  rfl

theorem fillHole_kind {T : ℕ → Prop} {last value : ℕ} (hlast : T last) (hvalue : T value)
    (radius currentFill : ℕ) : T (fillHole radius last currentFill value).1 := by
  rw [fillHole]
  split
  · split
    · exact hlast
    · exact hvalue
  · exact hvalue

theorem fillHole_of_le_one {radius : ℕ} (h : radius ≤ 1) (last currentFill value : ℕ) :
    (fillHole radius last currentFill value).1 = value := by
  rw [fillHole]
  split
  · rw [if_neg (by omega)]
  · rfl

theorem natAbs_sub_comm (x y : ℕ) : ((x : ℤ) - y).natAbs = ((y : ℤ) - x).natAbs := by
  omega

/-- The counts of filled holes agree, where the radii do. -/
def SameFill (params params' : SpatialFilterParamsImpl K) (fill fill' : ℕ) : Prop :=
  params.holesFillingRadius = params'.holesFillingRadius → fill = fill'

theorem fillHole_alike (h : params.Alike params') {fill fill' : ℕ}
    (hfill : SameFill params params' fill fill') (last value : ℕ) :
    (fillHole params.holesFillingRadius last fill value).1 =
        (fillHole params'.holesFillingRadius last fill' value).1 ∧
      SameFill params params' (fillHole params.holesFillingRadius last fill value).2
        (fillHole params'.holesFillingRadius last fill' value).2 := by
  rcases h.radius with hr | ⟨hr, hr'⟩
  · rw [hr, hfill hr]
    exact ⟨rfl, fun _ => rfl⟩
  · refine ⟨?_, fun hsame => ?_⟩
    · rw [fillHole_of_le_one hr, fillHole_of_le_one hr']
    · rw [hsame, hfill hsame]

/-- **The bodies of filters that are alike agree**, from left to right. -/
theorem leftToRight_agree (h : params.Alike params') :
    Pass.Agree (· < 256 ^ bytes) (SameFill params params') (leftToRight params bytes)
      (leftToRight params' bytes) where
  value := by
    intro x y s s' hx hy hs
    rw [leftToRight, leftToRight]
    split
    · split
      · simp only [← h.delta]
        split
        · rename_i hdiff
          rw [smooth_eq, smooth_eq, h.rounded y x hdiff.2]
        · rfl
      · exact (fillHole_alike h hs x y).1
    · rfl
  kind := by
    intro x y s hx hy
    rw [leftToRight]
    split
    · split
      · show (if _ then _ else _) < _
        split
        · exact smooth_lt _ _ _
        · exact hy
      · exact fillHole_kind (T := (· < 256 ^ bytes)) hx hy _ _
    · exact hy
  state := by
    intro x y s s' hx hy hs
    rw [leftToRight, leftToRight]
    split
    · split
      · exact fun _ => rfl
      · exact (fillHole_alike h hs x y).2
    · exact hs

theorem rightToLeft_agree (h : params.Alike params') :
    Pass.Agree (· < 256 ^ bytes) (SameFill params params') (rightToLeft params bytes)
      (rightToLeft params' bytes) where
  value := by
    intro x y s s' hx hy hs
    rw [rightToLeft, rightToLeft]
    split
    · split
      · simp only [← h.delta]
        split
        · rename_i hdiff
          rw [natAbs_sub_comm] at hdiff
          rw [smooth_eq, smooth_eq, h.rounded y x hdiff]
        · rfl
      · exact (fillHole_alike h hs x y).1
    · rfl
  kind := by
    intro x y s hx hy
    rw [rightToLeft]
    split
    · split
      · show (if _ then _ else _) < _
        split
        · exact smooth_lt _ _ _
        · exact hy
      · exact fillHole_kind (T := (· < 256 ^ bytes)) hx hy _ _
    · exact hy
  state := by
    intro x y s s' hx hy hs
    rw [rightToLeft, rightToLeft]
    split
    · split
      · exact fun _ => rfl
      · exact (fillHole_alike h hs x y).2
    · exact hs

theorem topToBottom_agree (h : params.Alike params') :
    Pass.AgreePairs (· < 256 ^ bytes) (topToBottom params bytes) (topToBottom params' bytes) where
  value := by
    intro x y hx hy
    simp only [topToBottom, ← h.delta]
    split
    · rename_i hdiff
      rw [natAbs_sub_comm] at hdiff
      rw [smooth_eq, smooth_eq, h.rounded y x hdiff.le]
    · rfl
  kind := by
    intro x y hx hy
    simp only [topToBottom]
    split
    · exact smooth_lt _ _ _
    · exact hy

theorem bottomToTop_agree (h : params.Alike params') :
    Pass.AgreePairs (· < 256 ^ bytes) (bottomToTop params bytes) (bottomToTop params' bytes) where
  value := by
    intro x y hx hy
    simp only [bottomToTop, ← h.delta]
    split
    · split
      · rename_i hdiff
        rw [smooth_eq, smooth_eq, h.rounded y x hdiff.le]
      · rfl
    · rfl
  kind := by
    intro x y hx hy
    simp only [bottomToTop]
    split
    · split
      · exact smooth_lt _ _ _
      · exact hy
    · exact hy

/-! ### Filters that leave frames alone -/

section Idle

variable (hradius : params.holesFillingRadius ≤ 1)
  (hrounded : ∀ x y : ℕ, ((x : ℤ) - y).natAbs ≤ params.delta → rounded params.alpha x y = x)

include hrounded

theorem smooth_idle {x y : ℕ} (hx : x < 256 ^ bytes) (h : ((x : ℤ) - y).natAbs ≤ params.delta) :
    smooth bytes params.alpha x y = x := by
  rw [smooth_eq, hrounded x y h, Nat.mod_eq_of_lt hx]

theorem topToBottom_idle : Pass.AgreePairs (· < 256 ^ bytes) (topToBottom params bytes)
    fun _ y => y where
  value := by
    intro x y hx hy
    simp only [topToBottom]
    split
    · rename_i hdiff
      rw [natAbs_sub_comm] at hdiff
      exact smooth_idle hrounded hy hdiff.le
    · rfl
  kind := (topToBottom_agree (.refl params)).kind

theorem bottomToTop_idle : Pass.AgreePairs (· < 256 ^ bytes) (bottomToTop params bytes)
    fun _ y => y where
  value := by
    intro x y hx hy
    simp only [bottomToTop]
    split
    · split
      · rename_i hdiff
        exact smooth_idle hrounded hy hdiff.le
      · rfl
    · rfl
  kind := (bottomToTop_agree (.refl params)).kind

include hradius

theorem leftToRight_idle : Pass.Agree (· < 256 ^ bytes) (fun _ _ => True)
    (leftToRight params bytes) Pass.keep where
  value := by
    intro x y s s' hx hy _
    rw [leftToRight, Pass.keep]
    split
    · split
      · show (if _ then _ else _) = _
        split
        · rename_i hdiff
          exact smooth_idle hrounded hy hdiff.2
        · rfl
      · exact fillHole_of_le_one hradius x s y
    · rfl
  kind := (leftToRight_agree (.refl params)).kind
  state := fun _ _ _ _ _ _ _ => trivial

theorem rightToLeft_idle : Pass.Agree (· < 256 ^ bytes) (fun _ _ => True)
    (rightToLeft params bytes) Pass.keep where
  value := by
    intro x y s s' hx hy _
    rw [rightToLeft, Pass.keep]
    split
    · split
      · show (if _ then _ else _) = _
        split
        · rename_i hdiff
          rw [natAbs_sub_comm] at hdiff
          exact smooth_idle hrounded hy hdiff
        · rfl
      · exact fillHole_of_le_one hradius x s y
    · rfl
  kind := (rightToLeft_agree (.refl params)).kind
  state := fun _ _ _ _ _ _ _ => trivial

end Idle

/-! ### Whole frames -/

section Whole

variable {T : ℕ → Prop} {F : ℕ → ℕ → Prop} {width height : ℕ}
  {ltr ltr' rtl rtl' : ℕ → ℕ → ℕ → ℕ × ℕ} {down down' up up' : ℕ → ℕ → ℕ}

theorem sweepRows_same (width height : ℕ) (hltr : Pass.Agree T F ltr ltr')
    (hrtl : Pass.Agree T F rtl rtl') (hF : F 0 0) (hzero : T 0) :
    Pass.Same T (sweepRows ltr rtl width height) (sweepRows ltr' rtl' width height) := by
  refine Pass.Same.foldl fun v _ image himage => ?_
  obtain ⟨heq, hkind⟩ := hltr.carry_eq hzero (List.range' (v * width + 1) (width - 2)) himage
    (Pass.getD_of_forall himage hzero (v * width)) hF
  simp only [← heq]
  exact hrtl.carry_eq hzero _ hkind (Pass.getD_of_forall hkind hzero _) hF

theorem sweepColumns_same (width height : ℕ) (hdown : Pass.AgreePairs T down down')
    (hup : Pass.AgreePairs T up up') (hzero : T 0) :
    Pass.Same T (sweepColumns down up width height) (sweepColumns down' up' width height) := by
  intro image himage
  rw [sweepColumns, sweepColumns]
  obtain ⟨heq, hkind⟩ := hdown.pairs_eq hzero ((List.range' 1 (height - 1)).flatMap fun v =>
    (List.range width).map fun u => ((v - 1) * width + u, v * width + u)) himage
  simp only [← heq]
  exact hup.pairs_eq hzero _ hkind

theorem sweepRows_keep (image : List ℕ) :
    sweepRows Pass.keep Pass.keep width height image = image := by
  rw [sweepRows]
  induction List.range height with
  | nil => rfl
  | cons v rows ih =>
    rw [List.foldl_cons]
    simp only [Pass.carry_keep] at ih ⊢
    exact ih

theorem sweepColumns_keep (image : List ℕ) :
    sweepColumns (fun _ y => y) (fun _ y => y) width height image = image := by
  rw [sweepColumns, Pass.pairs_keep, Pass.pairs_keep]

end Whole

namespace SpatialFilter

variable {frame out : ImgFrame}

theorem zero_lt_pixel (bytes : ℕ) : 0 < 256 ^ bytes :=
  pow_pos (by decide) _

theorem round_alike (bytes width height : ℕ) (h : params.Alike params') :
    Pass.Same (· < 256 ^ bytes) (round params bytes width height)
      (round params' bytes width height) := by
  have hrows : Pass.Same (· < 256 ^ bytes) (recursiveFilterHorizontal params bytes width height)
      (recursiveFilterHorizontal params' bytes width height) :=
    sweepRows_same width height (leftToRight_agree h) (rightToLeft_agree h) (fun _ => rfl)
      (zero_lt_pixel bytes)
  have hcolumns : Pass.Same (· < 256 ^ bytes) (recursiveFilterVertical params bytes width height)
      (recursiveFilterVertical params' bytes width height) :=
    sweepColumns_same width height (topToBottom_agree h) (bottomToTop_agree h)
      (zero_lt_pixel bytes)
  exact hcolumns.comp hrows

/-- A round that neither fills nor smoothes leaves the values of pixels alone. -/
theorem round_idle (bytes width height : ℕ) (hradius : params.holesFillingRadius ≤ 1)
    (hrounded : ∀ x y : ℕ, ((x : ℤ) - y).natAbs ≤ params.delta →
      rounded params.alpha x y = x) :
    Pass.Same (· < 256 ^ bytes) (round params bytes width height) id := by
  have hrows : Pass.Same (· < 256 ^ bytes) (recursiveFilterHorizontal params bytes width height)
      id := by
    have hkeep := sweepRows_same width height (leftToRight_idle hradius hrounded)
      (rightToLeft_idle hradius hrounded) trivial (zero_lt_pixel bytes)
    rwa [show sweepRows Pass.keep Pass.keep width height = id from funext sweepRows_keep] at hkeep
  have hcolumns : Pass.Same (· < 256 ^ bytes) (recursiveFilterVertical params bytes width height)
      id := by
    have hkeep := sweepColumns_same width height (topToBottom_idle hrounded)
      (bottomToTop_idle hrounded) (zero_lt_pixel bytes)
    rwa [show sweepColumns (fun _ y => y) (fun _ y => y) width height = id from
      funext sweepColumns_keep] at hkeep
  exact hcolumns.comp hrows

theorem process_of_unsupported {fault : Fault} (hbytes : bytesPerPixel frame.type = .error fault) :
    process params frame = .error fault := by
  rw [process, hbytes]
  rfl

theorem process_of_bytes (hbytes : bytesPerPixel frame.type = .ok bytes) :
    process params frame = .ok { frame with
      data := (round params bytes (extent frame.width)
        (extent frame.height))^[params.iterationNr.toNat] frame.data } := by
  rw [process, hbytes]
  rfl

theorem process_of_idle (h : params.Idle) (hbytes : bytesPerPixel frame.type = .ok bytes)
    (hframe : frame.InRange) : process params frame = .ok frame := by
  rw [process_of_bytes hbytes]
  rcases h with hnone | ⟨hradius, hrounded⟩
  · rw [Int.toNat_of_nonpos hnone]
    rfl
  · have hsame := (round_idle bytes (extent frame.width) (extent frame.height) hradius
      hrounded).iterate params.iterationNr.toNat
    rw [(hsame frame.data (hframe bytes hbytes)).1, Function.iterate_id]
    rfl

theorem process_of_alike (h : params.Alike params') (hbytes : bytesPerPixel frame.type = .ok bytes)
    (hframe : frame.InRange) : process params frame = process params' frame := by
  have hsame := (round_alike bytes (extent frame.width) (extent frame.height) h).iterate
    params.iterationNr.toNat
  rw [process_of_bytes hbytes, process_of_bytes hbytes, (hsame frame.data (hframe bytes hbytes)).1,
    h.iterationNr]

/-- **Parameters of the same effect filter every frame alike.** -/
theorem process_eq (h : params.SameEffect params') (hframe : frame.InRange) :
    process params frame = process params' frame := by
  cases hbytes : bytesPerPixel frame.type with
  | error fault => rw [process_of_unsupported hbytes, process_of_unsupported hbytes]
  | ok bytes =>
    rcases h with halike | ⟨hidle, hidle'⟩
    · exact process_of_alike halike hbytes hframe
    · rw [process_of_idle hidle hbytes hframe, process_of_idle hidle' hbytes hframe]

theorem inRange_of_process (hout : process params frame = .ok out) (hframe : frame.InRange) :
    out.InRange := by
  cases hbytes : bytesPerPixel frame.type with
  | error fault =>
    rw [process_of_unsupported hbytes] at hout
    cases hout
  | ok bytes =>
    obtain ⟨-, himage⟩ := (round_alike bytes (extent frame.width) (extent frame.height)
      (.refl params)).iterate params.iterationNr.toNat frame.data (hframe bytes hbytes)
    rw [process_of_bytes hbytes] at hout
    generalize (round params bytes (extent frame.width)
      (extent frame.height))^[params.iterationNr.toNat] frame.data = image at hout himage
    cases hout
    intro bytes' hbytes'
    cases hbytes.symm.trans hbytes'
    exact himage

end SpatialFilter

end Effect

/-! ### Updated and new pipelines -/

section Updates

variable {K : Type} [Field K] [LinearOrder K] [FloorSemiring K] {cv : OpenCV}
  {created final : FilterParams K} {frame : ImgFrame}

/-- The parameters as `SpatialFilter::Init` keeps them. -/
def SpatialFilterParams.impl (params : SpatialFilterParams K) : SpatialFilterParamsImpl K where
  alpha := params.alpha
  delta := (params.delta % 256).toNat
  iterationNr := params.numIterations
  holesFillingRadius := params.holeFillingRadius.toNat

omit [FloorSemiring K] in
theorem SpatialFilter.init_eq (params : SpatialFilterParams K) :
    SpatialFilter.init {} params.alpha params.delta params.numIterations
      params.holeFillingRadius.toNat = params.impl := by
  rw [SpatialFilter.init, SpatialFilterParams.impl]
  split <;> split <;> split <;> split <;> simp_all

/-- The two sets of parameters are those of one kind of filter, and not of a temporal filter. -/
inductive SameKind : FilterParams K → FilterParams K → Prop
  | median (params params') : SameKind (.median params) (.median params')
  | spatial (params params') : SameKind (.spatial params) (.spatial params')
  | speckle (params params') : SameKind (.speckle params) (.speckle params')

/-- A filter that was created with `created` and last got the parameters `final`. -/
def current : FilterParams K → FilterParams K → Filter K
  | .spatial created, .spatial final => .spatial final created.impl
  | _, final => createFilter final

/-- The parameters of a spatial filter that ends up enabled have the effect of those it was created
with. -/
def Kept : FilterParams K → FilterParams K → Prop
  | .spatial created, .spatial final => final.enable = true → created.impl.SameEffect final.impl
  | _, _ => True

omit [FloorSemiring K] in
theorem current_self (h : SameKind created created) : current created created =
    createFilter created := by
  cases h with
  | median => rfl
  | spatial params => rw [current, createFilter, SpatialFilter.init_eq]
  | speckle => rfl

omit [FloorSemiring K] in
theorem setParams_current {params : FilterParams K} (h : SameKind created final)
    (hparams : SameKind created params) :
    (current created final).setParams params = .ok (current created params) := by
  cases h with
  | median => cases hparams; rfl
  | spatial => cases hparams; rfl
  | speckle => cases hparams; rfl

theorem MedianFilter.inRange_of_process {size : ℕ} {out : ImgFrame}
    (h : MedianFilter.process cv frame size = .ok out) (hframe : frame.InRange) :
    out.InRange := by
  obtain ⟨bytes, hbytes, h⟩ := Loop.bind_eq_ok.1 h
  split at h
  · cases h
  · split at h
    · cases h
    · obtain ⟨blurred, hblurred, h⟩ := Loop.bind_eq_ok.1 h
      cases h
      intro bytes' hbytes' v hv
      cases hbytes.symm.trans hbytes'
      rcases List.mem_append.1 hv with hv | hv
      · exact cv.lt_of_medianBlur _ _ _ _ _ _
          (fun u hu => hframe bytes hbytes u (List.mem_of_mem_take hu)) hblurred v hv
      · exact hframe bytes hbytes v (List.mem_of_mem_drop hv)

theorem SpeckleFilter.inRange_of_process {speckleRange maxDiff : ℤ} {out : ImgFrame}
    (h : SpeckleFilter.process cv frame speckleRange maxDiff = .ok out) (hframe : frame.InRange) :
    out.InRange := by
  obtain ⟨bytes, hbytes, h⟩ := Loop.bind_eq_ok.1 h
  obtain ⟨filtered, hfiltered, h⟩ := Loop.bind_eq_ok.1 h
  cases h
  intro bytes' hbytes' v hv
  cases hbytes.symm.trans hbytes'
  rcases List.mem_append.1 hv with hv | hv
  · exact cv.lt_of_filterSpeckles _ _ _ _ _ _ _
      (fun u hu => hframe bytes hbytes u (List.mem_of_mem_take hu)) hfiltered v hv
  · exact hframe bytes hbytes v (List.mem_of_mem_drop hv)

/-- A filter without state makes `out` of the frame, or throws, and stays as it is. -/
def Makes (cv : OpenCV) (filter : Filter K) (frame : ImgFrame) (out : Except Fault ImgFrame) :
    Prop :=
  filter.process cv frame = out.map fun out => (filter, out)

omit [Field K] [LinearOrder K] [FloorSemiring K] in
theorem bind_pure_eq_map {α β : Type} (x : Except Fault α) (f : α → β) :
    (x >>= fun a => pure (f a)) = x.map f := by
  cases x with
  | error fault => rfl
  | ok a => rfl

theorem makes_median (params : MedianFilterParams) :
    Makes cv (.median params : Filter K) frame
      (if params ≠ .MEDIAN_OFF then MedianFilter.process cv frame params.value else .ok frame) := by
  rw [Makes, Filter.process]
  split
  · exact bind_pure_eq_map _ _
  · rfl

theorem makes_speckle (params : SpeckleFilterParams) :
    Makes cv (.speckle params : Filter K) frame
      (if params.enable then SpeckleFilter.process cv frame params.speckleRange.toInt32.toInt
        params.differenceThreshold.toInt32.toInt else .ok frame) := by
  rw [Makes, Filter.process]
  split
  · exact bind_pure_eq_map _ _
  · rfl

theorem makes_spatial (params : SpatialFilterParams K) (spatialFilter : SpatialFilterParamsImpl K) :
    Makes cv (.spatial params spatialFilter) frame
      (if params.enable then SpatialFilter.process spatialFilter frame else .ok frame) := by
  rw [Makes, Filter.process]
  split
  · exact bind_pure_eq_map _ _
  · rfl

/-- **A kept filter makes of a frame what a new one makes of it.** -/
theorem exists_makes (cv : OpenCV) (hkind : SameKind created final) (hkept : Kept created final)
    (hframe : frame.InRange) :
    ∃ out, Makes cv (current created final) frame out ∧ Makes cv (createFilter final) frame out ∧
      ∀ image, out = .ok image → image.InRange := by
  have hsame {image : ImgFrame} (himage : Except.ok frame = (.ok image : Except Fault ImgFrame)) :
      image.InRange := by
    cases himage
    exact hframe
  cases hkind with
  | median _ params =>
    refine ⟨_, makes_median params, makes_median params, fun image himage => ?_⟩
    split at himage
    · exact MedianFilter.inRange_of_process himage hframe
    · exact hsame himage
  | speckle _ params =>
    refine ⟨_, makes_speckle params, makes_speckle params, fun image himage => ?_⟩
    split at himage
    · exact SpeckleFilter.inRange_of_process himage hframe
    · exact hsame himage
  | spatial created params =>
    have hout : (if params.enable then SpatialFilter.process created.impl frame else .ok frame) =
        if params.enable then SpatialFilter.process params.impl frame else .ok frame := by
      split
      · exact SpatialFilter.process_eq (hkept ‹_›) hframe
      · rfl
    have hold : Makes cv (current (.spatial created) (.spatial params)) frame _ :=
      makes_spatial params created.impl
    have hnew : Makes cv (.spatial params params.impl) frame _ := makes_spatial params params.impl
    rw [createFilter, SpatialFilter.init_eq]
    rw [hout] at hold
    refine ⟨_, hold, hnew, fun image himage => ?_⟩
    split at himage
    · exact SpatialFilter.inRange_of_process himage hframe
    · exact hsame himage

/-! ### Runs of pipelines -/

/-- What a pipeline gets: updates and frames. -/
inductive Event (K : Type) [Field K]
  | update (config : ImageFiltersConfig K)
  | frame (frame : ImgFrame)

/-- The pipeline after an event. -/
def handle (cv : OpenCV) (filters : List (Filter K)) : Event K → Except Fault (List (Filter K))
  | .update config => updateExistingFilterPipeline filters config
  | .frame frame => do
    let (filters, _) ← filterFrame cv filters frame
    return filters

/-- The last parameters of every filter after one update. -/
def setFinal (final : List (FilterParams K)) (update : ℤ × FilterParams K) :
    List (FilterParams K) :=
  final.set update.1.toNat update.2

/-- The last parameters of every filter after an event. -/
def lastParams (params : List (FilterParams K)) : Event K → List (FilterParams K)
  | .update config => (config.filterIndices.zip config.filterParams).foldl setFinal params
  | .frame _ => params

/-- The update gives as many parameters as indices, every index is in range and the parameters are
of the kind of the filter there. -/
structure ImageFiltersConfig.Fits (created : List (FilterParams K))
    (config : ImageFiltersConfig K) : Prop where
  length : config.filterIndices.length = config.filterParams.length
  nonneg : ∀ update ∈ config.filterIndices.zip config.filterParams, 0 ≤ update.1
  kind : ∀ update ∈ config.filterIndices.zip config.filterParams,
    ∃ params, created[update.1.toNat]? = some params ∧ SameKind params update.2

/-- The pipeline whose filters have been created and updated with these parameters. -/
def pipeline (filters : List (FilterParams K × FilterParams K)) : List (Filter K) :=
  filters.map fun params => current params.1 params.2

/-- The pipeline is one that has been created with `created` and has the parameters `params` now. -/
def Updated (created params : List (FilterParams K)) (filters : List (Filter K)) : Prop :=
  ∃ all : List (FilterParams K × FilterParams K), all.map Prod.fst = created ∧
    all.map Prod.snd = params ∧ (∀ p ∈ all, SameKind p.1 p.2) ∧ filters = pipeline all

variable {all : List (FilterParams K × FilterParams K)} {filters filters' : List (Filter K)}
  {start params : List (FilterParams K)}

/-- A filter of a pipeline stays as it is when it processes a frame. -/
theorem exists_makes_current (cv : OpenCV) (frame : ImgFrame) (hkind : SameKind created final) :
    ∃ out, Makes cv (current created final) frame out := by
  cases hkind with
  | median _ params => exact ⟨_, makes_median params⟩
  | speckle _ params => exact ⟨_, makes_speckle params⟩
  | spatial created params => exact ⟨_, makes_spatial params created.impl⟩

theorem eq_of_filterFrame (hkind : ∀ p ∈ all, SameKind p.1 p.2) {image : ImgFrame}
    (h : filterFrame cv (pipeline all) frame = .ok (filters, image)) :
    filters = pipeline all := by
  induction all generalizing frame filters with
  | nil =>
    cases h
    rfl
  | cons p all ih =>
    obtain ⟨out, hout⟩ := exists_makes_current cv frame (hkind p List.mem_cons_self)
    obtain ⟨⟨filter, next⟩, hfilter, h⟩ := Loop.bind_eq_ok.1 h
    obtain ⟨⟨rest, last⟩, hrest, h⟩ := Loop.bind_eq_ok.1 h
    cases h
    rw [hout] at hfilter
    cases out with
    | error fault => cases hfilter
    | ok image =>
      cases hfilter
      rw [ih (fun q hq => hkind q (List.mem_cons_of_mem _ hq)) hrest]
      rfl

omit [FloorSemiring K] in
theorem Updated.setFinal (h : Updated start params filters) {update : ℤ × FilterParams K}
    (hnonneg : 0 ≤ update.1)
    (hkind : ∃ p, start[update.1.toNat]? = some p ∧ SameKind p update.2) :
    ∃ filters', updateFilter filters update = .ok filters' ∧
      Updated start (ImageFilters.setFinal params update) filters' := by
  obtain ⟨all, rfl, rfl, hall, rfl⟩ := h
  obtain ⟨c, hc, hsame⟩ := hkind
  rw [List.getElem?_map] at hc
  obtain ⟨p, hp, rfl⟩ := Option.map_eq_some_iff.1 hc
  have hfilter : (pipeline all)[update.1.toNat]? = some (current p.1 p.2) := by
    rw [pipeline, List.getElem?_map, hp]
    rfl
  have hset := setParams_current (hall p (List.mem_of_getElem? hp)) hsame
  refine ⟨_, ?_, all.set update.1.toNat (p.1, update.2), ?_, ?_, ?_, rfl⟩
  · rw [updateFilter, if_pos hnonneg, hfilter]
    simp only [hset]
    rw [pipeline, pipeline, List.map_set]
    rfl
  · rw [List.map_set]
    refine List.ext_getElem? fun k => ?_
    rw [List.getElem?_set]
    split
    · rename_i hk
      subst hk
      rw [List.getElem?_map, hp]
      simpa using (List.getElem?_eq_some_iff.1 hp).1
    · rfl
  · rw [List.map_set]
    rfl
  · exact Pass.forall_mem_set hall hsame _

omit [FloorSemiring K] in
/-- An update that fits does not throw, and sets the parameters. -/
theorem Updated.update (h : Updated start params filters) {config : ImageFiltersConfig K}
    (hfits : config.Fits start) :
    ∃ filters', updateExistingFilterPipeline filters config = .ok filters' ∧
      Updated start (lastParams params (.update config)) filters' := by
  obtain ⟨-, hnonneg, hkind⟩ := hfits
  rw [updateExistingFilterPipeline, lastParams]
  generalize config.filterIndices.zip config.filterParams = updates at hnonneg hkind ⊢
  induction updates generalizing filters params with
  | nil => exact ⟨filters, rfl, h⟩
  | cons update updates ih =>
    obtain ⟨next, hnext, hupdated⟩ := h.setFinal (hnonneg update List.mem_cons_self)
      (hkind update List.mem_cons_self)
    rw [List.foldlM_cons, hnext, Loop.ok_bind]
    exact ih hupdated (fun u hu => hnonneg u (List.mem_cons_of_mem _ hu))
      (fun u hu => hkind u (List.mem_cons_of_mem _ hu))

theorem Updated.handle (h : Updated start params filters) {event : Event K}
    (hfits : ∀ config, event = .update config → config.Fits start)
    (hhandle : handle cv filters event = .ok filters') :
    Updated start (lastParams params event) filters' := by
  cases event with
  | frame frame =>
    obtain ⟨all, hstart, hparams, hall, rfl⟩ := h
    obtain ⟨⟨rest, image⟩, hrest, h⟩ := Loop.bind_eq_ok.1 hhandle
    cases h
    exact ⟨all, hstart, hparams, hall, eq_of_filterFrame hall hrest⟩
  | update config =>
    obtain ⟨next, hnext, hupdated⟩ := h.update (hfits config rfl)
    cases hnext.symm.trans hhandle
    exact hupdated

theorem Updated.run (h : Updated start params filters) {events : List (Event K)}
    (hfits : ∀ config, .update config ∈ events → config.Fits start)
    (hrun : events.foldlM (ImageFilters.handle cv) filters = .ok filters') :
    Updated start (events.foldl lastParams params) filters' := by
  induction events generalizing filters params with
  | nil =>
    cases hrun
    exact h
  | cons event events ih =>
    rw [List.foldlM_cons] at hrun
    obtain ⟨next, hnext, hrun⟩ := Loop.bind_eq_ok.1 hrun
    refine ih (h.handle (fun config hc => hfits config ?_) hnext)
      (fun config hc => hfits config (List.mem_cons_of_mem _ hc)) hrun
    rw [← hc]
    exact List.mem_cons_self

/-- A pipeline makes of a frame what a new one makes of it. -/
theorem filterFrame_eq (cv : OpenCV) (hkind : ∀ p ∈ all, SameKind p.1 p.2)
    (hkept : ∀ p ∈ all, Kept p.1 p.2)
    (hframe : frame.InRange) :
    ∃ out : Except Fault ImgFrame,
      filterFrame cv (pipeline all) frame = out.map (fun image => (pipeline all, image)) ∧
      filterFrame cv (all.map fun p => createFilter p.2) frame =
        out.map fun image => (all.map fun p => createFilter p.2, image) := by
  induction all generalizing frame with
  | nil => exact ⟨.ok frame, rfl, rfl⟩
  | cons p all ih =>
    obtain ⟨out, hold, hnew, hrange⟩ := exists_makes cv (hkind p List.mem_cons_self)
      (hkept p List.mem_cons_self) hframe
    rw [Makes] at hold hnew
    simp only [pipeline, List.map_cons, filterFrame, hold, hnew]
    cases out with
    | error fault => exact ⟨.error fault, rfl, rfl⟩
    | ok image =>
      obtain ⟨out, hold, hnew⟩ := ih (fun q hq => hkind q (List.mem_cons_of_mem _ hq))
        (fun q hq => hkept q (List.mem_cons_of_mem _ hq)) (hrange image rfl)
      refine ⟨out, ?_, ?_⟩
      · show (filterFrame cv (pipeline all) image >>= _) = _
        rw [hold]
        cases out <;> rfl
      · show (filterFrame cv (all.map fun p => createFilter p.2) image >>= _) = _
        rw [hnew]
        cases out <;> rfl

theorem filterFrames_eq (hkind : ∀ p ∈ all, SameKind p.1 p.2) (hkept : ∀ p ∈ all, Kept p.1 p.2)
    {frames : List ImgFrame} (hframes : ∀ frame ∈ frames, frame.InRange) :
    filterFrames cv (pipeline all) frames =
      filterFrames cv (all.map fun p => createFilter p.2) frames := by
  induction frames with
  | nil => rfl
  | cons frame frames ih =>
    obtain ⟨out, hold, hnew⟩ := filterFrame_eq cv hkind hkept
      (hframes frame List.mem_cons_self)
    rw [filterFrames, filterFrames, hold, hnew]
    cases out with
    | error fault => rfl
    | ok image =>
      show (_ :: (filterFrames cv (pipeline all) frames).1, _) = _
      rw [ih fun f hf => hframes f (List.mem_cons_of_mem _ hf)]
      rfl

omit [FloorSemiring K] in
theorem updated_new (h : ∀ p ∈ start, SameKind p p) :
    Updated start start (createNewFilterPipeline { filterParams := start }) := by
  refine ⟨start.map fun p => (p, p), ?_, ?_, ?_, ?_⟩
  · rw [List.map_map]
    exact List.map_id start
  · rw [List.map_map]
    exact List.map_id start
  · intro p hp
    obtain ⟨q, hq, rfl⟩ := List.mem_map.1 hp
    exact h q hq
  · rw [createNewFilterPipeline, pipeline, List.map_map]
    exact (List.map_congr_left fun p hp => current_self (h p hp)).symm

/-- What is asked of an updated pipeline: it does what one does that is created with the last
parameters. -/
def ActsAsNew (cv : OpenCV) (params : List (FilterParams K)) (filters : List (Filter K)) : Prop :=
  ∀ frames : List ImgFrame, (∀ frame ∈ frames, frame.InRange) →
    filterFrames cv filters frames =
      filterFrames cv (createNewFilterPipeline { filterParams := params }) frames

/-- OpenCV functions that leave every matrix alone. -/
def plainCV : OpenCV where
  medianBlur := fun _ _ _ data _ => .ok data
  filterSpeckles := fun _ _ _ data _ _ => .ok data
  lt_of_medianBlur := by
    intro _ _ _ data _ out hdata hout
    cases hout
    exact hdata
  lt_of_filterSpeckles := by
    intro _ _ _ data _ _ out hdata hout
    cases hout
    exact hdata

/-- A spatial filter that only fills holes. -/
def filling : SpatialFilterParams ℚ := { enable := true, delta := 0 }

/-- A frame with a measurement and two holes. -/
def threePixels : ImgFrame := ⟨.RAW8, 3, 1, [5, 0, 0]⟩

end Updates

end ImageFilters

end DepthaiCore
