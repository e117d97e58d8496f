import DepthaiCore.Node.RGBD

/-!
# Runs of the node `RGBD`

The node takes pairs of a colour and a depth frame. It keeps the size and the intrinsics of the
first pair, and reads the pixels of every pair as if rows were packed. A run in which nothing of
this changes makes the cloud of every pair out of its own pixels.
-/

open scoped Numerals

namespace DepthaiCore

namespace RGBD

open DepthPoints

variable {K : Type} [Field K]

/-! ### The node -/

/-- A matrix of OpenCV, with its pixels in the order of `RGB888i`. -/
structure Mat where
  cols : UInt32
  rows : UInt32
  rgb : List UInt8

/-- `setCvFrame` for the type `RGB888i`. -/
def setCvFrame (frame : ImgFrame K) (mat : Mat) : ImgFrame K :=
  { frame with
    type := .RGB888i
    width := mat.cols
    height := mat.rows
    stride := mat.cols * 3
    data := mat.rgb }

/-- The conversion to `RGB888i`, with `getCvFrame` as OpenCV does it; none in a build without
OpenCV. -/
def toRGB888i (getCvFrame : Option (ImgFrame K → Except String Mat)) (colorFrame : ImgFrame K) :
    Except PointFault (ImgFrame K) :=
  if colorFrame.type = .RGB888i then .ok colorFrame
  else match getCvFrame with
    | none => .error (.thrown "RGBD node only supports RGB888i frames")
    | some getCvFrame =>
      match getCvFrame colorFrame with
      | .error what => .error (.thrown ("Color space conversion to RGB888i failed: " ++ what))
      | .ok rgb888iFrame => .ok (setCvFrame colorFrame rgb888iFrame)

/-- The `MessageGroup` of a pair. -/
structure MessageGroup (K : Type) [Field K] where
  color : ImgFrame K
  depth : ImgFrame K

/-- What the node sends. -/
structure PointCloudData (K : Type) where
  width : UInt32
  height : UInt32
  points : List (Point3fRGBA K)

/-- The node `RGBD`. -/
structure Node (K : Type) where
  impl : Impl K
  initialized : Bool := false

/-- The intrinsics of a colour frame. -/
def Intrinsics.ofColor (colorFrame : ImgFrame K) : Intrinsics K :=
  let intrinsics := colorFrame.transformation.getIntrinsicMatrix
  .ofFrame (intrinsics 0 0) (intrinsics 1 1) (intrinsics 0 2) (intrinsics 1 2) colorFrame.width
    colorFrame.height

@[simp] theorem Intrinsics.ofColor_width (color : ImgFrame K) :
    (Intrinsics.ofColor color).width = ofUnsigned color.width := by
  dsimp only [Intrinsics.ofColor, Intrinsics.ofFrame]

@[simp] theorem Intrinsics.ofColor_height (color : ImgFrame K) :
    (Intrinsics.ofColor color).height = ofUnsigned color.height := by
  dsimp only [Intrinsics.ofColor, Intrinsics.ofFrame]

@[simp] theorem Intrinsics.ofColor_size (color : ImgFrame K) :
    (Intrinsics.ofColor color).size = ofUnsigned color.width * ofUnsigned color.height := by
  dsimp only [Intrinsics.ofColor, Intrinsics.ofFrame]

namespace Node

variable (getCvFrame : Option (ImgFrame K → Except String Mat))

/-- `RGBD::initialize`. The colour frame is converted in place. -/
def initializeNode (self : Node K) (frames : MessageGroup K) :
    Except PointFault (Node K × MessageGroup K) := do
  let colorFrame ← toRGB888i getCvFrame frames.color
  let depthFrame := frames.depth
  if colorFrame.width ≠ depthFrame.width ∨ colorFrame.height ≠ depthFrame.height then
    throw (.thrown "Color and depth frame sizes do not match")
  if colorFrame.instanceNum ≠ depthFrame.instanceNum then
    throw (.thrown "Depth is not aligned to color")
  let intrinsics := colorFrame.transformation.getIntrinsicMatrix
  let fx := intrinsics 0 0
  let fy := intrinsics 1 1
  let cx := intrinsics 0 2
  let cy := intrinsics 1 2
  let impl ← self.impl.setIntrinsics fx fy cx cy colorFrame.width colorFrame.height
  return ({ impl, initialized := true }, { frames with color := colorFrame })

/-- The round of `RGBD::run` for a pair. -/
def step (self : Node K) (group : MessageGroup K) :
    Except PointFault (Node K × PointCloudData K) := do
  let (self, group) ← if self.initialized then pure (self, group)
    else self.initializeNode getCvFrame group
  let colorFrame ← toRGB888i getCvFrame group.color
  let depthFrame := group.depth
  let points ← self.impl.computePointCloud depthFrame.data colorFrame.data
  return (self, { width := colorFrame.width, height := colorFrame.height, points })

/-- `RGBD::run` on these pairs: the clouds that are sent, and what ends the run before the last. -/
def run (self : Node K) : List (MessageGroup K) → List (PointCloudData K) × Option PointFault
  | [] => ([], none)
  | group :: groups =>
    match self.step getCvFrame group with
    | .error e => ([], some e)
    | .ok (self, cloud) =>
      let rest := self.run groups
      (cloud :: rest.1, rest.2)

end Node

/-! ### Clouds of the current pair -/

/-- The point of a pixel of a pair. -/
def pixelPoint (scale : K) (color depth : ImgFrame K) (row col : ℕ) : Point3fRGBA K :=
  Impl.makePoint scale (.ofColor color) row col (depth.depthPixel row col)
    (color.colorPixel row col)

/-- **A cloud of this pair**: a point for each pixel, made of the pixel under the strides of the
pair and with the intrinsics of its colour frame. -/
structure Right (scale : K) (color depth : ImgFrame K) (cloud : PointCloudData K) : Prop where
  length : cloud.points.length = color.height.toNat * color.width.toNat
  point : ∀ row < color.height.toNat, ∀ col < color.width.toNat,
    cloud.points[row * color.width.toNat + col]? = some (pixelPoint scale color depth row col)

section Runs

variable (getCvFrame : Option (ImgFrame K → Except String Mat)) (impl : Impl K)
  (groups : List (MessageGroup K))

/-- The pairs are accepted: the conversions succeed, and the frames of a pair have the same size
and, at the start, the same camera. -/
structure Accepted : Prop where
  convertible : ∀ group ∈ groups, ∃ color, toRGB888i getCvFrame group.color = .ok color ∧
    color.width = group.depth.width ∧ color.height = group.depth.height
  aligned : ∀ group ∈ groups.head?, group.color.instanceNum = group.depth.instanceNum

/-- **The node uses the current frames**: it sends a cloud for every pair, made of that pair, and
reads nothing outside. -/
def UsesCurrent : Prop :=
  ∃ clouds, Node.run getCvFrame { impl } groups = (clouds, none) ∧
    List.Forall₂ (fun group cloud => ∃ color, toRGB888i getCvFrame group.color = .ok color ∧
      Right impl.scaleFactor color group.depth cloud) groups clouds

/-- Frames that the node reads as they are. -/
structure Readable (color depth : ImgFrame K) : Prop where
  depthType : depth.type = .RAW16
  small : color.height.toNat * color.width.toNat < 2 ^ 31
  colorPacked : color.Packed 3
  depthPacked : depth.Packed 2
  colorHolds : color.Holds 3
  depthHolds : depth.Holds 2

/-- **Nothing changes that the node keeps**: all pairs have one size and the intrinsics of one
camera, their rows are packed, and there are threads to compute with. -/
structure Steady : Prop where
  method : impl.computeMethod = .CPU ∨ 0 < impl.threadNum
  readable : ∀ group ∈ groups, ∀ color, toRGB888i getCvFrame group.color = .ok color →
    Readable color group.depth
  same : ∀ group ∈ groups, ∀ color, toRGB888i getCvFrame group.color = .ok color →
    ∀ group' ∈ groups, ∀ color', toRGB888i getCvFrame group'.color = .ok color' →
      Intrinsics.ofColor color = Intrinsics.ofColor color'

end Runs

/-! ### A steady run -/

section Steady

variable {getCvFrame : Option (ImgFrame K → Except String Mat)} {impl : Impl K}
  {color depth : ImgFrame K} {group : MessageGroup K} {groups : List (MessageGroup K)}

theorem ofUnsigned_mul {width height : UInt32} (h : height.toNat * width.toNat < 2 ^ 31) :
    ofUnsigned width * ofUnsigned height = (height.toNat * width.toNat : ℕ) ∧
      (ofUnsigned height).toNat * (ofUnsigned width).toNat = height.toNat * width.toNat := by
  rcases Nat.eq_zero_or_pos height.toNat with hh | hh
  · rw [Impl.ofUnsigned_of_lt (n := height) (by omega), hh]
    simp
  rcases Nat.eq_zero_or_pos width.toNat with hw | hw
  · rw [Impl.ofUnsigned_of_lt (n := width) (by omega), hw]
    simp
  have hheight : height.toNat ≤ height.toNat * width.toNat := Nat.le_mul_of_pos_right _ hw
  have hwidth : width.toNat ≤ height.toNat * width.toNat := Nat.le_mul_of_pos_left _ hh
  rw [Impl.ofUnsigned_of_lt (n := height) (by omega), Impl.ofUnsigned_of_lt (n := width) (by omega)]
  refine ⟨?_, rfl⟩
  push_cast
  ring

theorem valid_ofColor (h : Readable color depth) :
    (Intrinsics.ofColor color).Valid ∧ 0 ≤ (Intrinsics.ofColor color).size := by
  have hsmall := h.small
  have hsize := (ofUnsigned_mul hsmall).1
  obtain ⟨hge, hlt⟩ := ofUnsigned_bounds color.height
  rw [← Intrinsics.ofColor_size] at hsize
  refine ⟨⟨?_, ?_, ?_, ?_, ?_⟩, ?_⟩
  · simpa only [Intrinsics.ofColor_height] using hge
  · simpa only [Intrinsics.ofColor_height] using hlt
  · rw [Intrinsics.ofColor_size, Intrinsics.ofColor_width, Intrinsics.ofColor_height]
  all_goals rw [hsize]; omega

theorem pointAt_eq (scale : K) (k : Intrinsics K) (h : Readable color depth)
    (hheight : color.height = depth.height) (hwidth : color.width = depth.width) {row col : ℕ}
    (hrow : row < color.height.toNat) (hcol : col < color.width.toNat) :
    Impl.pointAt scale k depth.data color.data row col (row * color.width.toNat + col) =
      .ok (Impl.makePoint scale k row col (depth.depthPixel row col)
        (color.colorPixel row col)) := by
  have hdepth := depthAt_packed h.depthHolds h.depthPacked (hheight ▸ hrow) (hwidth ▸ hcol)
  rw [← hwidth] at hdepth
  rw [Impl.pointAt, hdepth, Loop.ok_bind, colorAt_packed h.colorHolds h.colorPacked hrow hcol]
  rfl

/-- **The cloud for a pair** whose intrinsics the node has. -/
theorem computePointCloud_right (hmethod : impl.computeMethod = .CPU ∨ 0 < impl.threadNum)
    (hk : impl.intrinsics = some (.ofColor color)) (h : Readable color depth)
    (hheight : color.height = depth.height) (hwidth : color.width = depth.width) :
    ∃ points, impl.computePointCloud depth.data color.data = .ok points ∧
      Right impl.scaleFactor color depth
        { width := color.width, height := color.height, points } := by
  obtain ⟨hvalid, hsize⟩ := valid_ofColor h
  have hcpu : impl.computePointCloud depth.data color.data =
      Impl.computePointCloudCPU impl.scaleFactor (.ofColor color) depth.data color.data := by
    rw [Impl.computePointCloud_of_room hk hsize]
    cases hcompute : impl.computeMethod with
    | CPU => rfl
    | CPU_MT =>
      have hpos : 0 < impl.threadNum := hmethod.resolve_left (by rw [hcompute]; decide)
      obtain ⟨n, hn⟩ := Int.eq_ofNat_of_zero_le hpos.le
      rw [hn]
      exact Impl.computePointCloudCPUMT_eq hvalid hsize (by omega)
  have hcells : (Intrinsics.ofColor color).height.toNat * (Intrinsics.ofColor color).width.toNat =
      color.height.toNat * color.width.toNat := by
    rw [Intrinsics.ofColor_height, Intrinsics.ofColor_width]
    exact (ofUnsigned_mul h.small).2
  have hpoint : ∀ i ∈ List.range (color.height.toNat * color.width.toNat),
      Impl.pointAt impl.scaleFactor (.ofColor color) depth.data color.data
        (i / (Intrinsics.ofColor color).width.toNat)
        (i % (Intrinsics.ofColor color).width.toNat) i =
      .ok (pixelPoint impl.scaleFactor color depth (i / color.width.toNat)
        (i % color.width.toNat)) := by
    intro i hi
    have hlt := List.mem_range.1 hi
    have hwidth' : 0 < color.width.toNat := by
      refine Nat.pos_of_ne_zero fun hzero => ?_
      rw [hzero] at hlt
      exact absurd hlt (by simp)
    have hrow : i / color.width.toNat < color.height.toNat :=
      Nat.div_lt_of_lt_mul (by rwa [Nat.mul_comm] at hlt)
    have hle : color.width.toNat ≤ color.height.toNat * color.width.toNat :=
      Nat.le_mul_of_pos_left _ (Nat.zero_lt_of_lt hrow)
    have hsmall := h.small
    have hint : (Intrinsics.ofColor color).width.toNat = color.width.toNat := by
      rw [Intrinsics.ofColor_width, Impl.ofUnsigned_of_lt (by omega), Int.toNat_natCast]
    have heq := pointAt_eq impl.scaleFactor (.ofColor color) h hheight hwidth hrow
      (Nat.mod_lt i hwidth')
    rw [Nat.mul_comm (i / color.width.toNat), Nat.div_add_mod] at heq
    rw [hint]
    exact heq
  refine ⟨(List.range (color.height.toNat * color.width.toNat)).map fun i =>
    pixelPoint impl.scaleFactor color depth (i / color.width.toNat) (i % color.width.toNat),
    ?_, ?_, ?_⟩
  · rw [hcpu, Impl.computePointCloudCPU_eq hvalid hsize, hcells]
    exact Loop.mapM_eq_ok hpoint
  · simp
  · intro row hrow col hcol
    have hlt : row * color.width.toNat + col < color.height.toNat * color.width.toNat := by
      have hle := Nat.mul_le_mul_right color.width.toNat (Nat.succ_le_of_lt hrow)
      rw [Nat.succ_mul] at hle
      omega
    obtain ⟨hdiv, hmod⟩ := ParallelRows.div_mod_cell row hcol
    dsimp only
    rw [List.getElem?_map, List.getElem?_range hlt, Option.map_some, hdiv, hmod]

/-! ### The rounds of the node -/

theorem toRGB888i_of_type (h : color.type = .RGB888i) : toRGB888i getCvFrame color = .ok color :=
  if_pos h

theorem toRGB888i_eq_ok {frame : ImgFrame K} (h : toRGB888i getCvFrame frame = .ok color) :
    color.type = .RGB888i ∧ color.instanceNum = frame.instanceNum := by
  unfold toRGB888i at h
  split_ifs at h with htype
  · cases h
    exact ⟨htype, rfl⟩
  · cases hconvert : getCvFrame with
    | none =>
      rw [hconvert] at h
      cases h
    | some convert =>
      simp only [hconvert] at h
      cases hmat : convert frame with
      | error what =>
        rw [hmat] at h
        cases h
      | ok mat =>
        rw [hmat] at h
        cases h
        exact ⟨rfl, rfl⟩

variable {self : Node K}

theorem initializeNode_eq (self : Node K) (hcolor : toRGB888i getCvFrame group.color = .ok color)
    (haligned : group.color.instanceNum = group.depth.instanceNum)
    (hwidth : color.width = group.depth.width) (hheight : color.height = group.depth.height)
    (hread : Readable color group.depth) :
    self.initializeNode getCvFrame group =
      .ok ({ impl := { self.impl with intrinsics := some (.ofColor color) }, initialized := true },
        { group with color }) := by
  have hinstance := (toRGB888i_eq_ok hcolor).2.trans haligned
  have hsize : ¬(color.width ≠ group.depth.width ∨ color.height ≠ group.depth.height) := by
    rw [hwidth, hheight]
    simp
  rw [Node.initializeNode, hcolor, Loop.ok_bind, if_neg hsize]
  dsimp only
  rw [if_neg (not_not_intro hinstance)]
  rw [Impl.setIntrinsics_eq_ok self.impl (valid_ofColor hread).1]
  rfl

/-- The round of a node that is initialised for this pair. -/
theorem step_of_initialized (hinitialized : self.initialized = true)
    (hmethod : self.impl.computeMethod = .CPU ∨ 0 < self.impl.threadNum)
    (hk : self.impl.intrinsics = some (.ofColor color))
    (hcolor : toRGB888i getCvFrame group.color = .ok color)
    (hwidth : color.width = group.depth.width) (hheight : color.height = group.depth.height)
    (hread : Readable color group.depth) :
    ∃ cloud, self.step getCvFrame group = .ok (self, cloud) ∧
      Right self.impl.scaleFactor color group.depth cloud := by
  obtain ⟨points, hpoints, hright⟩ := computePointCloud_right hmethod hk hread hheight hwidth
  refine ⟨_, ?_, hright⟩
  rw [Node.step, if_pos hinitialized, pure_bind]
  dsimp only
  rw [hcolor, Loop.ok_bind, hpoints]
  rfl

/-- The round of a node that is not initialised is one of the initialised node. -/
theorem step_of_initializeNode {self' : Node K} {group' : MessageGroup K}
    (hself : self.initialized = false) (hself' : self'.initialized = true)
    (h : self.initializeNode getCvFrame group = .ok (self', group')) :
    self.step getCvFrame group = self'.step getCvFrame group' := by
  rw [Node.step, Node.step, if_neg (by simp [hself]), h, if_pos hself', Loop.ok_bind, pure_bind]

/-- The run of a node that is initialised for these pairs. -/
theorem run_of_initialized (getCvFrame : Option (ImgFrame K → Except String Mat)) (self : Node K)
    (groups : List (MessageGroup K))
    (hinitialized : self.initialized = true)
    (hmethod : self.impl.computeMethod = .CPU ∨ 0 < self.impl.threadNum)
    (hgroups : ∀ group ∈ groups, ∃ color, toRGB888i getCvFrame group.color = .ok color ∧
      color.width = group.depth.width ∧ color.height = group.depth.height ∧
        Readable color group.depth ∧ self.impl.intrinsics = some (.ofColor color)) :
    ∃ clouds, self.run getCvFrame groups = (clouds, none) ∧
      List.Forall₂ (fun group cloud => ∃ color, toRGB888i getCvFrame group.color = .ok color ∧
        Right self.impl.scaleFactor color group.depth cloud) groups clouds := by
  induction groups with
  | nil => exact ⟨[], rfl, .nil⟩
  | cons group groups ih =>
    obtain ⟨hgroup, hrest⟩ := List.forall_mem_cons.1 hgroups
    obtain ⟨color, hcolor, hwidth, hheight, hread, hk⟩ := hgroup
    obtain ⟨cloud, hstep, hright⟩ :=
      step_of_initialized hinitialized hmethod hk hcolor hwidth hheight hread
    obtain ⟨clouds, hrun, hall⟩ := ih hrest
    refine ⟨cloud :: clouds, ?_, .cons ⟨color, hcolor, hright⟩ hall⟩
    rw [Node.run, hstep]
    dsimp only
    rw [hrun]

/-- **A steady run uses the current frames**: every cloud is made of the pixels and the intrinsics
of its own pair. -/
theorem run_usesCurrent (haccepted : Accepted getCvFrame groups)
    (hsteady : Steady getCvFrame impl groups) : UsesCurrent getCvFrame impl groups := by
  cases groups with
  | nil => exact ⟨[], rfl, .nil⟩
  | cons first groups =>
    have hmem : first ∈ first :: groups := List.mem_cons_self
    obtain ⟨color, hcolor, hwidth, hheight⟩ := haccepted.convertible first hmem
    have hread := hsteady.readable first hmem color hcolor
    have hinit := initializeNode_eq { impl } hcolor (haccepted.aligned first rfl) hwidth
      hheight hread
    have hstart := step_of_initializeNode rfl rfl hinit
    -- the converted first pair and the others, for the node that is initialised
    obtain ⟨clouds, hrun, hall⟩ := run_of_initialized getCvFrame
      { impl := { impl with intrinsics := some (.ofColor color) }, initialized := true }
      ({ first with color } :: groups) rfl hsteady.method (by
        intro group hgroup
        rcases List.mem_cons.1 hgroup with rfl | hgroup
        · exact ⟨color, toRGB888i_of_type (toRGB888i_eq_ok hcolor).1, hwidth, hheight, hread, rfl⟩
        · have hmem' := List.mem_cons_of_mem first hgroup
          obtain ⟨color', hcolor', hwidth', hheight'⟩ := haccepted.convertible group hmem'
          exact ⟨color', hcolor', hwidth', hheight', hsteady.readable group hmem' color' hcolor',
            congrArg some (hsteady.same first hmem color hcolor group hmem' color' hcolor')⟩)
    cases hall with
    | @cons _ cloud _ clouds hfirst hrest =>
      obtain ⟨color', hcolor', hright⟩ := hfirst
      refine ⟨cloud :: clouds, ?_, .cons ⟨color, hcolor, ?_⟩ hrest⟩
      · rw [Node.run, hstart]
        exact hrun
      · rw [toRGB888i_of_type (toRGB888i_eq_ok hcolor).1] at hcolor'
        cases hcolor'
        exact hright

end Steady

/-! ### Rows of pixels -/

/-- A pair of frames with one row of pixels. -/
def rowOf (width : UInt32) (depth color : List UInt8) : MessageGroup ℚ where
  color :=
    { type := .RGB888i, width, height := 1, stride := width * 3, instanceNum := 0,
      transformation := {}, data := color }
  depth :=
    { type := .RAW16, width, height := 1, stride := width * 2, instanceNum := 0,
      transformation := {}, data := depth }

/-- Two pairs of one pixel each. -/
theorem run_usesCurrent_pixels : UsesCurrent none { scaleFactor := (1 : ℚ) }
    [rowOf 1 [5, 0] [1, 2, 3], rowOf 1 [9, 0] [4, 5, 6]] := by
  refine run_usesCurrent ⟨?_, ?_⟩ ⟨.inl rfl, ?_, ?_⟩
  · intro group hgroup
    simp only [List.mem_cons, List.not_mem_nil, or_false] at hgroup
    rcases hgroup with rfl | rfl <;> exact ⟨_, rfl, rfl, rfl⟩
  · intro group hgroup
    cases hgroup
    rfl
  · intro group hgroup color hcolor
    simp only [List.mem_cons, List.not_mem_nil, or_false] at hgroup
    rcases hgroup with rfl | rfl <;> cases hcolor <;>
      exact ⟨rfl, by decide, rfl, rfl, by unfold ImgFrame.Holds; decide,
        by unfold ImgFrame.Holds; decide⟩
  · intro group hgroup color hcolor group' hgroup' color' hcolor'
    simp only [List.mem_cons, List.not_mem_nil, or_false] at hgroup hgroup'
    rcases hgroup with rfl | rfl <;> rcases hgroup' with rfl | rfl <;> cases hcolor <;>
      cases hcolor' <;> rfl

/-- A row of one pixel, then one of two. -/
def growing : List (MessageGroup ℚ) :=
  [rowOf 1 [5, 0] [1, 2, 3], rowOf 2 [5, 0, 7, 0] [1, 2, 3, 4, 5, 6]]

theorem lengths_growing : ((Node.run none { impl := { scaleFactor := (1 : ℚ) } } growing).1.map
    fun cloud => cloud.points.length) = [1, 1] := by
  decide +kernel

/-- **The cloud of the second pair lacks a point.** -/
theorem not_usesCurrent : ¬∀ (getCvFrame : Option (ImgFrame ℚ → Except String Mat))
    (impl : Impl ℚ) (groups : List (MessageGroup ℚ)),
    Accepted getCvFrame groups → UsesCurrent getCvFrame impl groups := by
  intro h
  have haccepted : Accepted none growing := by
    refine ⟨fun group hgroup => ?_, fun group hgroup => ?_⟩
    · simp only [growing, List.mem_cons, List.not_mem_nil, or_false] at hgroup
      rcases hgroup with rfl | rfl <;> exact ⟨_, rfl, rfl, rfl⟩
    · cases hgroup
      rfl
  obtain ⟨clouds, hrun, hall⟩ := h none { scaleFactor := 1 } growing haccepted
  have hlengths := lengths_growing
  rw [hrun] at hlengths
  cases hall with
  | cons _ hrest =>
    cases hrest with
    | cons hsecond hrest =>
      cases hrest
      obtain ⟨color, hcolor, hright⟩ := hsecond
      cases hcolor
      simp only [List.map_cons, List.cons.injEq] at hlengths
      exact absurd (hright.length.symm.trans hlengths.2.1) (by decide)

end RGBD

end DepthaiCore
