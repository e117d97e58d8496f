import DepthaiCore.Node.PointCloudRun

/-!
# Sparse point clouds

Unless a cloud is organized, the node sends only the points of the pixels that have a depth. It
leaves the others out before it transforms the points, since afterwards `z` may have any sign. In an
organized cloud, it transforms the same points and leaves the others as they are.
-/

namespace DepthaiCore

namespace PointCloud

open DepthPoints

/-! ### Pixels with a depth -/

/-- The depth value of pixel `i`. -/
def depthValue (depthData : List UInt8) (i : ℕ) : ℕ :=
  LittleEndian.decode ((depthData.drop (2 * i)).take 2)

/-- The points of the pixels that have a depth, in their order. -/
def nonZero {P : Type} (depthData : List UInt8) (points : List P) : List P :=
  (points.zipIdx.filter fun p => depthValue depthData p.2 ≠ 0).map Prod.fst

/-- `nonZero`, for points of either kind. -/
def Points.nonZero {K : Type} (depthData : List UInt8) : Points K → Points K
  | .plain points => .plain (PointCloud.nonZero depthData points)
  | .colored points => .colored (PointCloud.nonZero depthData points)

/-- The number of points. -/
def Points.length {K : Type} : Points K → ℕ
  | .plain points => points.length
  | .colored points => points.length

/-- **The sparse cloud** has the points of the organized one whose pixels have a depth. Their number
is its width, and its height is one. -/
structure SparseOf {K : Type} [Field K] (depthFrame : ImgFrame K)
    (organized sparse : PointCloudData K) : Prop where
  points : sparse.points = organized.points.nonZero depthFrame.data
  width : sparse.width.toNat = sparse.points.length
  height : sparse.height = 1
  transformation : sparse.transformation = organized.transformation

/-- The outcomes of a round that is organized and of one that is not. -/
inductive SparseOutcome {K : Type} [Field K] (depthFrame : ImgFrame K) :
    Except PointFault (Option (PointCloudData K)) →
      Except PointFault (Option (PointCloudData K)) → Prop
  | sent {organized sparse : PointCloudData K} (h : SparseOf depthFrame organized sparse) :
    SparseOutcome depthFrame (.ok (some organized)) (.ok (some sparse))
  | skipped : SparseOutcome depthFrame (.ok none) (.ok none)
  | failed (e : PointFault) : SparseOutcome depthFrame (.error e) (.error e)

/-- The node with the setting `organized`. -/
def Node.setOrganized {K : Type} [Field K] (self : Node K) (organized : Bool) : Node K :=
  { self with latestConfig := { self.latestConfig with organized } }

/-! ### Leaving points out -/

section Lists

variable {P Q : Type} {depthData : List UInt8} {points : List P}

theorem length_nonZero_le : (nonZero depthData points).length ≤ points.length := by
  rw [nonZero, List.length_map]
  exact (List.length_filter_le _ _).trans_eq List.length_zipIdx

/-- What is made of each point does not change which of them have a depth. -/
theorem nonZero_map (f : P → Q) : nonZero depthData (points.map f) =
    (nonZero depthData points).map f := by
  rw [nonZero, nonZero, List.zipIdx_map, List.filter_map, List.map_map, List.map_map]
  rfl

/-- The points with a depth can be told from the points themselves. -/
theorem nonZero_eq_filter {q : P → Bool}
    (hq : ∀ p i, points[i]? = some p → (q p ↔ depthValue depthData i ≠ 0)) :
    nonZero depthData points = points.filter q := by
  have hsame : ∀ p ∈ points.zipIdx, decide (depthValue depthData p.2 ≠ 0) = q p.1 := by
    rintro ⟨p, i⟩ hp
    have hp := hq p i (List.mem_zipIdx_iff_getElem?.1 hp)
    rw [Bool.eq_iff_iff, decide_eq_true_iff, hp]
  rw [nonZero, List.filter_congr hsame]
  conv_rhs => rw [← List.zipIdx_map_fst 0 points, List.filter_map]
  rfl

end Lists

/-! ### Points of both kinds -/

section Points

variable {K P : Type} [Field K] [LinearOrder K] {impl : Impl K} {fx fy cx cy : K}
  {width height : UInt32} {points result : List P} {depthData colorData : List UInt8} {i : ℕ}
  {cell : UInt32 × UInt32}

/-- The points of the rows stand in the list that was there before. -/
theorem length_of_computeRows {chunk : UInt32 → UInt32 → Except PointFault (List (ℕ × P))}
    (h : Impl.computeRows chunk height points = .ok result) : result.length = points.length := by
  obtain ⟨writes, -, hstore⟩ := Loop.bind_eq_ok.1 h
  exact ParallelRows.length_of_store hstore

theorem getElem?_of_computeRows {point : UInt32 × UInt32 → ℕ → Except PointFault P}
    (hlength : points.length = (width * height).toNat)
    (h : Impl.computeRows (Impl.calcPoints point width) height points = .ok result) {p : P}
    (hp : result[i]? = some p) : point (Impl.cellAt width i) i = .ok p := by
  obtain ⟨hi, rfl⟩ := List.getElem?_eq_some_iff.1 hp
  have hpoints := Impl.mapM_of_computeRows hlength h
  obtain ⟨hlengths, hget⟩ := List.forall₂_iff_get.1 (Loop.mapM_eq_ok_iff.1 hpoints)
  have hpoint := hget i (hlengths ▸ hi) hi
  simpa using hpoint

/-- Points with colours do not depend on the threads either. -/
theorem computePointCloudDenseColored_eq
    (hk : impl.intrinsics = some (.ofFrame fx fy cx cy width height))
    (schedule : Schedule (ℕ × Point3fRGBA K)) (depthData colorData : List UInt8) :
    impl.computePointCloudDenseColored schedule depthData colorData =
      Impl.computeRows (Impl.calcPoints (Impl.denseColoredPoint impl.scaleFactor
        (.ofFrame fx fy cx cy width height) depthData colorData) width) height
          (List.replicate (width * height).toNat
            { x := 0, y := 0, z := 0, r := 0, g := 0, b := 0 }) := by
  simp only [Impl.computePointCloudDenseColored, hk]
  cases impl.computeMethod with
  | CPU => rfl
  | CPU_MT =>
    by_cases hthreads : impl.threadNum = 0
    · simp only [Impl.computePointCloudDenseColoredCPUMT, Impl.computeRowsMT, if_pos hthreads]
      rfl
    · exact Impl.computeRowsMT_eq schedule
        (Nat.pos_of_ne_zero fun h => hthreads (UInt32.toNat_inj.1 h)) List.length_replicate

theorem densePoint_z {scale : K} {k : Intrinsics K} {p : Point3f K}
    (h : Impl.densePoint scale k depthData cell i = .ok p) :
    p.z = depthValue depthData i * scale := by
  obtain ⟨value, hvalue, h⟩ := Loop.bind_eq_ok.1 h
  have hdepth : value = depthValue depthData i := by
    rw [depthAt] at hvalue
    split_ifs at hvalue
    exact (Except.ok.inj hvalue).symm
  subst hdepth
  dsimp only at h
  split_ifs at h <;> cases h <;> rfl

theorem denseColoredPoint_z {scale : K} {k : Intrinsics K} {p : Point3fRGBA K}
    (h : Impl.denseColoredPoint scale k depthData colorData cell i = .ok p) :
    p.z = depthValue depthData i * scale := by
  obtain ⟨q, hq, h⟩ := Loop.bind_eq_ok.1 h
  obtain ⟨color, -, h⟩ := Loop.bind_eq_ok.1 h
  cases h
  exact densePoint_z hq

/-- **A point is left out exactly if its pixel has no depth.** -/
theorem filterValidPoints_eq [IsStrictOrderedRing K] {z : P → K} {scale : K} (hscale : 0 < scale)
    (hz : ∀ p i, points[i]? = some p → z p = depthValue depthData i * scale) :
    Impl.filterValidPoints z points = nonZero depthData points := by
  refine (nonZero_eq_filter fun p i hp => ?_).symm
  rw [hz p i hp, decide_eq_true_iff, mul_pos_iff_of_pos_right hscale, Nat.cast_pos,
    Nat.pos_iff_ne_zero]

theorem arrange_sparse [IsStrictOrderedRing K] {z : P → K} {depthFrame : ImgFrame K}
    (hscale : 0 < impl.scaleFactor) (transform : List (List K) → P → P)
    (hz : ∀ p i, points[i]? = some p →
      z p = depthValue depthFrame.data i * impl.scaleFactor) :
    impl.arrange z transform false depthFrame points =
      let sparse := nonZero depthFrame.data
        (impl.arrange z transform true depthFrame points).2.2
      (UInt32.ofNat sparse.length, 1, sparse) := by
  have hsparse : impl.applyTransformation transform (nonZero depthFrame.data points) =
      nonZero depthFrame.data (impl.applyTransformation transform points) := by
    rw [Impl.applyTransformation, Impl.applyTransformation]
    cases impl.extrinsics with
    | none => rfl
    | some extrinsics => exact (nonZero_map _).symm
  simp only [Impl.arrange, filterValidPoints_eq hscale hz, hsparse]
  rfl

end Points

/-! ### The node -/

section Process

variable {K : Type} [Field K] [LinearOrder K] [IsStrictOrderedRing K] {impl : Impl K}
  {fx fy cx cy : K} {width height : UInt32}

omit [Field K] [LinearOrder K] [IsStrictOrderedRing K] in
theorem length_nonZero_points_le (depthData : List UInt8) (points : Points K) :
    (points.nonZero depthData).length ≤ points.length := by
  cases points with
  | plain points => exact length_nonZero_le
  | colored points => exact length_nonZero_le

omit [IsStrictOrderedRing K] [LinearOrder K] [Field K] in
theorem length_applyTransformation {P : Type} (transform : List (List K) → P → P)
    (points : List P) : (impl.applyTransformation transform points).length = points.length := by
  rw [Impl.applyTransformation]
  cases impl.extrinsics with
  | none => rfl
  | some extrinsics => exact List.length_map _

/-- What is made of a cloud that is organized. -/
def sparse (depthData : List UInt8) (organized : UInt32 × UInt32 × Points K) :
    UInt32 × UInt32 × Points K :=
  let points := organized.2.2.nonZero depthData
  (UInt32.ofNat points.length, 1, points)

theorem processDepthOnly_sparse (hscale : 0 < impl.scaleFactor)
    (hk : impl.intrinsics = some (.ofFrame fx fy cx cy width height))
    (schedules schedules' : Schedules K) (depthFrame : ImgFrame K) :
    impl.processDepthOnly schedules' false depthFrame =
      (impl.processDepthOnly schedules true depthFrame).map (sparse depthFrame.data) := by
  rw [Impl.processDepthOnly, Impl.processDepthOnly, computePointCloudDense_eq hk,
    computePointCloudDense_eq hk]
  cases hpoints : Impl.computeRows _ _ _ with
  | error e => rfl
  | ok points =>
    have hz (p : Point3f K) (i : ℕ) (hp : points[i]? = some p) :=
      densePoint_z (getElem?_of_computeRows List.length_replicate hpoints hp)
    simp only [Loop.ok_bind, arrange_sparse hscale transformPoint hz]
    rfl

theorem processColorized_sparse (hscale : 0 < impl.scaleFactor)
    (hk : impl.intrinsics = some (.ofFrame fx fy cx cy width height))
    (schedules schedules' : Schedules K) (depthFrame colorFrame : ImgFrame K) :
    impl.processColorized schedules' false depthFrame colorFrame =
      (impl.processColorized schedules true depthFrame colorFrame).map
        (sparse depthFrame.data) := by
  rw [Impl.processColorized, Impl.processColorized]
  split_ifs with hsize htype
  · exact processDepthOnly_sparse hscale hk schedules schedules' depthFrame
  · exact processDepthOnly_sparse hscale hk schedules schedules' depthFrame
  · rw [computePointCloudDenseColored_eq hk, computePointCloudDenseColored_eq hk]
    cases hpoints : Impl.computeRows _ _ _ with
    | error e => rfl
    | ok points =>
      have hz (p : Point3fRGBA K) (i : ℕ) (hp : points[i]? = some p) :=
        denseColoredPoint_z (getElem?_of_computeRows List.length_replicate hpoints hp)
      simp only [Loop.ok_bind, arrange_sparse hscale transformColored hz]
      rfl

omit [IsStrictOrderedRing K] in
theorem length_of_processDepthOnly
    (hk : impl.intrinsics = some (.ofFrame fx fy cx cy width height)) {schedules : Schedules K}
    {depthFrame : ImgFrame K} {cloud : UInt32 × UInt32 × Points K}
    (h : impl.processDepthOnly schedules true depthFrame = .ok cloud) :
    cloud.2.2.length < 2 ^ 32 := by
  rw [Impl.processDepthOnly, computePointCloudDense_eq hk] at h
  obtain ⟨points, hpoints, h⟩ := Loop.bind_eq_ok.1 h
  cases h
  have hlength := length_of_computeRows hpoints
  rw [List.length_replicate] at hlength
  change (impl.applyTransformation transformPoint points).length < 2 ^ 32
  rw [length_applyTransformation, hlength]
  exact (width * height).toNat_lt

omit [IsStrictOrderedRing K] in
theorem length_of_processColorized
    (hk : impl.intrinsics = some (.ofFrame fx fy cx cy width height)) {schedules : Schedules K}
    {depthFrame colorFrame : ImgFrame K} {cloud : UInt32 × UInt32 × Points K}
    (h : impl.processColorized schedules true depthFrame colorFrame = .ok cloud) :
    cloud.2.2.length < 2 ^ 32 := by
  rw [Impl.processColorized] at h
  split_ifs at h with hsize htype
  · exact length_of_processDepthOnly hk h
  · exact length_of_processDepthOnly hk h
  · rw [computePointCloudDenseColored_eq hk] at h
    obtain ⟨points, hpoints, h⟩ := Loop.bind_eq_ok.1 h
    cases h
    have hlength := length_of_computeRows hpoints
    rw [List.length_replicate] at hlength
    change (impl.applyTransformation transformColored points).length < 2 ^ 32
    rw [length_applyTransformation, hlength]
    exact (width * height).toNat_lt

/-- The points of a group of frames. -/
def frames (impl : Impl K) (schedules : Schedules K) (organized : Bool) (group : MessageGroup K) :
    Except PointFault (UInt32 × UInt32 × Points K) :=
  match group.color with
  | some colorFrame => impl.processColorized schedules organized group.depth colorFrame
  | none => impl.processDepthOnly schedules organized group.depth

theorem frames_sparse (hscale : 0 < impl.scaleFactor)
    (hk : ∀ k ∈ impl.intrinsics, k.size = (k.width * k.height).toNat)
    (schedules schedules' : Schedules K) (group : MessageGroup K) :
    frames impl schedules' false group =
        (frames impl schedules true group).map (sparse group.depth.data) ∧
      ∀ cloud, frames impl schedules true group = .ok cloud → cloud.2.2.length < 2 ^ 32 := by
  cases hintrinsics : impl.intrinsics with
  | none =>
    have hdense (schedule : Schedule (ℕ × Point3f K)) (depthData : List UInt8) :
        impl.computePointCloudDense schedule depthData = .error (.thrown "Intrinsics not set") := by
      rw [Impl.computePointCloudDense, hintrinsics]
    have hcolored (schedule : Schedule (ℕ × Point3fRGBA K)) (depthData colorData : List UInt8) :
        impl.computePointCloudDenseColored schedule depthData colorData =
          .error (.thrown "Intrinsics not set") := by
      rw [Impl.computePointCloudDenseColored, hintrinsics]
    have herror (schedules : Schedules K) (organized : Bool) :
        frames impl schedules organized group = .error (.thrown "Intrinsics not set") := by
      rw [frames]
      cases group.color with
      | none => rw [Impl.processDepthOnly, hdense]; rfl
      | some colorFrame =>
        dsimp only
        rw [Impl.processColorized, Impl.processDepthOnly, hdense, hcolored]
        split_ifs <;> rfl
    rw [herror, herror]
    exact ⟨rfl, fun cloud h => by cases h⟩
  | some k =>
    have hframe : impl.intrinsics = some (.ofFrame k.fx k.fy k.cx k.cy k.width k.height) := by
      rw [hintrinsics, Intrinsics.ofFrame, ← hk k hintrinsics]
    rw [frames, frames]
    cases group.color with
    | none =>
      exact ⟨processDepthOnly_sparse hscale hframe schedules schedules' group.depth,
        fun cloud h => length_of_processDepthOnly hframe h⟩
    | some colorFrame =>
      exact ⟨processColorized_sparse hscale hframe schedules schedules' group.depth colorFrame,
        fun cloud h => length_of_processColorized hframe h⟩

omit [IsStrictOrderedRing K] in
/-- A round makes a message of the points, unless it skips the frame. -/
theorem process_setOrganized (self : Node K) (organized : Bool) (schedules : Schedules K)
    (group : MessageGroup K) :
    (self.setOrganized organized).process schedules group =
      if ¬IsPackedDepth group.depth then .ok none
      else (frames self.impl schedules organized group).map fun cloud => some
        { width := cloud.1
          height := cloud.2.1
          points := cloud.2.2
          transformation :=
            match self.targetExtrinsics with
            | some extrinsics => { group.depth.transformation with extrinsics }
            | none => group.depth.transformation } := by
  have hbind (x : Except PointFault (UInt32 × UInt32 × Points K)) (f : _ → PointCloudData K) :
      (x >>= fun cloud => .ok (some (f cloud))) = x.map fun cloud => some (f cloud) := by
    cases x <;> rfl
  rw [← hbind, Node.process]
  split_ifs with hpacked
  · rw [frames]
    cases group.color <;> rfl
  · rfl

/-- **The sparse cloud is the organized one without the pixels that have no depth**, whatever the
transformation is. -/
theorem Node.process_sparse (self : Node K) (hscale : 0 < self.impl.scaleFactor)
    (hk : ∀ k ∈ self.impl.intrinsics, k.size = (k.width * k.height).toNat)
    (schedules schedules' : Schedules K) (group : MessageGroup K) :
    SparseOutcome group.depth ((self.setOrganized true).process schedules group)
      ((self.setOrganized false).process schedules' group) := by
  obtain ⟨hsparse, hlength⟩ := frames_sparse hscale hk schedules schedules' group
  rw [process_setOrganized, process_setOrganized]
  split_ifs with hpacked
  · rw [hsparse]
    cases hcloud : frames self.impl schedules true group with
    | error e => exact .failed e
    | ok cloud =>
      have hcount := (length_nonZero_points_le group.depth.data cloud.2.2).trans_lt
        (hlength cloud hcloud)
      exact .sent ⟨rfl, UInt32.toNat_ofNat_of_lt' hcount, rfl, rfl⟩
  · exact .skipped

end Process

/-- A frame of two pixels, of which the first has a depth. -/
def twoPixels : ImgFrame ℚ :=
  { pixelFrame 0 with width := 2, data := [5, 0, 0, 0] }

/-- A node that moves the points behind the origin. -/
def behindOrigin : Node ℚ where
  impl :=
    { scaleFactor := 1
      intrinsics := some (.ofFrame 1 1 0 0 2 1)
      extrinsics := some [[1, 0, 0, 0], [0, 1, 0, 0], [0, 0, -1, 0], [0, 0, 0, 1]] }
  latestConfig := {}
  currentEepromId := 0

/-- The points are left out before they are moved. -/
example : sentPoints ((behindOrigin.setOrganized false).process sequential { depth := twoPixels }) =
    some (.plain [⟨0, 0, -5⟩]) := by
  decide +kernel

theorem process_sparse_behindOrigin : SparseOutcome twoPixels
    ((behindOrigin.setOrganized true).process sequential { depth := twoPixels })
    ((behindOrigin.setOrganized false).process sequential { depth := twoPixels }) :=
  Node.process_sparse behindOrigin zero_lt_one (by rintro k ⟨⟩; rfl) sequential sequential
    { depth := twoPixels }

end PointCloud

end DepthaiCore
