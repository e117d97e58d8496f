import DepthaiCore.Node.PointCloud
import DepthaiCore.Node.RGBD

/-!
# Threads of the point cloud nodes

The rows of a frame are shared out among threads in unsigned arithmetic that does not wrap around,
so that every row has its thread, and only one. The place of a pixel does wrap around in a frame of
more than `2 ^ 32` pixels, and threads then meet at a place.
-/

namespace DepthaiCore

namespace PointCloud

open DepthPoints MatrixOps

/-- The intrinsics of a frame. -/
def Intrinsics.ofFrame {F : Type} (fx fy cx cy : F) (width height : UInt32) : Intrinsics F :=
  { fx, fy, cx, cy, width, height, size := (width * height).toNat }

namespace Impl

/-! ### Rows -/

section Rows

variable {width height threadNum : UInt32} {t i : ℕ}

/-- The rows for thread `t`. -/
def task (height threadNum : UInt32) (t : ℕ) : UInt32 × UInt32 :=
  let rowsPerThread := height / threadNum
  (UInt32.ofNat t * rowsPerThread,
    if UInt32.ofNat t = threadNum - 1 then height
    else UInt32.ofNat t * rowsPerThread + rowsPerThread)

theorem tasks_eq :
    tasks height threadNum = (List.range threadNum.toNat).map (task height threadNum) :=
  rfl

theorem toNat_ofNat {n : ℕ} (m : UInt32) (h : n < m.toNat) : (UInt32.ofNat n).toNat = n :=
  UInt32.toNat_ofNat_of_lt' (h.trans m.toNat_lt)

/-- **The rows of a thread**, in numbers that do not wrap around. -/
theorem task_toNat (height : UInt32) (ht : t < threadNum.toNat) :
    (task height threadNum t).1.toNat = ParallelRows.startRow height.toNat threadNum.toNat t ∧
      (task height threadNum t).2.toNat = ParallelRows.endRow height.toNat threadNum.toNat t := by
  have hle := ParallelRows.endRow_le height.toNat ht
  have hordered := ParallelRows.startRow_le_endRow height.toNat ht
  have hheight := height.toNat_lt
  have ht' := toNat_ofNat threadNum ht
  have hone : (1 : UInt32) ≤ threadNum := UInt32.le_iff_toNat_le.2 (by
    rw [UInt32.toNat_one]; omega)
  have hlast : UInt32.ofNat t = threadNum - 1 ↔ t + 1 = threadNum.toNat := by
    rw [← UInt32.toNat_inj, ht', UInt32.toNat_sub_of_le _ _ hone, UInt32.toNat_one]
    omega
  have hstart : (UInt32.ofNat t * (height / threadNum)).toNat =
      ParallelRows.startRow height.toNat threadNum.toNat t := by
    rw [UInt32.toNat_mul, ht', UInt32.toNat_div, Nat.mod_eq_of_lt]
    · rfl
    · exact (hordered.trans hle).trans_lt hheight
  refine ⟨hstart, ?_⟩
  rw [task]
  dsimp only
  by_cases h : t + 1 = threadNum.toNat
  · rw [if_pos (hlast.2 h), ParallelRows.endRow, if_pos h]
  · have hend : ParallelRows.startRow height.toNat threadNum.toNat t +
        height.toNat / threadNum.toNat = ParallelRows.endRow height.toNat threadNum.toNat t := by
      rw [ParallelRows.endRow, if_neg h, ParallelRows.startRow]
    rw [if_neg (mt hlast.1 h), UInt32.toNat_add, hstart, UInt32.toNat_div, hend,
      Nat.mod_eq_of_lt (hle.trans_lt hheight)]

theorem rowsBetween_task (ht : t < threadNum.toNat) :
    rowsBetween (task height threadNum t).1 (task height threadNum t).2 =
      (ParallelRows.rows height.toNat threadNum.toNat t).map UInt32.ofNat := by
  obtain ⟨hstart, hend⟩ := task_toNat height ht
  rw [rowsBetween, hstart, hend, ParallelRows.rows]

/-- **The threads have every row once**, in order. -/
theorem flatMap_rowsBetween (height : UInt32) (hthreads : 0 < threadNum.toNat) :
    (tasks height threadNum).flatMap (fun rows => rowsBetween rows.1 rows.2) =
      rowsBetween 0 height := by
  have hrows : ∀ t ∈ List.range threadNum.toNat,
      rowsBetween (task height threadNum t).1 (task height threadNum t).2 =
        (ParallelRows.rows height.toNat threadNum.toNat t).map UInt32.ofNat :=
    fun t ht => rowsBetween_task (List.mem_range.1 ht)
  rw [tasks_eq, List.flatMap_map, List.flatMap_congr hrows, ← List.map_flatMap,
    ParallelRows.flatMap_rows height.toNat hthreads, rowsBetween, UInt32.toNat_zero, Nat.sub_zero,
    List.range_eq_range']

theorem flatMap_cells (hthreads : 0 < threadNum.toNat) :
    (tasks height threadNum).flatMap (fun rows => cells width rows.1 rows.2) =
      cells width 0 height := by
  simp only [cells]
  rw [← flatMap_rowsBetween height hthreads, List.flatMap_assoc]

/-! ### Places -/

/-- The cell of pixel `i`. -/
def cellAt (width : UInt32) (i : ℕ) : UInt32 × UInt32 :=
  (UInt32.ofNat (i / width.toNat), UInt32.ofNat (i % width.toNat))

theorem cells_eq : cells width 0 height =
    (List.range (height.toNat * width.toNat)).map (cellAt width) := by
  have hrow : ∀ row ∈ List.range height.toNat,
      ((List.range width.toNat).map fun col => (UInt32.ofNat row, UInt32.ofNat col)) =
        (List.range' (row * width.toNat) width.toNat).map (cellAt width) := by
    intro row _
    rw [List.range'_eq_map_range, List.map_map]
    refine List.map_congr_left fun col hcol => ?_
    obtain ⟨hdiv, hmod⟩ := ParallelRows.div_mod_cell row (List.mem_range.1 hcol)
    rw [Function.comp_apply, cellAt, hdiv, hmod]
  rw [← ParallelRows.flatMap_range', List.map_flatMap, ← List.flatMap_congr hrow, cells,
    rowsBetween, UInt32.toNat_zero, Nat.sub_zero, ← List.range_eq_range', List.flatMap_map]

theorem place_cellAt : place width (cellAt width i) = i % 2 ^ 32 := by
  rw [place, cellAt]
  dsimp only
  rw [UInt32.toNat_add, UInt32.toNat_mul, UInt32.toNat_ofNat', UInt32.toNat_ofNat',
    Nat.add_mod, Nat.mod_mod, Nat.mod_mul_mod, Nat.mod_mod, ← Nat.add_mod, Nat.mul_comm,
    Nat.div_add_mod]

theorem map_place : (cells width 0 height).map (place width) =
    (List.range (height.toNat * width.toNat)).map (· % 2 ^ 32) := by
  rw [cells_eq, List.map_map]
  exact List.map_congr_left fun i _ => place_cellAt

/-- Without wrapping around, the places are those of the pixels. -/
theorem map_place_of_le (hfit : height.toNat * width.toNat ≤ 2 ^ 32) :
    (cells width 0 height).map (place width) = List.range (height.toNat * width.toNat) := by
  rw [map_place]
  refine (List.map_congr_left fun i hi => ?_).trans (List.map_id _)
  exact Nat.mod_eq_of_lt ((List.mem_range.1 hi).trans_le hfit)

/-! ### What threads write -/

section Writes

variable {P : Type} {point : UInt32 × UInt32 → ℕ → Except PointFault P} {points result : List P}

theorem calcPoints_fst {startRow endRow : UInt32} {writes : List (ℕ × P)}
    (h : calcPoints point width startRow endRow = .ok writes) :
    writes.map Prod.fst = (cells width startRow endRow).map (place width) := by
  have hwrites := Loop.mapM_eq_ok_iff.1 h
  symm
  rw [← List.forall₂_eq_eq_eq, List.forall₂_map_left_iff, List.forall₂_map_right_iff]
  refine hwrites.imp fun cell w hw => ?_
  obtain ⟨p, -, hp⟩ := Loop.bind_eq_ok.1 hw
  cases hp
  rfl

theorem calcPoints_snd (point : UInt32 × UInt32 → ℕ → Except PointFault P) (width height : UInt32) :
    (calcPoints point width 0 height).map (List.map Prod.snd) =
    (List.range (height.toNat * width.toNat)).mapM fun i =>
      point (cellAt width i) (i % 2 ^ 32) := by
  rw [calcPoints, ← Loop.mapM_map, cells_eq, List.mapM_map]
  refine Loop.mapM_congr fun i _ => ?_
  dsimp only [Function.comp_apply]
  rw [place_cellAt]
  cases point (cellAt width i) (i % 2 ^ 32) <;> rfl

/-- A frame whose size wraps around has a pixel behind the points. -/
theorem exists_missing {writes : List (ℕ × P)} (hlength : points.length = (width * height).toNat)
    (hlarge : 2 ^ 32 ≤ height.toNat * width.toNat)
    (hwrites : writes.map Prod.fst = (cells width 0 height).map (place width)) :
    ∃ w ∈ writes, points.length ≤ w.1 := by
  have hmem : 2 ^ 32 - 1 ∈ writes.map Prod.fst := by
    rw [hwrites, map_place, List.mem_map]
    exact ⟨2 ^ 32 - 1, List.mem_range.2 (by omega), by norm_num⟩
  obtain ⟨w, hw, heq⟩ := List.mem_map.1 hmem
  refine ⟨w, hw, ?_⟩
  have hlt := (width * height).toNat_lt
  omega

/-- **Threads make the points of a single one**, in whatever order they come to write. -/
theorem computeRowsMT_eq (schedule : Schedule (ℕ × P)) (hthreads : 0 < threadNum.toNat)
    (hlength : points.length = (width * height).toNat) :
    computeRowsMT (calcPoints point width) schedule threadNum height points =
      computeRows (calcPoints point width) height points := by
  have hne : threadNum ≠ 0 := by
    rintro rfl
    exact hthreads.ne' rfl
  have hall := ParallelRows.mapM_flatMap (fun rows : UInt32 × UInt32 => cells width rows.1 rows.2)
    (fun cell => do
      let i := place width cell
      return (i, ← point cell i)) (tasks height threadNum)
  rw [flatMap_cells hthreads] at hall
  change ((tasks height threadNum).mapM fun rows => calcPoints point width rows.1 rows.2).map
    List.flatten = calcPoints point width 0 height at hall
  rw [computeRowsMT, if_neg hne, computeRows, ← hall]
  cases hfutures : (tasks height threadNum).mapM fun rows =>
      calcPoints point width rows.1 rows.2 with
  | error e => rfl
  | ok futures =>
    rw [hfutures] at hall
    have hfst := calcPoints_fst hall.symm
    have hperm := (schedule.interleaving futures).perm.symm
    refine Eq.symm ?_
    rcases Nat.lt_or_ge (height.toNat * width.toNat) (2 ^ 32) with hfit | hlarge
    · refine ParallelRows.store_perm _ _ hperm ?_
      rw [hfst, map_place_of_le hfit.le]
      exact List.nodup_range
    · exact ParallelRows.store_perm_of_missing hperm (exists_missing hlength hlarge hfst)

/-- **The points of a single thread** are those of the pixels, row after row. -/
theorem mapM_of_computeRows (hlength : points.length = (width * height).toNat)
    (h : computeRows (calcPoints point width) height points = .ok result) :
    (List.range (height.toNat * width.toNat)).mapM (fun i => point (cellAt width i) i) =
      .ok result := by
  obtain ⟨writes, hwrites, hstore⟩ := Loop.bind_eq_ok.1 h
  have hfst := calcPoints_fst hwrites
  rcases Nat.lt_or_ge (height.toNat * width.toNat) (2 ^ 32) with hfit | hlarge
  · have hsize : points.length = height.toNat * width.toNat := by
      rw [hlength, UInt32.toNat_mul, Nat.mul_comm, Nat.mod_eq_of_lt hfit]
    rw [ParallelRows.store_range _ (by rw [hfst, map_place_of_le hfit.le, hsize])] at hstore
    have hsnd := calcPoints_snd point width height
    rw [hwrites] at hsnd
    refine Eq.trans (Loop.mapM_congr fun i hi => ?_) (hsnd.symm.trans hstore)
    rw [Nat.mod_eq_of_lt ((List.mem_range.1 hi).trans hfit)]
  · obtain ⟨w, hw, hmissing⟩ := exists_missing hlength hlarge hfst
    rw [ParallelRows.store_eq_error hw hmissing] at hstore
    cases hstore

end Writes

/-! ### Places of one thread -/

/-- The places that a thread with these rows writes. -/
def places (width : UInt32) (rows : UInt32 × UInt32) : List ℕ :=
  (cells width rows.1 rows.2).map (place width)

/-- No more places than numbers for them, or a single thread that has rows. -/
def PlacesFit (numThreads width height : UInt32) : Prop :=
  height.toNat * width.toNat ≤ 2 ^ 32 ∨ numThreads.toNat = 1 ∨ height.toNat < numThreads.toNat

theorem mem_places (ht : t < threadNum.toNat) (hwidth : 0 < width.toNat)
    (hrow : i / width.toNat ∈ ParallelRows.rows height.toNat threadNum.toNat t) :
    i % 2 ^ 32 ∈ places width (task height threadNum t) := by
  refine List.mem_map.2 ⟨cellAt width i, ?_, place_cellAt⟩
  rw [cells, rowsBetween_task ht, List.flatMap_map]
  exact List.mem_flatMap.2 ⟨i / width.toNat, hrow,
    List.mem_map_of_mem (List.mem_range.2 (Nat.mod_lt i hwidth))⟩

theorem places_eq_nil (ht : t + 1 < threadNum.toNat) (hfew : height.toNat < threadNum.toNat) :
    places width (task height threadNum t) = [] := by
  have hrows : ParallelRows.rows height.toNat threadNum.toNat t = [] := by
    rw [ParallelRows.rows, ParallelRows.startRow, ParallelRows.endRow, if_neg ht.ne,
      Nat.div_eq_of_lt hfew]
    rfl
  rw [places, cells, rowsBetween_task (by omega), hrows]
  rfl

/-- In a large frame two pixels of different threads have the same place. -/
theorem exists_common_place (hlarge : 2 ^ 32 < height.toNat * width.toNat)
    (hmany : 1 < threadNum.toNat) (hrows : threadNum.toNat ≤ height.toNat) :
    ∃ t, 0 < t ∧ t < threadNum.toNat ∧
      ∃ i ∈ places width (task height threadNum 0), i ∈ places width (task height threadNum t) := by
  have hwidth : 0 < width.toNat := by
    rcases Nat.eq_zero_or_pos width.toNat with hzero | hpos
    · rw [hzero] at hlarge
      omega
    · exact hpos
  have hquotient : 0 < height.toNat / threadNum.toNat := Nat.div_pos hrows (by omega)
  have hfirst : ParallelRows.rows height.toNat threadNum.toNat 0 =
      List.range (height.toNat / threadNum.toNat) := by
    rw [ParallelRows.rows, ParallelRows.startRow, ParallelRows.endRow, if_neg (by omega),
      List.range_eq_range']
    simp
  have hless : height.toNat / threadNum.toNat < height.toNat :=
    Nat.div_lt_self (by omega) hmany
  generalize hq : height.toNat / threadNum.toNat = q at *
  -- a pixel of the first thread with one behind it, as far as places go round, of another
  obtain ⟨i, hi, hbehind, hbelow⟩ : ∃ i, i < q * width.toNat ∧ q * width.toNat ≤ i + 2 ^ 32 ∧
      i + 2 ^ 32 < height.toNat * width.toNat := by
    have hposq : 0 < q * width.toNat := Nat.mul_pos hquotient hwidth
    have hlt : q * width.toNat < height.toNat * width.toNat :=
      Nat.mul_lt_mul_of_pos_right hless hwidth
    exact ⟨min (q * width.toNat - 1) (height.toNat * width.toNat - 1 - 2 ^ 32), by omega, by omega,
      by omega⟩
  have hall := ParallelRows.flatMap_rows height.toNat (Nat.zero_lt_of_lt hmany)
  have hrow : (i + 2 ^ 32) / width.toNat ∈ List.range height.toNat :=
    List.mem_range.2 (Nat.div_lt_of_lt_mul (by rwa [Nat.mul_comm] at hbelow))
  rw [← hall] at hrow
  obtain ⟨t, ht, hmem⟩ := List.mem_flatMap.1 hrow
  have hpos : 0 < t := by
    refine Nat.pos_of_ne_zero ?_
    rintro rfl
    rw [hfirst, List.mem_range, Nat.div_lt_iff_lt_mul hwidth] at hmem
    omega
  refine ⟨t, hpos, List.mem_range.1 ht, i % 2 ^ 32, mem_places (by omega) hwidth ?_, ?_⟩
  · rw [hfirst, List.mem_range, Nat.div_lt_iff_lt_mul hwidth]
    exact hi
  · have hplace := mem_places (List.mem_range.1 ht) hwidth hmem
    rwa [Nat.add_mod_right] at hplace

/-- **Threads write to places of their own** exactly if the places fit. -/
theorem pairwise_disjoint_iff (hthreads : 0 < threadNum.toNat) :
    (tasks height threadNum).Pairwise (fun a b => (places width a).Disjoint (places width b)) ↔
      PlacesFit threadNum width height := by
  constructor
  · intro hpairwise
    by_contra hfit
    simp only [PlacesFit, not_or, not_le, not_lt] at hfit
    obtain ⟨hlarge, hone, hrows⟩ := hfit
    obtain ⟨t, hpos, ht, i, hi, hi'⟩ := exists_common_place hlarge (by omega) hrows
    rw [tasks_eq, List.pairwise_map, List.pairwise_iff_getElem] at hpairwise
    have hdisjoint := hpairwise 0 t (by simpa using hthreads) (by simpa using ht) hpos
    rw [List.getElem_range, List.getElem_range] at hdisjoint
    exact hdisjoint hi hi'
  · rintro (hfit | hone | hfew)
    · have hnodup : ((tasks height threadNum).flatMap (places width)).Nodup := by
        change ((tasks height threadNum).flatMap fun rows =>
          (cells width rows.1 rows.2).map (place width)).Nodup
        rw [← List.map_flatMap, flatMap_cells hthreads, map_place_of_le hfit]
        exact List.nodup_range
      exact (List.nodup_flatMap.1 hnodup).2
    · rw [tasks_eq, hone]
      exact List.pairwise_singleton _ _
    · rw [tasks_eq, List.pairwise_map]
      refine List.pairwise_lt_range.imp_of_mem fun {s t} _ ht hst => ?_
      rw [places_eq_nil (by have := List.mem_range.1 ht; omega) hfew]
      exact List.disjoint_nil_left _

end Rows

/-! ### Both kinds of points -/

section Clouds

variable {F P : Type} {numThreads width height : UInt32}

/-- **What threads should do**: make the points of a single thread, which are those of the pixels
row after row, share the rows out among them, and write to places of their own. -/
structure ThreadsAgree (compute : Schedule (ℕ × P) → Impl F → Except PointFault (List P))
    (pixel : ℕ → Except PointFault P) (impl : Impl F) (numThreads width height : UInt32) :
    Prop where
  same : ∀ schedule schedule',
    compute schedule (impl.useCPUMT numThreads) = compute schedule' impl.useCPU
  rowMajor : ∀ schedule points, compute schedule impl.useCPU = .ok points →
    (List.range (height.toNat * width.toNat)).mapM pixel = .ok points
  partition : (tasks height (impl.useCPUMT numThreads).threadNum).flatMap
    (fun rows => rowsBetween rows.1 rows.2) = rowsBetween 0 height
  disjoint : (tasks height (impl.useCPUMT numThreads).threadNum).Pairwise fun a b =>
    (places width a).Disjoint (places width b)

theorem useCPUMT_threadNum (self : Impl F) (hthreads : 0 < numThreads) :
    (self.useCPUMT numThreads).threadNum = numThreads := by
  have hone : (1 : UInt32) ≤ numThreads := by
    rw [UInt32.le_iff_toNat_le, UInt32.toNat_one]
    exact hthreads
  exact if_pos hone

theorem threadsAgree_iff {compute : Schedule (ℕ × P) → Impl F → Except PointFault (List P)}
    {point : UInt32 × UInt32 → ℕ → Except PointFault P} {blank : P} {self : Impl F} {stop : Prop}
    {e : PointFault} [Decidable stop] (hthreads : 0 < numThreads)
    (hcpu : ∀ schedule, compute schedule self.useCPU = if stop then .error e else
      computeRows (calcPoints point width) height (List.replicate (width * height).toNat blank))
    (hmt : ∀ schedule, compute schedule (self.useCPUMT numThreads) = if stop then .error e else
      computeRowsMT (calcPoints point width) schedule (self.useCPUMT numThreads).threadNum height
        (List.replicate (width * height).toNat blank)) :
    ThreadsAgree compute (fun i => point (cellAt width i) i) self numThreads width height ↔
      PlacesFit numThreads width height := by
  have hnum := useCPUMT_threadNum self hthreads
  constructor
  · intro h
    have hdisjoint := h.disjoint
    rw [hnum] at hdisjoint
    exact (pairwise_disjoint_iff hthreads).1 hdisjoint
  · intro hfit
    refine ⟨?_, ?_, ?_, ?_⟩
    · intro schedule schedule'
      rw [hmt, hcpu, hnum, computeRowsMT_eq schedule hthreads List.length_replicate]
    · intro schedule points h
      rw [hcpu] at h
      split_ifs at h
      exact mapM_of_computeRows List.length_replicate h
    · rw [hnum]
      exact flatMap_rowsBetween height hthreads
    · rw [hnum]
      exact (pairwise_disjoint_iff hthreads).2 hfit

variable [Sub F] [Mul F] [Div F] [NatCast F] [Zero F] [LT F] [DecidableLT F] [DecidableEq F]

/-- The points for a frame of this size. -/
def cloud (schedule : Schedule (ℕ × Point3f F)) (self : Impl F) (fx fy cx cy : F)
    (width height : UInt32) (depthData : List UInt8) : Except PointFault (List (Point3f F)) := do
  let self ← self.setIntrinsics fx fy cx cy width height
  self.computePointCloudDense schedule depthData

/-- The points for a frame of this size, with colours. -/
def coloredCloud (schedule : Schedule (ℕ × Point3fRGBA F)) (self : Impl F) (fx fy cx cy : F)
    (width height : UInt32) (depthData colorData : List UInt8) :
    Except PointFault (List (Point3fRGBA F)) := do
  let self ← self.setIntrinsics fx fy cx cy width height
  self.computePointCloudDenseColored schedule depthData colorData

theorem cloud_useCPU (schedule : Schedule (ℕ × Point3f F)) (self : Impl F) (fx fy cx cy : F)
    (width height : UInt32) (depthData : List UInt8) :
    self.useCPU.cloud schedule fx fy cx cy width height depthData =
      if fx = 0 ∨ fy = 0 then .error (.thrown "Focal lengths fx and fy must be non-zero")
      else computeRows (calcPoints (densePoint self.scaleFactor
        (Intrinsics.ofFrame fx fy cx cy width height) depthData) width) height
          (List.replicate (width * height).toNat { x := 0, y := 0, z := 0 }) := by
  rw [cloud, setIntrinsics]
  split_ifs <;> rfl

theorem cloud_useCPUMT (schedule : Schedule (ℕ × Point3f F)) (self : Impl F) (numThreads : UInt32)
    (fx fy cx cy : F) (width height : UInt32) (depthData : List UInt8) :
    (self.useCPUMT numThreads).cloud schedule fx fy cx cy width height depthData =
      if fx = 0 ∨ fy = 0 then .error (.thrown "Focal lengths fx and fy must be non-zero")
      else computeRowsMT (calcPoints (densePoint self.scaleFactor
        (Intrinsics.ofFrame fx fy cx cy width height) depthData) width) schedule
          (self.useCPUMT numThreads).threadNum height
            (List.replicate (width * height).toNat { x := 0, y := 0, z := 0 }) := by
  rw [cloud, setIntrinsics]
  split_ifs <;> rfl

theorem coloredCloud_useCPU (schedule : Schedule (ℕ × Point3fRGBA F)) (self : Impl F)
    (fx fy cx cy : F) (width height : UInt32) (depthData colorData : List UInt8) :
    self.useCPU.coloredCloud schedule fx fy cx cy width height depthData colorData =
      if fx = 0 ∨ fy = 0 then .error (.thrown "Focal lengths fx and fy must be non-zero")
      else computeRows (calcPoints (denseColoredPoint self.scaleFactor
        (Intrinsics.ofFrame fx fy cx cy width height) depthData colorData) width) height
          (List.replicate (width * height).toNat
            { x := 0, y := 0, z := 0, r := 0, g := 0, b := 0 }) := by
  rw [coloredCloud, setIntrinsics]
  split_ifs <;> rfl

theorem coloredCloud_useCPUMT (schedule : Schedule (ℕ × Point3fRGBA F)) (self : Impl F)
    (numThreads : UInt32) (fx fy cx cy : F) (width height : UInt32)
    (depthData colorData : List UInt8) :
    (self.useCPUMT numThreads).coloredCloud schedule fx fy cx cy width height depthData colorData =
      if fx = 0 ∨ fy = 0 then .error (.thrown "Focal lengths fx and fy must be non-zero")
      else computeRowsMT (calcPoints (denseColoredPoint self.scaleFactor
        (Intrinsics.ofFrame fx fy cx cy width height) depthData colorData) width) schedule
          (self.useCPUMT numThreads).threadNum height (List.replicate (width * height).toNat
            { x := 0, y := 0, z := 0, r := 0, g := 0, b := 0 }) := by
  rw [coloredCloud, setIntrinsics]
  split_ifs <;> rfl

end Clouds

end Impl

/-! ### Both nodes -/

section Nodes

variable {F : Type} [Sub F] [Mul F] [Div F] [IntCast F] [NatCast F] [Zero F] [LT F] [DecidableLT F]
  [DecidableEq F] {numThreads width height : UInt32}

/-- **What threads should do** in the nodes `RGBD` and `PointCloud`, there without and with colours.
-/
structure ThreadsAgree (rgbd : RGBD.Impl F) (pointCloud : Impl F) (numThreads : UInt32)
    (fx fy cx cy : F) (width height : UInt32) (depthData colorData : List UInt8) : Prop where
  rgbd : RGBD.Impl.ThreadsAgree rgbd numThreads fx fy cx cy width height depthData colorData
  dense : Impl.ThreadsAgree
    (fun schedule impl => impl.cloud schedule fx fy cx cy width height depthData)
    (fun i => Impl.densePoint pointCloud.scaleFactor
      (Intrinsics.ofFrame fx fy cx cy width height) depthData (Impl.cellAt width i) i)
    pointCloud numThreads width height
  denseColored : Impl.ThreadsAgree
    (fun schedule impl => impl.coloredCloud schedule fx fy cx cy width height depthData colorData)
    (fun i => Impl.denseColoredPoint pointCloud.scaleFactor
      (Intrinsics.ofFrame fx fy cx cy width height) depthData colorData
        (Impl.cellAt width i) i)
    pointCloud numThreads width height

/-- **Threads make the cloud of a single one**, in both nodes, exactly if their number fits an
`int`, up to frames that have no rows there, and if places do not wrap around to those of another
thread. -/
theorem clouds_agree_iff {rgbd : RGBD.Impl F} {pointCloud : Impl F} {fx fy cx cy : F}
    {depthData colorData : List UInt8} (hthreads : 0 < numThreads) :
    ThreadsAgree rgbd pointCloud numThreads fx fy cx cy width height depthData colorData ↔
      RGBD.Impl.ThreadsFit numThreads height ∧ Impl.PlacesFit numThreads width height := by
  have hrgbd : RGBD.Impl.ThreadsAgree rgbd numThreads fx fy cx cy width height depthData colorData ↔
      RGBD.Impl.ThreadsFit numThreads height := RGBD.Impl.threadsAgree_iff hthreads
  constructor
  · rintro ⟨hr, hd, -⟩
    exact ⟨hrgbd.1 hr, (Impl.threadsAgree_iff hthreads (fun _ => Impl.cloud_useCPU ..)
      fun _ => Impl.cloud_useCPUMT ..).1 hd⟩
  · rintro ⟨hfit, hplaces⟩
    exact ⟨hrgbd.2 hfit,
      (Impl.threadsAgree_iff hthreads (fun _ => Impl.cloud_useCPU ..)
        fun _ => Impl.cloud_useCPUMT ..).2 hplaces,
      (Impl.threadsAgree_iff hthreads (fun _ => Impl.coloredCloud_useCPU ..)
        fun _ => Impl.coloredCloud_useCPUMT ..).2 hplaces⟩

/-- Three threads for two rows. -/
theorem clouds_agree_two_rows : ThreadsAgree { scaleFactor := (1 : ℚ) } { scaleFactor := 1 } 3
    1 1 0 0 1 2 [5, 0, 7, 0] [1, 2, 3, 4, 5, 6] :=
  (clouds_agree_iff (by decide)).2 ⟨.inl (by decide), .inl (by decide)⟩

/-- In the node `RGBD`, `2 ^ 31` threads are a negative number of them, and a pixel is lost. -/
theorem not_clouds_agree : ¬∀ (rgbd : RGBD.Impl ℚ) (pointCloud : Impl ℚ)
    (numThreads width height : UInt32) (fx fy cx cy : ℚ) (depthData colorData : List UInt8),
    0 < numThreads →
      ThreadsAgree rgbd pointCloud numThreads fx fy cx cy width height depthData colorData := by
  intro h
  have hagree := h { scaleFactor := 1 } { scaleFactor := 1 } 2147483648 1 1 1 1 0 0 [5, 0] [1, 2, 3]
    (by decide)
  rcases (RGBD.Impl.threadsAgree_iff (by decide)).1 hagree.rgbd with hfit | ⟨hrows, -⟩
  · exact absurd hfit (by decide)
  · exact absurd hrows (by decide)

end Nodes

end PointCloud

end DepthaiCore
