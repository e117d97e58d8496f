import DepthaiCore.Datatype.NNData
import Mathlib.Data.UInt

/-!
# The geometry of a tensor

A storage order names the axes of a tensor from the slowest to the fastest. Its number has a hexadecimal
digit for each of them. The accessors of `TensorInfo` return the extents and the strides of the width,
the height and the channels; every one has a table of its own that says at which position of `dims` or
`strides` to look.
-/

namespace DepthaiCore.NN

variable {F : Type}

/-! ### Storage orders -/

/-- The axes of a tensor. -/
inductive Axis
  | W | H | C | N
  deriving DecidableEq, Repr

/-- The digit of an axis. -/
def Axis.ofDigit : ℕ → Option Axis
  | 1 => some .W
  | 2 => some .H
  | 3 => some .C
  | 4 => some .N
  | _ => none

namespace StorageOrder

/-- The numbers of the enumeration. -/
def code : StorageOrder → ℕ
  | .NHWC => 0x4213
  | .NHCW => 0x4231
  | .NCHW => 0x4321
  | .HWC => 0x213
  | .CHW => 0x321
  | .WHC => 0x123
  | .HCW => 0x231
  | .WCH => 0x132
  | .CWH => 0x312
  | .NC => 0x43
  | .CN => 0x34
  | .C => 0x3
  | .H => 0x2
  | .W => 0x1

/-- The axes that the digits name, the first digit first. -/
def axes (order : StorageOrder) : List Axis :=
  [order.code / 0x1000, order.code / 0x100, order.code / 0x10, order.code].filterMap fun n =>
    Axis.ofDigit (n % 0x10)

/-- Where an axis is. -/
def position (order : StorageOrder) (axis : Axis) : Option ℕ :=
  order.axes.idxOf? axis

end StorageOrder

namespace TensorInfo

/-! ### The accessors -/

/-- The value at a position, and zero if there is none. -/
def valueAt {α : Type} [Zero α] (values : List α) : Option ℕ → α
  | some i => values.getD i 0
  | none => 0

variable (info : TensorInfo F)

/-- An accessor: the storage order is checked and its position looked up in a table. -/
def access (values : List UInt32) (table : StorageOrder → Option ℕ) : Except String UInt32 := do
  info.validateStorageOrder
  return valueAt values (table info.order)

/-- Where `getWidth` looks. -/
def getWidth.table : StorageOrder → Option ℕ
  | .NHWC => some 2
  | .NHCW => some 3
  | .NCHW => some 3
  | .HWC => some 1
  | .CHW => some 2
  | .WHC => some 1
  | .HCW => some 2
  | .WCH => some 0
  | .CWH => some 1
  | .W => some 0
  | .NC | .CN | .C | .H => none

/-- `TensorInfo::getWidth`. The result is an `int`. -/
def getWidth : Except String ℤ := do
  let value ← info.access info.dims getWidth.table
  return value.toInt32.toInt

/-- Where `getHeight` looks. -/
def getHeight.table : StorageOrder → Option ℕ
  | .NHWC => some 1
  | .NHCW => some 1
  | .NCHW => some 2
  | .HWC => some 0
  | .CHW => some 1
  | .WHC => some 1
  | .HCW => some 0
  | .WCH => some 2
  | .CWH => some 2
  | .H => some 0
  | .NC | .CN | .C | .W => none

def getHeight : Except String ℤ := do
  let value ← info.access info.dims getHeight.table
  return value.toInt32.toInt

/-- Where `getChannels` looks. -/
def getChannels.table : StorageOrder → Option ℕ
  | .NHWC => some 3
  | .NHCW => some 2
  | .NCHW => some 1
  | .HWC => some 2
  | .CHW => some 0
  | .WHC => some 2
  | .HCW => some 1
  | .WCH => some 1
  | .CWH => some 0
  | .C => some 0
  | .NC => some 1
  | .CN => some 0
  | .H | .W => none

def getChannels : Except String ℤ := do
  let value ← info.access info.dims getChannels.table
  return value.toInt32.toInt

/-- Where `getChannelStride` looks. -/
def getChannelStride.table : StorageOrder → Option ℕ
  | .NHWC => some 3
  | .NHCW => some 2
  | .NCHW => some 1
  | .HWC => some 2
  | .CHW => some 0
  | .WHC => some 0
  | .HCW => some 1
  | .WCH => some 1
  | .CWH => some 0
  | .C => some 0
  | .NC => some 1
  | .CN => some 0
  | .H | .W => none

/-- `TensorInfo::getChannelStride`. The result is a `size_t`. -/
def getChannelStride : Except String ℕ := do
  let value ← info.access info.strides getChannelStride.table
  return value.toNat

/-- Where `getWidthStride` looks. -/
def getWidthStride.table : StorageOrder → Option ℕ
  | .NHWC => some 2
  | .NHCW => some 3
  | .NCHW => some 3
  | .HWC => some 1
  | .CHW => some 2
  | .WHC => some 0
  | .HCW => some 1
  | .WCH => some 0
  | .CWH => some 1
  | .W => some 0
  | .NC | .CN | .H | .C => none

def getWidthStride : Except String ℕ := do
  let value ← info.access info.strides getWidthStride.table
  return value.toNat

/-- Where `getHeightStride` looks. -/
def getHeightStride.table : StorageOrder → Option ℕ
  | .NHWC => some 1
  | .NHCW => some 1
  | .NCHW => some 2
  | .HWC => some 0
  | .CHW => some 1
  | .WHC => some 1
  | .HCW => some 0
  | .WCH => some 1
  | .CWH => some 1
  | .H => some 0
  | .C | .NC | .CN | .W => none

def getHeightStride : Except String ℕ := do
  let value ← info.access info.strides getHeightStride.table
  return value.toNat

/-- `TensorInfo::getTensorSize`. The product has 32 bits. There is no result where every stride is
zero: the source then reads past the end. -/
def getTensorSize : Option ℕ :=
  if info.dims.all (· == 1) then some info.getDataTypeSize
  else
    (info.strides.findIdx? (0 < ·)).map fun i =>
      (info.dims.getD i 0 * info.strides.getD i 0).toNat

/-! ### What the storage order says -/

/-- The extent of an axis. -/
def extent (axis : Axis) : ℕ :=
  (valueAt info.dims (info.order.position axis)).toNat

/-- The stride of an axis. -/
def stride (axis : Axis) : ℕ :=
  (valueAt info.strides (info.order.position axis)).toNat

/-- As many dimensions as axes. -/
def RightRank : Prop :=
  info.dims.length = info.order.axes.length

instance : Decidable info.RightRank :=
  inferInstanceAs (Decidable (_ = _))

/-- Every stride is the size of all that the later axes span. -/
def Contiguous : Prop :=
  info.strides.map UInt32.toNat =
    RowMajor.spans info.getDataTypeSize (info.dims.map UInt32.toNat)

instance : Decidable info.Contiguous :=
  inferInstanceAs (Decidable (_ = _))

/-- The number of elements. -/
def count : ℕ :=
  (info.dims.map UInt32.toNat).prod

/-- The indices of the elements: one below the extent for each axis there is. -/
def indices : Set (Axis → ℕ) :=
  {x | ∀ axis, if axis ∈ info.order.axes then x axis < info.extent axis else x axis = 0}

/-- The offset of the element with given indices. -/
def address (x : Axis → ℕ) : ℕ :=
  (info.order.axes.map fun axis => x axis * info.stride axis).sum

/-- The accessors agree with the storage order, and the strides address every element once. -/
structure Geometry : Prop where
  width : info.getWidth = .ok (info.extent .W)
  height : info.getHeight = .ok (info.extent .H)
  channels : info.getChannels = .ok (info.extent .C)
  widthStride : info.getWidthStride = .ok (info.stride .W)
  heightStride : info.getHeightStride = .ok (info.stride .H)
  channelStride : info.getChannelStride = .ok (info.stride .C)
  bijOn_address :
    Set.BijOn info.address info.indices {n | ∃ k < info.count, n = k * info.getDataTypeSize}
  tensorSize : info.getTensorSize = some (info.count * info.getDataTypeSize)

/-- The extents that a wrong table does not tell from the right one. -/
def Insensitive : Prop :=
  match info.order with
  | .WHC => ∀ axis ∈ info.order.axes, info.extent axis = 1
  | .HCW => info.extent .W = 1
  | .WCH | .CWH => info.extent .H = 1
  | _ => True

/-- The tensor has less than `2 ^ 32` bytes, its extents are `int`s, and no table is wrong for it. -/
structure Regular : Prop where
  small : info.count * info.getDataTypeSize < 2 ^ 32
  extents : ∀ axis ∈ [Axis.W, .H, .C], info.extent axis < 2 ^ 31
  insensitive : info.Insensitive

end TensorInfo

/-! ### Positions -/

namespace StorageOrder

variable (order : StorageOrder)

theorem position_axes (i : Fin order.axes.length) : order.position (order.axes.get i) = some i := by
  revert i
  cases order <;> decide

theorem position_eq_none {axis : Axis} (h : axis ∉ order.axes) : order.position axis = none :=
  List.idxOf?_eq_none_iff.2 h

/-- The values at the positions of the axes are the values. -/
theorem map_valueAt {α : Type} [Zero α] {values : List α} (h : values.length = order.axes.length) :
    (order.axes.map fun axis => TensorInfo.valueAt values (order.position axis)) = values := by
  refine List.ext_getElem (by rw [List.length_map, h]) fun i hi hi' => ?_
  have hposition := order.position_axes ⟨i, h ▸ hi'⟩
  rw [List.get_eq_getElem] at hposition
  rw [List.getElem_map, hposition]
  exact (List.getElem_eq_getD _).symm

end StorageOrder

namespace TensorInfo

variable {info : TensorInfo F}

/-! ### The addresses -/

theorem RightRank.dims_eq (h : info.RightRank) :
    info.dims.map UInt32.toNat = info.order.axes.map info.extent := by
  conv_lhs => rw [← info.order.map_valueAt h, List.map_map]
  rfl

theorem Contiguous.length_strides (h : info.Contiguous) : info.strides.length = info.dims.length := by
  have hlength := congrArg List.length h
  rwa [List.length_map, RowMajor.length_spans, List.length_map] at hlength

theorem Contiguous.strides_eq (h : info.Contiguous) (hrank : info.RightRank) :
    info.strides.map UInt32.toNat = info.order.axes.map info.stride := by
  conv_lhs => rw [← info.order.map_valueAt (h.length_strides.trans hrank), List.map_map]
  rfl

/-- The indices of the axes, in their order, are coordinates in the array. -/
theorem RightRank.bijOn_map (h : info.RightRank) :
    Set.BijOn (fun x => info.order.axes.map x) info.indices
      {coords | RowMajor.Within coords (info.dims.map UInt32.toNat)} := by
  have hwithin : ∀ x : Axis → ℕ, RowMajor.Within (info.order.axes.map x)
      (info.dims.map UInt32.toNat) ↔ ∀ axis ∈ info.order.axes, x axis < info.extent axis := by
    intro x
    rw [h.dims_eq, RowMajor.Within, List.forall₂_map_left_iff, List.forall₂_map_right_iff,
      List.forall₂_same]
  refine ⟨fun x hx => ?_, fun x hx y hy hxy => ?_, fun coords hcoords => ?_⟩
  · refine (hwithin x).2 fun axis hmem => ?_
    have hx := hx axis
    rwa [if_pos hmem] at hx
  · funext axis
    by_cases hmem : axis ∈ info.order.axes
    · exact List.map_inj_left.1 hxy axis hmem
    · have hx := hx axis
      have hy := hy axis
      rw [if_neg hmem] at hx hy
      rw [hx, hy]
  · have hlength : coords.length = info.order.axes.length := by
      rw [List.Forall₂.length_eq hcoords, List.length_map, h]
    have hmap := info.order.map_valueAt hlength
    refine ⟨fun axis => valueAt coords (info.order.position axis), fun axis => ?_, hmap⟩
    split
    · have hlt := (hwithin fun axis => valueAt coords (info.order.position axis)).1
        (by rw [hmap]; exact hcoords)
      exact hlt axis ‹_›
    · show valueAt coords (info.order.position axis) = 0
      rw [info.order.position_eq_none ‹_›]
      rfl

theorem getDataTypeSize_pos (info : TensorInfo F) : 0 < info.getDataTypeSize := by
  rw [getDataTypeSize]
  cases info.dataType <;> decide

theorem address_eq (hrank : info.RightRank) (h : info.Contiguous) {x : Axis → ℕ}
    (hx : x ∈ info.indices) : info.address x =
      RowMajor.place (info.dims.map UInt32.toNat) (info.order.axes.map x) *
        info.getDataTypeSize := by
  rw [← RowMajor.sum_spans _ (hrank.bijOn_map.mapsTo hx), ← h, h.strides_eq hrank, address,
    List.zipWith_map, List.zipWith_self]

/-- **Contiguous strides address every element once.** -/
theorem bijOn_address (hrank : info.RightRank) (h : info.Contiguous) :
    Set.BijOn info.address info.indices {n | ∃ k < info.count, n = k * info.getDataTypeSize} := by
  have hscale : Set.BijOn (· * info.getDataTypeSize) (Set.Iio info.count)
      {n | ∃ k < info.count, n = k * info.getDataTypeSize} :=
    ⟨fun k hk => ⟨k, hk, rfl⟩, fun k _ k' _ hkk' =>
      Nat.eq_of_mul_eq_mul_right info.getDataTypeSize_pos hkk', fun n ⟨k, hk, hn⟩ => ⟨k, hk, hn.symm⟩⟩
  have hbij := hscale.comp ((RowMajor.bijOn_place _).comp hrank.bijOn_map)
  exact hbij.congr fun x hx => (address_eq hrank h hx).symm

/-! ### The size -/

/-- **The size is that of the elements, reduced to 32 bits.** -/
theorem getTensorSize_eq (h : info.Contiguous) :
    info.getTensorSize = some (info.count * info.getDataTypeSize % 2 ^ 32) := by
  rw [getTensorSize]
  by_cases hones : info.dims.all (· == 1)
  · rw [if_pos hones]
    have hcount : info.count = 1 := by
      rw [count]
      refine List.prod_eq_one fun n hn => ?_
      obtain ⟨u, hu, rfl⟩ := List.mem_map.1 hn
      rw [eq_of_beq (List.all_eq_true.1 hones u hu)]
      rfl
    have hlt : info.getDataTypeSize < 2 ^ 32 := by
      rw [getDataTypeSize]
      cases info.dataType <;> decide
    rw [hcount, Nat.one_mul, Nat.mod_eq_of_lt hlt]
  · rw [if_neg hones]
    have hne : info.dims.map UInt32.toNat ≠ [] := by
      intro hnil
      rw [List.map_eq_nil_iff] at hnil
      rw [hnil] at hones
      exact hones rfl
    obtain ⟨i, hfind, hmul⟩ := RowMajor.exists_findIdx?_spans info.getDataTypeSize_pos hne
    rw [← h, List.findIdx?_map] at hfind
    have hfind : info.strides.findIdx? (0 < ·) = some i := hfind
    have hnat : ∀ values : List UInt32,
        (values.map UInt32.toNat).getD i 0 = (values.getD i 0).toNat := by
      intro values
      rw [List.getD_eq_getElem?_getD, List.getD_eq_getElem?_getD, List.getElem?_map]
      cases values[i]? <;> rfl
    rw [← h, hnat, hnat] at hmul
    rw [hfind, Option.map_some, UInt32.toNat_mul, hmul, count]

theorem getTensorSize_eq_iff (h : info.Contiguous) :
    info.getTensorSize = some (info.count * info.getDataTypeSize) ↔
      info.count * info.getDataTypeSize < 2 ^ 32 := by
  rw [getTensorSize_eq h, Option.some.injEq]
  constructor
  · intro hmod
    rw [← hmod]
    exact Nat.mod_lt _ (by norm_num)
  · exact Nat.mod_eq_of_lt

/-! ### The accessors -/

theorem access_eq (hrank : info.RightRank) (values : List UInt32)
    (table : StorageOrder → Option ℕ) :
    info.access values table = .ok (valueAt values (table info.order)) := by
  have hvalid : info.validateStorageOrder = .ok () := by
    rw [RightRank] at hrank
    rw [validateStorageOrder]
    cases horder : info.order <;> rw [horder] at hrank <;> exact if_neg (by rw [hrank]; decide)
  rw [access, hvalid]
  rfl

theorem toInt_toInt32_eq_iff (u : UInt32) : u.toInt32.toInt = u.toNat ↔ u.toNat < 2 ^ 31 := by
  have hlt := u.toNat_lt
  have hint : u.toInt32.toInt = u.toBitVec.toInt := rfl
  have hnat : u.toBitVec.toNat = u.toNat := rfl
  rw [hint, BitVec.toInt_eq_toNat_cond, hnat]
  split <;> omega

theorem dim_eq_iff (hrank : info.RightRank) {table : StorageOrder → Option ℕ} {axis : Axis}
    (htable : table info.order = info.order.position axis) :
    (info.access info.dims table >>= fun value => .ok value.toInt32.toInt) =
        .ok (info.extent axis : ℤ) ↔ info.extent axis < 2 ^ 31 := by
  rw [access_eq hrank, htable]
  show Except.ok _ = Except.ok _ ↔ _
  rw [Except.ok.injEq]
  exact toInt_toInt32_eq_iff _

/-- An accessor of `strides`: what its table says has to be what the right one says. -/
theorem stride_eq_iff (hrank : info.RightRank) {table : StorageOrder → Option ℕ} {axis : Axis} :
    (info.access info.strides table >>= fun value => .ok value.toNat) =
        (.ok (info.stride axis) : Except String ℕ) ↔
      (valueAt info.strides (table info.order)).toNat = info.stride axis := by
  rw [access_eq hrank]
  show Except.ok _ = Except.ok _ ↔ _
  rw [Except.ok.injEq]

theorem Contiguous.three (h : info.Contiguous) (hlength : info.dims.length = 3) :
    (valueAt info.strides (some 0)).toNat = (valueAt info.dims (some 1)).toNat *
        (valueAt info.dims (some 2)).toNat * info.getDataTypeSize ∧
      (valueAt info.strides (some 1)).toNat =
        (valueAt info.dims (some 2)).toNat * info.getDataTypeSize ∧
      (valueAt info.strides (some 2)).toNat = info.getDataTypeSize := by
  obtain ⟨a, b, c, hdims⟩ := List.length_eq_three.1 hlength
  obtain ⟨x, y, z, hstrides⟩ := List.length_eq_three.1 (h.length_strides.trans hlength)
  rw [Contiguous, hdims, hstrides] at h
  simp only [List.map_cons, List.map_nil, RowMajor.spans, List.prod_cons, List.prod_nil,
    Nat.mul_one, Nat.one_mul, List.cons.injEq, and_true] at h
  rw [hdims, hstrides]
  exact h

/-! ### The tables -/

theorem getWidth.table_eq {order : StorageOrder} (h : order ≠ .WHC) :
    getWidth.table order = order.position .W := by
  cases order <;> first | rfl | exact absurd rfl h

theorem getHeight.table_eq (order : StorageOrder) : getHeight.table order = order.position .H := by
  cases order <;> rfl

theorem getChannels.table_eq (order : StorageOrder) :
    getChannels.table order = order.position .C := by
  cases order <;> rfl

theorem getChannelStride.table_eq {order : StorageOrder} (h : order ≠ .WHC) :
    getChannelStride.table order = order.position .C := by
  cases order <;> first | rfl | exact absurd rfl h

theorem getWidthStride.table_eq {order : StorageOrder} (h : order ≠ .HCW) :
    getWidthStride.table order = order.position .W := by
  cases order <;> first | rfl | exact absurd rfl h

theorem getHeightStride.table_eq {order : StorageOrder} (hwch : order ≠ .WCH) (hcwh : order ≠ .CWH) :
    getHeightStride.table order = order.position .H := by
  cases order <;> first | rfl | exact absurd rfl hwch | exact absurd rfl hcwh

theorem length_eq_three (hrank : info.RightRank)
    (h : info.order = .WHC ∨ info.order = .HCW ∨ info.order = .WCH ∨ info.order = .CWH) :
    info.dims.length = 3 := by
  rw [hrank]
  rcases h with h | h | h | h <;> rw [h] <;> rfl

/-- A multiple of the element size is the element size. -/
theorem mul_getDataTypeSize_eq_iff {n : ℕ} : n * info.getDataTypeSize = info.getDataTypeSize ↔ n = 1 :=
  Nat.mul_eq_right info.getDataTypeSize_pos.ne'

/-! ### Where the tables are wrong -/

theorem widthStride_iff_of_HCW (h : info.Contiguous) (hrank : info.RightRank)
    (horder : info.order = .HCW) :
    (valueAt info.strides (getWidthStride.table info.order)).toNat = info.stride .W ↔
      info.extent .W = 1 := by
  obtain ⟨-, hone, htwo⟩ := h.three (length_eq_three hrank (.inr (.inl horder)))
  rw [stride, extent, horder]
  show (valueAt info.strides (some 1)).toNat = (valueAt info.strides (some 2)).toNat ↔ _
  rw [hone, htwo, mul_getDataTypeSize_eq_iff]
  rfl

theorem heightStride_iff_of_WCH_or_CWH (h : info.Contiguous) (hrank : info.RightRank)
    (horder : info.order = .WCH ∨ info.order = .CWH) :
    (valueAt info.strides (getHeightStride.table info.order)).toNat = info.stride .H ↔
      info.extent .H = 1 := by
  obtain ⟨-, hone, htwo⟩ := h.three (length_eq_three hrank (.inr (.inr horder)))
  have htable : getHeightStride.table info.order = some 1 ∧ info.order.position .H = some 2 := by
    rcases horder with horder | horder <;> rw [horder] <;> exact ⟨rfl, rfl⟩
  rw [stride, extent, htable.1, htable.2, hone, htwo, mul_getDataTypeSize_eq_iff]

theorem channelStride_iff_of_WHC (h : info.Contiguous) (hrank : info.RightRank)
    (horder : info.order = .WHC) :
    (valueAt info.strides (getChannelStride.table info.order)).toNat = info.stride .C ↔
      info.extent .H = 1 ∧ info.extent .C = 1 := by
  obtain ⟨hzero, -, htwo⟩ := h.three (length_eq_three hrank (.inl horder))
  rw [stride, extent, extent, horder]
  show (valueAt info.strides (some 0)).toNat = (valueAt info.strides (some 2)).toNat ↔ _
  rw [hzero, htwo, mul_getDataTypeSize_eq_iff]
  constructor
  · intro hmul
    exact ⟨Nat.eq_one_of_mul_eq_one_right hmul, Nat.eq_one_of_mul_eq_one_left hmul⟩
  · rintro ⟨hH, hC⟩
    exact (congrArg₂ (· * ·) hH hC :)

/-- `getWidth` returns the height, so the width is the height. -/
theorem width_iff_of_WHC (hrank : info.RightRank) (horder : info.order = .WHC)
    (hheight : info.extent .H = 1) :
    info.getWidth = .ok (info.extent .W : ℤ) ↔ info.extent .W = 1 := by
  have hheight : (valueAt info.dims (some 1)).toNat = 1 := by
    rw [extent, horder] at hheight
    exact hheight
  have hint : (valueAt info.dims (some 1)).toInt32.toInt = 1 := by
    rw [(toInt_toInt32_eq_iff _).2 (by rw [hheight]; norm_num), hheight]
    rfl
  rw [getWidth, access_eq hrank, horder]
  show Except.ok (valueAt info.dims (some 1)).toInt32.toInt = Except.ok _ ↔ _
  rw [hint, Except.ok.injEq, eq_comm, Nat.cast_eq_one]

theorem Insensitive.of_geometry (h : info.Contiguous) (hrank : info.RightRank) (g : info.Geometry) :
    info.Insensitive := by
  have hwidth := (stride_eq_iff hrank).1 g.widthStride
  have hheight := (stride_eq_iff hrank).1 g.heightStride
  have hchannel := (stride_eq_iff hrank).1 g.channelStride
  rw [Insensitive]
  split
  case h_1 horder =>
    obtain ⟨hH, hC⟩ := (channelStride_iff_of_WHC h hrank horder).1 hchannel
    have hW := (width_iff_of_WHC hrank horder hH).1 g.width
    intro axis hmem
    rw [horder] at hmem
    have hmem : axis ∈ [Axis.W, .H, .C] := hmem
    simp only [List.mem_cons, List.not_mem_nil, or_false] at hmem
    rcases hmem with rfl | rfl | rfl
    · exact hW
    · exact hH
    · exact hC
  case h_2 horder => exact (widthStride_iff_of_HCW h hrank horder).1 hwidth
  case h_3 horder => exact (heightStride_iff_of_WCH_or_CWH h hrank (.inl horder)).1 hheight
  case h_4 horder => exact (heightStride_iff_of_WCH_or_CWH h hrank (.inr horder)).1 hheight
  case h_5 => trivial

/-- **The accessors agree with the storage order exactly for the tensors that are regular.** -/
theorem geometry_iff (hrank : info.RightRank) (h : info.Contiguous) :
    info.Geometry ↔ info.Regular := by
  constructor
  · intro g
    have hinsensitive := Insensitive.of_geometry h hrank g
    refine ⟨(getTensorSize_eq_iff h).1 g.tensorSize, ?_, hinsensitive⟩
    have hW : info.extent .W < 2 ^ 31 := by
      by_cases horder : info.order = .WHC
      · rw [Insensitive, horder] at hinsensitive
        rw [hinsensitive .W (by decide)]
        norm_num
      · exact (dim_eq_iff hrank (getWidth.table_eq horder)).1 g.width
    have hH := (dim_eq_iff hrank (getHeight.table_eq _)).1 g.height
    have hC := (dim_eq_iff hrank (getChannels.table_eq _)).1 g.channels
    simp only [List.forall_mem_cons, List.not_mem_nil, false_implies, implies_true, and_true]
    exact ⟨hW, hH, hC⟩
  · rintro ⟨hsmall, hextents, hinsensitive⟩
    rw [Insensitive] at hinsensitive
    have hextent : ∀ {axis}, axis ∈ [Axis.W, .H, .C] → info.extent axis < 2 ^ 31 :=
      fun hmem => hextents _ hmem
    constructor
    case width =>
      by_cases horder : info.order = .WHC
      · rw [horder] at hinsensitive
        exact (width_iff_of_WHC hrank horder (hinsensitive .H (by decide))).2
          (hinsensitive .W (by decide))
      · exact (dim_eq_iff hrank (getWidth.table_eq horder)).2 (hextent (by decide))
    case height => exact (dim_eq_iff hrank (getHeight.table_eq _)).2 (hextent (by decide))
    case channels => exact (dim_eq_iff hrank (getChannels.table_eq _)).2 (hextent (by decide))
    case widthStride =>
      refine (stride_eq_iff hrank).2 ?_
      by_cases horder : info.order = .HCW
      · rw [horder] at hinsensitive
        exact (widthStride_iff_of_HCW h hrank horder).2 hinsensitive
      · rw [getWidthStride.table_eq horder, stride]
    case heightStride =>
      refine (stride_eq_iff hrank).2 ?_
      by_cases hwch : info.order = .WCH
      · rw [hwch] at hinsensitive
        exact (heightStride_iff_of_WCH_or_CWH h hrank (.inl hwch)).2 hinsensitive
      by_cases hcwh : info.order = .CWH
      · rw [hcwh] at hinsensitive
        exact (heightStride_iff_of_WCH_or_CWH h hrank (.inr hcwh)).2 hinsensitive
      rw [getHeightStride.table_eq hwch hcwh, stride]
    case channelStride =>
      refine (stride_eq_iff hrank).2 ?_
      by_cases horder : info.order = .WHC
      · rw [horder] at hinsensitive
        exact (channelStride_iff_of_WHC h hrank horder).2
          ⟨hinsensitive .H (by decide), hinsensitive .C (by decide)⟩
      · rw [getChannelStride.table_eq horder, stride]
    case bijOn_address => exact bijOn_address hrank h
    case tensorSize => exact (getTensorSize_eq_iff h).2 hsmall

/-- A tensor of bytes that is two wide, three high and has four channels, the width first. -/
def sampleWHC : TensorInfo ℚ where
  order := .WHC
  dataType := .U8F
  numDimensions := 3
  dims := [2, 3, 4]
  strides := [12, 4, 1]
  name := "tensor"
  offset := 0
  qpScale := 1
  qpZp := 0

/-- The same tensor with the channels first, then height and width. -/
def sampleCHW : TensorInfo ℚ :=
  { sampleWHC with order := .CHW }

theorem geometry_iff_sample : sampleCHW.Geometry ↔ sampleCHW.Regular :=
  geometry_iff (by decide) (by decide)

/-- **With the width first, `getWidth` returns the height.** -/
theorem not_geometry : sampleWHC.RightRank ∧ sampleWHC.Contiguous ∧ ¬sampleWHC.Geometry := by
  refine ⟨by decide, by decide, fun g => ?_⟩
  have hwidth : sampleWHC.getWidth ≠ .ok (sampleWHC.extent .W) := by decide
  exact hwidth g.width

end TensorInfo

end DepthaiCore.NN
