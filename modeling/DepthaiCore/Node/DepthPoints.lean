import DepthaiCore.Common.ImgTransformation
import DepthaiCore.Lib.LittleEndian
import DepthaiCore.Lib.ParallelRows
import DepthaiCore.Utility.ImageManip

/-!
# Points of depth pixels

What the nodes that make point clouds read: depth values of two bytes, and three bytes of colour for
each pixel. The nodes take the pixels to follow each other without gaps, as they do in a packed
frame.

Floats are of any type with the operations. A read outside the bytes and an overflow of a signed
number have no defined outcome in the source; they have an outcome of their own here.
-/

namespace DepthaiCore

open MatrixOps

structure Point3fRGBA (F : Type) where
  x : F
  y : F
  z : F
  r : UInt8
  g : UInt8
  b : UInt8
  a : UInt8 := 255
  deriving DecidableEq, Repr

namespace DepthPoints

/-- How a computation ends without points. -/
inductive PointFault
  | thrown (what : String)
  /-- A read or write outside an array, an overflow of a signed number, or a division by zero. -/
  | undefined
  deriving DecidableEq, Repr

/-- The depth value of pixel `i`. -/
def depthAt (depthData : List UInt8) (i : ℕ) : Except PointFault ℕ :=
  if 2 * i + 2 ≤ depthData.length then
    .ok (LittleEndian.decode ((depthData.drop (2 * i)).take 2))
  else .error .undefined

/-- Byte `k` of the colours. -/
def byteAt (colorData : List UInt8) (k : ℕ) : Except PointFault UInt8 :=
  match colorData[k]? with
  | some byte => .ok byte
  | none => .error .undefined

/-- The colour of pixel `i`. -/
def colorAt (colorData : List UInt8) (i : ℕ) : Except PointFault (UInt8 × UInt8 × UInt8) := do
  let r ← byteAt colorData (i * 3 + 0)
  let g ← byteAt colorData (i * 3 + 1)
  let b ← byteAt colorData (i * 3 + 2)
  return (r, g, b)

/-! ### Frames -/

/-- What the nodes read of an `ImgFrame`. -/
structure ImgFrame (K : Type) [Field K] where
  type : ImgFrameType
  width : UInt32
  height : UInt32
  stride : UInt32
  instanceNum : UInt32
  transformation : ImgTransformation K
  data : List UInt8

namespace ImgFrame

variable {K : Type} [Field K]

/-- The distance of two rows, with this many bytes for a pixel; a stride of zero means packed rows.
-/
def rowBytes (bytesPP : ℕ) (frame : ImgFrame K) : ℕ :=
  if frame.stride = 0 then bytesPP * frame.width.toNat else frame.stride.toNat

/-- The bytes of a pixel. -/
def pixel (bytesPP : ℕ) (frame : ImgFrame K) (row col : ℕ) : List UInt8 :=
  (frame.data.drop (row * frame.rowBytes bytesPP + bytesPP * col)).take bytesPP

/-- The data has all pixels. -/
def Holds (bytesPP : ℕ) (frame : ImgFrame K) : Prop :=
  ∀ row < frame.height.toNat, ∀ col < frame.width.toNat,
    row * frame.rowBytes bytesPP + bytesPP * col + bytesPP ≤ frame.data.length

/-- Rows follow each other without gaps. -/
def Packed (bytesPP : ℕ) (frame : ImgFrame K) : Prop :=
  frame.rowBytes bytesPP = bytesPP * frame.width.toNat

/-- The depth value of a pixel. -/
def depthPixel (frame : ImgFrame K) (row col : ℕ) : ℕ :=
  LittleEndian.decode (frame.pixel 2 row col)

/-- The colour of a pixel. -/
def colorPixel (frame : ImgFrame K) (row col : ℕ) : UInt8 × UInt8 × UInt8 :=
  let bytes := frame.pixel 3 row col
  (bytes.getD 0 0, bytes.getD 1 0, bytes.getD 2 0)

end ImgFrame

/-! ### Threads -/

/-- The order in which the writes of threads come. -/
structure Schedule (α : Type) where
  merge : List (List α) → List α
  interleaving : ∀ tasks, ParallelRows.Interleaving tasks (merge tasks)

/-- One thread after another. -/
def Schedule.sequential (α : Type) : Schedule α where
  merge := List.flatten
  interleaving := ParallelRows.interleaving_flatten

/-! ### Reads -/

section Reads

variable {data : List UInt8} {i : ℕ}

theorem depthAt_eq_ok (h : 2 * i + 2 ≤ data.length) :
    depthAt data i = .ok (LittleEndian.decode ((data.drop (2 * i)).take 2)) :=
  if_pos h

theorem colorAt_eq_ok (h : i * 3 + 2 < data.length) :
    colorAt data i = .ok (data[i * 3], data[i * 3 + 1], data[i * 3 + 2]) := by
  have hbyte : ∀ k, (hk : k < data.length) → byteAt data k = .ok data[k] := fun k hk => by
    rw [byteAt, List.getElem?_eq_getElem hk]
  rw [colorAt, hbyte _ (by omega), hbyte _ (by omega), hbyte _ h]
  rfl

end Reads

/-! ### Pixels of packed frames -/

section Packed

variable {K : Type} [Field K] {frame : ImgFrame K} {row col : ℕ}

theorem depthAt_packed (hholds : frame.Holds 2) (hpacked : frame.Packed 2)
    (hrow : row < frame.height.toNat) (hcol : col < frame.width.toNat) :
    depthAt frame.data (row * frame.width.toNat + col) = .ok (frame.depthPixel row col) := by
  have hplace : 2 * (row * frame.width.toNat + col) = row * frame.rowBytes 2 + 2 * col := by
    rw [hpacked]
    ring
  rw [depthAt_eq_ok (by rw [hplace]; exact hholds row hrow col hcol), hplace]
  rfl

theorem colorAt_packed (hholds : frame.Holds 3) (hpacked : frame.Packed 3)
    (hrow : row < frame.height.toNat) (hcol : col < frame.width.toNat) :
    colorAt frame.data (row * frame.width.toNat + col) = .ok (frame.colorPixel row col) := by
  have hplace : (row * frame.width.toNat + col) * 3 = row * frame.rowBytes 3 + 3 * col := by
    rw [hpacked]
    ring
  have hlt := hholds row hrow col hcol
  have hbyte : ∀ k, (hk : k < 3) →
      (frame.pixel 3 row col).getD k 0 = frame.data[row * frame.rowBytes 3 + 3 * col + k] := by
    intro k hk
    rw [List.getD_eq_getElem?_getD, ImgFrame.pixel, List.getElem?_take_of_lt hk,
      List.getElem?_drop, List.getElem?_eq_getElem, Option.getD_some]
  rw [colorAt_eq_ok (by omega)]
  simp only [ImgFrame.colorPixel, hbyte _ (by omega : 0 < 3), hbyte _ (by omega : 1 < 3),
    hbyte _ (by omega : 2 < 3), hplace, Nat.add_zero]

end Packed

end DepthPoints

end DepthaiCore
