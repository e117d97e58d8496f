import DepthaiCore.Lib.LittleEndian
import DepthaiCore.Lib.Loops
import DepthaiCore.Lib.Tiling
import Mathlib.Algebra.BigOperators.Fin

/-!
# Superblobs

A superblob is a blob followed by sixteen patches, one for each number of shaves. In front stands a
header with the sizes of the blob and of the patches, eight bytes each with the most significant
first. The constructor reads the header, compares the length of the data with the sum of the sizes,
and looks for a signature at the start of every patch that is not empty.

Sizes are signed numbers of 64 bits. The sum of the patch sizes is taken in an `int`, so every
addition there keeps the low 32 bits only, and offsets and the expected length are unsigned numbers
of 64 bits. An access outside the data has no defined outcome in the source; it has an outcome of its
own here.
-/

namespace DepthaiCore

namespace OpenVINO

/-- A byte vector. None is longer than a pointer difference can tell. -/
structure ByteVector where
  bytes : List UInt8
  length_lt : bytes.length < 2 ^ 63

def NUMBER_OF_PATCHES : ℕ := 16

namespace SuperBlob

/-- How the constructor fails. -/
inductive Failure
  /-- `std::invalid_argument` -/
  | invalidArgument (what : String)
  /-- An access outside the data, which has no defined outcome. -/
  | outOfBounds
  deriving DecidableEq, Repr

end SuperBlob

open SuperBlob

/-- `readInt64`, and the conversion of the result to a signed number. -/
def readInt64 (data : List UInt8) (pos : ℕ) : Except SuperBlob.Failure ℤ :=
  if pos + 8 ≤ data.length then
    .ok (Int.bmod (LittleEndian.decode ((data.drop pos).take 8).reverse) (2 ^ 64))
  else
    .error .outOfBounds

/-! ### The header -/

structure SuperBlobHeader where
  blobSize : ℤ
  patchSizes : List ℤ
  deriving DecidableEq, Repr

namespace SuperBlobHeader

def HEADER_SIZE : ℕ :=
  1 * 8 + NUMBER_OF_PATCHES * 8

def fromData (data : List UInt8) : Except SuperBlob.Failure SuperBlobHeader := do
  let blobSize ← readInt64 data 0
  let patchSizes ← (List.range NUMBER_OF_PATCHES).mapM fun i => readInt64 data (8 + 8 * i)
  return { blobSize, patchSizes }

end SuperBlobHeader

structure SuperBlob where
  header : SuperBlobHeader
  data : List UInt8
  deriving DecidableEq, Repr

namespace SuperBlob

open SuperBlobHeader

def loadAndCheckHeader (data : List UInt8) : Except Failure SuperBlob := do
  if data.length < HEADER_SIZE then
    throw (.invalidArgument ("Invalid superblob data: not enough bytes for the header: " ++
      toString data.length ++ " Data should be at least " ++ toString HEADER_SIZE ++ " bytes long."))
  let header ← SuperBlobHeader.fromData data
  return { header, data }

variable (sb : SuperBlob)

/-! ### The ranges -/

/-- `std::accumulate` of sizes from the `int` zero on. -/
def accumulate (sizes : List ℤ) : ℤ :=
  sizes.foldl (fun acc size => Int.bmod (acc + size) (2 ^ 32)) 0

/-- A number as a `uint64_t`. -/
def toUInt64 (n : ℤ) : ℕ :=
  (n % 2 ^ 64).toNat

/-- The offset of `SuperBlob::getBlobDataPointer`. -/
def getBlobDataPointer : ℕ :=
  HEADER_SIZE

def getBlobDataSize : ℤ :=
  sb.header.blobSize

/-- The offset of `SuperBlob::getPatchDataPointer`. -/
def getPatchDataPointer (numShaves : ℕ) : ℕ :=
  toUInt64 (HEADER_SIZE + sb.header.blobSize +
    accumulate (sb.header.patchSizes.take (numShaves - 1)))

def getPatchDataSize (numShaves : ℕ) : ℤ :=
  sb.header.patchSizes.getD (numShaves - 1) 0

/-! ### The checks -/

/-- `"BSDIFF"` -/
def signature : List UInt8 :=
  [66, 83, 68, 73, 70, 70]

/-- Whether the bytes at an offset are the given ones: `memcmp`. -/
def equalAt (pos : ℕ) (bytes : List UInt8) : Except Failure Bool :=
  if pos + bytes.length ≤ sb.data.length then
    .ok ((sb.data.drop pos).take bytes.length == bytes)
  else
    .error .outOfBounds

def expectedSize : ℕ :=
  toUInt64 (HEADER_SIZE + sb.header.blobSize + accumulate sb.header.patchSizes)

/-- The check of one patch. -/
def validatePatch (numShaves : ℕ) : Except Failure PUnit := do
  if sb.getPatchDataSize numShaves = 0 then
    return
  unless ← sb.equalAt (sb.getPatchDataPointer numShaves) signature do
    throw (.invalidArgument ("Invalid superblob data: patch " ++ toString numShaves ++
      " is not a valid bsdiff patch."))

def validateSuperblob : Except Failure PUnit := do
  if sb.expectedSize ≠ sb.data.length then
    throw (.invalidArgument ("Invalid superblob data: size mismatch. Expected " ++
      toString sb.expectedSize ++ " bytes, got " ++ toString sb.data.length ++ " bytes."))
  (List.range NUMBER_OF_PATCHES).forM fun i => sb.validatePatch (i + 1)

/-- The constructor. -/
def ofData (data : ByteVector) : Except Failure SuperBlob := do
  let sb ← loadAndCheckHeader data.bytes
  sb.validateSuperblob
  return sb

/-! ### What the header derives -/

/-- Where the blob begins, and where the patch for `k` shaves does. -/
def rangeStart : ℕ → ℤ
  | 0 => getBlobDataPointer
  | i + 1 => sb.getPatchDataPointer (i + 1)

/-- How long the blob is, and how long the patch for `k` shaves is. -/
def rangeSize : ℕ → ℤ
  | 0 => sb.getBlobDataSize
  | i + 1 => sb.getPatchDataSize (i + 1)

/-- The blob and the patches tile the data after the header. -/
def Tiled : Prop :=
  Tiles (fun k : Fin (NUMBER_OF_PATCHES + 1) => sb.rangeStart k) (fun k => sb.rangeSize k)
    HEADER_SIZE sb.data.length

/-- The header is read inside the data, and the constructor throws unless the ranges tile the data
after the header. -/
def Safe (data : ByteVector) : Prop :=
  loadAndCheckHeader data.bytes ≠ .error .outOfBounds ∧
    ((∃ what, ofData data = .error (.invalidArgument what)) ∨
      ∃ sb, ofData data = .ok sb ∧ sb.data = data.bytes ∧ sb.Tiled)

/-! ### The sizes in the data -/

/-- The number in eight bytes of the data. -/
def field (data : List UInt8) (i : ℕ) : ℤ :=
  Int.bmod (LittleEndian.decode ((data.drop (8 * i)).take 8).reverse) (2 ^ 64)

/-- The sizes of the patches. -/
def patches (data : List UInt8) : List ℤ :=
  (List.range NUMBER_OF_PATCHES).map fun i => field data (i + 1)

/-- The offset behind the header, the blob and some patches whose sizes are added in 32 bits. -/
def behind (data : List UInt8) (sizes : List ℤ) : ℕ :=
  toUInt64 (HEADER_SIZE + field data 0 + Int.bmod sizes.sum (2 ^ 32))

/-- The bytes at the place of a patch, if the data has as many as the signature. -/
def mark (data : List UInt8) (i : ℕ) : Option (List UInt8) :=
  let pos := behind data ((patches data).take i)
  if pos + signature.length ≤ data.length then some ((data.drop pos).take signature.length) else none

/-- The patch passes: it is empty or has the signature. -/
def Passes (data : List UInt8) (i : ℕ) : Prop :=
  field data (i + 1) = 0 ∨ mark data i = some signature

/-- The patch is refused: it is not empty and has other bytes. -/
def Refused (data : List UInt8) (i : ℕ) : Prop :=
  field data (i + 1) ≠ 0 ∧ ∃ bytes, mark data i = some bytes ∧ bytes ≠ signature

/-- The header is incomplete, the length is not the sum of the sizes, a patch is refused and those
before it pass, or all of them pass and no size is negative or sum too large for an `int`. -/
def Orderly (data : List UInt8) : Prop :=
  data.length < HEADER_SIZE ∨ behind data (patches data) ≠ data.length ∨
    (∃ i < NUMBER_OF_PATCHES, (∀ j < i, Passes data j) ∧ Refused data i) ∨
    (∀ i < NUMBER_OF_PATCHES, Passes data i) ∧ 0 ≤ field data 0 ∧
      (∀ size ∈ patches data, 0 ≤ size) ∧ (patches data).sum < 2 ^ 31

/-! ### Reading the header -/

section Reading

variable {data : List UInt8} {i : ℕ}

theorem readInt64_eq (h : 8 * i + 8 ≤ data.length) :
    readInt64 data (8 * i) = .ok (field data i) :=
  if_pos h

/-- The superblob before it is validated. -/
def parsed (data : List UInt8) : SuperBlob :=
  ⟨⟨field data 0, patches data⟩, data⟩

theorem loadAndCheckHeader_of_le (h : HEADER_SIZE ≤ data.length) :
    loadAndCheckHeader data = .ok (parsed data) := by
  have hsize : HEADER_SIZE = 136 := rfl
  have hpatch : ∀ i ∈ List.range NUMBER_OF_PATCHES,
      readInt64 data (8 + 8 * i) = .ok (field data (i + 1)) := by
    intro i hi
    have hi : i < 16 := List.mem_range.1 hi
    rw [← readInt64_eq (by omega), Nat.mul_add, Nat.add_comm 8]
  have hfrom : fromData data = .ok ⟨field data 0, patches data⟩ := by
    rw [fromData, show (0 : ℕ) = 8 * 0 from rfl, readInt64_eq (by omega), Loop.ok_bind,
      Loop.mapM_eq_ok hpatch]
    rfl
  rw [loadAndCheckHeader, if_neg (Nat.not_lt.2 h), hfrom]
  rfl

theorem loadAndCheckHeader_of_lt (h : data.length < HEADER_SIZE) :
    ∃ what, loadAndCheckHeader data = .error (.invalidArgument what) :=
  ⟨_, by rw [loadAndCheckHeader, if_pos h]; rfl⟩

theorem loadAndCheckHeader_ne_outOfBounds : loadAndCheckHeader data ≠ .error .outOfBounds := by
  rcases Nat.lt_or_ge data.length HEADER_SIZE with h | h
  · obtain ⟨what, hthrow⟩ := loadAndCheckHeader_of_lt h
    rw [hthrow]
    intro heq
    cases heq
  · rw [loadAndCheckHeader_of_le h]
    intro heq
    cases heq

end Reading

/-! ### Validation -/

section Validation

variable {data : List UInt8} {i : ℕ}

/-- Adding up in an `int` loses multiples of `2 ^ 32` only. -/
theorem accumulate_eq (sizes : List ℤ) : accumulate sizes = Int.bmod sizes.sum (2 ^ 32) := by
  have hmain : ∀ (sizes : List ℤ) (acc : ℤ),
      sizes.foldl (fun acc size => Int.bmod (acc + size) (2 ^ 32)) (Int.bmod acc (2 ^ 32)) =
        Int.bmod (acc + sizes.sum) (2 ^ 32) := by
    intro sizes
    induction sizes with
    | nil => intro acc; rw [List.foldl_nil, List.sum_nil, add_zero]
    | cons size sizes ih =>
      intro acc
      rw [List.foldl_cons, Int.bmod_add_bmod, ih, List.sum_cons, add_assoc]
  have h := hmain sizes 0
  rw [zero_add, Int.zero_bmod] at h
  exact h

theorem length_patches : (patches data).length = NUMBER_OF_PATCHES := by
  rw [patches, List.length_map, List.length_range]

theorem getPatchDataSize_parsed (hi : i < NUMBER_OF_PATCHES) :
    (parsed data).getPatchDataSize (i + 1) = field data (i + 1) := by
  have hget : (patches data)[i]? = some (field data (i + 1)) := by
    rw [patches, List.getElem?_map, List.getElem?_range hi]
    rfl
  rw [getPatchDataSize, parsed, Nat.add_sub_cancel, List.getD_eq_getElem?_getD, hget,
    Option.getD_some]

theorem getPatchDataPointer_parsed :
    (parsed data).getPatchDataPointer (i + 1) = behind data ((patches data).take i) := by
  rw [getPatchDataPointer, accumulate_eq, behind, parsed, Nat.add_sub_cancel]

theorem expectedSize_parsed : (parsed data).expectedSize = behind data (patches data) := by
  rw [expectedSize, accumulate_eq, behind, parsed]

theorem equalAt_parsed : (parsed data).equalAt ((parsed data).getPatchDataPointer (i + 1)) signature =
    match mark data i with
    | some bytes => .ok (bytes == signature)
    | none => .error .outOfBounds := by
  rw [equalAt, getPatchDataPointer_parsed, mark, parsed]
  dsimp only
  split <;> rfl

theorem validatePatch_of_passes (hi : i < NUMBER_OF_PATCHES) (h : Passes data i) :
    (parsed data).validatePatch (i + 1) = .ok ⟨⟩ := by
  rw [validatePatch, getPatchDataSize_parsed hi, equalAt_parsed]
  by_cases hsize : field data (i + 1) = 0
  · exact if_pos hsize
  · rw [if_neg hsize, h.resolve_left hsize]
    rfl

theorem validatePatch_of_refused (hi : i < NUMBER_OF_PATCHES) (h : Refused data i) :
    ∃ what, (parsed data).validatePatch (i + 1) = .error (.invalidArgument what) := by
  obtain ⟨hsize, bytes, hmark, hbytes⟩ := h
  refine ⟨"Invalid superblob data: patch " ++ toString (i + 1) ++ " is not a valid bsdiff patch.", ?_⟩
  rw [validatePatch, getPatchDataSize_parsed hi, equalAt_parsed, if_neg hsize, hmark]
  dsimp only
  rw [beq_eq_false_iff_ne.2 hbytes]
  rfl

/-- A patch that neither passes nor is refused lies outside the data. -/
theorem validatePatch_of_outside (hi : i < NUMBER_OF_PATCHES) (hpasses : ¬Passes data i)
    (hrefused : ¬Refused data i) :
    (parsed data).validatePatch (i + 1) = .error .outOfBounds := by
  have hsize : field data (i + 1) ≠ 0 := fun h => hpasses (.inl h)
  have hmark : mark data i = none := by
    cases hmark : mark data i with
    | none => rfl
    | some bytes =>
      exact absurd ⟨hsize, bytes, hmark, fun h => hpasses (.inr (h ▸ hmark))⟩ hrefused
  rw [validatePatch, getPatchDataSize_parsed hi, equalAt_parsed, if_neg hsize, hmark]
  rfl

theorem validatePatch_eq_ok_iff (hi : i < NUMBER_OF_PATCHES) :
    (parsed data).validatePatch (i + 1) = .ok ⟨⟩ ↔ Passes data i := by
  refine ⟨fun h => by_contra fun hpasses => ?_, validatePatch_of_passes hi⟩
  by_cases hrefused : Refused data i
  · obtain ⟨what, hthrow⟩ := validatePatch_of_refused hi hrefused
    rw [h] at hthrow
    cases hthrow
  · rw [validatePatch_of_outside hi hpasses hrefused] at h
    cases h

theorem validateSuperblob_of_ne (h : behind data (patches data) ≠ data.length) :
    ∃ what, (parsed data).validateSuperblob = .error (.invalidArgument what) :=
  ⟨_, by rw [validateSuperblob, if_pos (by rw [expectedSize_parsed]; exact h)]; rfl⟩

theorem validateSuperblob_of_eq (h : behind data (patches data) = data.length) :
    (parsed data).validateSuperblob =
      (List.range NUMBER_OF_PATCHES).forM fun i => (parsed data).validatePatch (i + 1) := by
  rw [validateSuperblob, if_neg (by rw [expectedSize_parsed]; exact not_not_intro h)]

theorem validateSuperblob_eq_ok_iff (h : behind data (patches data) = data.length) :
    (parsed data).validateSuperblob = .ok ⟨⟩ ↔ ∀ i < NUMBER_OF_PATCHES, Passes data i := by
  rw [validateSuperblob_of_eq h, Loop.forM_range_eq_ok_iff]
  exact forall₂_congr fun i hi => validatePatch_eq_ok_iff hi

/-- Validation throws if the first patch that does not pass is refused. -/
theorem validateSuperblob_throws_iff (h : behind data (patches data) = data.length) :
    (∃ what, (parsed data).validateSuperblob = .error (.invalidArgument what)) ↔
      ∃ i < NUMBER_OF_PATCHES, (∀ j < i, Passes data j) ∧ Refused data i := by
  rw [validateSuperblob_of_eq h]
  constructor
  · rintro ⟨what, hthrow⟩
    obtain ⟨i, hi, hfirst, hlast⟩ := Loop.forM_range_eq_error_iff.1 hthrow
    refine ⟨i, hi, fun j hj => (validatePatch_eq_ok_iff (hj.trans hi)).1 (hfirst j hj), ?_⟩
    by_contra hrefused
    by_cases hpasses : Passes data i
    · rw [validatePatch_of_passes hi hpasses] at hlast
      cases hlast
    · rw [validatePatch_of_outside hi hpasses hrefused] at hlast
      cases hlast
  · rintro ⟨i, hi, hfirst, hrefused⟩
    obtain ⟨what, hthrow⟩ := validatePatch_of_refused hi hrefused
    exact ⟨what, Loop.forM_range_eq_error_iff.2
      ⟨i, hi, fun j hj => validatePatch_of_passes (hj.trans hi) (hfirst j hj), hthrow⟩⟩

end Validation

/-! ### The ranges -/

section Ranges

variable {data : List UInt8}

theorem cast_HEADER_SIZE : (HEADER_SIZE : ℤ) = 136 := by
  norm_num [HEADER_SIZE, NUMBER_OF_PATCHES]

theorem field_lt (i : ℕ) : field data i < 2 ^ 63 := by
  have hpos : 0 < 2 ^ 64 := by norm_num
  have h := Int.bmod_lt (x := LittleEndian.decode ((data.drop (8 * i)).take 8).reverse) hpos
  unfold field
  omega

theorem behind_eq {sizes : List ℤ} (hblob : 0 ≤ field data 0) (hnonneg : 0 ≤ sizes.sum)
    (hlt : sizes.sum < 2 ^ 31) :
    (behind data sizes : ℤ) = HEADER_SIZE + field data 0 + sizes.sum := by
  have hfield : field data 0 < 2 ^ 63 := field_lt 0
  have hsize := cast_HEADER_SIZE
  rw [behind, Int.bmod_eq_of_le_mul_two (by omega) (by norm_num; omega), toUInt64, hsize,
    Int.toNat_of_nonneg (Int.emod_nonneg _ (by norm_num)), Int.emod_eq_of_lt (by omega) (by omega)]

theorem rangeSize_zero : (parsed data).rangeSize 0 = field data 0 := by
  rw [rangeSize, getBlobDataSize, parsed]

theorem rangeSize_succ {i : ℕ} (hi : i < NUMBER_OF_PATCHES) :
    (parsed data).rangeSize (i + 1) = field data (i + 1) :=
  getPatchDataSize_parsed hi

theorem rangeStart_succ (i : ℕ) :
    (parsed data).rangeStart (i + 1) = behind data ((patches data).take i) :=
  congrArg Nat.cast getPatchDataPointer_parsed

theorem sum_rangeSize :
    ∑ k : Fin (NUMBER_OF_PATCHES + 1), (parsed data).rangeSize k =
      field data 0 + (patches data).sum := by
  have hpatches : ∑ i : Fin NUMBER_OF_PATCHES, field data (i + 1) = (patches data).sum := by
    rw [Fin.sum_univ_eq_sum_range fun i => field data (i + 1)]
    rfl
  rw [Fin.sum_univ_succ, ← hpatches, Fin.val_zero, rangeSize_zero]
  simp only [Fin.val_succ, rangeSize_succ (Fin.is_lt _)]

/-- **With the length that the header announces, the ranges tile where no size is negative and the
patch sizes fit.** -/
theorem tiled_parsed_iff (hlength : data.length < 2 ^ 63) (hheader : HEADER_SIZE ≤ data.length)
    (h : behind data (patches data) = data.length) :
    (parsed data).Tiled ↔
      0 ≤ field data 0 ∧ (∀ size ∈ patches data, 0 ≤ size) ∧ (patches data).sum < 2 ^ 31 := by
  constructor
  · intro htiles
    have hle : (HEADER_SIZE : ℤ) ≤ data.length := Int.ofNat_le.2 hheader
    have hsum : field data 0 + (patches data).sum = data.length - HEADER_SIZE := by
      rw [← sum_rangeSize]
      exact htiles.sum_size hle
    have hnonneg : ∀ i < NUMBER_OF_PATCHES + 1, 0 ≤ (parsed data).rangeSize i := fun i hi =>
      htiles.size_nonneg ⟨i, hi⟩
    have hblob : 0 ≤ field data 0 := by
      rw [← rangeSize_zero]
      exact hnonneg 0 (Nat.succ_pos _)
    have hpatches : ∀ size ∈ patches data, 0 ≤ size := by
      intro size hmem
      obtain ⟨i, hi, rfl⟩ := List.mem_map.1 hmem
      rw [← rangeSize_succ (List.mem_range.1 hi)]
      exact hnonneg (i + 1) (Nat.succ_lt_succ (List.mem_range.1 hi))
    have hpos := List.sum_nonneg hpatches
    refine ⟨hblob, hpatches, ?_⟩
    -- The sum and its remainder differ by a multiple of `2 ^ 64` now, and both are small.
    have hle := Int.bmod_lt (x := (patches data).sum) (m := 2 ^ 32) (by norm_num)
    have hge := Int.le_bmod (x := (patches data).sum) (m := 2 ^ 32) (by norm_num)
    have hsize := cast_HEADER_SIZE
    rw [behind, toUInt64] at h
    omega
  · rintro ⟨hblob, hpatches, hlt⟩
    have hnonneg := List.sum_nonneg hpatches
    have hend : (data.length : ℤ) = HEADER_SIZE + (field data 0 :: patches data).sum := by
      rw [← h, behind_eq hblob hnonneg hlt, List.sum_cons, add_assoc]
    show Tiles _ _ _ (data.length : ℤ)
    rw [hend]
    refine tiles_of_consecutive (by rw [List.length_cons, length_patches]) ?_ ?_ ?_
    · rw [List.forall_mem_cons]
      exact ⟨hblob, hpatches⟩
    · refine Fin.cases ?_ fun i => ?_
      · rw [Fin.val_zero, List.take_zero, List.sum_nil, add_zero]
        rfl
      · have htake : ((patches data).take i).sum ≤ (patches data).sum := by
          conv_rhs => rw [← List.take_append_drop i (patches data), List.sum_append]
          have hdrop : 0 ≤ ((patches data).drop i).sum :=
            List.sum_nonneg fun s hs => hpatches s (List.mem_of_mem_drop hs)
          omega
        have htake' : 0 ≤ ((patches data).take i).sum :=
          List.sum_nonneg fun s hs => hpatches s (List.mem_of_mem_take hs)
        rw [Fin.val_succ, rangeStart_succ, behind_eq hblob htake' (by omega),
          List.take_succ_cons, List.sum_cons, add_assoc]
    · refine Fin.cases ?_ fun i => ?_
      · rw [Fin.val_zero, rangeSize_zero]
        rfl
      · rw [Fin.val_succ, rangeSize_succ i.2, List.getElem?_cons_succ, patches, List.getElem?_map,
          List.getElem?_range i.2]
        rfl

end Ranges

/-! ### The constructor -/

variable {data : ByteVector}

theorem ofData_of_lt (h : data.bytes.length < HEADER_SIZE) :
    ∃ what, ofData data = .error (.invalidArgument what) := by
  obtain ⟨what, hload⟩ := loadAndCheckHeader_of_lt h
  exact ⟨what, by rw [ofData, hload]; rfl⟩

theorem ofData_of_le (h : HEADER_SIZE ≤ data.bytes.length) :
    ofData data = ((parsed data.bytes).validateSuperblob >>= fun _ => .ok (parsed data.bytes)) := by
  rw [ofData, loadAndCheckHeader_of_le h, Loop.ok_bind]
  rfl

theorem ofData_throws_iff (h : HEADER_SIZE ≤ data.bytes.length) :
    (∃ what, ofData data = .error (.invalidArgument what)) ↔
      ∃ what, (parsed data.bytes).validateSuperblob = .error (.invalidArgument what) := by
  refine exists_congr fun what => ?_
  rw [ofData_of_le h, Loop.bind_eq_error]
  refine or_iff_left ?_
  rintro ⟨u, -, hthrow⟩
  nomatch hthrow

theorem ofData_eq_ok_iff (h : HEADER_SIZE ≤ data.bytes.length) {sb : SuperBlob} :
    ofData data = .ok sb ↔
      (parsed data.bytes).validateSuperblob = .ok ⟨⟩ ∧ parsed data.bytes = sb := by
  rw [ofData_of_le h, Loop.bind_eq_ok]
  constructor
  · rintro ⟨u, hvalid, hsb⟩
    exact ⟨hvalid, Except.ok.inj hsb⟩
  · rintro ⟨hvalid, hsb⟩
    exact ⟨⟨⟩, hvalid, congrArg _ hsb⟩

/-- **The constructor throws or the ranges tile, exactly for orderly data.** -/
theorem safe_iff (data : ByteVector) : Safe data ↔ Orderly data.bytes := by
  rw [Safe, Orderly, and_iff_right loadAndCheckHeader_ne_outOfBounds]
  rcases Nat.lt_or_ge data.bytes.length HEADER_SIZE with hheader | hheader
  · exact iff_of_true (.inl (ofData_of_lt hheader)) (.inl hheader)
  rw [or_iff_right (Nat.not_lt.2 hheader), ofData_throws_iff hheader]
  by_cases hsize : behind data.bytes (patches data.bytes) = data.bytes.length
  · rw [or_iff_right (not_not_intro hsize), validateSuperblob_throws_iff hsize]
    refine or_congr_right ?_
    rw [← validateSuperblob_eq_ok_iff hsize, ← tiled_parsed_iff data.length_lt hheader hsize]
    constructor
    · rintro ⟨sb, hsb, -, htiled⟩
      obtain ⟨hvalid, rfl⟩ := (ofData_eq_ok_iff hheader).1 hsb
      exact ⟨hvalid, htiled⟩
    · rintro ⟨hvalid, htiled⟩
      exact ⟨_, (ofData_eq_ok_iff hheader).2 ⟨hvalid, rfl⟩, rfl, htiled⟩
  · exact iff_of_true (.inl (validateSuperblob_of_ne hsize)) (.inl hsize)

/-- An empty blob, a first patch of `2 ^ 32 + 6` bytes by the header, and six bytes after it. -/
def largePatch : ByteVector where
  bytes := List.replicate 8 0 ++ [0, 0, 0, 1, 0, 0, 0, 6] ++ List.replicate 120 0 ++ signature
  length_lt := by simp [signature]

/-- **A patch size beyond `2 ^ 32` is accepted, and the patch does not lie in the data.** -/
theorem not_safe : ¬Safe largePatch := by
  have hload : loadAndCheckHeader largePatch.bytes = .ok (parsed largePatch.bytes) :=
    loadAndCheckHeader_of_le (by decide +kernel)
  have hvalid : (parsed largePatch.bytes).validateSuperblob = .ok ⟨⟩ := by decide +kernel
  have hok : ofData largePatch = .ok (parsed largePatch.bytes) := by
    rw [ofData, hload, Loop.ok_bind, hvalid]
    rfl
  rintro ⟨-, ⟨what, hthrow⟩ | ⟨sb, hsb, -, htiled⟩⟩
  · rw [hok] at hthrow
    nomatch hthrow
  · rw [hok] at hsb
    rw [← Except.ok.inj hsb] at htiled
    have hinside : (parsed largePatch.bytes).rangeStart 1 + (parsed largePatch.bytes).rangeSize 1 ≤
        largePatch.bytes.length := (htiled.inside 1).2
    have houtside : ¬(parsed largePatch.bytes).rangeStart 1 +
        (parsed largePatch.bytes).rangeSize 1 ≤ largePatch.bytes.length := by decide +kernel
    exact houtside hinside

end SuperBlob

end OpenVINO

end DepthaiCore
