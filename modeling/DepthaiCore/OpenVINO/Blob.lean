import DepthaiCore.Lib.LittleEndian
import DepthaiCore.Lib.Loops
import Mathlib.Data.List.AList

/-!
# Blobs

The constructor of a blob looks for the mark of a VPUX blob at the fifth byte. Without it the bytes
are those of a file for the VPU, and `BlobReader::parse` reads the descriptions of the inputs and
outputs. Offsets, counts and lengths there are unsigned numbers of 32 bits, and their sums keep 32
bits; the bounds check of `readFromBlob` is made in 64 bits.

An access outside the bytes has no defined outcome in the source; it has an outcome of its own here.
The parser checks the length before it reads. The constructor does not: it compares four bytes of
data of any length. The comparison is `std::equal`, and the range of four bytes that it is given has
to be there, whichever of them it comes to read.
-/

namespace DepthaiCore

namespace OpenVINO

open Loop (Post)

/-- The exceptions of the standard library that are thrown. -/
inductive Exception
  | lengthError (what : String)
  | logicError (what : String)
  | runtimeError (what : String)
  | outOfRange
  deriving DecidableEq, Repr

namespace BlobReader

/-- How the constructor fails. -/
inductive Failure
  | thrown (exception : Exception)
  /-- An access outside the bytes, which has no defined outcome. -/
  | outOfBounds
  deriving DecidableEq, Repr

/-! ### Reading -/

/-- `n` bytes of memory behind `pos`. -/
def load (blob : List UInt8) (pos n : ℕ) : Except Failure (List UInt8) :=
  if pos + n ≤ blob.length then .ok ((blob.drop pos).take n) else .error .outOfBounds

/-- The number that bytes spell, in 32 bits. -/
def word (bytes : List UInt8) : UInt32 :=
  UInt32.ofNat (LittleEndian.decode bytes)

def corrupted : Exception :=
  .lengthError "BlobReader error: Filesize is less than blob specifies. Likely corrupted"

/-- `readFromBlob` for a type of `size` bytes: the bytes, and the offset behind them. -/
def readFromBlob (blob : List UInt8) (size : ℕ) (offset : UInt32) :
    Except Failure (List UInt8 × UInt32) :=
  if blob.length < offset.toNat + size then .error (.thrown corrupted)
  else do
    let bytes ← load blob offset.toNat size
    return (bytes, offset + UInt32.ofNat size)

/-- `readFromBlob` for `uint32_t` and `int32_t`. -/
def readWord (blob : List UInt8) (offset : UInt32) : Except Failure (UInt32 × UInt32) := do
  let (bytes, offset) ← readFromBlob blob 4 offset
  return (word bytes, offset)

/-- `readFromBlob` for `char`. -/
def readChar (blob : List UInt8) (offset : UInt32) : Except Failure (UInt8 × UInt32) := do
  let (bytes, offset) ← readFromBlob blob 1 offset
  return (bytes.headD 0, offset)

/-- A loop that reads `n` values, one behind the other. -/
def readMany {β : Type} (read : UInt32 → Except Failure (β × UInt32)) (n : ℕ) (offset : UInt32) :
    Except Failure (List β × UInt32) :=
  (List.range n).foldlM (fun s _ => do
    let (value, offset) ← read s.2
    return (s.1 ++ [value], offset)) ([], offset)

/-! ### The header -/

/-- `sizeof(ElfN_Ehdr)` -/
def elfHeaderSize : ℕ := 52

/-- `sizeof(mv_blob_header)` -/
def blobHeaderSize : ℕ := 80

def BLOB_MAGIC_NUMBER : UInt32 := 9709

/-- `mv_blob_header`, the members that are used. -/
structure MvBlobHeader where
  magicNumber : UInt32
  fileSize : UInt32
  blobVerMajor : UInt32
  blobVerMinor : UInt32
  inputsCount : UInt32
  outputsCount : UInt32
  stagesCount : UInt32
  numberOfCmxSlices : UInt32
  numberOfShaves : UInt32
  inputInfoSectionOffset : UInt32
  outputInfoSectionOffset : UInt32
  constDataSectionOffset : UInt32
  deriving DecidableEq, Repr

/-- The header in its bytes, twenty words. -/
def MvBlobHeader.ofBytes (bytes : List UInt8) : MvBlobHeader :=
  let member (i : ℕ) : UInt32 := word ((bytes.drop (4 * i)).take 4)
  { magicNumber := member 0
    fileSize := member 1
    blobVerMajor := member 2
    blobVerMinor := member 3
    inputsCount := member 4
    outputsCount := member 5
    stagesCount := member 6
    numberOfCmxSlices := member 11
    numberOfShaves := member 12
    inputInfoSectionOffset := member 16
    outputInfoSectionOffset := member 17
    constDataSectionOffset := member 19 }

/-! ### The inputs and outputs -/

/-- `TensorInfo`, the members that the parser sets; the enumerations hold any number. -/
structure TensorInfo where
  order : Int32
  dataType : Int32
  numDimensions : UInt32
  dims : List UInt32
  name : List UInt8
  offset : UInt32
  deriving DecidableEq

/-- `readIO`: the description, and the offset behind it. -/
def readIo (header : MvBlobHeader) (blob : List UInt8) (ioSectionOffset idx : UInt32) :
    Except Failure (TensorInfo × UInt32) := do
  let (ioIdx, ioSectionOffset) ← readWord blob ioSectionOffset
  if ioIdx ≠ idx then
    throw (.thrown (.runtimeError ("BlobReader failed on I/O processing, its' ioIdx parameter " ++
      "(which is " ++ toString ioIdx ++ ") is different from its' processing order (which is " ++
      toString idx ++ ")")))
  let (ioBufferOffset, ioSectionOffset) ← readWord blob ioSectionOffset
  let (nameLength, ioSectionOffset) ← readWord blob ioSectionOffset
  let (ioName, ioSectionOffset) ← readMany (readChar blob) nameLength.toNat ioSectionOffset
  let (dataType, ioSectionOffset) ← readWord blob ioSectionOffset
  let (orderCode, ioSectionOffset) ← readWord blob ioSectionOffset
  let (numDims, ioSectionOffset) ← readWord blob ioSectionOffset
  let (_, ioSectionOffset) ← readWord blob ioSectionOffset
  let (dimsLocation, ioSectionOffset) ← readWord blob ioSectionOffset
  let dimsOffset := header.constDataSectionOffset + dimsLocation
  -- Skip strides' location and offset
  let ioSectionOffset := ioSectionOffset + 2 * 4
  let (dims, _) ← readMany (readWord blob) numDims.toNat dimsOffset
  return (
    { order := orderCode.toInt32
      dataType := dataType.toInt32
      numDimensions := numDims
      dims
      -- Truncate zeros
      name := ioName.takeWhile (· ≠ 0)
      offset := ioBufferOffset }, ioSectionOffset)

/-- `"@shape"` -/
def shapeMark : List UInt8 :=
  [64, 115, 104, 97, 112, 101]

def isIOShapeName (name : List UInt8) : Bool :=
  name.tails.any shapeMark.isPrefixOf

/-- Descriptions by name. -/
abbrev TensorMap := AList fun _ : List UInt8 => TensorInfo

/-- The loop over the inputs, or the outputs. -/
def readSection (header : MvBlobHeader) (blob : List UInt8) (count sectionOffset : UInt32) :
    Except Failure TensorMap := do
  let (tensors, _) ← (List.range count.toNat).foldlM (fun s i => do
    let (processed, sectionOffset) ← readIo header blob s.2 (UInt32.ofNat i)
    return (if isIOShapeName processed.name then s.1 else s.1.insert processed.name processed,
      sectionOffset)) ((∅ : TensorMap), sectionOffset)
  return tensors

end BlobReader

open BlobReader

/-- `BlobReader`, once it has parsed. -/
structure BlobReader where
  blobHeader : MvBlobHeader
  networkInputs : TensorMap
  networkOutputs : TensorMap

def BlobReader.parse (blob : List UInt8) : Except Failure BlobReader := do
  if blob.isEmpty ∨ blob.length < elfHeaderSize + blobHeaderSize then
    throw (.thrown (.logicError "BlobReader error: Blob is empty"))
  let blobHeader := MvBlobHeader.ofBytes (← load blob elfHeaderSize blobHeaderSize)
  if blobHeader.magicNumber ≠ BLOB_MAGIC_NUMBER then
    throw (.thrown (.logicError
      "BlobReader error: File does not seem to be a supported neural network blob"))
  if blob.length < blobHeader.fileSize.toNat then
    throw (.thrown corrupted)
  let networkInputs ← readSection blobHeader blob blobHeader.inputsCount
    blobHeader.inputInfoSectionOffset
  let networkOutputs ← readSection blobHeader blob blobHeader.outputsCount
    blobHeader.outputInfoSectionOffset
  return { blobHeader, networkInputs, networkOutputs }

/-! ### The constructor -/

inductive Version
  | VERSION_2020_3 | VERSION_2020_4 | VERSION_2021_1 | VERSION_2021_2 | VERSION_2021_3
  | VERSION_2021_4 | VERSION_2022_1 | VERSION_UNIVERSAL
  deriving DecidableEq, Repr

inductive Device
  | VPU | VPUX
  deriving DecidableEq, Repr

def blobVersionToOpenvinoGuessMapping : List ((UInt32 × UInt32) × Version) :=
  [((5, 0), .VERSION_2020_3), ((6, 0), .VERSION_2022_1), ((2020, 3), .VERSION_2020_3),
    ((2020, 4), .VERSION_2020_4), ((2021, 1), .VERSION_2021_1), ((2021, 2), .VERSION_2021_2),
    ((2021, 3), .VERSION_2021_3), ((2021, 4), .VERSION_2021_4), ((2022, 1), .VERSION_2022_1)]

def getBlobVersion (majorVersion minorVersion : UInt32) : Except Failure Version :=
  match blobVersionToOpenvinoGuessMapping.lookup (majorVersion, minorVersion) with
  | some version => .ok version
  | none => .error (.thrown .outOfRange)

structure Blob where
  version : Version
  device : Device
  networkInputs : TensorMap := ∅
  networkOutputs : TensorMap := ∅
  stageCount : UInt32 := 0
  numShaves : UInt32 := 0
  numSlices : UInt32 := 0
  data : List UInt8

namespace Blob

/-- The length of `vpuxBlobSkip`. -/
def vpuxBlobSkip : ℕ := 4

def vpuxBlobHeader : List UInt8 :=
  [0x42, 0x4C, 0x4F, 0x42]

def blobInit (data : List UInt8) : Except Failure Blob := do
  if (← load data vpuxBlobSkip vpuxBlobHeader.length) = vpuxBlobHeader then
    return { device := .VPUX, version := .VERSION_2022_1, data }
  let reader ← BlobReader.parse data
  let version ← getBlobVersion reader.blobHeader.blobVerMajor reader.blobHeader.blobVerMinor
  return {
    device := .VPU
    networkInputs := reader.networkInputs
    networkOutputs := reader.networkOutputs
    stageCount := reader.blobHeader.stagesCount
    numShaves := reader.blobHeader.numberOfShaves
    numSlices := reader.blobHeader.numberOfCmxSlices
    version
    data }

/-! ### Safety -/

/-- The `n` bytes from an offset on, if they are there; the offset has 32 bits. -/
def bytesAt (data : List UInt8) (start : UInt32) (n : ℕ) : Option (List UInt8) :=
  (List.range n).mapM fun i => data[(start + UInt32.ofNat i).toNat]?

/-- The word at an offset, if it is there. -/
def wordAt (data : List UInt8) (offset : UInt32) : Option UInt32 :=
  if offset.toNat + 4 ≤ data.length then some (word ((data.drop offset.toNat).take 4)) else none

/-- The `n` words from an offset on, if they are there; the offset has 32 bits. -/
def wordsAt (data : List UInt8) (start : UInt32) (n : ℕ) : Option (List UInt32) :=
  (List.range n).mapM fun i => wordAt data (start + UInt32.ofNat (4 * i))

/-- The name and the dimensions of a tensor stand in the data: the name is cut at its first zero. -/
structure Inside (data : List UInt8) (io : TensorInfo) : Prop where
  name : ∃ start n, (bytesAt data start n).map (List.takeWhile (· ≠ 0)) = some io.name
  dims : ∃ start, wordsAt data start io.numDimensions.toNat = some io.dims

/-- Every tensor is under its name, and stands in the data. -/
def Described (data : List UInt8) (tensors : TensorMap) : Prop :=
  ∀ name io, tensors.lookup name = some io → io.name = name ∧ Inside data io

/-- **The constructor is safe**: it throws, or the tensors it returns stand in the data. Bytes
outside the data are not read. -/
def Safe (data : List UInt8) : Prop :=
  Post (fun blob => blob.data = data ∧ Described data blob.networkInputs ∧
    Described data blob.networkOutputs) (· ≠ .outOfBounds) (blobInit data)

/-! ### What the parser reads -/

section Reading

variable {data : List UInt8}

theorem load_eq_ok {pos n : ℕ} (h : pos + n ≤ data.length) :
    load data pos n = .ok ((data.drop pos).take n) :=
  if_pos h

/-- **The bounds check of `readFromBlob` is enough.** -/
theorem post_readFromBlob (size : ℕ) (offset : UInt32) :
    Post (fun r => offset.toNat + size ≤ data.length ∧
        r = ((data.drop offset.toNat).take size, offset + UInt32.ofNat size))
      (· ≠ .outOfBounds) (readFromBlob data size offset) := by
  rw [readFromBlob]
  split_ifs with hsize
  · exact nofun
  · have hle : offset.toNat + size ≤ data.length := Nat.le_of_not_lt hsize
    rw [load_eq_ok hle]
    exact ⟨hle, rfl⟩

theorem post_readWord (offset : UInt32) :
    Post (fun r => wordAt data offset = some r.1 ∧ r.2 = offset + UInt32.ofNat 4)
      (· ≠ .outOfBounds) (readWord data offset) := by
  refine (post_readFromBlob 4 offset).bind ?_
  rintro _ ⟨hle, rfl⟩
  exact ⟨if_pos hle, rfl⟩

theorem post_readChar (offset : UInt32) :
    Post (fun r => data[offset.toNat]? = some r.1 ∧ r.2 = offset + UInt32.ofNat 1)
      (· ≠ .outOfBounds) (readChar data offset) := by
  refine (post_readFromBlob 1 offset).bind ?_
  rintro _ ⟨hle, rfl⟩
  refine ⟨?_, rfl⟩
  rw [List.getElem?_eq_getElem hle, List.drop_eq_getElem_cons hle]
  rfl

/-- A loop of reads stays inside the data if every read does. -/
theorem post_readMany {β : Type} {read : UInt32 → Except Failure (β × UInt32)} {size : ℕ}
    {valueAt : UInt32 → Option β}
    (hread : ∀ offset, Post (fun r => valueAt offset = some r.1 ∧ r.2 = offset + UInt32.ofNat size)
      (· ≠ .outOfBounds) (read offset)) (n : ℕ) (start : UInt32) :
    Post (fun r => (List.range n).mapM (fun i => valueAt (start + UInt32.ofNat (size * i))) =
      some r.1) (· ≠ .outOfBounds) (readMany read n start) := by
  have hloop : Post (fun s : List β × UInt32 =>
      (List.range n).mapM (fun i => valueAt (start + UInt32.ofNat (size * i))) = some s.1 ∧
        s.2 = start + UInt32.ofNat (size * n)) (· ≠ .outOfBounds) (readMany read n start) := by
    refine Loop.post_range (I := fun k (s : List β × UInt32) =>
      (List.range k).mapM (fun i => valueAt (start + UInt32.ofNat (size * i))) = some s.1 ∧
        s.2 = start + UInt32.ofNat (size * k)) ⟨rfl, by simp⟩ ?_
    rintro k ⟨values, offset⟩ - ⟨hvalues, rfl⟩
    refine (hread _).bind ?_
    rintro ⟨value, offset⟩ ⟨hvalue, rfl⟩
    have hnext : (List.range (k + 1)).mapM (fun i => valueAt (start + UInt32.ofNat (size * i))) =
        some (values ++ [value]) := by
      rw [List.range_succ, List.mapM_append, hvalues, List.mapM_cons, hvalue]
      rfl
    exact ⟨hnext, by rw [Nat.mul_succ, UInt32.ofNat_add, ← UInt32.add_assoc]⟩
  exact hloop.imp fun _ => And.left

/-- The description of an input or output stands in the data. -/
theorem post_readIo (header : MvBlobHeader) (ioSectionOffset idx : UInt32) :
    Post (fun r => Inside data r.1) (· ≠ .outOfBounds)
      (readIo header data ioSectionOffset idx) := by
  rw [readIo]
  refine (post_readWord _).bind ?_
  rintro ⟨ioIdx, ioSectionOffset⟩ -
  dsimp only
  split_ifs
  · exact nofun
  refine (post_readWord _).bind ?_
  rintro ⟨ioBufferOffset, ioSectionOffset⟩ -
  refine (post_readWord _).bind ?_
  rintro ⟨nameLength, nameOffset⟩ -
  refine (post_readMany post_readChar nameLength.toNat nameOffset).bind ?_
  rintro ⟨ioName, ioSectionOffset⟩ hname
  refine (post_readWord _).bind ?_
  rintro ⟨dataType, ioSectionOffset⟩ -
  refine (post_readWord _).bind ?_
  rintro ⟨orderCode, ioSectionOffset⟩ -
  refine (post_readWord _).bind ?_
  rintro ⟨numDims, ioSectionOffset⟩ -
  refine (post_readWord _).bind ?_
  rintro ⟨_, ioSectionOffset⟩ -
  refine (post_readWord _).bind ?_
  rintro ⟨dimsLocation, ioSectionOffset⟩ -
  refine (post_readMany post_readWord numDims.toNat
    (header.constDataSectionOffset + dimsLocation)).bind ?_
  rintro ⟨dims, _⟩ hdims
  refine ⟨⟨nameOffset, nameLength.toNat, ?_⟩, ⟨_, hdims⟩⟩
  have hbytes : bytesAt data nameOffset nameLength.toNat = some ioName := by
    simpa only [Nat.one_mul, bytesAt] using hname
  rw [hbytes]
  rfl

theorem described_empty : Described data ∅ := by
  intro name io h
  simp at h

theorem Described.insert {tensors : TensorMap} {io : TensorInfo} (h : Described data tensors)
    (hio : Inside data io) : Described data (tensors.insert io.name io) := by
  intro name io' hlookup
  by_cases hname : name = io.name
  · subst hname
    rw [AList.lookup_insert] at hlookup
    obtain rfl := Option.some.inj hlookup
    exact ⟨rfl, hio⟩
  · rw [AList.lookup_insert_ne hname] at hlookup
    exact h name io' hlookup

theorem post_readSection (header : MvBlobHeader) (count sectionOffset : UInt32) :
    Post (Described data) (· ≠ .outOfBounds) (readSection header data count sectionOffset) := by
  refine Post.bind (I := fun s : TensorMap × UInt32 => Described data s.1)
    (Loop.post_range (I := fun _ (s : TensorMap × UInt32) => Described data s.1)
      described_empty ?_) fun _ => id
  rintro i ⟨tensors, sectionOffset⟩ - htensors
  refine (post_readIo _ _ _).bind ?_
  rintro ⟨processed, sectionOffset⟩ hprocessed
  change Described data (if _ then _ else _)
  split_ifs
  · exact htensors
  · exact Described.insert htensors hprocessed

/-- **The parser stays inside the data.** -/
theorem post_parse : Post (fun reader : BlobReader => Described data reader.networkInputs ∧
    Described data reader.networkOutputs) (· ≠ .outOfBounds) (BlobReader.parse data) := by
  rw [BlobReader.parse]
  split
  · exact nofun
  · next hshort =>
    rw [load_eq_ok (Nat.le_of_not_lt (not_or.1 hshort).2)]
    refine Post.bind (I := fun _ => True) trivial fun bytes _ => ?_
    dsimp only
    split
    · exact nofun
    · split
      · exact nofun
      · refine (post_readSection _ _ _).bind fun networkInputs hinputs => ?_
        exact (post_readSection _ _ _).bind fun networkOutputs houtputs => ⟨hinputs, houtputs⟩

end Reading

theorem getBlobVersion_ne_outOfBounds (majorVersion minorVersion : UInt32) :
    Post (fun _ => True) (· ≠ .outOfBounds) (getBlobVersion majorVersion minorVersion) := by
  rw [getBlobVersion]
  split
  · trivial
  · exact nofun

/-- **The constructor is safe** on eight bytes and more, where the mark of a VPUX blob has its
place. -/
theorem blobInit_safe_iff (data : List UInt8) : Safe data ↔ 8 ≤ data.length := by
  rw [Safe, blobInit]
  constructor
  · intro h
    by_contra hshort
    have hload : load data vpuxBlobSkip vpuxBlobHeader.length = .error .outOfBounds := if_neg hshort
    rw [hload] at h
    exact h rfl
  · intro hle
    have hload : load data vpuxBlobSkip vpuxBlobHeader.length =
        .ok ((data.drop vpuxBlobSkip).take vpuxBlobHeader.length) := load_eq_ok hle
    rw [hload, Loop.ok_bind]
    split_ifs
    · exact ⟨rfl, described_empty, described_empty⟩
    · refine post_parse.bind fun reader hreader => ?_
      exact (getBlobVersion_ne_outOfBounds _ _).bind fun _ _ => ⟨rfl, hreader.1, hreader.2⟩

/-- **Without any bytes it reads behind them.** -/
theorem not_blobInit_safe : ¬Safe [] := by
  intro h
  exact h rfl

end Blob

end OpenVINO

end DepthaiCore
