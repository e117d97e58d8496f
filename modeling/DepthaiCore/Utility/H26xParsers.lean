import DepthaiCore.Lib.Whiles
import Mathlib.Algebra.Group.Nat.Defs
import Mathlib.Data.Nat.Log

/-!
# The frame types in a video stream

A stream of H.264 or H.265 is a sequence of NAL units with start codes between them. The parsers go
from unit to unit and read the headers up to the slice type. Bytes are read without a check, and
where a code of variable length would go past the end the process ends with status 30.

A `uint` has 32 bits, and a `ulong` is a natural number: there are fewer than `2 ^ 61` bytes. A
number that is shifted by 32 or more is shifted by the last five bits of the distance, as the
machine does it.
-/

namespace DepthaiCore

/-- What an evaluation must not come to: an index outside the vector, or a call of `exit`. -/
inductive Crash
  | outside
  | exit (status : ℕ)
  deriving DecidableEq, Repr

inductive SliceType
  | P | B | I | SP | SI | Unknown
  deriving DecidableEq, Repr

namespace H26x

inductive Profile
  | H264 | H265
  deriving DecidableEq, Repr

/-- A number as a `uint`. -/
def uint (n : ℕ) : ℕ := n % 2 ^ 32

/-- `1 << n`, as a `uint`. -/
def one (n : ℕ) : ℕ := 2 ^ (n % 32)

/-- The element of a vector with an index, `bs[i]`. -/
def index {α : Type} (l : List α) (i : ℕ) : Except Crash α :=
  match l[i]? with
  | some c => .ok c
  | none => .error .outside

def getSliceType (num : ℕ) : Profile → SliceType
  | .H264 =>
    match num with
    | 0 | 5 => .P
    | 1 | 6 => .B
    | 2 | 7 => .I
    | 3 | 8 => .SP
    | 4 | 9 => .SI
    | _ => .Unknown
  | .H265 =>
    match num with
    | 0 => .B
    | 1 => .P
    | 2 => .I
    | _ => .Unknown

/-! ### Start codes -/

/-- The comparison of `scodeEq`, byte by byte. -/
def sameBytes (bs : List UInt8) : ℕ → List UInt8 → Except Crash Bool
  | _, [] => .ok true
  | pos, c :: code => do
    if (← index bs (uint pos)) ≠ c then return false
    sameBytes bs (pos + 1) code

def scodeEq (bs : List UInt8) (pos : ℕ) (code : List UInt8) : Except Crash Bool :=
  if bs.length - pos > code.length then sameBytes bs pos code else .ok false

/-- The loop of `findStart`, over so many bytes. -/
def findStartFrom (bs : List UInt8) : ℕ → ℕ → Except Crash ℕ
  | 0, _ => .ok (uint bs.length)
  | left + 1, i => do
    if (← index bs i) = 0 then
      if ← scodeEq bs i [0, 0, 0, 1] then return uint (i + 4)
      if ← scodeEq bs i [0, 0, 1] then return uint (i + 3)
    findStartFrom bs left (i + 1)

def findStart (bs : List UInt8) (pos : ℕ) : Except Crash ℕ :=
  findStartFrom bs (uint bs.length - pos) pos

/-- The loop of `findEnd`, over so many bytes. -/
def findEndFrom (bs : List UInt8) : ℕ → ℕ → Except Crash ℕ
  | 0, _ => .ok (uint bs.length)
  | left + 1, i => do
    if (← index bs i) = 0 then
      if ← scodeEq bs i [0, 0, 0] then return i
      if ← scodeEq bs i [0, 0, 1] then return i
    findEndFrom bs left (i + 1)

def findEnd (bs : List UInt8) (pos : ℕ) : Except Crash ℕ :=
  findEndFrom bs (uint bs.length - pos) pos

/-! ### Bits -/

/-- `bs[(uint)(i / 8)] & (1 << (7 - i % 8))`, and whether it is more than zero. -/
def bit (bs : List UInt8) (i : ℕ) : Except Crash Bool := do
  let c ← index bs (uint (i / 8))
  return decide (0 < c.toNat &&& 2 ^ (7 - i % 8))

def readUint (bs : List UInt8) (start stop : ℕ) : Except Crash ℕ :=
  (List.range' start (stop - start)).foldlM (fun ret i => do
    return uint (ret + (← bit bs i).toNat * one (stop - i - 1))) 0

/-- The loop of `readGE`, over so many bits. -/
def countZeros (bs : List UInt8) : ℕ → ℕ → ℕ → Except Crash (ℕ × ℕ)
  | 0, pos, count => .ok (count, pos)
  | left + 1, pos, count => do
    if ← bit bs pos then return (count, pos)
    countZeros bs left (pos + 1) (uint (count + 1))

def readGE (bs : List UInt8) (pos : ℕ) : Except Crash (ℕ × ℕ) := do
  let size := bs.length * 8
  let (count, start) ← countZeros bs (size - pos) pos 0
  let stop := start + uint (count + 1)
  if stop > size then throw (.exit 30)
  return (uint ((← readUint bs start stop) + (2 ^ 32 - 1)), stop)

end H26x

/-! ### The parsers -/

/-- `H26xParser<T>`: a parser has a state of its own, which the units change. -/
structure H26xParser (T : Type) where
  init : T
  parseNal : List UInt8 → ℕ → T × List SliceType → Except Crash (T × List SliceType)

namespace H26xParser

open H26x

variable {T : Type} (p : H26xParser T)

/-- The loop of `parseBytestream`: the position, the parser and the types so far. -/
def parseBytestreamRound (bs : List UInt8) (breakOnFirst : Bool)
    (s : ℕ × T × List SliceType) : Except (Stop Crash) ((ℕ × T × List SliceType) ⊕ List SliceType) :=
  Stop.lift do
    let (pos, st) := s
    if ¬pos < uint bs.length then return .inr st.2
    let start ← findStart bs pos
    let stop ← findEnd bs start
    if start ≥ stop then return .inr st.2
    let st ← p.parseNal bs start st
    if breakOnFirst ∧ st.2.length > 0 then return .inr st.2
    return .inl (stop, st)

def parseBytestream (fuel : ℕ) (bs : List UInt8) (breakOnFirst : Bool) :
    Except (Stop Crash) (List SliceType) :=
  Whiles.loop (p.parseBytestreamRound bs breakOnFirst) fuel (0, p.init, [])

end H26xParser

open H26x

/-- The length of the header of a unit, by its type and the flag after it. -/
def H264Parser.nalUnitHeaderBytes (bs : List UInt8) (nalUnitType pos : ℕ) : Except Crash ℕ :=
  if nalUnitType = 14 ∨ nalUnitType = 20 ∨ nalUnitType = 21 then do
    let avc3dExtensionFlag ←
      if nalUnitType = 21 then readUint bs (uint (pos * 8)) (uint (pos * 8 + 1)) else pure 0
    return if avc3dExtensionFlag ≠ 0 then 1 + 2 else 1 + 3
  else return 1

def H264Parser.parseNal (bs : List UInt8) (start : ℕ) (st : Unit × List SliceType) :
    Except Crash (Unit × List SliceType) := do
  let nalUnitType := (← index bs start).toNat &&& 31
  let pos := uint (start + 1)
  let nalUnitHeaderBytes ← nalUnitHeaderBytes bs nalUnitType pos
  let pos := uint (start + nalUnitHeaderBytes)
  if nalUnitType = 1 ∨ nalUnitType = 5 then
    let (_, bpos1) ← readGE bs (uint (pos * 8))
    let (tyNum, _) ← readGE bs bpos1
    return ((), st.2 ++ [getSliceType tyNum .H264])
  return st

/-- `H264Parser`, which has no members. -/
def h264Parser : H26xParser Unit where
  init := ()
  parseNal := H264Parser.parseNal

structure H265Parser where
  nalUnitType : ℕ := 0
  dependentSliceSegmentsEnabledFlag : ℕ := 0
  numExtraSliceHeaderBits : ℕ := 0
  picWidthInLumaSamples : ℕ := 0
  picHeightInLumaSamples : ℕ := 0
  chromaFormatIdc : ℕ := 0
  log2DiffMaxMinLumaCodingBlockSize : ℕ := 0
  log2MinLumaCodingBlockSizeMinus3 : ℕ := 0
  deriving DecidableEq, Repr

namespace H265Parser

/-- The window, of which no value is needed. -/
def parseConformanceWindow (bs : List UInt8) (conformanceWindowFlag bpos4 : ℕ) : Except Crash ℕ :=
  if conformanceWindowFlag ≠ 0 then do
    let (_, bpos5) ← readGE bs bpos4
    let (_, bpos6) ← readGE bs bpos5
    let (_, bpos7) ← readGE bs bpos6
    let (_, tbpos8) ← readGE bs bpos7
    return tbpos8
  else return bpos4

/-- A round of the loop over the layers. -/
def parseSubLayer (bs : List UInt8) (bpos12 : ℕ) : Except Crash ℕ := do
  let (_, tbpos1) ← readGE bs bpos12
  let (_, tbpos2) ← readGE bs tbpos1
  let (_, tbpos3) ← readGE bs tbpos2
  return tbpos3

/-- The branch of `parseNal` for a sequence parameter set. -/
def parseSequenceParameterSet (p : H265Parser) (bs : List UInt8) (pos : ℕ) :
    Except Crash H265Parser := do
  let spsMaxSubLayersMinus1 := ((← index bs pos).toNat &&& 14) >>> 1
  let pos := uint (pos + 1)
  let (_, bpos1) ← readGE bs (uint (pos * 8))
  let (chr, bpos2) ← readGE bs bpos1
  let bpos2 := if chr ≠ 0 then bpos2 + 1 else bpos2
  let (pw, bpos3) ← readGE bs bpos2
  let (ph, bpos4) ← readGE bs bpos3
  let conformanceWindowFlag ← readUint bs bpos4 (bpos4 + 1)
  let bpos4 := bpos4 + 1
  let bpos8 ← parseConformanceWindow bs conformanceWindowFlag bpos4
  let (_, bpos9) ← readGE bs bpos8
  let (_, bpos10) ← readGE bs bpos9
  let (_, bpos11) ← readGE bs bpos10
  let spsSubLayerOrderingInfoPresentFlag ← readUint bs bpos11 (bpos11 + 1)
  let bpos12 := bpos11 + 1
  let first := if spsSubLayerOrderingInfoPresentFlag ≠ 0 then 0 else spsMaxSubLayersMinus1
  let bpos12 ← (List.range' first (spsMaxSubLayersMinus1 + 1 - first)).foldlM
    (fun bpos12 _ => parseSubLayer bs bpos12) bpos12
  let (lm, bpos13) ← readGE bs bpos12
  let (ldm, _) ← readGE bs bpos13
  return { p with
    chromaFormatIdc := chr
    picWidthInLumaSamples := pw
    picHeightInLumaSamples := ph
    log2MinLumaCodingBlockSizeMinus3 := lm
    log2DiffMaxMinLumaCodingBlockSize := ldm }

/-- The branch of `parseNal` for a picture parameter set. -/
def parsePictureParameterSet (p : H265Parser) (bs : List UInt8) (pos : ℕ) :
    Except Crash H265Parser := do
  let (_, bpos1) ← readGE bs (uint (pos * 8))
  let (_, bpos2) ← readGE bs bpos1
  let dependentSliceSegmentsEnabledFlag ← readUint bs bpos2 (bpos2 + 1)
  let bpos2 := bpos2 + 2
  let numExtraSliceHeaderBits ← readUint bs bpos2 (bpos2 + 3)
  return { p with
    dependentSliceSegmentsEnabledFlag := dependentSliceSegmentsEnabledFlag
    numExtraSliceHeaderBits := numExtraSliceHeaderBits }

/-- The number of bits of a slice address: `ceil(log2(picSizeInCtbsY))`. The conversion of
`log2(0)` gives zero. -/
def vlen (p : H265Parser) : ℕ :=
  let ctbLog2SizeY :=
    uint (p.log2MinLumaCodingBlockSizeMinus3 + 3 + p.log2DiffMaxMinLumaCodingBlockSize)
  let ctbSizeY := one ctbLog2SizeY
  let picWidthInCtbsY := p.picWidthInLumaSamples / ctbSizeY
  let picHeightInCtbsY := p.picHeightInLumaSamples / ctbSizeY
  Nat.clog 2 (uint (picWidthInCtbsY * picHeightInCtbsY))

/-- The flag of a dependent segment, and the place after the address. -/
def parseSegmentAddress (p : H265Parser) (bs : List UInt8)
    (firstSliceSegmentInPicFlag bpos2 : ℕ) : Except Crash (ℕ × ℕ) :=
  if firstSliceSegmentInPicFlag = 0 then
    if p.dependentSliceSegmentsEnabledFlag ≠ 0 then do
      let dependentSliceSegmentFlag ← readUint bs bpos2 (bpos2 + 1)
      let bpos2 := bpos2 + 1
      return (dependentSliceSegmentFlag, bpos2 + p.vlen)
    else return (0, bpos2 + p.vlen)
  else return (0, bpos2)

/-- The branch of `parseNal` for a coded slice segment. -/
def parseSlice (p : H265Parser) (bs : List UInt8) (pos : ℕ) (out : List SliceType) :
    Except Crash (List SliceType) := do
  let bpos1 := uint (pos * 8)
  let firstSliceSegmentInPicFlag ← readUint bs bpos1 (bpos1 + 1)
  let bpos1 := bpos1 + 1
  let bpos1 := if 16 ≤ p.nalUnitType ∧ p.nalUnitType ≤ 23 then bpos1 + 1 else bpos1
  let (_, bpos2) ← readGE bs bpos1
  let (dependentSliceSegmentFlag, bpos2) ←
    p.parseSegmentAddress bs firstSliceSegmentInPicFlag bpos2
  if dependentSliceSegmentFlag = 0 then
    let bpos2 := bpos2 + p.numExtraSliceHeaderBits
    let (tyNum, _) ← readGE bs bpos2
    return out ++ [getSliceType tyNum .H265]
  return out

def parseNal (bs : List UInt8) (start : ℕ) (st : H265Parser × List SliceType) :
    Except Crash (H265Parser × List SliceType) := do
  let nalUnitType := ((← index bs start).toNat &&& 126) >>> 1
  let p := { st.1 with nalUnitType := nalUnitType }
  let pos := uint (start + 2)
  if nalUnitType = 33 then
    return (← p.parseSequenceParameterSet bs pos, st.2)
  else if nalUnitType = 34 then
    return (← p.parsePictureParameterSet bs pos, st.2)
  else if nalUnitType ≤ 9 ∨ (16 ≤ nalUnitType ∧ nalUnitType ≤ 21) then
    return (p, ← p.parseSlice bs pos st.2)
  return (p, st.2)

end H265Parser

/-- `H265Parser` as a parser, with the members at zero. -/
def h265Parser : H26xParser H265Parser where
  init := {}
  parseNal := H265Parser.parseNal

def getTypesH264 (fuel : ℕ) (bs : List UInt8) (breakOnFirst : Bool) :
    Except (Stop Crash) (List SliceType) :=
  h264Parser.parseBytestream fuel bs breakOnFirst

def getTypesH265 (fuel : ℕ) (bs : List UInt8) (breakOnFirst : Bool) :
    Except (Stop Crash) (List SliceType) :=
  h265Parser.parseBytestream fuel bs breakOnFirst

end DepthaiCore
