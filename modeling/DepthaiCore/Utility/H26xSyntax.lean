import Mathlib.Tactic.Ring
import DepthaiCore.Lib.BitString
import DepthaiCore.Utility.H26xParsers

/-!
# The headers of NAL units

What the parsers read of a unit is a sequence of fields, as the two standards have them. The parsers
follow these sequences field by field: they come through a unit exactly if the data has all of its
fields. The search for start codes reads nothing outside the data.
-/

namespace DepthaiCore

namespace H26x

variable (bs : List UInt8)

theorem index_of_lt {bs : List UInt8} {i : ℕ} (h : i < bs.length) : index bs i = .ok bs[i] := by
  rw [index, List.getElem?_eq_getElem h]

theorem uint_le (n : ℕ) : uint n ≤ n := Nat.mod_le _ _

/-! ### Start codes -/

/-- These bytes stand at the position. -/
def hasBytes : ℕ → List UInt8 → Prop
  | _, [] => True
  | pos, c :: code => bs[uint pos]? = some c ∧ hasBytes (pos + 1) code

instance hasBytes.decidable : ∀ pos code, Decidable (hasBytes bs pos code)
  | _, [] => .isTrue trivial
  | pos, _ :: code => @instDecidableAnd _ _ _ (hasBytes.decidable (pos + 1) code)

/-- A start code stands at the position, and at least one more byte after it. -/
def hasCode (pos : ℕ) (code : List UInt8) : Prop :=
  bs.length - pos > code.length ∧ hasBytes bs pos code

instance (pos : ℕ) (code : List UInt8) : Decidable (hasCode bs pos code) :=
  inferInstanceAs (Decidable (_ ∧ _))

/-- The end of the first start code, when so many bytes are left. -/
def startFrom : ℕ → ℕ → ℕ
  | 0, _ => uint bs.length
  | left + 1, i =>
    if hasCode bs i [0, 0, 0, 1] then uint (i + 4)
    else if hasCode bs i [0, 0, 1] then uint (i + 3)
    else startFrom left (i + 1)

/-- The first place with two zeros and a zero or a one, when so many bytes are left. -/
def endFrom : ℕ → ℕ → ℕ
  | 0, _ => uint bs.length
  | left + 1, i =>
    if hasCode bs i [0, 0, 0] ∨ hasCode bs i [0, 0, 1] then i else endFrom left (i + 1)

/-- The borders of the next unit, if there is one. -/
def nextUnit (pos : ℕ) : Option (ℕ × ℕ) :=
  let start := startFrom bs (uint bs.length - pos) pos
  let stop := endFrom bs (uint bs.length - start) start
  if pos < uint bs.length ∧ start < stop then some (start, stop) else none

variable {bs}

theorem sameBytes_eq {pos : ℕ} {code : List UInt8} (h : pos + code.length ≤ bs.length) :
    sameBytes bs pos code = .ok (decide (hasBytes bs pos code)) := by
  induction code generalizing pos with
  | nil => rfl
  | cons c code ih =>
    rw [List.length_cons] at h
    have hlt : uint pos < bs.length := lt_of_le_of_lt (uint_le pos) (by omega)
    rw [sameBytes, index_of_lt hlt, Loop.ok_bind, ih (by omega)]
    by_cases hc : bs[uint pos] = c
    · simp [hasBytes, hc, hlt]
    · simp [hasBytes, hc, hlt]
      rfl

theorem scodeEq_eq (pos : ℕ) (code : List UInt8) :
    scodeEq bs pos code = .ok (decide (hasCode bs pos code)) := by
  rw [scodeEq]
  split
  case isTrue h =>
    rw [sameBytes_eq (by omega)]
    simp [hasCode, h]
  case isFalse h => simp [hasCode, h]

theorem hasCode.eq_zero {i : ℕ} {code : List UInt8} (hi : uint i = i) (hlt : i < bs.length)
    (h : hasCode bs i (0 :: code)) : bs[i] = 0 := by
  have hbyte := h.2.1
  rw [hi, List.getElem?_eq_getElem hlt] at hbyte
  exact Option.some.inj hbyte

theorem uint_of_lt {i : ℕ} (h : i < uint bs.length) : uint i = i :=
  Nat.mod_eq_of_lt (h.trans (Nat.mod_lt _ (by decide)))

theorem findStartFrom_eq {left i : ℕ} (h : i + left = uint bs.length ∨ left = 0) :
    findStartFrom bs left i = .ok (startFrom bs left i) := by
  induction left generalizing i with
  | zero => rfl
  | succ left ih =>
    have hi : i < uint bs.length := by omega
    have hlt : i < bs.length := hi.trans_le (uint_le _)
    have hcode {code : List UInt8} (hc : hasCode bs i (0 :: code)) : bs[i] = 0 :=
      hc.eq_zero (uint_of_lt hi) hlt
    rw [findStartFrom, startFrom, index_of_lt hlt, Loop.ok_bind, scodeEq_eq, scodeEq_eq,
      ih (by omega)]
    by_cases hzero : bs[i] = 0
    · by_cases hlong : hasCode bs i [0, 0, 0, 1]
      · simp [hzero, hlong, Loop.ok_bind, pure, Except.pure]
      · by_cases hshort : hasCode bs i [0, 0, 1]
        · simp [hzero, hlong, hshort, Loop.ok_bind, pure, Except.pure]
        · simp [hzero, hlong, hshort, Loop.ok_bind]
    · rw [if_neg hzero, if_neg (mt hcode hzero), if_neg (mt hcode hzero)]

theorem findEndFrom_eq {left i : ℕ} (h : i + left = uint bs.length ∨ left = 0) :
    findEndFrom bs left i = .ok (endFrom bs left i) := by
  induction left generalizing i with
  | zero => rfl
  | succ left ih =>
    have hi : i < uint bs.length := by omega
    have hlt : i < bs.length := hi.trans_le (uint_le _)
    have hcode {code : List UInt8} (hc : hasCode bs i (0 :: code)) : bs[i] = 0 :=
      hc.eq_zero (uint_of_lt hi) hlt
    rw [findEndFrom, endFrom, index_of_lt hlt, Loop.ok_bind, scodeEq_eq, scodeEq_eq, ih (by omega)]
    by_cases hzero : bs[i] = 0
    · by_cases hfirst : hasCode bs i [0, 0, 0]
      · simp [hzero, hfirst, Loop.ok_bind, pure, Except.pure]
      · by_cases hsecond : hasCode bs i [0, 0, 1]
        · simp [hzero, hfirst, hsecond, Loop.ok_bind, pure, Except.pure]
        · simp [hzero, hfirst, hsecond, Loop.ok_bind]
    · rw [if_neg hzero, if_neg (not_or_intro (mt hcode hzero) (mt hcode hzero))]

/-- **The search for the start of a unit stays in the data.** -/
theorem findStart_eq (pos : ℕ) :
    findStart bs pos = .ok (startFrom bs (uint bs.length - pos) pos) :=
  findStartFrom_eq (by omega)

/-- **The search for the end of a unit stays in the data.** -/
theorem findEnd_eq (pos : ℕ) : findEnd bs pos = .ok (endFrom bs (uint bs.length - pos) pos) :=
  findEndFrom_eq (by omega)

/-! ### The two kinds of fields -/

theorem isSome_bit (bs : List UInt8) (i : ℕ) (h : i < bs.length * 8) :
    ((bit bs i).toOption).isSome := by
  have hlt : uint (i / 8) < bs.length := lt_of_le_of_lt (uint_le _) (by omega)
  rw [bit, index_of_lt hlt]
  rfl

/-- The data as a string of bits. -/
def bits (bs : List UInt8) : BitString where
  length := bs.length * 8
  bit? i := (bit bs i).toOption
  isSome_bit? := isSome_bit bs

theorem bits_bit? (bs : List UInt8) (i : ℕ) : (bits bs).bit? i = (bit bs i).toOption := rfl

/-- What the bits of a field add up to. -/
def number : ℕ → List Bool → ℕ
  | ret, [] => ret
  | ret, x :: l => number (uint (ret + x.toNat * one l.length)) l

/-- A field of so many bits, `u(n)`. -/
def u (bs : List UInt8) (n : ℕ) : BitString.Reader ℕ := number 0 <$> (bits bs).field n

/-- A code of variable length, `ue(v)`: one more bit than there are zeros before it. -/
def ue (bs : List UInt8) : BitString.Reader ℕ :=
  (fun l => uint (number 0 l + (2 ^ 32 - 1))) <$> (bits bs).code (fun zeros => uint (zeros + 1))

/-- So many codes that nothing is done with. -/
def codes (bs : List UInt8) : ℕ → BitString.Reader PUnit
  | 0 => pure ⟨⟩
  | n + 1 => do
    let _ ← ue bs
    codes bs n

theorem foldlM_number (bs : List UInt8) (stop : ℕ) {n pos : ℕ} (h : pos + n = stop) (ret : ℕ) :
    ((List.range' pos n).foldlM (fun ret i => do
        return uint (ret + (← bit bs i).toNat * one (stop - i - 1))) ret : Except Crash ℕ).toOption =
      ((bits bs).next? n pos).map (number ret) := by
  induction n generalizing pos ret with
  | zero => rfl
  | succ n ih =>
    rw [List.range'_succ, List.foldlM_cons, BitString.next?, bits_bit?]
    cases bit bs pos with
    | error e => rfl
    | ok x =>
      have hshift : stop - pos - 1 = n := by omega
      have hrest := ih (show pos + 1 + n = stop by omega) (uint (ret + x.toNat * one n))
      rw [Loop.ok_bind, pure_bind, hshift, Except.toOption, Option.bind_some, Option.map_map]
      refine hrest.trans (Option.map_congr fun l hl => ?_)
      rw [Function.comp_apply, number, (bits bs).length_of_next? hl]

theorem u_run (bs : List UInt8) (n pos : ℕ) :
    (u bs n).run pos = ((bits bs).next? n pos).map fun l => (number 0 l, pos + n) := by
  rw [u, StateT.run_map]
  change Option.map _ (Option.map _ _) = _
  rw [Option.map_map]
  rfl

theorem readUint_toOption (bs : List UInt8) (pos n : ℕ) :
    (readUint bs pos (pos + n)).toOption = ((bits bs).next? n pos).map (number 0) := by
  rw [readUint, Nat.add_sub_cancel_left, foldlM_number bs (pos + n) rfl 0]

/-- **A field of fixed length.** -/
theorem readUint_follows (bs : List UInt8) (pos n : ℕ) :
    Follows Prod.fst (readUint bs pos (pos + n)) (u bs n) pos := by
  unfold Follows
  rw [readUint_toOption, u_run, Option.map_map]
  rfl

theorem next_of_u {bs : List UInt8} {n pos v next : ℕ} (h : (u bs n).run pos = some (v, next)) :
    next = pos + n := by
  rw [u_run] at h
  obtain ⟨l, -, h⟩ := Option.map_eq_some_iff.1 h
  cases h
  rfl

theorem countZeros_eq (bs : List UInt8) {left pos : ℕ} (h : pos + left = bs.length * 8 ∨ left = 0)
    (count : ℕ) :
    countZeros bs left pos (uint count) =
      .ok (uint (count + (bits bs).zerosUpTo left pos), pos + (bits bs).zerosUpTo left pos) := by
  induction left generalizing pos count with
  | zero => rfl
  | succ left ih =>
    obtain ⟨x, hx⟩ := Option.isSome_iff_exists.1 (isSome_bit bs pos (by omega))
    rw [countZeros, BitString.zerosUpTo, bits_bit?, hx]
    cases hbit : bit bs pos with
    | error e =>
      rw [hbit] at hx
      cases hx
    | ok x' =>
      obtain rfl : x' = x := by
        rw [hbit] at hx
        exact Option.some.inj hx
      rw [Loop.ok_bind]
      cases x' with
      | true => rfl
      | false =>
        have hcount : uint (uint count + 1) = uint (count + 1) := Nat.mod_add_mod _ _ _
        rw [if_neg Bool.false_ne_true, if_pos rfl, hcount, ih (by omega), Nat.add_right_comm pos,
          Nat.add_right_comm count, Nat.add_assoc, Nat.add_assoc]

theorem ue_run (bs : List UInt8) (pos : ℕ) :
    (ue bs).run pos =
      let start := pos + (bits bs).zeros pos
      let width := uint ((bits bs).zeros pos + 1)
      if start + width ≤ bs.length * 8 then
        ((bits bs).next? width start).map fun l =>
          (uint (number 0 l + (2 ^ 32 - 1)), start + width)
      else none := by
  rw [ue, StateT.run_map]
  change Option.map _ (ite (_ ≤ bs.length * 8) _ _) = _
  dsimp only
  split
  case isTrue =>
    change Option.map _ (Option.map _ _) = _
    rw [Option.map_map]
    rfl
  case isFalse => rfl

/-- **A code of variable length.** -/
theorem readGE_follows (bs : List UInt8) (pos : ℕ) : Follows id (readGE bs pos) (ue bs) pos := by
  have hzeros := countZeros_eq bs
    (show pos + (bs.length * 8 - pos) = bs.length * 8 ∨ bs.length * 8 - pos = 0 by omega) 0
  have hcount (z : ℕ) : uint (uint (0 + z) + 1) = uint (z + 1) := by
    rw [Nat.zero_add]
    exact Nat.mod_add_mod _ _ _
  change countZeros bs _ pos 0 = .ok (uint (0 + (bits bs).zeros pos), pos + (bits bs).zeros pos)
    at hzeros
  unfold Follows
  rw [ue_run, readGE, hzeros, Loop.ok_bind]
  dsimp only
  rw [hcount]
  split
  case isTrue hgt =>
    rw [if_neg (by omega)]
    rfl
  case isFalse hle =>
    have hread := readUint_toOption bs (pos + (bits bs).zeros pos)
      (uint ((bits bs).zeros pos + 1))
    rw [if_pos (by omega), Option.map_map]
    cases hv : readUint bs (pos + (bits bs).zeros pos)
        (pos + (bits bs).zeros pos + uint ((bits bs).zeros pos + 1)) with
    | error e =>
      rw [hv] at hread
      rw [Option.map_eq_none_iff.1 hread.symm]
      rfl
    | ok v =>
      rw [hv] at hread
      obtain ⟨l, hl, rfl⟩ := Option.map_eq_some_iff.1 hread.symm
      rw [hl]
      rfl

theorem Follows.bind_u {bs : List UInt8} {n pos : ℕ} {β γ : Type} {view : γ × ℕ → β}
    {f : ℕ → Except Crash β} {g : ℕ → BitString.Reader γ}
    (h : ∀ v, Follows view (f v) (g v) (pos + n)) :
    Follows view (readUint bs pos (pos + n) >>= f) (u bs n >>= g) pos := by
  refine (readUint_follows bs pos n).bind fun v next hnext => ?_
  rw [next_of_u hnext]
  exact h v

theorem Follows.bind_ue {bs : List UInt8} {pos : ℕ} {β γ : Type} {view : γ × ℕ → β}
    {f : ℕ × ℕ → Except Crash β} {g : ℕ → BitString.Reader γ}
    (h : ∀ v next, Follows view (f (v, next)) (g v) next) :
    Follows view (readGE bs pos >>= f) (ue bs >>= g) pos :=
  (readGE_follows bs pos).bind fun v next _ => h v next

/-! ### Units of H.264 -/

/-- The fields of a slice header. -/
def h264Slice (bs : List UInt8) (st : Unit × List SliceType) :
    BitString.Reader (Unit × List SliceType) := do
  let _firstMbInSlice ← ue bs
  let sliceType ← ue bs
  return ((), st.2 ++ [getSliceType sliceType .H264])

/-- A unit of H.264. -/
def h264Unit (bs : List UInt8) (start : ℕ) (st : Unit × List SliceType) :
    Option (Unit × List SliceType) := do
  let c ← bs[start]?
  let nalUnitType := c.toNat &&& 31
  let cursor := uint (uint (start + 1) * 8)
  if nalUnitType = 1 ∨ nalUnitType = 5 then
    (h264Slice bs st).readAt cursor
  else if nalUnitType = 21 then
    let _avc3dExtensionFlag ← (u bs 1).readAt cursor
    return st
  else return st

/-! ### Units of H.265 -/

/-- The fields of a sequence parameter set, after the number of its layers. -/
def sequenceParameterSet (bs : List UInt8) (spsMaxSubLayersMinus1 : ℕ) (p : H265Parser) :
    BitString.Reader H265Parser := do
  let _spsSeqParameterSetId ← ue bs
  let chromaFormatIdc ← ue bs
  BitString.skip (if chromaFormatIdc ≠ 0 then 1 else 0)
  let picWidthInLumaSamples ← ue bs
  let picHeightInLumaSamples ← ue bs
  let conformanceWindowFlag ← u bs 1
  codes bs (if conformanceWindowFlag ≠ 0 then 4 else 0)
  codes bs 3
  let spsSubLayerOrderingInfoPresentFlag ← u bs 1
  codes bs (3 * if spsSubLayerOrderingInfoPresentFlag ≠ 0 then spsMaxSubLayersMinus1 + 1 else 1)
  let log2MinLumaCodingBlockSizeMinus3 ← ue bs
  let log2DiffMaxMinLumaCodingBlockSize ← ue bs
  return { p with
    chromaFormatIdc, picWidthInLumaSamples, picHeightInLumaSamples,
    log2MinLumaCodingBlockSizeMinus3, log2DiffMaxMinLumaCodingBlockSize }

/-- The fields of a picture parameter set. -/
def pictureParameterSet (bs : List UInt8) (p : H265Parser) : BitString.Reader H265Parser := do
  codes bs 2
  let dependentSliceSegmentsEnabledFlag ← u bs 1
  BitString.skip 1
  let numExtraSliceHeaderBits ← u bs 3
  return { p with dependentSliceSegmentsEnabledFlag, numExtraSliceHeaderBits }

/-- The flag of a dependent segment, before the address. -/
def segmentAddress (bs : List UInt8) (p : H265Parser) (firstSliceSegmentInPicFlag : ℕ) :
    BitString.Reader ℕ :=
  if firstSliceSegmentInPicFlag = 0 then
    if p.dependentSliceSegmentsEnabledFlag ≠ 0 then do
      let dependentSliceSegmentFlag ← u bs 1
      BitString.skip p.vlen
      return dependentSliceSegmentFlag
    else do
      BitString.skip p.vlen
      return 0
  else return 0

/-- The fields of the header of a slice segment. -/
def sliceSegment (bs : List UInt8) (p : H265Parser) (out : List SliceType) :
    BitString.Reader (List SliceType) := do
  let firstSliceSegmentInPicFlag ← u bs 1
  BitString.skip (if 16 ≤ p.nalUnitType ∧ p.nalUnitType ≤ 23 then 1 else 0)
  let _slicePicParameterSetId ← ue bs
  let dependentSliceSegmentFlag ← segmentAddress bs p firstSliceSegmentInPicFlag
  if dependentSliceSegmentFlag = 0 then
    BitString.skip p.numExtraSliceHeaderBits
    let sliceType ← ue bs
    return out ++ [getSliceType sliceType .H265]
  return out

/-- A unit of H.265. -/
def h265Unit (bs : List UInt8) (start : ℕ) (st : H265Parser × List SliceType) :
    Option (H265Parser × List SliceType) := do
  let c ← bs[start]?
  let nalUnitType := (c.toNat &&& 126) >>> 1
  let p := { st.1 with nalUnitType := nalUnitType }
  let pos := uint (start + 2)
  if nalUnitType = 33 then
    let layers ← bs[pos]?
    let p ← (sequenceParameterSet bs ((layers.toNat &&& 14) >>> 1) p).readAt
      (uint (uint (pos + 1) * 8))
    return (p, st.2)
  else if nalUnitType = 34 then
    let p ← (pictureParameterSet bs p).readAt (uint (pos * 8))
    return (p, st.2)
  else if nalUnitType ≤ 9 ∨ (16 ≤ nalUnitType ∧ nalUnitType ≤ 21) then
    let out ← (sliceSegment bs p st.2).readAt (uint (pos * 8))
    return (p, out)
  else return (p, st.2)

theorem h264Slice_follows (bs : List UInt8) (st : Unit × List SliceType) (pos : ℕ) :
    Follows Prod.fst (do
      let (_, bpos1) ← readGE bs pos
      let (tyNum, _) ← readGE bs bpos1
      return ((), st.2 ++ [getSliceType tyNum .H264])) (h264Slice bs st) pos :=
  Follows.bind_ue fun _ _ => Follows.bind_ue fun _ next => follows_pure Prod.fst _ next

theorem conformanceWindow_follows (bs : List UInt8) (flag pos : ℕ) :
    Follows Prod.snd (H265Parser.parseConformanceWindow bs flag pos)
      (codes bs (if flag ≠ 0 then 4 else 0)) pos := by
  rw [H265Parser.parseConformanceWindow]
  by_cases hflag : flag ≠ 0
  · rw [if_pos hflag, if_pos hflag]
    exact Follows.bind_ue fun _ _ => Follows.bind_ue fun _ _ => Follows.bind_ue fun _ _ =>
      Follows.bind_ue fun _ next => follows_pure Prod.snd _ next
  · rw [if_neg hflag, if_neg hflag]
    exact follows_pure Prod.snd _ pos

theorem codes_add (bs : List UInt8) (m n : ℕ) :
    codes bs (m + n) = (do
      codes bs m
      codes bs n) := by
  induction m with
  | zero => rw [Nat.zero_add, codes, pure_bind]
  | succ m ih => rw [Nat.succ_add, codes, ih, codes, bind_assoc]

theorem subLayers_follow (bs : List UInt8) (l : List ℕ) (pos : ℕ) :
    Follows Prod.snd (l.foldlM (fun bpos12 _ => H265Parser.parseSubLayer bs bpos12) pos)
      (codes bs (3 * l.length)) pos := by
  induction l generalizing pos with
  | nil => exact follows_pure Prod.snd _ pos
  | cons i l ih =>
    rw [List.length_cons, Nat.mul_succ, Nat.add_comm, codes_add, List.foldlM_cons]
    have hround : Follows Prod.snd (H265Parser.parseSubLayer bs pos) (codes bs 3) pos :=
      Follows.bind_ue fun _ _ => Follows.bind_ue fun _ _ => Follows.bind_ue fun _ next =>
        follows_pure Prod.snd _ next
    exact hround.bind fun _ next _ => ih next

theorem sequenceParameterSet_follows (p : H265Parser) (bs : List UInt8) (pos : ℕ) :
    (p.parseSequenceParameterSet bs pos).toOption = (do
      let layers ← bs[pos]?
      (sequenceParameterSet bs ((layers.toNat &&& 14) >>> 1) p).readAt
        (uint (uint (pos + 1) * 8))) := by
  rw [H265Parser.parseSequenceParameterSet, index]
  cases bs[pos]? with
  | none => rfl
  | some layers =>
    rw [Loop.ok_bind, Option.bind_eq_bind, Option.bind_some]
    generalize (layers.toNat &&& 14) >>> 1 = spsMaxSubLayersMinus1
    refine Follows.bind_ue fun _ bpos1 => Follows.bind_ue fun chr bpos2 => Follows.skip ?_
    have hskip : (bpos2 + if chr ≠ 0 then 1 else 0) = if chr ≠ 0 then bpos2 + 1 else bpos2 := by
      split <;> rfl
    rw [hskip]
    refine Follows.bind_ue fun pw bpos3 => Follows.bind_ue fun ph bpos4 =>
      Follows.bind_u fun window => ?_
    refine (conformanceWindow_follows bs window (bpos4 + 1)).bind fun _ bpos8 _ => ?_
    simp only [codes, bind_assoc, pure_bind]
    refine Follows.bind_ue fun _ bpos9 => Follows.bind_ue fun _ bpos10 =>
      Follows.bind_ue fun _ bpos11 => Follows.bind_u fun present => ?_
    have hlayers : (if present ≠ 0 then spsMaxSubLayersMinus1 + 1 else 1) =
        (List.range' (if present ≠ 0 then 0 else spsMaxSubLayersMinus1) (spsMaxSubLayersMinus1 + 1 -
          if present ≠ 0 then 0 else spsMaxSubLayersMinus1)).length := by
      rw [List.length_range']
      split <;> omega
    rw [hlayers]
    refine (subLayers_follow bs _ (bpos11 + 1)).bind fun _ bpos12 _ => ?_
    exact Follows.bind_ue fun lm bpos13 => Follows.bind_ue fun ldm bpos14 =>
      follows_pure Prod.fst _ bpos14

theorem pictureParameterSet_follows (p : H265Parser) (bs : List UInt8) (pos : ℕ) :
    Follows Prod.fst (p.parsePictureParameterSet bs pos) (pictureParameterSet bs p)
      (uint (pos * 8)) := by
  rw [H265Parser.parsePictureParameterSet, pictureParameterSet]
  simp only [codes, bind_assoc, pure_bind]
  refine Follows.bind_ue fun _ bpos1 => Follows.bind_ue fun _ bpos2 => Follows.bind_u fun dep => ?_
  refine Follows.skip ?_
  exact Follows.bind_u fun extra => follows_pure Prod.fst _ _

theorem segmentAddress_follows (p : H265Parser) (bs : List UInt8) (first pos : ℕ) :
    Follows id (p.parseSegmentAddress bs first pos) (segmentAddress bs p first) pos := by
  rw [H265Parser.parseSegmentAddress, segmentAddress]
  refine Follows.ite Iff.rfl (Follows.ite Iff.rfl ?_ ?_) (follows_pure id _ pos)
  · exact Follows.bind_u fun flag => Follows.skip (follows_pure id _ _)
  · exact Follows.skip (follows_pure id _ _)

theorem sliceSegment_follows (p : H265Parser) (bs : List UInt8) (pos : ℕ) (out : List SliceType) :
    Follows Prod.fst (p.parseSlice bs pos out) (sliceSegment bs p out) (uint (pos * 8)) := by
  rw [H265Parser.parseSlice, sliceSegment]
  refine Follows.bind_u fun first => Follows.skip ?_
  have hskip : (uint (pos * 8) + 1 + if 16 ≤ p.nalUnitType ∧ p.nalUnitType ≤ 23 then 1 else 0) =
      if 16 ≤ p.nalUnitType ∧ p.nalUnitType ≤ 23 then uint (pos * 8) + 1 + 1
      else uint (pos * 8) + 1 := by
    split <;> rfl
  rw [hskip]
  refine Follows.bind_ue fun _ bpos2 => ?_
  refine (segmentAddress_follows p bs first bpos2).bind fun flag next _ => ?_
  refine Follows.ite Iff.rfl (Follows.skip ?_) (follows_pure Prod.fst _ _)
  exact Follows.bind_ue fun _ next => follows_pure Prod.fst _ next

/-- The header of a unit is longer for the extensions, and one of them has a flag. -/
theorem nalUnitHeaderBytes_follows (bs : List UInt8) (nalUnitType pos : ℕ) :
    (H264Parser.nalUnitHeaderBytes bs nalUnitType pos).toOption.map (fun _ => ()) =
      if nalUnitType = 21 then ((u bs 1).readAt (uint (pos * 8))).map fun _ => () else some () := by
  rw [H264Parser.nalUnitHeaderBytes]
  by_cases hflag : nalUnitType = 21
  · have hstop : uint (pos * 8 + 1) = uint (pos * 8) + 1 := by
      unfold uint
      omega
    have hread := readUint_follows bs (uint (pos * 8)) 1
    rw [if_pos (.inr (.inr hflag)), if_pos hflag, if_pos hflag, hstop, BitString.Reader.readAt,
      ← hread]
    cases readUint bs (uint (pos * 8)) (uint (pos * 8) + 1) with
    | error e => rfl
    | ok flag => rfl
  · rw [if_neg hflag, if_neg hflag]
    split <;> rfl

/-- **A unit of H.264 is gone through exactly if its fields are there.** -/
theorem h264Unit_eq (bs : List UInt8) (start : ℕ) (st : Unit × List SliceType) :
    (H264Parser.parseNal bs start st).toOption = h264Unit bs start st := by
  rw [H264Parser.parseNal, h264Unit, index]
  cases bs[start]? with
  | none => rfl
  | some c =>
    rw [Loop.ok_bind, Option.bind_eq_bind, Option.bind_some]
    dsimp only
    generalize c.toNat &&& 31 = nalUnitType
    by_cases hslice : nalUnitType = 1 ∨ nalUnitType = 5
    · have hbytes : H264Parser.nalUnitHeaderBytes bs nalUnitType (uint (start + 1)) = .ok 1 := by
        rw [H264Parser.nalUnitHeaderBytes, if_neg (by omega)]
        rfl
      rw [hbytes, Loop.ok_bind, if_pos hslice, if_pos hslice]
      exact h264Slice_follows bs st _
    · have hbytes := nalUnitHeaderBytes_follows bs nalUnitType (uint (start + 1))
      simp only [if_neg hslice]
      have hpure (x : Option ℕ) :
          (x.bind fun _ => some st) = (x.map fun _ => ()).map fun _ => st := by
        cases x <;> rfl
      rw [toOption_bind]
      refine (hpure _).trans ?_
      rw [hbytes]
      by_cases hflag : nalUnitType = 21
      · rw [if_pos hflag, if_pos hflag]
        exact (hpure _).symm
      · rw [if_neg hflag, if_neg hflag]
        rfl

/-- **A unit of H.265 is gone through exactly if its fields are there.** -/
theorem h265Unit_eq (bs : List UInt8) (start : ℕ) (st : H265Parser × List SliceType) :
    (H265Parser.parseNal bs start st).toOption = h265Unit bs start st := by
  rw [H265Parser.parseNal, h265Unit, index]
  cases bs[start]? with
  | none => rfl
  | some c =>
    rw [Loop.ok_bind, Option.bind_eq_bind, Option.bind_some]
    dsimp only
    generalize (c.toNat &&& 126) >>> 1 = nalUnitType
    generalize { st.1 with nalUnitType := nalUnitType : H265Parser } = p
    split
    case isTrue =>
      rw [toOption_bind, sequenceParameterSet_follows]
      exact Option.bind_assoc _ _ _
    case isFalse =>
      split
      case isTrue =>
        rw [toOption_bind, pictureParameterSet_follows]
        rfl
      case isFalse =>
        split
        case isTrue =>
          rw [toOption_bind, sliceSegment_follows]
          rfl
        case isFalse => rfl

end H26x

end DepthaiCore
