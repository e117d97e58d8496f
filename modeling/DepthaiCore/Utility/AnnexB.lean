import DepthaiCore.Datatype.EncodedFrame

/-!
# Byte streams of NAL units

In a byte stream every NAL unit stands behind a start code of three or four bytes, with any number
of zeros before it. The payload of a unit can be told from the codes: it has no two zeros with a
zero or a one behind them, and it does not end in a zero. The search of the parsers for start codes
and ends goes through such a stream payload by payload, whatever a parser does with them.

A code counts as one only if at least one more byte stands behind it, which is the first of the
payload.
-/

namespace DepthaiCore

namespace H26x

/-- A NAL unit in a byte stream. -/
structure NalUnit where
  zeros : ℕ
  longCode : Bool
  payload : List UInt8
  payload_ne_nil : payload ≠ []
  not_zero_zero_zero : ¬[0, 0, 0] <:+: payload
  not_zero_zero_one : ¬[0, 0, 1] <:+: payload
  getLast_ne_zero : payload.getLast payload_ne_nil ≠ 0

namespace NalUnit

/-- The start code. -/
def code (unit : NalUnit) : List UInt8 := if unit.longCode then [0, 0, 0, 1] else [0, 0, 1]

/-- What stands before the payload. -/
def lead (unit : NalUnit) : List UInt8 := List.replicate unit.zeros 0 ++ unit.code

def bytes (unit : NalUnit) : List UInt8 := unit.lead ++ unit.payload

end NalUnit

/-- The units one after the other. -/
def stream (units : List NalUnit) : List UInt8 := units.flatMap NalUnit.bytes

/-- The places of the first bytes of the payloads, in a stream that begins at `pos`. -/
def firstBytes : ℕ → List NalUnit → List ℕ
  | _, [] => []
  | pos, unit :: units =>
    (pos + unit.lead.length) :: firstBytes (pos + unit.bytes.length) units

theorem payload_at_firstBytes {bs : List UInt8} {pos : ℕ} {units : List NalUnit}
    (h : bs.drop pos = stream units) :
    List.Forall₂ (fun start unit => NalUnit.payload unit <+: bs.drop start) (firstBytes pos units)
      units := by
  induction units generalizing pos with
  | nil => exact .nil
  | cons unit units ih =>
    have hdrop : bs.drop pos = unit.lead ++ (unit.payload ++ stream units) := by
      simp [h, stream, NalUnit.bytes]
    refine .cons ⟨stream units, ?_⟩ (ih ?_)
    · rw [← List.drop_drop, hdrop, List.drop_left]
    · rw [← List.drop_drop, hdrop, NalUnit.bytes, ← List.append_assoc, List.drop_left]

/-! ### The searches -/

section Search

variable {bs : List UInt8}

theorem hasBytes_iff (hbs : bs.length < 2 ^ 32) {i : ℕ} {code : List UInt8}
    (hi : i + code.length < bs.length) : hasBytes bs i code ↔ code <+: bs.drop i := by
  induction code generalizing i with
  | nil => simp [hasBytes]
  | cons c code ih =>
    rw [List.length_cons] at hi
    have hlt : i < bs.length := by omega
    have huint : uint i = i := Nat.mod_eq_of_lt (by omega)
    rw [hasBytes, huint, List.drop_eq_getElem_cons hlt, List.getElem?_eq_getElem hlt,
      Option.some_inj, ih (by omega), List.cons_prefix_cons, eq_comm]

theorem hasCode_iff (hbs : bs.length < 2 ^ 32) {i : ℕ} {code : List UInt8} :
    hasCode bs i code ↔ ∃ c rest, bs.drop i = code ++ c :: rest := by
  constructor
  · rintro ⟨hlength, hbytes⟩
    obtain ⟨rest, hrest⟩ := (hasBytes_iff hbs (by omega)).1 hbytes
    cases rest with
    | nil =>
      have hsame := congrArg List.length hrest
      simp only [List.length_append, List.length_nil, List.length_drop] at hsame
      omega
    | cons c rest => exact ⟨c, rest, hrest.symm⟩
  · rintro ⟨c, rest, h⟩
    have hsame := congrArg List.length h
    simp only [List.length_append, List.length_cons, List.length_drop] at hsame
    exact ⟨by omega, (hasBytes_iff hbs (by omega)).2 ⟨c :: rest, h.symm⟩⟩

/-- Zeros, and then a short code: the search stops behind it. -/
theorem startFrom_zeros (hbs : bs.length < 2 ^ 32) {zeros i : ℕ} {c : UInt8} {rest : List UInt8}
    (h : bs.drop i = List.replicate zeros 0 ++ [0, 0, 1] ++ c :: rest) :
    startFrom bs (uint bs.length - i) i = i + zeros + 3 := by
  have hsize : uint bs.length = bs.length := Nat.mod_eq_of_lt hbs
  induction zeros generalizing i with
  | zero =>
    have hlength := congrArg List.length h
    simp only [List.length_drop, List.length_append, List.length_replicate, List.length_cons]
      at hlength
    obtain ⟨left, hleft⟩ : ∃ left, uint bs.length - i = left + 1 :=
      ⟨_, (Nat.succ_pred_eq_of_pos (by omega)).symm⟩
    have huint : uint (i + 3) = i + 3 := Nat.mod_eq_of_lt (by omega)
    rw [hleft, startFrom]
    simp [hasCode_iff hbs, h, huint]
  | succ zeros ih =>
    have hlength := congrArg List.length h
    simp only [List.length_drop, List.length_append, List.length_replicate, List.length_cons]
      at hlength
    obtain ⟨left, hleft⟩ : ∃ left, uint bs.length - i = left + 1 :=
      ⟨_, (Nat.succ_pred_eq_of_pos (by omega)).symm⟩
    have hnext : bs.drop (i + 1) = List.replicate zeros 0 ++ [0, 0, 1] ++ c :: rest := by
      rw [← List.drop_drop, h, List.replicate_succ]
      rfl
    have hrest : startFrom bs left (i + 1) = i + (zeros + 1) + 3 := by
      have hleft' : left = uint bs.length - (i + 1) := by omega
      rw [hleft', ih hnext]
      omega
    rw [hleft, startFrom, hrest]
    -- with one zero it is the long code, with more of them neither code begins here
    cases zeros with
    | zero =>
      have huint : uint (i + 4) = i + 4 := Nat.mod_eq_of_lt (by omega)
      simp [hasCode_iff hbs, h, huint]
    | succ zeros =>
      rcases zeros with _ | _ | zeros <;> simp [hasCode_iff hbs, h, List.replicate_succ]

/-- What may come after a payload: nothing, or the zeros of the next code. -/
inductive Follow : List UInt8 → Prop
  | done : Follow []
  | zeros (c : UInt8) (rest : List UInt8) : Follow (0 :: 0 :: 0 :: c :: rest)
  | code (c : UInt8) (rest : List UInt8) : Follow (0 :: 0 :: 1 :: c :: rest)

/-- A payload, or an end of one: the search stops behind it. -/
theorem endFrom_payload (hbs : bs.length < 2 ^ 32) {i : ℕ} {payload after : List UInt8}
    (hzeros : ¬[0, 0, 0] <:+: payload) (hone : ¬[0, 0, 1] <:+: payload)
    (hlast : payload.getLast? ≠ some 0) (hafter : Follow after)
    (h : bs.drop i = payload ++ after) (hi : i ≤ bs.length) :
    endFrom bs (uint bs.length - i) i = i + payload.length := by
  have hsize : uint bs.length = bs.length := Nat.mod_eq_of_lt hbs
  induction payload generalizing i with
  | nil =>
    have hlength := congrArg List.length h
    simp only [List.length_drop, List.nil_append] at hlength
    rw [List.nil_append] at h
    cases hafter with
    | done =>
      rw [List.length_nil] at hlength ⊢
      rw [hsize, hlength, endFrom]
      omega
    | zeros c rest =>
      rw [List.length_cons] at hlength
      obtain ⟨left, hleft⟩ : ∃ left, uint bs.length - i = left + 1 := ⟨_, hsize ▸ hlength⟩
      rw [hleft, endFrom, if_pos (.inl ((hasCode_iff hbs).2 ⟨c, rest, h⟩))]
      rfl
    | code c rest =>
      rw [List.length_cons] at hlength
      obtain ⟨left, hleft⟩ : ∃ left, uint bs.length - i = left + 1 := ⟨_, hsize ▸ hlength⟩
      rw [hleft, endFrom, if_pos (.inr ((hasCode_iff hbs).2 ⟨c, rest, h⟩))]
      rfl
  | cons b payload ih =>
    have hlength := congrArg List.length h
    simp only [List.length_drop, List.length_append, List.length_cons] at hlength
    obtain ⟨left, hleft⟩ : ∃ left, uint bs.length - i = left + 1 :=
      ⟨_, (Nat.succ_pred_eq_of_pos (by omega)).symm⟩
    have hleft' : left = uint bs.length - (i + 1) := by omega
    -- a code that begins in the payload would lie in it, or its second zero would end it
    have hcode (d : UInt8) (hd : ¬[0, 0, d] <:+: b :: payload) : ¬hasCode bs i [0, 0, d] := by
      rw [hasCode_iff hbs, h]
      rintro ⟨c, rest, heq⟩
      cases payload with
      | nil =>
        obtain ⟨rfl, -⟩ := List.cons.inj heq
        exact hlast rfl
      | cons b' payload =>
        obtain ⟨rfl, htail⟩ := List.cons.inj heq
        obtain ⟨hb', htail'⟩ := List.cons.inj htail
        cases payload with
        | nil => exact hlast (congrArg some hb')
        | cons b'' payload =>
          obtain ⟨rfl, -⟩ := List.cons.inj htail'
          exact hd ⟨[], payload, congrArg (fun b => 0 :: b :: b'' :: payload) hb'.symm⟩
    have hnext : bs.drop (i + 1) = payload ++ after := by
      rw [← List.drop_drop, h]
      rfl
    have hlast' : payload.getLast? ≠ some 0 := by
      cases payload with
      | nil => exact fun h => by cases h
      | cons b' payload => rwa [List.getLast?_cons_cons] at hlast
    have htail {l : List UInt8} (hl : ¬l <:+: b :: payload) : ¬l <:+: payload :=
      fun h => hl (h.trans (List.suffix_cons b payload).isInfix)
    rw [hleft, endFrom, if_neg (not_or.2 ⟨hcode 0 hzeros, hcode 1 hone⟩), hleft',
      ih (htail hzeros) (htail hone) hlast' hnext (by omega), List.length_cons]
    omega

theorem NalUnit.lead_eq (unit : NalUnit) :
    ∃ zeros, unit.lead = List.replicate zeros 0 ++ [0, 0, 1] := by
  cases hcode : unit.longCode with
  | false => exact ⟨unit.zeros, by simp [lead, code, hcode]⟩
  | true =>
    refine ⟨unit.zeros + 1, ?_⟩
    simp [lead, code, hcode, List.replicate_succ']

theorem follow_stream (units : List NalUnit) : Follow (stream units) := by
  cases units with
  | nil => exact .done
  | cons unit units =>
    obtain ⟨zeros, hlead⟩ := unit.lead_eq
    obtain ⟨c, payload, hpayload⟩ := List.exists_cons_of_ne_nil unit.payload_ne_nil
    rw [stream, List.flatMap_cons, NalUnit.bytes, hlead, hpayload]
    match zeros with
    | 0 => exact .code _ _
    | 1 => exact .zeros _ _
    | 2 => exact .zeros _ _
    | 3 => exact .zeros _ _
    | zeros + 4 => exact .zeros _ _

/-- **The next unit of a stream is the next payload.** -/
theorem nextUnit_stream (hbs : bs.length < 2 ^ 32) {pos : ℕ} {unit : NalUnit}
    {units : List NalUnit} (h : bs.drop pos = stream (unit :: units)) :
    nextUnit bs pos = some (pos + unit.lead.length, pos + unit.bytes.length) := by
  have hsize : uint bs.length = bs.length := Nat.mod_eq_of_lt hbs
  obtain ⟨zeros, hlead⟩ := unit.lead_eq
  obtain ⟨c, payload, hpayload⟩ := List.exists_cons_of_ne_nil unit.payload_ne_nil
  have hdrop : bs.drop pos = unit.lead ++ (unit.payload ++ stream units) := by
    simp [h, stream, NalUnit.bytes]
  have hlength := congrArg List.length hdrop
  simp only [List.length_drop, List.length_append] at hlength
  have hleadLength : unit.lead.length = zeros + 3 := by simp [hlead]
  have hpayloadLength : unit.payload.length = payload.length + 1 := by simp [hpayload]
  have hstart : startFrom bs (uint bs.length - pos) pos = pos + unit.lead.length := by
    have hzeros : bs.drop pos =
        List.replicate zeros 0 ++ [0, 0, 1] ++ c :: (payload ++ stream units) := by
      rw [hdrop, hlead, hpayload]
      rfl
    rw [startFrom_zeros hbs hzeros, hleadLength]
    omega
  have hlast : unit.payload.getLast? ≠ some 0 := by
    rw [List.getLast?_eq_some_getLast unit.payload_ne_nil]
    exact fun h => unit.getLast_ne_zero (Option.some.inj h)
  have hdropPayload : bs.drop (pos + unit.lead.length) = unit.payload ++ stream units := by
    rw [← List.drop_drop, hdrop, List.drop_left]
  have hstop := endFrom_payload hbs unit.not_zero_zero_zero unit.not_zero_zero_one hlast
    (follow_stream units) hdropPayload (by omega)
  rw [nextUnit, hstart, hstop, if_pos (by omega), NalUnit.bytes, List.length_append, Nat.add_assoc]

theorem nextUnit_end {pos : ℕ} (h : bs.drop pos = []) : nextUnit bs pos = none := by
  have hle := List.drop_eq_nil_iff.1 h
  rw [nextUnit, if_neg fun hpos => absurd hpos.1 (not_lt.2 ((uint_le _).trans hle))]

end Search

end H26x

open H26x

namespace H26xParser

variable {T : Type} (p : H26xParser T)

theorem loop_stream {bs : List UInt8} (hbs : bs.length < 2 ^ 32) {units : List NalUnit} {pos : ℕ}
    (h : bs.drop pos = stream units) {fuel : ℕ} (hfuel : units.length < fuel)
    (st : T × List SliceType) :
    Whiles.loop (p.parseBytestreamRound bs false) fuel (pos, st) =
      Stop.lift (Prod.snd <$>
        (firstBytes pos units).foldlM (fun st start => p.parseNal bs start st) st) := by
  induction units generalizing pos fuel st with
  | nil =>
    obtain ⟨fuel, rfl⟩ := Nat.exists_eq_succ_of_ne_zero (Nat.ne_of_gt hfuel)
    have hround : p.parseBytestreamRound bs false (pos, st) = .ok (.inr st.2) := by
      rw [parseBytestreamRound_eq, nextUnit_end h]
      rfl
    exact Whiles.loop_of_done hround
  | cons unit units ih =>
    obtain ⟨fuel, rfl⟩ := Nat.exists_eq_succ_of_ne_zero (Nat.ne_of_gt (Nat.zero_lt_of_lt hfuel))
    have hround := parseBytestreamRound_eq p bs false pos st
    rw [nextUnit_stream hbs h] at hround
    dsimp only at hround
    rw [firstBytes, List.foldlM_cons]
    cases hparse : p.parseNal bs (pos + unit.lead.length) st with
    | error e =>
      rw [hparse] at hround
      exact Whiles.loop_of_error hround
    | ok st' =>
      rw [hparse] at hround
      have hdrop : bs.drop (pos + unit.bytes.length) = stream units := by
        rw [← List.drop_drop, h, stream, List.flatMap_cons, List.drop_left]
        rfl
      refine (Whiles.loop_of_next hround).trans ?_
      exact ih hdrop (Nat.lt_of_succ_lt_succ hfuel) st'

/-- **Every payload of a byte stream is parsed exactly once, in order and from its first byte.** -/
theorem parseBytestream_stream (units : List NalUnit) (hlength : (stream units).length < 2 ^ 32)
    (fuel : ℕ) (hfuel : units.length < fuel) :
    List.Forall₂ (fun start unit => NalUnit.payload unit <+: (stream units).drop start)
        (firstBytes 0 units) units ∧
      p.parseBytestream fuel (stream units) false =
        Stop.lift (Prod.snd <$> (firstBytes 0 units).foldlM
          (fun st start => p.parseNal (stream units) start st) (p.init, [])) :=
  ⟨payload_at_firstBytes List.drop_zero, p.loop_stream hlength List.drop_zero hfuel _⟩

/-- Two slices of H.264, the second one behind a short code with a zero before it. -/
def twoSlices : List NalUnit :=
  [⟨0, true, [0x65, 0x88, 0x80], by decide, by decide, by decide, by decide⟩,
    ⟨1, false, [0x41, 0x9a, 0x02], by decide, by decide, by decide, by decide⟩]

theorem parseBytestream_twoSlices :
    h264Parser.parseBytestream 3 (stream twoSlices) false = .ok [.I, .P] :=
  (parseBytestream_stream h264Parser twoSlices (by decide) 3 (by decide)).2.trans
    (by decide +kernel)

end H26xParser

end DepthaiCore
