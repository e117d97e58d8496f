import DepthaiCore.Utility.H26xSyntax

/-!
# The type of an encoded frame

A frame that does not know its type finds it in its data: it is the type of the first slice. The
parsers come to an end without a crash exactly if the units that they go through are complete. A
unit that breaks off in its header makes them exit or read past the end, and data without a slice
makes the frame take the first type of none.
-/

namespace DepthaiCore

open H26x

namespace H26x

/-! ### The units of a stream -/

/-- From a place on the units are finitely many, and every one has all its fields. With
`breakOnFirst` this is so up to the first unit after which there is a type. -/
inductive Complete {T : Type}
    (unit : List UInt8 → ℕ → T × List SliceType → Option (T × List SliceType)) (bs : List UInt8)
    (breakOnFirst : Bool) : ℕ → T × List SliceType → List SliceType → Prop
  | exhausted {pos st} (hover : nextUnit bs pos = none) : Complete unit bs breakOnFirst pos st st.2
  | first {pos start stop st st'} (hnext : nextUnit bs pos = some (start, stop))
      (hunit : unit bs start st = some st') (hfirst : breakOnFirst = true ∧ st'.2.length > 0) :
      Complete unit bs breakOnFirst pos st st'.2
  | more {pos start stop st st' out} (hnext : nextUnit bs pos = some (start, stop))
      (hunit : unit bs start st = some st') (hmore : ¬(breakOnFirst = true ∧ st'.2.length > 0))
      (hrest : Complete unit bs breakOnFirst stop st' out) :
      Complete unit bs breakOnFirst pos st out

variable {bs : List UInt8} {pos start stop : ℕ}

/-- The start of a unit lies behind the place of the search, and in the data. -/
theorem startFrom_mem (hbs : bs.length < 2 ^ 32) {left i : ℕ} (h : i + left = uint bs.length) :
    i ≤ startFrom bs left i ∧ startFrom bs left i ≤ uint bs.length := by
  have hsize : uint bs.length = bs.length := Nat.mod_eq_of_lt hbs
  induction left generalizing i with
  | zero => exact ⟨h.le, le_rfl⟩
  | succ left ih =>
    have hcode {code : List UInt8} (hc : hasCode bs i code) :
        i ≤ uint (i + code.length) ∧ uint (i + code.length) ≤ uint bs.length := by
      have hlt := hc.1
      have hend : uint (i + code.length) = i + code.length := Nat.mod_eq_of_lt (by omega)
      omega
    rw [startFrom]
    split
    case isTrue hlong => exact hcode hlong
    case isFalse =>
      split
      case isTrue hshort => exact hcode hshort
      case isFalse =>
        have hrest := ih (i := i + 1) (by omega)
        omega

theorem endFrom_le {left i : ℕ} (h : i + left = uint bs.length) :
    endFrom bs left i ≤ uint bs.length := by
  induction left generalizing i with
  | zero => exact le_rfl
  | succ left ih =>
    rw [endFrom]
    split
    · omega
    · exact ih (by omega)

theorem nextUnit_lt (hbs : bs.length < 2 ^ 32) (h : nextUnit bs pos = some (start, stop)) :
    pos < stop ∧ stop ≤ uint bs.length := by
  rw [nextUnit] at h
  split at h
  case isTrue hlt =>
    cases h
    have hstart := startFrom_mem hbs (show pos + (uint bs.length - pos) = uint bs.length by omega)
    generalize startFrom bs (uint bs.length - pos) pos = start at hlt hstart ⊢
    have hstop := endFrom_le (show start + (uint bs.length - start) = uint bs.length by omega)
    omega
  case isFalse => cases h

end H26x

namespace H26xParser

variable {T : Type} {p : H26xParser T}
  {unit : List UInt8 → ℕ → T × List SliceType → Option (T × List SliceType)}
  {bs : List UInt8} {breakOnFirst : Bool}

theorem parseBytestreamRound_eq (p : H26xParser T) (bs : List UInt8) (breakOnFirst : Bool) (pos : ℕ)
    (st : T × List SliceType) :
    p.parseBytestreamRound bs breakOnFirst (pos, st) = Stop.lift
      (match nextUnit bs pos with
        | none => .ok (.inr st.2)
        | some (start, stop) => do
          let st ← p.parseNal bs start st
          return if breakOnFirst = true ∧ st.2.length > 0 then .inr st.2 else .inl (stop, st)) := by
  rw [parseBytestreamRound, nextUnit, findStart_eq, Loop.ok_bind, findEnd_eq, Loop.ok_bind]
  generalize startFrom bs (uint bs.length - pos) pos = start
  generalize endFrom bs (uint bs.length - start) start = stop
  by_cases hpos : pos < uint bs.length
  · rw [if_neg (not_not.2 hpos)]
    by_cases hlt : start < stop
    · rw [if_neg (not_le.2 hlt), if_pos ⟨hpos, hlt⟩]
      dsimp only
      cases p.parseNal bs start st with
      | error e => rfl
      | ok st' =>
        rw [Loop.ok_bind, Loop.ok_bind]
        split <;> rfl
    · rw [if_pos (not_lt.1 hlt), if_neg fun h => hlt h.2]
      rfl
  · rw [if_pos hpos, if_neg fun h => hpos h.1]
    rfl

section Units

variable (hunit : ∀ start st, (p.parseNal bs start st).toOption = unit bs start st)
include hunit

theorem parseNal_eq_ok_iff {start : ℕ} {st st' : T × List SliceType} :
    p.parseNal bs start st = .ok st' ↔ unit bs start st = some st' := by
  rw [← hunit]
  cases p.parseNal bs start st with
  | error e => simp [Except.toOption]
  | ok st => simp [Except.toOption]

theorem round_eq_done_iff {pos : ℕ} {st : T × List SliceType} {out : List SliceType} :
    p.parseBytestreamRound bs breakOnFirst (pos, st) = .ok (.inr out) ↔
      (nextUnit bs pos = none ∧ out = st.2) ∨
      ∃ start stop st', nextUnit bs pos = some (start, stop) ∧ unit bs start st = some st' ∧
        (breakOnFirst = true ∧ st'.2.length > 0) ∧ out = st'.2 := by
  rw [parseBytestreamRound_eq, Stop.lift_eq_ok]
  cases nextUnit bs pos with
  | none => simp [eq_comm]
  | some borders =>
    simp only [Loop.bind_eq_ok, parseNal_eq_ok_iff hunit]
    constructor
    · rintro ⟨st', hst', h⟩
      split at h
      case isTrue hfirst =>
        cases h
        exact .inr ⟨_, _, st', rfl, hst', hfirst, rfl⟩
      case isFalse => cases h
    · rintro (⟨h, -⟩ | ⟨_, _, st', hborders, hst', hfirst, rfl⟩)
      · cases h
      · cases hborders
        refine ⟨st', hst', ?_⟩
        rw [if_pos hfirst]
        rfl

theorem round_eq_next_iff {pos : ℕ} {st : T × List SliceType} {s : ℕ × T × List SliceType} :
    p.parseBytestreamRound bs breakOnFirst (pos, st) = .ok (.inl s) ↔
      ∃ start stop st', nextUnit bs pos = some (start, stop) ∧ unit bs start st = some st' ∧
        ¬(breakOnFirst = true ∧ st'.2.length > 0) ∧ s = (stop, st') := by
  rw [parseBytestreamRound_eq, Stop.lift_eq_ok]
  cases nextUnit bs pos with
  | none => simp
  | some borders =>
    simp only [Loop.bind_eq_ok, parseNal_eq_ok_iff hunit]
    constructor
    · rintro ⟨st', hst', h⟩
      split at h
      case isTrue => cases h
      case isFalse hmore =>
        cases h
        exact ⟨_, _, st', rfl, hst', hmore, rfl⟩
    · rintro ⟨_, _, st', hborders, hst', hmore, rfl⟩
      cases hborders
      refine ⟨st', hst', ?_⟩
      rw [if_neg hmore]
      rfl

/-- **A parser comes to an end exactly on complete units.** -/
theorem exists_parseBytestream_iff {out : List SliceType} :
    (∃ n, p.parseBytestream n bs breakOnFirst = .ok out) ↔
      Complete unit bs breakOnFirst 0 (p.init, []) out := by
  refine Whiles.exists_loop_eq_ok_iff.trans ⟨fun h => ?_, fun h => ?_⟩
  · suffices hmain : ∀ s, Whiles.Ends (p.parseBytestreamRound bs breakOnFirst) s out →
        Complete unit bs breakOnFirst s.1 s.2 out from hmain _ h
    intro s hs
    induction hs with
    | done hround =>
      rcases (round_eq_done_iff hunit).1 hround with
        ⟨hover, rfl⟩ | ⟨_, _, _, hnext, hst', hfirst, rfl⟩
      · exact .exhausted hover
      · exact .first hnext hst' hfirst
    | next hround _ ih =>
      obtain ⟨_, _, _, hnext, hst', hmore, rfl⟩ := (round_eq_next_iff hunit).1 hround
      exact .more hnext hst' hmore (ih h)
  · generalize 0 = pos, (p.init, ([] : List SliceType)) = st at h ⊢
    induction h with
    | exhausted hover => exact .done ((round_eq_done_iff hunit).2 (.inl ⟨hover, rfl⟩))
    | first hnext hst' hfirst =>
      exact .done ((round_eq_done_iff hunit).2 (.inr ⟨_, _, _, hnext, hst', hfirst, rfl⟩))
    | more hnext hst' hmore _ ih =>
      exact .next ((round_eq_next_iff hunit).2 ⟨_, _, _, hnext, hst', hmore, rfl⟩) ih

/-- **Below `2 ^ 32` bytes no parser goes on for ever.** -/
theorem parseBytestream_ne_pending (hbs : bs.length < 2 ^ 32) :
    p.parseBytestream (bs.length + 1) bs breakOnFirst ≠ .error .pending := by
  have hsize : uint bs.length = bs.length := Nat.mod_eq_of_lt hbs
  refine Whiles.loop_ne_pending (I := fun n s => bs.length < n + s.1 ∧ s.1 ≤ bs.length) ?_ ?_ ?_ ?_
  · intro s h
    omega
  · intro s
    exact Stop.lift_ne_pending _
  · rintro n ⟨pos, st⟩ s' h hround
    obtain ⟨start, stop, st', hnext, -, -, rfl⟩ := (round_eq_next_iff hunit).1 hround
    have hlt := nextUnit_lt hbs hnext
    dsimp only at h ⊢
    omega
  · dsimp only
    omega

end Units

end H26xParser

inductive EncodedFrame.Profile
  | JPEG | AVC | HEVC
  deriving DecidableEq, Repr

inductive EncodedFrame.FrameType
  | I | P | B | Unknown
  deriving DecidableEq, Repr

/-- `EncodedFrame`: its profile, its type and its data. -/
structure EncodedFrame where
  profile : EncodedFrame.Profile
  type : EncodedFrame.FrameType
  data : List UInt8

namespace EncodedFrame

/-- The type of a frame whose slices have a type. -/
def FrameType.ofSlice : SliceType → FrameType
  | .P => .P
  | .B => .B
  | .I => .I
  | .SP => .P
  | .SI => .I
  | .Unknown => .Unknown

/-- The type of the slices in the data, by the profile. -/
def getSliceType (f : EncodedFrame) (fuel : ℕ) : Except (Stop Crash) SliceType :=
  match f.profile with
  | .JPEG => .ok .I
  | .AVC => do Stop.lift (index (← getTypesH264 fuel f.data true) 0)
  | .HEVC => do Stop.lift (index (← getTypesH265 fuel f.data true) 0)

/-- `EncodedFrame::getFrameType`: the frame afterwards, and its type. -/
def getFrameType (f : EncodedFrame) (fuel : ℕ) :
    Except (Stop Crash) (EncodedFrame × FrameType) := do
  if f.type = .Unknown then
    let f := { f with type := .ofSlice (← f.getSliceType fuel) }
    return (f, f.type)
  return (f, f.type)

/-- The data has a type for the frame, by the profile: the units up to the first slice are complete,
and there is one. -/
def HasSlice (f : EncodedFrame) : Prop :=
  match f.profile with
  | .JPEG => True
  | .AVC => ∃ t types, Complete h264Unit f.data true 0 (h264Parser.init, []) (t :: types)
  | .HEVC => ∃ t types, Complete h265Unit f.data true 0 (h265Parser.init, []) (t :: types)

theorem index_zero_eq_ok {α : Type} {l : List α} {a : α} :
    index l 0 = .ok a ↔ ∃ l', l = a :: l' := by
  cases l with
  | nil => simp [index]
  | cons b l => simp [index, eq_comm]

/-- The first type is there exactly if there is a type. -/
theorem exists_first_iff {x : ℕ → Except (Stop Crash) (List SliceType)}
    {P : List SliceType → Prop} (h : ∀ types, (∃ n, x n = .ok types) ↔ P types) :
    (∃ n t, (do Stop.lift (index (← x n) 0)) = Except.ok t) ↔ ∃ t types, P (t :: types) := by
  simp only [Loop.bind_eq_ok, Stop.lift_eq_ok, index_zero_eq_ok, ← h]
  constructor
  · rintro ⟨n, t, _, hn, types, rfl⟩
    exact ⟨t, types, n, hn⟩
  · rintro ⟨t, types, n, hn⟩
    exact ⟨n, t, _, hn, types, rfl⟩

theorem exists_getSliceType_iff (f : EncodedFrame) :
    (∃ n t, f.getSliceType n = .ok t) ↔ f.HasSlice := by
  unfold getSliceType HasSlice
  cases f.profile with
  | JPEG => simp
  | AVC =>
    exact exists_first_iff fun types => H26xParser.exists_parseBytestream_iff (h264Unit_eq f.data)
  | HEVC =>
    exact exists_first_iff fun types => H26xParser.exists_parseBytestream_iff (h265Unit_eq f.data)

theorem exists_getFrameType_iff (f : EncodedFrame) :
    (∃ n r, f.getFrameType n = .ok r) ↔ f.type ≠ .Unknown ∨ f.HasSlice := by
  unfold getFrameType
  by_cases htype : f.type = .Unknown
  · rw [or_iff_right (not_not.2 htype), ← exists_getSliceType_iff]
    simp only [if_pos htype, Loop.bind_eq_ok]
    constructor
    · rintro ⟨n, r, t, ht, -⟩
      exact ⟨n, t, ht⟩
    · rintro ⟨n, t, ht⟩
      exact ⟨n, _, t, ht, rfl⟩
  · simp only [if_neg htype]
    exact iff_of_true ⟨0, _, rfl⟩ (.inl htype)

/-- **When a stream has types, and a frame a type.** The parsers come to an end, and they never read
outside the data and never exit, exactly if the units that they go through are complete; and a frame
gets its type exactly if it has one, or its data has a slice. -/
theorem getFrameType_iff (bs : List UInt8) (breakOnFirst : Bool) (f : EncodedFrame) :
    ((∃ n types, getTypesH264 n bs breakOnFirst = .ok types) ↔
        ∃ types, Complete h264Unit bs breakOnFirst 0 (h264Parser.init, []) types) ∧
      ((∃ n types, getTypesH265 n bs breakOnFirst = .ok types) ↔
        ∃ types, Complete h265Unit bs breakOnFirst 0 (h265Parser.init, []) types) ∧
      ((∃ n r, f.getFrameType n = .ok r) ↔ f.type ≠ .Unknown ∨ f.HasSlice) := by
  refine ⟨?_, ?_, exists_getFrameType_iff f⟩
  · rw [exists_comm]
    exact exists_congr fun types => H26xParser.exists_parseBytestream_iff (h264Unit_eq bs)
  · rw [exists_comm]
    exact exists_congr fun types => H26xParser.exists_parseBytestream_iff (h265Unit_eq bs)

/-- Headers that break off make the parsers exit or read outside the data, and empty data has no
first type. -/
theorem not_getFrameType :
    (¬∃ n types, getTypesH264 n [0, 0, 1, 33] true = .ok types) ∧
      (¬∃ n types, getTypesH265 n [0, 0, 1, 66] true = .ok types) ∧
      ¬∃ n r, (⟨.AVC, .Unknown, []⟩ : EncodedFrame).getFrameType n = .ok r := by
  refine ⟨?_, ?_, ?_⟩
  · rintro ⟨n | n, types, h⟩
    · cases h
    · rw [getTypesH264, H26xParser.parseBytestream,
        Whiles.loop_of_error (e := .throws (.exit 30)) (by decide +kernel)] at h
      cases h
  · rintro ⟨n | n, types, h⟩
    · cases h
    · rw [getTypesH265, H26xParser.parseBytestream,
        Whiles.loop_of_error (e := .throws .outside) (by decide +kernel)] at h
      cases h
  · rintro ⟨n | n, r, h⟩
    · cases h
    · cases h

end EncodedFrame

end DepthaiCore
