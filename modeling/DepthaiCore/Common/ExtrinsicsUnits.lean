import DepthaiCore.Common.Extrinsics

/-!
# Two translations and one unit

A pose keeps a measured translation and one by specification, and one unit for both. Each setter
writes one of the two and the unit, so the other is from then on read in a unit that it was not set
with.
-/

open scoped Numerals

namespace DepthaiCore

open MatrixOps

variable {K : Type} [Field K]

namespace Extrinsics

/-! ### What the source computes -/

/-- The translations, by `useSpecTranslation`. -/
def translationOf {K : Type} (self : Extrinsics K) (useSpecTranslation : Bool) : Point3f K :=
  if useSpecTranslation then self.specTranslation else self.translation

def setTranslationVector {K : Type} (self : Extrinsics K) (translationVector : Point3f K)
    (unit : LengthUnit := .CENTIMETER) (useSpecTranslation : Bool := false) : Extrinsics K :=
  let self :=
    if useSpecTranslation then { self with specTranslation := translationVector }
    else { self with translation := translationVector }
  { self with lengthUnit := unit }

/-- The rows are four of four elements. -/
def IsFourByFour {K : Type} (rows : List (List K)) : Prop :=
  rows.length = 4 ∧ ∀ row ∈ rows, row.length = 4

instance {K : Type} (rows : List (List K)) : Decidable (IsFourByFour rows) :=
  inferInstanceAs (Decidable (_ ∧ _))

/-- The last row is that of a motion. -/
def HasLastRow (rows : List (List K)) : Prop :=
  entry rows 3 0 = 0 ∧ entry rows 3 1 = 0 ∧ entry rows 3 2 = 0 ∧ entry rows 3 3 = 1

instance [DecidableEq K] (rows : List (List K)) : Decidable (HasLastRow rows) :=
  inferInstanceAs (Decidable (_ ∧ _ ∧ _ ∧ _))

/-- The pose by the elements of a matrix: what both `setTransformationMatrix` write. -/
def setElements {K : Type} (self : Extrinsics K) (matrix : ℕ → ℕ → K) (unit : LengthUnit) :
    Extrinsics K :=
  { self with
    rotationMatrix := (List.range 3).map fun i => (List.range 3).map fun j => matrix i j
    translation := ⟨matrix 0 3, matrix 1 3, matrix 2 3⟩
    lengthUnit := unit }

/-- `Extrinsics::setTransformationMatrix` of a vector of rows. -/
def setTransformationRows [DecidableEq K] (self : Extrinsics K) (matrix : List (List K))
    (unit : LengthUnit := .CENTIMETER) : Except Failure (Extrinsics K) := do
  if ¬IsFourByFour matrix then
    throw (.runtimeError "Extrinsics transformation matrix must be 4x4.")
  if ¬HasLastRow matrix then
    throw (.runtimeError "Extrinsics transformation matrix must have last row [0 0 0 1].")
  return self.setElements (entry matrix) unit

/-- `Extrinsics::setTransformationMatrix` of an array. -/
def setTransformationMatrix {K : Type} (self : Extrinsics K) (matrix : Matrix4 K)
    (unit : LengthUnit := .CENTIMETER) : Extrinsics K :=
  self.setElements (fun i j => matrix (Fin.ofNat 4 i) (Fin.ofNat 4 j)) unit

/-! ### Calls -/

/-- A call of a setter. -/
inductive Setter (K : Type)
  | setTranslationVector (translationVector : Point3f K) (unit : LengthUnit)
      (useSpecTranslation : Bool)
  | setTransformationRows (matrix : List (List K)) (unit : LengthUnit)
  | setTransformationMatrix (matrix : Matrix4 K) (unit : LengthUnit)

/-- One call. -/
def call [DecidableEq K] (self : Extrinsics K) : Setter K → Except Failure (Extrinsics K)
  | .setTranslationVector v unit useSpec => .ok (self.setTranslationVector v unit useSpec)
  | .setTransformationRows matrix unit => self.setTransformationRows matrix unit
  | .setTransformationMatrix matrix unit => .ok (self.setTransformationMatrix matrix unit)

/-- Calls one after the other. A call that throws leaves the pose as it was. -/
def run [DecidableEq K] (self : Extrinsics K) (calls : List (Setter K)) : Extrinsics K :=
  calls.foldl (fun self setter => (self.call setter).toOption.getD self) self

/-! ### What was set -/

/-- A translation with the unit that it was set with. -/
structure Measured (K : Type) where
  vector : Point3f K
  unit : LengthUnit
  deriving DecidableEq, Repr

/-- The translation in another unit. -/
def Measured.inUnit (m : Measured K) (unit : LengthUnit) : List K :=
  let scale := getDistanceUnitScale unit m.unit
  [m.vector.x * scale, m.vector.y * scale, m.vector.z * scale]

namespace Setter

/-- The unit that the call sets. -/
def unit : Setter K → LengthUnit
  | .setTranslationVector _ unit _ => unit
  | .setTransformationRows _ unit => unit
  | .setTransformationMatrix _ unit => unit

/-- The vector that the call sets for one of the translations, if it sets that one. -/
def vector? : Setter K → Bool → Option (Point3f K)
  | .setTranslationVector v _ useSpec, kind => if useSpec = kind then some v else none
  | .setTransformationRows matrix _, kind =>
    if kind then none else some ⟨entry matrix 0 3, entry matrix 1 3, entry matrix 2 3⟩
  | .setTransformationMatrix matrix _, kind =>
    if kind then none else some ⟨matrix 0 3, matrix 1 3, matrix 2 3⟩

/-- The call does not throw. -/
def Accepted : Setter K → Prop
  | .setTransformationRows matrix _ => IsFourByFour matrix ∧ HasLastRow matrix
  | _ => True

instance [DecidableEq K] : ∀ setter : Setter K, Decidable setter.Accepted
  | .setTransformationRows _ _ => inferInstanceAs (Decidable (_ ∧ _))
  | .setTranslationVector _ _ _ => inferInstanceAs (Decidable True)
  | .setTransformationMatrix _ _ => inferInstanceAs (Decidable True)

/-- What the call sets one of the translations to. -/
def measured? (setter : Setter K) (kind : Bool) : Option (Measured K) :=
  (setter.vector? kind).map fun v => ⟨v, setter.unit⟩

end Setter

variable [DecidableEq K]

/-- What a translation was last set to, with the unit of that call. Before any call it is that of the
pose. -/
def lastSet (self : Extrinsics K) (calls : List (Setter K)) (kind : Bool) : Measured K :=
  ((calls.filter (Setter.Accepted ·)).filterMap (·.measured? kind)).getLastD
    ⟨self.translationOf kind, self.lengthUnit⟩

/-- The unit of the last call. -/
def lastUnit (self : Extrinsics K) (calls : List (Setter K)) : LengthUnit :=
  ((calls.filter (Setter.Accepted ·)).map Setter.unit).getLastD self.lengthUnit

/-! ### One call -/

variable {self : Extrinsics K} {calls : List (Setter K)} {setter : Setter K} {kind : Bool}

/-- **What a call does.** If it is accepted, it writes its vector and its unit. Otherwise it throws. -/
theorem call_cases (self : Extrinsics K) (setter : Setter K) :
    (setter.Accepted ∧ ∃ e, self.call setter = .ok e ∧ e.lengthUnit = setter.unit ∧
      ∀ kind, e.translationOf kind = (setter.vector? kind).getD (self.translationOf kind)) ∨
    (¬setter.Accepted ∧ ∃ failure, self.call setter = .error failure) := by
  cases setter with
  | setTranslationVector v unit useSpec =>
    refine .inl ⟨trivial, _, rfl, rfl, fun kind => ?_⟩
    cases useSpec <;> cases kind <;> rfl
  | setTransformationMatrix matrix unit =>
    refine .inl ⟨trivial, _, rfl, rfl, fun kind => ?_⟩
    cases kind <;> rfl
  | setTransformationRows matrix unit =>
    by_cases hshape : IsFourByFour matrix
    · by_cases hrow : HasLastRow matrix
      · refine .inl ⟨⟨hshape, hrow⟩, self.setElements (entry matrix) unit, ?_, rfl, fun kind => ?_⟩
        · rw [call, setTransformationRows, if_neg (not_not_intro hshape),
            if_neg (not_not_intro hrow)]
          rfl
        · cases kind <;> rfl
      · refine .inr ⟨fun h => hrow h.2, .runtimeError
          "Extrinsics transformation matrix must have last row [0 0 0 1].", ?_⟩
        rw [call, setTransformationRows, if_neg (not_not_intro hshape), if_pos hrow]
        rfl
    · refine .inr ⟨fun h => hshape h.1, .runtimeError
        "Extrinsics transformation matrix must be 4x4.", ?_⟩
      rw [call, setTransformationRows, if_pos hshape]
      rfl

/-! ### A run -/

theorem run_concat : self.run (calls ++ [setter]) =
    ((self.run calls).call setter).toOption.getD (self.run calls) := by
  rw [run, List.foldl_concat]
  rfl

theorem lastSet_concat : self.lastSet (calls ++ [setter]) kind =
    if setter.Accepted then (setter.measured? kind).getD (self.lastSet calls kind)
    else self.lastSet calls kind := by
  unfold lastSet
  by_cases h : setter.Accepted
  · cases hm : setter.measured? kind <;> simp [List.filter_append, List.filterMap_append, h, hm]
  · simp [List.filter_append, h]

theorem lastUnit_concat : self.lastUnit (calls ++ [setter]) =
    if setter.Accepted then setter.unit else self.lastUnit calls := by
  unfold lastUnit
  by_cases h : setter.Accepted <;> simp [List.filter_append, h]

/-- **What a run leaves**: the vectors that were last set, and the unit of the last call. By induction
on the calls. -/
theorem run_spec (self : Extrinsics K) (calls : List (Setter K)) :
    (self.run calls).lengthUnit = self.lastUnit calls ∧
      ∀ kind, (self.run calls).translationOf kind = (self.lastSet calls kind).vector := by
  induction calls using List.reverseRecOn with
  | nil => exact ⟨rfl, fun kind => rfl⟩
  | append_singleton calls setter ih =>
    obtain ⟨hunit, hvector⟩ := ih
    rw [run_concat, lastUnit_concat]
    obtain ⟨haccepted, e, he, hlength, htranslation⟩ | ⟨hrejected, failure, he⟩ :=
      call_cases (self.run calls) setter
    · rw [he, if_pos haccepted]
      refine ⟨hlength, fun kind => ?_⟩
      rw [lastSet_concat, if_pos haccepted, Setter.measured?]
      refine (htranslation kind).trans ?_
      cases setter.vector? kind with
      | none => exact hvector kind
      | some v => rfl
    · rw [he, if_neg hrejected]
      refine ⟨hunit, fun kind => ?_⟩
      rw [lastSet_concat, if_neg hrejected]
      exact hvector kind

omit [DecidableEq K] in
theorem getTranslationVector_eq (self : Extrinsics K) (kind : Bool) (unit : LengthUnit) :
    self.getTranslationVector kind unit =
      (⟨self.translationOf kind, self.lengthUnit⟩ : Measured K).inUnit unit := rfl

omit [DecidableEq K] in
theorem inUnit_eq_iff [CharZero K] {v : Point3f K} {unit unit' target : LengthUnit} :
    (⟨v, unit⟩ : Measured K).inUnit target = (⟨v, unit'⟩ : Measured K).inUnit target ↔
      v = ⟨0, 0, 0⟩ ∨
        (getLengthUnitMultiplier unit : K) = getLengthUnitMultiplier unit' := by
  have htarget := getLengthUnitMultiplier_ne_zero (K := K) target
  have hunit := getLengthUnitMultiplier_ne_zero (K := K) unit
  have hunit' := getLengthUnitMultiplier_ne_zero (K := K) unit'
  have hscale : (getDistanceUnitScale target unit : K) = getDistanceUnitScale target unit' ↔
      (getLengthUnitMultiplier unit : K) = getLengthUnitMultiplier unit' := by
    rw [getDistanceUnitScale, getDistanceUnitScale, div_eq_div_iff hunit hunit', mul_right_inj' htarget]
    exact eq_comm
  obtain ⟨x, y, z⟩ := v
  simp only [Measured.inUnit, List.cons.injEq, and_true, mul_eq_mul_left_iff, hscale,
    Point3f.mk.injEq]
  tauto

/-- **When a translation is read as it was set.** After any calls of the setters a translation is read,
in any unit, as the vector that it was last set to, if and only if that is zero or its unit is as long
as that of the last call. -/
theorem getTranslationVector_run_iff [CharZero K] (self : Extrinsics K) (calls : List (Setter K))
    (kind : Bool) (unit : LengthUnit) :
    (self.run calls).getTranslationVector kind unit = (self.lastSet calls kind).inUnit unit ↔
      (self.lastSet calls kind).vector = ⟨0, 0, 0⟩ ∨
        (getLengthUnitMultiplier (self.lastUnit calls) : K) =
          getLengthUnitMultiplier (self.lastSet calls kind).unit := by
  obtain ⟨hunit, hvector⟩ := run_spec self calls
  rw [getTranslationVector_eq, hunit, hvector]
  exact inUnit_eq_iff

/-- A measured translation in metres, and then one by specification in centimetres. -/
def twoUnits : List (Setter ℚ) :=
  [.setTranslationVector ⟨1, 2, 3⟩ .METER false, .setTranslationVector ⟨4, 5, 6⟩ .CENTIMETER true]

theorem getTranslationVector_run_iff_twoUnits :
    (default.run twoUnits).getTranslationVector true .METER =
        (default.lastSet twoUnits true).inUnit .METER ↔
      (default.lastSet twoUnits true).vector = ⟨0, 0, 0⟩ ∨
        (getLengthUnitMultiplier (default.lastUnit twoUnits) : ℚ) =
          getLengthUnitMultiplier (default.lastSet twoUnits true).unit :=
  getTranslationVector_run_iff default twoUnits true .METER

/-- **A translation that changes with the other.** One metre is read as one centimetre, once the
translation by specification is set in centimetres. -/
theorem not_getTranslationVector_run :
    default.lastSet twoUnits false = ⟨⟨1, 2, 3⟩, .METER⟩ ∧
      (default.run (twoUnits.take 1)).getTranslationVector false .METER = [1, 2, 3] ∧
      (default.run twoUnits).getTranslationVector false .METER = [1 / 100, 2 / 100, 3 / 100] ∧
      (default.run twoUnits).getTranslationVector false .METER ≠
        (default.lastSet twoUnits false).inUnit .METER := by
  decide +kernel

end Extrinsics

end DepthaiCore
