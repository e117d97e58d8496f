import DepthaiCore.Lib.Loops
import DepthaiCore.Lib.Rotations
import DepthaiCore.Utility.MatrixOps
import Mathlib.Analysis.SpecialFunctions.Complex.Arg

/-!
# Transforms as quaternions and as angles

A `TransformData` message carries a rigid transform. It is made of a translation and a quaternion, or
of a translation and three angles, and gives them back. The numbers are real, and a quotient by zero
has no value.

The quaternion is read from one of four rows of the table of its products, by the entry of the matrix
that is largest. The angles are those of turns about the three axes, one after the other; where the
second one is a right angle, the third one is set to zero.
-/

open scoped Numerals

namespace DepthaiCore

open MatrixOps Matrix Rotations

structure Quaterniond where
  qx : ℝ := 0
  qy : ℝ := 0
  qz : ℝ := 0
  qw : ℝ := 1

structure Transform where
  matrix : Matrix4 ℝ

structure TransformData where
  transform : Transform

noncomputable def atan2 (y x : ℝ) : ℝ :=
  Complex.arg ⟨x, y⟩

namespace TransformData

/-- The constructor from a position and a quaternion of any length. -/
noncomputable def ofQuaternion (x y z qx qy qz qw : ℝ) : Except Failure TransformData := do
  let n ← quotient 1 (√(qx * qx + qy * qy + qz * qz + qw * qw))
  let qx := qx * n
  let qy := qy * n
  let qz := qz * n
  let qw := qw * n
  return ⟨⟨!![
    1 - 2 * qy * qy - 2 * qz * qz, 2 * qx * qy - 2 * qz * qw, 2 * qx * qz + 2 * qy * qw, x;
    2 * qx * qy + 2 * qz * qw, 1 - 2 * qx * qx - 2 * qz * qz, 2 * qy * qz - 2 * qx * qw, y;
    2 * qx * qz - 2 * qy * qw, 2 * qy * qz + 2 * qx * qw, 1 - 2 * qx * qx - 2 * qy * qy, z;
    0, 0, 0, 1]⟩⟩

/-- The constructor from a position and three angles. -/
noncomputable def ofEuler (x y z roll pitch yaw : ℝ) : TransformData :=
  let cr := Real.cos roll
  let sr := Real.sin roll
  let cp := Real.cos pitch
  let sp := Real.sin pitch
  let cy := Real.cos yaw
  let sy := Real.sin yaw
  ⟨⟨!![
    cy * cp, cy * sp * sr - sy * cr, cy * sp * cr + sy * sr, x;
    sy * cp, sy * sp * sr + cy * cr, sy * sp * cr - cy * sr, y;
    -sp, cp * sr, cp * cr, z;
    0, 0, 0, 1]⟩⟩

def getTranslation (self : TransformData) : Point3f ℝ where
  x := self.transform.matrix 0 3
  y := self.transform.matrix 1 3
  z := self.transform.matrix 2 3

noncomputable def getRotationEuler (self : TransformData) : Point3f ℝ :=
  let m := self.transform.matrix
  let p := -Real.arcsin (m 2 0)
  if |p| < Real.pi / 2 then
    { x := atan2 (m 2 1) (m 2 2), y := p, z := atan2 (m 1 0) (m 0 0) }
  else
    { x := atan2 (-m 0 1) (m 1 1), y := p, z := 0 }

noncomputable def getQuaternion (self : TransformData) : Except Failure Quaterniond :=
  let m := self.transform.matrix
  let tr := m 0 0 + m 1 1 + m 2 2
  if tr > 0 then do
    let S := √(tr + 1) * 2
    let qw := 0.25 * S
    let qx ← quotient (m 2 1 - m 1 2) S
    let qy ← quotient (m 0 2 - m 2 0) S
    let qz ← quotient (m 1 0 - m 0 1) S
    return ⟨qx, qy, qz, qw⟩
  else if m 0 0 > m 1 1 ∧ m 0 0 > m 2 2 then do
    let S := √(1 + m 0 0 - m 1 1 - m 2 2) * 2
    let qw ← quotient (m 2 1 - m 1 2) S
    let qx := 0.25 * S
    let qy ← quotient (m 0 1 + m 1 0) S
    let qz ← quotient (m 0 2 + m 2 0) S
    return ⟨qx, qy, qz, qw⟩
  else if m 1 1 > m 2 2 then do
    let S := √(1 + m 1 1 - m 0 0 - m 2 2) * 2
    let qw ← quotient (m 0 2 - m 2 0) S
    let qx ← quotient (m 0 1 + m 1 0) S
    let qy := 0.25 * S
    let qz ← quotient (m 1 2 + m 2 1) S
    return ⟨qx, qy, qz, qw⟩
  else do
    let S := √(1 + m 2 2 - m 0 0 - m 1 1) * 2
    let qw ← quotient (m 1 0 - m 0 1) S
    let qx ← quotient (m 0 2 + m 2 0) S
    let qy ← quotient (m 1 2 + m 2 1) S
    let qz := 0.25 * S
    return ⟨qx, qy, qz, qw⟩

/-- The message of a rigid transform. -/
noncomputable def ofPose (R : Matrix3 ℝ) (t : Point3f ℝ) : TransformData :=
  ⟨⟨createTransformationMatrixInternal R t⟩⟩

variable {R : Matrix3 ℝ} {t : Point3f ℝ}

/-! ### The quaternion -/

/-- The products of the coordinates are those of the table. -/
def Represents (R : Matrix3 ℝ) (q : Quaterniond) : Prop :=
  let coordinates := ![q.qw, q.qx, q.qy, q.qz]
  ∀ i j, 4 * (coordinates i * coordinates j) = table R i j

/-- **A branch of `getQuaternion`**: the coordinates are a row of the table, divided by `S`. -/
theorem represents_of_pivot (h : Rotation R) {p : Fin 4} (hp : 0 < table R p p) {q : Quaterniond}
    (hrow : ![q.qw, q.qx, q.qy, q.qz] = fun i => table R p i / (√(table R p p) * 2)) :
    Represents R q := by
  have hS : √(table R p p) * 2 ≠ 0 := mul_ne_zero (Real.sqrt_pos.2 hp).ne' two_ne_zero
  have hsq : (√(table R p p) * 2) ^ 2 = 4 * table R p p := by
    rw [mul_pow, Real.sq_sqrt hp.le]
    ring
  intro i j
  show 4 * (![q.qw, q.qx, q.qy, q.qz] i * ![q.qw, q.qx, q.qy, q.qz] j) = _
  rw [hrow]
  exact h.products_of_pivot hS hsq i j

theorem quarter_eq {a : ℝ} (ha : 0 < a) : 0.25 * (√a * 2) = a / (√a * 2) := by
  have hroot := (Real.sqrt_pos.2 ha).ne'
  have hsq := Real.sq_sqrt ha.le
  field_simp
  linear_combination 0.5 * 2 * hsq

theorem root_ne_zero {a : ℝ} (ha : 0 < a) : √a * 2 ≠ 0 :=
  mul_ne_zero (Real.sqrt_pos.2 ha).ne' two_ne_zero

theorem three_quotients {S : ℝ} (hS : S ≠ 0) (a b c : ℝ) (f : ℝ → ℝ → ℝ → Quaterniond) :
    (do
      let x ← quotient a S
      let y ← quotient b S
      let z ← quotient c S
      return f x y z : Except Failure Quaterniond) = .ok (f (a / S) (b / S) (c / S)) := by
  rw [quotient_of_ne hS, quotient_of_ne hS, quotient_of_ne hS]
  rfl

/-- **The four branches of the quaternion** divide by no zero, and each reads one row of the table. -/
theorem getQuaternion_represents (h : Rotation R) (t : Point3f ℝ) :
    ∃ q, (ofPose R t).getQuaternion = .ok q ∧ Represents R q := by
  have hsum := table_trace R
  have h0 : table R 0 0 = R 0 0 + R 1 1 + R 2 2 + 1 := add_comm _ _
  have h1 : table R 1 1 = 1 + R 0 0 - R 1 1 - R 2 2 := rfl
  have h2 : table R 2 2 = 1 + R 1 1 - R 0 0 - R 2 2 := sub_right_comm _ _ _
  have h3 : table R 3 3 = 1 + R 2 2 - R 0 0 - R 1 1 := rfl
  -- an entry on the diagonal of the table that is the largest one is at least one
  by_cases htr : R 0 0 + R 1 1 + R 2 2 > 0
  · have hpos : 0 < table R 0 0 := by linarith
    refine ⟨⟨table R 0 1 / (√(table R 0 0) * 2), table R 0 2 / (√(table R 0 0) * 2),
      table R 0 3 / (√(table R 0 0) * 2), 0.25 * (√(table R 0 0) * 2)⟩, (if_pos htr).trans ?_,
      represents_of_pivot h hpos ?_⟩
    · rw [h0] at hpos ⊢
      exact three_quotients (root_ne_zero hpos) _ _ _ fun x y z => ⟨x, y, z, _⟩
    · funext i
      rw [quarter_eq hpos]
      fin_cases i <;> rfl
  · by_cases hx : R 0 0 > R 1 1 ∧ R 0 0 > R 2 2
    · have hpos : 0 < table R 1 1 := by linarith
      refine ⟨⟨0.25 * (√(table R 1 1) * 2), table R 1 2 / (√(table R 1 1) * 2),
        table R 1 3 / (√(table R 1 1) * 2), table R 1 0 / (√(table R 1 1) * 2)⟩,
        (if_neg htr).trans ((if_pos hx).trans ?_), represents_of_pivot h hpos ?_⟩
      · rw [h1] at hpos ⊢
        exact three_quotients (root_ne_zero hpos) _ _ _ fun w y z => ⟨_, y, z, w⟩
      · funext i
        rw [quarter_eq hpos]
        fin_cases i <;> rfl
    · have hx' := not_and_or.1 hx
      rw [not_lt, not_lt] at hx'
      by_cases hy : R 1 1 > R 2 2
      · have hpos : 0 < table R 2 2 := by
          rcases hx' with hx' | hx' <;> linarith
        refine ⟨⟨table R 1 2 / (√(table R 2 2) * 2), 0.25 * (√(table R 2 2) * 2),
          table R 2 3 / (√(table R 2 2) * 2), table R 2 0 / (√(table R 2 2) * 2)⟩,
          (if_neg htr).trans ((if_neg hx).trans ((if_pos hy).trans ?_)),
          represents_of_pivot h hpos ?_⟩
        · rw [h2] at hpos ⊢
          exact three_quotients (root_ne_zero hpos) _ _ _ fun w x z => ⟨x, _, z, w⟩
        · funext i
          rw [quarter_eq hpos, table_comm R 1 2]
          fin_cases i <;> rfl
      · have hpos : 0 < table R 3 3 := by
          rcases hx' with hx' | hx' <;> linarith
        refine ⟨⟨table R 1 3 / (√(table R 3 3) * 2), table R 2 3 / (√(table R 3 3) * 2),
          0.25 * (√(table R 3 3) * 2), table R 3 0 / (√(table R 3 3) * 2)⟩,
          (if_neg htr).trans ((if_neg hx).trans ((if_neg hy).trans ?_)),
          represents_of_pivot h hpos ?_⟩
        · rw [h3] at hpos ⊢
          exact three_quotients (root_ne_zero hpos) _ _ _ fun w x y => ⟨x, y, _, w⟩
        · funext i
          rw [quarter_eq hpos, table_comm R 1 3, table_comm R 2 3]
          fin_cases i <;> rfl

/-- **A quaternion that represents a rotation is of unit length.** -/
theorem Represents.unit {q : Quaterniond} (h : Represents R q) :
    q.qx * q.qx + q.qy * q.qy + q.qz * q.qz + q.qw * q.qw = 1 := by
  have hw : 4 * (q.qw * q.qw) = table R 0 0 := h 0 0
  have hx : 4 * (q.qx * q.qx) = table R 1 1 := h 1 1
  have hy : 4 * (q.qy * q.qy) = table R 2 2 := h 2 2
  have hz : 4 * (q.qz * q.qz) = table R 3 3 := h 3 3
  have hsum := table_trace R
  linarith

/-- **It makes the rotation again.** -/
theorem Represents.ofQuaternion_eq {q : Quaterniond} (h : Represents R q) (t : Point3f ℝ) :
    ofQuaternion t.x t.y t.z q.qx q.qy q.qz q.qw = .ok (ofPose R t) := by
  have hxx : 4 * (q.qx * q.qx) = 1 + R 0 0 - R 1 1 - R 2 2 := h 1 1
  have hyy : 4 * (q.qy * q.qy) = 1 + R 1 1 - R 2 2 - R 0 0 := h 2 2
  have hzz : 4 * (q.qz * q.qz) = 1 + R 2 2 - R 0 0 - R 1 1 := h 3 3
  have hwx : 4 * (q.qw * q.qx) = R 2 1 - R 1 2 := h 0 1
  have hwy : 4 * (q.qw * q.qy) = R 0 2 - R 2 0 := h 0 2
  have hwz : 4 * (q.qw * q.qz) = R 1 0 - R 0 1 := h 0 3
  have hxy : 4 * (q.qx * q.qy) = R 0 1 + R 1 0 := h 1 2
  have hxz : 4 * (q.qx * q.qz) = R 0 2 + R 2 0 := h 1 3
  have hyz : 4 * (q.qy * q.qz) = R 1 2 + R 2 1 := h 2 3
  have h00 : 1 - 2 * q.qy * q.qy - 2 * q.qz * q.qz = R 0 0 := by
    linear_combination -(hyy + hzz) / 2
  have h01 : 2 * q.qx * q.qy - 2 * q.qz * q.qw = R 0 1 := by linear_combination (hxy - hwz) / 2
  have h02 : 2 * q.qx * q.qz + 2 * q.qy * q.qw = R 0 2 := by linear_combination (hxz + hwy) / 2
  have h10 : 2 * q.qx * q.qy + 2 * q.qz * q.qw = R 1 0 := by linear_combination (hxy + hwz) / 2
  have h11 : 1 - 2 * q.qx * q.qx - 2 * q.qz * q.qz = R 1 1 := by
    linear_combination -(hxx + hzz) / 2
  have h12 : 2 * q.qy * q.qz - 2 * q.qx * q.qw = R 1 2 := by linear_combination (hyz - hwx) / 2
  have h20 : 2 * q.qx * q.qz - 2 * q.qy * q.qw = R 2 0 := by linear_combination (hxz - hwy) / 2
  have h21 : 2 * q.qy * q.qz + 2 * q.qx * q.qw = R 2 1 := by linear_combination (hyz + hwx) / 2
  have h22 : 1 - 2 * q.qx * q.qx - 2 * q.qy * q.qy = R 2 2 := by
    linear_combination -(hxx + hyy) / 2
  rw [ofQuaternion, h.unit, Real.sqrt_one, quotient_of_ne one_ne_zero, div_one]
  simp only [Loop.ok_bind, mul_one, h00, h01, h02, h10, h11, h12, h20, h21, h22]
  rfl

/-! ### The angles -/

theorem mul_cos_atan2 {x y r : ℝ} (hr : 0 ≤ r) (h : x ^ 2 + y ^ 2 = r ^ 2) :
    r * Real.cos (atan2 y x) = x ∧ r * Real.sin (atan2 y x) = y := by
  have hnorm : ‖(⟨x, y⟩ : ℂ)‖ = r := by
    rw [← sq_eq_sq₀ (norm_nonneg _) hr, ← h, Complex.sq_norm, Complex.normSq_mk]
    ring
  have hre := Complex.norm_mul_cos_arg ⟨x, y⟩
  have him := Complex.norm_mul_sin_arg ⟨x, y⟩
  rw [hnorm] at hre him
  exact ⟨hre, him⟩

/-- The second angle is no right angle if the last row does not begin with one or minus one. -/
theorem abs_neg_arcsin_lt_iff (x : ℝ) : |-Real.arcsin x| < Real.pi / 2 ↔ -1 < x ∧ x < 1 := by
  rw [abs_neg, abs_lt, Real.neg_pi_div_two_lt_arcsin, Real.arcsin_lt_pi_div_two]

theorem cos_sin_pitch (h : Rotation R) :
    Real.cos (-Real.arcsin (R 2 0)) = √(1 - R 2 0 ^ 2) ∧
      Real.sin (-Real.arcsin (R 2 0)) = -R 2 0 := by
  have hrow : R 2 2 ^ 2 + R 2 0 ^ 2 + R 2 1 ^ 2 = 1 := h.row_sq 2
  have habs : |R 2 0| ≤ 1 := by
    rw [← sq_le_one_iff_abs_le_one]
    linarith [sq_nonneg (R 2 2), sq_nonneg (R 2 1)]
  obtain ⟨hlow, hhigh⟩ := abs_le.1 habs
  rw [Real.cos_neg, Real.cos_arcsin, Real.sin_neg, Real.sin_arcsin hlow hhigh]
  exact ⟨rfl, rfl⟩

/-- **The angles of a transform whose second one is no right angle.** -/
theorem ofEuler_of_lt (h : Rotation R) (t : Point3f ℝ) (hlt : -1 < R 2 0 ∧ R 2 0 < 1) :
    ofEuler t.x t.y t.z (atan2 (R 2 1) (R 2 2)) (-Real.arcsin (R 2 0)) (atan2 (R 1 0) (R 0 0)) =
      ofPose R t := by
  obtain ⟨hcp, hsp⟩ := cos_sin_pitch h
  have hpos : 0 < 1 - R 2 0 ^ 2 := by nlinarith [hlt.1, hlt.2]
  have hr : 0 < √(1 - R 2 0 ^ 2) := Real.sqrt_pos.2 hpos
  have hsq : √(1 - R 2 0 ^ 2) ^ 2 = 1 - R 2 0 ^ 2 := Real.sq_sqrt hpos.le
  have hrow : R 2 2 ^ 2 + R 2 0 ^ 2 + R 2 1 ^ 2 = 1 := h.row_sq 2
  have hcolumn : R 0 0 ^ 2 + R 1 0 ^ 2 + R 2 0 ^ 2 = 1 := h.column_sq 0
  have h01 : R 0 1 = R 1 2 * R 2 0 - R 1 0 * R 2 2 := h.cofactor 0 1
  have h02 : R 0 2 = R 1 0 * R 2 1 - R 1 1 * R 2 0 := h.cofactor 0 2
  have h11 : R 1 1 = R 2 2 * R 0 0 - R 2 0 * R 0 2 := h.cofactor 1 1
  have h12 : R 1 2 = R 2 0 * R 0 1 - R 2 1 * R 0 0 := h.cofactor 1 2
  obtain ⟨hcr, hsr⟩ := mul_cos_atan2 (x := R 2 2) (y := R 2 1) hr.le (by rw [hsq]; linarith)
  obtain ⟨hcy, hsy⟩ := mul_cos_atan2 (x := R 0 0) (y := R 1 0) hr.le (by rw [hsq]; linarith)
  rw [ofEuler, hcp, hsp]
  -- the four entries that are sums of two products are compared after a multiplication
  have hmul : ∀ {a b : ℝ}, √(1 - R 2 0 ^ 2) ^ 2 * a = √(1 - R 2 0 ^ 2) ^ 2 * b → a = b :=
    fun hab => mul_left_cancel₀ (pow_ne_zero 2 hr.ne') hab
  generalize √(1 - R 2 0 ^ 2) = r at *
  generalize Real.cos (atan2 (R 2 1) (R 2 2)) = cr at *
  generalize Real.sin (atan2 (R 2 1) (R 2 2)) = sr at *
  generalize Real.cos (atan2 (R 1 0) (R 0 0)) = cy at *
  generalize Real.sin (atan2 (R 1 0) (R 0 0)) = sy at *
  have e01 : cy * -R 2 0 * sr - sy * cr = R 0 1 := by
    refine hmul ?_
    calc r ^ 2 * (cy * -R 2 0 * sr - sy * cr)
        = r * cy * -R 2 0 * (r * sr) - r * sy * (r * cr) := by ring
      _ = r ^ 2 * R 0 1 := by
        rw [hcy, hsr, hsy, hcr, hsq]
        linear_combination -h01 - R 2 0 * h12
  have e02 : cy * -R 2 0 * cr + sy * sr = R 0 2 := by
    refine hmul ?_
    calc r ^ 2 * (cy * -R 2 0 * cr + sy * sr)
        = r * cy * -R 2 0 * (r * cr) + r * sy * (r * sr) := by ring
      _ = r ^ 2 * R 0 2 := by
        rw [hcy, hsr, hsy, hcr, hsq]
        linear_combination -h02 + R 2 0 * h11
  have e11 : sy * -R 2 0 * sr + cy * cr = R 1 1 := by
    refine hmul ?_
    calc r ^ 2 * (sy * -R 2 0 * sr + cy * cr)
        = r * sy * -R 2 0 * (r * sr) + r * cy * (r * cr) := by ring
      _ = r ^ 2 * R 1 1 := by
        rw [hcy, hsr, hsy, hcr, hsq]
        linear_combination -h11 + R 2 0 * h02
  have e12 : sy * -R 2 0 * cr - cy * sr = R 1 2 := by
    refine hmul ?_
    calc r ^ 2 * (sy * -R 2 0 * cr - cy * sr)
        = r * sy * -R 2 0 * (r * cr) - r * cy * (r * sr) := by ring
      _ = r ^ 2 * R 1 2 := by
        rw [hcy, hsr, hsy, hcr, hsq]
        linear_combination -h12 - R 2 0 * h01
  have hdiagonal : cy * r = R 0 0 ∧ sy * r = R 1 0 := by
    rw [mul_comm cy, mul_comm sy]
    exact ⟨hcy, hsy⟩
  simp only [e01, e02, e11, e12, hdiagonal.1, hdiagonal.2, hcr, hsr, neg_neg]
  rfl

/-- Beside a second angle that is a right angle, only one circle of entries is left. -/
theorem right_angle (h : Rotation R) (hsq : R 2 0 ^ 2 = 1) :
    (R 0 0 = 0 ∧ R 1 0 = 0) ∧ (R 2 1 = 0 ∧ R 2 2 = 0) ∧ R 1 1 ^ 2 + R 0 1 ^ 2 = 1 := by
  have hrow : R 2 2 ^ 2 + R 2 0 ^ 2 + R 2 1 ^ 2 = 1 := h.row_sq 2
  have hcolumn : R 0 0 ^ 2 + R 1 0 ^ 2 + R 2 0 ^ 2 = 1 := h.column_sq 0
  have hnext : R 1 1 ^ 2 + R 2 1 ^ 2 + R 0 1 ^ 2 = 1 := h.column_sq 1
  have zeros : ∀ {a b : ℝ}, a ^ 2 + b ^ 2 = 0 → a = 0 ∧ b = 0 := by
    intro a b hab
    have ha : a ^ 2 = 0 := by linarith [sq_nonneg a, sq_nonneg b]
    have hb : b ^ 2 = 0 := by linarith [sq_nonneg a, sq_nonneg b]
    exact ⟨pow_eq_zero_iff two_ne_zero |>.1 ha, pow_eq_zero_iff two_ne_zero |>.1 hb⟩
  have hlast := zeros (a := R 2 1) (b := R 2 2) (by linarith)
  refine ⟨zeros (by linarith), hlast, ?_⟩
  rw [hlast.1] at hnext
  linarith

/-- **The angles of a transform whose second one is a right angle** make it again, unless the angle is
a positive one and the first row has a second entry. -/
theorem ofEuler_of_not_lt (h : Rotation R) (t : Point3f ℝ) (hlt : ¬(-1 < R 2 0 ∧ R 2 0 < 1)) :
    ofEuler t.x t.y t.z (atan2 (-R 0 1) (R 1 1)) (-Real.arcsin (R 2 0)) 0 = ofPose R t ↔
      (R 2 0 = -1 → R 0 1 = 0) := by
  obtain ⟨hcp, hsp⟩ := cos_sin_pitch h
  have hsq : R 2 0 ^ 2 = 1 := by
    have hrow : R 2 2 ^ 2 + R 2 0 ^ 2 + R 2 1 ^ 2 = 1 := h.row_sq 2
    have hle : R 2 0 ^ 2 ≤ 1 := by linarith [sq_nonneg (R 2 2), sq_nonneg (R 2 1)]
    refine hle.antisymm ((one_le_sq_iff_one_le_abs _).2 (not_lt.1 fun habs => hlt (abs_lt.1 habs)))
  obtain ⟨⟨h00, h10⟩, ⟨h21, h22⟩, hcircle⟩ := right_angle h hsq
  have h02 : R 0 2 = R 1 0 * R 2 1 - R 1 1 * R 2 0 := h.cofactor 0 2
  have h12 : R 1 2 = R 2 0 * R 0 1 - R 2 1 * R 0 0 := h.cofactor 1 2
  obtain ⟨hcr, hsr⟩ := mul_cos_atan2 (x := R 1 1) (y := -R 0 1) zero_le_one
    (by rw [neg_sq, hcircle, one_pow])
  rw [one_mul] at hcr hsr
  rw [hsq, sub_self, Real.sqrt_zero] at hcp
  have hangles : ofEuler t.x t.y t.z (atan2 (-R 0 1) (R 1 1)) (-Real.arcsin (R 2 0)) 0 =
      ofPose !![0, R 2 0 * R 0 1, -R 2 0 * R 1 1; 0, R 1 1, R 0 1; R 2 0, 0, 0] t := by
    rw [ofEuler, hcp, hsp, hcr, hsr, Real.cos_zero, Real.sin_zero]
    simp only [one_mul, zero_mul, mul_zero, neg_mul, mul_neg, neg_neg, neg_zero, sub_zero, add_zero,
      zero_add, zero_sub]
    rfl
  rw [hangles]
  constructor
  · intro hpose hneg
    have h01 : R 2 0 * R 0 1 = R 0 1 :=
      congrArg (fun self : TransformData => self.transform.matrix 0 1) hpose
    rw [hneg] at h01
    linarith
  · intro hzero
    -- the second entries of the two first rows are the only ones the branch may get wrong
    have h01 : R 2 0 * R 0 1 = R 0 1 := by
      rcases sq_eq_one_iff.1 hsq with hone | hneg
      · rw [hone, one_mul]
      · rw [hzero hneg, mul_zero]
    refine congrArg (ofPose · t) ?_
    rw [h10, h21, zero_mul, zero_sub] at h02
    rw [h21, zero_mul, sub_zero, h01] at h12
    rw [h01, neg_mul, mul_comm (R 2 0), ← h02]
    conv_rhs => rw [eta_fin_three R, h00, h10, h21, h22, h12]

/-- **The angles of a transform make it again**, unless the second one is a right angle upwards and
the first row has a second entry. -/
theorem ofEuler_getRotationEuler_iff (h : Rotation R) (t : Point3f ℝ) :
    ofEuler t.x t.y t.z (ofPose R t).getRotationEuler.x (ofPose R t).getRotationEuler.y
        (ofPose R t).getRotationEuler.z = ofPose R t ↔
      (R 2 0 = -1 → R 0 1 = 0) := by
  by_cases hlt : -1 < R 2 0 ∧ R 2 0 < 1
  · have hangles : (ofPose R t).getRotationEuler =
        ⟨atan2 (R 2 1) (R 2 2), -Real.arcsin (R 2 0), atan2 (R 1 0) (R 0 0)⟩ :=
      if_pos ((abs_neg_arcsin_lt_iff _).2 hlt)
    rw [hangles]
    exact iff_of_true (ofEuler_of_lt h t hlt) fun hneg => absurd hneg hlt.1.ne'
  · have hangles : (ofPose R t).getRotationEuler =
        ⟨atan2 (-R 0 1) (R 1 1), -Real.arcsin (R 2 0), 0⟩ :=
      if_neg fun habs => hlt ((abs_neg_arcsin_lt_iff _).1 habs)
    rw [hangles]
    exact ofEuler_of_not_lt h t hlt

/-- **What is given back makes the same transform.** The quaternion is of unit length. -/
structure RoundTrips (data : TransformData) : Prop where
  quaternion : ∃ q, data.getQuaternion = .ok q ∧
    q.qx * q.qx + q.qy * q.qy + q.qz * q.qz + q.qw * q.qw = 1 ∧
    ofQuaternion data.getTranslation.x data.getTranslation.y data.getTranslation.z q.qx q.qy q.qz
      q.qw = .ok data
  euler : ofEuler data.getTranslation.x data.getTranslation.y data.getTranslation.z
    data.getRotationEuler.x data.getRotationEuler.y data.getRotationEuler.z = data

/-- **Transforms come back from their quaternions and their angles**, unless the second angle is a
right angle upwards and the first row has a second entry. -/
theorem quaternion_iff (h : Rotation R) (t : Point3f ℝ) :
    RoundTrips (ofPose R t) ↔ (R 2 0 = -1 → R 0 1 = 0) := by
  obtain ⟨q, hq, hrepresents⟩ := getQuaternion_represents h t
  rw [← ofEuler_getRotationEuler_iff h t]
  constructor
  · intro hround
    exact hround.euler
  · intro heuler
    exact ⟨⟨q, hq, hrepresents.unit, hrepresents.ofQuaternion_eq t⟩, heuler⟩

theorem rotation_down : Rotation (!![0, 0, -1; 0, 1, 0; 1, 0, 0] : Matrix3 ℝ) where
  orthonormal := by
    ext i j
    fin_cases i <;> fin_cases j <;> simp [mul_apply, Fin.sum_univ_three]
  det := by simp [det_fin_three]

theorem roundTrips_down :
    RoundTrips (ofPose !![0, 0, -1; 0, 1, 0; 1, 0, 0] { x := 1, y := 2, z := 3 }) := by
  refine (quaternion_iff rotation_down _).2 fun hneg => ?_
  have hone : (1 : ℝ) = -1 := hneg
  norm_num at hone

/-- **A quarter turn upwards that comes back as another one.** -/
theorem not_roundTrips_up :
    Rotation (!![0, 1, 0; 0, 0, -1; -1, 0, 0] : Matrix3 ℝ) ∧
      ¬RoundTrips (ofPose !![0, 1, 0; 0, 0, -1; -1, 0, 0] { x := 0, y := 0, z := 0 }) := by
  have hup : Rotation (!![0, 1, 0; 0, 0, -1; -1, 0, 0] : Matrix3 ℝ) := by
    constructor
    · ext i j
      fin_cases i <;> fin_cases j <;> simp [mul_apply, Fin.sum_univ_three]
    · simp [det_fin_three]
  refine ⟨hup, fun hround => ?_⟩
  have hzero : (1 : ℝ) = 0 := (ofEuler_getRotationEuler_iff hup _).1 hround.euler rfl
  exact one_ne_zero hzero

end TransformData

end DepthaiCore
