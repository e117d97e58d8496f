import Mathlib.LinearAlgebra.Matrix.NonsingularInverse

/-!
# Maps of the plane by matrices

A point of the plane has a homogeneous vector, and a matrix maps the point to the one that the
product with the vector stands for. Where the last coordinate of that product is not zero, mapping
by one matrix and then by another is mapping by their product.

Charts of one plane, each an invertible matrix, give a map from any chart to any other. These maps
compose as arrows of a groupoid do.
-/

namespace DepthaiCore.Homography

open Matrix

variable {K : Type} [Field K]

/-! ### Homogeneous vectors -/

/-- The homogeneous vector of a point. -/
def lift (p : K × K) : Fin 3 → K :=
  ![p.1, p.2, 1]

/-- The point that a homogeneous vector stands for. -/
def point (v : Fin 3 → K) : K × K :=
  (v 0 / v 2, v 1 / v 2)

@[simp] theorem lift_two (p : K × K) : lift p 2 = 1 := rfl

@[simp] theorem point_lift (p : K × K) : point (lift p) = p := by
  simp [point, lift]

theorem point_smul {c : K} (hc : c ≠ 0) (v : Fin 3 → K) : point (c • v) = point v := by
  simp [point, mul_div_mul_left _ _ hc]

theorem lift_point {v : Fin 3 → K} (hv : v 2 ≠ 0) : lift (point v) = (v 2)⁻¹ • v := by
  funext i
  fin_cases i
  · simp [lift, point, div_eq_inv_mul]
  · simp [lift, point, div_eq_inv_mul]
  · simp [lift, hv]

/-! ### Maps of points -/

/-- Where a matrix maps a point. -/
def image (M : Matrix (Fin 3) (Fin 3) K) (p : K × K) : K × K :=
  point (M *ᵥ lift p)

@[simp] theorem image_one (p : K × K) : image (1 : Matrix (Fin 3) (Fin 3) K) p = p := by
  simp [image]

/-- The coordinates of a product: those of the first map times those of the second. -/
theorem mulVec_lift_mul (M N : Matrix (Fin 3) (Fin 3) K) {p : K × K} (h : (M *ᵥ lift p) 2 ≠ 0) :
    (N * M) *ᵥ lift p = (M *ᵥ lift p) 2 • (N *ᵥ lift (image M p)) := by
  rw [image, lift_point h, mulVec_smul, mulVec_mulVec, smul_smul, mul_inv_cancel₀ h, one_smul]

/-- **Two maps in a row.** -/
theorem image_image (M N : Matrix (Fin 3) (Fin 3) K) {p : K × K} (h : (M *ᵥ lift p) 2 ≠ 0) :
    image N (image M p) = image (N * M) p := by
  rw [image, image, image, lift_point h, mulVec_smul, point_smul (inv_ne_zero h), mulVec_mulVec]

/-- The coordinates of a product with the point of a vector. -/
theorem mulVec_lift_point (M : Matrix (Fin 3) (Fin 3) K) {v : Fin 3 → K} (hv : v 2 ≠ 0) :
    M *ᵥ lift (point v) = (v 2)⁻¹ • (M *ᵥ v) := by
  rw [lift_point hv, mulVec_smul]

theorem image_point (M : Matrix (Fin 3) (Fin 3) K) {v : Fin 3 → K} (hv : v 2 ≠ 0) :
    image M (point v) = point (M *ᵥ v) := by
  rw [image, mulVec_lift_point M hv, point_smul (inv_ne_zero hv)]

/-- A vector stands for a point exactly if it is a multiple of its homogeneous vector. -/
theorem point_eq_iff {v : Fin 3 → K} (hv : v 2 ≠ 0) {p : K × K} :
    point v = p ↔ v = v 2 • lift p := by
  constructor
  · rintro rfl
    rw [lift_point hv, smul_smul, mul_inv_cancel₀ hv, one_smul]
  · intro h
    rw [h, point_smul, point_lift]
    simpa using hv

/-! ### Routes -/

/-- The end of a route, whose first matrix is applied first. -/
def along : List (Matrix (Fin 3) (Fin 3) K) → K × K → K × K
  | [], p => p
  | M :: route, p => along route (image M p)

/-- The coordinates that a route divides by. -/
def coordinates : List (Matrix (Fin 3) (Fin 3) K) → K × K → List K
  | [], _ => []
  | M :: route, p => (M *ᵥ lift p) 2 :: coordinates route (image M p)

/-- The product of a route. -/
def product : List (Matrix (Fin 3) (Fin 3) K) → Matrix (Fin 3) (Fin 3) K
  | [] => 1
  | M :: route => product route * M

/-- The last coordinate of the product is the product of the coordinates. -/
theorem product_mulVec_lift (route : List (Matrix (Fin 3) (Fin 3) K)) {p : K × K}
    (h : ∀ z ∈ coordinates route p, z ≠ 0) :
    (product route *ᵥ lift p) 2 = (coordinates route p).prod := by
  induction route generalizing p with
  | nil => simp [product, coordinates]
  | cons M route ih =>
    have hz : (M *ᵥ lift p) 2 ≠ 0 := h _ (by simp [coordinates])
    have htail : ∀ z ∈ coordinates route (image M p), z ≠ 0 :=
      fun z hmem => h z (by simp [coordinates, hmem])
    rw [product, mulVec_lift_mul _ _ hz, coordinates, List.prod_cons, ← ih htail]
    rfl

theorem product_ne_zero (route : List (Matrix (Fin 3) (Fin 3) K)) {p : K × K}
    (h : ∀ z ∈ coordinates route p, z ≠ 0) : (product route *ᵥ lift p) 2 ≠ 0 := by
  rw [product_mulVec_lift route h]
  exact List.prod_ne_zero fun hmem => h 0 hmem rfl

/-- **A route is the map of its product**, where it divides by no zero. -/
theorem along_eq_image (route : List (Matrix (Fin 3) (Fin 3) K)) {p : K × K}
    (h : ∀ z ∈ coordinates route p, z ≠ 0) : along route p = image (product route) p := by
  induction route generalizing p with
  | nil => simp [along, product]
  | cons M route ih =>
    have hz : (M *ᵥ lift p) 2 ≠ 0 := h _ (by simp [coordinates])
    rw [along, product, ← image_image _ _ hz]
    exact ih fun z hmem => h z (by simp [coordinates, hmem])

/-- The last coordinates of the vectors that a route makes of a vector. -/
def heights : List (Matrix (Fin 3) (Fin 3) K) → (Fin 3 → K) → List K
  | [], _ => []
  | M :: route, v => (M *ᵥ v) 2 :: heights route (M *ᵥ v)

/-- A route divides by no zero exactly if no vector on it ends with one. -/
theorem coordinates_ne_zero_iff (route : List (Matrix (Fin 3) (Fin 3) K)) {v : Fin 3 → K}
    (hv : v 2 ≠ 0) :
    (∀ z ∈ coordinates route (point v), z ≠ 0) ↔ ∀ z ∈ heights route v, z ≠ 0 := by
  induction route generalizing v with
  | nil => simp [coordinates, heights]
  | cons M route ih =>
    have hhead : (M *ᵥ lift (point v)) 2 ≠ 0 ↔ (M *ᵥ v) 2 ≠ 0 := by
      simp [mulVec_lift_point M hv, hv]
    rw [coordinates, heights, List.forall_mem_cons, List.forall_mem_cons, image_point M hv, hhead]
    exact and_congr_right ih

/-! ### Charts -/

section Charts

variable {ι : Type} (P : ι → Matrix (Fin 3) (Fin 3) K)

/-- From one chart to another. -/
noncomputable def transfer (i j : ι) : Matrix (Fin 3) (Fin 3) K :=
  P j * (P i)⁻¹

variable {P}

theorem transfer_self {i : ι} (hi : IsUnit (P i).det) : transfer P i i = 1 :=
  mul_nonsing_inv _ hi

/-- **Transfers compose.** -/
theorem transfer_mul_transfer {i j k : ι} (hj : IsUnit (P j).det) :
    transfer P j k * transfer P i j = transfer P i k := by
  rw [transfer, transfer, transfer, Matrix.mul_assoc, nonsing_inv_mul_cancel_left _ _ hj]

/-- **Transfers of points compose.** -/
theorem image_transfer_transfer {i j k : ι} (hj : IsUnit (P j).det) {p : K × K}
    (h : (transfer P i j *ᵥ lift p) 2 ≠ 0) :
    image (transfer P j k) (image (transfer P i j) p) = image (transfer P i k) p := by
  rw [image_image _ _ h, transfer_mul_transfer hj]

end Charts

end DepthaiCore.Homography
