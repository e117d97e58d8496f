import DepthaiCore.Datatype.NNData

/-!
# What a viewer reads of a tensor

A tensor that was added to a message should be read back by a `NNDataViewer`, whatever was added before
and after it. Three things are in the way. The viewer refuses a description whose first or second stride
is zero, and an axis of extent 1 has such a stride, so that tensors with an axis for `N` are never read.
Numbers of double precision are read as zero. And an index has 32 bits.
-/

namespace DepthaiCore.NN

variable {T F : Type} {N : Numbers T F}

/-! ### What should be read -/

/-- The coordinates of an element along the axes of an order, by their labels. The other orders lack a
label or are not read. -/
def StorageOrder.coordinates (order : StorageOrder) (c h w : ℕ) : Option (List ℕ) :=
  match order with
  | .NCHW => some [0, c, h, w]
  | .NHWC => some [0, h, w, c]
  | .HCW => some [h, c, w]
  | .HWC => some [h, w, c]
  | .CHW => some [c, h, w]
  | .CWH => some [c, w, h]
  | .WCH => some [w, c, h]
  | .WHC => some [w, h, c]
  | .NHCW | .NC | .CN | .C | .H | .W => none

/-- The shape has the axes of an order that is read, and one of extent 1 for `N`. -/
def StorageOrder.Fits (order : StorageOrder) (shape : List ℕ) : Prop :=
  match order with
  | .NCHW | .NHWC => ∃ x y z, shape = [1, x, y, z]
  | .HCW | .HWC | .CHW | .CWH | .WCH | .WHC => ∃ x y z, shape = [x, y, z]
  | .NHCW | .NC | .CN | .C | .H | .W => False

/-- The value that is stored for a number. -/
def Numbers.stored (N : Numbers T F) : DataType → T → F
  | .I8, x => N.ofInt (N.toInt8 x).toInt
  | .U16F, x => N.ofInt (N.toUInt16 x).toNat
  | .FP16, x => N.fp16_ieee_to_fp32_value (N.fp32_to_fp16 x)
  | .FP32, x => N.ofFloat (N.toFloat x)
  | .INT, x => N.ofInt (N.toInt32 x).toInt
  | .U8F, x => N.ofInt (N.toUInt8 x).toNat
  | .FP64, x => N.ofDouble (N.toDouble x)

theorem length_store (dataType : DataType) (x : T) : (N.store dataType x).length = dataType.size := by
  cases dataType <;> simp [Numbers.store, DataType.size]

/-- The numbers of the three axes of an order, as those of height, width and channel. -/
def StorageOrder.arrange {α : Type} (order : StorageOrder) (x y z : α) : α × α × α :=
  match order with
  | .HCW => (x, z, y)
  | .CHW => (y, z, x)
  | .CWH => (z, y, x)
  | .WCH => (z, x, y)
  | .WHC => (y, x, z)
  | _ => (x, y, z)

/-! ### The index of an element -/

namespace NNDataViewer

variable {this : NNDataViewer F} {f : FactorsBefore} {c h w i : ℤ}

theorem product_eq_some {factor : Int32} {x p : ℤ} (h : product factor x = some p) :
    p = factor.toInt * x := by
  rw [product] at h
  exact (Option.some.inj (Option.ite_none_right_eq_some.1 h).2).symm

/-- A factor as it is in the description, as long as it fits. -/
theorem toInt_ofNat {stride : ℕ} (h : stride < 2 ^ 31) :
    (UInt32.ofNat stride).toInt32.toInt = stride := by
  rw [UInt32.toInt32_ofNat', Int32.toInt_ofNat_of_lt h]

/-- In any case it is the same up to multiples of `2 ^ 32`. -/
theorem toInt_ofNat_modEq (stride : ℕ) :
    (UInt32.ofNat stride).toInt32.toInt ≡ stride [ZMOD (2 ^ 32 : ℕ)] := by
  rw [UInt32.toInt32_ofNat', Int32.toInt_ofNat']
  exact Int.bmod_emod

theorem product_ofNat {stride x : ℕ} (hstride : stride < 2 ^ 31) (h : stride * x < 2 ^ 31) :
    product (UInt32.ofNat stride).toInt32 x = some ((stride * x : ℕ) : ℤ) := by
  have hcast : (stride : ℤ) * x = ((stride * x : ℕ) : ℤ) := (Nat.cast_mul stride x).symm
  rw [product, toInt_ofNat hstride, hcast, if_pos ⟨by omega, by omega⟩]

theorem index_eq_some (hi : this.index f c h w = some i) :
    i = (this.tensor.offset.toNat + f.h.toInt * h + f.w.toInt * w + f.c.toInt * c).bmod
      (2 ^ 32) := by
  obtain ⟨ph, hph, hi⟩ := Option.bind_eq_some_iff.1 hi
  obtain ⟨pw, hpw, hi⟩ := Option.bind_eq_some_iff.1 hi
  obtain ⟨pc, hpc, hi⟩ := Option.bind_eq_some_iff.1 hi
  rw [← product_eq_some hph, ← product_eq_some hpw, ← product_eq_some hpc]
  exact (Option.some.inj hi).symm

/-- What an index is that is `n` up to multiples of `2 ^ 32`. -/
theorem bmod_of_modEq {x : ℤ} {n : ℕ} (h : x ≡ n [ZMOD (2 ^ 32 : ℕ)]) :
    x.bmod (2 ^ 32) = (n : ℤ).bmod (2 ^ 32) := by
  rw [← Int.emod_bmod, h, Int.emod_bmod]

theorem bmod_of_lt {n : ℕ} (h : n < 2 ^ 31) : (n : ℤ).bmod (2 ^ 32) = n :=
  Int.bmod_eq_of_le (by omega) (by omega)

theorem bmod_neg_of_le {n : ℕ} (h : 2 ^ 31 ≤ n) (h' : n < 2 ^ 32) : (n : ℤ).bmod (2 ^ 32) < 0 := by
  rw [Int.bmod_eq_emod, if_pos (by omega)]
  omega

/-! ### A viewer of a tensor -/

/-- The viewer has the description of the tensor, and the bytes are where it says. -/
structure Holds (N : Numbers T F) (this : NNDataViewer F) (tensor : XArray T) (start : ℕ) : Prop where
  dims : this.tensor.dims = tensor.shape.map UInt32.ofNat
  strides : this.tensor.strides =
    tensor.strides.map fun stride => .ofNat (stride * this.tensor.dataType.size)
  offset : this.tensor.offset = .ofNat start
  aligned : DATA_ALIGNMENT ∣ start
  data : ∃ pre post, this.data = pre ++ tensor.data.flatMap (N.store this.tensor.dataType) ++ post ∧
    pre.length = start

/-- **Every element is read as it was stored, from the bytes of the tensor.** -/
def Readable (N : Numbers T F) (this : NNDataViewer F) (tensor : XArray T) (start : ℕ) : Prop :=
  ∃ factorsBefore, this.build = some factorsBefore ∧
    ∀ (c h w : ℕ) (coords : List ℕ), this.tensor.order.coordinates c h w = some coords →
      RowMajor.Within coords tensor.shape →
        ∃ x places, tensor.data[RowMajor.place tensor.shape coords]? = some x ∧
          this.get N factorsBefore c h w = some (N.mul
            (N.sub (N.stored this.tensor.dataType x) this.tensor.qpZp) this.tensor.qpScale, places) ∧
          ∀ p ∈ places, start ≤ p ∧
            p < start + tensor.data.length * this.tensor.dataType.size

/-- When it is so. -/
structure ReadsBack (N : Numbers T F) (info : TensorInfo F) (tensor : XArray T) (start : ℕ) :
    Prop where
  /-- There is no axis for `N`. -/
  order : info.order ≠ .NCHW ∧ info.order ≠ .NHWC
  /-- The first two strides are not zero as they are stored. -/
  strides : ∀ stride ∈ tensor.strides.take 2, stride * info.dataType.size % 2 ^ 32 ≠ 0
  /-- Numbers of double precision have all to be read as zero. -/
  double : info.dataType = .FP64 → ∀ x ∈ tensor.data,
    N.mul (N.sub (N.ofDouble (N.toDouble x)) info.qpZp) info.qpScale = N.zero
  /-- For the other types, the last element begins below two GiB. -/
  range : info.dataType ≠ .FP64 → tensor.data ≠ [] →
    start + (tensor.data.length - 1) * info.dataType.size < 2 ^ 31

variable {N : Numbers T F} {tensor : XArray T} {start : ℕ}

theorem Holds.length_le (hholds : this.Holds N tensor start) :
    start + tensor.data.length * this.tensor.dataType.size ≤ this.data.length := by
  obtain ⟨pre, post, hdata, hpre⟩ := hholds.data
  rw [hdata, List.length_append, List.length_append, hpre,
    RowMajor.length_flatMap fun a _ => length_store _ a]
  omega

theorem Holds.build_eq_none (hholds : this.Holds N tensor start)
    {x y z : ℕ} (hshape : tensor.shape = [1, x, y, z]) : this.build = none := by
  have hzero : this.tensor.strides.getD 0 0 = 0 := by
    rw [hholds.strides, XArray.strides, hshape]
    simp [RowMajor.strides]
  rw [build]
  split
  · rfl
  · rw [if_pos (.inl hzero)]

theorem Holds.sanity_check_eq (hholds : this.Holds N tensor start)
    {x y z : ℕ} (hshape : tensor.shape = [x, y, z]) : this.sanity_check = true := by
  have hlength := hholds.length_le
  rw [tensor.length, hshape] at hlength
  have htotal : (this.tensor.offset + this.tensor.dims.getD 0 0 * this.tensor.strides.getD 0 0).toNat ≤
      start + [x, y, z].prod * this.tensor.dataType.size := by
    rw [hholds.offset, hholds.dims, hholds.strides, XArray.strides, hshape]
    simp only [RowMajor.strides, List.map_cons, List.getD_cons_zero, UInt32.toNat_add,
      UInt32.toNat_mul, UInt32.toNat_ofNat', ← Nat.mul_mod, ← Nat.add_mod]
    refine (Nat.mod_le _ _).trans (Nat.add_le_add_left ?_ start)
    split
    · rw [Nat.zero_mul, Nat.mul_zero]
      exact Nat.zero_le _
    · have hprod : [x, y, z].prod = x * [y, z].prod := List.prod_cons
      rw [hprod, Nat.mul_assoc x]
  have hdims : this.tensor.dims.length = 3 := by
    rw [hholds.dims, hshape]
    rfl
  rw [sanity_check, if_neg (by omega), if_neg (by omega)]

/-- The factors of the axes of an order. -/
def factors (order : StorageOrder) (x y z : Int32) : FactorsBefore :=
  let (h, w, c) := order.arrange x y z
  ⟨h, w, c⟩

/-- Without one the first two strides must not be zero. -/
theorem Holds.build_eq (hholds : this.Holds N tensor start)
    (hfits : this.tensor.order.Fits tensor.shape) {x y z s₀ s₁ s₂ : ℕ} (hshape : tensor.shape = [x, y, z])
    (hstrides : tensor.strides = [s₀, s₁, s₂]) :
    this.build = if s₀ * this.tensor.dataType.size % 2 ^ 32 = 0 ∨
        s₁ * this.tensor.dataType.size % 2 ^ 32 = 0 then none
      else some (factors this.tensor.order (UInt32.ofNat (s₀ * this.tensor.dataType.size)).toInt32
        (UInt32.ofNat (s₁ * this.tensor.dataType.size)).toInt32
        (Int32.ofNat this.tensor.dataType.size)) := by
  have hsanity := hholds.sanity_check_eq hshape
  have hzero : ∀ n : ℕ, UInt32.ofNat n = 0 ↔ n % 2 ^ 32 = 0 := by
    intro n
    rw [← UInt32.toNat_inj, UInt32.toNat_ofNat']
    rfl
  rw [build, hsanity, hholds.strides, hstrides]
  simp only [List.map_cons, List.map_nil, List.length_cons, List.length_nil, List.getD_cons_zero,
    List.getD_cons_succ, hzero]
  rw [if_neg (by omega)]
  congr 1
  rw [hshape] at hfits
  cases horder : this.tensor.order with
  | NCHW | NHWC =>
    rw [horder] at hfits
    obtain ⟨_, _, _, hfits⟩ := hfits
    cases hfits
  | NHCW | NC | CN | C | H | W =>
    rw [horder] at hfits
    cases hfits
  | HCW | HWC | CHW | CWH | WCH | WHC => rfl

theorem coordinates_eq_some {order : StorageOrder} {x y z : ℕ} (hfits : order.Fits [x, y, z])
    {c h w : ℕ} {coords : List ℕ} : order.coordinates c h w = some coords ↔
      ∃ x₀ x₁ x₂, coords = [x₀, x₁, x₂] ∧ (h, w, c) = order.arrange x₀ x₁ x₂ := by
  cases order with
  | NCHW | NHWC =>
    obtain ⟨_, _, _, hfits⟩ := hfits
    cases hfits
  | NHCW | NC | CN | C | H | W => cases hfits
  | HCW | HWC | CHW | CWH | WCH | WHC =>
    constructor
    · rintro ⟨⟩
      exact ⟨_, _, _, rfl, rfl⟩
    · rintro ⟨x₀, x₁, x₂, rfl, hlabels⟩
      cases hlabels
      rfl

theorem index_factors {order : StorageOrder} {f₀ f₁ f₂ : Int32} {x₀ x₁ x₂ c h w : ℕ} {p₀ p₁ p₂ : ℤ}
    (hlabels : (h, w, c) = order.arrange x₀ x₁ x₂) (h₀ : product f₀ x₀ = some p₀)
    (h₁ : product f₁ x₁ = some p₁) (h₂ : product f₂ x₂ = some p₂) :
    this.index (factors order f₀ f₁ f₂) c h w =
      some ((this.tensor.offset.toNat + (p₀ + p₁ + p₂)).bmod (2 ^ 32)) := by
  cases order <;> cases hlabels <;> rw [index] <;>
    simp only [factors, StorageOrder.arrange, h₀, h₁, h₂, Option.bind_eq_bind, Option.bind_some,
      Option.some.injEq] <;> congr 1 <;> ring

theorem index_factors_eq_some {order : StorageOrder} {f₀ f₁ f₂ : Int32} {x₀ x₁ x₂ c h w : ℕ}
    (hlabels : (h, w, c) = order.arrange x₀ x₁ x₂) {i : ℤ}
    (hi : this.index (factors order f₀ f₁ f₂) c h w = some i) :
    i = (this.tensor.offset.toNat + (f₀.toInt * x₀ + f₁.toInt * x₁ + f₂.toInt * x₂)).bmod
      (2 ^ 32) := by
  rw [index_eq_some hi]
  cases order <;> cases hlabels <;> congr 1 <;> simp only [factors, StorageOrder.arrange] <;> ring

/-! ### One element -/

theorem place_mul {x y z x₀ x₁ x₂ s₀ s₁ s₂ : ℕ} (hwithin : RowMajor.Within [x₀, x₁, x₂] [x, y, z])
    (hstrides : RowMajor.strides [x, y, z] = [s₀, s₁, s₂]) (n : ℕ) :
    RowMajor.place [x, y, z] [x₀, x₁, x₂] * n = s₀ * n * x₀ + s₁ * n * x₁ + n * x₂ := by
  have hsum := RowMajor.sum_strides hwithin
  have hlast : s₂ * x₂ = x₂ := by
    obtain ⟨-, -, hlast⟩ : _ ∧ _ ∧ x₂ < z := by simpa using hwithin
    have hs₂ : s₂ = if z = 1 then 0 else 1 := by
      simp only [RowMajor.strides, List.cons.injEq, List.prod_nil] at hstrides
      exact hstrides.2.2.1.symm
    rw [hs₂]
    split
    · omega
    · exact Nat.one_mul x₂
  rw [hstrides] at hsum
  simp only [List.zipWith_cons_cons, List.zipWith_nil_left, List.sum_cons, List.sum_nil, hlast,
    Nat.add_zero] at hsum
  rw [← hsum]
  ring

variable {x y z x₀ x₁ x₂ s₀ s₁ s₂ c' h' w' : ℕ}

/-- **The index is that of the first byte of the element,** if all bytes are below two GiB. -/
theorem Holds.index_eq (hholds : this.Holds N tensor start) (hshape : tensor.shape = [x, y, z])
    (hstrides : tensor.strides = [s₀, s₁, s₂]) (hs₀ : s₀ ≠ 0) (hs₁ : s₁ ≠ 0)
    (hrange : start + (tensor.data.length - 1) * this.tensor.dataType.size < 2 ^ 31)
    (hwithin : RowMajor.Within [x₀, x₁, x₂] [x, y, z])
    (hlabels : (h', w', c') = this.tensor.order.arrange x₀ x₁ x₂) :
    this.index (factors this.tensor.order (UInt32.ofNat (s₀ * this.tensor.dataType.size)).toInt32
        (UInt32.ofNat (s₁ * this.tensor.dataType.size)).toInt32
        (Int32.ofNat this.tensor.dataType.size)) c' h' w' =
      some ((start + RowMajor.place [x, y, z] [x₀, x₁, x₂] * this.tensor.dataType.size : ℕ) : ℤ) := by
  rw [XArray.strides, hshape] at hstrides
  obtain ⟨hx₀, hx₁, hx₂⟩ : x₀ < x ∧ x₁ < y ∧ x₂ < z := by simpa using hwithin
  have hextents : x ≠ 1 ∧ y ≠ 1 := by
    simp only [RowMajor.strides, List.cons.injEq] at hstrides
    exact ⟨fun hx => hs₀ (by rw [← hstrides.1, if_pos hx]),
      fun hy => hs₁ (by rw [← hstrides.2.1, if_pos hy])⟩
  have hbound : ∀ coords, RowMajor.Within coords [x, y, z] →
      start + RowMajor.place [x, y, z] coords * this.tensor.dataType.size < 2 ^ 31 := by
    intro coords hcoords
    have hlt := RowMajor.place_lt hcoords
    rw [← hshape, ← tensor.length, hshape] at hlt
    have hmul := Nat.mul_le_mul_right this.tensor.dataType.size (Nat.le_sub_one_of_lt hlt)
    omega
  -- The strides are the places of the neighbours of the first element.
  have hwithin₀ : RowMajor.Within [1, 0, 0] [x, y, z] := by simp; omega
  have hwithin₁ : RowMajor.Within [0, 1, 0] [x, y, z] := by simp; omega
  have hfirst := place_mul hwithin₀ hstrides this.tensor.dataType.size
  have hsecond := place_mul hwithin₁ hstrides this.tensor.dataType.size
  have hfirst' := hbound _ hwithin₀
  have hsecond' := hbound _ hwithin₁
  have hplace := place_mul hwithin hstrides this.tensor.dataType.size
  have hall := hbound _ hwithin
  have hsize : this.tensor.dataType.size < 2 ^ 31 := by cases this.tensor.dataType <;> decide
  rw [Nat.mul_one, Nat.mul_zero, Nat.mul_zero] at hfirst hsecond
  have h₀ := product_ofNat (x := x₀) (by omega : s₀ * this.tensor.dataType.size < 2 ^ 31) (by omega)
  have h₁ := product_ofNat (x := x₁) (by omega : s₁ * this.tensor.dataType.size < 2 ^ 31) (by omega)
  have h₂ := product_ofNat (x := x₂) hsize (by omega)
  rw [UInt32.toInt32_ofNat' (n := this.tensor.dataType.size)] at h₂
  rw [index_factors hlabels h₀ h₁ h₂, hholds.offset, UInt32.toNat_ofNat', Nat.mod_eq_of_lt (by omega),
    ← bmod_of_lt hall, hplace]
  push_cast
  rfl

/-- In any case it is the same up to multiples of `2 ^ 32`. -/
theorem Holds.index_eq_some (hholds : this.Holds N tensor start)
    (hstrides : RowMajor.strides [x, y, z] = [s₀, s₁, s₂])
    (hwithin : RowMajor.Within [x₀, x₁, x₂] [x, y, z])
    (hlabels : (h', w', c') = this.tensor.order.arrange x₀ x₁ x₂) {i : ℤ}
    (hi : this.index (factors this.tensor.order
        (UInt32.ofNat (s₀ * this.tensor.dataType.size)).toInt32
        (UInt32.ofNat (s₁ * this.tensor.dataType.size)).toInt32
        (Int32.ofNat this.tensor.dataType.size)) c' h' w' = some i) :
    i = ((start + RowMajor.place [x, y, z] [x₀, x₁, x₂] * this.tensor.dataType.size : ℕ) : ℤ).bmod
      (2 ^ 32) := by
  rw [index_factors_eq_some hlabels hi]
  refine bmod_of_modEq ?_
  rw [place_mul hwithin hstrides, hholds.offset, UInt32.toNat_ofNat']
  push_cast
  refine Int.ModEq.add (Int.mod_modEq _ _) ?_
  refine Int.ModEq.add (Int.ModEq.add ?_ ?_) ?_
  · exact_mod_cast (toInt_ofNat_modEq _).mul_right _
  · exact_mod_cast (toInt_ofNat_modEq _).mul_right _
  · exact (toInt_ofNat_modEq _).mul_right _

theorem Holds.read_eq (hholds : this.Holds N tensor start) {k : ℕ} {a : T}
    (ha : tensor.data[k]? = some a) :
    this.read this.tensor.dataType.size ((start + k * this.tensor.dataType.size : ℕ) : ℤ) =
      some (LittleEndian.decode (N.store this.tensor.dataType a),
        List.range' (start + k * this.tensor.dataType.size) this.tensor.dataType.size) := by
  have hk : k < tensor.data.length := (List.getElem?_eq_some_iff.1 ha).1
  have hsize : 0 < this.tensor.dataType.size ∧ this.tensor.dataType.size ∣ 64 := by
    cases this.tensor.dataType <;> decide
  have hplace : (start + k * this.tensor.dataType.size) / this.tensor.dataType.size *
      this.tensor.dataType.size = start + k * this.tensor.dataType.size :=
    Nat.div_mul_cancel (Nat.dvd_add (hsize.2.trans hholds.aligned) (Nat.dvd_mul_left _ _))
  have hlast : (k + 1) * this.tensor.dataType.size ≤
      tensor.data.length * this.tensor.dataType.size := Nat.mul_le_mul_right _ hk
  have hlength := hholds.length_le
  have hbytes : (this.data.drop (start + k * this.tensor.dataType.size)).take
      this.tensor.dataType.size = N.store this.tensor.dataType a := by
    obtain ⟨pre, post, hdata, hpre⟩ := hholds.data
    rw [hdata, ← hpre, ← List.drop_drop, List.append_assoc, List.drop_left, List.drop_append_of_le_length,
      List.take_append_of_le_length]
    · exact RowMajor.take_drop_flatMap (fun a _ => length_store _ a) ha
    · rw [List.length_drop, RowMajor.length_flatMap fun a _ => length_store _ a]
      rw [Nat.succ_mul] at hlast
      omega
    · rw [RowMajor.length_flatMap fun a _ => length_store _ a]
      rw [Nat.succ_mul] at hlast
      omega
  rw [Nat.succ_mul] at hlast
  rw [read, Int.toNat_natCast, hplace, if_neg (by omega), if_neg (by omega), hbytes]

/-- **An element is read as it was stored.** -/
theorem Holds.get_eq (hholds : this.Holds N tensor start) {k : ℕ} {a : T}
    (ha : tensor.data[k]? = some a) (hdouble : this.tensor.dataType ≠ .FP64)
    (hindex : this.index f c h w =
      some ((start + k * this.tensor.dataType.size : ℕ) : ℤ)) :
    this.get N f c h w = some (N.mul (N.sub (N.stored this.tensor.dataType a) this.tensor.qpZp)
      this.tensor.qpScale,
        List.range' (start + k * this.tensor.dataType.size) this.tensor.dataType.size) := by
  have hread := hholds.read_eq ha
  rw [get, hindex]
  cases htype : this.tensor.dataType with
  | FP64 => exact absurd htype hdouble
  | U8F =>
    rw [htype] at hread
    show (this.read (DataType.size .U8F) _).bind _ = _
    rw [hread]
    show some (_, _) = some (_, _)
    simp [Numbers.store, Numbers.stored]
  | I8 =>
    rw [htype] at hread
    show (this.read (DataType.size .I8) _).bind _ = _
    rw [hread]
    show some (_, _) = some (_, _)
    simp [Numbers.store, Numbers.stored]
  | U16F =>
    rw [htype] at hread
    show (this.read (DataType.size .U16F) _).bind _ = _
    rw [hread]
    show some (_, _) = some (_, _)
    simp [Numbers.store, Numbers.stored, LittleEndian.decode_encode]
  | INT =>
    rw [htype] at hread
    show (this.read (DataType.size .INT) _).bind _ = _
    rw [hread]
    show some (_, _) = some (_, _)
    simp [Numbers.store, Numbers.stored, LittleEndian.decode_encode]
  | FP16 =>
    rw [htype] at hread
    show (this.read (DataType.size .FP16) _).bind _ = _
    rw [hread]
    show some (_, _) = some (_, _)
    simp [Numbers.store, Numbers.stored, LittleEndian.decode_encode]
  | FP32 =>
    rw [htype] at hread
    show (this.read (DataType.size .FP32) _).bind _ = _
    rw [hread]
    show some (_, _) = some (_, _)
    simp [Numbers.store, Numbers.stored, LittleEndian.decode_encode]

theorem exists_read {v : F} {places : List ℕ} (hdouble : this.tensor.dataType ≠ .FP64)
    (hget : this.get N f c h w = some (v, places)) :
    ∃ i n, this.index f c h w = some i ∧ this.read this.tensor.dataType.size i = some (n, places) := by
  rw [get] at hget
  cases htype : this.tensor.dataType <;> rw [htype] at hget <;> first
    | exact absurd htype hdouble
    | obtain ⟨i, hi, hget⟩ := Option.bind_eq_some_iff.1 hget
      obtain ⟨⟨n, places⟩, hread, hget⟩ := Option.bind_eq_some_iff.1 hget
      cases hget
      exact ⟨i, n, hi, hread⟩

theorem get_double (hdouble : this.tensor.dataType = .FP64) :
    this.get N f c h w = some (N.zero, []) := by
  rw [get, hdouble]

/-! ### All elements -/

theorem fits_cases {order : StorageOrder} {shape : List ℕ} (h : order.Fits shape) :
    (order = .NCHW ∨ order = .NHWC) ∧ (∃ x y z, shape = [1, x, y, z]) ∨
      (order ≠ .NCHW ∧ order ≠ .NHWC) ∧ ∃ x y z, shape = [x, y, z] := by
  cases order with
  | NCHW | NHWC => exact .inl ⟨by simp, h⟩
  | NHCW | NC | CN | C | H | W => cases h
  | HCW | HWC | CHW | CWH | WCH | WHC => exact .inr ⟨by simp, h⟩

theorem exists_coordinates {order : StorageOrder} (hfits : order.Fits [x, y, z]) {k : ℕ}
    (hk : k < [x, y, z].prod) : ∃ c h w x₀ x₁ x₂ : ℕ, order.coordinates c h w = some [x₀, x₁, x₂] ∧
      (h, w, c) = order.arrange x₀ x₁ x₂ ∧ RowMajor.Within [x₀, x₁, x₂] [x, y, z] ∧
      RowMajor.place [x, y, z] [x₀, x₁, x₂] = k := by
  obtain ⟨coords, hwithin, hplace⟩ := RowMajor.exists_place hk
  match coords, hwithin with
  | [x₀, x₁, x₂], hwithin =>
    exact ⟨(order.arrange x₀ x₁ x₂).2.2, (order.arrange x₀ x₁ x₂).1, (order.arrange x₀ x₁ x₂).2.1,
      x₀, x₁, x₂, (coordinates_eq_some hfits).2 ⟨x₀, x₁, x₂, rfl, rfl⟩, rfl, hwithin, hplace⟩

/-- **A tensor of three axes reads back,** when its strides and its bytes can be told. -/
theorem Holds.readable (hholds : this.Holds N tensor start)
    (hfits : this.tensor.order.Fits tensor.shape) (hshape : tensor.shape = [x, y, z])
    (h : ReadsBack N this.tensor tensor start) : this.Readable N tensor start := by
  obtain ⟨s₀, s₁, s₂, hstrides⟩ : ∃ s₀ s₁ s₂, tensor.strides = [s₀, s₁, s₂] := by
    rw [XArray.strides, hshape]
    exact ⟨_, _, _, rfl⟩
  have h₀ : s₀ * this.tensor.dataType.size % 2 ^ 32 ≠ 0 := h.strides s₀ (by simp [hstrides])
  have h₁ : s₁ * this.tensor.dataType.size % 2 ^ 32 ≠ 0 := h.strides s₁ (by simp [hstrides])
  refine ⟨_, (hholds.build_eq hfits hshape hstrides).trans (if_neg (not_or.2 ⟨h₀, h₁⟩)), ?_⟩
  intro c h' w coords hcoords hwithin
  rw [hshape] at hfits hwithin ⊢
  obtain ⟨x₀, x₁, x₂, rfl, hlabels⟩ := (coordinates_eq_some hfits).1 hcoords
  have hplace := RowMajor.place_lt hwithin
  have hlength : tensor.data.length = [x, y, z].prod := by rw [tensor.length, hshape]
  obtain ⟨a, ha⟩ : ∃ a, tensor.data[RowMajor.place [x, y, z] [x₀, x₁, x₂]]? = some a :=
    ⟨_, List.getElem?_eq_getElem (hlength ▸ hplace)⟩
  by_cases hdouble : this.tensor.dataType = .FP64
  · refine ⟨a, [], ha, ?_, fun p hp => (nomatch hp)⟩
    rw [get_double hdouble, hdouble, Numbers.stored, h.double hdouble a (List.mem_of_getElem? ha)]
  · have hrange := h.range hdouble (List.ne_nil_of_mem (List.mem_of_getElem? ha))
    have hindex := hholds.index_eq hshape hstrides (fun hzero => h₀ (by rw [hzero, Nat.zero_mul]; rfl))
      (fun hzero => h₁ (by rw [hzero, Nat.zero_mul]; rfl)) hrange hwithin hlabels
    refine ⟨a, _, ha, hholds.get_eq ha hdouble hindex, ?_⟩
    intro p hp
    obtain ⟨hfirst, hlast⟩ := List.mem_range'_1.1 hp
    have hbelow := Nat.mul_le_mul_right this.tensor.dataType.size (hlength ▸ hplace)
    rw [Nat.succ_mul] at hbelow
    omega

/-- What is read is below two GiB, and begins at a multiple of the size. -/
theorem places_of_read {width n : ℕ} {places : List ℕ} {i : ℤ} (hi : i < 2 ^ 31) (hwidth : 0 < width)
    (h : this.read width i = some (n, places)) : 0 ≤ i ∧ ∃ p ∈ places, p ≤ i.toNat := by
  rw [read] at h
  split at h
  · cases h
  rename_i hnonneg
  split at h
  · cases h
  cases h
  refine ⟨by omega, i.toNat / width * width, ?_, Nat.div_mul_le_self _ _⟩
  rw [List.mem_range'_1]
  omega

/-- **A tensor of three axes does not read back otherwise.** -/
theorem Holds.readsBack (hholds : this.Holds N tensor start)
    (hfits : this.tensor.order.Fits tensor.shape) (hshape : tensor.shape = [x, y, z])
    (horder : this.tensor.order ≠ .NCHW ∧ this.tensor.order ≠ .NHWC)
    (h : this.Readable N tensor start) : ReadsBack N this.tensor tensor start := by
  obtain ⟨s₀, s₁, s₂, hstrides⟩ : ∃ s₀ s₁ s₂, tensor.strides = [s₀, s₁, s₂] := by
    rw [XArray.strides, hshape]
    exact ⟨_, _, _, rfl⟩
  obtain ⟨factorsBefore, hbuild, hget⟩ := h
  rw [hholds.build_eq hfits hshape hstrides] at hbuild
  obtain ⟨hnonzero, hfactors⟩ := Option.ite_none_left_eq_some.1 hbuild
  obtain rfl := Option.some.inj hfactors
  rw [not_or] at hnonzero
  have hlength : tensor.data.length = [x, y, z].prod := by rw [tensor.length, hshape]
  rw [hshape] at hfits hget
  refine ⟨horder, ?_, ?_, ?_⟩
  · intro stride hstride
    rw [hstrides] at hstride
    simp only [List.take_succ_cons, List.take_zero, List.mem_cons, List.not_mem_nil, or_false] at hstride
    rcases hstride with rfl | rfl
    · exact hnonzero.1
    · exact hnonzero.2
  · intro hdouble a ha
    obtain ⟨k, ha⟩ := List.mem_iff_getElem?.1 ha
    obtain ⟨c, h', w, x₀, x₁, x₂, hcoords, -, hwithin, rfl⟩ :=
      exists_coordinates hfits (hlength ▸ (List.getElem?_eq_some_iff.1 ha).1)
    obtain ⟨a', places, ha', hvalue, -⟩ := hget c h' w _ hcoords hwithin
    obtain rfl := Option.some.inj (ha'.symm.trans ha)
    rw [get_double hdouble, hdouble] at hvalue
    exact (congrArg Prod.fst (Option.some.inj hvalue)).symm
  · intro hdouble hnonempty
    by_contra hrange
    have hsize : 0 < this.tensor.dataType.size ∧ this.tensor.dataType.size ∣ 64 := by
      cases this.tensor.dataType <;> decide
    have hpos : 0 < tensor.data.length := List.length_pos_of_ne_nil hnonempty
    -- The first element that does not begin below two GiB.
    obtain ⟨k, hk, hstart⟩ : ∃ k < tensor.data.length,
        start + k * this.tensor.dataType.size = 2 ^ 31 ∨ 2 ^ 31 < start := by
      rcases Nat.lt_or_ge (2 ^ 31) start with habove | hbelow
      · exact ⟨0, hpos, .inr habove⟩
      · have hdvd : this.tensor.dataType.size ∣ 2 ^ 31 - start :=
          Nat.dvd_sub (hsize.2.trans (by decide)) (hsize.2.trans hholds.aligned)
        obtain ⟨k, hk⟩ := hdvd
        refine ⟨k, ?_, .inl (by rw [Nat.mul_comm, ← hk]; omega)⟩
        by_contra hlarge
        have hmul := Nat.mul_le_mul_right this.tensor.dataType.size
          (by omega : tensor.data.length - 1 + 1 ≤ k)
        rw [Nat.succ_mul, Nat.mul_comm k, ← hk] at hmul
        omega
    obtain ⟨c, h', w, x₀, x₁, x₂, hcoords, hlabels, hwithin, rfl⟩ :=
      exists_coordinates hfits (hlength ▸ hk)
    obtain ⟨a, places, -, hvalue, hplaces⟩ := hget c h' w _ hcoords hwithin
    obtain ⟨i, n, hi, hread⟩ := exists_read hdouble hvalue
    rw [XArray.strides, hshape] at hstrides
    have hi' := hholds.index_eq_some hstrides hwithin hlabels hi
    have hlt : i < 2 ^ 31 := hi' ▸ Int.bmod_lt (by decide)
    obtain ⟨hnonneg, p, hp, hle⟩ := places_of_read hlt hsize.1 hread
    have hfirst := (hplaces p hp).1
    rcases hstart with hstart | habove
    · have hneg := bmod_neg_of_le hstart.ge (by omega)
      omega
    · omega

/-- **When a tensor reads back.** -/
theorem Holds.readable_iff (hholds : this.Holds N tensor start)
    (hfits : this.tensor.order.Fits tensor.shape) :
    this.Readable N tensor start ↔ ReadsBack N this.tensor tensor start := by
  rcases fits_cases hfits with ⟨horder, x, y, z, hshape⟩ | ⟨horder, x, y, z, hshape⟩
  · constructor
    · rintro ⟨factorsBefore, hbuild, -⟩
      rw [hholds.build_eq_none hshape] at hbuild
      cases hbuild
    · intro h
      rcases horder with horder | horder
      · exact absurd horder h.order.1
      · exact absurd horder h.order.2
  · exact ⟨hholds.readsBack hfits hshape horder, hholds.readable hfits hshape⟩

end NNDataViewer

/-! ### Every sequence of calls -/

/-- A call of `addTensor`. -/
structure Call (T : Type) where
  name : String
  tensor : XArray T
  dataType : DataType
  order : StorageOrder

namespace NNData

variable {data : NNData F} {call : Call T} {calls : List (Call T)}

/-- The message after a call, whether it returns or throws. -/
def afterCall (N : Numbers T F) (data : NNData F) (call : Call T) : NNData F :=
  match data.addTensor N call.name call.tensor call.dataType call.order with
  | .ok data => data
  | .error (data, _) => data

/-- The message after a sequence of calls. -/
def addTensors (N : Numbers T F) (data : NNData F) (calls : List (Call T)) : NNData F :=
  calls.foldl (afterCall N) data

theorem prefix_align (bytes : List UInt8) : bytes <+: align bytes := by
  simp only [align]
  split
  · exact List.prefix_append _ _
  · exact List.prefix_rfl

theorem dvd_length_align (bytes : List UInt8) : DATA_ALIGNMENT ∣ (align bytes).length := by
  have hpos : 0 < DATA_ALIGNMENT := by decide
  rw [align]
  by_cases hremainder : bytes.length % DATA_ALIGNMENT > 0
  · rw [if_pos hremainder, List.length_append, List.length_replicate]
    have hlt := Nat.mod_lt bytes.length hpos
    refine ⟨bytes.length / DATA_ALIGNMENT + 1, ?_⟩
    have hdiv := Nat.div_add_mod bytes.length DATA_ALIGNMENT
    rw [Nat.mul_succ]
    omega
  · rw [if_neg hremainder]
    exact Nat.dvd_of_mod_eq_zero (by omega)

theorem afterCall_of_fits (hfits : call.order.Fits call.tensor.shape) :
    data.afterCall N call = {
      bytes := align data.bytes ++ call.tensor.data.flatMap (N.store call.dataType)
      tensors := data.tensors ++ [describe N call.name call.tensor call.dataType call.order
        (align data.bytes).length] } := by
  have hvalid : (describe N call.name call.tensor call.dataType call.order
      (align data.bytes).length).validateStorageOrder = .ok () := by
    rw [TensorInfo.validateStorageOrder]
    simp only [describe, List.length_map]
    cases horder : call.order with
    | NHCW | NC | CN | C | H | W =>
      rw [horder] at hfits
      cases hfits
    | NCHW | NHWC | HCW | HWC | CHW | CWH | WCH | WHC =>
      rw [horder] at hfits
      obtain ⟨x, y, z, hshape⟩ := hfits
      rw [hshape]
      rfl
  simp only [afterCall, addTensor, hvalid]

theorem prefix_afterCall (data : NNData F) (call : Call T) :
    data.bytes <+: (data.afterCall N call).bytes ∧
      data.tensors <+: (data.afterCall N call).tensors := by
  rw [afterCall, addTensor]
  cases (describe N call.name call.tensor call.dataType call.order
    (align data.bytes).length).validateStorageOrder with
  | ok _ => exact ⟨(prefix_align _).trans (List.prefix_append _ _), List.prefix_append _ _⟩
  | error _ => exact ⟨prefix_align _, List.prefix_rfl⟩

/-- **What is in the message stays there.** -/
theorem prefix_addTensors (data : NNData F) (calls : List (Call T)) :
    data.bytes <+: (data.addTensors N calls).bytes ∧
      data.tensors <+: (data.addTensors N calls).tensors := by
  induction calls generalizing data with
  | nil => exact ⟨List.prefix_rfl, List.prefix_rfl⟩
  | cons call calls ih =>
    have hcall : data.bytes <+: (data.afterCall N call).bytes ∧
        data.tensors <+: (data.afterCall N call).tensors := prefix_afterCall data call
    have hrest := ih (data.afterCall N call)
    exact ⟨hcall.1.trans hrest.1, hcall.2.trans hrest.2⟩

/-- **After any sequence of calls,** a tensor is described where it was added. With whatever quantization
it is read, a viewer reads it back exactly when its shape, values and place allow it. -/
theorem readable_addTensors_iff (N : Numbers T F) (data : NNData F) (before after : List (Call T))
    (call : Call T) (hfits : call.order.Fits call.tensor.shape) (quantization : Bool) (qpScale qpZp : F) :
    let start := (align (data.addTensors N before).bytes).length
    let info := describe N call.name call.tensor call.dataType call.order start
    let viewed := { info with quantization, qpScale, qpZp }
    let result := data.addTensors N (before ++ call :: after)
    result.tensors[(data.addTensors N before).tensors.length]? = some info ∧
      ((NNDataViewer.mk viewed result.bytes).Readable N call.tensor start ↔
        NNDataViewer.ReadsBack N viewed call.tensor start) := by
  intro start info viewed result
  have hadded : (data.addTensors N before).afterCall N call = _ := afterCall_of_fits hfits
  have hresult : result = ((data.addTensors N before).afterCall N call).addTensors N after := by
    show (before ++ call :: after).foldl (afterCall N) data = _
    rw [List.foldl_append]
    rfl
  obtain ⟨hbytes, htensors⟩ : ((data.addTensors N before).afterCall N call).bytes <+: result.bytes ∧
      ((data.addTensors N before).afterCall N call).tensors <+: result.tensors := by
    rw [hresult]
    exact prefix_addTensors _ after
  rw [hadded] at hbytes htensors
  constructor
  · obtain ⟨rest, hrest⟩ := htensors
    rw [← hrest, List.append_assoc, List.getElem?_append_right le_rfl, Nat.sub_self]
    rfl
  · obtain ⟨rest, hrest⟩ := hbytes
    refine NNDataViewer.Holds.readable_iff ⟨rfl, rfl, rfl, dvd_length_align _, ?_⟩ hfits
    exact ⟨_, rest, hrest.symm, rfl⟩

end NNData

/-! ### Tensors of twelve elements -/

namespace Dozen

/-- Integers as numbers of every kind. -/
def integers : Numbers ℤ ℤ where
  toInt8 := Int8.ofInt
  toUInt8 := UInt8.ofInt
  toUInt16 := UInt16.ofInt
  toInt32 := Int32.ofInt
  fp32_to_fp16 := UInt16.ofInt
  toFloat := UInt32.ofInt
  toDouble := UInt64.ofInt
  ofInt := id
  fp16_ieee_to_fp32_value n := n.toNat
  ofFloat n := n.toNat
  ofDouble n := n.toNat
  zero := 0
  one := 1
  sub := Int.sub
  mul := Int.mul

/-- The elements. -/
def data : List ℤ := [-3, -2, -1, 0, 1, 2, 3, 4, 5, 6, 7, 8]

/-- Three channels of two by two. -/
def channels (dataType : DataType) : Call ℤ := ⟨"out", ⟨[3, 2, 2], data, rfl⟩, dataType, .CHW⟩

/-- The same with an axis for `N`. -/
def batch : Call ℤ := ⟨"out", ⟨[1, 3, 2, 2], data, rfl⟩, .I8, .NCHW⟩

end Dozen

open Dozen

/-- Three channels of bytes, after another tensor. -/
theorem readable_channels :
    let result := NNData.addTensors integers ⟨[], []⟩ [batch, channels .I8]
    let info := NNData.describe integers "out" (channels .I8).tensor .I8 .CHW 64
    result.tensors[1]? = some info ∧
      (NNDataViewer.mk info result.bytes).Readable integers (channels .I8).tensor 64 := by
  obtain ⟨htensors, hiff⟩ := NNData.readable_addTensors_iff integers ⟨[], []⟩ [batch] [] (channels .I8)
    ⟨3, 2, 2, rfl⟩ false 1 0
  refine ⟨htensors, hiff.2 ⟨by decide, by decide, ?_, ?_⟩⟩
  · rintro ⟨⟩
  · intro _ _
    decide

/-- The same bytes with an axis for `N` cannot be read, nor can numbers of double precision. -/
theorem not_readable_batch :
    (let result := NNData.addTensors integers ⟨[], []⟩ [batch]
      let info := NNData.describe integers "out" batch.tensor .I8 .NCHW 0
      batch.order.Fits batch.tensor.shape ∧ result.tensors = [info] ∧
        ¬(NNDataViewer.mk info result.bytes).Readable integers batch.tensor 0) ∧
    (let result := NNData.addTensors integers ⟨[], []⟩ [channels .FP64]
      let info := NNData.describe integers "out" (channels .FP64).tensor .FP64 .CHW 0
      StorageOrder.CHW.Fits (channels .FP64).tensor.shape ∧ result.tensors = [info] ∧
        ¬(NNDataViewer.mk info result.bytes).Readable integers (channels .FP64).tensor 0) := by
  refine ⟨⟨⟨3, 2, 2, rfl⟩, rfl, ?_⟩, ⟨3, 2, 2, rfl⟩, rfl, ?_⟩
  · rintro ⟨factorsBefore, hbuild, -⟩
    have hnone : (NNDataViewer.mk (NNData.describe integers "out" batch.tensor .I8 .NCHW 0)
      (NNData.addTensors integers ⟨[], []⟩ [batch]).bytes).build = none := by decide
    rw [hnone] at hbuild
    cases hbuild
  · rintro ⟨factorsBefore, -, hget⟩
    obtain ⟨x, places, hx, hvalue, -⟩ := hget 2 1 1 [2, 1, 1] rfl (by simp [channels])
    obtain rfl : (8 : ℤ) = x := Option.some.inj hx
    cases hvalue

end DepthaiCore.NN
