import DepthaiCore.Lib.Binary32

/-!
# Floating point numbers of the binary interchange formats

A format has some bits for the exponent and some for the fraction. A word of such bits stands for a
number, for one of the two infinities or for no number at all. Operations round the exact result to
the nearest number of the format, to the even one of two; what is too large becomes infinite. The
two zeros stand for the same number.
-/

namespace FloatingPoint

/-- What a floating point number stands for. -/
inductive Datum
  | nan
  | inf (negative : Bool)
  | num (x : ℚ)
  deriving DecidableEq

/-- The numbers between the infinities. -/
abbrev Extended := WithBot (WithTop ℚ)

namespace Datum

/-- The place among the extended numbers, for what is a number. -/
def extended : Datum → Extended
  | nan => ⊥
  | inf negative => if negative then ⊥ else ((⊤ : WithTop ℚ) : Extended)
  | num x => ((x : WithTop ℚ) : Extended)

/-- `<`. What is not a number is neither less nor greater. -/
def lt : Datum → Datum → Bool
  | nan, _ | _, nan => false
  | num x, num y => x < y
  | inf negative, num _ => negative
  | num _, inf negative => !negative
  | inf negative, inf negative' => negative && !negative'

def max (a b : Datum) : Datum :=
  if a.lt b then b else a

/-- Towards zero. -/
def trunc : Datum → Option ℤ
  | num x => some (if 0 ≤ x then ⌊x⌋ else ⌈x⌉)
  | nan | inf _ => none

/-- **Comparison is that of the extended numbers.** -/
theorem lt_iff {a b : Datum} (ha : a ≠ nan) (hb : b ≠ nan) :
    a.lt b = true ↔ a.extended < b.extended := by
  cases a with
  | nan => exact absurd rfl ha
  | inf n =>
    cases b with
    | nan => exact absurd rfl hb
    | inf n' => cases n <;> cases n' <;> simp [lt, extended]
    | num y => cases n <;> simp [lt, extended]
  | num x =>
    cases b with
    | nan => exact absurd rfl hb
    | inf n' =>
      cases n' with
      | true => simp [lt, extended]
      | false => exact iff_of_true rfl (WithBot.coe_lt_coe.2 (WithTop.coe_lt_top x))
    | num y => simp [lt, extended]

theorem max_ne_nan {a b : Datum} (ha : a ≠ nan) (hb : b ≠ nan) : a.max b ≠ nan := by
  rw [max]
  split
  · exact hb
  · exact ha

theorem extended_max {a b : Datum} (ha : a ≠ nan) (hb : b ≠ nan) :
    (a.max b).extended = Max.max a.extended b.extended := by
  have hlt := lt_iff ha hb
  rw [max]
  split
  case isTrue h => rw [max_eq_right (hlt.1 h).le]
  case isFalse h => rw [max_eq_left (not_lt.1 fun hab => h (hlt.2 hab))]

end Datum

/-! ### Formats -/

/-- The bits for the fraction and for the exponent. -/
structure Format where
  fraction : ℕ
  exponent : ℕ

def binary16 : Format := ⟨10, 5⟩

def binary32 : Format := ⟨23, 8⟩

def binary64 : Format := ⟨52, 11⟩

namespace Format

variable (f : Format)

/-- The bias of the exponent, which is the largest exponent as well. -/
def bias : ℤ :=
  2 ^ (f.exponent - 1) - 1

/-- What a word stands for. -/
def decode (bits : ℕ) : Datum :=
  let fraction := bits % 2 ^ f.fraction
  let exponent := bits / 2 ^ f.fraction % 2 ^ f.exponent
  let negative := bits.testBit (f.fraction + f.exponent)
  let sign : ℚ := if negative then -1 else 1
  if exponent = 2 ^ f.exponent - 1 then
    if fraction = 0 then .inf negative else .nan
  else if exponent = 0 then .num (sign * fraction * 2 ^ (1 - f.bias - f.fraction))
  else .num (sign * (2 ^ f.fraction + fraction) * 2 ^ (exponent - f.bias - f.fraction))

/-- The nearest number of the format. -/
def round (x : ℚ) : Datum :=
  let ulp : ℚ := 2 ^ (Max.max (Int.log 2 |x|) (1 - f.bias) - f.fraction)
  let nearest := Binary32.roundTiesToEven (x / ulp) * ulp
  if 2 ^ (f.bias + 1) ≤ |nearest| then .inf (x < 0) else .num nearest

/-- The sum. -/
def add : Datum → Datum → Datum
  | .nan, _ | _, .nan => .nan
  | .num x, .num y => f.round (x + y)
  | .inf negative, .num _ => .inf negative
  | .num _, .inf negative => .inf negative
  | .inf negative, .inf negative' => if negative = negative' then .inf negative else .nan

/-- The quotient. -/
def div : Datum → Datum → Datum
  | .nan, _ | _, .nan => .nan
  | .num x, .num y =>
    if y = 0 then if x = 0 then .nan else .inf (x < 0)
    else f.round (x / y)
  | .inf negative, .num y => .inf (negative ^^ decide (y < 0))
  | .num _, .inf _ => .num 0
  | .inf _, .inf _ => .nan

theorem round_ne_nan (x : ℚ) : f.round x ≠ .nan := by
  rw [round]
  split
  · exact nofun
  · exact nofun

theorem add_num_ne_nan {a : Datum} (ha : a ≠ .nan) (y : ℚ) : f.add a (.num y) ≠ .nan := by
  cases a with
  | nan => exact absurd rfl ha
  | inf n => exact nofun
  | num x => exact f.round_ne_nan _

theorem div_num_ne_nan {a : Datum} (ha : a ≠ .nan) {y : ℚ} (hy : y ≠ 0) :
    f.div a (.num y) ≠ .nan := by
  cases a with
  | nan => exact absurd rfl ha
  | inf n => exact nofun
  | num x =>
    rw [div, if_neg hy]
    exact f.round_ne_nan _

example : binary32.decode 0xBF800000 = .num (-1) ∧ binary16.decode 0x3C00 = .num 1 ∧
    binary32.div (.num 1) (.num 10) = .num (13421773 / 134217728) := by decide +kernel

end Format

end FloatingPoint
