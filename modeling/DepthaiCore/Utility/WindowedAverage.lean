import DepthaiCore.Utility.CircularBufferViews
import Mathlib.Algebra.BigOperators.Group.List.Basic
import Mathlib.Tactic.Linarith
import Mathlib.Tactic.Ring

/-!
# Windowed averages

`WindowedAverageBuffer` keeps the sum of a circular buffer up to date: `add` calls a hook that adds
the new element, or takes the old one away first. `clear` calls no hook, so that the sum of what was
in the buffer stays behind in it.

The average is the sum divided by `size()`. That is a number without a sign, and so the sum is taken
for one: a negative sum becomes a large number. This is so for signed integers and for durations,
whose ticks are divided.

An element has `w` bits, at most 64, and sums wrap around.
-/

namespace DepthaiCore

/-- `utility::WindowedAverageBuffer` of integers or of durations in ticks. -/
structure WindowedAverageBuffer extends CircularBuffer ℤ where
  sum : ℤ
  deriving DecidableEq

namespace WindowedAverageBuffer

open CircularBuffer (sinceClear)

/-! ### What the source computes -/

section Source

variable (w : ℕ)

/-- A value of an element with `w` bits. -/
def wrap (x : ℤ) : ℤ := x.bmod (2 ^ w)

/-- The constructor. -/
def empty (size : ℕ) (initialValue : ℤ := 0) : WindowedAverageBuffer where
  toCircularBuffer := .empty size
  sum := initialValue

/-- `onAdd`, as it changes the sum. -/
def onAdd (sum newValue : ℤ) : ℤ := wrap w (sum + newValue)

/-- `onSwap`, as it changes the sum. -/
def onSwap (sum oldValue newValue : ℤ) : ℤ := wrap w (wrap w (sum - oldValue) + newValue)

/-- `add`, with the hooks. -/
def add (b : WindowedAverageBuffer) (value : ℤ) : Option WindowedAverageBuffer := do
  let sum ←
    if b.buffer.length < b.maxSize then some (onAdd w b.sum value)
    else b.buffer[b.index]?.map fun oldValue => onSwap w b.sum oldValue value
  let added ← b.toCircularBuffer.add value
  return { toCircularBuffer := added, sum }

/-- `clear`, which is that of the buffer. -/
def clear (b : WindowedAverageBuffer) : WindowedAverageBuffer :=
  { b with toCircularBuffer := b.toCircularBuffer.clear }

/-- `getAverage`, which throws for an empty buffer. The sum is divided as a `size_t`. -/
def getAverage (b : WindowedAverageBuffer) : Option ℤ :=
  if b.size = 0 then none else some (wrap w (b.sum % 2 ^ 64 / b.size))

/-- One call. -/
def perform (b : WindowedAverageBuffer) : CircularBuffer.Op ℤ → Option WindowedAverageBuffer
  | .add value => b.add w value
  | .clear => some b.clear

/-- A new buffer after a sequence of calls. -/
def run (maxSize : ℕ) (initialValue : ℤ) (ops : List (CircularBuffer.Op ℤ)) :
    Option WindowedAverageBuffer :=
  ops.foldlM (perform w) (empty maxSize initialValue)

end Source

/-! ### The sum -/

/-- What the buffer holds after a sequence of calls. -/
def window (maxSize : ℕ) (ops : List (CircularBuffer.Op ℤ)) : List ℤ :=
  (sinceClear ops).rtake maxSize

/-- One call, for what was added since the last `clear` and what is left behind. -/
def leave (maxSize : ℕ) (p : List ℤ × ℤ) : CircularBuffer.Op ℤ → List ℤ × ℤ
  | .add value => (p.1 ++ [value], p.2)
  | .clear => ([], p.2 + (p.1.rtake maxSize).sum)

/-- What is in the sum and not in the window: the initial value, and what the clears left behind. -/
def leftBehind (maxSize : ℕ) (initialValue : ℤ) (ops : List (CircularBuffer.Op ℤ)) : ℤ :=
  (ops.foldl (leave maxSize) ([], initialValue)).2

/-- How much more than the quotient by `n` is made of a negative sum, which is taken for a large
number. -/
def excess (sum : ℤ) (n : ℕ) : ℤ :=
  if sum < 0 then (2 ^ 64 - sum.natAbs % n) / n else 0

/-- **What is left behind and the sign of the sum do not matter.** Both change the quotient by a
multiple of `2 ^ w`. -/
def Undisturbed (w : ℕ) (window : List ℤ) (left : ℤ) : Prop :=
  let sum := wrap w (window.sum + left)
  2 ^ w ∣ sum.tdiv window.length + excess sum window.length - window.sum.tdiv window.length

section Sums

variable {w maxSize : ℕ} {initialValue : ℤ} {ops : List (CircularBuffer.Op ℤ)}

theorem foldl_leave (ops : List (CircularBuffer.Op ℤ)) :
    ops.foldl (leave maxSize) ([], initialValue) =
      (sinceClear ops, leftBehind maxSize initialValue ops) := by
  refine Prod.ext ?_ rfl
  induction ops using List.reverseRecOn with
  | nil => rfl
  | append_singleton ops op ih =>
    rw [List.foldl_append, List.foldl_cons, List.foldl_nil]
    cases op with
    | add value => rw [leave, ih, CircularBuffer.sinceClear_add]
    | clear => rw [leave, CircularBuffer.sinceClear_clear]

theorem leftBehind_concat (op : CircularBuffer.Op ℤ) :
    leftBehind maxSize initialValue (ops ++ [op]) =
      (leave maxSize (sinceClear ops, leftBehind maxSize initialValue ops) op).2 := by
  rw [leftBehind, List.foldl_append, foldl_leave]
  rfl

/-- The sum is that of the window and of what is left behind, up to multiples of `2 ^ w`. It is in
range after an element was added. -/
structure Sums (w maxSize : ℕ) (left : ℤ) (b : WindowedAverageBuffer) : Prop where
  maxSize : b.maxSize = maxSize
  sum : wrap w b.sum = wrap w (b.getBuffer.sum + left)
  range : b.getBuffer ≠ [] → wrap w b.sum = b.sum

theorem wrap_onAdd (sum value : ℤ) : wrap w (onAdd w sum value) = onAdd w sum value := by
  simp [onAdd, wrap]

theorem getBuffer_empty (size : ℕ) :
    (CircularBuffer.empty size : CircularBuffer ℤ).getBuffer = [] := by
  rw [← List.length_eq_zero_iff, CircularBuffer.length_getBuffer]
  rfl

/-- An element is added behind the others while there is room. -/
theorem getBuffer_of_add_room {b t : CircularBuffer ℤ} {value : ℤ}
    (hroom : b.buffer.length < b.maxSize) (h : b.add value = some t) :
    t.getBuffer = b.getBuffer ++ [value] := by
  rw [CircularBuffer.getBuffer_of_add h, List.rtake, List.length_append, b.length_getBuffer,
    List.length_singleton, Nat.sub_eq_zero_of_le hroom, List.drop_zero]

theorem getBuffer_of_add_full {b t : CircularBuffer ℤ} {value : ℤ} (hpos : 0 < b.maxSize)
    (hfull : ¬b.buffer.length < b.maxSize) (h : b.add value = some t) :
    ∃ oldest rest, b.buffer[b.index]? = some oldest ∧ b.getBuffer = oldest :: rest ∧
      t.getBuffer = rest ++ [value] := by
  have hlength : b.getBuffer.length = b.maxSize := by
    rw [b.length_getBuffer]
    exact le_antisymm b.length_le (not_lt.1 hfull)
  obtain ⟨oldest, rest, hbuffer⟩ := List.exists_cons_of_length_pos (hlength ▸ hpos)
  refine ⟨oldest, rest, ?_, hbuffer, ?_⟩
  · have hfirst := b.getElem?_getBuffer (i := 0) (by rw [← b.length_getBuffer]; omega)
    rw [hbuffer, Nat.add_zero, Nat.mod_eq_of_lt
      (b.index_lt_length (by rw [← b.length_getBuffer]; omega))] at hfirst
    exact hfirst.symm
  · rw [CircularBuffer.getBuffer_of_add h, hbuffer, List.rtake, ← hlength, hbuffer]
    simp

theorem Sums.exists_add {left : ℤ} {b : WindowedAverageBuffer} (hpos : 0 < maxSize)
    (hb : Sums w maxSize left b) (value : ℤ) :
    ∃ t, b.add w value = some t ∧
      b.toCircularBuffer.add value = some t.toCircularBuffer ∧ Sums w maxSize left t := by
  obtain ⟨t, ht⟩ := CircularBuffer.exists_add (by rwa [hb.maxSize]) value
  have hsize := (CircularBuffer.maxSize_of_add ht).trans hb.maxSize
  by_cases hroom : b.buffer.length < b.maxSize
  · refine ⟨⟨t, onAdd w b.sum value⟩, by simp [add, hroom, ht], ht, hsize, ?_,
      fun _ => wrap_onAdd _ _⟩
    calc wrap w (onAdd w b.sum value) = wrap w (wrap w b.sum + value) := by simp [onAdd, wrap]
      _ = wrap w (wrap w (b.getBuffer.sum + left) + value) := by rw [hb.sum]
      _ = wrap w (t.getBuffer.sum + left) := by
        rw [getBuffer_of_add_room hroom ht, List.sum_append, List.sum_singleton, wrap, wrap,
          Int.bmod_add_bmod, add_right_comm]
        rfl
  · obtain ⟨oldest, rest, hindex, hbuffer, hadded⟩ :=
      getBuffer_of_add_full (by rwa [hb.maxSize]) hroom ht
    refine ⟨⟨t, onSwap w b.sum oldest value⟩, by simp [add, hroom, ht, hindex], ht, hsize, ?_,
      fun _ => wrap_onAdd _ _⟩
    calc wrap w (onSwap w b.sum oldest value) = wrap w (wrap w b.sum + (value - oldest)) := by
          simp only [onSwap, wrap, Int.bmod_bmod, Int.bmod_add_bmod]
          ring_nf
      _ = wrap w (wrap w (b.getBuffer.sum + left) + (value - oldest)) := by rw [hb.sum]
      _ = wrap w (t.getBuffer.sum + left) := by
        rw [hadded, hbuffer, List.sum_append, List.sum_singleton, List.sum_cons, wrap, wrap,
          Int.bmod_add_bmod, wrap]
        ring_nf

theorem Sums.clear {left : ℤ} {b : WindowedAverageBuffer} (hb : Sums w maxSize left b) :
    Sums w maxSize (left + b.getBuffer.sum) b.clear := by
  have hnil : b.clear.getBuffer = [] := getBuffer_empty _
  refine ⟨hb.maxSize, ?_, fun h => absurd hnil h⟩
  rw [hnil, List.sum_nil, zero_add, add_comm left]
  exact hb.sum

/-- **The sum after a sequence of calls.** By induction on the calls, from the last one back. -/
theorem exists_run (hpos : 0 < maxSize) (initialValue : ℤ) (ops : List (CircularBuffer.Op ℤ)) :
    ∃ b, run w maxSize initialValue ops = some b ∧ b.getBuffer = window maxSize ops ∧
      Sums w maxSize (leftBehind maxSize initialValue ops) b := by
  induction ops using List.reverseRecOn with
  | nil =>
    have hnil : (empty maxSize initialValue).getBuffer = [] := getBuffer_empty _
    refine ⟨empty maxSize initialValue, rfl, hnil.trans (List.rtake_nil _).symm, rfl, ?_,
      fun h => absurd hnil h⟩
    rw [hnil, List.sum_nil, zero_add]
    rfl
  | append_singleton ops op ih =>
    obtain ⟨b, hrun, hwindow, hb⟩ := ih
    have hlast {t : WindowedAverageBuffer} (ht : b.perform w op = some t) :
        run w maxSize initialValue (ops ++ [op]) = some t := by
      rw [run, List.foldlM_append, ← run, hrun]
      simpa using ht
    have hkept {t : WindowedAverageBuffer}
        (ht : b.toCircularBuffer.perform op = some t.toCircularBuffer) :
        t.getBuffer = window maxSize (ops ++ [op]) :=
      (CircularBuffer.getBuffer_of_perform hpos hb.maxSize hwindow ht).2
    cases op with
    | add value =>
      obtain ⟨t, ht, hbuffer, hsums⟩ := hb.exists_add hpos value
      rw [leftBehind_concat]
      exact ⟨t, hlast ht, hkept hbuffer, hsums⟩
    | clear =>
      rw [leftBehind_concat, leave]
      refine ⟨b.clear, hlast rfl, hkept rfl, ?_⟩
      have hsums := hb.clear
      rwa [hwindow] at hsums

/-! ### The average -/

/-- A number of `w` bits. -/
def InRange (w : ℕ) (x : ℤ) : Prop := -(2 ^ (w - 1)) ≤ x ∧ x < 2 ^ (w - 1)

theorem two_pow_eq (hw : 0 < w) : (2 : ℤ) ^ w = 2 * 2 ^ (w - 1) := by
  rw [← pow_succ', Nat.sub_add_cancel hw]

theorem inRange_wrap (hw : 0 < w) (x : ℤ) : InRange w (wrap w x) := by
  have hpos : 0 < 2 ^ w := Nat.two_pow_pos w
  have hlow := Int.le_bmod (x := x) hpos
  have hhigh := Int.bmod_lt (x := x) hpos
  have heq := two_pow_eq hw
  rw [InRange, wrap]
  push_cast at hlow hhigh
  omega

theorem wrap_eq_self (hw : 0 < w) {x : ℤ} (h : InRange w x) : wrap w x = x := by
  have heq := two_pow_eq hw
  obtain ⟨hlow, hhigh⟩ := h
  refine Int.bmod_eq_of_le_mul_two ?_ ?_ <;> push_cast <;> omega

theorem wrap_eq_iff (hw : 0 < w) {x y : ℤ} (h : InRange w y) : wrap w x = y ↔ 2 ^ w ∣ x - y := by
  have hdvd := Int.dvd_iff_bmod_eq_zero (a := 2 ^ w) (b := x - y)
  push_cast at hdvd
  rw [hdvd, ← Int.bmod_eq_bmod_iff_bmod_sub_eq_zero, ← wrap, ← wrap, wrap_eq_self hw h]

theorem inRange_tdiv {x : ℤ} (h : InRange w x) (n : ℕ) : InRange w (x.tdiv n) := by
  obtain ⟨hlow, hhigh⟩ := h
  rcases le_total 0 x with hx | hx
  · have hle := Int.ediv_le_self n hx
    have hnonneg := Int.ediv_nonneg hx (Int.natCast_nonneg n)
    rw [InRange, Int.tdiv_eq_ediv_of_nonneg hx]
    omega
  · have hle := Int.ediv_le_self n (neg_nonneg.2 hx)
    have hnonneg := Int.ediv_nonneg (neg_nonneg.2 hx) (Int.natCast_nonneg n)
    have heq : x.tdiv n = -(-x / n) := by
      rw [← Int.tdiv_eq_ediv_of_nonneg (neg_nonneg.2 hx), Int.neg_tdiv, neg_neg]
    rw [InRange, heq]
    omega

theorem emod_ediv_eq (hw64 : w ≤ 64) {sum : ℤ} (h : InRange w sum) (n : ℕ) :
    sum % 2 ^ 64 / n = sum.tdiv n + excess sum n := by
  have hpow : (2 : ℤ) ^ (w - 1) ≤ 2 ^ 63 := pow_le_pow_right₀ (by decide) (by omega)
  obtain ⟨hlow, hhigh⟩ := h
  rw [excess]
  split_ifs with hneg
  · have habs : (sum.natAbs : ℤ) = -sum := Int.ofNat_natAbs_of_nonpos hneg.le
    have hmod : sum % 2 ^ 64 = 2 ^ 64 - sum.natAbs := by omega
    have htdiv : sum.tdiv n = -(sum.natAbs / n) := by
      rw [habs, ← Int.tdiv_eq_ediv_of_nonneg (by omega), Int.neg_tdiv, neg_neg]
    rcases Nat.eq_zero_or_pos n with rfl | hn
    · simp
    · have hsplit := Int.mul_ediv_add_emod sum.natAbs n
      have hsum : (2 ^ 64 - sum.natAbs : ℤ) =
          2 ^ 64 - sum.natAbs % n + -(sum.natAbs / n) * n := by
        linarith
      rw [hmod, hsum, Int.add_mul_ediv_right _ _ (by omega), htdiv, add_comm]
  · rw [Int.emod_eq_of_lt (by omega) (by omega), Int.tdiv_eq_ediv_of_nonneg (by omega), add_zero]

/-- **Where nothing was left behind**, the sum of the window must not be negative, or the size of
the window must hide the sign. -/
theorem undisturbed_iff (hw : 0 < w) {window : List ℤ} (hsum : InRange w window.sum) :
    Undisturbed w window 0 ↔
      0 ≤ window.sum ∨
        (2 ^ w : ℤ) ∣ (2 ^ 64 - window.sum.natAbs % window.length) / window.length := by
  rw [Undisturbed, add_zero, wrap_eq_self hw hsum, add_sub_cancel_left, excess]
  split_ifs with hneg
  · rw [or_iff_right (not_le.2 hneg)]
  · exact iff_of_true (dvd_zero _) (.inl (not_lt.1 hneg))

/-- With 64 bits only a window of one element hides the sign. -/
theorem undisturbed_iff_of_64 {window : List ℤ} (hne : window ≠ [])
    (hlength : window.length ≤ 2 ^ 63) (hsum : InRange 64 window.sum) :
    Undisturbed 64 window 0 ↔ 0 ≤ window.sum ∨ window.length = 1 := by
  rw [undisturbed_iff (by decide) hsum]
  refine or_congr_right ⟨fun hdvd => ?_, fun hone => by simp [hone]⟩
  by_contra hlarge
  have hpos := List.length_pos_iff.2 hne
  have hrest := Nat.mod_lt window.sum.natAbs hpos
  obtain ⟨hlow, hhigh⟩ := hsum
  -- The quotient is neither zero nor as large as `2 ^ 64`.
  have hlt : (2 ^ 64 - window.sum.natAbs % window.length : ℤ) / window.length < 2 ^ 64 := by
    refine Int.ediv_lt_of_lt_mul (by omega) ?_
    have hle : (2 : ℤ) ^ 64 * 2 ≤ 2 ^ 64 * window.length := by gcongr; omega
    omega
  have hzero := Int.eq_zero_of_dvd_of_nonneg_of_lt (Int.ediv_nonneg (by omega) (by omega)) hlt hdvd
  have hone : (1 : ℤ) ≤ (2 ^ 64 - window.sum.natAbs % window.length) / window.length := by
    refine Int.le_ediv_of_mul_le (by omega) ?_
    omega
  omega

end Sums

/-! ### Samples -/

/-- A value after a `clear` is averaged with the one before it. -/
example : (run 64 4 0 [.add 5, .clear, .add 7]).bind (getAverage 64) = some 12 := by decide

end WindowedAverageBuffer

end DepthaiCore
