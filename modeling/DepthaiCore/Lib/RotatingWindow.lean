import Mathlib.Data.Nat.Basic
import Mathlib.Data.List.Basic

/-!
# A window of flags kept in one word

A word of `w` bits remembers one flag for each of the last `w` rounds. The bits are not shifted:
every round writes the bit at its own position, and the position goes round. What the word says of
the `j`-th round back is the bit `j + 1` places before the position that is written next.
-/

namespace RotatingWindow

variable {w : ℕ} {h : BitVec w} {p : ℕ} {flagged flagged' : ℕ → Prop}

/-- The bit at position `p`. -/
def bit (w p : ℕ) : BitVec w :=
  1#w <<< p

theorem getLsbD_bit (hp : p < w) (k : ℕ) : (bit w p).getLsbD k = decide (k = p) := by
  rw [bit, ← BitVec.twoPow_eq, BitVec.getLsbD_twoPow]
  by_cases hk : k = p
  · simp [hk, hp]
  · simp [hk, Ne.symm hk]

theorem and_bit_ne_zero_iff (hp : p < w) (x : BitVec w) :
    x &&& bit w p ≠ 0 ↔ x.getLsbD p = true := by
  rw [bit, ← BitVec.twoPow_eq, BitVec.and_twoPow]
  constructor
  · intro hne
    by_contra hbit
    exact hne (if_neg hbit)
  · intro hbit hzero
    have hbits := congrArg (fun y => y.getLsbD p) (hzero.symm.trans (if_pos hbit))
    simp [hp] at hbits

/-- With `p` to be written next, `h` remembers which of the last rounds are flagged: `flagged j`
speaks about the round `j` before the last one. -/
def Remembers (h : BitVec w) (p : ℕ) (flagged : ℕ → Prop) : Prop :=
  ∀ j < w, h.getLsbD ((p + (w - 1 - j)) % w) = true ↔ flagged j

theorem remembers_zero (hnone : ∀ j, ¬flagged j) : Remembers (0 : BitVec w) p flagged := by
  intro j _
  simp [hnone j]

/-- The last round lies just before the position written next. -/
theorem position_last (hp : p < w) : ((p + 1) % w + (w - 1 - 0)) % w = p := by
  rw [Nat.mod_add_mod, show p + 1 + (w - 1 - 0) = p + w by omega, Nat.add_mod_right,
    Nat.mod_eq_of_lt hp]

theorem position_earlier {j : ℕ} (hj : j + 1 < w) :
    ((p + 1) % w + (w - 1 - (j + 1))) % w = (p + (w - 1 - j)) % w := by
  rw [Nat.mod_add_mod, show p + 1 + (w - 1 - (j + 1)) = p + (w - 1 - j) by omega]

/-- The rounds that stay in the window are at other positions than the one being written. -/
theorem position_ne {j : ℕ} (hp : p < w) (hj : j + 1 < w) : (p + (w - 1 - j)) % w ≠ p := by
  intro heq
  rcases Nat.lt_or_ge (p + (w - 1 - j)) w with hlt | hge
  · rw [Nat.mod_eq_of_lt hlt] at heq
    omega
  · rw [Nat.mod_eq_sub_mod hge, Nat.mod_eq_of_lt (by omega)] at heq
    omega

/-- One round: the bit written is the new flag, and the others are as before or all dropped. -/
theorem Remembers.next {h' : BitVec w} (hp : p < w) (hlast : h'.getLsbD p = true ↔ flagged' 0)
    (hearlier : ∀ j, j + 1 < w →
      (h'.getLsbD ((p + (w - 1 - j)) % w) = true ↔ flagged' (j + 1))) :
    Remembers h' ((p + 1) % w) flagged' := by
  intro j hj
  cases j with
  | zero =>
    rw [position_last hp]
    exact hlast
  | succ j =>
    rw [position_earlier hj]
    exact hearlier j hj

/-- **The next round is flagged.** -/
theorem Remembers.mark (hh : Remembers h p flagged) (hp : p < w) (hlast : flagged' 0)
    (hearlier : ∀ j, flagged' (j + 1) ↔ flagged j) :
    Remembers (h ||| bit w p) ((p + 1) % w) flagged' := by
  refine Remembers.next hp (by simp [getLsbD_bit hp, hlast]) fun j hj => ?_
  rw [hearlier, ← hh j (by omega), BitVec.getLsbD_or, getLsbD_bit hp,
    decide_eq_false (position_ne hp hj), Bool.or_false]

/-- **The next round is not flagged.** -/
theorem Remembers.clear (hh : Remembers h p flagged) (hp : p < w) (hlast : ¬flagged' 0)
    (hearlier : ∀ j, flagged' (j + 1) ↔ flagged j) :
    Remembers (h &&& ~~~bit w p) ((p + 1) % w) flagged' := by
  refine Remembers.next hp (by simp [getLsbD_bit hp, hlast]) fun j hj => ?_
  have hin : (p + (w - 1 - j)) % w < w := Nat.mod_lt _ (by omega)
  rw [hearlier, ← hh j (by omega), BitVec.getLsbD_and, BitVec.getLsbD_not, getLsbD_bit hp,
    decide_eq_false (position_ne hp hj), decide_eq_true hin, Bool.not_false, Bool.and_true,
    Bool.and_true]

/-- **The next round is the only one that is flagged.** -/
theorem Remembers.restart (hp : p < w) (hlast : flagged' 0)
    (hearlier : ∀ j, ¬flagged' (j + 1)) : Remembers (bit w p) ((p + 1) % w) flagged' := by
  refine Remembers.next hp (by simp [getLsbD_bit hp, hlast]) fun j hj => ?_
  rw [getLsbD_bit hp, decide_eq_false (position_ne hp hj)]
  simp [hearlier j]

/-- The word with position `p` brought to the front. -/
def rotate (h : BitVec w) (p : ℕ) : BitVec w :=
  (h <<< (w - p)) ||| (h >>> p)

theorem getLsbD_rotate (hp : p < w) {k : ℕ} (hk : k < w) :
    (rotate h p).getLsbD k = h.getLsbD ((p + k) % w) := by
  rw [rotate, BitVec.getLsbD_or, BitVec.getLsbD_shiftLeft, BitVec.getLsbD_ushiftRight]
  rcases Nat.lt_or_ge (p + k) w with hlt | hge
  · rw [Nat.mod_eq_of_lt hlt, decide_eq_true (show k < w - p by omega)]
    simp
  · rw [Nat.mod_eq_sub_mod hge, Nat.mod_eq_of_lt (by omega),
      decide_eq_false (show ¬k < w - p by omega), decide_eq_true hk,
      BitVec.getLsbD_of_ge h (p + k) hge, show k - (w - p) = p + k - w by omega]
    simp

/-- **After the rotation the rounds are in order, the last one on top.** -/
theorem Remembers.getLsbD_rotate (hh : Remembers h p flagged) (hp : p < w) {j : ℕ} (hj : j < w) :
    (rotate h p).getLsbD (w - 1 - j) = true ↔ flagged j := by
  rw [RotatingWindow.getLsbD_rotate hp (by omega)]
  exact hh j hj

/-- **A word put together bit by bit.** -/
theorem getLsbD_collect {c : ℕ → Prop} [DecidablePred c] {n : ℕ} (hn : n ≤ w) (k : ℕ) :
    ((List.range n).foldl (fun x i => if c i then x ||| bit w i else x) (0 : BitVec w)).getLsbD k
      = decide (k < n ∧ c k) := by
  induction n with
  | zero => simp
  | succ n ih =>
    have hlast : k = n → (k < n) = False := fun hkn => by simp [hkn]
    rw [List.range_succ, List.foldl_append, List.foldl_cons, List.foldl_nil]
    split
    case isTrue hc =>
      rw [BitVec.getLsbD_or, ih (by omega), getLsbD_bit (by omega), ← Bool.decide_or]
      refine decide_eq_decide.2 ?_
      by_cases hkn : k = n
      · simp [hkn, hc]
      · simp [hkn, show k < n + 1 ↔ k < n by omega]
    case isFalse hc =>
      rw [ih (by omega)]
      refine decide_eq_decide.2 ?_
      by_cases hkn : k = n
      · simp [hkn, hc]
      · simp [show k < n + 1 ↔ k < n by omega]

end RotatingWindow
