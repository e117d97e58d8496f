import DepthaiCore.Lib.Whiles
import Mathlib.Algebra.Order.Ring.Int
import Mathlib.Algebra.Ring.Divisibility.Basic
import Mathlib.Tactic.Ring

/-!
# Loops that count in steps

A loop counts from a number by a step as long as the counter is below a bound. The addition may
fail. With a positive step the loop ends if all of its rounds do, and these are the rounds for the
numbers that are a multiple of the step away from the first. With a negative step a loop that begins
never ends with a result.
-/

namespace SteppedLoop

variable {ε : Type*} {σ : Type} (add : ℤ → Except (Stop ε) ℤ) (act : ℤ → σ → Except (Stop ε) σ)
  (hi : ℤ)

/-- One round: the body, and the addition. -/
def round (s : ℤ × σ) : Except (Stop ε) ((ℤ × σ) ⊕ σ) :=
  if s.1 < hi then do
    let t ← act s.1 s.2
    let x ← add s.1
    return .inl (x, t)
  else return .inr s.2

def run (rounds : ℕ) (lo : ℤ) (s : σ) : Except (Stop ε) σ :=
  Whiles.loop (round add act hi) rounds (lo, s)

/-- A number below the bound that is reached from `lo` in steps. -/
structure Visited (lo hi step x : ℤ) : Prop where
  le : lo ≤ x
  lt : x < hi
  dvd : step ∣ x - lo

variable {add act hi} {lo step x : ℤ} {s t : σ} {n : ℕ}

theorem Visited.first (h : lo < hi) : Visited lo hi step lo :=
  ⟨le_rfl, h, by rw [sub_self]; exact dvd_zero step⟩

theorem Visited.of_next (hstep : 0 ≤ step) (h : Visited (lo + step) hi step x) :
    Visited lo hi step x := by
  refine ⟨by have := h.le; omega, h.lt, ?_⟩
  have heq : x - lo = x - (lo + step) + step := by ring
  rw [heq]
  exact dvd_add h.dvd dvd_rfl

/-- A number that is visited is the first one, or it is visited from the second one. -/
theorem Visited.eq_or_next (hstep : 0 < step) (h : Visited lo hi step x) :
    x = lo ∨ Visited (lo + step) hi step x := by
  obtain ⟨k, hk⟩ := h.dvd
  have hle := h.le
  rcases lt_trichotomy k 0 with hneg | rfl | hpos
  · exact absurd (mul_neg_of_pos_of_neg hstep hneg) (by omega)
  · exact .inl (by rw [mul_zero] at hk; omega)
  · have hge : step ≤ step * k := le_mul_of_one_le_right hstep.le hpos
    refine .inr ⟨by omega, h.lt, k - 1, ?_⟩
    rw [mul_sub, mul_one, ← hk]
    ring

theorem round_of_not_lt (h : ¬ lo < hi) : round add act hi (lo, s) = .ok (.inr s) :=
  if_neg h

theorem round_eq_next (h : lo < hi) (hact : act lo s = .ok t) (hadd : add lo = .ok x) :
    round add act hi (lo, s) = .ok (.inl (x, t)) := by
  rw [round, if_pos h, hact, Loop.ok_bind, hadd]
  rfl

theorem of_round_eq_next {r : ℤ × σ} (h : round add act hi (lo, s) = .ok (.inl r)) :
    lo < hi ∧ act lo s = .ok r.2 ∧ add lo = .ok r.1 := by
  rw [round] at h
  split_ifs at h with hlt
  · obtain ⟨t, hact, h⟩ := Loop.bind_eq_ok.1 h
    obtain ⟨x, hadd, h⟩ := Loop.bind_eq_ok.1 h
    cases h
    exact ⟨hlt, hact, hadd⟩
  · cases h

theorem not_lt_of_round_eq_done (h : round add act hi (lo, s) = .ok (.inr t)) : ¬ lo < hi := by
  rw [round] at h
  split_ifs at h with hlt
  · obtain ⟨u, -, h⟩ := Loop.bind_eq_ok.1 h
    obtain ⟨x, -, h⟩ := Loop.bind_eq_ok.1 h
    cases h
  · exact hlt

/-- **A loop whose rounds end ends,** if the step is positive. -/
theorem exists_run_eq_ok (hstep : 0 < step)
    (hadd : ∀ x, Visited lo hi step x → add x = .ok (x + step))
    (hact : ∀ x, Visited lo hi step x → ∀ s, ∃ t, act x s = .ok t) (s : σ)
    (hn : (hi - lo).toNat < n) : ∃ t, run add act hi n lo s = .ok t := by
  have hround : ∀ (m : ℕ) (r : ℤ × σ), (hi - r.1 ≤ m ∧ ∀ x, Visited r.1 hi step x →
      Visited lo hi step x) → (∃ b, round add act hi r = .ok (.inr b) ∧ True) ∨
      ∃ r', round add act hi r = .ok (.inl r') ∧ ∃ m' < m, hi - r'.1 ≤ m' ∧
        ∀ x, Visited r'.1 hi step x → Visited lo hi step x := by
    rintro m ⟨x, u⟩ ⟨hm, hvisited⟩
    by_cases hlt : x < hi
    · have hx := hvisited x (.first hlt)
      obtain ⟨v, hv⟩ := hact x hx u
      dsimp only at hm
      refine .inr ⟨_, round_eq_next hlt hv (hadd x hx), m - 1, by omega, by dsimp only; omega, ?_⟩
      exact fun y hy => hvisited y (hy.of_next hstep.le)
    · exact .inl ⟨u, round_of_not_lt hlt, trivial⟩
  obtain ⟨t, ht, -⟩ := Whiles.exists_loop_eq_ok hround (s := (lo, s))
    ⟨Int.self_le_toNat _, fun _ h => h⟩ hn
  exact ⟨t, ht⟩

/-- **The rounds of a loop that has ended.** -/
theorem visited_of_run (hstep : 0 < step) (hadd : ∀ x y, add x = .ok y → y = x + step)
    (h : run add act hi n lo s = .ok t) (hx : Visited lo hi step x) :
    add x = .ok (x + step) ∧ ∃ u v, act x u = .ok v := by
  induction n generalizing lo s with
  | zero => cases h
  | succ n ih =>
    obtain ⟨m, hm, hdone | ⟨⟨y, u⟩, hnext, hrest⟩⟩ := Whiles.loop_eq_ok h
    · exact absurd (hx.le.trans_lt hx.lt) (not_lt_of_round_eq_done hdone)
    · obtain rfl := Nat.succ.inj hm
      obtain ⟨-, hact, hy⟩ := of_round_eq_next hnext
      obtain rfl := hadd lo y hy
      rcases hx.eq_or_next hstep with rfl | hx
      · exact ⟨hy, _, _, hact⟩
      · exact ih hrest hx

/-- **A loop that counts backwards** does not end with a result once it has begun. -/
theorem run_ne_ok (hstep : step < 0) (hadd : ∀ x y, add x = .ok y → y = x + step) (hlt : lo < hi)
    (n : ℕ) (s t : σ) : run add act hi n lo s ≠ .ok t := by
  intro h
  induction n generalizing lo s with
  | zero => cases h
  | succ n ih =>
    obtain ⟨m, hm, hdone | ⟨⟨y, u⟩, hnext, hrest⟩⟩ := Whiles.loop_eq_ok h
    · exact not_lt_of_round_eq_done hdone hlt
    · obtain rfl := Nat.succ.inj hm
      obtain ⟨-, -, hy⟩ := of_round_eq_next hnext
      obtain rfl := hadd lo y hy
      exact ih (by omega) u hrest

/-- How a loop stops, if its bodies and additions do so. -/
theorem of_run_eq_error {E : Stop ε → Prop} (hpending : E .pending)
    (hadd : ∀ x e, add x = .error e → E e) (hact : ∀ x s e, act x s = .error e → E e) {e : Stop ε}
    (h : run add act hi n lo s = .error e) : E e := by
  induction n generalizing lo s with
  | zero =>
    cases h
    exact hpending
  | succ n ih =>
    rcases hround : round add act hi (lo, s) with e' | (⟨y, u⟩ | t)
    · rw [run, Whiles.loop_of_error hround] at h
      cases h
      rw [round] at hround
      split_ifs at hround
      · rcases Loop.bind_eq_error.1 hround with herror | ⟨u, -, hround⟩
        · exact hact _ _ _ herror
        · rcases Loop.bind_eq_error.1 hround with herror | ⟨y, -, hround⟩
          · exact hadd _ _ herror
          · cases hround
      · cases hround
    · rw [run, Whiles.loop_of_next hround] at h
      exact ih h
    · rw [run, Whiles.loop_of_done hround] at h
      cases h

theorem run_of_not_lt (h : ¬ lo < hi) (hn : 0 < n) (s : σ) : run add act hi n lo s = .ok s := by
  obtain ⟨m, rfl⟩ := Nat.exists_eq_succ_of_ne_zero hn.ne'
  exact Whiles.loop_of_done (round_of_not_lt h)

end SteppedLoop
