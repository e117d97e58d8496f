import Mathlib.Data.Nat.Basic
import DepthaiCore.Lib.Loops

/-!
# Reading fields from a string of bits

A header is read field by field, by a cursor that moves over a string of bits. A field has a fixed
number of bits, or it is a code of variable length: as many zeros as there are up to the next one,
and then a number of bits that depends on them. A field that is not there as a whole cannot be read.

A program that reads headers by a cursor of its own follows a reader if it gives what the reader
gives, and fails where a field is missing.
-/

/-- A string of bits. Every bit before its end can be read. -/
structure BitString where
  length : ℕ
  bit? : ℕ → Option Bool
  isSome_bit? : ∀ i < length, (bit? i).isSome

namespace BitString

/-- A reader moves the cursor on. -/
abbrev Reader := StateT ℕ Option

/-- What is read at a place. -/
def Reader.readAt {α : Type} (r : Reader α) (pos : ℕ) : Option α := (r.run pos).map Prod.fst

variable (b : BitString)

/-- The next bits, if there are so many. -/
def next? : ℕ → ℕ → Option (List Bool)
  | 0, _ => some []
  | n + 1, pos => (b.bit? pos).bind fun x => (next? n (pos + 1)).map (x :: ·)

/-- A field of so many bits. -/
def field (n : ℕ) : Reader (List Bool) := fun pos => (b.next? n pos).map (·, pos + n)

/-- Some bits are left out, whether they are there or not. -/
def skip (n : ℕ) : Reader PUnit := fun pos => some (⟨⟩, pos + n)

/-- How many of the next bits are zeros, before a one or the end. -/
def zerosUpTo : ℕ → ℕ → ℕ
  | 0, _ => 0
  | left + 1, pos => if b.bit? pos = some false then zerosUpTo left (pos + 1) + 1 else 0

/-- The number of zeros from the cursor on. -/
def zeros (pos : ℕ) : ℕ := b.zerosUpTo (b.length - pos) pos

/-- A code of variable length: some zeros, and then as many bits as belong to them. -/
def code (width : ℕ → ℕ) : Reader (List Bool) := fun pos =>
  if pos + b.zeros pos + width (b.zeros pos) ≤ b.length then
    b.field (width (b.zeros pos)) (pos + b.zeros pos)
  else none

theorem length_of_next? {n pos : ℕ} {l : List Bool} (h : b.next? n pos = some l) :
    l.length = n := by
  induction n generalizing pos l with
  | zero =>
    cases h
    rfl
  | succ n ih =>
    obtain ⟨x, -, h⟩ := Option.bind_eq_some_iff.1 h
    obtain ⟨l', hl', rfl⟩ := Option.map_eq_some_iff.1 h
    rw [List.length_cons, ih hl']

end BitString

/-! ### Programs that follow a reader -/

section Follows

variable {ε : Type*} {α β γ δ : Type}

/-- A program fails where the reader does. Otherwise it gives what is to be seen of the value and
the new cursor. -/
def Follows (view : γ × ℕ → α) (x : Except ε α) (r : BitString.Reader γ) (pos : ℕ) : Prop :=
  x.toOption = (r.run pos).map view

theorem toOption_bind (x : Except ε α) (f : α → Except ε β) :
    (x >>= f).toOption = x.toOption.bind fun a => (f a).toOption := by
  cases x <;> rfl

variable {view : γ × ℕ → α} {x : Except ε α} {r : BitString.Reader γ} {pos : ℕ}

theorem follows_pure (view : γ × ℕ → α) (c : γ) (pos : ℕ) :
    Follows view (pure (view (c, pos)) : Except ε α) (pure c) pos := rfl

/-- **One field after another.** -/
theorem Follows.bind (hx : Follows view x r pos) {view' : δ × ℕ → β} {f : α → Except ε β}
    {g : γ → BitString.Reader δ}
    (h : ∀ c next, r.run pos = some (c, next) → Follows view' (f (view (c, next))) (g c) next) :
    Follows view' (x >>= f) (r >>= g) pos := by
  unfold Follows at hx ⊢
  rw [StateT.run_bind]
  cases hr : r.run pos with
  | none =>
    rw [hr] at hx
    cases x with
    | error e => rfl
    | ok a => cases hx
  | some cn =>
    rw [hr] at hx
    cases x with
    | error e => cases hx
    | ok a =>
      obtain rfl : a = view cn := Option.some.inj hx
      exact h cn.1 cn.2 hr

theorem Follows.skip {g : PUnit → BitString.Reader γ} {n : ℕ}
    (h : Follows view x (g ⟨⟩) (pos + n)) : Follows view x (BitString.skip n >>= g) pos := h

theorem Follows.ite {P Q : Prop} [Decidable P] [Decidable Q] {y : Except ε α}
    {q : BitString.Reader γ} (hPQ : P ↔ Q) (hx : Follows view x r pos) (hy : Follows view y q pos) :
    Follows view (if P then x else y) (if Q then r else q) pos := by
  by_cases h : P
  · rw [if_pos h, if_pos (hPQ.1 h)]
    exact hx
  · rw [if_neg h, if_neg (mt hPQ.2 h)]
    exact hy

/-- **A program has a result exactly if all fields are there.** -/
theorem Follows.eq_ok_iff (h : Follows view x r pos) {a : α} :
    x = .ok a ↔ (r.run pos).map view = some a := by
  unfold Follows at h
  rw [← h]
  cases x with
  | error e => simp [Except.toOption]
  | ok a' => simp [Except.toOption]

end Follows
