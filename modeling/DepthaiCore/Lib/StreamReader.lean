import Mathlib.Data.List.OfFn

/-!
# Readers of a stream

A reader takes a value off the front of a stream and returns what is left, or fails. Two things are
said about readers: how many elements one takes at least, and what it makes of a particular run of
elements. A reader that calls itself on what is left is a step function from readers to readers;
when every recursive call works on a shorter stream, the recursion can be run with a bound, and the
bound does not matter as long as it exceeds the length of the stream.
-/

universe u

/-- A reader of a stream of `σ`, which may fail with an `ε`. -/
abbrev Reader (ε σ α : Type*) :=
  List σ → Except ε (α × List σ)

namespace Reader

variable {ε σ α : Type*} {read read' : Reader ε σ α}

theorem bind_eq_ok {α β : Type u} {x : Except ε α} {f : α → Except ε β} {b : β} :
    x >>= f = .ok b ↔ ∃ a, x = .ok a ∧ f a = .ok b := by
  cases x with
  | error e => simp [bind, Except.bind]
  | ok a => simp [bind, Except.bind]

/-- The reader takes at least `k` elements off the front when it succeeds. -/
def Takes (k : ℕ) (read : Reader ε σ α) : Prop :=
  ∀ ⦃s a s'⦄, read s = .ok (a, s') → ∃ front, s = front ++ s' ∧ k ≤ front.length

theorem Takes.mono {j k : ℕ} (h : Takes k read) (hjk : j ≤ k) : Takes j read := by
  intro s a s' hread
  obtain ⟨front, hs, hk⟩ := h hread
  exact ⟨front, hs, hjk.trans hk⟩

theorem Takes.length_le {k : ℕ} (h : Takes k read) {s s' : List σ} {a : α}
    (hread : read s = .ok (a, s')) : s'.length + k ≤ s.length := by
  obtain ⟨front, rfl, hk⟩ := h hread
  rw [List.length_append]
  omega

/-! ### A number of values -/

/-- Read `n` values, one after the other. -/
def times (read : Reader ε σ α) : (n : ℕ) → Reader ε σ (Fin n → α)
  | 0, s => .ok (Fin.elim0, s)
  | n + 1, s =>
    match read s with
    | .error e => .error e
    | .ok (a, s') =>
      match times read n s' with
      | .error e => .error e
      | .ok (f, s'') => .ok (Fin.cons a f, s'')

theorem times_eq_of_eq_zero {n : ℕ} (hn : n = 0) (f : Fin n → α) (s : List σ) :
    times read n s = .ok (f, s) := by
  subst hn
  exact congrArg Except.ok (Prod.ext (Subsingleton.elim _ _) rfl)

theorem times_succ_eq_ok {n : ℕ} {s s'' : List σ} {f : Fin (n + 1) → α}
    (h : times read (n + 1) s = .ok (f, s'')) :
    ∃ s', read s = .ok (f 0, s') ∧ times read n s' = .ok (Fin.tail f, s'') := by
  rw [times] at h
  cases hfirst : read s with
  | error e => simp [hfirst] at h
  | ok r =>
    obtain ⟨a, s'⟩ := r
    simp only [hfirst] at h
    cases hrest : times read n s' with
    | error e => simp [hrest] at h
    | ok r =>
      obtain ⟨g, t⟩ := r
      simp only [hrest, Except.ok.injEq, Prod.mk.injEq] at h
      obtain ⟨rfl, rfl⟩ := h
      exact ⟨s', rfl, by simpa using hrest⟩

theorem Takes.times {k : ℕ} (h : Takes k read) (n : ℕ) : Takes (n * k) (times read n) := by
  induction n with
  | zero =>
    intro s f s' hread
    cases hread
    exact ⟨[], rfl, by simp⟩
  | succ n ih =>
    intro s f s'' hread
    obtain ⟨s', hfirst, hrest⟩ := times_succ_eq_ok hread
    obtain ⟨front, rfl, hfront⟩ := h hfirst
    obtain ⟨front', rfl, hfront'⟩ := ih hrest
    refine ⟨front ++ front', (List.append_assoc ..).symm, ?_⟩
    rw [List.length_append, Nat.succ_mul]
    omega

/-- When each value is read from an element of its own, all are read from these elements. -/
theorem times_append {n : ℕ} {w : Fin n → σ} {f : Fin n → α}
    (h : ∀ i rest, read (w i :: rest) = .ok (f i, rest)) (rest : List σ) :
    times read n (List.ofFn w ++ rest) = .ok (f, rest) := by
  induction n with
  | zero => exact congrArg Except.ok (Prod.ext (Subsingleton.elim _ _) (by simp))
  | succ n ih =>
    have htail := ih (w := fun i => w i.succ) (f := fun i => f i.succ) fun i => h i.succ
    rw [List.ofFn_succ, List.cons_append, times, h 0]
    simp only [htail]
    exact congrArg Except.ok (Prod.ext (Fin.cons_self_tail f) rfl)

/-- When as many values as elements are read, each value is read from an element of its own. -/
theorem times_exact (hread : Takes 1 read) {n : ℕ} {w : Fin n → σ} {f : Fin n → α} {s : List σ}
    (h : times read n (List.ofFn w ++ s) = .ok (f, s)) (i : Fin n) :
    ∃ rest, read (w i :: rest) = .ok (f i, rest) := by
  induction n with
  | zero => exact i.elim0
  | succ n ih =>
    obtain ⟨t, hfirst, hrest⟩ := times_succ_eq_ok h
    have ht : t = List.ofFn (fun i => w (Fin.succ i)) ++ s := by
      obtain ⟨front, hs, hfront⟩ := hread hfirst
      have hlen := (hread.times n).length_le hrest
      have htotal := congrArg List.length hs
      rw [List.ofFn_succ] at hs
      simp only [List.length_append, List.length_ofFn] at htotal
      obtain ⟨x, rfl⟩ : ∃ x, front = [x] := List.length_eq_one_iff.1 (by omega)
      exact (List.cons.inj hs).2.symm
    subst ht
    cases i using Fin.cases with
    | zero => exact ⟨_, by rw [List.ofFn_succ] at hfirst; exact hfirst⟩
    | succ i => exact ih (w := fun i => w i.succ) hrest i

/-- Readers that agree on the streams they meet read the same values. -/
theorem times_congr (htakes : Takes 0 read) {N : ℕ}
    (h : ∀ s, s.length ≤ N → read s = read' s) (n : ℕ) {s : List σ} (hs : s.length ≤ N) :
    times read n s = times read' n s := by
  induction n generalizing s with
  | zero => rfl
  | succ n ih =>
    rw [times, times, ← h s hs]
    cases hfirst : read s with
    | error e => rfl
    | ok r =>
      obtain ⟨a, t⟩ := r
      have hlen := htakes.length_le hfirst
      simp only [ih (by omega : t.length ≤ N)]

/-! ### Recursion on what is left -/

/-- The recursive calls of `step` are on shorter streams, and `step` takes an element itself. -/
structure Guarded (step : Reader ε σ α → Reader ε σ α) : Prop where
  takes : ∀ read, Takes 0 read → Takes 1 (step read)
  congr : ∀ read read' s, Takes 0 read → (∀ t, t.length < s.length → read t = read' t) →
    step read s = step read' s

/-- The recursion, cut off with the error `e` after a number of calls. -/
def iterate (step : Reader ε σ α → Reader ε σ α) (e : ε) : ℕ → Reader ε σ α
  | 0 => fun _ => .error e
  | fuel + 1 => step (iterate step e fuel)

/-- The recursion, with as many calls as the stream may need. -/
def recurse (step : Reader ε σ α → Reader ε σ α) (e : ε) : Reader ε σ α :=
  fun s => iterate step e (s.length + 1) s

variable {step : Reader ε σ α → Reader ε σ α} {e : ε}

theorem Guarded.iterate_takes (h : Guarded step) (fuel : ℕ) : Takes 1 (iterate step e fuel) := by
  induction fuel with
  | zero =>
    intro s a s' hread
    cases hread
  | succ fuel ih => exact h.takes _ (ih.mono (Nat.zero_le 1))

/-- Any bound above the length of the stream gives the same result. -/
theorem Guarded.iterate_congr (h : Guarded step) {fuel fuel' : ℕ} {s : List σ}
    (hf : s.length < fuel) (hf' : s.length < fuel') :
    iterate step e fuel s = iterate step e fuel' s := by
  induction fuel generalizing fuel' s with
  | zero => omega
  | succ fuel ih =>
    cases fuel' with
    | zero => omega
    | succ fuel' =>
      refine h.congr _ _ s ((h.iterate_takes fuel).mono (Nat.zero_le 1)) fun t ht => ?_
      exact ih (by omega) (by omega)

theorem Guarded.recurse_takes (h : Guarded step) : Takes 1 (recurse step e) :=
  fun _ _ _ hread => h.iterate_takes _ hread

/-- **The equation of the recursion.** -/
theorem Guarded.recurse_eq (h : Guarded step) (s : List σ) :
    recurse step e s = step (recurse step e) s := by
  have hstep : recurse step e s = step (iterate step e s.length) s := rfl
  rw [hstep]
  refine h.congr _ _ s ((h.iterate_takes _).mono (Nat.zero_le 1)) fun t ht => ?_
  exact h.iterate_congr ht (Nat.lt_succ_self _)

end Reader
