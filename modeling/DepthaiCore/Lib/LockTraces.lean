import Mathlib.Order.Lattice.Nat

/-!
# Lock traces

A thread takes and releases mutexes. What it does to them is a list of steps; one step takes a whole
group, as a lock over several mutexes does. Guards are tied to scopes, so every trace is well
bracketed: a `LockTrace` is a list of steps together with the proof that it is.

`t.Nested a b` says that somewhere in `t` the mutex `b` is taken while `a` is held. A thread that
takes a mutex it holds has `t.Nested a a`. When the nested pairs go up in a rank, threads cannot
wait for each other in a circle.
-/

/-- One step of a thread on its mutexes. -/
inductive LockStep (M : Type*)
  /-- It takes all of `ms` at once. -/
  | acquire (ms : List M)
  /-- It gives all of `ms` back. -/
  | release (ms : List M)
  deriving DecidableEq, Repr

namespace LockStep

variable {M : Type*}

/-- Well bracketed steps. -/
inductive Bracketed : List (LockStep M) → Prop
  | nil : Bracketed []
  | locked (ms : List M) {body rest : List (LockStep M)} (hbody : Bracketed body)
      (hrest : Bracketed rest) : Bracketed (acquire ms :: body ++ release ms :: rest)

theorem Bracketed.append {t u : List (LockStep M)} (ht : Bracketed t) (hu : Bracketed u) :
    Bracketed (t ++ u) := by
  induction ht with
  | nil => exact hu
  | locked ms hbody hrest ihbody ihrest =>
    simpa only [List.append_assoc, List.cons_append] using Bracketed.locked ms hbody ihrest

/-- Some step takes `b`. -/
def Takes (b : M) (t : List (LockStep M)) : Prop :=
  ∃ ms, acquire ms ∈ t ∧ b ∈ ms

variable [DecidableEq M]

/-- What a thread that holds `hs` holds after some steps. -/
def held : List M → List (LockStep M) → List M
  | hs, [] => hs
  | hs, acquire ms :: t => held (ms ++ hs) t
  | hs, release ms :: t => held (hs.diff ms) t

/-- A thread that holds `hs` takes `b` while it holds `a`. -/
def Nested (a b : M) : List M → List (LockStep M) → Prop
  | _, [] => False
  | hs, acquire ms :: t => a ∈ hs ∧ b ∈ ms ∨ Nested a b (ms ++ hs) t
  | hs, release ms :: t => Nested a b (hs.diff ms) t

theorem append_diff_self (ms hs : List M) : (ms ++ hs).diff ms = hs := by
  induction ms with
  | nil => simp
  | cons m ms ih => simpa [List.diff_cons] using ih

theorem held_append (hs : List M) (t u : List (LockStep M)) :
    held hs (t ++ u) = held (held hs t) u := by
  induction t generalizing hs with
  | nil => rfl
  | cons s t ih => cases s <;> exact ih _

theorem nested_append (a b : M) (hs : List M) (t u : List (LockStep M)) :
    Nested a b hs (t ++ u) ↔ Nested a b hs t ∨ Nested a b (held hs t) u := by
  induction t generalizing hs with
  | nil => simp [Nested, held]
  | cons s t ih =>
    cases s with
    | acquire ms => simp only [List.cons_append, Nested, held, ih, or_assoc]
    | release ms => simp only [List.cons_append, Nested, held, ih]

theorem Bracketed.held_eq {t : List (LockStep M)} (ht : Bracketed t) (hs : List M) : held hs t = hs := by
  induction ht generalizing hs with
  | nil => rfl
  | locked ms hbody hrest ihbody ihrest =>
    rw [List.cons_append, held, held_append, ihbody, held, append_diff_self, ihrest]

theorem nested_scope {ms : List M} {body rest : List (LockStep M)} (hbody : Bracketed body) (a b : M)
    (hs : List M) :
    Nested a b hs (acquire ms :: body ++ release ms :: rest) ↔
      a ∈ hs ∧ b ∈ ms ∨ Nested a b (ms ++ hs) body ∨ Nested a b hs rest := by
  rw [List.cons_append, Nested, nested_append, hbody.held_eq, Nested, append_diff_self]

/-- Steps nest what they nest by themselves, and all they take in what was held before. -/
theorem Bracketed.nested_iff {t : List (LockStep M)} (ht : Bracketed t) (a b : M) (hs : List M) :
    Nested a b hs t ↔ Nested a b [] t ∨ a ∈ hs ∧ Takes b t := by
  induction ht generalizing hs with
  | nil => simp [Nested, Takes]
  | @locked ms body rest hbody hrest ihbody ihrest =>
    have htakes : Takes b (acquire ms :: body ++ release ms :: rest) ↔
        b ∈ ms ∨ Takes b body ∨ Takes b rest := by
      simp [Takes, or_and_right, exists_or]
    rw [nested_scope hbody, nested_scope hbody, ihbody (ms ++ hs), ihbody (ms ++ []), ihrest hs,
      htakes]
    simp only [List.mem_append, List.not_mem_nil, false_and, or_false, false_or]
    tauto

end LockStep

/-- Well bracketed steps on mutexes. -/
structure LockTrace (M : Type*) where
  steps : List (LockStep M)
  bracketed : LockStep.Bracketed steps

namespace LockTrace

open LockStep

variable {M : Type*}

/-- No step. -/
def nil : LockTrace M := ⟨[], .nil⟩

instance : Append (LockTrace M) := ⟨fun t u => ⟨t.steps ++ u.steps, t.bracketed.append u.bracketed⟩⟩

/-- A scope whose guard takes `ms`. -/
def locked (ms : List M) (t : LockTrace M) : LockTrace M :=
  ⟨.acquire ms :: t.steps ++ .release ms :: [], .locked ms t.bracketed .nil⟩

/-- One trace after the other. -/
def seq : List (LockTrace M) → LockTrace M
  | [] => nil
  | t :: ts => t ++ seq ts

/-- A scope whose guard takes `m` and gives it up `waits` times, to wait on a condition variable,
before `t`. -/
def waiting (m : M) (waits : ℕ) (t : LockTrace M) : LockTrace M :=
  seq (List.replicate waits (locked [m] nil)) ++ locked [m] t

/-- Some step takes `b`. -/
def Takes (t : LockTrace M) (b : M) : Prop :=
  LockStep.Takes b t.steps

section Takes

variable {t u : LockTrace M} {ts : List (LockTrace M)} {ms : List M} {b : M}

@[simp] theorem takes_nil : ¬ (nil : LockTrace M).Takes b := by
  simp [Takes, LockStep.Takes, nil]

@[simp] theorem takes_append : (t ++ u).Takes b ↔ t.Takes b ∨ u.Takes b := by
  change LockStep.Takes b (t.steps ++ u.steps) ↔ _
  simp [Takes, LockStep.Takes, or_and_right, exists_or]

@[simp] theorem takes_locked : (locked ms t).Takes b ↔ b ∈ ms ∨ t.Takes b := by
  simp [Takes, LockStep.Takes, locked, or_and_right, exists_or]

@[simp] theorem takes_seq : (seq ts).Takes b ↔ ∃ t ∈ ts, t.Takes b := by
  induction ts with
  | nil => simp [seq]
  | cons t ts ih => simp [seq, ih]

@[simp] theorem takes_waiting {m : M} {waits : ℕ} :
    (waiting m waits t).Takes b ↔ b = m ∨ t.Takes b := by
  simp only [waiting, takes_append, takes_seq, takes_locked, List.mem_singleton]
  refine ⟨?_, .inr⟩
  rintro (⟨u, hu, hb⟩ | hb)
  · obtain rfl := List.eq_of_mem_replicate hu
    exact .inl (by simpa using hb)
  · exact hb

end Takes

variable [DecidableEq M]

/-- `b` is taken while `a` is held. -/
def Nested (t : LockTrace M) (a b : M) : Prop :=
  LockStep.Nested a b [] t.steps

section Nested

variable {t u : LockTrace M} {ts : List (LockTrace M)} {ms : List M} {a b : M}

@[simp] theorem nested_nil : ¬ (nil : LockTrace M).Nested a b := fun h => h

@[simp] theorem nested_append : (t ++ u).Nested a b ↔ t.Nested a b ∨ u.Nested a b := by
  change LockStep.Nested a b [] (t.steps ++ u.steps) ↔ _
  rw [LockStep.nested_append, t.bracketed.held_eq]
  exact Iff.rfl

@[simp] theorem nested_locked :
    (locked ms t).Nested a b ↔ t.Nested a b ∨ a ∈ ms ∧ t.Takes b := by
  change LockStep.Nested a b [] (.acquire ms :: t.steps ++ .release ms :: []) ↔ _
  rw [nested_scope t.bracketed, t.bracketed.nested_iff]
  simp [LockStep.Nested, Nested, Takes]

@[simp] theorem nested_seq : (seq ts).Nested a b ↔ ∃ t ∈ ts, t.Nested a b := by
  induction ts with
  | nil => simp [seq]
  | cons t ts ih => simp [seq, ih]

@[simp] theorem nested_waiting {m : M} {waits : ℕ} :
    (waiting m waits t).Nested a b ↔ t.Nested a b ∨ a = m ∧ t.Takes b := by
  simp only [waiting, nested_append, nested_seq, nested_locked, List.mem_singleton]
  refine ⟨?_, .inr⟩
  rintro (⟨u, hu, hb⟩ | hb)
  · obtain rfl := List.eq_of_mem_replicate hu
    simp at hb
  · exact hb

end Nested

/-! ### Deadlock -/

/-- A thread on its way through a trace: it has made the steps `done`, and its next one takes
`wanted`. -/
structure Waiting (t : LockTrace M) (done : List (LockStep M)) (wanted : List M) : Prop where
  prefix_steps : ∃ rest, t.steps = done ++ .acquire wanted :: rest

theorem Waiting.nested {t : LockTrace M} {done : List (LockStep M)} {wanted : List M} {a b : M}
    (h : t.Waiting done wanted) (ha : a ∈ LockStep.held [] done) (hb : b ∈ wanted) :
    t.Nested a b := by
  obtain ⟨rest, hrest⟩ := h.prefix_steps
  rw [Nested, hrest, LockStep.nested_append]
  exact .inr (.inl ⟨ha, hb⟩)

/-- Each thread of `T` waits for a mutex that a thread of `T` holds. -/
def Deadlocked {ι : Type*} (T : Finset ι) (trace : ι → LockTrace M)
    (done : ι → List (LockStep M)) (wanted : ι → List M) : Prop :=
  T.Nonempty ∧ ∀ i ∈ T, (trace i).Waiting (done i) (wanted i) ∧
    ∃ j ∈ T, ∃ m ∈ wanted i, m ∈ LockStep.held [] (done j)

/-- **Ranked traces do not deadlock.** If in each trace what is taken ranks above what is held, no
set of threads is deadlocked, wherever each of them is. -/
theorem not_deadlocked {ι : Type*} {trace : ι → LockTrace M} {rank : M → ℕ}
    (hrank : ∀ i a b, (trace i).Nested a b → rank a < rank b) (T : Finset ι)
    (done : ι → List (LockStep M)) (wanted : ι → List M) :
    ¬ Deadlocked T trace done wanted := by
  rintro ⟨hne, hT⟩
  -- The thread that waits for the highest mutex: who holds that waits for a higher one.
  choose next hnext m hm hheld using fun i : T => (hT i i.2).2
  obtain ⟨i, -, hmax⟩ := T.attach.exists_max_image (fun i => rank (m i)) (T.attach_nonempty_iff.2 hne)
  let j : T := ⟨next i, hnext i⟩
  have hlt := hrank _ _ _ ((hT j j.2).1.nested (hheld i) (hm j))
  exact absurd (hmax j (T.mem_attach j)) (Nat.not_le.mpr hlt)

end LockTrace
