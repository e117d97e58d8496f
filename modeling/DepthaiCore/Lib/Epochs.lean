import Mathlib.Data.List.Basic
import Mathlib.Data.List.Pairwise

/-!
# Epochs

A sender takes requests in order and sends letters at any time. The epoch of a letter is the number
of requests that its sender had received. Requests and letters travel through first-in first-out
queues that lose nothing.

A reader that has made its `n`-th request skips letters until one of epoch `n` arrives. If
everything in the queue had epoch `n - 1` when the request was made, then everything behind that
letter has epoch `n` again. So a reader that does this for each of its requests never has more than
two epochs in a queue, and after a match only one.
-/

namespace Epochs

/-- A letter, with its epoch and its place among the letters of its sender. -/
structure Letter (α : Type*) where
  content : α
  epoch : ℕ
  serial : ℕ

/-- A sender, its requests on the way, and its letters. -/
structure Sender (α : Type*) where
  pending : ℕ
  epoch : ℕ
  sent : List (Letter α)
  queue : List (Letter α)

namespace Sender

variable {α : Type*}

/-- A request is made. -/
def request (s : Sender α) : Sender α :=
  { s with pending := s.pending + 1 }

/-- A request is received. -/
def receive (s : Sender α) : Sender α :=
  { s with pending := s.pending - 1, epoch := s.epoch + 1 }

/-- The next letter. -/
def letter (s : Sender α) (content : α) : Letter α :=
  ⟨content, s.epoch, s.sent.length⟩

/-- A letter is sent. -/
def send (s : Sender α) (content : α) : Sender α :=
  { s with sent := s.sent ++ [s.letter content], queue := s.queue ++ [s.letter content] }

/-- What a sender can do on its own: receive a request, send a letter, or neither. -/
def Step (s t : Sender α) : Prop :=
  t = s ∨ 0 < s.pending ∧ t = s.receive ∨ ∃ content, t = s.send content

/-- The letters from `rest` on are left. -/
def take (s : Sender α) (rest : List (Letter α)) : Sender α :=
  { s with queue := rest }

end Sender

variable {α : Type*} {n : ℕ} {s : Sender α} {x : Letter α} {rest : List (Letter α)}

/-! ### Every sender -/

/-- The queue holds letters that were sent, in order. -/
structure Ordered (s : Sender α) : Prop where
  serial : s.queue.Pairwise fun x y => x.serial < y.serial
  epoch : s.queue.Pairwise fun x y => x.epoch ≤ y.epoch
  epoch_le : ∀ x ∈ s.queue, x.epoch ≤ s.epoch
  sent : ∀ x ∈ s.queue, s.sent[x.serial]? = some x

theorem Ordered.receive (h : Ordered s) : Ordered s.receive :=
  ⟨h.serial, h.epoch, fun x hx => Nat.le_succ_of_le (h.epoch_le x hx), h.sent⟩

theorem Ordered.serial_lt (h : Ordered s) (hx : x ∈ s.queue) : x.serial < s.sent.length :=
  (List.getElem?_eq_some_iff.mp (h.sent x hx)).1

theorem Ordered.send (h : Ordered s) (content : α) : Ordered (s.send content) where
  serial := by
    refine List.pairwise_append.mpr ⟨h.serial, List.pairwise_singleton _ _, ?_⟩
    intro x hx y hy
    rw [List.mem_singleton.mp hy]
    exact h.serial_lt hx
  epoch := by
    refine List.pairwise_append.mpr ⟨h.epoch, List.pairwise_singleton _ _, ?_⟩
    intro x hx y hy
    rw [List.mem_singleton.mp hy]
    exact h.epoch_le x hx
  epoch_le := by
    intro x hx
    rcases List.mem_append.mp hx with hx | hx
    · exact h.epoch_le x hx
    · rw [List.mem_singleton.mp hx]
      exact Nat.le_refl _
  sent := by
    intro x hx
    rcases List.mem_append.mp hx with hx | hx
    · rw [Sender.send, List.getElem?_append_left (h.serial_lt hx)]
      exact h.sent x hx
    · rw [List.mem_singleton.mp hx]
      simp [Sender.send, Sender.letter]

theorem Ordered.take (h : Ordered s) (hq : s.queue = x :: rest) : Ordered (s.take rest) where
  serial := by
    have := h.serial
    rw [hq] at this
    exact this.of_cons
  epoch := by
    have := h.epoch
    rw [hq] at this
    exact this.of_cons
  epoch_le y hy := h.epoch_le y (by rw [hq]; exact List.mem_cons_of_mem _ hy)
  sent y hy := h.sent y (by rw [hq]; exact List.mem_cons_of_mem _ hy)

/-! ### One epoch in the queue, or two -/

/-- All requests are received, and every letter on the way has the last epoch. -/
structure Settled (n : ℕ) (s : Sender α) : Prop where
  pending : s.pending = 0
  epoch : s.epoch = n
  queue : ∀ x ∈ s.queue, x.epoch = n

/-- The last request may be on the way, and letters may have the epoch before. -/
structure Catching (n : ℕ) (s : Sender α) : Prop where
  total : s.epoch + s.pending = n
  pending : s.pending ≤ 1
  queue : ∀ x ∈ s.queue, n ≤ x.epoch + 1

theorem Settled.request (h : Settled n s) : Catching (n + 1) s.request where
  total := by
    simp only [Sender.request, h.pending, h.epoch]
  pending := by
    simp only [Sender.request, h.pending]
    exact Nat.le_refl _
  queue x hx := Nat.le_of_eq (congrArg (· + 1) (h.queue x hx).symm)

theorem Settled.send (h : Settled n s) (content : α) : Settled n (s.send content) where
  pending := h.pending
  epoch := h.epoch
  queue x hx := by
    rcases List.mem_append.mp hx with hx | hx
    · exact h.queue x hx
    · rw [List.mem_singleton.mp hx]
      exact h.epoch

theorem Settled.take (h : Settled n s) (hq : s.queue = x :: rest) : Settled n (s.take rest) :=
  ⟨h.pending, h.epoch, fun y hy => h.queue y (by rw [hq]; exact List.mem_cons_of_mem _ hy)⟩

theorem Catching.receive (h : Catching n s) (hp : 0 < s.pending) : Catching n s.receive where
  total := by
    have := h.total
    simp only [Sender.receive]
    omega
  pending := by
    have := h.pending
    simp only [Sender.receive]
    omega
  queue := h.queue

theorem Catching.send (h : Catching n s) (content : α) : Catching n (s.send content) where
  total := h.total
  pending := h.pending
  queue x hx := by
    rcases List.mem_append.mp hx with hx | hx
    · exact h.queue x hx
    · rw [List.mem_singleton.mp hx]
      have htotal := h.total
      have hpending := h.pending
      change n ≤ s.epoch + 1
      omega

theorem Settled.step (h : Settled n s) {t : Sender α} (hstep : s.Step t) : Settled n t := by
  obtain rfl | ⟨hp, -⟩ | ⟨content, rfl⟩ := hstep
  · exact h
  · exact absurd h.pending (Nat.ne_of_gt hp)
  · exact h.send content

theorem Catching.step (h : Catching n s) {t : Sender α} (hstep : s.Step t) : Catching n t := by
  obtain rfl | ⟨hp, rfl⟩ | ⟨content, rfl⟩ := hstep
  · exact h
  · exact h.receive hp
  · exact h.send content

theorem Catching.take (h : Catching n s) (hq : s.queue = x :: rest) : Catching n (s.take rest) :=
  ⟨h.total, h.pending, fun y hy => h.queue y (by rw [hq]; exact List.mem_cons_of_mem _ hy)⟩

/-- **A letter of the last epoch arrives.** The request is received, and nothing older is behind. -/
theorem Catching.matched (h : Catching n s) (ho : Ordered s) (hq : s.queue = x :: rest)
    (hx : x.epoch = n) : Settled n (s.take rest) := by
  have hle : x.epoch ≤ s.epoch := ho.epoch_le x (by rw [hq]; exact List.mem_cons_self)
  have htotal := h.total
  refine ⟨by simp only [Sender.take]; omega, by simp only [Sender.take]; omega, fun y hy => ?_⟩
  have hepoch := ho.epoch
  rw [hq] at hepoch
  have hge : x.epoch ≤ y.epoch := List.rel_of_pairwise_cons hepoch hy
  have hle' : y.epoch ≤ s.epoch := ho.epoch_le y (by rw [hq]; exact List.mem_cons_of_mem _ hy)
  omega

/-- The epochs that the reader can meet while it catches up. -/
theorem Catching.epoch (h : Catching n s) (ho : Ordered s) (hx : x ∈ s.queue) :
    x.epoch = n ∨ x.epoch + 1 = n := by
  have hle := ho.epoch_le x hx
  have hge := h.queue x hx
  have htotal := h.total
  omega

/-! ### Letters that were put to use -/

/-- Letters that were taken and not skipped: each was sent, before everything in the queue, and none
is there twice. -/
structure Used (s : Sender α) (used : List (Letter α)) : Prop where
  serial : used.Pairwise fun x y => x.serial < y.serial
  sent : ∀ x ∈ used, s.sent[x.serial]? = some x
  before : ∀ x ∈ used, ∀ y ∈ s.queue, x.serial < y.serial

variable {used : List (Letter α)}

theorem Used.request (h : Used s used) : Used s.request used :=
  ⟨h.serial, h.sent, h.before⟩

theorem Used.receive (h : Used s used) : Used s.receive used :=
  ⟨h.serial, h.sent, h.before⟩

theorem Used.send (h : Used s used) (content : α) : Used (s.send content) used where
  serial := h.serial
  sent x hx := by
    have hlt := (List.getElem?_eq_some_iff.mp (h.sent x hx)).1
    rw [Sender.send, List.getElem?_append_left hlt]
    exact h.sent x hx
  before x hx y hy := by
    rcases List.mem_append.mp hy with hy | hy
    · exact h.before x hx y hy
    · rw [List.mem_singleton.mp hy]
      exact (List.getElem?_eq_some_iff.mp (h.sent x hx)).1

theorem Used.step (h : Used s used) {t : Sender α} (hstep : s.Step t) : Used t used := by
  obtain rfl | ⟨-, rfl⟩ | ⟨content, rfl⟩ := hstep
  · exact h
  · exact h.receive
  · exact h.send content

theorem Used.take (h : Used s used) (hq : s.queue = x :: rest) : Used (s.take rest) used :=
  ⟨h.serial, h.sent, fun y hy z hz =>
    h.before y hy z (by rw [hq]; exact List.mem_cons_of_mem _ hz)⟩

theorem Used.left {more : List (Letter α)} (h : Used s (used ++ more)) : Used s used :=
  ⟨(List.pairwise_append.mp h.serial).1, fun x hx => h.sent x (List.mem_append_left _ hx),
    fun x hx => h.before x (List.mem_append_left _ hx)⟩

theorem Used.use (h : Used s used) (ho : Ordered s) (hq : s.queue = x :: rest) :
    Used (s.take rest) (used ++ [x]) where
  serial := by
    refine List.pairwise_append.mpr ⟨h.serial, List.pairwise_singleton _ _, fun y hy z hz => ?_⟩
    rw [List.mem_singleton.mp hz]
    exact h.before y hy x (by rw [hq]; exact List.mem_cons_self)
  sent y hy := by
    rcases List.mem_append.mp hy with hy | hy
    · exact h.sent y hy
    · rw [List.mem_singleton.mp hy]
      exact ho.sent x (by rw [hq]; exact List.mem_cons_self)
  before y hy z hz := by
    rcases List.mem_append.mp hy with hy | hy
    · exact h.before y hy z (by rw [hq]; exact List.mem_cons_of_mem _ hz)
    · have hserial := ho.serial
      rw [hq] at hserial
      rw [List.mem_singleton.mp hy]
      exact List.rel_of_pairwise_cons hserial hz

end Epochs
