import DepthaiCore.Utility.CircularBuffer
import Mathlib.Data.List.DropRight

/-!
# Circular buffers as bounded lists

A circular buffer can be looked at in seven ways: as a vector, by position, from either end, by its
size, and with an iterator in either direction. Each computes its places on its own. All of them
show one list, which is what was added since the last `clear`, or the end of it if that is more than
the buffer holds.
-/

namespace DepthaiCore

namespace CircularBuffer

variable {α : Type}

/-! ### The rest of the interface -/

def clear (b : CircularBuffer α) : CircularBuffer α := empty b.maxSize

/-- `first`: the oldest element, of a buffer that has one. -/
def first (b : CircularBuffer α) : Option α :=
  if b.buffer.isEmpty then none
  else if b.buffer.length < b.maxSize then b.buffer.head?
  else b.buffer[b.index]?

/-- The place that `at` and the forward iterator look at for a position. -/
def forwardPlace (b : CircularBuffer α) (pos : ℕ) : ℕ := (b.start + pos) % b.buffer.length

/-- `at`, which throws for a position that is not inside. -/
def atPos (b : CircularBuffer α) (pos : ℕ) : Option α :=
  if b.buffer.length ≤ pos then none else b.buffer[b.forwardPlace pos]?

/-- What the forward iterator reads from `begin` to `end`. -/
def forward (b : CircularBuffer α) : List (Option α) :=
  (List.range b.buffer.length).map fun pos => b.buffer[b.forwardPlace pos]?

/-- What the reverse iterator reads from `rbegin` to `rend`. -/
def reverse (b : CircularBuffer α) : List (Option α) :=
  (List.range b.buffer.length).map fun pos => b.buffer[b.reversePlace pos]?

/-- A call that changes a buffer. -/
inductive Op (α : Type)
  | add (value : α)
  | clear
  deriving DecidableEq, Repr

/-- One call. -/
def perform (b : CircularBuffer α) : Op α → Option (CircularBuffer α)
  | .add value => b.add value
  | .clear => some b.clear

/-- A new buffer after a sequence of calls. -/
def run (maxSize : ℕ) (ops : List (Op α)) : Option (CircularBuffer α) :=
  ops.foldlM perform (empty maxSize)

/-! ### One list -/

/-- Every view of the buffer is a view of `held`. -/
structure Shows (b : CircularBuffer α) (held : List α) : Prop where
  getBuffer : b.getBuffer = held
  atPos : ∀ pos, b.atPos pos = held[pos]?
  first : b.first = held.head?
  last : b.last = held.getLast?
  size : b.size = held.length
  forward : b.forward = held.map some
  reverse : b.reverse = held.reverse.map some

theorem forwardPlace_eq (b : CircularBuffer α) (pos : ℕ) :
    b.forwardPlace pos = (b.index + pos) % b.buffer.length := by
  rw [forwardPlace, start_eq]

theorem map_range_eq {n : ℕ} {read : ℕ → Option α} {l : List α} (hlength : l.length = n)
    (hread : ∀ i, i < n → read i = l[i]?) : (List.range n).map read = l.map some := by
  refine List.ext_getElem (by simp [hlength]) fun i hi _ => ?_
  rw [List.length_map, List.length_range] at hi
  simp [hread i hi, List.getElem?_eq_getElem (hlength ▸ hi)]

theorem first_eq (b : CircularBuffer α) : b.first = b.getBuffer.head? := by
  rw [first]
  split_ifs with hempty hroom
  · rw [getBuffer_eq, List.isEmpty_iff.1 hempty]
    simp
  · rw [getBuffer, if_pos hroom]
  · have hpos : 0 < b.buffer.length := by
      rw [List.length_pos_iff]
      simpa using hempty
    rw [List.head?_eq_getElem?, getElem?_getBuffer b hpos, Nat.add_zero,
      Nat.mod_eq_of_lt (b.index_lt_length hpos)]

/-- **The views agree.** -/
theorem shows_getBuffer (b : CircularBuffer α) : b.Shows b.getBuffer where
  getBuffer := rfl
  atPos pos := by
    rw [CircularBuffer.atPos]
    split_ifs with hpos
    · rw [List.getElem?_eq_none (by rwa [length_getBuffer])]
    · rw [forwardPlace_eq, getElem?_getBuffer b (not_le.1 hpos)]
  first := b.first_eq
  last := by rw [last_eq, recent, List.head?_reverse]
  size := by rw [CircularBuffer.size, length_getBuffer]
  forward := map_range_eq b.length_getBuffer fun pos hpos => by
    rw [forwardPlace_eq, getElem?_getBuffer b hpos]
  reverse := map_range_eq (by rw [List.length_reverse, length_getBuffer]) fun pos hpos =>
    getElem?_reversePlace b hpos

/-! ### Runs -/

/-- What was added since the last `clear`, the oldest first. -/
def sinceClear (ops : List (Op α)) : List α :=
  ops.foldl (fun added op =>
    match op with
    | .add value => added ++ [value]
    | .clear => []) []

@[simp]
theorem sinceClear_add (ops : List (Op α)) (value : α) :
    sinceClear (ops ++ [.add value]) = sinceClear ops ++ [value] := by
  simp [sinceClear]

@[simp]
theorem sinceClear_clear (ops : List (Op α)) : sinceClear (ops ++ [.clear]) = [] := by
  simp [sinceClear]

theorem rtake_concat_eq (l : List α) (value : α) {n : ℕ} (h : 0 < n) :
    (l ++ [value]).rtake n = (l.rtake n ++ [value]).rtake n := by
  obtain ⟨n, rfl⟩ := Nat.exists_eq_succ_of_ne_zero h.ne'
  rw [List.rtake_concat_succ, List.rtake_concat_succ]
  congr 1
  simp only [List.rtake_eq_reverse_take_reverse, List.reverse_reverse, List.take_take]
  rw [min_eq_left (Nat.le_succ n)]

theorem getBuffer_of_add {b t : CircularBuffer α} {value : α} (h : b.add value = some t) :
    t.getBuffer = (b.getBuffer ++ [value]).rtake b.maxSize := by
  have hrecent := congrArg List.reverse (recent_of_add h)
  rw [recent, List.reverse_reverse] at hrecent
  rw [hrecent, List.rtake_eq_reverse_take_reverse, List.reverse_append, recent]
  rfl

theorem getBuffer_of_perform {maxSize : ℕ} {b t : CircularBuffer α} {ops : List (Op α)} {op : Op α}
    (hpos : 0 < maxSize) (hsize : b.maxSize = maxSize)
    (hheld : b.getBuffer = (sinceClear ops).rtake maxSize) (h : b.perform op = some t) :
    t.maxSize = maxSize ∧ t.getBuffer = (sinceClear (ops ++ [op])).rtake maxSize := by
  cases op with
  | add value =>
    refine ⟨(maxSize_of_add h).trans hsize, ?_⟩
    rw [getBuffer_of_add h, hsize, hheld, sinceClear_add]
    exact (rtake_concat_eq _ value hpos).symm
  | clear =>
    obtain rfl := Option.some.inj h
    refine ⟨hsize, ?_⟩
    rw [sinceClear_clear, List.rtake_nil, ← List.length_eq_zero_iff, length_getBuffer]
    rfl

/-- A buffer after a sequence of calls. By induction on the calls, from the last one back. -/
theorem exists_run {maxSize : ℕ} (hpos : 0 < maxSize) (ops : List (Op α)) :
    ∃ b, run maxSize ops = some b ∧ b.maxSize = maxSize ∧
      b.getBuffer = (sinceClear ops).rtake maxSize := by
  induction ops using List.reverseRecOn with
  | nil => exact ⟨empty maxSize, rfl, rfl, by simp [getBuffer_eq, empty, sinceClear]⟩
  | append_singleton ops op ih =>
    obtain ⟨b, hrun, hsize, hheld⟩ := ih
    obtain ⟨t, ht⟩ : ∃ t, b.perform op = some t := by
      cases op with
      | add value => exact exists_add (by rwa [hsize]) value
      | clear => exact ⟨_, rfl⟩
    obtain ⟨hsize', hheld'⟩ := getBuffer_of_perform hpos hsize hheld ht
    refine ⟨t, ?_, hsize', hheld'⟩
    rw [run, List.foldlM_append, ← run, hrun]
    simpa using ht

/-- **A circular buffer shows the last elements that were added** since the last `clear`, and as
many of them as it has room for. -/
theorem run_shows {maxSize : ℕ} (hpos : 1 ≤ maxSize) (ops : List (Op α)) :
    ∃ b, run maxSize ops = some b ∧ b.Shows ((sinceClear ops).rtake maxSize) ∧
      ((sinceClear ops).rtake maxSize).length = min (sinceClear ops).length maxSize := by
  obtain ⟨b, hrun, -, hheld⟩ := exists_run hpos ops
  refine ⟨b, hrun, hheld ▸ b.shows_getBuffer, ?_⟩
  rw [List.rtake, List.length_drop]
  omega

theorem run_shows_wrapped :
    ∃ b, run 2 [.add 7, .clear, .add 1, .add 2, .add 3] = some b ∧ b.Shows [2, 3] := by
  obtain ⟨b, hrun, hshows, -⟩ := run_shows (show 1 ≤ 2 by decide)
    [.add 7, .clear, .add 1, .add 2, .add 3]
  exact ⟨b, hrun, hshows⟩

end CircularBuffer

end DepthaiCore
