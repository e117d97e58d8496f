import Mathlib.Data.List.Range
import Mathlib.Data.Int.ModEq

/-!
# Circular buffers

A vector that is full is overwritten from its oldest element on. The place of the oldest element is
kept beside it. The iterators go through the elements by their age.

An element is added to a buffer of size zero outside the vector, so that `add` has no result there.
-/

namespace DepthaiCore

structure CircularBuffer (α : Type) where
  buffer : List α
  maxSize : ℕ
  index : ℕ
  length_le : buffer.length ≤ maxSize
  index_eq_zero : buffer.length < maxSize → index = 0
  index_lt : 0 < maxSize → index < maxSize
  deriving DecidableEq

namespace CircularBuffer

variable {α : Type}

/-! ### What the source computes -/

/-- The constructor. -/
def empty (size : ℕ) : CircularBuffer α where
  buffer := []
  maxSize := size
  index := 0
  length_le := Nat.zero_le size
  index_eq_zero _ := rfl
  index_lt h := h

def size (b : CircularBuffer α) : ℕ := b.buffer.length

def start (b : CircularBuffer α) : ℕ := if b.buffer.length < b.maxSize then 0 else b.index

/-- `add`: after the last element, or in place of the oldest one. -/
def add (b : CircularBuffer α) (value : α) : Option (CircularBuffer α) :=
  if h : b.buffer.length < b.maxSize then
    some { b with
      buffer := b.buffer ++ [value]
      length_le := by rwa [List.length_append]
      index_eq_zero := fun _ => b.index_eq_zero h }
  else if hpos : 0 < b.maxSize then
    some { b with
      buffer := b.buffer.set b.index value
      index := (b.index + 1) % b.maxSize
      length_le := by rw [List.length_set]; exact b.length_le
      index_eq_zero := fun hlt => absurd (by rwa [List.length_set] at hlt) h
      index_lt := fun _ => Nat.mod_lt _ hpos }
  else none

/-- `getBuffer`: from the oldest element to the newest. -/
def getBuffer (b : CircularBuffer α) : List α :=
  if b.buffer.length < b.maxSize then b.buffer
  else b.buffer.drop b.index ++ b.buffer.take b.index

/-- `last`: the newest element, of a buffer that has one. -/
def last (b : CircularBuffer α) : Option α :=
  if b.buffer.length < b.maxSize then b.buffer.getLast?
  else b.buffer[(b.index + b.maxSize - 1) % b.maxSize]?

/-- The place of the element that the reverse iterator comes to after `pos` others. -/
def reversePlace (b : CircularBuffer α) (pos : ℕ) : ℕ :=
  (b.start + b.buffer.length - 1 - pos) % b.buffer.length

/-- An assignment through a reference to an element. -/
def assign (b : CircularBuffer α) (place : ℕ) (value : α) : CircularBuffer α where
  buffer := b.buffer.set place value
  maxSize := b.maxSize
  index := b.index
  length_le := by rw [List.length_set]; exact b.length_le
  index_eq_zero h := b.index_eq_zero (by rwa [List.length_set] at h)
  index_lt := b.index_lt

/-! ### The elements by their age -/

/-- The elements, the newest first. -/
def recent (b : CircularBuffer α) : List α := b.getBuffer.reverse

variable (b : CircularBuffer α)

/-- A buffer that is not full starts at its first place. -/
theorem start_eq : b.start = b.index := by
  unfold start
  split
  · exact (b.index_eq_zero ‹_›).symm
  · rfl

theorem getBuffer_eq : b.getBuffer = b.buffer.drop b.index ++ b.buffer.take b.index := by
  unfold getBuffer
  split
  · rw [b.index_eq_zero ‹_›, List.drop_zero, List.take_zero, List.append_nil]
  · rfl

theorem index_lt_length (h : 0 < b.buffer.length) : b.index < b.buffer.length := by
  by_cases hlt : b.buffer.length < b.maxSize
  · rwa [b.index_eq_zero hlt]
  · have hle := b.length_le
    have hindex := b.index_lt (h.trans_le hle)
    omega

theorem length_getBuffer : b.getBuffer.length = b.buffer.length := by
  rw [getBuffer_eq, List.length_append, List.length_drop, List.length_take]
  rcases Nat.eq_zero_or_pos b.buffer.length with h | h
  · omega
  · have hindex := b.index_lt_length h
    omega

@[simp]
theorem length_recent : b.recent.length = b.buffer.length := by
  rw [recent, List.length_reverse, length_getBuffer]

@[simp]
theorem recent_empty (size : ℕ) : (empty size : CircularBuffer α).recent = [] := by
  rw [recent, getBuffer_eq]
  rfl

variable {b} {value : α}

/-- There is room for an element in every buffer of positive size. -/
theorem exists_add (h : 0 < b.maxSize) (value : α) : ∃ t, b.add value = some t := by
  unfold add
  split_ifs
  · exact ⟨_, rfl⟩
  · exact ⟨_, rfl⟩

theorem add_eq_none (h : b.maxSize = 0) (value : α) : b.add value = none := by
  unfold add
  rw [dif_neg (by omega), dif_neg (by omega)]

theorem maxSize_of_add {t : CircularBuffer α} (h : b.add value = some t) :
    t.maxSize = b.maxSize := by
  unfold add at h
  split_ifs at h
  · rw [← Option.some.inj h]
  · rw [← Option.some.inj h]

/-- **What is added comes first**, and the oldest element of a full buffer goes. -/
theorem recent_of_add {t : CircularBuffer α} (h : b.add value = some t) :
    t.recent = (value :: b.recent).take b.maxSize := by
  unfold add at h
  split_ifs at h with hlt hpos
  · have hzero := b.index_eq_zero hlt
    have hall : (value :: b.recent).length ≤ b.maxSize := by
      rw [List.length_cons, length_recent]
      exact hlt
    rw [List.take_of_length_le hall, ← Option.some.inj h, recent, recent, getBuffer_eq,
      getBuffer_eq]
    show ((b.buffer ++ [value]).drop b.index ++ (b.buffer ++ [value]).take b.index).reverse = _
    rw [hzero]
    simp
  · have hfull : b.buffer.length = b.maxSize := le_antisymm b.length_le (not_lt.1 hlt)
    have hindex := b.index_lt hpos
    obtain ⟨old, rest, hdrop⟩ : ∃ old rest, b.buffer.drop b.index = old :: rest :=
      List.exists_cons_of_ne_nil (by rw [ne_eq, List.drop_eq_nil_iff]; omega)
    have hrest : b.buffer.drop (b.index + 1) = rest := by
      rw [← List.drop_drop, hdrop]
      rfl
    have hbefore : b.recent = (rest ++ b.buffer.take b.index).reverse ++ [old] := by
      rw [recent, getBuffer_eq, hdrop]
      simp
    have hafter : t.getBuffer = rest ++ b.buffer.take b.index ++ [value] := by
      have hset : b.buffer.set b.index value = b.buffer.take b.index ++ value :: rest := by
        rw [List.set_eq_take_append_cons_drop, if_pos (by omega), hrest]
      have htake : (b.buffer.take b.index).length = b.index := by
        rw [List.length_take]
        omega
      rw [← Option.some.inj h, getBuffer_eq]
      show (b.buffer.set b.index value).drop ((b.index + 1) % b.maxSize) ++
        (b.buffer.set b.index value).take ((b.index + 1) % b.maxSize) = _
      rw [hset]
      rcases Nat.lt_or_ge (b.index + 1) b.maxSize with hnext | hnext
      · rw [Nat.mod_eq_of_lt hnext, List.drop_append, List.take_append, htake]
        simp [List.drop_eq_nil_of_le, htake, List.take_of_length_le]
      · have hnil : rest = [] := by
          rw [← hrest, List.drop_eq_nil_iff]
          omega
        rw [show b.index + 1 = b.maxSize by omega, Nat.mod_self, hnil]
        simp
    have hlength : b.maxSize = (rest ++ b.buffer.take b.index).reverse.length + 1 := by
      have hsum := congrArg List.length hbefore
      rw [length_recent, List.length_append, List.length_singleton] at hsum
      omega
    rw [recent, hafter, hbefore, hlength, List.take_succ_cons, List.take_left, List.reverse_append]
    rfl

theorem last_eq (b : CircularBuffer α) : b.last = b.recent.head? := by
  rw [recent, List.head?_reverse, getBuffer_eq]
  unfold last
  split
  · rw [b.index_eq_zero ‹_›]
    simp
  case isFalse hfull =>
    have hlength : b.buffer.length = b.maxSize := le_antisymm b.length_le (not_lt.1 hfull)
    rcases Nat.eq_zero_or_pos b.maxSize with hzero | hpos
    · rw [List.eq_nil_of_length_eq_zero (hlength.trans hzero)]
      simp
    · have hindex := b.index_lt hpos
      rcases Nat.eq_zero_or_pos b.index with hi | hi
      · rw [hi, Nat.zero_add, Nat.mod_eq_of_lt (by omega), ← hlength, List.take_zero,
          List.append_nil, List.drop_zero, List.getLast?_eq_getElem?]
      · rw [show b.index + b.maxSize - 1 = b.index - 1 + b.maxSize by omega, Nat.add_mod_right,
          Nat.mod_eq_of_lt (by omega), List.getLast?_append, List.getLast?_take,
          if_neg (by omega)]
        rw [List.getElem?_eq_getElem (by omega)]
        rfl

/-! ### The reverse iterator -/

theorem getElem?_getBuffer (b : CircularBuffer α) {i : ℕ} (hi : i < b.buffer.length) :
    b.getBuffer[i]? = b.buffer[(b.index + i) % b.buffer.length]? := by
  have hindex := b.index_lt_length (Nat.zero_lt_of_lt hi)
  rw [getBuffer_eq]
  rcases Nat.lt_or_ge (b.index + i) b.buffer.length with h | h
  · rw [List.getElem?_append_left (by rw [List.length_drop]; omega), List.getElem?_drop,
      Nat.mod_eq_of_lt h]
  · rw [List.getElem?_append_right (by rw [List.length_drop]; omega), List.length_drop,
      List.getElem?_take_of_lt (by omega), Nat.mod_eq_sub_mod h, Nat.mod_eq_of_lt (by omega)]
    congr 1
    omega

theorem reversePlace_eq (b : CircularBuffer α) {pos : ℕ} (h : pos < b.buffer.length) :
    b.reversePlace pos = (b.index + (b.buffer.length - 1 - pos)) % b.buffer.length := by
  rw [reversePlace, start_eq, show b.index + b.buffer.length - 1 - pos =
    b.index + (b.buffer.length - 1 - pos) by omega]

/-- **The reverse iterator reads the elements by their age.** -/
theorem getElem?_reversePlace (b : CircularBuffer α) {pos : ℕ} (h : pos < b.buffer.length) :
    b.buffer[b.reversePlace pos]? = b.recent[pos]? := by
  rw [reversePlace_eq b h, ← getElem?_getBuffer b (by omega), recent,
    List.getElem?_reverse (by rwa [length_getBuffer]), length_getBuffer]

theorem reversePlace_injective (b : CircularBuffer α) {i j : ℕ} (hi : i < b.buffer.length)
    (hj : j < b.buffer.length) (h : b.reversePlace i = b.reversePlace j) : i = j := by
  rw [reversePlace_eq b hi, reversePlace_eq b hj] at h
  have hmod := Nat.ModEq.add_left_cancel' b.index h
  have heq := hmod.eq_of_lt_of_lt (by omega) (by omega)
  omega

/-- **It writes them by their age.** -/
theorem recent_assign (b : CircularBuffer α) {pos : ℕ} (h : pos < b.buffer.length) (value : α) :
    (b.assign (b.reversePlace pos) value).recent = b.recent.set pos value := by
  have hlength : (b.assign (b.reversePlace pos) value).buffer.length = b.buffer.length :=
    List.length_set
  refine List.ext_getElem? fun i => ?_
  rcases Nat.lt_or_ge i b.buffer.length with hi | hi
  · rw [← getElem?_reversePlace _ (by rwa [hlength])]
    have hplace : (b.assign (b.reversePlace pos) value).reversePlace i = b.reversePlace i := by
      rw [reversePlace_eq _ (by rwa [hlength]), hlength, reversePlace_eq b hi]
      rfl
    rw [hplace]
    show (b.buffer.set (b.reversePlace pos) value)[b.reversePlace i]? = _
    by_cases heq : pos = i
    · have hinside : b.reversePlace i < b.buffer.length := Nat.mod_lt _ (Nat.zero_lt_of_lt hi)
      rw [heq, List.getElem?_set_self hinside, List.getElem?_set_self (by rwa [length_recent])]
    · rw [List.getElem?_set_ne fun hplaces => heq (reversePlace_injective b h hi hplaces),
        List.getElem?_set_ne heq, getElem?_reversePlace b hi]
  · rw [List.getElem?_eq_none (by rwa [length_recent, hlength]),
      List.getElem?_eq_none (by rwa [List.length_set, length_recent])]

end CircularBuffer

end DepthaiCore
