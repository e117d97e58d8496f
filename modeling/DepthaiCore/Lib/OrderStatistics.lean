import Mathlib.Data.List.Induction
import Mathlib.Data.Multiset.Sort
import Mathlib.Order.Bounds.Basic

/-!
# Order statistics

The element of a rank and the mode of a multiset over a linear order, by counting.

A list whose elements up to some place are no greater than the one there, and whose elements behind
are no smaller, has at that place the element of that rank. In a sorted list, equal elements come in
runs. A pass that counts the current run and keeps the first of the longest ones ends with the mode.
The counters are numbers modulo `N`.
-/

namespace OrderStatistics

variable {α : Type*} [LinearOrder α]

/-! ### The least and the greatest -/

/-- The least element does not depend on the order of the list. -/
theorem min?_eq_of_perm {l l' : List α} (h : l.Perm l') : l.min? = l'.min? := by
  induction h with
  | nil => rfl
  | cons x _ ih => rw [List.min?_cons, List.min?_cons, ih]
  | swap x y l =>
    rw [List.min?_cons, List.min?_cons, List.min?_cons, List.min?_cons]
    cases l.min? <;> simp [min_comm, min_left_comm]
  | trans _ _ ih ih' => rw [ih, ih']

theorem max?_eq_of_perm {l l' : List α} (h : l.Perm l') : l.max? = l'.max? := by
  induction h with
  | nil => rfl
  | cons x _ ih => rw [List.max?_cons, List.max?_cons, ih]
  | swap x y l =>
    rw [List.max?_cons, List.max?_cons, List.max?_cons, List.max?_cons]
    cases l.max? <;> simp [max_comm, max_left_comm]
  | trans _ _ ih ih' => rw [ih, ih']

/-! ### Ranks -/

/-- At most `k` elements are smaller, and more than `k` are not greater. In a sorted list of the
elements, `v` is at place `k`. -/
def IsRank (m : Multiset α) (k : ℕ) (v : α) : Prop :=
  m.countP (· < v) ≤ k ∧ k < m.countP (· ≤ v)

theorem IsRank.mem {m : Multiset α} {k : ℕ} {v : α} (h : IsRank m k v) : v ∈ m := by
  by_contra hv
  have hsame : m.countP (· ≤ v) = m.countP (· < v) := by
    refine Multiset.countP_congr rfl fun a ha => ?_
    have hne : a ≠ v := fun heq => hv (heq ▸ ha)
    rw [le_iff_lt_or_eq, or_iff_left hne]
  exact absurd h.2 (not_lt.2 (hsame ▸ h.1))

/-- **The element at the border** of smaller and greater ones. -/
theorem isRank_of_split {before after : List α} {v : α} (hbefore : ∀ a ∈ before, a ≤ v)
    (hafter : ∀ a ∈ after, v ≤ a) :
    IsRank ((before ++ v :: after : List α) : Multiset α) before.length v := by
  have hsmaller : after.countP (· < v) = 0 :=
    List.countP_eq_zero.2 fun a ha => by simpa using hafter a ha
  have hnot : before.countP (· ≤ v) = before.length :=
    List.countP_eq_length.2 fun a ha => by simpa using hbefore a ha
  constructor
  · rw [Multiset.coe_countP, List.countP_append, List.countP_cons_of_neg (by simp), hsmaller,
      Nat.add_zero]
    exact List.countP_le_length
  · rw [Multiset.coe_countP, List.countP_append, List.countP_cons_of_pos (by simp), hnot]
    omega

/-! ### Modes -/

/-- The smallest of the elements that are there most often. -/
structure IsMode (m : Multiset α) (v : α) : Prop where
  mem : v ∈ m
  count_le : ∀ w, m.count w ≤ m.count v
  le : ∀ w, m.count w = m.count v → v ≤ w

theorem isMode_coe {l : List α} {v : α} (hmem : v ∈ l) (hcount : ∀ w ∈ l, l.count w ≤ l.count v)
    (hle : ∀ w ∈ l, l.count w = l.count v → v ≤ w) : IsMode (l : Multiset α) v := by
  have hpos := List.count_pos_iff.2 hmem
  refine ⟨hmem, fun w => ?_, fun w hw => ?_⟩
  · rw [Multiset.coe_count, Multiset.coe_count]
    by_cases hw : w ∈ l
    · exact hcount w hw
    · rw [List.count_eq_zero.2 hw]
      exact hpos.le
  · rw [Multiset.coe_count, Multiset.coe_count] at hw
    exact hle w (List.count_pos_iff.1 (hw ▸ hpos)) hw

/-! ### The pass over a sorted list -/

/-- The last element, the best one so far with its count, and the count of the last one. -/
structure Pass (α : Type*) where
  last : α
  best : α
  maxCount : ℕ
  currentCount : ℕ

namespace Pass

def start (a : α) : Pass α := ⟨a, a, 1, 1⟩

/-- The next element goes on with the run or ends it. -/
def next (N : ℕ) (s : Pass α) (a : α) : Pass α :=
  if a = s.last then { s with currentCount := (s.currentCount + 1) % N }
  else if s.maxCount < s.currentCount then ⟨a, s.last, s.currentCount, 1⟩
  else { s with last := a, currentCount := 1 }

def result (s : Pass α) : α :=
  if s.maxCount < s.currentCount then s.last else s.best

/-- What is known of the pass behind the elements `done`: the best one is from a run that has ended,
or there is but one run. -/
structure Scanned (s : Pass α) (done : List α) : Prop where
  last_mem : s.last ∈ done
  le_last : ∀ a ∈ done, a ≤ s.last
  current_eq : s.currentCount = done.count s.last
  best : (s.best = s.last ∧ s.maxCount = 1 ∧ ∀ a ∈ done, a = s.last) ∨
    s.best < s.last ∧ s.best ∈ done ∧ s.maxCount = done.count s.best
  count_le : ∀ a ∈ done, a ≠ s.last → done.count a ≤ s.maxCount
  best_le : ∀ a ∈ done, a ≠ s.last → done.count a = s.maxCount → s.best ≤ a

variable {N : ℕ} {s : Pass α} {done : List α}

theorem scanned_start (a : α) : (start a).Scanned [a] where
  last_mem := List.mem_singleton_self a
  le_last b hb := (List.mem_singleton.1 hb).le
  current_eq := by simp [start]
  best := .inl ⟨rfl, rfl, fun b hb => List.mem_singleton.1 hb⟩
  count_le b hb hne := absurd (List.mem_singleton.1 hb) hne
  best_le b hb hne := absurd (List.mem_singleton.1 hb) hne

theorem count_concat_of_ne {a b : α} (hne : b ≠ a) : (done ++ [a]).count b = done.count b := by
  rw [List.count_append, List.count_singleton, if_neg (by simpa using hne.symm), Nat.add_zero]

theorem count_concat_self (a : α) : (done ++ [a]).count a = done.count a + 1 := by
  rw [List.count_append, List.count_singleton_self]

theorem Scanned.same (h : s.Scanned done) (hN : done.length + 1 < N) :
    Scanned { s with currentCount := (s.currentCount + 1) % N } (done ++ [s.last]) := by
  have hlt : done.count s.last + 1 < N := by
    have := List.count_le_length (a := s.last) (l := done)
    omega
  have hmem : ∀ a ∈ done ++ [s.last], a ≠ s.last → a ∈ done := fun a ha hne =>
    (List.mem_append.1 ha).resolve_right fun hlast => hne (List.mem_singleton.1 hlast)
  refine ⟨List.mem_append_left _ h.last_mem, ?_, ?_, ?_, ?_, ?_⟩
  · intro a ha
    rcases List.mem_append.1 ha with ha | ha
    · exact h.le_last a ha
    · exact (List.mem_singleton.1 ha).le
  · show (s.currentCount + 1) % N = _
    rw [h.current_eq, count_concat_self, Nat.mod_eq_of_lt hlt]
  · refine h.best.imp ?_ ?_
    · rintro ⟨hbest, hmax, hall⟩
      refine ⟨hbest, hmax, fun a ha => ?_⟩
      rcases List.mem_append.1 ha with ha | ha
      · exact hall a ha
      · exact List.mem_singleton.1 ha
    · rintro ⟨hlt, hbest, hmax⟩
      exact ⟨hlt, List.mem_append_left _ hbest, hmax.trans (count_concat_of_ne hlt.ne).symm⟩
  · intro a ha hne
    rw [count_concat_of_ne hne]
    exact h.count_le a (hmem a ha hne) hne
  · intro a ha hne
    rw [count_concat_of_ne hne]
    exact h.best_le a (hmem a ha hne) hne

theorem Scanned.other (h : s.Scanned done) {a : α} (hlt : s.last < a) :
    Scanned (if s.maxCount < s.currentCount then ⟨a, s.last, s.currentCount, 1⟩
      else { s with last := a, currentCount := 1 }) (done ++ [a]) := by
  have hnot : a ∉ done := fun ha => absurd (h.le_last a ha) (not_le.2 hlt)
  have hone : (done ++ [a]).count a = 1 := by
    rw [count_concat_self, List.count_eq_zero.2 hnot]
  have hmem : ∀ b ∈ done ++ [a], b ≠ a → b ∈ done := fun b hb hne =>
    (List.mem_append.1 hb).resolve_right fun hlast => hne (List.mem_singleton.1 hlast)
  have hlast : a ∈ done ++ [a] := List.mem_append_right _ (List.mem_singleton_self a)
  have hle : ∀ b ∈ done ++ [a], b ≤ a := by
    intro b hb
    rcases List.mem_append.1 hb with hb | hb
    · exact (h.le_last b hb).trans hlt.le
    · exact (List.mem_singleton.1 hb).le
  have hpos := List.count_pos_iff.2 h.last_mem
  split_ifs with hlonger
  · -- The run is longer than the best one.
    refine ⟨hlast, hle, hone.symm, .inr ⟨hlt, List.mem_append_left _ h.last_mem, ?_⟩, ?_, ?_⟩
    · exact h.current_eq.trans (count_concat_of_ne hlt.ne).symm
    · intro b hb hne
      rw [count_concat_of_ne hne]
      by_cases hb' : b = s.last
      · rw [hb', h.current_eq]
      · exact (h.count_le b (hmem b hb hne) hb').trans hlonger.le
    · intro b hb hne hcount
      rw [count_concat_of_ne hne] at hcount
      by_cases hb' : b = s.last
      · exact hb'.ge
      · have hle := h.count_le b (hmem b hb hne) hb'
        rw [hcount] at hle
        exact absurd hle (not_le.2 hlonger)
  · have hbest : s.best ≤ s.last ∧ s.best ∈ done ∧ s.maxCount = done.count s.best := by
      rcases h.best with ⟨hbest, hmax, -⟩ | ⟨hbest, hmem, hmax⟩
      · refine ⟨hbest.le, hbest ▸ h.last_mem, ?_⟩
        rw [h.current_eq] at hlonger
        rw [hbest]
        omega
      · exact ⟨hbest.le, hmem, hmax⟩
    obtain ⟨hble, hbmem, hmax⟩ := hbest
    have hblt : s.best < a := hble.trans_lt hlt
    refine ⟨hlast, hle, hone.symm, .inr ⟨hblt, List.mem_append_left _ hbmem, ?_⟩, ?_, ?_⟩
    · exact hmax.trans (count_concat_of_ne hblt.ne).symm
    · intro b hb hne
      rw [count_concat_of_ne hne]
      by_cases hb' : b = s.last
      · rw [hb', ← h.current_eq]
        exact not_lt.1 hlonger
      · exact h.count_le b (hmem b hb hne) hb'
    · intro b hb hne hcount
      rw [count_concat_of_ne hne] at hcount
      by_cases hb' : b = s.last
      · exact hb' ▸ hble
      · exact h.best_le b (hmem b hb hne) hb' hcount

theorem Scanned.next (h : s.Scanned done) {a : α} (hle : ∀ b ∈ done, b ≤ a)
    (hN : done.length + 1 < N) : (s.next N a).Scanned (done ++ [a]) := by
  rw [Pass.next]
  by_cases ha : a = s.last
  · rw [if_pos ha, ha]
    exact h.same hN
  · rw [if_neg ha]
    exact h.other (lt_of_le_of_ne (hle _ h.last_mem) (Ne.symm ha))

theorem Scanned.foldl (h : s.Scanned done) {rest : List α} (hsorted : (done ++ rest).Pairwise (· ≤ ·))
    (hN : (done ++ rest).length < N) : (rest.foldl (Pass.next N) s).Scanned (done ++ rest) := by
  induction rest generalizing s done with
  | nil => rwa [List.append_nil]
  | cons a rest ih =>
    have hbefore : ∀ b ∈ done, b ≤ a := fun b hb =>
      (List.pairwise_append.1 hsorted).2.2 b hb a List.mem_cons_self
    rw [List.append_cons] at hsorted hN ⊢
    refine ih (h.next hbefore ?_) hsorted hN
    rw [List.length_append, List.length_append, List.length_singleton] at hN
    omega

theorem Scanned.isMode (h : s.Scanned done) : IsMode (done : Multiset α) s.result := by
  have hpos := List.count_pos_iff.2 h.last_mem
  rw [result]
  split_ifs with hlonger
  · refine isMode_coe h.last_mem (fun w hw => ?_) fun w hw hcount => ?_
    · by_cases hlast : w = s.last
      · rw [hlast]
      · rw [← h.current_eq]
        exact (h.count_le w hw hlast).trans hlonger.le
    · by_contra hle
      have hne : w ≠ s.last := fun heq => hle heq.ge
      rw [← h.current_eq] at hcount
      exact absurd (hcount ▸ h.count_le w hw hne) (not_le.2 hlonger)
  · rw [h.current_eq] at hlonger
    rcases h.best with ⟨hbest, -, hall⟩ | ⟨hbest, hmem, hmax⟩
    · rw [hbest]
      refine isMode_coe h.last_mem (fun w hw => ?_) fun w hw _ => ?_
      · rw [hall w hw]
      · exact (hall w hw).ge
    · refine isMode_coe hmem (fun w hw => ?_) fun w hw hcount => ?_
      · by_cases hlast : w = s.last
        · rw [hlast, ← hmax]
          exact not_lt.1 hlonger
        · rw [← hmax]
          exact h.count_le w hw hlast
      · by_cases hlast : w = s.last
        · exact hlast ▸ hbest.le
        · exact h.best_le w hw hlast (hcount.trans hmax.symm)

end Pass

/-- **The pass over a sorted list ends with the mode.** -/
theorem isMode_pass {N : ℕ} {a : α} {l : List α} (hsorted : (a :: l).Pairwise (· ≤ ·))
    (hN : (a :: l).length < N) :
    IsMode ((a :: l : List α) : Multiset α) (l.foldl (Pass.next N) (Pass.start a)).result :=
  ((Pass.scanned_start a).foldl hsorted hN).isMode

/-! ### Counters -/

/-- A counter for every number below `n`. -/
def tally (N n : ℕ) (l : List ℕ) : List ℕ :=
  l.foldl (fun counts k => counts.modify k fun c => (c + 1) % N) (List.replicate n 0)

theorem length_tally (N n : ℕ) (l : List ℕ) : (tally N n l).length = n := by
  induction l using List.reverseRecOn with
  | nil => rw [tally, List.foldl_nil, List.length_replicate]
  | append_singleton l k ih =>
    rw [tally, List.foldl_append, List.foldl_cons, List.foldl_nil, List.length_modify]
    exact ih

/-- **What is counted.** -/
theorem getElem?_tally {N n k : ℕ} {l : List ℕ} (hk : k < n) (hN : l.length < N) :
    (tally N n l)[k]? = some (l.count k) := by
  induction l using List.reverseRecOn with
  | nil => rw [tally, List.foldl_nil, List.getElem?_replicate_of_lt hk, List.count_nil]
  | append_singleton l j ih =>
    rw [List.length_append, List.length_singleton] at hN
    have hcount := List.count_le_length (a := k) (l := l)
    have hget := ih (by omega)
    rw [tally] at hget
    rw [tally, List.foldl_append, List.foldl_cons, List.foldl_nil, List.getElem?_modify, hget,
      List.count_append, List.count_singleton]
    refine congrArg some ?_
    show (if j = k then (l.count k + 1) % N else l.count k) = l.count k + if (j == k) then 1 else 0
    by_cases hjk : j = k
    · rw [if_pos hjk, if_pos (by simpa using hjk), Nat.mod_eq_of_lt (by omega)]
    · rw [if_neg hjk, if_neg (by simpa using hjk), Nat.add_zero]

end OrderStatistics
