import Mathlib.Data.List.Count
import Mathlib.Data.List.Nodup
import Mathlib.Data.List.Perm.Basic
import Mathlib.Data.Nat.Basic

/-!
# Rosters with a limit

Members join a roster and are struck off it. There is a limit to the number of members, and whoever
comes while it is reached is refused. Every member has a number: it says how many have joined
before. A member that is struck off stays in the list with a mark until the list is tidied up.

The log of a roster has everything that happened. Whoever keeps the roster counts the members; the
count is right as long as no member is struck off twice.
-/

/-- What happens to a roster: somebody joins under a name, is struck off, or is refused. -/
inductive RosterEvent (α : Type*)
  | joined (number : ℕ) (name : α)
  | struck (number : ℕ)
  | refused
  deriving DecidableEq, Repr

namespace Roster

variable {α : Type*}

/-- The names of those who joined, in order. -/
def names : List (RosterEvent α) → List α
  | [] => []
  | .joined _ a :: log => a :: names log
  | .struck _ :: log => names log
  | .refused :: log => names log

/-- The numbers of those who were struck off, in order. -/
def strikes : List (RosterEvent α) → List ℕ
  | [] => []
  | .joined _ _ :: log => strikes log
  | .struck n :: log => n :: strikes log
  | .refused :: log => strikes log

variable (log log' : List (RosterEvent α))

@[simp] theorem names_append : names (log ++ log') = names log ++ names log' := by
  induction log with
  | nil => rfl
  | cons e log ih => cases e <;> simp [names, ih]

@[simp] theorem strikes_append : strikes (log ++ log') = strikes log ++ strikes log' := by
  induction log with
  | nil => rfl
  | cons e log ih => cases e <;> simp [strikes, ih]

@[simp] theorem names_joined (n : ℕ) (a : α) : names [.joined n a] = [a] := rfl
@[simp] theorem names_struck (n : ℕ) : names [(.struck n : RosterEvent α)] = [] := rfl
@[simp] theorem names_refused : names [(.refused : RosterEvent α)] = [] := rfl
@[simp] theorem strikes_joined (n : ℕ) (a : α) : strikes [.joined n a] = [] := rfl
@[simp] theorem strikes_struck (n : ℕ) : strikes [(.struck n : RosterEvent α)] = [n] := rfl
@[simp] theorem strikes_refused : strikes [(.refused : RosterEvent α)] = [] := rfl

/-! ### Numbers -/

/-- The members have numbers of their own, below the number of those who joined. A member is its
number and its mark. -/
structure Numbered (joined : ℕ) (members : List (ℕ × Bool)) : Prop where
  nodup : (members.map Prod.fst).Nodup
  lt : ∀ m ∈ members, m.1 < joined

variable {joined n : ℕ} {members members' : List (ℕ × Bool)}

theorem numbered_nil : Numbered 0 [] := ⟨List.nodup_nil, fun _ h => by cases h⟩

theorem Numbered.perm (h : Numbered joined members) (hperm : members.Perm members') :
    Numbered joined members' where
  nodup := (hperm.map Prod.fst).nodup_iff.1 h.nodup
  lt m hm := h.lt m (hperm.mem_iff.2 hm)

theorem Numbered.sublist (h : Numbered joined members) (hsub : members'.Sublist members) :
    Numbered joined members' where
  nodup := h.nodup.sublist (hsub.map Prod.fst)
  lt m hm := h.lt m (hsub.subset hm)

theorem Numbered.mark {old : Bool} (h : Numbered joined ((n, old) :: members)) (new : Bool) :
    Numbered joined ((n, new) :: members) where
  nodup := h.nodup
  lt m hm := by
    rcases List.mem_cons.1 hm with rfl | hm
    · exact h.lt (n, old) List.mem_cons_self
    · exact h.lt m (List.mem_cons_of_mem _ hm)

theorem Numbered.join (h : Numbered joined members) (mark : Bool) :
    Numbered (joined + 1) ((joined, mark) :: members) where
  nodup := by
    refine List.nodup_cons.2 ⟨fun hmem => ?_, h.nodup⟩
    obtain ⟨m, hm, heq⟩ := List.mem_map.1 hmem
    exact absurd (h.lt m hm) (heq ▸ lt_irrefl m.1)
  lt m hm := by
    rcases List.mem_cons.1 hm with rfl | hm
    · exact Nat.lt_succ_self _
    · exact Nat.lt_succ_of_lt (h.lt m hm)

/-! ### Counts -/

/-- The number of members that are not struck off. -/
def alive (members : List (ℕ × Bool)) : ℕ := members.countP fun m => !m.2

/-- **The count is right.** It is the number of members and the difference of those who joined and
those who were struck off, and is within the limit. Nobody was struck off twice, and whoever was
refused came when the limit was reached. -/
structure Counted (limit count : ℕ) (log : List (RosterEvent α)) (members : List (ℕ × Bool)) :
    Prop extends Numbered (names log).length members where
  count_eq : count = alive members
  le : count ≤ limit
  total : (names log).length = (strikes log).length + count
  strikes_nodup : (strikes log).Nodup
  strikes_lt : ∀ n ∈ strikes log, n < (names log).length
  fresh : ∀ m ∈ members, m.2 = false → m.1 ∉ strikes log
  needed : ∀ before after, log = before ++ .refused :: after →
    (names before).length = (strikes before).length + limit

variable {limit count : ℕ} {log}

theorem counted_nil (limit : ℕ) : Counted limit 0 ([] : List (RosterEvent α)) [] where
  toNumbered := numbered_nil
  count_eq := rfl
  le := Nat.zero_le _
  total := rfl
  strikes_nodup := List.nodup_nil
  strikes_lt _ h := by cases h
  fresh _ h := by cases h
  needed before after h := by
    have := congrArg List.length h
    simp at this

theorem Counted.perm (h : Counted limit count log members) (hperm : members.Perm members') :
    Counted limit count log members' where
  toNumbered := h.toNumbered.perm hperm
  count_eq := h.count_eq.trans (hperm.countP_eq _)
  le := h.le
  total := h.total
  strikes_nodup := h.strikes_nodup
  strikes_lt := h.strikes_lt
  fresh m hm := h.fresh m (hperm.mem_iff.2 hm)
  needed := h.needed

/-- **The list is tidied up**: members that are struck off go. -/
theorem Counted.sublist (h : Counted limit count log members) (hsub : members'.Sublist members)
    (halive : alive members' = alive members) : Counted limit count log members' where
  toNumbered := h.toNumbered.sublist hsub
  count_eq := h.count_eq.trans halive.symm
  le := h.le
  total := h.total
  strikes_nodup := h.strikes_nodup
  strikes_lt := h.strikes_lt
  fresh m hm := h.fresh m (hsub.subset hm)
  needed := h.needed

/-- The last entry of a log is an event that is no refusal, so refusals are older. -/
theorem needed_snoc {e : RosterEvent α} (he : e ≠ .refused)
    (h : ∀ before after, log = before ++ .refused :: after →
      (names before).length = (strikes before).length + limit)
    (before after : List (RosterEvent α)) (hlog : log ++ [e] = before ++ .refused :: after) :
    (names before).length = (strikes before).length + limit := by
  rcases List.eq_nil_or_concat after with rfl | ⟨after, e', rfl⟩
  · exact absurd (List.append_inj' hlog rfl).2 (by simpa using he)
  · rw [List.concat_eq_append, ← List.cons_append, ← List.append_assoc] at hlog
    exact h before after (List.append_inj' hlog rfl).1

/-- **A member is struck off**, once. -/
theorem Counted.strike (h : Counted limit count log ((n, false) :: members)) :
    Counted limit (count - 1) (log ++ [.struck n]) ((n, true) :: members) := by
  have hcount : count = alive members + 1 := by
    rw [h.count_eq, alive, List.countP_cons_of_pos (by rfl)]
    rfl
  have hle := h.le
  have htotal := h.total
  have hn := h.fresh (n, false) List.mem_cons_self rfl
  refine ⟨?_, ?_, ?_, ?_, ?_, ?_, ?_, ?_⟩
  · simpa using h.toNumbered.mark true
  · rw [hcount, alive, alive, List.countP_cons_of_neg (by simp), Nat.add_sub_cancel]
  · omega
  · simp
    omega
  · rw [strikes_append, strikes_struck]
    exact List.nodup_append'.2 ⟨h.strikes_nodup, List.nodup_singleton n, by simpa using hn⟩
  · intro m hm
    rw [strikes_append, strikes_struck, List.mem_append, List.mem_singleton] at hm
    simp only [names_append, names_struck, List.append_nil]
    rcases hm with hm | rfl
    · exact h.strikes_lt m hm
    · exact h.lt (m, false) List.mem_cons_self
  · intro m hm hmark
    rcases List.mem_cons.1 hm with rfl | hm
    · cases hmark
    · rw [strikes_append, strikes_struck, List.mem_append, List.mem_singleton]
      rintro (hold | heq)
      · exact h.fresh m (List.mem_cons_of_mem _ hm) hmark hold
      · exact (List.nodup_cons.1 h.nodup).1 (List.mem_map.2 ⟨m, hm, heq⟩)
  · exact needed_snoc (by simp) h.needed

/-- **Somebody joins.** -/
theorem Counted.join (h : Counted limit count log members) (hlt : count < limit) (a : α) :
    Counted limit (count + 1) (log ++ [.joined (names log).length a])
      (((names log).length, false) :: members) := by
  have htotal := h.total
  refine ⟨?_, ?_, ?_, ?_, ?_, ?_, ?_, ?_⟩
  · simpa using h.toNumbered.join false
  · rw [h.count_eq, alive, alive, List.countP_cons_of_pos (by rfl)]
  · omega
  · simp
    omega
  · simpa using h.strikes_nodup
  · intro m hm
    rw [strikes_append, strikes_joined, List.append_nil] at hm
    simpa using Nat.lt_succ_of_lt (h.strikes_lt m hm)
  · intro m hm hmark
    rw [strikes_append, strikes_joined, List.append_nil]
    rcases List.mem_cons.1 hm with rfl | hm
    · exact fun hold => lt_irrefl _ (h.strikes_lt _ hold)
    · exact h.fresh m hm hmark
  · exact needed_snoc (by simp) h.needed

/-- **Somebody is refused**, when the limit is reached. -/
theorem Counted.refuse (h : Counted limit count log members) (hfull : ¬count < limit) :
    Counted limit count (log ++ [.refused]) members := by
  have htotal := h.total
  have hle := h.le
  refine ⟨?_, h.count_eq, h.le, ?_, ?_, ?_, ?_, ?_⟩
  · simpa using h.toNumbered
  · simpa using htotal
  · simpa using h.strikes_nodup
  · simpa using h.strikes_lt
  · simpa using h.fresh
  · intro before after hlog
    rcases List.eq_nil_or_concat after with rfl | ⟨after, e, rfl⟩
    · obtain rfl := (List.append_inj' hlog rfl).1
      omega
    · rw [List.concat_eq_append, ← List.cons_append, ← List.append_assoc] at hlog
      exact h.needed before after (List.append_inj' hlog rfl).1

end Roster
