import Mathlib.Data.List.Basic

/-!
# A list told over and over

A list is told from its beginning to its end, and then again, any number of times. Each lap shifts
what it tells by an amount of its own, and begins after everything that has been told. What has been
told by then is in order, if the list is, and each of its elements is one of the list, shifted by
the amount of its lap.
-/

variable {α δ : Type*} {shift : δ → α → α} {After : α → α → Prop}

/-- `Laps shift After list d₀ n told left d`: after `n` steps the elements `told` have been told,
`left` is left of the lap, and the lap shifts by `d`. The first lap shifts by `d₀`. A step tells one
element or goes back to the beginning. -/
inductive Laps (shift : δ → α → α) (After : α → α → Prop) (list : List α) (d₀ : δ) :
    ℕ → List α → List α → δ → Prop
  | start : Laps shift After list d₀ 0 [] list d₀
  | next {n : ℕ} {told left : List α} {a : α} {d : δ} :
      Laps shift After list d₀ n told (a :: left) d →
        Laps shift After list d₀ (n + 1) (told ++ [shift d a]) left d
  | again {n : ℕ} {told : List α} {d d' : δ} :
      Laps shift After list d₀ n told [] d →
        (∀ a ∈ list.head?, ∀ b ∈ told.getLast?, After b (shift d' a)) →
          Laps shift After list d₀ (n + 1) told list d'

namespace Laps

variable {list told left : List α} {d₀ d : δ} {a b : α} {n : ℕ}

theorem suffix (h : Laps shift After list d₀ n told left d) : left <:+ list := by
  induction h with
  | start => exact List.suffix_rfl
  | next _ ih => exact (List.suffix_cons _ _).trans ih
  | again _ _ _ => exact List.suffix_rfl

/-! ### The order of what is told -/

/-- In a list that is in order, nothing comes after the last element. -/
theorem eq_or_after_getLast {l : List α} (h : l.Pairwise After) (hb : b ∈ l) :
    ∃ c ∈ l.getLast?, b = c ∨ After b c := by
  rcases List.eq_nil_or_concat l with rfl | ⟨l', c, rfl⟩
  · cases hb
  · refine ⟨c, by simp, ?_⟩
    rw [List.concat_eq_append] at h hb
    rw [List.pairwise_append] at h
    rcases List.mem_append.1 hb with hb | hb
    · exact .inr (h.2.2 b hb c (List.mem_singleton_self c))
    · exact .inl (List.mem_singleton.1 hb)

/-- Everything told is in order, and what is told next comes after it. -/
theorem pairwise_and_after (htrans : ∀ a b c, After a b → After b c → After a c)
    (hshift : ∀ d a b, After a b → After (shift d a) (shift d b)) (hlist : list.Pairwise After)
    (h : Laps shift After list d₀ n told left d) :
    told.Pairwise After ∧ ∀ a ∈ left.head?, ∀ b ∈ told, After b (shift d a) := by
  induction h with
  | start => simp
  | @next n told left a d h ih =>
    obtain ⟨htold, hafter⟩ := ih
    have hlast : ∀ b ∈ told, After b (shift d a) := hafter a rfl
    refine ⟨List.pairwise_append.2 ⟨htold, List.pairwise_singleton _ _, by simpa using hlast⟩, ?_⟩
    intro c hc b hb
    have hac : After a c := by
      have hpair := hlist.sublist h.suffix.sublist
      exact List.rel_of_pairwise_cons hpair (List.mem_of_mem_head? hc)
    have hshifted := hshift d a c hac
    rcases List.mem_append.1 hb with hb | hb
    · exact htrans _ _ _ (hlast b hb) hshifted
    · rw [List.mem_singleton.1 hb]
      exact hshifted
  | @again n told d d' h hfirst ih =>
    refine ⟨ih.1, ?_⟩
    intro a ha b hb
    obtain ⟨c, hc, rfl | hbc⟩ := eq_or_after_getLast ih.1 hb
    · exact hfirst a ha b hc
    · exact htrans _ _ _ hbc (hfirst a ha c hc)

/-- **Everything told is in order.** -/
theorem pairwise (h : Laps shift After list d₀ n told left d)
    (htrans : ∀ a b c, After a b → After b c → After a c)
    (hshift : ∀ d a b, After a b → After (shift d a) (shift d b)) (hlist : list.Pairwise After) :
    told.Pairwise After :=
  (pairwise_and_after htrans hshift hlist h).1

theorem after (h : Laps shift After list d₀ n told (a :: left) d)
    (htrans : ∀ a b c, After a b → After b c → After a c)
    (hshift : ∀ d a b, After a b → After (shift d a) (shift d b)) (hlist : list.Pairwise After)
    (hb : b ∈ told) : After b (shift d a) :=
  (pairwise_and_after htrans hshift hlist h).2 a rfl b hb

/-! ### Where it comes from -/

/-- **Each element told comes from the list, shifted by the amount of its lap.** -/
theorem exists_shifts (h : Laps shift After list d₀ n told left d) :
    ∃ k j, n = k * (list.length + 1) + j ∧ told.length = k * list.length + j ∧ j ≤ list.length ∧
      left = list.drop j ∧ ∃ shifts : ℕ → δ, shifts 0 = d₀ ∧ shifts k = d ∧ ∀ i a, told[i]? = some a →
        ∃ b, list[i % list.length]? = some b ∧ a = shift (shifts (i / list.length)) b := by
  induction h with
  | start => exact ⟨0, 0, by simp, by simp, by simp, rfl, fun _ => d₀, rfl, rfl, by simp⟩
  | @next n told left a d _ ih =>
    obtain ⟨k, j, hn, hlength, hj, hleft, shifts, hzero, hk, htold⟩ := ih
    have ha : list[j]? = some a := by
      rw [← List.head?_drop, ← hleft]
      rfl
    have hlt : j < list.length := (List.getElem?_eq_some_iff.1 ha).1
    refine ⟨k, j + 1, by rw [hn]; rfl, by rw [List.length_append, hlength]; rfl, hlt, ?_, shifts,
      hzero, hk, ?_⟩
    · rw [← List.drop_drop, ← hleft]
      rfl
    · intro i c hc
      rcases Nat.lt_or_ge i told.length with hi | hi
      · rw [List.getElem?_append_left hi] at hc
        exact htold i c hc
      · rw [List.getElem?_append_right hi, List.getElem?_singleton] at hc
        obtain ⟨hzero, hc⟩ := Option.ite_none_right_eq_some.1 hc
        obtain rfl := Option.some.inj hc
        have hplace : i = k * list.length + j := by omega
        rw [hplace, Nat.mul_add_mod_of_lt hlt, Nat.mul_comm, Nat.mul_add_div (by omega),
          Nat.div_eq_of_lt hlt, Nat.add_zero, hk]
        exact ⟨a, ha, rfl⟩
  | @again n told d d' _ _ ih =>
    obtain ⟨k, j, hn, hlength, hj, hleft, shifts, hzero, hk, htold⟩ := ih
    have hend : j = list.length := Nat.le_antisymm hj (List.drop_eq_nil_iff.1 hleft.symm)
    have hlaps : told.length = (k + 1) * list.length := by rw [hlength, hend, Nat.succ_mul]
    refine ⟨k + 1, 0, by rw [hn, hend, Nat.succ_mul]; rfl, hlaps, Nat.zero_le _, rfl, Function.update shifts (k + 1) d', ?_, ?_, ?_⟩
    · rw [Function.update_of_ne (Nat.succ_ne_zero k).symm, hzero]
    · rw [Function.update_self]
    · intro i c hc
      obtain ⟨b, hb, rfl⟩ := htold i c hc
      have hi : i < (k + 1) * list.length := hlaps ▸ (List.getElem?_eq_some_iff.1 hc).1
      have hlap : i / list.length < k + 1 := Nat.div_lt_of_lt_mul (Nat.mul_comm _ _ ▸ hi)
      exact ⟨b, hb, by rw [Function.update_of_ne (Nat.ne_of_lt hlap)]⟩

/-- **How much has been told:** every step tells one, but for the last one of each lap. -/
theorem length_eq (h : Laps shift After list d₀ n told left d) :
    told.length = n - n / (list.length + 1) := by
  obtain ⟨k, j, hn, hlength, hj, -⟩ := h.exists_shifts
  have hlaps : n / (list.length + 1) = k := by
    rw [hn, Nat.mul_comm, Nat.mul_add_div (by omega), Nat.div_eq_of_lt (by omega), Nat.add_zero]
  rw [hlaps, hlength, hn, Nat.mul_succ]
  omega

end Laps
