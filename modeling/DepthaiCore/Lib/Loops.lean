import Mathlib.Data.List.Forall2
import Mathlib.Data.List.Induction

/-!
# Loops that can fail

A loop over a list whose body may throw is a monadic fold in `Except`. An invariant of such a loop
speaks about the part of the list that is done. The body gets to know where it is: what is done,
what it is given and what is left make up the whole list.
-/

universe u

namespace Loop

variable {σ α ε : Type*} {f : σ → α → Except ε σ} {s t : σ} {e : ε}

theorem ok_bind {β γ : Type u} {b : β} {g : β → Except ε γ} : (Except.ok b >>= g) = g b :=
  rfl

theorem bind_eq_ok {β γ : Type u} {x : Except ε β} {g : β → Except ε γ} {c : γ} :
    x >>= g = .ok c ↔ ∃ b, x = .ok b ∧ g b = .ok c := by
  cases x with
  | error e =>
    constructor
    · intro h
      cases h
    · rintro ⟨b, h, -⟩
      cases h
  | ok b =>
    constructor
    · intro h
      exact ⟨b, rfl, h⟩
    · rintro ⟨b', h, hg⟩
      cases h
      exact hg

theorem map_eq_ok {β γ : Type*} {x : Except ε β} {g : β → γ} {c : γ} :
    x.map g = .ok c ↔ ∃ b, x = .ok b ∧ g b = c := by
  cases x <;> simp [Except.map]

theorem mapError_eq_ok {ε' β : Type*} {x : Except ε β} {g : ε → ε'} {b : β} :
    x.mapError g = .ok b ↔ x = .ok b := by
  cases x <;> simp [Except.mapError]

theorem eq_ok_of_toOption {β : Type*} {x : Except ε β} {b : β} (h : x.toOption = some b) :
    x = .ok b := by
  cases x with
  | error e' => cases h
  | ok b' =>
    cases h
    rfl

theorem bind_eq_error {β γ : Type u} {x : Except ε β} {g : β → Except ε γ} :
    x >>= g = .error e ↔ x = .error e ∨ ∃ b, x = .ok b ∧ g b = .error e := by
  cases x with
  | error e' =>
    constructor
    · intro h
      cases h
      exact .inl rfl
    · rintro (h | ⟨b, h, -⟩)
      · cases h
        rfl
      · cases h
  | ok b =>
    constructor
    · intro h
      exact .inr ⟨b, rfl, h⟩
    · rintro (h | ⟨b', h, hg⟩)
      · cases h
      · cases h
        exact hg

/-- What every round keeps, from a part that is done already. -/
theorem invariant_append {I : List α → σ → Prop} {l : List α}
    (hstep : ∀ done a rest s t, l = done ++ a :: rest → I done s → f s a = .ok t →
      I (done ++ [a]) t) {done rest : List α} (hl : l = done ++ rest) (hs : I done s)
    (h : rest.foldlM f s = .ok t) : I l t := by
  induction rest generalizing done s with
  | nil =>
    rw [List.append_nil] at hl
    rw [hl]
    cases h
    exact hs
  | cons a rest ih =>
    rw [List.foldlM_cons] at h
    obtain ⟨u, hu, h⟩ := bind_eq_ok.1 h
    exact ih (by rw [hl, List.append_assoc]; rfl) (hstep done a rest s u hl hs hu) h

/-- **What every round keeps holds of the whole list when the loop ends.** -/
theorem invariant {I : List α → σ → Prop} {l : List α}
    (hstep : ∀ done a rest s t, l = done ++ a :: rest → I done s → f s a = .ok t →
      I (done ++ [a]) t) (hs : I [] s) (h : l.foldlM f s = .ok t) : I l t :=
  invariant_append hstep rfl hs h

/-- A loop that ends has ended every one of its rounds. -/
theorem exists_round {I : σ → Prop} {l : List α} (hstep : ∀ s a t, I s → f s a = .ok t → I t)
    (hs : I s) (h : l.foldlM f s = .ok t) {a : α} (ha : a ∈ l) : ∃ u v, I u ∧ f u a = .ok v := by
  induction l generalizing s with
  | nil => cases ha
  | cons b l ih =>
    rw [List.foldlM_cons] at h
    obtain ⟨u, hu, h⟩ := bind_eq_ok.1 h
    rcases List.mem_cons.1 ha with rfl | ha
    · exact ⟨s, u, hs, hu⟩
    · exact ih (hstep _ _ _ hs hu) h ha

theorem foldlM_eq_ok {g : σ → α → σ} {l : List α} (h : ∀ s, ∀ a ∈ l, f s a = .ok (g s a)) (s : σ) :
    l.foldlM f s = .ok (l.foldl g s) := by
  induction l generalizing s with
  | nil => rfl
  | cons a l ih =>
    rw [List.foldlM_cons, h s a List.mem_cons_self, ok_bind, List.foldl_cons]
    exact ih (fun s b hb => h s b (List.mem_cons_of_mem _ hb)) _

theorem foldlM_congr {g : σ → α → Except ε σ} {l : List α} (h : ∀ s, ∀ a ∈ l, f s a = g s a)
    (s : σ) : l.foldlM f s = l.foldlM g s := by
  induction l generalizing s with
  | nil => rfl
  | cons a l ih =>
    rw [List.foldlM_cons, List.foldlM_cons, h s a List.mem_cons_self]
    exact congrArg _ (funext fun t => ih (fun s b hb => h s b (List.mem_cons_of_mem _ hb)) t)

theorem foldlM_flatMap {β : Type*} {g : β → List α} {l : List β} (s : σ) :
    (l.flatMap g).foldlM f s = l.foldlM (fun s b => (g b).foldlM f s) s := by
  induction l generalizing s with
  | nil => rfl
  | cons b l ih =>
    rw [List.flatMap_cons, List.foldlM_append, List.foldlM_cons]
    exact congrArg _ (funext ih)

/-- What every round of a loop over a range of numbers keeps. -/
theorem foldl_range' {g : σ → ℕ → σ} {I : ℕ → σ → Prop} {lo n : ℕ} (hs : I lo s)
    (hstep : ∀ k s, lo ≤ k → k < lo + n → I k s → I (k + 1) (g s k)) :
    I (lo + n) ((List.range' lo n).foldl g s) := by
  induction n with
  | zero => exact hs
  | succ n ih =>
    rw [List.range'_1_concat, List.foldl_append]
    exact hstep _ _ (Nat.le_add_right _ _) (Nat.lt_succ_self _)
      (ih fun k s hlo hhi => hstep k s hlo (Nat.lt_succ_of_lt hhi))

theorem foldl_range {g : σ → ℕ → σ} {I : ℕ → σ → Prop} {n : ℕ} (hs : I 0 s)
    (hstep : ∀ k < n, ∀ s, I k s → I (k + 1) (g s k)) : I n ((List.range n).foldl g s) := by
  rw [List.range_eq_range']
  have hlast : I (0 + n) ((List.range' 0 n).foldl g s) :=
    foldl_range' hs fun k s _ hk => hstep k (by rwa [Nat.zero_add] at hk) s
  rwa [Nat.zero_add] at hlast

/-- A loop ends if every round does, with what every round keeps. -/
theorem exists_foldlM_range_eq_ok {I : ℕ → σ → Prop} {f : σ → ℕ → Except ε σ} {n : ℕ} (hs : I 0 s)
    (hstep : ∀ k < n, ∀ s, I k s → ∃ t, f s k = .ok t ∧ I (k + 1) t) :
    ∃ t, (List.range n).foldlM f s = .ok t ∧ I n t := by
  induction n with
  | zero => exact ⟨s, rfl, hs⟩
  | succ n ih =>
    obtain ⟨t, ht, hI⟩ := ih fun k hk => hstep k (Nat.lt_succ_of_lt hk)
    obtain ⟨u, hu, hI'⟩ := hstep n (Nat.lt_succ_self n) t hI
    refine ⟨u, ?_, hI'⟩
    rw [List.range_succ, List.foldlM_append, ht, ok_bind, List.foldlM_cons, hu]
    rfl

theorem foldl_reverse_range {g : σ → ℕ → σ} {I : ℕ → σ → Prop} {n : ℕ} (hs : I n s)
    (hstep : ∀ k < n, ∀ s, I (k + 1) s → I k (g s k)) :
    I 0 ((List.range n).reverse.foldl g s) := by
  induction n generalizing s with
  | zero => exact hs
  | succ n ih =>
    rw [List.range_succ, List.reverse_append, List.reverse_singleton, List.singleton_append,
      List.foldl_cons]
    exact ih (hstep n (Nat.lt_succ_self n) s hs) fun k hk => hstep k (Nat.lt_succ_of_lt hk)

/-- A loop over the numbers below `n` that goes through known states. -/
theorem foldlM_range_eq_ok {f : σ → ℕ → Except ε σ} {s : ℕ → σ} {n : ℕ}
    (h : ∀ i < n, f (s i) i = .ok (s (i + 1))) : (List.range n).foldlM f (s 0) = .ok (s n) := by
  induction n with
  | zero => rfl
  | succ n ih =>
    rw [List.range_succ, List.foldlM_append, ih fun i hi => h i (Nat.lt_succ_of_lt hi), ok_bind,
      List.foldlM_cons, h n (Nat.lt_succ_self n)]
    rfl

/-! ### What a computation leaves or throws -/

/-- What a computation leaves has the first property, and what it throws the second. -/
def Post (I : σ → Prop) (E : ε → Prop) : Except ε σ → Prop
  | .ok t => I t
  | .error e => E e

theorem Post.imp {I J : σ → Prop} {E : ε → Prop} {x : Except ε σ} (hx : Post I E x)
    (h : ∀ s, I s → J s) : Post J E x := by
  cases x with
  | error e => exact hx
  | ok s => exact h s hx

theorem Post.bind {β γ : Type u} {x : Except ε β} {g : β → Except ε γ} {I : β → Prop} {J : γ → Prop}
    {E : ε → Prop} (hx : Post I E x) (hg : ∀ b, I b → Post J E (g b)) : Post J E (x >>= g) := by
  cases x with
  | error e => exact hx
  | ok b => exact hg b hx

/-- **What every round leaves or throws, the loop leaves or throws.** -/
theorem post {I : List α → σ → Prop} {E : ε → Prop} {l : List α}
    (hstep : ∀ done a rest s, l = done ++ a :: rest → I done s → Post (I (done ++ [a])) E (f s a))
    (hs : I [] s) : Post (I l) E (l.foldlM f s) := by
  suffices hmain : ∀ (rest done : List α) (s : σ), l = done ++ rest → I done s →
      Post (I l) E (rest.foldlM f s) from hmain l [] s rfl hs
  intro rest
  induction rest with
  | nil =>
    intro done s hl hs
    rw [hl, List.append_nil]
    exact hs
  | cons a rest ih =>
    intro done s hl hs
    have hround := hstep done a rest s hl hs
    rw [List.foldlM_cons]
    cases hf : f s a with
    | error e =>
      rw [hf] at hround
      exact hround
    | ok t =>
      rw [hf] at hround
      exact ih (done ++ [a]) t (by rw [hl, List.append_assoc]; rfl) hround

theorem post_range' {I : ℕ → σ → Prop} {E : ε → Prop} {f : σ → ℕ → Except ε σ} {lo n : ℕ}
    (hs : I lo s) (hstep : ∀ k s, lo ≤ k → k < lo + n → I k s → Post (I (k + 1)) E (f s k)) :
    Post (I (lo + n)) E ((List.range' lo n).foldlM f s) := by
  induction n with
  | zero => exact hs
  | succ n ih =>
    rw [List.range'_1_concat, List.foldlM_append]
    refine (ih fun k s hlo hhi => hstep k s hlo (Nat.lt_succ_of_lt hhi)).bind fun t ht => ?_
    rw [List.foldlM_cons]
    refine (hstep _ t (Nat.le_add_right _ _) (Nat.lt_succ_self _) ht).bind fun u hu => ?_
    exact hu

theorem post_range {I : ℕ → σ → Prop} {E : ε → Prop} {f : σ → ℕ → Except ε σ} {n : ℕ} (hs : I 0 s)
    (hstep : ∀ k s, k < n → I k s → Post (I (k + 1)) E (f s k)) :
    Post (I n) E ((List.range n).foldlM f s) := by
  have hloop := post_range' (n := n) hs fun k s _ hk => hstep k s (by rwa [Nat.zero_add] at hk)
  rwa [Nat.zero_add, ← List.range_eq_range'] at hloop

theorem mapM_eq_ok {β : Type u} {g : α → Except ε β} {r : α → β} {l : List α}
    (h : ∀ a ∈ l, g a = .ok (r a)) : l.mapM g = .ok (l.map r) := by
  induction l with
  | nil => rfl
  | cons a l ih =>
    rw [List.mapM_cons, h a List.mem_cons_self,
      ih fun b hb => h b (List.mem_cons_of_mem _ hb)]
    rfl

/-- A loop that collects results ends exactly with the results of its rounds. -/
theorem mapM_eq_ok_iff {β : Type u} {g : α → Except ε β} {l : List α} {r : List β} :
    l.mapM g = .ok r ↔ List.Forall₂ (fun a b => g a = .ok b) l r := by
  induction l generalizing r with
  | nil =>
    rw [List.mapM_nil, List.forall₂_nil_left_iff]
    exact ⟨fun h => by cases h; rfl, fun h => by rw [h]; rfl⟩
  | cons a l ih =>
    rw [List.mapM_cons, List.forall₂_cons_left_iff, bind_eq_ok]
    refine exists_congr fun b => ?_
    constructor
    · rintro ⟨hb, h⟩
      obtain ⟨r', hr', h⟩ := bind_eq_ok.1 h
      cases h
      exact ⟨r', hb, ih.1 hr', rfl⟩
    · rintro ⟨r', hb, hr', rfl⟩
      exact ⟨hb, bind_eq_ok.2 ⟨r', ih.2 hr', rfl⟩⟩

theorem mapM_congr {β : Type u} {g h : α → Except ε β} {l : List α} (hgh : ∀ a ∈ l, g a = h a) :
    l.mapM g = l.mapM h := by
  induction l with
  | nil => rfl
  | cons a l ih =>
    obtain ⟨ha, hl⟩ := List.forall_mem_cons.1 hgh
    rw [List.mapM_cons, List.mapM_cons, ha, ih hl]

theorem mapM_map {β γ : Type u} {g : α → Except ε β} {h : β → γ} {l : List α} :
    l.mapM (fun a => (g a).map h) = (l.mapM g).map (List.map h) := by
  induction l with
  | nil => rfl
  | cons a l ih =>
    rw [List.mapM_cons, List.mapM_cons, ih]
    cases g a with
    | error e => rfl
    | ok b => cases l.mapM g <;> rfl

/-- **What is done to the elements first may as well be done to the results**, by their places. -/
theorem mapM_mapIdx {β γ : Type u} {δ : Type*} {f : δ → Except ε γ} {g : α → Except ε β}
    {before : ℕ → α → δ} {after : ℕ → β → γ}
    (h : ∀ i a, f (before i a) = (g a).map (after i)) (l : List α) :
    (l.mapIdx before).mapM f = (l.mapM g).map (List.mapIdx after) := by
  induction l generalizing before after with
  | nil => rfl
  | cons a l ih =>
    rw [List.mapIdx_cons, List.mapM_cons, List.mapM_cons, h,
      @ih (fun i => before (i + 1)) (fun i => after (i + 1)) fun i => h (i + 1)]
    cases g a with
    | error e => rfl
    | ok b =>
      cases hl : l.mapM g with
      | error e => rfl
      | ok r => exact congrArg Except.ok List.mapIdx_cons.symm

/-- Collecting, and then putting something of each element into its result. -/
theorem zipWith_mapM {β γ : Type u} {δ : Type*} {f : δ → Except ε β} {before : α → δ}
    {after : α → β → γ} (l : List α) :
    ((l.map before).mapM f).map (List.zipWith after l) =
      l.mapM fun a => (f (before a)).map (after a) := by
  induction l with
  | nil => rfl
  | cons a l ih =>
    rw [List.map_cons, List.mapM_cons, List.mapM_cons, ← ih]
    cases f (before a) with
    | error e => rfl
    | ok b => cases (l.map before).mapM f <;> rfl

/-- A loop that collects results ends if all of its rounds do. -/
theorem exists_mapM_eq_ok_iff {β : Type u} {g : α → Except ε β} {l : List α} :
    (∃ r, l.mapM g = .ok r) ↔ ∀ a ∈ l, ∃ b, g a = .ok b := by
  constructor
  · rintro ⟨r, hr⟩
    induction mapM_eq_ok_iff.1 hr with
    | nil => exact fun a ha => by cases ha
    | cons hab hrest ih =>
      rw [List.forall_mem_cons]
      exact ⟨⟨_, hab⟩, ih (mapM_eq_ok_iff.2 hrest)⟩
  · intro h
    induction l with
    | nil => exact ⟨[], rfl⟩
    | cons a l ih =>
      rw [List.forall_mem_cons] at h
      obtain ⟨b, hb⟩ := h.1
      obtain ⟨r, hr⟩ := ih h.2
      exact ⟨b :: r, mapM_eq_ok_iff.2 (.cons hb (mapM_eq_ok_iff.1 hr))⟩

/-- **Two loops one after the other** end with results that are right exactly if their rounds do. -/
theorem exists_mapM_mapM_iff {β γ : Type u} {g : α → Except ε β} {h : β → Except ε γ}
    {R : α → γ → Prop} {l : List α} :
    (∃ bs cs, l.mapM g = .ok bs ∧ bs.mapM h = .ok cs ∧ List.Forall₂ R l cs) ↔
      ∀ a ∈ l, ∃ b c, g a = .ok b ∧ h b = .ok c ∧ R a c := by
  simp only [mapM_eq_ok_iff]
  constructor
  · rintro ⟨bs, cs, hbs, hcs, hR⟩
    induction hbs generalizing cs with
    | nil => exact fun a ha => by cases ha
    | @cons a b l bs hb hbs ih =>
      cases hcs with
      | cons hc hcs =>
        cases hR with
        | cons hRa hR =>
          rw [List.forall_mem_cons]
          exact ⟨⟨_, _, hb, hc, hRa⟩, ih _ hcs hR⟩
  · intro hl
    induction l with
    | nil => exact ⟨[], [], .nil, .nil, .nil⟩
    | cons a l ih =>
      rw [List.forall_mem_cons] at hl
      obtain ⟨b, c, hb, hc, hR⟩ := hl.1
      obtain ⟨bs, cs, hbs, hcs, hRs⟩ := ih hl.2
      exact ⟨b :: bs, c :: cs, .cons hb hbs, .cons hc hcs, .cons hR hRs⟩

/-- What every pair of rounds does, two loops one after the other do. -/
theorem forall₂_of_mapM_mapM {β γ : Type u} {g : α → Except ε β} {h : β → Except ε γ}
    {S : α → β → Prop} {R : α → γ → Prop}
    (hround : ∀ a b c, g a = .ok b → h b = .ok c → S a b → R a c) {l : List α} {bs : List β}
    {cs : List γ} (hbs : l.mapM g = .ok bs) (hcs : bs.mapM h = .ok cs) (hS : List.Forall₂ S l bs) :
    List.Forall₂ R l cs := by
  rw [mapM_eq_ok_iff] at hbs hcs
  induction hbs generalizing cs with
  | nil =>
    cases hcs
    exact .nil
  | cons hb hbs ih =>
    cases hcs with
    | cons hc hcs =>
      cases hS with
      | cons hSa hS => exact .cons (hround _ _ _ hb hc hSa) (ih hcs hS)

/-- A loop whose rounds compute the elements of a list computes the list. -/
theorem mapM_range_eq_ok {β : Type u} {g : ℕ → Except ε β} {l : List β}
    (h : ∀ i b, l[i]? = some b → g i = .ok b) : (List.range l.length).mapM g = .ok l := by
  induction l using List.reverseRecOn with
  | nil => rfl
  | append_singleton l b ih =>
    have hinit := ih fun i c hc => h i c (by
      rw [List.getElem?_append_left (List.getElem?_eq_some_iff.1 hc).1, hc])
    have hlast : g l.length = .ok b := h _ b (by simp)
    rw [List.length_append, List.length_singleton, List.range_succ, List.mapM_append, hinit,
      List.mapM_cons, hlast]
    rfl

/-! ### Loops that only check -/

section Checks

variable {check : ℕ → Except ε PUnit.{u + 1}} {n : ℕ}

theorem forM_range_succ :
    (List.range (n + 1)).forM check = ((List.range n).forM check >>= fun _ => check n) := by
  have hlast : ([n] : List ℕ).forM check = check n := by
    show (check n >>= fun _ => pure PUnit.unit) = check n
    cases check n with
    | error e => rfl
    | ok u => rfl
  rw [List.range_succ, List.forM_eq_forM, List.forM_append, ← List.forM_eq_forM, hlast]

theorem forM_range_eq_ok_iff :
    (List.range n).forM check = .ok ⟨⟩ ↔ ∀ k < n, check k = .ok ⟨⟩ := by
  induction n with
  | zero => exact ⟨fun _ k hk => absurd hk (Nat.not_lt_zero k), fun _ => rfl⟩
  | succ n ih =>
    rw [forM_range_succ, bind_eq_ok]
    constructor
    · rintro ⟨_, hfirst, hlast⟩ k hk
      rcases Nat.lt_succ_iff_lt_or_eq.1 hk with hk | rfl
      · exact ih.1 hfirst k hk
      · exact hlast
    · intro h
      exact ⟨⟨⟩, ih.2 fun k hk => h k (Nat.lt_succ_of_lt hk), h n (Nat.lt_succ_self n)⟩

/-- **The loop throws what the first check throws that does not pass.** -/
theorem forM_range_eq_error_iff :
    (List.range n).forM check = .error e ↔
      ∃ k < n, (∀ j < k, check j = .ok ⟨⟩) ∧ check k = .error e := by
  induction n with
  | zero =>
    constructor
    · intro h
      cases h
    · rintro ⟨k, hk, -⟩
      exact absurd hk (Nat.not_lt_zero k)
  | succ n ih =>
    rw [forM_range_succ, bind_eq_error, ih]
    constructor
    · rintro (⟨k, hk, hfirst, hthrow⟩ | ⟨_, hfirst, hthrow⟩)
      · exact ⟨k, Nat.lt_succ_of_lt hk, hfirst, hthrow⟩
      · exact ⟨n, Nat.lt_succ_self n, forM_range_eq_ok_iff.1 hfirst, hthrow⟩
    · rintro ⟨k, hk, hfirst, hthrow⟩
      rcases Nat.lt_succ_iff_lt_or_eq.1 hk with hk | rfl
      · exact .inl ⟨k, hk, hfirst, hthrow⟩
      · exact .inr ⟨⟨⟩, forM_range_eq_ok_iff.2 hfirst, hthrow⟩

end Checks

end Loop
