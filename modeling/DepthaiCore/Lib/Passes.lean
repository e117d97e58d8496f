import Mathlib.Data.List.Basic
import Mathlib.Logic.Function.Iterate

/-!
# Passes that rewrite a list in place

A recursive filter goes over a list place by place and writes each place anew from what is there
and from what it has just written. Two such passes give the same list if their rules agree on the
values that occur, and a pass whose rule agrees with the one that writes back what it has read
leaves the list alone. Both are one statement about two rules.
-/

namespace Pass

variable {α σ : Type*} [Zero α] {T : α → Prop} {F : σ → σ → Prop} {image : List α}

/-- Every place in turn is written by `rule`, which gets the value written before, its state and
the value at the place. -/
def carry (rule : α → σ → α → α × σ) (places : List ℕ) (image : List α) (x : α) (s : σ) :
    List α :=
  (places.foldl (fun (state : List α × α × σ) k =>
    let out := rule state.2.1 state.2.2 (state.1.getD k 0)
    (state.1.set k out.1, out.1, out.2)) (image, x, s)).1

/-- For every pair in turn, the second place is written from the values at both. -/
def pairs (rule : α → α → α) (places : List (ℕ × ℕ)) (image : List α) : List α :=
  places.foldl (fun image p => image.set p.2 (rule (image.getD p.1 0) (image.getD p.2 0))) image

theorem set_getD_self (k : ℕ) : image.set k (image.getD k 0) = image := by
  rcases Nat.lt_or_ge k image.length with hk | hk
  · rw [List.getD_eq_getElem?_getD, List.getElem?_eq_getElem hk, Option.getD_some,
      List.set_getElem_self]
  · exact List.set_eq_of_length_le hk

omit [Zero α] in
theorem forall_mem_set (h : ∀ v ∈ image, T v) {v : α} (hv : T v) (k : ℕ) :
    ∀ u ∈ image.set k v, T u := by
  intro u hu
  rcases List.mem_or_eq_of_mem_set hu with hu | rfl
  · exact h u hu
  · exact hv

theorem getD_of_forall (h : ∀ v ∈ image, T v) (hzero : T 0) (k : ℕ) : T (image.getD k 0) := by
  rw [List.getD_eq_getElem?_getD]
  cases hk : image[k]? with
  | none => exact hzero
  | some v => exact h v (List.mem_of_getElem? hk)

/-! ### Passes that carry a value -/

/-- On values of kind `T` and states related by `F`, the two rules write the same value, again of
the kind, and leave related states. -/
structure Agree (T : α → Prop) (F : σ → σ → Prop) (rule rule' : α → σ → α → α × σ) : Prop where
  value : ∀ x y s s', T x → T y → F s s' → (rule x s y).1 = (rule' x s' y).1
  kind : ∀ x y s, T x → T y → T (rule x s y).1
  state : ∀ x y s s', T x → T y → F s s' → F (rule x s y).2 (rule' x s' y).2

/-- **Rules that agree make the same pass**, and keep to the kind. -/
theorem Agree.carry_eq {rule rule' : α → σ → α → α × σ} (h : Agree T F rule rule') (hzero : T 0)
    (places : List ℕ) {x : α} {s s' : σ} (himage : ∀ v ∈ image, T v) (hx : T x) (hs : F s s') :
    carry rule places image x s = carry rule' places image x s' ∧
      ∀ v ∈ carry rule places image x s, T v := by
  rw [carry, carry]
  induction places generalizing image x s s' with
  | nil => exact ⟨rfl, himage⟩
  | cons k places ih =>
    have hk : T (image.getD k 0) := getD_of_forall himage hzero k
    have hout := h.value x (image.getD k 0) s s' hx hk hs
    have hkind := h.kind x (image.getD k 0) s hx hk
    rw [List.foldl_cons, List.foldl_cons]
    simp only [← hout]
    exact ih (forall_mem_set himage hkind k) hkind (h.state x _ s s' hx hk hs)

/-- The rule that writes back what it reads. -/
def keep : α → σ → α → α × σ :=
  fun _ s y => (y, s)

theorem carry_keep (places : List ℕ) (x : α) (s : σ) : carry keep places image x s = image := by
  rw [carry]
  induction places generalizing x with
  | nil => rfl
  | cons k places ih =>
    rw [List.foldl_cons]
    show (places.foldl _ (image.set k (image.getD k 0), image.getD k 0, s)).1 = image
    rw [set_getD_self]
    exact ih _

/-! ### Passes over pairs of places -/

/-- On values of kind `T`, the two rules write the same value, again of the kind. -/
structure AgreePairs (T : α → Prop) (rule rule' : α → α → α) : Prop where
  value : ∀ x y, T x → T y → rule x y = rule' x y
  kind : ∀ x y, T x → T y → T (rule x y)

/-- **Rules that agree make the same pass**, and keep to the kind. -/
theorem AgreePairs.pairs_eq {rule rule' : α → α → α} (h : AgreePairs T rule rule') (hzero : T 0)
    (places : List (ℕ × ℕ)) (himage : ∀ v ∈ image, T v) :
    pairs rule places image = pairs rule' places image ∧ ∀ v ∈ pairs rule places image, T v := by
  rw [pairs, pairs]
  induction places generalizing image with
  | nil => exact ⟨rfl, himage⟩
  | cons p places ih =>
    have hfrom : T (image.getD p.1 0) := getD_of_forall himage hzero p.1
    have hto : T (image.getD p.2 0) := getD_of_forall himage hzero p.2
    rw [List.foldl_cons, List.foldl_cons, ← h.value _ _ hfrom hto]
    exact ih (forall_mem_set himage (h.kind _ _ hfrom hto) p.2)

theorem pairs_keep (places : List (ℕ × ℕ)) : pairs (fun _ y => y) places image = image := by
  rw [pairs]
  induction places with
  | nil => rfl
  | cons p places ih =>
    rw [List.foldl_cons, set_getD_self]
    exact ih

/-! ### Passes one after the other -/

/-- Two passes agree on the lists of values of kind `T`, and keep to the kind. -/
def Same (T : α → Prop) (f g : List α → List α) : Prop :=
  ∀ image, (∀ v ∈ image, T v) → f image = g image ∧ ∀ v ∈ f image, T v

omit [Zero α] in
theorem Same.comp {f f' g g' : List α → List α} (hg : Same T g g') (hf : Same T f f') :
    Same T (g ∘ f) (g' ∘ f') := by
  intro image himage
  obtain ⟨heq, hkind⟩ := hf image himage
  rw [Function.comp_apply, Function.comp_apply, ← heq]
  exact hg _ hkind

omit [Zero α] in
theorem Same.foldl {β : Type*} {f g : List α → β → List α} {l : List β}
    (h : ∀ b ∈ l, Same T (f · b) (g · b)) :
    Same T (fun image => l.foldl f image) fun image => l.foldl g image := by
  induction l with
  | nil => exact fun image himage => ⟨rfl, himage⟩
  | cons b l ih =>
    exact Same.comp (ih fun c hc => h c (List.mem_cons_of_mem _ hc)) (h b List.mem_cons_self)

omit [Zero α] in
theorem Same.iterate {f g : List α → List α} (h : Same T f g) (n : ℕ) : Same T f^[n] g^[n] := by
  induction n with
  | zero => exact fun image himage => ⟨rfl, himage⟩
  | succ n ih =>
    intro image himage
    rw [Function.iterate_succ_apply, Function.iterate_succ_apply]
    exact ih.comp h image himage

end Pass
