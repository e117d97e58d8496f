import Mathlib.Data.List.Sublists

/-!
# A loop that appends

A loop looks at one item after another and appends a result for some of them. It is right if the
results are those of the items that should have one, in the same order.
-/

/-- The results `out` belong to some of the items, one after another, and to each that is `due`. -/
structure Harvest {α β : Type*} (fits : α → β → Prop) (due : α → Prop) (items : List α)
    (out : List β) (origin : List α) : Prop where
  sublist : origin.Sublist items
  fits : List.Forall₂ fits origin out
  complete : ∀ a ∈ items, due a → a ∈ origin

namespace Harvest

variable {α β : Type*} {fits : α → β → Prop} {due : α → Prop} {f : α → Option β}
  {items origin : List α}

/-- What one item is to yield. -/
structure Right (fits : α → β → Prop) (due : α → Prop) (a : α) (result : Option β) : Prop where
  fits : ∀ b, result = some b → fits a b
  complete : due a → result.isSome

theorem right_none_iff {a : α} : Right fits due a none ↔ ¬ due a :=
  ⟨fun h hdue => Bool.false_ne_true (h.complete hdue), fun h => ⟨nofun, fun hdue => absurd hdue h⟩⟩

/-- The items that yield a result. -/
def yielding (f : α → Option β) (items : List α) : List α :=
  items.filter fun a => (f a).isSome

theorem mem_yielding {a : α} : a ∈ yielding f items ↔ a ∈ items ∧ (f a).isSome :=
  List.mem_filter

theorem length_yielding (f : α → Option β) (items : List α) :
    (yielding f items).length = (items.filterMap f).length := by
  induction items with
  | nil => rfl
  | cons a items ih =>
    cases hf : f a with
    | none =>
      rw [List.filterMap_cons_none hf, yielding, List.filter_cons_of_neg (by rw [hf]; simp), ← ih,
        yielding]
    | some b =>
      rw [List.filterMap_cons_some hf, yielding, List.filter_cons_of_pos (by rw [hf]; rfl),
        List.length_cons, List.length_cons, ← ih, yielding]

theorem forall₂_yielding_iff : List.Forall₂ fits (yielding f items) (items.filterMap f) ↔
    ∀ a ∈ items, ∀ b, f a = some b → fits a b := by
  induction items with
  | nil => exact ⟨fun _ _ ha => absurd ha List.not_mem_nil, fun _ => .nil⟩
  | cons a items ih =>
    rw [List.forall_mem_cons, ← ih]
    cases hf : f a with
    | none =>
      rw [List.filterMap_cons_none hf, yielding, List.filter_cons_of_neg (by rw [hf]; simp)]
      exact ⟨fun h => ⟨nofun, h⟩, fun h => h.2⟩
    | some b =>
      rw [List.filterMap_cons_some hf, yielding, List.filter_cons_of_pos (by rw [hf]; rfl),
        List.forall₂_cons]
      refine and_congr_left' ⟨fun h b' hb => ?_, fun h => h b rfl⟩
      cases hb
      exact h

/-- **Every item is right, so the results are.** -/
theorem of_right (h : ∀ a ∈ items, Right fits due a (f a)) :
    Harvest fits due items (items.filterMap f) (yielding f items) where
  sublist := List.filter_sublist
  fits := forall₂_yielding_iff.2 fun a ha => (h a ha).fits
  complete a ha hdue := mem_yielding.2 ⟨ha, (h a ha).complete hdue⟩

/-- **The results are right exactly if every item is,** where an item to which a result could belong
yields one. -/
theorem filterMap_iff
    (hyields : ∀ a ∈ items, ∀ b ∈ items.filterMap f, fits a b → (f a).isSome) :
    (∃ origin, Harvest fits due items (items.filterMap f) origin) ↔
      ∀ a ∈ items, Right fits due a (f a) := by
  refine ⟨fun ⟨origin, h⟩ a ha => ?_, fun h => ⟨_, of_right h⟩⟩
  -- The items to which the results belong yield results, and there are as many of them.
  have hsome : ∀ a ∈ origin, (f a).isSome := by
    intro a ha
    obtain ⟨i, hi, rfl⟩ := List.getElem_of_mem ha
    have hout : i < (items.filterMap f).length := h.fits.length_eq ▸ hi
    exact hyields _ (h.sublist.subset ha) _ (List.getElem_mem hout) (h.fits.get hi hout)
  have hsub : origin.Sublist (yielding f items) := by
    have hfilter := h.sublist.filter fun a => (f a).isSome
    rwa [List.filter_eq_self.2 hsome] at hfilter
  obtain rfl : origin = yielding f items :=
    hsub.eq_of_length (by rw [length_yielding, h.fits.length_eq])
  exact ⟨forall₂_yielding_iff.1 h.fits a ha, fun hdue => (mem_yielding.1 (h.complete a ha hdue)).2⟩

end Harvest
