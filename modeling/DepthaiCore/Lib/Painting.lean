import Mathlib.Data.List.Range

/-!
# Painting

Strokes are put on a canvas one after another, and each of them covers some of the cells with its
colour. What is seen of a cell is the last stroke that covers it.

If strokes with a cell in common come in the order of their heights, then the highest is seen.
-/

namespace Painting

variable {J C α H : Type*} (covers : J → C → Prop) [∀ j p, Decidable (covers j p)] (colour : J → α)

/-- One stroke. -/
def stroke (canvas : C → α) (j : J) : C → α :=
  fun p => if covers j p then colour j else canvas p

def paint (canvas : C → α) (strokes : List J) : C → α :=
  strokes.foldl (stroke covers colour) canvas

variable {covers colour} {canvas : C → α} {strokes : List J} {p : C}

theorem paint_concat (j : J) : paint covers colour canvas (strokes ++ [j]) =
    stroke covers colour (paint covers colour canvas strokes) j := by
  rw [paint, List.foldl_append]
  rfl

theorem paint_of_bare (h : ∀ j ∈ strokes, ¬ covers j p) :
    paint covers colour canvas strokes p = canvas p := by
  induction strokes using List.reverseRecOn with
  | nil => rfl
  | append_singleton strokes j ih =>
    rw [paint_concat, stroke, if_neg (h j (List.mem_append_right _ (List.mem_singleton_self j)))]
    exact ih fun k hk => h k (List.mem_append_left _ hk)

/-- **The highest stroke is seen.** -/
theorem exists_highest [Preorder H] {height : J → H}
    (horder : strokes.Pairwise fun k j => ∀ p, covers k p → covers j p → height k ≤ height j)
    (h : ∃ j ∈ strokes, covers j p) :
    ∃ j ∈ strokes, covers j p ∧ paint covers colour canvas strokes p = colour j ∧
      ∀ k ∈ strokes, covers k p → height k ≤ height j := by
  induction strokes using List.reverseRecOn with
  | nil =>
    obtain ⟨j, hj, -⟩ := h
    cases hj
  | append_singleton strokes j ih =>
    obtain ⟨hbefore, -, hlast⟩ := List.pairwise_append.1 horder
    rw [paint_concat, stroke]
    by_cases hcovers : covers j p
    · refine ⟨j, List.mem_append_right _ (List.mem_singleton_self j), hcovers, if_pos hcovers, ?_⟩
      intro k hk hkp
      rcases List.mem_append.1 hk with hk | hk
      · exact hlast k hk j (List.mem_singleton_self j) p hkp hcovers
      · obtain rfl := List.mem_singleton.1 hk
        exact le_rfl
    · have hmem : ∀ k ∈ strokes ++ [j], covers k p → k ∈ strokes := by
        intro k hk hkp
        refine (List.mem_append.1 hk).resolve_right fun hlast => hcovers ?_
        rwa [← List.mem_singleton.1 hlast]
      obtain ⟨k, hk, hkp⟩ := h
      obtain ⟨i, hi, hip, hcolour, hheight⟩ := ih hbefore ⟨k, hmem k hk hkp, hkp⟩
      exact ⟨i, List.mem_append_left _ hi, hip, (if_neg hcovers).trans hcolour,
        fun k hk hkp => hheight k (hmem k hk hkp) hkp⟩

/-- **Strokes and cells under other names.** -/
theorem paint_map {J' C' : Type*} {covers' : J' → C' → Prop} [∀ j p, Decidable (covers' j p)]
    {colour' : J' → α} {canvas' : C' → α} {name : J → J'} {p' : C'}
    (hcanvas : canvas' p' = canvas p)
    (h : ∀ j ∈ strokes, (covers' (name j) p' ↔ covers j p) ∧ colour' (name j) = colour j) :
    paint covers' colour' canvas' (strokes.map name) p' = paint covers colour canvas strokes p := by
  induction strokes using List.reverseRecOn with
  | nil => exact hcanvas
  | append_singleton strokes j ih =>
    obtain ⟨hcovers, hcolour⟩ := h j (List.mem_append_right _ (List.mem_singleton_self j))
    rw [List.map_append, List.map_singleton, paint_concat, paint_concat, stroke, stroke, hcolour,
      ih fun k hk => h k (List.mem_append_left _ hk)]
    exact if_congr hcovers rfl rfl

end Painting
