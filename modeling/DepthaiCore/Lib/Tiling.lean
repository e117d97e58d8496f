import Mathlib.Algebra.BigOperators.Ring.Finset
import Mathlib.Algebra.Order.BigOperators.Group.Finset
import Mathlib.Data.Int.Interval
import Mathlib.Tactic.Linarith

/-!
# Ranges that tile an interval

Finitely many ranges, each with a start and a size, tile an interval of the integers when they lie
inside it and every place of the interval is in exactly one of them. A range may be empty. Their
sizes then add up to the length of the interval, whatever their order; ranges laid out one after
another tile the interval from the first start to the last end.
-/

/-- The ranges from `start i` on, of length `size i`, tile the interval from `lo` to `hi`. -/
structure Tiles {ι : Type*} (start size : ι → ℤ) (lo hi : ℤ) : Prop where
  size_nonneg : ∀ i, 0 ≤ size i
  inside : ∀ i, lo ≤ start i ∧ start i + size i ≤ hi
  existsUnique : ∀ x, lo ≤ x → x < hi → ∃! i, start i ≤ x ∧ x < start i + size i

namespace Tiles

variable {ι : Type*} {start size : ι → ℤ} {lo hi : ℤ}

/-- **The sizes add up to the length of the interval.** -/
theorem sum_size [Fintype ι] (h : Tiles start size lo hi) (hle : lo ≤ hi) :
    ∑ i, size i = hi - lo := by
  classical
  have hcover : Finset.Ico lo hi =
      Finset.univ.biUnion fun i => Finset.Ico (start i) (start i + size i) := by
    ext x
    simp only [Finset.mem_Ico, Finset.mem_biUnion, Finset.mem_univ, true_and]
    constructor
    · rintro ⟨hlo, hhi⟩
      exact (h.existsUnique x hlo hhi).exists
    · rintro ⟨i, hstart, hstop⟩
      have hi := h.inside i
      omega
  have hdisjoint : ((Finset.univ : Finset ι) : Set ι).PairwiseDisjoint
      fun i => Finset.Ico (start i) (start i + size i) := by
    intro i _ j _ hij
    refine Finset.disjoint_left.2 fun x hxi hxj => hij ?_
    rw [Finset.mem_Ico] at hxi hxj
    have hinside := h.inside i
    exact (h.existsUnique x (by omega) (by omega)).unique hxi hxj
  have hcard := congrArg Finset.card hcover
  rw [Finset.card_biUnion hdisjoint, Int.card_Ico] at hcard
  calc ∑ i, size i = ∑ i, ((Finset.Ico (start i) (start i + size i)).card : ℤ) := by
        refine Finset.sum_congr rfl fun i _ => ?_
        rw [Int.card_Ico, add_sub_cancel_left, Int.toNat_of_nonneg (h.size_nonneg i)]
    _ = hi - lo := by
        rw [← Nat.cast_sum, ← hcard, Int.toNat_of_nonneg (by omega)]

theorem cons {n : ℕ} {start size : Fin n → ℤ} {s : ℤ} (hs : 0 ≤ s)
    (h : Tiles start size (lo + s) hi) (hle : lo + s ≤ hi) :
    Tiles (Fin.cons lo start) (Fin.cons s size) lo hi where
  size_nonneg := Fin.cases hs h.size_nonneg
  inside := by
    refine Fin.cases ⟨le_rfl, hle⟩ fun i => ?_
    have hi := h.inside i
    simp only [Fin.cons_succ]
    omega
  existsUnique := by
    intro x hlo hhi
    by_cases hx : x < lo + s
    · refine ⟨0, ⟨hlo, hx⟩, Fin.cases (fun _ => rfl) fun i hmem => ?_⟩
      have hi := h.inside i
      simp only [Fin.cons_succ] at hmem
      omega
    · obtain ⟨i, hmem, hunique⟩ := h.existsUnique x (by omega) hhi
      refine ⟨i.succ, hmem, Fin.cases (fun hzero => absurd hzero.2 hx) fun j hj => ?_⟩
      rw [hunique j hj]

end Tiles

/-- The ranges of the given sizes from `lo` on, one after another. -/
theorem tiles_take {sizes : List ℤ} (hsizes : ∀ s ∈ sizes, 0 ≤ s) (lo : ℤ) :
    Tiles (fun i : Fin sizes.length => lo + (sizes.take i).sum) (fun i => sizes.get i) lo
      (lo + sizes.sum) := by
  induction sizes generalizing lo with
  | nil => exact ⟨fun i => i.elim0, fun i => i.elim0, fun x hlo hhi => by simp at hhi; omega⟩
  | cons s sizes ih =>
    have hs := hsizes s List.mem_cons_self
    have hrest : ∀ r ∈ sizes, 0 ≤ r := fun r hr => hsizes r (List.mem_cons_of_mem _ hr)
    have hsum := List.sum_nonneg hrest
    have h := (ih hrest (lo + s)).cons hs (by omega)
    have hstarts : (fun i : Fin (sizes.length + 1) => lo + ((s :: sizes).take i).sum) =
        Fin.cons lo fun i => lo + s + (sizes.take i).sum := by
      funext i
      exact Fin.cases (by simp) (fun i => by simp [add_assoc]) i
    have hsizes : (fun i : Fin (sizes.length + 1) => (s :: sizes).get i) =
        Fin.cons s fun i => sizes.get i := by
      funext i
      exact Fin.cases rfl (fun i => rfl) i
    rw [List.sum_cons, ← add_assoc]
    show Tiles (fun i : Fin (sizes.length + 1) => lo + ((s :: sizes).take i).sum)
      (fun i : Fin (sizes.length + 1) => (s :: sizes).get i) lo _
    rw [hstarts, hsizes]
    exact h

/-- **Ranges laid out one after another tile.** -/
theorem tiles_of_consecutive {n : ℕ} {start size : Fin n → ℤ} {lo : ℤ} {sizes : List ℤ}
    (hlength : sizes.length = n) (hsizes : ∀ s ∈ sizes, 0 ≤ s)
    (hstart : ∀ i, start i = lo + (sizes.take i).sum)
    (hsize : ∀ i : Fin n, sizes[(i : ℕ)]? = some (size i)) :
    Tiles start size lo (lo + sizes.sum) := by
  subst hlength
  have hstart : start = fun i : Fin sizes.length => lo + (sizes.take i).sum := funext hstart
  have hsize : size = fun i => sizes.get i := by
    funext i
    have h := hsize i
    rw [List.getElem?_eq_getElem i.2, Option.some.injEq] at h
    exact h.symm
  rw [hstart, hsize]
  exact tiles_take hsizes lo
