import Mathlib.Data.List.Nodup
import Mathlib.Data.List.Perm.Subperm
import Mathlib.Data.Nat.Basic

/-!
# Chains of links

Every element has at most one link to another one, and some are roots. From an element the links
lead to a root, to an element that is not there, or round in a circle. A chain is the first of
these: it has no element twice, and there is only one.
-/

/-- The chain from an element to its root. At an element that is not there `next` is `none`, and at
a root it is `some none`. -/
inductive Chain {α : Type*} (next : α → Option (Option α)) : α → List α → α → Prop
  | root {a : α} (h : next a = some none) : Chain next a [a] a
  | link {a b o : α} {l : List α} (h : next a = some (some b)) (hl : Chain next b l o) :
    Chain next a (a :: l) o

namespace Chain

variable {α : Type*} {next : α → Option (Option α)} {a b o o' : α} {l l' : List α}

theorem mem_left (h : Chain next a l o) : a ∈ l := by
  cases h <;> exact List.mem_cons_self

theorem length_pos (h : Chain next a l o) : 0 < l.length := by
  cases h <;> exact Nat.succ_pos _

/-- **An element has one chain.** -/
theorem unique (h : Chain next a l o) (h' : Chain next a l' o') : l = l' ∧ o = o' := by
  induction h generalizing l' with
  | root ha =>
    cases h' with
    | root _ => exact ⟨rfl, rfl⟩
    | link hb _ => rw [ha] at hb; cases hb
  | link ha _ ih =>
    cases h' with
    | root hb => rw [ha] at hb; cases hb
    | link hb hl' =>
      rw [ha] at hb
      obtain rfl := Option.some.inj (Option.some.inj hb)
      obtain ⟨rfl, rfl⟩ := ih hl'
      exact ⟨rfl, rfl⟩

/-- The elements of a chain have chains to the same root, which are parts of it. -/
theorem of_mem (h : Chain next a l o) (hb : b ∈ l) : ∃ l', Chain next b l' o ∧ l' <:+ l := by
  induction h with
  | root ha =>
    obtain rfl := List.mem_singleton.1 hb
    exact ⟨_, .root ha, List.suffix_refl _⟩
  | link ha hl ih =>
    rcases List.mem_cons.1 hb with rfl | hb
    · exact ⟨_, .link ha hl, List.suffix_refl _⟩
    · obtain ⟨l', hl', hsuffix⟩ := ih hb
      exact ⟨l', hl', hsuffix.trans (List.suffix_cons _ _)⟩

theorem notMem_of_link (h : next a = some (some b)) (hl : Chain next b l o) : a ∉ l := by
  intro ha
  obtain ⟨l', hl', hsuffix⟩ := hl.of_mem ha
  have hlength := hsuffix.length_le
  rw [(hl'.unique (.link h hl)).1, List.length_cons] at hlength
  omega

/-- **A chain has no element twice.** -/
theorem nodup (h : Chain next a l o) : l.Nodup := by
  induction h with
  | root _ => exact List.nodup_singleton _
  | link ha hl ih => exact List.nodup_cons.2 ⟨notMem_of_link ha hl, ih⟩

theorem isSome_of_mem (h : Chain next a l o) (hb : b ∈ l) : (next b).isSome := by
  obtain ⟨l', hl', -⟩ := h.of_mem hb
  cases hl' with
  | root hroot => rw [hroot]; rfl
  | link hlink _ => rw [hlink]; rfl

theorem next_root (h : Chain next a l o) : next o = some none := by
  induction h with
  | root h => exact h
  | link _ _ ih => exact ih

theorem eq_root_iff (h : Chain next a l o) : a = o ↔ l = [a] := by
  cases h with
  | root _ => simp
  | link hlink hl =>
    refine iff_of_false (fun heq => ?_) (fun heq => ?_)
    · rw [heq, hl.next_root] at hlink
      cases hlink
    · have hpos := hl.length_pos
      rw [(List.cons.inj heq).2] at hpos
      exact absurd hpos (Nat.lt_irrefl 0)

/-- A chain is not longer than a list of all that is there. -/
theorem length_le {keys : List α} (hkeys : ∀ b, (next b).isSome → b ∈ keys)
    (h : Chain next a l o) : l.length ≤ keys.length :=
  (List.subperm_of_subset h.nodup fun _ hb => hkeys _ (h.isSome_of_mem hb)).length_le

end Chain
