import Mathlib.Data.List.Perm.Basic

/-!
# One pass over the edges of a graph

A pass over the edges of a graph marks both ends of every edge of which one end is marked. It always
marks what is near: the first nodes and their neighbours. Whether it comes further depends on the
order of the edges, unless there is nothing further: unless all neighbours of near nodes are near.

The edges come in groups, one for each node that they leave. The groups come in any order, and so do
the edges of a group.
-/

namespace Sweep

variable {V E : Type*}

section Pass

variable [DecidableEq V] (ends : E → Option (V × V))

/-- An edge with a marked end: the other end is marked too. What is no edge changes nothing. -/
def visit (marked : List V) (e : E) : List V :=
  match ends e with
  | none => marked
  | some (u, v) =>
    let marked := if v ∈ marked then marked ++ [u] else marked
    if u ∈ marked then marked ++ [v] else marked

/-- One pass over the edges. -/
def sweep (marked : List V) (edges : List E) : List V :=
  edges.foldl (visit ends) marked

end Pass

section Graph

variable (ends : E → Option (V × V))

/-- An edge has these ends. -/
def Adjacent (edges : List E) (u v : V) : Prop :=
  ∃ e ∈ edges, ends e = some (u, v) ∨ ends e = some (v, u)

/-- The first nodes and their neighbours. -/
def Near (marked : List V) (edges : List E) (v : V) : Prop :=
  v ∈ marked ∨ ∃ u ∈ marked, Adjacent ends edges u v

/-- The neighbours of near nodes are near. -/
def Settled (marked : List V) (edges : List E) : Prop :=
  ∀ u v, Adjacent ends edges u v → Near ends marked edges u → Near ends marked edges v

/-- An order of the groups of the keys, and of the members of each group. -/
def IsEnumeration {K : Type*} (keys : List K) (group : K → List E) (order : List E) : Prop :=
  ∃ keys' groups, keys'.Perm keys ∧
    List.Forall₂ (fun k es => es.Perm (group k)) keys' groups ∧ order = groups.flatten

end Graph

variable {ends : E → Option (V × V)} {marked : List V} {edges : List E} {u v : V}

theorem adjacent_cons {e : E} : Adjacent ends (e :: edges) u v ↔
    (ends e = some (u, v) ∨ ends e = some (v, u)) ∨ Adjacent ends edges u v := by
  simp [Adjacent]

theorem IsEnumeration.mem_iff {K : Type*} {keys : List K} {group : K → List E} {order : List E}
    (h : IsEnumeration keys group order) {e : E} : e ∈ order ↔ e ∈ keys.flatMap group := by
  obtain ⟨keys', groups, hkeys, hgroups, rfl⟩ := h
  rw [(hkeys.flatMap_right group).mem_iff.symm]
  clear hkeys
  induction hgroups with
  | nil => rfl
  | cons hperm _ ih => rw [List.flatten_cons, List.flatMap_cons, List.mem_append, List.mem_append,
      hperm.mem_iff, ih]

/-! ### What a pass marks -/

section Pass

variable [DecidableEq V]

theorem mem_visit {e : E} {w : V} : w ∈ visit ends marked e ↔
    w ∈ marked ∨ ∃ u ∈ marked, ends e = some (u, w) ∨ ends e = some (w, u) := by
  rw [visit]
  cases hends : ends e with
  | none => simp
  | some pair =>
    obtain ⟨a, b⟩ := pair
    simp only [Option.some.injEq, Prod.mk.injEq]
    by_cases hb : b ∈ marked <;> by_cases ha : a ∈ marked <;> simp [ha, hb] <;> grind

theorem subset_sweep : marked ⊆ sweep ends marked edges := by
  induction edges generalizing marked with
  | nil => exact List.Subset.refl _
  | cons e edges ih =>
    intro w hw
    exact ih (mem_visit.2 (.inl hw))

theorem mem_sweep_of_near (h : Near ends marked edges v) : v ∈ sweep ends marked edges := by
  rcases h with h | ⟨u, hu, hadj⟩
  · exact subset_sweep h
  induction edges generalizing marked with
  | nil =>
    obtain ⟨e, he, -⟩ := hadj
    cases he
  | cons e edges ih =>
    rcases adjacent_cons.1 hadj with hends | hadj
    · show v ∈ sweep ends (visit ends marked e) edges
      exact subset_sweep (mem_visit.2 (.inr ⟨u, hu, hends⟩))
    · exact ih (mem_visit.2 (.inl hu)) hadj

/-- What the first nodes have, and an edge hands on, all marked nodes have. -/
theorem of_mem_sweep {T : V → Prop} (hmarked : ∀ w ∈ marked, T w)
    (hedges : ∀ u v, Adjacent ends edges u v → T u → T v) {w : V}
    (hw : w ∈ sweep ends marked edges) : T w := by
  induction edges generalizing marked with
  | nil => exact hmarked w hw
  | cons e edges ih =>
    have hrest : w ∈ sweep ends (visit ends marked e) edges := hw
    refine ih ?_ ?_ hrest
    · intro x hx
      rcases mem_visit.1 hx with hx | ⟨u, hu, hends⟩
      · exact hmarked x hx
      · exact hedges u x (adjacent_cons.2 (.inl hends)) (hmarked u hu)
    · exact fun u v hadj => hedges u v (adjacent_cons.2 (.inr hadj))

/-- **If there is nothing further, a pass marks what is near and no more.** -/
theorem Settled.mem_sweep_iff (h : Settled ends marked edges) :
    v ∈ sweep ends marked edges ↔ Near ends marked edges v :=
  ⟨of_mem_sweep (fun _ => .inl) h, mem_sweep_of_near⟩

theorem sweep_append {edges' : List E} :
    sweep ends marked (edges ++ edges') = sweep ends (sweep ends marked edges) edges' :=
  List.foldl_append

theorem sweep_cons {e : E} :
    sweep ends marked (e :: edges) = sweep ends (visit ends marked e) edges :=
  rfl

/-- Edges between nodes that are not marked change nothing. -/
theorem sweep_of_quiet (h : ∀ u v, Adjacent ends edges u v → u ∉ marked) :
    sweep ends marked edges ⊆ marked := by
  intro w hw
  refine of_mem_sweep (T := (· ∈ marked)) (fun _ => id) ?_ hw
  exact fun u v hadj hu => absurd hu (h u v hadj)

end Pass

theorem near_congr {edges' : List E} (hmem : ∀ e, e ∈ edges ↔ e ∈ edges') :
    Near ends marked edges v ↔ Near ends marked edges' v := by
  simp only [Near, Adjacent, hmem]

theorem settled_congr {edges' : List E} (hmem : ∀ e, e ∈ edges ↔ e ∈ edges') :
    Settled ends marked edges ↔ Settled ends marked edges' := by
  simp only [Settled, Near, Adjacent, hmem]

/-! ### An order in which a pass marks no more than what is near

The groups of the nodes that are not near come first, and those of the marked nodes last. The group
of another near node begins with the edges to what is not marked, so that it marks this node and no
other. -/

section Order

variable [DecidableEq V] {group : V → List E}

/-- The edge leads to a node that is marked. -/
def leadsTo (ends : E → Option (V × V)) (marked : List V) (e : E) : Bool :=
  match ends e with
  | none => false
  | some (_, v) => v ∈ marked

/-- The edges to marked nodes last. -/
def arrange (ends : E → Option (V × V)) (marked : List V) (edges : List E) : List E :=
  edges.filter (fun e => !leadsTo ends marked e) ++ edges.filter (leadsTo ends marked)

/-- The groups of the nodes, each of them arranged for what is marked when it begins. -/
def arrangeAll (ends : E → Option (V × V)) (group : V → List E) :
    List V → List V → List (List E)
  | _, [] => []
  | marked, k :: keys =>
    let edges := arrange ends marked (group k)
    edges :: arrangeAll ends group (sweep ends marked edges) keys

theorem perm_arrange : (arrange ends marked edges).Perm edges :=
  List.perm_append_comm.trans (List.filter_append_perm _ _)

theorem forall₂_arrangeAll (keys : List V) :
    List.Forall₂ (fun k es => es.Perm (group k)) keys (arrangeAll ends group marked keys) := by
  induction keys generalizing marked with
  | nil => exact .nil
  | cons k keys ih => exact .cons perm_arrange ih

/-- The group of a node that is not marked marks this node at most. -/
theorem sweep_arrange {k : V} (hkey : ∀ e ∈ edges, ∀ u v, ends e = some (u, v) → u = k)
    (hk : k ∉ marked) {w : V} (hw : w ∈ sweep ends marked (arrange ends marked edges)) :
    w ∈ marked ∨ w = k := by
  rw [arrange, sweep_append] at hw
  have hquiet : sweep ends marked (edges.filter fun e => !leadsTo ends marked e) ⊆ marked := by
    refine sweep_of_quiet ?_
    rintro u v ⟨e, he, hends⟩
    obtain ⟨hmem, hnot⟩ := List.mem_filter.1 he
    rcases hends with hends | hends
    · exact hkey e hmem _ _ hends ▸ hk
    · simpa [leadsTo, hends] using hnot
  refine of_mem_sweep (T := fun w => w ∈ marked ∨ w = k) (fun w hw => .inl (hquiet hw)) ?_ hw
  rintro u v ⟨e, he, hends⟩ -
  obtain ⟨hmem, hleads⟩ := List.mem_filter.1 he
  rcases hends with hends | hends
  · simp only [leadsTo, hends, decide_eq_true_eq] at hleads
    exact .inl hleads
  · exact .inr (hkey e hmem _ _ hends)

theorem sweep_arrangeAll {T : V → Prop} {keys : List V}
    (hkey : ∀ k, ∀ e ∈ group k, ∀ u v, ends e = some (u, v) → u = k) (hnodup : keys.Nodup)
    (hkeys : ∀ k ∈ keys, k ∉ marked ∧ T k) (hmarked : ∀ w ∈ marked, T w) {w : V}
    (hw : w ∈ sweep ends marked (arrangeAll ends group marked keys).flatten) : T w := by
  induction keys generalizing marked with
  | nil => exact hmarked w hw
  | cons k keys ih =>
    obtain ⟨hnew, hnodup⟩ := List.nodup_cons.1 hnodup
    rw [arrangeAll, List.flatten_cons, sweep_append] at hw
    have hround : ∀ x ∈ sweep ends marked (arrange ends marked (group k)), x ∈ marked ∨ x = k :=
      fun x hx => sweep_arrange (hkey k) (hkeys k (by simp)).1 hx
    refine ih hnodup ?_ ?_ hw
    · intro k' hk'
      obtain ⟨hout, hT⟩ := hkeys k' (List.mem_cons_of_mem _ hk')
      refine ⟨fun hin => ?_, hT⟩
      rcases hround k' hin with hin | rfl
      · exact hout hin
      · exact hnew hk'
    · intro x hx
      rcases hround x hx with hx | rfl
      · exact hmarked x hx
      · exact (hkeys x (by simp)).2

theorem exists_sweep_near (marked : List V) {keys : List V}
    (hkey : ∀ k, ∀ e ∈ group k, ∀ u v, ends e = some (u, v) → u = k) (hnodup : keys.Nodup) :
    ∃ order, IsEnumeration keys group order ∧
      ∀ w ∈ sweep ends marked order, Near ends marked (keys.flatMap group) w := by
  classical
  let near : V → Bool := fun k => decide (Near ends marked (keys.flatMap group) k)
  let far := keys.filter fun k => !near k
  let middle := (keys.filter near).filter fun k => !decide (k ∈ marked)
  let first := (keys.filter near).filter fun k => decide (k ∈ marked)
  have hadjacent : ∀ {k e u v}, k ∈ keys → e ∈ group k → ends e = some (u, v) ∨ ends e = some (v, u) →
      Adjacent ends (keys.flatMap group) u v :=
    fun hk he hends => ⟨_, List.mem_flatMap.2 ⟨_, hk, he⟩, hends⟩
  -- The groups of the nodes that are not near do not touch a marked node.
  have hfar : sweep ends marked (far.map group).flatten ⊆ marked := by
    refine sweep_of_quiet ?_
    rintro u v ⟨e, he, hends⟩ hu
    obtain ⟨k, hk, he⟩ := List.mem_flatMap.1 he
    obtain ⟨hk, hnot⟩ := List.mem_filter.1 hk
    have hadj := hadjacent hk he hends
    have hnear : Near ends marked (keys.flatMap group) k := by
      rcases hends with hends | hends
      · exact hkey k e he _ _ hends ▸ .inl hu
      · exact hkey k e he _ _ hends ▸ .inr ⟨u, hu, hadj⟩
    simp [near, hnear] at hnot
  refine ⟨(far.map group ++ arrangeAll ends group (sweep ends marked (far.map group).flatten) middle ++
    first.map group).flatten, ⟨far ++ middle ++ first, _, ?_, ?_, rfl⟩, ?_⟩
  · rw [List.append_assoc]
    refine .trans (.append_left far ?_) (List.perm_append_comm.trans (List.filter_append_perm near keys))
    exact List.perm_append_comm.trans (List.filter_append_perm (fun k => decide (k ∈ marked)) _)
  · refine List.rel_append (List.rel_append ?_ (forall₂_arrangeAll middle)) ?_
    all_goals exact List.forall₂_map_right_iff.2 (List.forall₂_same.2 fun k _ => .refl _)
  · intro w hw
    rw [List.flatten_append, List.flatten_append, sweep_append, sweep_append] at hw
    refine of_mem_sweep (T := Near ends marked (keys.flatMap group)) ?_ ?_ hw
    · intro x hx
      refine sweep_arrangeAll hkey ((hnodup.filter _).filter _) ?_ (fun y hy => .inl (hfar hy)) hx
      intro k hk
      obtain ⟨hk, hout⟩ := List.mem_filter.1 hk
      obtain ⟨-, hnear⟩ := List.mem_filter.1 hk
      exact ⟨fun hin => by simp [hfar hin] at hout, of_decide_eq_true hnear⟩
    · -- The groups of the marked nodes lead to their neighbours.
      rintro u v ⟨e, he, hends⟩ -
      obtain ⟨k, hk, he⟩ := List.mem_flatMap.1 he
      obtain ⟨hk, hmarked⟩ := List.mem_filter.1 hk
      have hk' := of_decide_eq_true hmarked
      have hadj := hadjacent (List.mem_filter.1 hk).1 he hends
      rcases hends with hends | hends
      · exact .inr ⟨u, hkey k e he _ _ hends ▸ hk', hadj⟩
      · exact hkey k e he _ _ hends ▸ .inl hk'

/-- **If every order marks the same nodes, there is nothing further.** -/
theorem settled_of_free [DecidableEq E] {keys : List V}
    (hkey : ∀ k, ∀ e ∈ group k, ∀ u v, ends e = some (u, v) → u = k) (hnodup : keys.Nodup)
    (hfree : ∀ order order', IsEnumeration keys group order → IsEnumeration keys group order' →
      ∀ w, w ∈ sweep ends marked order ↔ w ∈ sweep ends marked order') :
    Settled ends marked (keys.flatMap group) := by
  rintro u v hadj (hu | ⟨d, hd, hadj'⟩)
  · exact .inr ⟨u, hu, hadj⟩
  obtain ⟨order, horder, hnear⟩ := exists_sweep_near marked hkey hnodup
  obtain ⟨first, hfirst, hends⟩ := hadj'
  obtain ⟨k, hk, hmem⟩ := List.mem_flatMap.1 hfirst
  -- The order that begins with the edge from the marked node to `u` marks `u`, and then `v`.
  let rest := (group k).erase first ++ ((keys.erase k).map group).flatten
  have hrest : IsEnumeration keys group (first :: rest) :=
    ⟨k :: keys.erase k, (first :: (group k).erase first) :: (keys.erase k).map group,
      (List.perm_cons_erase hk).symm,
      .cons (List.perm_cons_erase hmem).symm
        (List.forall₂_map_right_iff.2 (List.forall₂_same.2 fun k _ => .refl _)), rfl⟩
  refine hnear v ((hfree _ _ horder hrest v).2 ?_)
  rw [sweep_cons]
  have hmarked : u ∈ visit ends marked first := mem_visit.2 (.inr ⟨d, hd, hends⟩)
  obtain ⟨e, he, hjoin⟩ := hadj
  rcases List.mem_cons.1 (hrest.mem_iff.2 he) with rfl | he
  · have hone : v = d ∨ u = d := by grind
    rcases hone with rfl | rfl
    · exact subset_sweep (mem_visit.2 (.inl hd))
    · exact subset_sweep (mem_visit.2 (.inr ⟨_, hd, hjoin⟩))
  · exact mem_sweep_of_near (.inr ⟨u, hmarked, e, he, hjoin⟩)

end Order

end Sweep
