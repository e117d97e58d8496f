import DepthaiCore.Pipeline.PipelineCalls

/-!
# Ids of nodes

A node gets its id when the walk of `add` first comes to it. A pipeline counts its ids up, so its
own nodes have different ones, as long as every node in the pipeline was reached by such a walk.

`getConnectionMap` files the sets of connections under the ids of their nodes. It goes through the
nodes of the pipeline, and for each of them through an unordered map of what is below it: the order
of that is a parameter here. Of two nodes with one id only the later one is found again.
-/

namespace DepthaiCore.PipelineImpl

variable {N O I P : Type*}

/-! ### The ids that were given out -/

/-- The ids of the nodes that the pipeline owns are below its counter and different. A node of no
pipeline has none. -/
structure Ids (s : PipelineImpl N O I P) : Prop where
  nonneg : 0 ≤ s.latestId
  unowned : ∀ m, s.parent m = none → s.id m = -1
  range : ∀ m, s.parent m = some s.self → s.id m ≠ -1 → 0 ≤ s.id m ∧ s.id m < s.latestId
  injective : ∀ m m', s.parent m = some s.self → s.parent m' = some s.self → s.id m ≠ -1 →
    s.id m = s.id m' → m = m'

variable [DecidableEq N] {s : PipelineImpl N O I P}

theorem id_assignId (n m : N) :
    (s.assignId n).id m = if m = n ∧ s.id n = -1 then s.latestId else s.id m := by
  rw [assignId]
  by_cases hid : s.id n = -1
  · by_cases hm : m = n <;> simp [hid, hm]
  · simp [hid]

theorem latestId_assignId (n : N) :
    (s.assignId n).latestId = if s.id n = -1 then s.latestId + 1 else s.latestId := by
  rw [assignId]
  split <;> rfl

theorem Ids.assignId (h : s.Ids) {n : N} (hn : s.parent n ≠ none) : (s.assignId n).Ids := by
  have hself := (sameGraph_assignId (s := s) n).self
  have hnonneg := h.nonneg
  refine ⟨?_, ?_, ?_, ?_⟩
  · rw [latestId_assignId]
    split <;> omega
  · intro m hm
    rw [parent_assignId] at hm
    rw [id_assignId, if_neg, h.unowned m hm]
    rintro ⟨rfl, -⟩
    exact hn hm
  · intro m hm hid
    rw [parent_assignId, hself] at hm
    rw [id_assignId] at hid ⊢
    rw [latestId_assignId]
    have hrange := h.range m hm
    split_ifs at hid ⊢ <;> grind
  · intro m m' hm hm' hid heq
    rw [parent_assignId, hself] at hm hm'
    rw [id_assignId] at hid
    rw [id_assignId, id_assignId] at heq
    have hrange := h.range m hm
    have hrange' := h.range m' hm'
    have hinj := h.injective m m' hm hm'
    split_ifs at hid heq <;> grind

theorem Ids.adopt (h : s.Ids) {n : N} (hn : s.parent n = none) :
    ((s.assignId n).adopt n).Ids := by
  have hself := (sameGraph_assignId (s := s) n).self
  have hnonneg := h.nonneg
  have hfresh := h.unowned n hn
  have hparent : ∀ m, ((s.assignId n).adopt n).parent m =
      if m = n then some s.self else s.parent m := by
    intro m
    show Function.update (s.assignId n).parent n (some (s.assignId n).self) m = _
    rw [hself, parent_assignId, Function.update_apply]
  have hid : ∀ m, ((s.assignId n).adopt n).id m = if m = n then s.latestId else s.id m := by
    intro m
    show (s.assignId n).id m = _
    rw [id_assignId]
    simp only [hfresh, and_true]
  have hlatest : ((s.assignId n).adopt n).latestId = s.latestId + 1 := by
    show (s.assignId n).latestId = _
    rw [latestId_assignId, if_pos hfresh]
  refine ⟨?_, ?_, ?_, ?_⟩
  · rw [hlatest]
    omega
  · intro m hm
    rw [hparent] at hm
    split_ifs at hm with hmn
    rw [hid, if_neg hmn, h.unowned m hm]
  · intro m hm hne
    rw [hparent, show ((s.assignId n).adopt n).self = s.self from hself] at hm
    rw [hid] at hne ⊢
    rw [hlatest]
    have hrange := h.range m
    split_ifs at hm hne ⊢ <;> grind
  · intro m m' hm hm' hne heq
    rw [hparent, show ((s.assignId n).adopt n).self = s.self from hself] at hm hm'
    rw [hid] at hne
    rw [hid, hid] at heq
    have hrange := h.range m
    have hrange' := h.range m'
    have hinj := h.injective m m'
    split_ifs at hm hm' hne heq <;> grind

variable [DecidableEq P]

theorem id_addVisit (n m : N) :
    (addVisit n s).1.id m = if m = n ∧ s.id n = -1 then s.latestId else s.id m := by
  rw [addVisit]
  split
  · exact id_assignId n m
  · split <;> exact id_assignId n m

theorem Ids.addVisit (h : s.Ids) (n : N) : (addVisit n s).1.Ids := by
  rw [PipelineImpl.addVisit]
  split
  · rename_i hnone
    exact h.adopt hnone
  · rename_i p hp
    have hn : s.parent n ≠ none := by simp [hp]
    split <;> exact h.assignId hn

theorem Ids.addSearch (h : s.Ids) (node : N) : (s.addSearch node).1.Ids :=
  s.nodeMap.search_invariant (fun n _ ht => ht.addVisit n) _ _ h

/-- The walk of `add` gives every node that it comes to an id. -/
theorem Ids.id_addSearch_ne (h : s.Ids) {node : N} (hok : (s.addSearch node).2 = none) :
    ∀ m ∈ s.nodeMap.subtree node, (s.addSearch node).1.id m ≠ -1 := by
  have hdone : ∀ n (t : PipelineImpl N O I P), t.Ids → (PipelineImpl.addVisit n t).2 = none →
      (PipelineImpl.addVisit n t).1.id n ≠ -1 := by
    intro n t ht _
    have hnonneg := ht.nonneg
    rw [id_addVisit]
    split_ifs with hnew <;> grind
  have hkeep : ∀ m n (t : PipelineImpl N O I P), t.Ids → t.id m ≠ -1 →
      (PipelineImpl.addVisit n t).1.id m ≠ -1 := by
    intro m n t ht hm
    have hnonneg := ht.nonneg
    rw [id_addVisit]
    split_ifs <;> grind
  intro m hm
  exact s.nodeMap.search_done (fun n t ht => Ids.addVisit ht n) hdone hkeep h (by simp) hok m
    (by simpa using hm)

theorem id_addSearch_of_ne {node m : N} (hm : s.id m ≠ -1) :
    (s.addSearch node).1.id m = s.id m := by
  have hkeep : ∀ n (t : PipelineImpl N O I P), t.id m = s.id m →
      (PipelineImpl.addVisit n t).1.id m = s.id m := by
    intro n t ht
    rw [id_addVisit]
    split_ifs with hnew
    · obtain ⟨rfl, hnew⟩ := hnew
      exact absurd (ht.symm.trans hnew) hm
    · exact ht
  exact s.nodeMap.search_invariant hkeep _ _ rfl

/-- The state after an `add` is what its walk leaves, with or without the node on the list. -/
theorem add_cases (s : PipelineImpl N O I P) (node : Option N) :
    (s.add node).1 = s ∨ ∃ n, node = some n ∧ ((s.add node).1 = (s.addSearch n).1 ∨
      (s.addSearch n).2 = none ∧
        ∃ h, (s.add node).1 = (s.addSearch n).1.pushNode n h) := by
  cases node with
  | none => exact .inl rfl
  | some n =>
    rw [add]
    split
    · exact .inl rfl
    · refine .inr ⟨n, rfl, ?_⟩
      split
      · rename_i t e hsearch
        exact .inl (by rw [hsearch])
      · rename_i t hsearch
        refine .inr ⟨by rw [hsearch], ?_, ?_⟩
        · have hself := s.parent_addSearch (by rw [hsearch]) n (s.nodeMap.mem_subtree_self n)
          rw [hself, (s.sameGraph_addSearch n).self]
        · simp only [hsearch]

theorem self_add (s : PipelineImpl N O I P) (node : Option N) : (s.add node).1.self = s.self := by
  rcases s.add_cases node with hsame | ⟨n, -, hsearch | ⟨-, hnode, hpush⟩⟩
  · rw [hsame]
  · rw [hsearch]
    exact (s.sameGraph_addSearch n).self
  · rw [hpush]
    exact (s.sameGraph_addSearch n).self

theorem parent_add_of_some {node : Option N} {m : N} {p : P} (hm : s.parent m = some p) :
    (s.add node).1.parent m = some p := by
  rcases s.add_cases node with hsame | ⟨n, -, hsearch | ⟨-, hnode, hpush⟩⟩
  · rw [hsame, hm]
  · rw [hsearch]
    exact s.parent_addSearch_of_some hm
  · rw [hpush]
    exact s.parent_addSearch_of_some hm

/-- `add` changes no owner but makes nodes of no pipeline nodes of this one. -/
theorem parent_addSearch_cases (node m : N) :
    (s.addSearch node).1.parent m = s.parent m ∨
      s.parent m = none ∧ (s.addSearch node).1.parent m = some s.self := by
  have hkeep : ∀ n (t : PipelineImpl N O I P),
      (t.self = s.self ∧ (t.parent m = s.parent m ∨ s.parent m = none ∧ t.parent m = some s.self)) →
        (addVisit n t).1.self = s.self ∧ ((addVisit n t).1.parent m = s.parent m ∨
          s.parent m = none ∧ (addVisit n t).1.parent m = some s.self) := by
    rintro n t ⟨hself, ht⟩
    refine ⟨(sameGraph_addVisit n).self.trans hself, ?_⟩
    rcases parent_addVisit (s := t) n m with hm | ⟨rfl, hnone, hm⟩
    · rwa [hm]
    · rw [hnone] at ht
      rw [hm, hself]
      rcases ht with ht | ⟨-, ht⟩
      · exact .inr ⟨ht.symm, rfl⟩
      · cases ht
  exact (s.nodeMap.search_invariant hkeep _ _ ⟨rfl, .inl rfl⟩).2

theorem parent_add (node : Option N) (m : N) :
    (s.add node).1.parent m = s.parent m ∨
      s.parent m = none ∧ (s.add node).1.parent m = some s.self := by
  rcases s.add_cases node with hsame | ⟨n, -, hsearch | ⟨-, hnode, hpush⟩⟩
  · rw [hsame]
    exact .inl rfl
  · rw [hsearch]
    exact parent_addSearch_cases n m
  · rw [hpush]
    exact parent_addSearch_cases n m

theorem id_add_of_ne {node : Option N} {m : N} (hm : s.id m ≠ -1) :
    (s.add node).1.id m = s.id m := by
  rcases s.add_cases node with hsame | ⟨n, -, hsearch | ⟨-, hnode, hpush⟩⟩
  · rw [hsame]
  · rw [hsearch]
    exact id_addSearch_of_ne hm
  · rw [hpush]
    exact id_addSearch_of_ne hm

/-- The walk of `add` gives a node its owner together with its id. -/
theorem Ids.assigned_addSearch (h : s.Ids) (hassigned : ∀ m, s.parent m ≠ none → s.id m ≠ -1)
    (node : N) : ∀ m, (s.addSearch node).1.parent m ≠ none → (s.addSearch node).1.id m ≠ -1 := by
  have hkeep : ∀ n (t : PipelineImpl N O I P),
      (t.Ids ∧ ∀ m, t.parent m ≠ none → t.id m ≠ -1) →
        (PipelineImpl.addVisit n t).1.Ids ∧
          ∀ m, (PipelineImpl.addVisit n t).1.parent m ≠ none →
            (PipelineImpl.addVisit n t).1.id m ≠ -1 := by
    rintro n t ⟨ht, hassigned⟩
    refine ⟨ht.addVisit n, fun m hm => ?_⟩
    have hnonneg := ht.nonneg
    have hbefore := hassigned m
    rw [id_addVisit]
    split_ifs with hnew
    · omega
    · rcases parent_addVisit (s := t) n m with hsame | ⟨rfl, hnone, -⟩
      · rw [hsame] at hm
        exact hbefore hm
      · exact absurd ⟨rfl, ht.unowned m hnone⟩ hnew
  exact (s.nodeMap.search_invariant hkeep _ _ ⟨h, hassigned⟩).2

theorem Ids.assigned_add (h : s.Ids) (hassigned : ∀ m, s.parent m ≠ none → s.id m ≠ -1)
    (node : Option N) : ∀ m, (s.add node).1.parent m ≠ none → (s.add node).1.id m ≠ -1 := by
  rcases s.add_cases node with hsame | ⟨n, -, hsearch | ⟨-, hnode, hpush⟩⟩
  · rw [hsame]
    exact hassigned
  · rw [hsearch]
    exact h.assigned_addSearch hassigned n
  · rw [hpush]
    exact h.assigned_addSearch hassigned n

theorem Ids.add (h : s.Ids) (node : Option N) : (s.add node).1.Ids := by
  rcases s.add_cases node with hsame | ⟨n, -, hsearch | ⟨-, hnode, hpush⟩⟩
  · rw [hsame]
    exact h
  · rw [hsearch]
    exact h.addSearch n
  · rw [hpush]
    -- The list of the nodes has no part in it.
    obtain ⟨hnonneg, hunowned, hrange, hinjective⟩ := h.addSearch n
    exact ⟨hnonneg, hunowned, hrange, hinjective⟩

/-! ### Every call -/

/-- The ids are in order, and every node in the pipeline has one. -/
structure Identified (s : PipelineImpl N O I P) : Prop where
  ids : s.Ids
  owned : s.Owned
  assigned : ∀ m ∈ s.getAllNodes, s.id m ≠ -1

omit [DecidableEq N] [DecidableEq P] in
theorem Identified.injective (h : s.Identified) {m m' : N} (hm : m ∈ s.getAllNodes)
    (hm' : m' ∈ s.getAllNodes) (heq : s.id m = s.id m') : m = m' :=
  h.ids.injective m m' (h.owned m hm) (h.owned m' hm') (h.assigned m hm) heq

omit [DecidableEq N] [DecidableEq P] in
theorem Identified.nonneg (h : s.Identified) {m : N} (hm : m ∈ s.getAllNodes) : 0 ≤ s.id m :=
  (h.ids.range m (h.owned m hm) (h.assigned m hm)).1

/-- Nothing that has to do with ids differs, and no node has come. -/
structure SameIds (s t : PipelineImpl N O I P) : Prop where
  self : t.self = s.self
  latestId : t.latestId = s.latestId
  id : t.id = s.id
  parent : t.parent = s.parent
  getAllNodes : t.getAllNodes ⊆ s.getAllNodes

omit [DecidableEq N] [DecidableEq P] in
theorem Ids.of_sameIds (h : s.Ids) {t : PipelineImpl N O I P} (hst : s.SameIds t) : t.Ids := by
  obtain ⟨hnonneg, hunowned, hrange, hinjective⟩ := h
  refine ⟨?_, ?_, ?_, ?_⟩
  · rwa [hst.latestId]
  · rwa [hst.parent, hst.id]
  · rwa [hst.parent, hst.self, hst.id, hst.latestId]
  · rwa [hst.parent, hst.self, hst.id]

omit [DecidableEq N] [DecidableEq P] in
theorem Identified.of_sameIds (h : s.Identified) {t : PipelineImpl N O I P} (hst : s.SameIds t) :
    t.Identified := by
  obtain ⟨hids, howned, hassigned⟩ := h
  refine ⟨hids.of_sameIds hst, ?_, ?_⟩
  · intro m hm
    rw [hst.parent, hst.self]
    exact howned m (hst.getAllNodes hm)
  · intro m hm
    rw [hst.id]
    exact hassigned m (hst.getAllNodes hm)

omit [DecidableEq P] in
theorem getAllNodes_removed_subset (G : Ports N O I) (s : PipelineImpl N O I P) (toRemove : N) :
    (s.removed G toRemove).getAllNodes ⊆ s.getAllNodes := by
  intro m hm
  obtain ⟨t, ht, hsub⟩ := List.mem_flatMap.1 hm
  exact List.mem_flatMap.2
    ⟨t, List.mem_of_mem_filter ht, s.nodeMap.subtree_without_subset _ _ _ hsub⟩

/-- `add` gives an id and an owner to every node that it brings into the pipeline. -/
theorem Identified.add (h : s.Identified) (node : Option N) : (s.add node).1.Identified := by
  refine ⟨h.ids.add node, ?_, ?_⟩
  · intro m hm
    rcases s.add_cases node with hsame | ⟨n, -, hsearch | ⟨hok, hnode, hpush⟩⟩
    · rw [hsame] at hm ⊢
      exact h.owned m hm
    · rw [hsearch, (s.sameGraph_addSearch n).getAllNodes] at hm
      rw [hsearch, (s.sameGraph_addSearch n).self]
      exact s.parent_addSearch_of_some (h.owned m hm)
    · rw [hpush, getAllNodes_pushNode, (s.sameGraph_addSearch n).getAllNodes,
        (s.sameGraph_addSearch n).nodeMap, List.mem_append] at hm
      rw [hpush]
      show (s.addSearch n).1.parent m = some (s.addSearch n).1.self
      rw [(s.sameGraph_addSearch n).self]
      rcases hm with hm | hm
      · exact s.parent_addSearch_of_some (h.owned m hm)
      · exact s.parent_addSearch hok m hm
  · intro m hm
    rcases s.add_cases node with hsame | ⟨n, -, hsearch | ⟨hok, hnode, hpush⟩⟩
    · rw [hsame] at hm ⊢
      exact h.assigned m hm
    · rw [hsearch, (s.sameGraph_addSearch n).getAllNodes] at hm
      rw [hsearch, id_addSearch_of_ne (h.assigned m hm)]
      exact h.assigned m hm
    · rw [hpush, getAllNodes_pushNode, (s.sameGraph_addSearch n).getAllNodes,
        (s.sameGraph_addSearch n).nodeMap, List.mem_append] at hm
      rw [hpush]
      show (s.addSearch n).1.id m ≠ -1
      rcases hm with hm | hm
      · rw [id_addSearch_of_ne (h.assigned m hm)]
        exact h.assigned m hm
      · exact h.ids.id_addSearch_ne hok m hm

section Calls

variable [DecidableEq O] [DecidableEq I] {G : Ports N O I}

theorem sameIds_call {c : PipelineCall N O I} (hc : ∀ node, c ≠ .add node) :
    s.SameIds (s.call G c).1 := by
  have hrefl : s.SameIds s := ⟨rfl, rfl, rfl, rfl, List.Subset.refl _⟩
  by_cases hok : c.Accepted G s
  · cases c with
    | add node => exact absurd rfl (hc node)
    | link out input =>
      rw [call, Output.link_eq hok]
      exact ⟨rfl, rfl, rfl, rfl, List.Subset.refl _⟩
    | unlink out input =>
      rw [call, Output.unlink_eq hok]
      exact ⟨rfl, rfl, rfl, rfl, List.Subset.refl _⟩
    | remove toRemove =>
      rw [call, remove_eq hok]
      exact ⟨rfl, rfl, rfl, rfl, getAllNodes_removed_subset G s toRemove⟩
  · cases c with
    | add node => exact absurd rfl (hc node)
    | link out input =>
      obtain ⟨e, heq⟩ := Output.link_of_not hok
      rw [call, heq]
      exact hrefl
    | unlink out input =>
      obtain ⟨e, heq⟩ := Output.unlink_of_not hok
      rw [call, heq]
      exact hrefl
    | remove toRemove =>
      obtain ⟨e, heq⟩ := remove_of_not hok
      rw [call, heq]
      exact hrefl

/-- **Every call keeps the ids in order.** -/
theorem Identified.call (h : s.Identified) (c : PipelineCall N O I) :
    (s.call G c).1.Identified := by
  cases c with
  | add node => exact h.add node
  | link out input => exact h.of_sameIds (sameIds_call fun node => by simp)
  | unlink out input => exact h.of_sameIds (sameIds_call fun node => by simp)
  | remove toRemove => exact h.of_sameIds (sameIds_call fun node => by simp)

end Calls

/-! ### Connections filed under ids -/

/-- `walk t` is an order in which the `Node::getConnectionMap` of `t` can be gone through: its keys
are the nodes of the subtree. -/
def IsWalk (s : PipelineImpl N O I P) (walk : N → List N) : Prop :=
  ∀ t m, m ∈ walk t ↔ m ∈ s.nodeMap.subtree t

def getConnectionMap (s : PipelineImpl N O I P) (walk : N → List N) :
    ℤ → Option (List (ConnectionInternal O I)) :=
  (s.nodes.flatMap walk).foldl (fun map n => Function.update map (s.id n) (some (s.connections n)))
    fun _ => none

def getConnectionsInternal (s : PipelineImpl N O I P) (walk : N → List N) :
    List (ConnectionInternal O I) :=
  ((s.nodes.flatMap walk).map s.id).dedup.flatMap fun id => (s.getConnectionMap walk id).getD []

section ConnectionMap

omit [DecidableEq N] [DecidableEq P]

theorem isWalk_subtree (s : PipelineImpl N O I P) : s.IsWalk s.nodeMap.subtree :=
  fun _ _ => Iff.rfl

theorem IsWalk.mem_iff {walk : N → List N} (hwalk : s.IsWalk walk) {m : N} :
    m ∈ s.nodes.flatMap walk ↔ m ∈ s.getAllNodes := by
  rw [getAllNodes_eq, List.mem_flatMap, List.mem_flatMap]
  simp only [hwalk _ m]

/-- Filing the values of a list under keys: a key has the value of the last of its entries. -/
theorem foldl_update_eq {α β κ : Type*} [DecidableEq κ] (key : α → κ) (value : α → β) (l : List α)
    (map : κ → Option β) (k : κ) :
    l.foldl (fun map a => Function.update map (key a) (some (value a))) map k =
      ((l.reverse.find? fun a => key a = k).map value).or (map k) := by
  induction l generalizing map with
  | nil => rfl
  | cons a l ih =>
    rw [List.foldl_cons, ih, List.reverse_cons, List.find?_append, Function.update_apply]
    cases l.reverse.find? fun a => key a = k with
    | some b => rfl
    | none =>
      by_cases hk : key a = k
      · simp [hk]
      · simp [hk, Ne.symm hk]

/-- What is filed under an id comes from a node with that id. -/
theorem exists_of_getConnectionMap {walk : N → List N} (hwalk : s.IsWalk walk) {id : ℤ}
    {connections : List (ConnectionInternal O I)}
    (h : s.getConnectionMap walk id = some connections) :
    ∃ m ∈ s.getAllNodes, s.id m = id ∧ s.connections m = connections := by
  rw [getConnectionMap, foldl_update_eq, Option.or_none, Option.map_eq_some_iff] at h
  obtain ⟨m, hfind, rfl⟩ := h
  have hmem := List.mem_of_find?_eq_some hfind
  have hid := List.find?_some hfind
  exact ⟨m, hwalk.mem_iff.1 (List.mem_reverse.1 hmem), by simpa using hid, rfl⟩

/-- With different ids every node finds its connections again. -/
theorem Identified.getConnectionMap_eq (h : s.Identified) {walk : N → List N}
    (hwalk : s.IsWalk walk) {m : N} (hm : m ∈ s.getAllNodes) :
    s.getConnectionMap walk (s.id m) = some (s.connections m) := by
  cases hmap : s.getConnectionMap walk (s.id m) with
  | none =>
    rw [getConnectionMap, foldl_update_eq, Option.or_none, Option.map_eq_none_iff,
      List.find?_eq_none] at hmap
    exact absurd (decide_eq_true rfl) (hmap m (List.mem_reverse.2 (hwalk.mem_iff.2 hm)))
  | some connections =>
    obtain ⟨m', hm', hid, rfl⟩ := exists_of_getConnectionMap hwalk hmap
    rw [h.injective hm' hm hid]

/-- **With different ids no connection is lost**, and none is made up. -/
theorem Identified.mem_getConnectionsInternal (h : s.Identified) {walk : N → List N}
    (hwalk : s.IsWalk walk) {c : ConnectionInternal O I} :
    c ∈ s.getConnectionsInternal walk ↔ ∃ m ∈ s.getAllNodes, c ∈ s.connections m := by
  rw [getConnectionsInternal, List.mem_flatMap]
  constructor
  · rintro ⟨id, -, hc⟩
    cases hmap : s.getConnectionMap walk id with
    | none => simp [hmap] at hc
    | some connections =>
      rw [hmap, Option.getD_some] at hc
      obtain ⟨m, hm, -, rfl⟩ := exists_of_getConnectionMap hwalk hmap
      exact ⟨m, hm, hc⟩
  · rintro ⟨m, hm, hc⟩
    refine ⟨s.id m, ?_, ?_⟩
    · rw [List.mem_dedup, List.mem_map]
      exact ⟨m, hwalk.mem_iff.2 hm, rfl⟩
    · rwa [h.getConnectionMap_eq hwalk hm, Option.getD_some]

end ConnectionMap

end DepthaiCore.PipelineImpl
