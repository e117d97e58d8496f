import DepthaiCore.Pipeline.Assembly

/-!
# The identity of nodes

A node that is reached from a pipeline should belong to it, have an id of its own, and know the id
of the node above it. The walk of `PipelineImpl::add` sees to that for what is below the node at
that time. It goes wrong in two ways: what `Node::add` attaches later below a node of the pipeline
is never walked through, and a walk that comes to a node of another pipeline throws after it has
changed the nodes before.
-/

namespace DepthaiCore

variable {N O I P : Type*} [DecidableEq N] [DecidableEq P]

/-! ### The walk and the ids of parents -/

namespace PipelineImpl

variable {s : PipelineImpl N O I P}

theorem addVisitParents_fst (n : N) (a : PipelineImpl N O I P × (N → ℤ)) :
    (addVisitParents n a).1.1 = (addVisit n a.1).1 := by
  rw [addVisitParents]
  rcases addVisit n a.1 with ⟨t, _ | e⟩ <;> rfl

theorem addVisitParents_snd (n : N) (a : PipelineImpl N O I P × (N → ℤ)) :
    (addVisitParents n a).2 = (addVisit n a.1).2 := by
  rw [addVisitParents]
  rcases addVisit n a.1 with ⟨t, _ | e⟩ <;> rfl

/-- A visit that does not throw writes the id of its node into the children. -/
theorem addVisitParents_parentId (n c : N) (a : PipelineImpl N O I P × (N → ℤ)) :
    (addVisitParents n a).1.2 c =
      if (addVisit n a.1).2 = none ∧ c ∈ a.1.nodeMap.children n then (addVisit n a.1).1.id n
      else a.2 c := by
  have hgraph := sameGraph_addVisit (s := a.1) n
  rw [addVisitParents]
  generalize addVisit n a.1 = r at hgraph
  rcases r with ⟨t, _ | e⟩
  · have hmap : t.nodeMap = a.1.nodeMap := hgraph.nodeMap
    simp only [hmap, true_and]
  · rfl

theorem addWalk_fst (s : PipelineImpl N O I P) (parentId : N → ℤ) (node : N) :
    ((s.addWalk parentId node).1.1, (s.addWalk parentId node).2) = s.addSearch node :=
  s.nodeMap.search_map Prod.fst
    (fun n a => by rw [addVisitParents_fst, addVisitParents_snd]) _ _ (s, parentId)

/-- The walk leaves the nodes alone that are not right below what it goes through. -/
theorem addWalk_of_notMem {parentId : N → ℤ} {node c : N}
    (hc : ∀ m ∈ s.nodeMap.subtree node, c ∉ s.nodeMap.children m) :
    (s.addWalk parentId node).1.2 c = parentId c := by
  have hkeep : ∀ n (a : PipelineImpl N O I P × (N → ℤ)), n ∈ s.nodeMap.subtree node →
      a.1.nodeMap = s.nodeMap ∧ a.2 c = parentId c →
        (addVisitParents n a).1.1.nodeMap = s.nodeMap ∧
          (addVisitParents n a).1.2 c = parentId c := by
    rintro n a hn ⟨hmap, ha⟩
    refine ⟨?_, ?_⟩
    · rw [addVisitParents_fst]
      exact (sameGraph_addVisit n).nodeMap.trans hmap
    · rw [addVisitParents_parentId, hmap, if_neg fun h => hc n hn h.2, ha]
  exact (s.nodeMap.search_invariant_of_mem hkeep _ (by simp) ⟨rfl, rfl⟩).2

theorem id_addVisit_of_ne {n m : N} (hm : s.id m ≠ -1) : (addVisit n s).1.id m = s.id m := by
  rw [id_addVisit, if_neg]
  rintro ⟨rfl, hnew⟩
  exact hm hnew

theorem Ids.id_addVisit_ne (h : s.Ids) (n : N) : (PipelineImpl.addVisit n s).1.id n ≠ -1 := by
  have hnonneg := h.nonneg
  rw [id_addVisit]
  split_ifs <;> grind

/-- It writes the id of a node into its children, if they have no other node above them. -/
theorem Ids.addWalk_eq (h : s.Ids) {parentId : N → ℤ} {node : N}
    (hok : (s.addSearch node).2 = none)
    (hunique : ∀ m ∈ s.nodeMap.subtree node, ∀ m' ∈ s.nodeMap.subtree node,
      ∀ c ∈ s.nodeMap.children m, c ∈ s.nodeMap.children m' → m = m') :
    ∀ m ∈ s.nodeMap.subtree node, ∀ c ∈ s.nodeMap.children m,
      (s.addWalk parentId node).1.2 c = (s.addSearch node).1.id m := by
  let Inv (a : PipelineImpl N O I P × (N → ℤ)) : Prop := a.1.nodeMap = s.nodeMap ∧ a.1.Ids
  let Done (m : N) (a : PipelineImpl N O I P × (N → ℤ)) : Prop :=
    a.1.id m ≠ -1 ∧ ∀ c ∈ s.nodeMap.children m, a.2 c = a.1.id m
  have hinv : ∀ n (a : PipelineImpl N O I P × (N → ℤ)), n ∈ s.nodeMap.subtree node →
      Inv a → Inv (addVisitParents n a).1 := by
    rintro n a - ⟨hmap, ha⟩
    show (addVisitParents n a).1.1.nodeMap = _ ∧ (addVisitParents n a).1.1.Ids
    rw [addVisitParents_fst]
    exact ⟨(sameGraph_addVisit n).nodeMap.trans hmap, ha.addVisit n⟩
  have hdone : ∀ n (a : PipelineImpl N O I P × (N → ℤ)), n ∈ s.nodeMap.subtree node →
      Inv a → (addVisitParents n a).2 = none → Done n (addVisitParents n a).1 := by
    rintro n a - ⟨hmap, ha⟩ hvisit
    rw [addVisitParents_snd] at hvisit
    refine ⟨?_, fun c hc => ?_⟩
    · rw [addVisitParents_fst]
      exact ha.id_addVisit_ne n
    · rw [addVisitParents_fst, addVisitParents_parentId, hmap, if_pos ⟨hvisit, hc⟩]
  have hkeep : ∀ m n (a : PipelineImpl N O I P × (N → ℤ)), m ∈ s.nodeMap.subtree node →
      n ∈ s.nodeMap.subtree node → Inv a → Done m a → Done m (addVisitParents n a).1 := by
    rintro m n a hm hn ⟨hmap, ha⟩ ⟨hid, hbelow⟩
    have hkept : (PipelineImpl.addVisit n a.1).1.id m = a.1.id m := id_addVisit_of_ne hid
    refine ⟨?_, fun c hc => ?_⟩
    · rw [addVisitParents_fst]
      exact hkept.trans_ne hid
    · rw [addVisitParents_fst, addVisitParents_parentId, hmap, hkept]
      split
      · rename_i hchild
        -- A child of both is a child of one node.
        rw [hunique n hn m hm c hchild.2 hc, id_addVisit_of_ne hid]
      · exact hbelow c hc
  intro m hm
  have hwalk := s.addWalk_fst parentId node
  have hok' : (s.addWalk parentId node).2 = none := by rw [← hok, ← hwalk]
  rw [← hwalk]
  exact (s.nodeMap.search_done_of_mem hinv hdone hkeep (s := (s, parentId)) ⟨rfl, h⟩ (by simp)
    (by simp) hok' m (by simpa using hm)).2

/-- The walk changes the owners only of what it goes through. -/
theorem parent_addSearch_of_notMem {node m : N} (hm : m ∉ s.nodeMap.subtree node) :
    (s.addSearch node).1.parent m = s.parent m := by
  have hkeep : ∀ n (t : PipelineImpl N O I P), n ∈ s.nodeMap.subtree node →
      t.parent m = s.parent m → (addVisit n t).1.parent m = s.parent m := by
    intro n t hn ht
    rcases parent_addVisit (s := t) n m with hsame | ⟨rfl, -⟩
    · rw [hsame, ht]
    · exact absurd hn hm
  exact s.nodeMap.search_invariant_of_mem hkeep _ (by simp) rfl

/-- An `add` that does not throw has gone through its whole walk. -/
theorem addSearch_eq_none {node : N} (h : (s.add (some node)).2 = none) :
    (s.addSearch node).2 = none := by
  rw [add] at h
  split at h
  · cases h
  · split at h
    · cases h
    · rename_i t hsearch
      rw [hsearch]

end PipelineImpl

namespace Pipelines

variable {w : Pipelines N O I P}

/-! ### What identity asks for -/

omit [DecidableEq N] [DecidableEq P] in
/-- The node is reached from the pipeline. -/
def Live (w : Pipelines N O I P) (p : P) (m : N) : Prop :=
  m ∈ (w.get p).getAllNodes

instance (w : Pipelines N O I P) (p : P) (m : N) : Decidable (w.Live p m) :=
  inferInstanceAs (Decidable (m ∈ (w.get p).getAllNodes))

omit [DecidableEq N] [DecidableEq P] in
/-- The nodes that are reached from a pipeline belong to it, have different ids, and know the ids of
the nodes above them. Their connections are then found under the ids. -/
structure Identity (w : Pipelines N O I P) : Prop where
  parent : ∀ p m, w.Live p m → w.parent m = some p
  nonneg : ∀ p m, w.Live p m → 0 ≤ w.id m
  injective : ∀ p m m', w.Live p m → w.Live p m' → w.id m = w.id m' → m = m'
  parentId : ∀ p m, w.Live p m → ∀ c ∈ w.nodeMap.children m, w.parentId c = w.id m
  connections : ∀ p walk, (w.get p).IsWalk walk → ∀ c,
    c ∈ (w.get p).getConnectionsInternal walk ↔ ∃ m, w.Live p m ∧ c ∈ w.connections m

omit [DecidableEq N] [DecidableEq P] in
/-- No node has another id, owner or `parentId`, and the lists of the pipelines are the same. -/
structure Unchanged (w u : Pipelines N O I P) : Prop where
  id : u.id = w.id
  parent : u.parent = w.parent
  parentId : u.parentId = w.parentId
  nodes : u.nodes = w.nodes

/-- An `add` that throws changes nothing. `Node::add` does not throw. -/
def Atomic (w : Pipelines N O I P) : Step N P → Prop
  | .add p node => (w.add p node).2 ≠ none → w.Unchanged (w.add p node).1
  | .attach _ _ => True

/-- What a step must not do for the nodes to keep their identity. A node of no pipeline is added
with nothing below it that belongs to another pipeline, and with no node in the pipeline then that
has a child in common with another one. Below a node of a pipeline only what belongs to that
pipeline is attached, and a child of a node of a pipeline to no other node. -/
def StepOk (w : Pipelines N O I P) : Step N P → Prop
  | .add _ none => True
  | .add p (some node) => ¬w.Live p node → w.parent node = none →
      (∀ m ∈ w.nodeMap.subtree node, w.parent m = none ∨ w.parent m = some p) ∧
        ∀ m m', w.Live p m ∨ m ∈ w.nodeMap.subtree node →
          w.Live p m' ∨ m' ∈ w.nodeMap.subtree node →
            ∀ c ∈ w.nodeMap.children m, c ∈ w.nodeMap.children m' → m = m'
  | .attach node child =>
      (∀ p, w.Live p node → ∀ m ∈ w.nodeMap.subtree child, w.parent m = some p) ∧
        ∀ p m, w.Live p m → child ∈ w.nodeMap.children m → m = node

instance [Fintype N] [Fintype P] (w : Pipelines N O I P) (a : Step N P) : Decidable (w.StepOk a) :=
  match a with
  | .add _ none => inferInstanceAs (Decidable True)
  | .add p (some node) => inferInstanceAs (Decidable (¬w.Live p node → w.parent node = none →
      (∀ m ∈ w.nodeMap.subtree node, w.parent m = none ∨ w.parent m = some p) ∧
        ∀ m m', w.Live p m ∨ m ∈ w.nodeMap.subtree node →
          w.Live p m' ∨ m' ∈ w.nodeMap.subtree node →
            ∀ c ∈ w.nodeMap.children m, c ∈ w.nodeMap.children m' → m = m'))
  | .attach node child => inferInstanceAs (Decidable (
      (∀ p, w.Live p node → ∀ m ∈ w.nodeMap.subtree child, w.parent m = some p) ∧
        ∀ p m, w.Live p m → child ∈ w.nodeMap.children m → m = node))

omit [DecidableEq N] [DecidableEq P] in
/-- A pipeline reaches what it owns. -/
def Reaching (w : Pipelines N O I P) : Prop :=
  ∀ p m, w.parent m = some p → w.Live p m

/-! ### What is reached -/

omit [DecidableEq N] [DecidableEq P] in
theorem live_iff {p : P} {m : N} :
    w.Live p m ↔ ∃ t ∈ w.nodes p, m ∈ w.nodeMap.subtree t := by
  rw [Live, PipelineImpl.getAllNodes_eq, List.mem_flatMap]
  rfl

omit [DecidableEq N] [DecidableEq P] in
theorem Live.below {p : P} {m m' : N} (h : w.Live p m) (hm : m' ∈ w.nodeMap.subtree m) :
    w.Live p m' := by
  rw [live_iff] at h ⊢
  obtain ⟨t, ht, hsub⟩ := h
  rw [Hierarchy.mem_subtree_iff] at hsub hm
  exact ⟨t, ht, (w.nodeMap.mem_subtree_iff).2 (hsub.trans hm)⟩

omit [DecidableEq N] [DecidableEq P] in
theorem Live.child {p : P} {m c : N} (h : w.Live p m) (hc : c ∈ w.nodeMap.children m) :
    w.Live p c :=
  h.below ((w.nodeMap.mem_subtree_iff).2 (.single hc))

omit [DecidableEq N] [DecidableEq P] in
theorem Sane.identity_iff (h : w.Sane) :
    w.Identity ↔ (∀ p m, w.Live p m → w.parent m = some p) ∧
      ∀ p m, w.Live p m → ∀ c ∈ w.nodeMap.children m, w.parentId c = w.id m := by
  constructor
  · intro hid
    exact ⟨hid.parent, hid.parentId⟩
  · rintro ⟨hparent, hparentId⟩
    have hidentified : ∀ p, (w.get p).Identified := fun p =>
      ⟨h.ids p, hparent p, fun m hm => h.assigned m (by rw [hparent p m hm]; simp)⟩
    exact
      { parent := hparent
        nonneg := fun p m hm => (hidentified p).nonneg hm
        injective := fun p m m' hm hm' => (hidentified p).injective hm hm'
        parentId := hparentId
        connections := fun p walk hwalk c => (hidentified p).mem_getConnectionsInternal hwalk }

/-! ### An `add` that changes nothing -/

omit [DecidableEq N] in
theorem set_eq_self {p : P} {s : PipelineImpl N O I P} {parentId : N → ℤ}
    (hs : s = w.get p) (hparentId : parentId = w.parentId) (hself : s.self = p)
    (hkept : ∀ m q, w.parent m = some q → s.parent m = some q) :
    w.set p s parentId hself hkept = w := by
  subst hs hparentId
  simp [set, get]

omit [DecidableEq N] [DecidableEq P] in
theorem Unchanged.refl (w : Pipelines N O I P) : w.Unchanged w :=
  ⟨rfl, rfl, rfl, rfl⟩

theorem add_eq_self {p : P} {node : Option N} (hs : ((w.get p).add node).1 = w.get p)
    (hparentId : (w.get p).addParentId w.parentId node = w.parentId) : (w.add p node).1 = w :=
  set_eq_self hs hparentId (PipelineImpl.self_add (w.get p) node)
    fun _ _ hm => PipelineImpl.parent_add_of_some (s := w.get p) hm

theorem add_none (w : Pipelines N O I P) (p : P) : (w.add p none).1 = w :=
  add_eq_self rfl rfl

theorem add_of_live {p : P} {node : N} (h : w.Live p node) : (w.add p (some node)).1 = w := by
  have hmem : node ∈ (w.get p).getAllNodes := h
  refine add_eq_self ?_ (if_pos hmem)
  rw [PipelineImpl.add, if_pos hmem]

/-- The walk ends at its first node if that belongs to another pipeline. -/
theorem add_of_foreign (h : w.Sane) {p q : P} {node : N} (hlive : ¬w.Live p node)
    (hq : w.parent node = some q) (hne : q ≠ p) : (w.add p (some node)).1 = w := by
  have hid : (w.get p).id node ≠ -1 := h.assigned node (by simp [hq])
  have hvisit : PipelineImpl.addVisit node (w.get p) = (w.get p,
      some "Cannot add a node that is already part of another pipeline") := by
    have hparent : (w.get p).parent node = some q := hq
    have hforeign : q ≠ (w.get p).self := hne
    simp only [PipelineImpl.addVisit, hparent]
    rw [if_pos hforeign, PipelineImpl.assignId, if_neg hid]
  have hwalk : ((w.get p).addWalk w.parentId node).1 = (w.get p, w.parentId) := by
    rw [PipelineImpl.addWalk, Hierarchy.subtree, List.length_cons, Hierarchy.search]
    simp only [PipelineImpl.addVisitParents, hvisit]
  have hsearch : ((w.get p).addSearch node).1 = w.get p := by
    rw [← (w.get p).addWalk_fst w.parentId node]
    exact congrArg Prod.fst hwalk
  have herror : ((w.get p).addSearch node).2 ≠ none := by
    intro hok
    rcases ((w.get p).isNone_addSearch node).1 hok node ((w.get p).nodeMap.mem_subtree_self node)
      with hnone | hself
    · exact absurd (hq.symm.trans hnone) (by simp)
    · exact hne (Option.some.inj (hq.symm.trans hself))
  refine add_eq_self ?_ ?_
  · rcases (w.get p).add_cases (some node) with hsame | ⟨n, hn, hsame | ⟨hok, -⟩⟩
    · exact hsame
    · cases hn
      rw [hsame, hsearch]
    · cases hn
      exact absurd hok herror
  · have hnew : node ∉ (w.get p).getAllNodes := hlive
    rw [PipelineImpl.addParentId, if_neg hnew, hwalk]

/-! ### An `add` that throws halfway -/

/-- A node of no pipeline has an id after the `add`, also if that throws. -/
theorem id_add_ne (h : w.Sane) {p : P} {node : N} (hlive : ¬w.Live p node) :
    (w.add p (some node)).1.id node ≠ -1 := by
  have hfirst : (PipelineImpl.addVisit node (w.get p)).1.id node ≠ -1 :=
    (h.ids p).id_addVisit_ne node
  have hsearch : ((w.get p).addSearch node).1.id node ≠ -1 := by
    rw [PipelineImpl.addSearch, Hierarchy.subtree, List.length_cons]
    refine (w.get p).nodeMap.search_head (I := fun t : PipelineImpl N O I P => t.id node ≠ -1) (fun n t ht => ?_) _ hfirst
    exact (PipelineImpl.id_addVisit_of_ne ht).trans_ne ht
  have hnew : node ∉ (w.get p).getAllNodes := hlive
  show ((w.get p).add (some node)).1.id node ≠ -1
  rw [PipelineImpl.add, if_neg hnew]
  split
  · rename_i t e heq
    rwa [heq] at hsearch
  · rename_i t heq
    rw [heq] at hsearch
    exact hsearch

/-- An `add` of a node of no pipeline that throws is not atomic. -/
theorem not_atomic_add (h : w.Sane) {p : P} {node : N} (hlive : ¬w.Live p node)
    (hparent : w.parent node = none) (hthrow : (w.add p (some node)).2 ≠ none) :
    ¬w.Atomic (.add p (some node)) := by
  intro hatomic
  have hid : w.id node = -1 := (h.ids p).unowned node hparent
  refine id_add_ne h hlive (p := p) ?_
  rw [(hatomic hthrow).id, hid]

/-! ### An `add` that is let through -/

section Accepted

variable {p : P} {node : N} (hlive : ¬w.Live p node)
  (howner : ∀ m ∈ w.nodeMap.subtree node, w.parent m = none ∨ w.parent m = some p)

include hlive howner

/-- What the `add` leaves of the graph: the node is at the end of the list. -/
theorem graph_add : (w.add p (some node)).2 = none ∧
    (w.add p (some node)).1.nodeMap = w.nodeMap ∧
      (w.add p (some node)).1.nodes = Function.update w.nodes p (w.nodes p ++ [node]) ∧
        (w.add p (some node)).1.id = ((w.get p).addSearch node).1.id ∧
          (w.add p (some node)).1.parent = ((w.get p).addSearch node).1.parent := by
  have hnew : node ∉ (w.get p).getAllNodes := hlive
  have hok := ((w.get p).isNone_addSearch node).2 howner
  have hgraph := (w.get p).sameGraph_addSearch node
  have hnode : ((w.get p).addSearch node).1.parent node = some ((w.get p).addSearch node).1.self := by
    rw [(w.get p).parent_addSearch hok node ((w.get p).nodeMap.mem_subtree_self node), hgraph.self]
  have hadd : (w.get p).add (some node) =
      (((w.get p).addSearch node).1.pushNode node hnode, none) := by
    rw [PipelineImpl.add, if_neg hnew]
    split
    · rename_i t e hsearch
      rw [hsearch] at hok
      cases hok
    · rename_i t hsearch
      simp only [hsearch]
  refine ⟨?_, ?_, ?_, ?_, ?_⟩
  · show ((w.get p).add (some node)).2 = none
    rw [hadd]
  · show ((w.get p).add (some node)).1.nodeMap = w.nodeMap
    rw [hadd]
    exact hgraph.nodeMap
  · show Function.update w.nodes p ((w.get p).add (some node)).1.nodes = _
    rw [hadd]
    show Function.update w.nodes p (((w.get p).addSearch node).1.nodes ++ [node]) = _
    rw [hgraph.nodes]
    rfl
  · show ((w.get p).add (some node)).1.id = _
    rw [hadd]
    rfl
  · show ((w.get p).add (some node)).1.parent = _
    rw [hadd]
    rfl

theorem live_add (q : P) (m : N) :
    (w.add p (some node)).1.Live q m ↔ w.Live q m ∨ q = p ∧ m ∈ w.nodeMap.subtree node := by
  obtain ⟨-, hmap, hnodes, -⟩ := graph_add hlive howner
  rw [live_iff, live_iff, hmap, hnodes]
  by_cases hq : q = p
  · subst hq
    simp [or_and_right, exists_or]
  · simp [hq]

theorem parent_add_of_mem {m : N} (hm : m ∈ w.nodeMap.subtree node) :
    (w.add p (some node)).1.parent m = some p := by
  obtain ⟨-, -, -, -, hparent⟩ := graph_add hlive howner
  rw [hparent]
  exact (w.get p).parent_addSearch (((w.get p).isNone_addSearch node).2 howner) m hm

omit howner in
theorem parentId_add_of_notMem {c : N}
    (hc : ∀ m ∈ w.nodeMap.subtree node, c ∉ w.nodeMap.children m) :
    (w.add p (some node)).1.parentId c = w.parentId c := by
  have hnew : node ∉ (w.get p).getAllNodes := hlive
  show (w.get p).addParentId w.parentId (some node) c = _
  rw [PipelineImpl.addParentId, if_neg hnew]
  exact PipelineImpl.addWalk_of_notMem hc

theorem parentId_add_of_mem (h : w.Sane)
    (hunique : ∀ m ∈ w.nodeMap.subtree node, ∀ m' ∈ w.nodeMap.subtree node,
      ∀ c ∈ w.nodeMap.children m, c ∈ w.nodeMap.children m' → m = m')
    {m c : N} (hm : m ∈ w.nodeMap.subtree node) (hc : c ∈ w.nodeMap.children m) :
    (w.add p (some node)).1.parentId c = (w.add p (some node)).1.id m := by
  have hnew : node ∉ (w.get p).getAllNodes := hlive
  obtain ⟨-, -, -, hid, -⟩ := graph_add hlive howner
  show (w.get p).addParentId w.parentId (some node) c = _
  rw [PipelineImpl.addParentId, if_neg hnew, hid]
  exact (h.ids p).addWalk_eq (((w.get p).isNone_addSearch node).2 howner) hunique m hm c hc

/-- With the `add` every node that is reached belongs to the pipeline. -/
theorem parent_add_of_live (hid : w.Identity) (q : P) (m : N)
    (hm : (w.add p (some node)).1.Live q m) : (w.add p (some node)).1.parent m = some q := by
  rcases (live_add hlive howner q m).1 hm with hbefore | ⟨rfl, hnew⟩
  · exact PipelineImpl.parent_add_of_some (s := w.get p) (hid.parent q m hbefore)
  · exact parent_add_of_mem hlive howner hnew

/-- **The nodes keep their identity exactly when none in the pipeline then has a child in common
with another one.** -/
theorem identity_add_iff (h : w.Sane) (hid : w.Identity) :
    (w.add p (some node)).1.Identity ↔
      ∀ m m', w.Live p m ∨ m ∈ w.nodeMap.subtree node →
        w.Live p m' ∨ m' ∈ w.nodeMap.subtree node →
          ∀ c ∈ w.nodeMap.children m, c ∈ w.nodeMap.children m' → m = m' := by
  have hmap : (w.add p (some node)).1.nodeMap = w.nodeMap := (graph_add hlive howner).2.1
  have hafter : ∀ m, (w.add p (some node)).1.Live p m ↔
      w.Live p m ∨ m ∈ w.nodeMap.subtree node := by
    intro m
    rw [live_add hlive howner, and_iff_right rfl]
  constructor
  · intro hnew m m' hm hm' c hc hc'
    rw [← hafter] at hm hm'
    rw [← hmap] at hc hc'
    refine hnew.injective p m m' hm hm' ?_
    rw [← hnew.parentId p m hm c hc, hnew.parentId p m' hm' c hc']
  · intro hunique
    refine (h.add p (some node)).identity_iff.2
      ⟨parent_add_of_live hlive howner hid, fun q m hm c hc => ?_⟩
    rw [hmap] at hc
    have hsub : ∀ m ∈ w.nodeMap.subtree node, ∀ m' ∈ w.nodeMap.subtree node,
        ∀ c ∈ w.nodeMap.children m, c ∈ w.nodeMap.children m' → m = m' :=
      fun m hm m' hm' => hunique m m' (.inr hm) (.inr hm')
    rcases (live_add hlive howner q m).1 hm with hbefore | ⟨rfl, hnew⟩
    · by_cases hbelow : q = p ∧ m ∈ w.nodeMap.subtree node
      · exact parentId_add_of_mem hlive howner h hsub hbelow.2 hc
      · -- The walk does not come to the node, nor to another one above the child.
        have hapart : ∀ m' ∈ w.nodeMap.subtree node, c ∉ w.nodeMap.children m' := by
          intro m' hm' hc'
          have hc'' : c ∈ w.nodeMap.subtree node :=
            (w.nodeMap.mem_subtree_iff).2 (((w.nodeMap.mem_subtree_iff).1 hm').tail hc')
          have hparent := hid.parent q c (hbefore.child hc)
          rcases howner c hc'' with hnone | hp
          · rw [hparent] at hnone
            cases hnone
          · obtain rfl : q = p := Option.some.inj (hparent.symm.trans hp)
            obtain rfl := hunique m m' (.inl hbefore) (.inr hm') c hc hc'
            exact hbelow ⟨rfl, hm'⟩
        have hassigned : w.id m ≠ -1 := h.assigned m (by rw [hid.parent q m hbefore]; simp)
        have hkept : (w.add p (some node)).1.id m = w.id m :=
          PipelineImpl.id_add_of_ne (s := w.get p) hassigned
        rw [parentId_add_of_notMem hlive hapart, hkept, hid.parentId q m hbefore c hc]
    · exact parentId_add_of_mem hlive howner h hsub hnew hc

end Accepted

/-! ### Attaching a node -/

section Attach

variable {node child : N} (hacyclic : node ∉ w.nodeMap.subtree child)

include hacyclic

omit [DecidableEq P] in
theorem live_attach (p : P) (m : N) : (w.attach node child hacyclic).Live p m ↔
    w.Live p m ∨ w.Live p node ∧ m ∈ w.nodeMap.subtree child := by
  simp only [live_iff]
  constructor
  · rintro ⟨t, ht, hm⟩
    rcases (w.nodeMap.mem_subtree_attach hacyclic).1 hm with hm | ⟨hnode, hm⟩
    · exact .inl ⟨t, ht, hm⟩
    · exact .inr ⟨⟨t, ht, hnode⟩, hm⟩
  · rintro (⟨t, ht, hm⟩ | ⟨⟨t, ht, hnode⟩, hm⟩)
    · exact ⟨t, ht, (w.nodeMap.mem_subtree_attach hacyclic).2 (.inl hm)⟩
    · exact ⟨t, ht, (w.nodeMap.mem_subtree_attach hacyclic).2 (.inr ⟨hnode, hm⟩)⟩

omit [DecidableEq P] in
/-- **The nodes keep their identity exactly when what comes below a node of a pipeline belongs to
the pipeline, and the child is below no other node of one.** -/
theorem identity_attach_iff (h : w.Sane) (hreach : w.Reaching) (hid : w.Identity) :
    (w.attach node child hacyclic).Identity ↔
      (∀ p, w.Live p node → ∀ m ∈ w.nodeMap.subtree child, w.parent m = some p) ∧
        ∀ p m, w.Live p m → child ∈ w.nodeMap.children m → m = node := by
  have hchild : ∀ {m c : N}, c ∈ (w.attach node child hacyclic).nodeMap.children m ↔
      c ∈ w.nodeMap.children m ∨ m = node ∧ c = child := by
    intro m c
    show c ∈ (w.nodeMap.attach node child hacyclic).children m ↔ _
    rw [Hierarchy.children_attach]
    by_cases hm : m = node <;> simp [hm]
  have hafter : ∀ p m, w.Live p m → (w.attach node child hacyclic).Live p m :=
    fun p m hm => (live_attach hacyclic p m).2 (.inl hm)
  constructor
  · intro hnew
    refine ⟨fun p hp m hm => hnew.parent p m ((live_attach hacyclic p m).2 (.inr ⟨hp, hm⟩)), ?_⟩
    intro p m hm hc
    have hsame : w.id node = w.id m := by
      rw [← show (w.attach node child hacyclic).parentId child = w.id node from
        Function.update_self ..]
      exact hnew.parentId p m (hafter p m hm) child (hchild.2 (.inl hc))
    -- A node that has an id is in a pipeline, and the child belongs to that one only.
    cases hparent : w.parent node with
    | none =>
      have hnone : w.id node = -1 := (h.ids p).unowned node hparent
      have hnonneg := hid.nonneg p m hm
      omega
    | some q =>
      have hlive := hreach q node hparent
      have hq := hnew.parent q child
        ((live_attach hacyclic q child).2 (.inr ⟨hlive, w.nodeMap.mem_subtree_self child⟩))
      have hp := hid.parent p child (hm.child hc)
      obtain rfl : p = q := Option.some.inj (hp.symm.trans hq)
      exact hid.injective p m node hm hlive hsame.symm
  · rintro ⟨howned, hunique⟩
    -- Nothing is reached that was not reached before.
    have hsame : ∀ p m, (w.attach node child hacyclic).Live p m ↔ w.Live p m := by
      refine fun p m => ⟨fun hm => ?_, hafter p m⟩
      rcases (live_attach hacyclic p m).1 hm with hm | ⟨hnode, hm⟩
      · exact hm
      · exact hreach p m (howned p hnode m hm)
    refine (h.attach hacyclic).identity_iff.2 ⟨fun p m hm => ?_, fun p m hm c hc => ?_⟩
    · exact hid.parent p m ((hsame p m).1 hm)
    · have hbefore := (hsame p m).1 hm
      show Function.update w.parentId child (w.id node) c = w.id m
      by_cases hcc : c = child
      · subst hcc
        rw [Function.update_self]
        rcases hchild.1 hc with hc | ⟨rfl, -⟩
        · rw [hunique p m hbefore hc]
        · rfl
      · rw [Function.update_of_ne hcc]
        rcases hchild.1 hc with hc | ⟨-, rfl⟩
        · exact hid.parentId p m hbefore c hc
        · exact absurd rfl hcc

end Attach

/-! ### Steps and runs -/

variable {u : Pipelines N O I P}

/-- **A step leaves the nodes their identity, and changes nothing if it throws, exactly when it is
`StepOk`.** -/
theorem identity_step_iff (h : w.Sane) (hreach : w.Reaching) (hid : w.Identity) {a : Step N P}
    (hstep : w.step a = some u) : (w.Atomic a ∧ u.Identity) ↔ w.StepOk a := by
  cases a with
  | add p node =>
    obtain rfl := Option.some.inj hstep
    have hkept : (w.add p node).1 = w → ((w.Atomic (.add p node)) ∧ (w.add p node).1.Identity) := by
      intro heq
      refine ⟨fun _ => ?_, ?_⟩
      · rw [heq]
        exact .refl w
      · rwa [heq]
    cases node with
    | none => exact iff_of_true (hkept (add_none w p)) trivial
    | some node =>
      by_cases hlive : w.Live p node
      · exact iff_of_true (hkept (add_of_live hlive)) fun hnot => absurd hlive hnot
      · cases hparent : w.parent node with
        | some q =>
          have hne : q ≠ p := by
            rintro rfl
            exact hlive (hreach q node hparent)
          refine iff_of_true (hkept (add_of_foreign h hlive hparent hne)) fun _ hnone => ?_
          rw [hparent] at hnone
          cases hnone
        | none =>
          by_cases howner : ∀ m ∈ w.nodeMap.subtree node, w.parent m = none ∨ w.parent m = some p
          · have hok := (graph_add hlive howner).1
            rw [identity_add_iff hlive howner h hid]
            constructor
            · rintro ⟨-, hunique⟩ - -
              exact ⟨howner, hunique⟩
            · intro hstepOk
              exact ⟨fun hthrow => absurd hok hthrow, (hstepOk hlive hparent).2⟩
          · have hthrow : (w.add p (some node)).2 ≠ none := by
              intro hok
              have hsearch := PipelineImpl.addSearch_eq_none (s := w.get p) hok
              exact howner (((w.get p).isNone_addSearch node).1 hsearch)
            refine iff_of_false (fun hboth => not_atomic_add h hlive hparent hthrow hboth.1) ?_
            exact fun hstepOk => howner (hstepOk hlive hparent).1
  | attach node child =>
    by_cases hacyclic : node ∉ w.nodeMap.subtree child
    · rw [step, dif_pos hacyclic] at hstep
      obtain rfl := Option.some.inj hstep
      rw [identity_attach_iff hacyclic h hreach hid]
      exact ⟨fun hboth => hboth.2, fun hstepOk => ⟨trivial, hstepOk⟩⟩
    · rw [step, dif_neg hacyclic] at hstep
      cases hstep

theorem Sane.step (h : w.Sane) {a : Step N P} (hstep : w.step a = some u) : u.Sane := by
  cases a with
  | add p node =>
    obtain rfl := Option.some.inj hstep
    exact h.add p node
  | attach node child =>
    by_cases hacyclic : node ∉ w.nodeMap.subtree child
    · rw [Pipelines.step, dif_pos hacyclic] at hstep
      obtain rfl := Option.some.inj hstep
      exact h.attach hacyclic
    · rw [Pipelines.step, dif_neg hacyclic] at hstep
      cases hstep

/-- After a step that is `StepOk` the pipelines still reach what they own. -/
theorem Reaching.step (hreach : w.Reaching) (h : w.Sane) {a : Step N P} (hok : w.StepOk a)
    (hstep : w.step a = some u) : u.Reaching := by
  intro q m hm
  cases a with
  | add p node =>
    obtain rfl := Option.some.inj hstep
    cases node with
    | none =>
      rw [add_none] at hm ⊢
      exact hreach q m hm
    | some node =>
      by_cases hlive : w.Live p node
      · rw [add_of_live hlive] at hm ⊢
        exact hreach q m hm
      · cases hparent : w.parent node with
        | some p' =>
          have hne : p' ≠ p := by
            rintro rfl
            exact hlive (hreach p' node hparent)
          rw [add_of_foreign h hlive hparent hne] at hm ⊢
          exact hreach q m hm
        | none =>
          obtain ⟨howner, -⟩ := hok hlive hparent
          obtain ⟨-, -, -, -, howners⟩ := graph_add hlive howner
          rw [live_add hlive howner]
          by_cases hbelow : m ∈ w.nodeMap.subtree node
          · have hp := parent_add_of_mem hlive howner hbelow
            exact .inr ⟨Option.some.inj (hm.symm.trans hp), hbelow⟩
          · refine .inl (hreach q m ?_)
            rw [howners] at hm
            exact ((w.get p).parent_addSearch_of_notMem hbelow).symm.trans hm
  | attach node child =>
    by_cases hacyclic : node ∉ w.nodeMap.subtree child
    · rw [Pipelines.step, dif_pos hacyclic] at hstep
      obtain rfl := Option.some.inj hstep
      exact (live_attach hacyclic q m).2 (.inl (hreach q m hm))
    · rw [Pipelines.step, dif_neg hacyclic] at hstep
      cases hstep

section Runs

variable {isBuild : P → Bool} {nodeMap : Hierarchy N}
  {connections : N → List (ConnectionInternal O I)} {connectedInputs : O → List I}
  {connectedOutputs : I → List O} {tr : List (Pipelines N O I P × Step N P)}

/-- **Along a run the nodes have their identity in every state, and no `add` that throws changes
anything, exactly when every step is `StepOk`.** -/
theorem identity_run_iff
    (hrun : Transition.Run step
      (fresh isBuild nodeMap connections connectedInputs connectedOutputs) tr w) :
    ((∀ q ∈ tr, q.1.Identity ∧ q.1.Atomic q.2) ∧ w.Identity) ↔ ∀ q ∈ tr, q.1.StepOk q.2 := by
  have hsane := sane_fresh isBuild nodeMap connections connectedInputs connectedOutputs
  suffices h : w.Sane ∧ ((∀ q ∈ tr, q.1.StepOk q.2) → w.Reaching) ∧
      (((∀ q ∈ tr, q.1.Identity ∧ q.1.Atomic q.2) ∧ w.Identity) ↔ ∀ q ∈ tr, q.1.StepOk q.2) from
    h.2.2
  induction hrun with
  | nil =>
    have hempty : ∀ p m,
        ¬(fresh isBuild nodeMap connections connectedInputs connectedOutputs).Live p m := by
      intro p m hm
      cases hm
    have hreach : (fresh isBuild nodeMap connections connectedInputs connectedOutputs).Reaching := by
      intro p m hm
      cases hm
    exact ⟨hsane, fun _ => hreach, by simp [hsane.identity_iff, hempty]⟩
  | @snoc t u a tr hrun hstep ih =>
    obtain ⟨ht, hreach, hiff⟩ := ih
    simp only [List.forall_mem_append, List.forall_mem_singleton]
    refine ⟨ht.step hstep, fun hok => (hreach hok.1).step ht hok.2 hstep, ?_⟩
    constructor
    · rintro ⟨⟨htr, hid, hatomic⟩, hu⟩
      have hoks := hiff.1 ⟨htr, hid⟩
      exact ⟨hoks, (identity_step_iff ht (hreach hoks) hid hstep).1 ⟨hatomic, hu⟩⟩
    · rintro ⟨hoks, hok⟩
      obtain ⟨htr, hid⟩ := hiff.2 hoks
      obtain ⟨hatomic, hu⟩ := (identity_step_iff ht (hreach hoks) hid hstep).2 hok
      exact ⟨⟨htr, hid, hatomic⟩, hu⟩

end Runs

/-- Two pipelines and three nodes, none of them below another. -/
def threeNodes : Pipelines (Fin 3) Unit Unit Bool :=
  fresh (fun _ => false) ⟨fun _ => [], fun _ => 0, by simp⟩ (fun _ => []) (fun _ => []) fun _ => []

/-- A node that is attached before its parent is added has its identity. -/
theorem identity_run_attach :
    let steps : List (Step (Fin 3) Bool) := [.attach 0 1, .add false (some 0), .add true (some 2)]
    let run := (Transition.exec step threeNodes steps).get (by decide)
    (∀ q ∈ run.1, q.1.Identity ∧ q.1.Atomic q.2) ∧ run.2.Identity :=
  (identity_run_iff (Transition.Run.of_isSome _)).2 (by decide)

/-- A node that is attached after its parent was added has no owner. And an `add` of a node with one
of another pipeline below it throws and leaves the node in neither. -/
theorem identity_run_after :
    ¬((Transition.exec step threeNodes
        [.add false (some 0), .attach 0 1]).get (by decide)).2.Identity ∧
      ¬((Transition.exec step threeNodes
        [.add true (some 1), .attach 0 1]).get (by decide)).2.Atomic (.add false (some 0)) := by
  constructor
  · intro hid
    exact absurd (hid.parent false 1 (by decide)) (by decide)
  · intro hatomic
    exact absurd (congrFun (hatomic (by decide)).id 0) (by decide)

end Pipelines

end DepthaiCore
