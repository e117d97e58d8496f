import DepthaiCore.Lib.Runs
import DepthaiCore.Pipeline.NodeIdentity

/-!
# Putting pipelines together

A program has any number of pipelines and nodes. `PipelineImpl::add` puts a node on the list of a
pipeline, after a walk through what is below it that hands out ids and owners and writes into every
child the id of the node above it. `Node::add` puts a node behind the children of another and
writes the id of that node into it; it hands out nothing, whether the other node is in a pipeline or
not. A node that is created is a node that has not been used yet.

A node that was attached below itself would make every walk endless, so there is no such step.
-/

namespace DepthaiCore

variable {N O I P : Type*}

/-! ### The ids of parents -/

section ParentIds

variable [DecidableEq N] [DecidableEq P]

/-- What `add` does to a node, with the `parentId` of the nodes below it. -/
def PipelineImpl.addVisitParents (curNode : N) (a : PipelineImpl N O I P × (N → ℤ)) :
    (PipelineImpl N O I P × (N → ℤ)) × Option String :=
  match PipelineImpl.addVisit curNode a.1 with
  | (s, some e) => ((s, a.2), some e)
  | (s, none) =>
    ((s, fun n => if n ∈ s.nodeMap.children curNode then s.id curNode else a.2 n), none)

/-- The walk of `add`, with the `parentId` of the nodes. -/
def PipelineImpl.addWalk (s : PipelineImpl N O I P) (parentId : N → ℤ) (node : N) :
    (PipelineImpl N O I P × (N → ℤ)) × Option String :=
  s.nodeMap.search PipelineImpl.addVisitParents (s.nodeMap.subtree node).length [node] (s, parentId)

/-- The `parentId` of the nodes after an `add`. -/
def PipelineImpl.addParentId (s : PipelineImpl N O I P) (parentId : N → ℤ) : Option N → N → ℤ
  | none => parentId
  | some node => if node ∈ s.getAllNodes then parentId else (s.addWalk parentId node).1.2

end ParentIds

/-- The pipelines and nodes of a program. -/
structure Pipelines (N O I P : Type*) where
  isBuild : P → Bool
  latestId : P → ℤ
  nodes : P → List N
  nodeMap : Hierarchy N
  id : N → ℤ
  parent : N → Option P
  parentId : N → ℤ
  connections : N → List (ConnectionInternal O I)
  connectedInputs : O → List I
  connectedOutputs : I → List O
  nodes_parent : ∀ p, ∀ n ∈ nodes p, parent n = some p

namespace Pipelines

/-- One of the pipelines. -/
def get (w : Pipelines N O I P) (p : P) : PipelineImpl N O I P where
  self := p
  isBuild := w.isBuild p
  latestId := w.latestId p
  nodes := w.nodes p
  nodeMap := w.nodeMap
  id := w.id
  parent := w.parent
  connections := w.connections
  connectedInputs := w.connectedInputs
  connectedOutputs := w.connectedOutputs
  nodes_parent := w.nodes_parent p

variable [DecidableEq P] {w : Pipelines N O I P}

/-- A pipeline after a call on it, which took no node from its owner. -/
def set (w : Pipelines N O I P) (p : P) (s : PipelineImpl N O I P) (parentId : N → ℤ)
    (hself : s.self = p) (hkept : ∀ m q, w.parent m = some q → s.parent m = some q) :
    Pipelines N O I P where
  isBuild := Function.update w.isBuild p s.isBuild
  latestId := Function.update w.latestId p s.latestId
  nodes := Function.update w.nodes p s.nodes
  nodeMap := s.nodeMap
  id := s.id
  parent := s.parent
  parentId := parentId
  connections := s.connections
  connectedInputs := s.connectedInputs
  connectedOutputs := s.connectedOutputs
  nodes_parent := by
    intro q n hn
    by_cases hq : q = p
    · subst hq
      rw [Function.update_self] at hn
      rw [s.nodes_parent n hn, hself]
    · rw [Function.update_of_ne hq] at hn
      exact hkept n q (w.nodes_parent q n hn)

variable [DecidableEq N]

/-- `PipelineImpl::add` on the pipeline `p`. -/
def add (w : Pipelines N O I P) (p : P) (node : Option N) : Pipelines N O I P × Option String :=
  (w.set p ((w.get p).add node).1 ((w.get p).addParentId w.parentId node)
      (PipelineImpl.self_add (w.get p) node)
      fun _ _ hm => PipelineImpl.parent_add_of_some (s := w.get p) hm,
    ((w.get p).add node).2)

/-- `Node::add`. -/
def attach (w : Pipelines N O I P) (node child : N) (h : node ∉ w.nodeMap.subtree child) :
    Pipelines N O I P :=
  { w with
    parentId := Function.update w.parentId child (w.id node)
    nodeMap := w.nodeMap.attach node child h }

/-- A step of the program. -/
inductive Step (N P : Type*)
  | add (p : P) (node : Option N)
  | attach (node child : N)
  deriving DecidableEq, Repr

/-- The state after a step. -/
def step (w : Pipelines N O I P) : Step N P → Option (Pipelines N O I P)
  | .add p node => some (w.add p node).1
  | .attach node child =>
    if h : node ∉ w.nodeMap.subtree child then some (w.attach node child h) else none

omit [DecidableEq P] [DecidableEq N] in
/-- Pipelines without nodes, and nodes that are in none. Some nodes may have others below them from
the start, and any of them may be linked. -/
def fresh (isBuild : P → Bool) (nodeMap : Hierarchy N)
    (connections : N → List (ConnectionInternal O I)) (connectedInputs : O → List I)
    (connectedOutputs : I → List O) : Pipelines N O I P where
  isBuild := isBuild
  latestId _ := 0
  nodes _ := []
  nodeMap := nodeMap
  id _ := -1
  parent _ := none
  parentId _ := -1
  connections := connections
  connectedInputs := connectedInputs
  connectedOutputs := connectedOutputs
  nodes_parent := by simp

/-! ### Ids and owners -/

/-- What is true of ids and owners at any time: a node has an id exactly when it has an owner, and
the nodes of one owner have different ids. -/
structure Sane (w : Pipelines N O I P) : Prop where
  ids : ∀ p, (w.get p).Ids
  assigned : ∀ m, w.parent m ≠ none → w.id m ≠ -1

omit [DecidableEq P] [DecidableEq N] in
theorem sane_fresh (isBuild : P → Bool) (nodeMap : Hierarchy N)
    (connections : N → List (ConnectionInternal O I)) (connectedInputs : O → List I)
    (connectedOutputs : I → List O) :
    (fresh isBuild nodeMap connections connectedInputs connectedOutputs).Sane := by
  refine ⟨fun p => ⟨?_, ?_, ?_, ?_⟩, ?_⟩
  · exact le_refl (0 : ℤ)
  · intro m _
    rfl
  · intro m hm
    cases hm
  · intro m m' hm
    cases hm
  · intro m hm
    exact absurd rfl hm

/-- **`add` keeps the ids of every pipeline in order.** -/
theorem Sane.add (h : w.Sane) (p : P) (node : Option N) : (w.add p node).1.Sane := by
  have hassigned : ∀ m, (w.add p node).1.parent m ≠ none → (w.add p node).1.id m ≠ -1 :=
    (h.ids p).assigned_add h.assigned node
  refine ⟨fun q => ?_, hassigned⟩
  have hp := (h.ids p).add node
  by_cases hq : q = p
  · subst hq
    refine ⟨?_, hp.unowned, ?_, ?_⟩
    · show 0 ≤ Function.update w.latestId q _ q
      rw [Function.update_self]
      exact hp.nonneg
    · intro m hm hne
      show _ ∧ _ < Function.update w.latestId q _ q
      rw [Function.update_self]
      exact hp.range m (by rw [PipelineImpl.self_add]; exact hm) hne
    · intro m m' hm hm'
      exact hp.injective m m' (by rw [PipelineImpl.self_add]; exact hm)
        (by rw [PipelineImpl.self_add]; exact hm')
  · -- A node of another pipeline was one before, and keeps its id.
    have hother : ∀ m, (w.add p node).1.parent m = some q →
        w.parent m = some q ∧ (w.add p node).1.id m = w.id m := by
      intro m hm
      rcases PipelineImpl.parent_add (s := w.get p) node m with hsame | ⟨-, hself⟩
      · have hm' : w.parent m = some q := hsame.symm.trans hm
        exact ⟨hm', PipelineImpl.id_add_of_ne (s := w.get p) (h.assigned m (by simp [hm']))⟩
      · have hpq : some p = some q := hself.symm.trans hm
        exact absurd (Option.some.inj hpq).symm hq
    have hlatest : ((w.add p node).1.get q).latestId = w.latestId q := Function.update_of_ne hq ..
    refine ⟨?_, hp.unowned, ?_, ?_⟩
    · rw [hlatest]
      exact (h.ids q).nonneg
    · intro m hm hne
      obtain ⟨hm', hid⟩ := hother m hm
      rw [hlatest]
      show 0 ≤ (w.add p node).1.id m ∧ (w.add p node).1.id m < _
      rw [hid]
      exact (h.ids q).range m hm' (h.assigned m (by simp [hm']))
    · intro m m' hm hm' hne heq
      obtain ⟨hold, hid⟩ := hother m hm
      obtain ⟨hold', hid'⟩ := hother m' hm'
      refine (h.ids q).injective m m' hold hold' (h.assigned m (by simp [hold])) ?_
      exact hid.symm.trans (heq.trans hid')

omit [DecidableEq P] in
theorem Sane.attach (h : w.Sane) {node child : N} (hnode : node ∉ w.nodeMap.subtree child) :
    (w.attach node child hnode).Sane :=
  ⟨fun p => ⟨(h.ids p).nonneg, (h.ids p).unowned, (h.ids p).range, (h.ids p).injective⟩,
    h.assigned⟩

end Pipelines

end DepthaiCore
