import DepthaiCore.Lib.Numerals
import DepthaiCore.Pipeline.ConnectionHistory
import DepthaiCore.Pipeline.NodeIdentity

/-!
# What `remove` leaves

`remove` should take a node out of the pipeline with all that is below it and all connections from
and to it. It takes the node off the list of the pipeline and out of the children of the nodes on
that list, so that a node further down stays where it is. And it erases the connections of the node
and of its own children, so that those of nodes further below it stay.
-/

open scoped Numerals

namespace DepthaiCore

variable {N O I P : Type*}

namespace PipelineImpl

/-- Neither the node nor anything below it is left, in the pipeline or at an end of a connection.
Every other node is, with its children but for the node, and every other connection. -/
structure RemovesCompletely [DecidableEq N] (G : Ports N O I) (s : PipelineImpl N O I P)
    (toRemove : N) (t : PipelineImpl N O I P) : Prop where
  nodes : ∀ m, m ∈ t.getAllNodes ↔ m ∈ s.getAllNodes ∧ m ∉ s.nodeMap.subtree toRemove
  connections : ∀ walk walk', s.IsWalk walk → t.IsWalk walk' → ∀ c,
    c ∈ t.getConnectionsInternal walk' ↔ c ∈ s.getConnectionsInternal walk ∧
      G.outNode c.out ∉ s.nodeMap.subtree toRemove ∧ G.inNode c.input ∉ s.nodeMap.subtree toRemove
  kept : ∀ m ∈ t.getAllNodes, t.id m = s.id m ∧ t.parent m = s.parent m ∧
    t.nodeMap.children m = (s.nodeMap.children m).filter (· ≠ toRemove)

/-- Nothing outside holds on to what is below the node, but the nodes of the list to the node
itself. -/
structure Detachable [DecidableEq N] (G : Ports N O I) (s : PipelineImpl N O I P) (toRemove : N) :
    Prop where
  /-- No other node of the list is below the node. -/
  listed : ∀ t ∈ (s.eraseNode toRemove).nodes, t ∉ s.nodeMap.subtree toRemove
  /-- The node is a child of nodes of the list only, and what is below it of nodes below it. -/
  owner : ∀ m ∈ (s.eraseNode toRemove).getAllNodes, m ∉ s.nodeMap.subtree toRemove →
    ∀ c ∈ s.nodeMap.children m, c ∈ s.nodeMap.subtree toRemove →
      c = toRemove ∧ m ∈ (s.eraseNode toRemove).nodes
  /-- Connections from outside go no further below the node than to its children. -/
  link : ∀ m ∈ (s.eraseNode toRemove).getAllNodes, m ∉ s.nodeMap.subtree toRemove →
    ∀ c ∈ s.connections m, G.inNode c.input ∈ s.nodeMap.subtree toRemove →
      G.inNode c.input ∈ s.withChildren toRemove

variable [DecidableEq N] {G : Ports N O I} {s : PipelineImpl N O I P} {toRemove m : N}

/-! ### Ways down to a node -/

omit [DecidableEq N] in
theorem mem_getAllNodes_iff :
    m ∈ s.getAllNodes ↔ ∃ t ∈ s.nodes,
      Relation.ReflTransGen (fun a b => b ∈ s.nodeMap.children a) t m := by
  rw [getAllNodes_eq, List.mem_flatMap]
  simp only [Hierarchy.mem_subtree_iff]

theorem mem_getAllNodes_removed_iff :
    m ∈ (s.removed G toRemove).getAllNodes ↔ ∃ t ∈ (s.eraseNode toRemove).nodes,
      Relation.ReflTransGen
        (fun a b => b ∈ (s.nodeMap.without (s.eraseNode toRemove).nodes toRemove).children a) t m :=
  mem_getAllNodes_iff

theorem mem_getAllNodes_eraseNode_iff :
    m ∈ (s.eraseNode toRemove).getAllNodes ↔ ∃ t ∈ (s.eraseNode toRemove).nodes,
      Relation.ReflTransGen (fun a b => b ∈ s.nodeMap.children a) t m :=
  mem_getAllNodes_iff

/-- A way on which every step can be made in another way. -/
theorem reflTransGen_of_forall {α : Type*} {r r' : α → α → Prop} {a b : α}
    (h : Relation.ReflTransGen r a b)
    (hstep : ∀ x y, r x y → Relation.ReflTransGen r y b → r' x y) :
    Relation.ReflTransGen r' a b := by
  induction h using Relation.ReflTransGen.head_induction_on with
  | refl => exact .refl
  | head hxy hyb ih => exact .head (hstep _ _ hxy hyb) ih

omit [DecidableEq N] in
theorem mem_subtree_of_reflTransGen {n : N} (hn : n ∈ s.nodeMap.subtree toRemove)
    (h : Relation.ReflTransGen (fun a b => b ∈ s.nodeMap.children a) n m) :
    m ∈ s.nodeMap.subtree toRemove := by
  rw [Hierarchy.mem_subtree_iff] at hn ⊢
  exact hn.trans h

/-- What is not below the node is reached from the other nodes of the list. -/
theorem mem_eraseNode_of_notMem (hm : m ∈ s.getAllNodes)
    (hout : m ∉ s.nodeMap.subtree toRemove) : m ∈ (s.eraseNode toRemove).getAllNodes := by
  obtain ⟨t, ht, hway⟩ := mem_getAllNodes_iff.1 hm
  refine mem_getAllNodes_eraseNode_iff.2 ⟨t, List.mem_filter.2 ⟨ht, ?_⟩, hway⟩
  have hne : t ≠ toRemove := by
    rintro rfl
    exact hout (mem_subtree_of_reflTransGen (s.nodeMap.mem_subtree_self t) hway)
  simpa using hne

/-- It is left, since no way to it leads through the node. -/
theorem mem_removed_of_notMem (hm : m ∈ (s.eraseNode toRemove).getAllNodes)
    (hout : m ∉ s.nodeMap.subtree toRemove) : m ∈ (s.removed G toRemove).getAllNodes := by
  obtain ⟨t, ht, hway⟩ := mem_getAllNodes_eraseNode_iff.1 hm
  refine mem_getAllNodes_removed_iff.2 ⟨t, ht, reflTransGen_of_forall hway fun a b hb hrest => ?_⟩
  have hne : b ≠ toRemove := by
    rintro rfl
    exact hout (mem_subtree_of_reflTransGen (s.nodeMap.mem_subtree_self b) hrest)
  rw [Hierarchy.children_without]
  split
  · exact List.mem_filter.2 ⟨hb, by simpa using hne⟩
  · exact hb

/-- What is left was reached from the other nodes of the list. -/
theorem mem_eraseNode_of_mem_removed (hm : m ∈ (s.removed G toRemove).getAllNodes) :
    m ∈ (s.eraseNode toRemove).getAllNodes := by
  obtain ⟨t, ht, hsub⟩ := List.mem_flatMap.1 hm
  exact List.mem_flatMap.2 ⟨t, ht, s.nodeMap.subtree_without_subset _ _ _ hsub⟩

/-- Of a detachable node nothing is left, since no way leads below it. -/
theorem Detachable.notMem (h : s.Detachable G toRemove)
    (hm : m ∈ (s.removed G toRemove).getAllNodes) : m ∉ s.nodeMap.subtree toRemove := by
  obtain ⟨t, ht, hway⟩ := mem_getAllNodes_removed_iff.1 hm
  induction hway with
  | refl => exact h.listed t ht
  | @tail a b hta hab ih =>
    have ha : a ∈ (s.removed G toRemove).getAllNodes := mem_getAllNodes_removed_iff.2 ⟨t, ht, hta⟩
    have hout := ih ha
    intro hb
    rw [Hierarchy.children_without] at hab
    split at hab
    · obtain ⟨hchild, hne⟩ := List.mem_filter.1 hab
      have howner := h.owner a (mem_eraseNode_of_mem_removed ha) hout b hchild hb
      simp [howner.1] at hne
    · rename_i hlist
      exact hlist (h.owner a (mem_eraseNode_of_mem_removed ha) hout b hab hb).2

/-! ### What is left of the connections -/

omit [DecidableEq N] in
theorem withChildren_subset {n : N} (hn : n ∈ s.withChildren toRemove) :
    n ∈ s.nodeMap.subtree toRemove := by
  rw [withChildren, List.mem_append, List.mem_singleton] at hn
  rw [Hierarchy.mem_subtree_iff]
  rcases hn with hn | rfl
  · exact .single hn
  · exact .refl

theorem sameIds_removed (G : Ports N O I) (s : PipelineImpl N O I P) (toRemove : N) :
    s.SameIds (s.removed G toRemove) :=
  ⟨rfl, rfl, rfl, rfl, getAllNodes_removed_subset G s toRemove⟩

variable [DecidableEq O] [DecidableEq I]

theorem Detachable.of_removesCompletely (hid : s.Identified) (hbook : s.Book G)
    (h : s.RemovesCompletely G toRemove (s.removed G toRemove)) : s.Detachable G toRemove := by
  constructor
  case listed =>
    intro t ht
    have hleft : t ∈ (s.removed G toRemove).getAllNodes :=
      mem_getAllNodes_removed_iff.2 ⟨t, ht, .refl⟩
    exact ((h.nodes t).1 hleft).2
  case owner =>
    intro m hm hout c hchild hc
    obtain ⟨t, ht, hway⟩ := mem_getAllNodes_removed_iff.1 (mem_removed_of_notMem (G := G) hm hout)
    by_contra hheld
    have hstays : c ∈
        (s.nodeMap.without (s.eraseNode toRemove).nodes toRemove).children m := by
      rw [Hierarchy.children_without]
      split
      · rename_i hlist
        have hne : c ≠ toRemove := fun hne => hheld ⟨hne, hlist⟩
        exact List.mem_filter.2 ⟨hchild, by simpa using hne⟩
      · exact hchild
    have hleft : c ∈ (s.removed G toRemove).getAllNodes :=
      mem_getAllNodes_removed_iff.2 ⟨t, ht, hway.tail hstays⟩
    exact ((h.nodes c).1 hleft).2 hc
  case link =>
    intro m hm hout c hc hin
    by_contra hfar
    have hnode : G.outNode c.out = m := hbook.outNode m c hc
    have hstays : c ∈ (s.removed G toRemove).connections m := by
      refine mem_connections_removed.2 ⟨hc, fun _ => ⟨hfar, fun hwith => hout ?_⟩⟩
      rw [← hnode]
      exact withChildren_subset hwith
    have hreported : c ∈ (s.removed G toRemove).getConnectionsInternal
        (s.removed G toRemove).nodeMap.subtree :=
      ((hid.of_sameIds (sameIds_removed G s toRemove)).mem_getConnectionsInternal
        (isWalk_subtree _)).2 ⟨m, mem_removed_of_notMem hm hout, hstays⟩
    exact ((h.connections _ _ (isWalk_subtree s) (isWalk_subtree _) c).1 hreported).2.2 hin

theorem Detachable.removesCompletely (hid : s.Identified) (hbook : s.Book G)
    (h : s.Detachable G toRemove) : s.RemovesCompletely G toRemove (s.removed G toRemove) := by
  have hnodes : ∀ m, m ∈ (s.removed G toRemove).getAllNodes ↔
      m ∈ s.getAllNodes ∧ m ∉ s.nodeMap.subtree toRemove := by
    intro m
    constructor
    · exact fun hm => ⟨getAllNodes_removed_subset G s toRemove hm, h.notMem hm⟩
    · rintro ⟨hm, hout⟩
      exact mem_removed_of_notMem (mem_eraseNode_of_notMem hm hout) hout
  constructor
  case nodes => exact hnodes
  case connections =>
    intro walk walk' hwalk hwalk' c
    rw [hid.mem_getConnectionsInternal hwalk,
      (hid.of_sameIds (sameIds_removed G s toRemove)).mem_getConnectionsInternal hwalk']
    constructor
    · rintro ⟨m, hm, hc⟩
      obtain ⟨hlive, hout⟩ := (hnodes m).1 hm
      have herase := mem_eraseNode_of_notMem hlive hout
      obtain ⟨hc, hkept⟩ := mem_connections_removed.1 hc
      refine ⟨⟨m, hlive, hc⟩, ?_, fun hin => ?_⟩
      · rwa [hbook.outNode m c hc]
      · exact (hkept herase).1 (h.link m herase hout c hc hin)
    · rintro ⟨⟨m, hm, hc⟩, hout, hin⟩
      have hnode := hbook.outNode m c hc
      refine ⟨m, (hnodes m).2 ⟨hm, hnode ▸ hout⟩, mem_connections_removed.2 ⟨hc, fun _ => ?_⟩⟩
      exact ⟨fun hwith => hin (withChildren_subset hwith),
        fun hwith => hout (withChildren_subset hwith)⟩
  case kept =>
    intro m hm
    refine ⟨rfl, rfl, ?_⟩
    show (s.nodeMap.without (s.eraseNode toRemove).nodes toRemove).children m = _
    rw [Hierarchy.children_without]
    split
    · rfl
    · rename_i hlist
      obtain ⟨hlive, hout⟩ := (hnodes m).1 hm
      refine (List.filter_eq_self.2 fun c hc => ?_).symm
      have hne : c ≠ toRemove := by
        rintro rfl
        exact hlist (h.owner m (mem_eraseNode_of_notMem hlive hout) hout c hc
          (s.nodeMap.mem_subtree_self c)).2
      simpa using hne

/-- **A node is removed completely exactly when it is detachable.** -/
theorem removesCompletely_iff (hid : s.Identified) (hbook : s.Book G) :
    s.RemovesCompletely G toRemove (s.removed G toRemove) ↔ s.Detachable G toRemove :=
  ⟨.of_removesCompletely hid hbook, fun h => h.removesCompletely hid hbook⟩

end PipelineImpl

/-! ### Pipelines that calls can make -/

namespace History

variable [DecidableEq N] [DecidableEq O] [DecidableEq I] [DecidableEq P] {G : Ports N O I}
  {h : History N O I P}

theorem identified_run {self : P} {isBuild : Bool} {nodeMap : Hierarchy N} {parent : N → Option P}
    {tr : List (History N O I P × PipelineCall N O I)}
    (hrun : Transition.Run (step G) (fresh self isBuild nodeMap parent) tr h) :
    h.pipeline.Identified := by
  refine hrun.invariant (I := fun h => h.pipeline.Identified) (fun h c t hid hstep => ?_) ?_
  · rw [← Option.some.inj hstep]
    exact hid.call c
  · refine ⟨⟨le_refl _, fun _ _ => rfl, fun _ _ hne => absurd rfl hne,
      fun _ _ _ _ hne _ => absurd rfl hne⟩, ?_, ?_⟩
    · intro m hm
      cases hm
    · intro m hm
      cases hm

/-- **In every pipeline that calls can make and that is not built, a `remove` of one of its nodes
returns, and it removes the node completely exactly when the node is detachable.** -/
theorem removesCompletely_run_iff {self : P} {isBuild : Bool} {nodeMap : Hierarchy N}
    {parent : N → Option P} {tr : List (History N O I P × PipelineCall N O I)}
    (hrun : Transition.Run (step G) (fresh self isBuild nodeMap parent) tr h)
    (hbuild : h.pipeline.isBuild = false) {toRemove : N} (hlive : h.Live toRemove) :
    (h.pipeline.remove G toRemove).2 = none ∧
      (h.pipeline.RemovesCompletely G toRemove (h.pipeline.remove G toRemove).1 ↔
        h.pipeline.Detachable G toRemove) := by
  have hsound := (sound_fresh self isBuild nodeMap parent).run hrun
  have haccepted : (PipelineCall.remove toRemove : PipelineCall N O I).Accepted G h.pipeline :=
    ⟨hbuild, hsound.owned toRemove hlive⟩
  rw [PipelineImpl.remove_eq haccepted]
  exact ⟨rfl, PipelineImpl.removesCompletely_iff (identified_run hrun) hsound.book⟩

/-- A node, a node below it, and a node below that. -/
def threeLevels : Hierarchy (Fin 3) where
  children n := if n = 0 then [1] else if n = 1 then [2] else []
  rank n := 2 - n
  ranked := by decide

/-- An output of the top node and an input of it. -/
def topPorts : Ports (Fin 3) Unit Unit :=
  { twoNodes with
    nodeName := fun _ => "node"
    outNode := fun _ => 0
    inNode := fun _ => 0 }

/-- The node in the middle is removed completely. -/
theorem removesCompletely_run_middle :
    let start : History (Fin 3) Unit Unit Unit := fresh () false threeLevels fun _ => none
    let h := ((Transition.exec (step topPorts) start [.add (some 0)]).get (by decide)).2
    (h.pipeline.remove topPorts 1).2 = none ∧
      (h.pipeline.RemovesCompletely topPorts 1 (h.pipeline.remove topPorts 1).1 ↔
        h.pipeline.Detachable topPorts 1) :=
  removesCompletely_run_iff (Transition.Run.of_isSome _) (by decide) (by decide)

/-- The node below it stays when it is removed. -/
theorem removesCompletely_run_bottom :
    let start : History (Fin 3) Unit Unit Unit := fresh () false threeLevels fun _ => none
    let h := start.next topPorts (.add (some 0))
    (h.pipeline.remove topPorts 2).2 = none ∧
      ¬h.pipeline.RemovesCompletely topPorts 2 (h.pipeline.remove topPorts 2).1 := by
  intro start h
  refine ⟨by decide, fun hremoves => ?_⟩
  exact ((hremoves.nodes 2).1 (by decide)).2 (by decide)

end History

end DepthaiCore
