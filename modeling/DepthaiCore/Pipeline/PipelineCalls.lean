import DepthaiCore.Pipeline.PipelineImpl

/-!
# What the calls on a pipeline do

One lemma for each call says which checks let it through and what it leaves behind. A call that
throws leaves the graph as it was, although `add` may have given out ids and owners before it threw.

`remove` takes the node off the list of the pipeline and out of the children of the other nodes on
that list. Before, it erases the connections that touch the node or one of its own children from the
sets of all nodes that the others hold. It looks neither at the lists of the outputs and inputs, nor
further down than one level below the node.
-/

namespace DepthaiCore

variable {N O I P : Type*} [DecidableEq N]
variable {G : Ports N O I} {s : PipelineImpl N O I P}

/-! ### Adding -/

omit [DecidableEq N] in
theorem PipelineImpl.getAllNodes_pushNode {node : N} (h : s.parent node = some s.self) :
    (s.pushNode node h).getAllNodes = s.getAllNodes ++ s.nodeMap.subtree node := by
  rw [getAllNodes_eq, getAllNodes_eq, pushNode, List.flatMap_append, List.flatMap_singleton]

section Add

variable [DecidableEq P]

/-- An `add` that is let through puts the node at the end of the list, in a graph that is otherwise
what it was. -/
theorem PipelineImpl.exists_add {node : N}
    (h : (PipelineCall.add (some node) : PipelineCall N O I).Accepted G s) :
    ∃ (t : PipelineImpl N O I P) (hnode : t.parent node = some t.self),
      s.add (some node) = (t.pushNode node hnode, none) ∧ s.SameGraph t ∧
        (∀ m ∈ s.nodeMap.subtree node, t.parent m = some s.self) ∧
        ∀ m p, s.parent m = some p → t.parent m = some p := by
  obtain ⟨hnew, howner⟩ := h
  have hok := (s.isNone_addSearch node).2 howner
  have hgraph := s.sameGraph_addSearch node
  have howned := s.parent_addSearch hok
  have hkept : ∀ m p, s.parent m = some p → (s.addSearch node).1.parent m = some p :=
    fun m p => s.parent_addSearch_of_some
  rw [add, if_neg hnew]
  split
  · rename_i t e hsearch
    rw [hsearch] at hok
    cases hok
  · rename_i t hsearch
    simp only [hsearch] at hgraph howned hkept
    have hnode : t.parent node = some t.self := by
      rw [hgraph.self, howned node (s.nodeMap.mem_subtree_self node)]
    exact ⟨t, hnode, rfl, hgraph, howned, hkept⟩

theorem PipelineImpl.add_of_not {node : Option N}
    (h : ¬(PipelineCall.add node : PipelineCall N O I).Accepted G s) :
    ∃ t e, s.add node = (t, some e) ∧ s.SameGraph t ∧
      ∀ m p, s.parent m = some p → t.parent m = some p := by
  cases node with
  | none => exact ⟨s, _, rfl, .refl, fun _ _ h => h⟩
  | some node =>
    rw [add]
    split
    · exact ⟨s, _, rfl, .refl, fun _ _ h => h⟩
    · rename_i hnew
      have hgraph := s.sameGraph_addSearch node
      have hkept : ∀ m p, s.parent m = some p → (s.addSearch node).1.parent m = some p :=
        fun m p => s.parent_addSearch_of_some
      split
      · rename_i t e hsearch
        simp only [hsearch] at hgraph hkept
        exact ⟨t, e, rfl, hgraph, hkept⟩
      · rename_i t hsearch
        exact absurd ⟨hnew, (s.isNone_addSearch node).1 (by rw [hsearch])⟩ h

end Add

/-! ### Removing -/

/-- The node with its own children, in the order of the loop of `Node::remove`. -/
def PipelineImpl.withChildren (s : PipelineImpl N O I P) (node : N) : List N :=
  s.nodeMap.children node ++ [node]

variable (G) in
/-- The connections that `remove` leaves to a node that it visits. -/
def Ports.kept (gone : List N) (connections : List (ConnectionInternal O I)) :
    List (ConnectionInternal O I) :=
  connections.filter fun c => !gone.any fun node => G.touches node c

theorem Ports.kept_kept (gone : List N) (connections : List (ConnectionInternal O I)) :
    G.kept gone (G.kept gone connections) = G.kept gone connections := by
  simp [kept, List.filter_filter]

theorem Ports.mem_kept {gone : List N} {connections : List (ConnectionInternal O I)}
    {c : ConnectionInternal O I} :
    c ∈ G.kept gone connections ↔
      c ∈ connections ∧ G.inNode c.input ∉ gone ∧ G.outNode c.out ∉ gone := by
  simp only [kept, touches, List.mem_filter, Bool.not_eq_true', List.any_eq_false, Bool.or_eq_true,
    decide_eq_true_eq]
  grind

theorem Node.removeConnectionToNode_apply (nodeMap : Hierarchy N) (n node m : N)
    (connections : N → List (ConnectionInternal O I)) :
    Node.removeConnectionToNode G nodeMap n node connections m =
      if m ∈ nodeMap.subtree n then G.kept [node] (connections m) else connections m := by
  have hfilter : ∀ l : List (ConnectionInternal O I),
      (l.filter fun c => !G.touches node c) = G.kept [node] l := by
    intro l
    simp [Ports.kept]
  simp only [Node.removeConnectionToNode, hfilter]
  exact nodeMap.visit_update (Ports.kept_kept [node]) n connections m

theorem Ports.kept_kept' (gone gone' : List N) (connections : List (ConnectionInternal O I)) :
    G.kept gone' (G.kept gone connections) = G.kept (gone ++ gone') connections := by
  rw [kept, kept, kept, List.filter_filter]
  refine List.filter_congr fun c _ => ?_
  rw [List.any_append, Bool.not_or, Bool.and_comm]

theorem Node.foldl_removeConnectionToNode (nodeMap : Hierarchy N) (n m : N) (gone : List N)
    (connections : N → List (ConnectionInternal O I)) :
    gone.foldl (fun connections node => Node.removeConnectionToNode G nodeMap n node connections)
        connections m =
      if m ∈ nodeMap.subtree n then G.kept gone (connections m) else connections m := by
  induction gone generalizing connections with
  | nil => simp [Ports.kept]
  | cons node gone ih =>
    rw [List.foldl_cons, ih, removeConnectionToNode_apply]
    split
    · rw [Ports.kept_kept', List.singleton_append]
    · rfl

/-- The sets of the nodes that the pipeline holds lose the connections that touch the node or one of
its own children. -/
def PipelineImpl.erased (G : Ports N O I) (s : PipelineImpl N O I P) (node m : N) :
    List (ConnectionInternal O I) :=
  if m ∈ s.getAllNodes then G.kept (s.withChildren node) (s.connections m) else s.connections m

/-- Other children and other sets. -/
def PipelineImpl.withGraph (s : PipelineImpl N O I P) (nodeMap : Hierarchy N)
    (connections : N → List (ConnectionInternal O I)) : PipelineImpl N O I P :=
  { s with nodeMap := nodeMap, connections := connections }

/-- `Node::remove` passes its checks: the owner of a node of the list is this pipeline. -/
theorem Node.remove_eq {this : N} (hthis : this ∈ s.nodes) (hbuild : s.isBuild = false) (node : N) :
    Node.remove G s this node =
      (s.withGraph (s.nodeMap.without [this] node) (s.erased G node), none) := by
  have hround : ∀ n (connections : N → List (ConnectionInternal O I)) m,
      Node.removeConnectionToNode G s.nodeMap n node
          ((s.nodeMap.children node).foldl
            (fun connections childNode =>
              Node.removeConnectionToNode G s.nodeMap n childNode connections) connections) m =
        if m ∈ s.nodeMap.subtree n then G.kept (s.withChildren node) (connections m)
        else connections m := by
    intro n connections m
    rw [removeConnectionToNode_apply, foldl_removeConnectionToNode]
    split
    · rw [Ports.kept_kept']
      rfl
    · rfl
  have hconnections : s.nodes.foldl
      (fun connections n =>
        Node.removeConnectionToNode G s.nodeMap n node
          ((s.nodeMap.children node).foldl
            (fun connections childNode =>
              Node.removeConnectionToNode G s.nodeMap n childNode connections) connections))
      s.connections = s.erased G node := by
    funext m
    exact Hierarchy.foldl_rounds (Ports.kept_kept _) hround s.nodes s.connections m
  rw [remove, s.nodes_parent this hthis, hconnections]
  exact if_neg (by simp [hbuild])

/-- A second round erases nothing: taking the node out of the children of another makes no node
appear, and it keeps its own. -/
theorem PipelineImpl.erased_withGraph {this node : N}
    {connections : N → List (ConnectionInternal O I)}
    (hclear : (s.withGraph s.nodeMap connections).erased G node = connections)
    (hne : node ≠ this) :
    (s.withGraph (s.nodeMap.without [this] node) connections).erased G node = connections := by
  have hchildren : (s.nodeMap.without [this] node).children node = s.nodeMap.children node :=
    s.nodeMap.children_without_of_notMem (by simpa using hne) node
  funext m
  have hm := congrFun hclear m
  rw [erased] at hm ⊢
  split
  · rename_i hmem
    have hmem' : m ∈ (s.withGraph s.nodeMap connections).getAllNodes := by
      obtain ⟨n, hn, hsub⟩ := List.mem_flatMap.1 hmem
      exact List.mem_flatMap.2 ⟨n, hn, s.nodeMap.subtree_without_subset _ _ _ hsub⟩
    rw [if_pos hmem'] at hm
    rw [withChildren, withGraph, hchildren]
    exact hm
  · rfl

theorem PipelineImpl.erased_erased (node : N) :
    (s.withGraph s.nodeMap (s.erased G node)).erased G node = s.erased G node := by
  funext m
  show (if m ∈ s.getAllNodes then G.kept (s.withChildren node) (s.erased G node m)
    else s.erased G node m) = s.erased G node m
  rw [erased]
  split
  · rw [Ports.kept_kept]
  · rfl

/-- Once the sets are cleared, the rest of the loop only takes the node out of the children. -/
theorem PipelineImpl.removeFrom_eq {toRemove : N} {rest : List N} (hrest : rest ⊆ s.nodes)
    (hmem : toRemove ∉ rest) (hbuild : s.isBuild = false)
    (hclear : s.erased G toRemove = s.connections) :
    s.removeFrom G toRemove rest =
      (s.withGraph (s.nodeMap.without rest toRemove) s.connections, none) := by
  induction rest generalizing s with
  | nil =>
    rw [removeFrom, Hierarchy.without_nil]
    rfl
  | cons node rest ih =>
    obtain ⟨hne, hmem⟩ := not_or.1 (List.mem_cons.not.1 hmem)
    obtain ⟨hnode, hrest⟩ := List.cons_subset.1 hrest
    have hclear' : (s.withGraph (s.nodeMap.without [node] toRemove) s.connections).erased G
        toRemove = s.connections := erased_withGraph hclear hne
    have hloop := ih (s := s.withGraph (s.nodeMap.without [node] toRemove) s.connections) hrest hmem
      hbuild hclear'
    rw [removeFrom, Node.remove_eq hnode hbuild, hclear]
    rw [show (s.withGraph (s.nodeMap.without [node] toRemove) s.connections).nodeMap =
      s.nodeMap.without [node] toRemove from rfl, Hierarchy.without_cons] at hloop
    exact hloop

theorem PipelineImpl.removeFrom_nodes {toRemove : N} {rest : List N} (hnodes : s.nodes = rest)
    (hmem : toRemove ∉ rest) (hbuild : s.isBuild = false) :
    s.removeFrom G toRemove rest =
      (s.withGraph (s.nodeMap.without rest toRemove) (s.erased G toRemove), none) := by
  cases rest with
  | nil =>
    have hclear : s.erased G toRemove = s.connections := by
      funext m
      rw [erased, getAllNodes, hnodes]
      rfl
    rw [removeFrom, hclear, Hierarchy.without_nil]
    rfl
  | cons node rest =>
    obtain ⟨hne, hmem⟩ := not_or.1 (List.mem_cons.not.1 hmem)
    have hclear := erased_withGraph (s.erased_erased (G := G) toRemove) hne
    have hrest : rest ⊆ s.nodes := by simp [hnodes]
    have hloop := removeFrom_eq
      (s := s.withGraph (s.nodeMap.without [node] toRemove) (s.erased G toRemove))
      hrest hmem hbuild hclear
    rw [removeFrom, Node.remove_eq (by simp [hnodes]) hbuild]
    rw [show (s.withGraph (s.nodeMap.without [node] toRemove) (s.erased G toRemove)).nodeMap =
      s.nodeMap.without [node] toRemove from rfl, Hierarchy.without_cons] at hloop
    exact hloop

/-- The state after a `remove`. -/
def PipelineImpl.removed (G : Ports N O I) (s : PipelineImpl N O I P) (toRemove : N) :
    PipelineImpl N O I P :=
  (s.eraseNode toRemove).withGraph (s.nodeMap.without (s.eraseNode toRemove).nodes toRemove)
    ((s.eraseNode toRemove).erased G toRemove)

theorem PipelineImpl.mem_connections_removed {toRemove m : N} {c : ConnectionInternal O I} :
    c ∈ (s.removed G toRemove).connections m ↔
      c ∈ s.connections m ∧ (m ∈ (s.eraseNode toRemove).getAllNodes →
        G.inNode c.input ∉ s.withChildren toRemove ∧
          G.outNode c.out ∉ s.withChildren toRemove) := by
  show c ∈ (s.eraseNode toRemove).erased G toRemove m ↔ _
  rw [erased]
  split
  · rename_i hmem
    rw [Ports.mem_kept, imp_iff_right hmem]
    rfl
  · rename_i hmem
    exact (and_iff_left fun h => absurd h hmem).symm

section Remove

variable [DecidableEq P]

/-- **`remove` takes the node off the list and out of the children of the nodes on it, and clears
the sets of the nodes that these held.** -/
theorem PipelineImpl.remove_eq {toRemove : N}
    (h : (PipelineCall.remove toRemove : PipelineCall N O I).Accepted G s) :
    s.remove G toRemove = (s.removed G toRemove, none) := by
  obtain ⟨hbuild, hparent⟩ := h
  rw [remove, hbuild, hparent]
  simp only [Bool.false_eq_true, if_false, ne_eq, not_true_eq_false]
  exact removeFrom_nodes rfl (by simp [eraseNode]) hbuild

theorem PipelineImpl.remove_of_not {toRemove : N}
    (h : ¬(PipelineCall.remove toRemove : PipelineCall N O I).Accepted G s) :
    ∃ e, s.remove G toRemove = (s, some e) := by
  rw [remove]
  split
  · exact ⟨_, rfl⟩
  · rename_i hbuild
    split
    · exact ⟨_, rfl⟩
    · rename_i pipeline hparent
      split
      · exact ⟨_, rfl⟩
      · rename_i hself
        refine absurd ⟨by simpa using hbuild, ?_⟩ h
        rw [hparent, not_not.1 hself]

end Remove

variable [DecidableEq O] [DecidableEq I]

/-! ### Links -/

theorem PipelineImpl.mem_connections_linked {out : O} {input : I} {m : N}
    {c : ConnectionInternal O I} :
    c ∈ (s.linked G out input).connections m ↔
      c ∈ s.connections m ∨ m = G.outNode out ∧ c = ⟨out, input⟩ := by
  by_cases hm : m = G.outNode out
  · subst hm
    simp [linked]
  · simp [linked, hm]

theorem PipelineImpl.connectedInputs_linked (out : O) (input : I) (o : O) :
    (s.linked G out input).connectedInputs o =
      if o = out then s.connectedInputs out ++ [input] else s.connectedInputs o :=
  Function.update_apply ..

theorem PipelineImpl.mem_connections_unlinked {out : O} {input : I} {m : N}
    {c : ConnectionInternal O I} :
    c ∈ (s.unlinked G out input).connections m ↔
      c ∈ s.connections m ∧ (m = G.outNode out → ¬G.same ⟨out, input⟩ c) := by
  by_cases hm : m = G.outNode out
  · subst hm
    simp [unlinked]
  · simp [unlinked, hm]

theorem PipelineImpl.connectedInputs_unlinked (out : O) (input : I) (o : O) :
    (s.unlinked G out input).connectedInputs o =
      if o = out then (s.connectedInputs out).filter (· ≠ input) else s.connectedInputs o :=
  Function.update_apply ..

theorem Output.link_eq {out : O} {input : I} (h : (PipelineCall.link out input).Accepted G s) :
    Output.link G s out input = (s.linked G out input, none) := by
  obtain ⟨hcan, hnew⟩ := h
  have hany : (s.connections (G.outNode out)).any (G.same ⟨out, input⟩) = false :=
    List.any_eq_false.2 hnew
  rw [link, hcan, hany]
  rfl

theorem Output.link_of_not {out : O} {input : I} (h : ¬(PipelineCall.link out input).Accepted G s) :
    ∃ e, Output.link G s out input = (s, some e) := by
  rw [link]
  split
  · exact ⟨_, rfl⟩
  · rename_i hcan
    split
    · exact ⟨_, rfl⟩
    · rename_i hany
      rw [List.any_eq_true] at hany
      exact absurd ⟨by simpa using hcan, fun c hc hsame => hany ⟨c, hc, hsame⟩⟩ h

theorem Output.unlink_eq {out : O} {input : I} (h : (PipelineCall.unlink out input).Accepted G s) :
    Output.unlink G s out input = (s.unlinked G out input, none) := by
  have hany : (s.connections (G.outNode out)).any (G.same ⟨out, input⟩) = true :=
    List.any_eq_true.2 h
  rw [unlink, hany]
  rfl

theorem Output.unlink_of_not {out : O} {input : I}
    (h : ¬(PipelineCall.unlink out input).Accepted G s) :
    ∃ e, Output.unlink G s out input = (s, some e) := by
  have hany : (s.connections (G.outNode out)).any (G.same ⟨out, input⟩) = false :=
    Bool.eq_false_iff.2 fun hany => h (List.any_eq_true.1 hany)
  rw [unlink, hany]
  exact ⟨_, rfl⟩

/-! ### Every call -/

variable [DecidableEq P]

/-- **A call that throws leaves the graph as it was.** -/
theorem PipelineImpl.sameGraph_call {c : PipelineCall N O I} (h : ¬c.Accepted G s) :
    s.SameGraph (s.call G c).1 := by
  cases c with
  | add node =>
    obtain ⟨t, e, heq, hgraph, -⟩ := add_of_not h
    rw [call, heq]
    exact hgraph
  | link out input =>
    obtain ⟨e, heq⟩ := Output.link_of_not h
    rw [call, heq]
    exact .refl
  | unlink out input =>
    obtain ⟨e, heq⟩ := Output.unlink_of_not h
    rw [call, heq]
    exact .refl
  | remove toRemove =>
    obtain ⟨e, heq⟩ := remove_of_not h
    rw [call, heq]
    exact .refl

/-! ### Owners -/

/-- No call takes a node from its owner, or makes the pipeline another one. -/
theorem PipelineImpl.parent_call_of_some (c : PipelineCall N O I) :
    (s.call G c).1.self = s.self ∧
      ∀ m p, s.parent m = some p → (s.call G c).1.parent m = some p := by
  by_cases h : c.Accepted G s
  · cases c with
    | add node =>
      cases node with
      | none => exact h.elim
      | some node =>
        obtain ⟨t, hnode, heq, hgraph, -, hkept⟩ := exists_add h
        rw [call, heq]
        exact ⟨hgraph.self, hkept⟩
    | link out input =>
      rw [call, Output.link_eq h]
      exact ⟨rfl, fun _ _ hparent => hparent⟩
    | unlink out input =>
      rw [call, Output.unlink_eq h]
      exact ⟨rfl, fun _ _ hparent => hparent⟩
    | remove toRemove =>
      rw [call, remove_eq h]
      exact ⟨rfl, fun _ _ hparent => hparent⟩
  · refine ⟨(sameGraph_call h).self, ?_⟩
    cases c with
    | add node =>
      obtain ⟨t, e, heq, -, hkept⟩ := add_of_not h
      rw [call, heq]
      exact hkept
    | link out input =>
      obtain ⟨e, heq⟩ := Output.link_of_not h
      rw [call, heq]
      exact fun _ _ hparent => hparent
    | unlink out input =>
      obtain ⟨e, heq⟩ := Output.unlink_of_not h
      rw [call, heq]
      exact fun _ _ hparent => hparent
    | remove toRemove =>
      obtain ⟨e, heq⟩ := remove_of_not h
      rw [call, heq]
      exact fun _ _ hparent => hparent

/-- The pipeline owns the nodes in it. -/
def PipelineImpl.Owned (s : PipelineImpl N O I P) : Prop :=
  ∀ m ∈ s.getAllNodes, s.parent m = some s.self

/-- **The pipeline goes on to own the nodes in it**, those below the nodes of its list included. -/
theorem PipelineImpl.Owned.call (howned : s.Owned) (c : PipelineCall N O I) :
    (s.call G c).1.Owned := by
  obtain ⟨hself, hkept⟩ := parent_call_of_some (G := G) (s := s) c
  intro m hm
  rw [hself]
  by_cases h : c.Accepted G s
  · cases c with
    | add node =>
      cases node with
      | none => exact h.elim
      | some node =>
        obtain ⟨t, hnode, heq, hgraph, hbelow, -⟩ := exists_add h
        rw [PipelineImpl.call, heq, getAllNodes_pushNode, hgraph.getAllNodes, hgraph.nodeMap,
          List.mem_append] at hm
        rcases hm with hm | hm
        · exact hkept m _ (howned m hm)
        · rw [PipelineImpl.call, heq]
          exact hbelow m hm
    | link out input =>
      rw [PipelineImpl.call, Output.link_eq h] at hm
      exact hkept m _ (howned m hm)
    | unlink out input =>
      rw [PipelineImpl.call, Output.unlink_eq h] at hm
      exact hkept m _ (howned m hm)
    | remove toRemove =>
      rw [PipelineImpl.call, remove_eq h] at hm
      obtain ⟨t, ht, hsub⟩ := List.mem_flatMap.1 hm
      refine hkept m _ (howned m (List.mem_flatMap.2 ⟨t, List.mem_of_mem_filter ht, ?_⟩))
      exact s.nodeMap.subtree_without_subset _ _ _ hsub
  · rw [(sameGraph_call h).getAllNodes] at hm
    exact hkept m _ (howned m hm)

end DepthaiCore
