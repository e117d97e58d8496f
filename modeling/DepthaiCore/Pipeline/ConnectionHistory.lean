import DepthaiCore.Lib.Runs
import DepthaiCore.Pipeline.ConnectionViews

/-!
# The three views of a connection along a run

The history of a run is the pipeline together with the nodes that have been in it: a removed node is
one that was in the pipeline and no longer is.

The views come apart in three ways. A node is removed while an output is linked to an input of it:
the output keeps the input in its list and goes on to send to it. The same happens to links that
touch the node or a child of it when these stay in the pipeline, since `remove` takes a node out of
no children but those of the nodes on the list. An output is unlinked from an input of the same name
as the one that it is linked to: the connection is erased, and the pointers stay. And an output is
linked to an input of a node that was removed.
-/

namespace DepthaiCore

variable {N O I P : Type*} {G : Ports N O I}

/-! ### Histories -/

/-- A pipeline with the nodes that have been in it. -/
structure History (N O I P : Type*) where
  pipeline : PipelineImpl N O I P
  seen : List N

namespace History

/-- The node is in the pipeline. -/
def Live (h : History N O I P) (n : N) : Prop :=
  n ∈ h.pipeline.getAllNodes

/-- The node has been in the pipeline and no longer is. -/
def Removed (h : History N O I P) (n : N) : Prop :=
  n ∈ h.seen ∧ n ∉ h.pipeline.getAllNodes

instance [DecidableEq N] (h : History N O I P) (n : N) : Decidable (h.Live n) :=
  inferInstanceAs (Decidable (n ∈ h.pipeline.getAllNodes))

instance [DecidableEq N] (h : History N O I P) (n : N) : Decidable (h.Removed n) :=
  inferInstanceAs (Decidable (n ∈ h.seen ∧ n ∉ h.pipeline.getAllNodes))

/-- A pipeline before the first call. Its nodes may have nodes below them, and some may belong to
other pipelines; no output is linked. -/
def fresh (self : P) (isBuild : Bool) (nodeMap : Hierarchy N) (parent : N → Option P) :
    History N O I P where
  pipeline :=
    { self := self
      isBuild := isBuild
      latestId := 0
      nodes := []
      nodeMap := nodeMap
      id := fun _ => -1
      parent := parent
      connections := fun _ => []
      connectedInputs := fun _ => []
      connectedOutputs := fun _ => []
      nodes_parent := by simp }
  seen := []

variable [DecidableEq N] [DecidableEq O] [DecidableEq I]

/-- **The three views agree**: between nodes of the pipeline, an input is in the list of an output
and the output in the list of the input once if the connection is in the set of the node, and not at
all otherwise; `send` of any output goes to the inputs of its connections, and to no removed
node. -/
structure Agree (G : Ports N O I) (h : History N O I P) : Prop where
  inputs : ∀ out input, h.Live (G.outNode out) → h.Live (G.inNode input) →
    (h.pipeline.connectedInputs out).count input =
      if ⟨out, input⟩ ∈ h.pipeline.connections (G.outNode out) then 1 else 0
  outputs : ∀ out input, h.Live (G.outNode out) → h.Live (G.inNode input) →
    (h.pipeline.connectedOutputs input).count out =
      if ⟨out, input⟩ ∈ h.pipeline.connections (G.outNode out) then 1 else 0
  send : ∀ out,
    (Output.send h.pipeline out).Perm ((Output.getConnections G h.pipeline out).map (·.input))
  removed : ∀ out, ∀ input ∈ Output.send h.pipeline out, ¬h.Removed (G.inNode input)

/-- An output is in order: it holds no input twice, each with its connection, and none of a removed
node. -/
@[mk_iff] structure InOrder (G : Ports N O I) (h : History N O I P) (out : O) : Prop where
  nodup : (h.pipeline.connectedInputs out).Nodup
  connected : ∀ input ∈ h.pipeline.connectedInputs out,
    ⟨out, input⟩ ∈ h.pipeline.connections (G.outNode out)
  present : ∀ input ∈ h.pipeline.connectedInputs out, ¬h.Removed (G.inNode input)

variable {h : History N O I P}

omit [DecidableEq N] [DecidableEq O] [DecidableEq I] in
/-- Outputs stay in order when no list and no set changes and no node goes. -/
theorem InOrder.of_eq {t : History N O I P} {out : O} (horder : h.InOrder G out)
    (hinputs : t.pipeline.connectedInputs = h.pipeline.connectedInputs)
    (hconnections : t.pipeline.connections = h.pipeline.connections)
    (hremoved : ∀ n, t.Removed n → h.Removed n) : t.InOrder G out := by
  constructor
  · rw [hinputs]
    exact horder.nodup
  · rw [hinputs, hconnections]
    exact horder.connected
  · rw [hinputs]
    exact fun input hinput hgone => horder.present input hinput (hremoved _ hgone)

/-- **The views agree when every output is in order.** -/
theorem agree_iff (hbook : h.pipeline.Book G) : h.Agree G ↔ ∀ out, h.InOrder G out := by
  constructor
  · intro hagree out
    have hperm := hagree.send out
    refine ⟨hperm.nodup_iff.2 (hbook.nodup_getConnections out), fun input hinput => ?_,
      hagree.removed out⟩
    exact Output.mem_getConnections.1 (hperm.mem_iff.1 hinput)
  · intro horder
    have hcount : ∀ out input, (h.pipeline.connectedInputs out).count input =
        if ⟨out, input⟩ ∈ h.pipeline.connections (G.outNode out) then 1 else 0 := by
      intro out input
      split
      · rename_i hmem
        exact List.count_eq_one_of_mem (horder out).nodup (hbook.listed _ _ hmem)
      · rename_i hmem
        exact List.count_eq_zero.2 fun hinput => hmem ((horder out).connected input hinput)
    constructor
    · exact fun out input _ _ => hcount out input
    · intro out input _ _
      rw [← hbook.counts, hcount]
    · intro out
      refine (List.perm_ext_iff_of_nodup (horder out).nodup (hbook.nodup_getConnections out)).2
        fun input => ?_
      rw [Output.mem_getConnections]
      exact ⟨(horder out).connected input, hbook.listed _ _⟩
    · exact fun out => (horder out).present

/-- What holds of every history: the book, and that the nodes in the pipeline are its own and have
been in it. -/
structure Sound (G : Ports N O I) (h : History N O I P) : Prop where
  book : h.pipeline.Book G
  owned : h.pipeline.Owned
  seen : h.pipeline.getAllNodes ⊆ h.seen

theorem sound_fresh (self : P) (isBuild : Bool) (nodeMap : Hierarchy N) (parent : N → Option P) :
    (fresh self isBuild nodeMap parent : History N O I P).Sound G := by
  refine ⟨⟨?_, ?_, ?_, ?_⟩, ?_, ?_⟩
  · intro out input
    rfl
  · intro m c hc
    cases hc
  · intro m c hc
    cases hc
  · intro m
    exact List.Pairwise.nil
  · intro n hn
    cases hn
  · intro n hn
    cases hn

/-! ### Calls that keep the views equal -/

variable [DecidableEq P]

/-- A call, which may throw. -/
def next (G : Ports N O I) (h : History N O I P) (c : PipelineCall N O I) : History N O I P where
  pipeline := (h.pipeline.call G c).1
  seen := h.seen ++ (h.pipeline.call G c).1.getAllNodes

/-- The nodes that a `remove` leaves: those below the nodes of the list, once the node is taken off
the list and out of the children of the nodes on it. -/
def remaining (h : History N O I P) (toRemove : N) : List N :=
  (h.pipeline.eraseNode toRemove).nodes.flatMap
    (h.pipeline.nodeMap.without (h.pipeline.eraseNode toRemove).nodes toRemove).subtree

/-- What a call that passes its checks must not do. -/
def StepOk (G : Ports N O I) (h : History N O I P) (c : PipelineCall N O I) : Prop :=
  c.Accepted G h.pipeline →
    match c with
    | .add _ => True
    | .link _ input => ¬h.Removed (G.inNode input)
    -- The very output and input are linked, not others of the same names.
    | .unlink out input => ⟨out, input⟩ ∈ h.pipeline.connections (G.outNode out)
    -- No output holds an input that goes, and none below the nodes that stay on the list has a link
    -- from or to the node or a child of it.
    | .remove toRemove => ∀ out, ∀ input ∈ h.pipeline.connectedInputs out,
        (h.Live (G.inNode input) → G.inNode input ∈ h.remaining toRemove) ∧
          (G.outNode out ∈ (h.pipeline.eraseNode toRemove).getAllNodes →
            G.inNode input ∉ h.pipeline.withChildren toRemove ∧
              G.outNode out ∉ h.pipeline.withChildren toRemove)

instance [Fintype O] (c : PipelineCall N O I) : Decidable (h.StepOk G c) :=
  match c with
  | .add node => inferInstanceAs (Decidable ((PipelineCall.add node).Accepted G h.pipeline → True))
  | .link out input => inferInstanceAs (Decidable
      ((PipelineCall.link out input).Accepted G h.pipeline → ¬h.Removed (G.inNode input)))
  | .unlink out input => inferInstanceAs (Decidable
      ((PipelineCall.unlink out input).Accepted G h.pipeline →
        ⟨out, input⟩ ∈ h.pipeline.connections (G.outNode out)))
  | .remove toRemove => inferInstanceAs (Decidable
      ((PipelineCall.remove toRemove).Accepted G h.pipeline →
        ∀ out, ∀ input ∈ h.pipeline.connectedInputs out,
          (h.Live (G.inNode input) → G.inNode input ∈ h.remaining toRemove) ∧
            (G.outNode out ∈ (h.pipeline.eraseNode toRemove).getAllNodes →
              G.inNode input ∉ h.pipeline.withChildren toRemove ∧
                G.outNode out ∉ h.pipeline.withChildren toRemove)))

theorem Sound.next (hsound : h.Sound G) (c : PipelineCall N O I) : (h.next G c).Sound G where
  book := PipelineImpl.book_call hsound.book c
  owned := hsound.owned.call c
  seen := List.subset_append_right _ _

/-! ### One call -/

theorem removed_next_iff {c : PipelineCall N O I} {n : N} :
    (h.next G c).Removed n ↔ n ∈ h.seen ∧ ¬(h.next G c).Live n := by
  show (n ∈ h.seen ++ (h.pipeline.call G c).1.getAllNodes ∧ _) ↔ _
  rw [List.mem_append]
  constructor
  · rintro ⟨hseen | hlive, hnot⟩
    · exact ⟨hseen, hnot⟩
    · exact absurd hlive hnot
  · rintro ⟨hseen, hnot⟩
    exact ⟨.inl hseen, hnot⟩

theorem agree_next_of_not {c : PipelineCall N O I} (hsound : h.Sound G) (hagree : h.Agree G)
    (hnot : ¬c.Accepted G h.pipeline) : (h.next G c).Agree G := by
  have hgraph : h.pipeline.SameGraph (h.next G c).pipeline := PipelineImpl.sameGraph_call hnot
  rw [agree_iff hsound.book] at hagree
  rw [agree_iff (hsound.next c).book]
  intro out
  refine (hagree out).of_eq hgraph.connectedInputs hgraph.connections fun n hgone => ?_
  rw [removed_next_iff, Live, hgraph.getAllNodes] at hgone
  exact hgone

theorem agree_next_add {node : Option N} (hsound : h.Sound G) (hagree : h.Agree G)
    (hok : (PipelineCall.add node : PipelineCall N O I).Accepted G h.pipeline) :
    (h.next G (.add node)).Agree G := by
  cases node with
  | none => exact hok.elim
  | some node =>
    obtain ⟨t, hnode, heq, hgraph, -⟩ := PipelineImpl.exists_add hok
    have hpipeline : (h.next G (.add (some node))).pipeline = t.pushNode node hnode := by
      rw [next, PipelineImpl.call, heq]
    rw [agree_iff hsound.book] at hagree
    rw [agree_iff (hsound.next _).book]
    intro out
    refine (hagree out).of_eq ?_ ?_ fun n hgone => ?_
    · rw [hpipeline]
      exact hgraph.connectedInputs
    · rw [hpipeline]
      exact hgraph.connections
    · rw [removed_next_iff, Live, hpipeline, PipelineImpl.getAllNodes_pushNode, List.mem_append,
        hgraph.getAllNodes] at hgone
      exact ⟨hgone.1, fun hlive => hgone.2 (.inl hlive)⟩

theorem agree_next_link {out : O} {input : I} (hsound : h.Sound G) (hagree : h.Agree G)
    (hok : (PipelineCall.link out input).Accepted G h.pipeline) :
    (h.next G (.link out input)).Agree G ↔ ¬h.Removed (G.inNode input) := by
  have hpipeline : (h.next G (.link out input)).pipeline = h.pipeline.linked G out input := by
    rw [next, PipelineImpl.call, Output.link_eq hok]
  have hremoved : ∀ n, (h.next G (.link out input)).Removed n ↔ h.Removed n := by
    intro n
    rw [removed_next_iff, Live, hpipeline]
    rfl
  rw [agree_iff hsound.book] at hagree
  rw [agree_iff (hsound.next _).book]
  simp only [inOrder_iff, hremoved, hpipeline, PipelineImpl.connectedInputs_linked,
    PipelineImpl.mem_connections_linked]
  constructor
  · intro horder
    exact (horder out).2.2 input (by simp)
  · intro hthere out'
    obtain ⟨hnodup, hconnected, hpresent⟩ := hagree out'
    by_cases hout : out' = out
    · subst hout
      have hnew : input ∉ h.pipeline.connectedInputs out' :=
        fun hmem => hok.2 _ (hconnected input hmem) (Ports.same_refl _)
      rw [if_pos rfl]
      refine ⟨List.nodup_append.2 ⟨hnodup, List.nodup_singleton _, ?_⟩, ?_, ?_⟩
      · rintro i hi j hj rfl
        exact hnew (List.mem_singleton.1 hj ▸ hi)
      · intro i hi
        rcases List.mem_append.1 hi with hi | hi
        · exact .inl (hconnected i hi)
        · exact .inr ⟨rfl, by rw [List.mem_singleton.1 hi]⟩
      · intro i hi
        rcases List.mem_append.1 hi with hi | hi
        · exact hpresent i hi
        · rwa [List.mem_singleton.1 hi]
    · rw [if_neg hout]
      exact ⟨hnodup, fun i hi => .inl (hconnected i hi), hpresent⟩

theorem agree_next_unlink {out : O} {input : I} (hsound : h.Sound G) (hagree : h.Agree G)
    (hok : (PipelineCall.unlink out input).Accepted G h.pipeline) :
    (h.next G (.unlink out input)).Agree G ↔
      ⟨out, input⟩ ∈ h.pipeline.connections (G.outNode out) := by
  have hpipeline : (h.next G (.unlink out input)).pipeline = h.pipeline.unlinked G out input := by
    rw [next, PipelineImpl.call, Output.unlink_eq hok]
  have hremoved : ∀ n, (h.next G (.unlink out input)).Removed n ↔ h.Removed n := by
    intro n
    rw [removed_next_iff, Live, hpipeline]
    rfl
  rw [agree_iff hsound.book] at hagree
  rw [agree_iff (hsound.next _).book]
  simp only [inOrder_iff, hremoved, hpipeline, PipelineImpl.connectedInputs_unlinked,
    PipelineImpl.mem_connections_unlinked]
  constructor
  · intro horder
    -- If the connection that is erased were another one, its pointers would stay.
    obtain ⟨c, hc, hsame⟩ := hok
    by_contra hmissing
    have hne : c ≠ ⟨out, input⟩ := by
      rintro rfl
      exact hmissing hc
    have hnode := hsound.book.outNode _ c hc
    have hstays : c.input ∈ if c.out = out then (h.pipeline.connectedInputs out).filter (· ≠ input)
        else h.pipeline.connectedInputs c.out := by
      have hlisted := hsound.book.listed _ c hc
      split
      · rename_i hcout
        rw [hcout] at hlisted
        have hinput : c.input ≠ input := fun hinput => hne (ConnectionInternal.ext hcout hinput)
        simpa [hinput] using hlisted
      · exact hlisted
    exact ((horder c.out).2.1 c.input hstays).2 hnode hsame
  · intro hmem out'
    obtain ⟨hnodup, hconnected, hpresent⟩ := hagree out'
    -- The connection that is erased is the one of the pointers, so every other one stays.
    have hstays : ∀ i ∈ h.pipeline.connectedInputs out', (out' = out → i ≠ input) →
        G.outNode out' = G.outNode out → ¬G.same ⟨out, input⟩ ⟨out', i⟩ := by
      intro i hi hne hnode hsame
      have hold := hconnected i hi
      rw [hnode] at hold
      have heq := hsound.book.eq_of_same hmem hold hsame
      rw [ConnectionInternal.mk.injEq] at heq
      exact hne heq.1.symm heq.2.symm
    by_cases hout : out' = out
    · subst hout
      rw [if_pos rfl]
      refine ⟨hnodup.filter _, ?_, ?_⟩
      · intro i hi
        obtain ⟨hi, hne⟩ := List.mem_filter.1 hi
        exact ⟨hconnected i hi, hstays i hi fun _ => by simpa using hne⟩
      · exact fun i hi => hpresent i (List.mem_filter.1 hi).1
    · rw [if_neg hout]
      exact ⟨hnodup, fun i hi => ⟨hconnected i hi, hstays i hi fun h => absurd h hout⟩, hpresent⟩

theorem agree_next_remove {toRemove : N} (hsound : h.Sound G) (hagree : h.Agree G)
    (hok : (PipelineCall.remove toRemove : PipelineCall N O I).Accepted G h.pipeline) :
    (h.next G (.remove toRemove)).Agree G ↔
      ∀ out, ∀ input ∈ h.pipeline.connectedInputs out,
        (h.Live (G.inNode input) → G.inNode input ∈ h.remaining toRemove) ∧
          (G.outNode out ∈ (h.pipeline.eraseNode toRemove).getAllNodes →
            G.inNode input ∉ h.pipeline.withChildren toRemove ∧
              G.outNode out ∉ h.pipeline.withChildren toRemove) := by
  have hpipeline : (h.next G (.remove toRemove)).pipeline = h.pipeline.removed G toRemove := by
    rw [next, PipelineImpl.call, PipelineImpl.remove_eq hok]
  have hlive : ∀ n, (h.next G (.remove toRemove)).Live n ↔ n ∈ h.remaining toRemove := by
    intro n
    rw [Live, hpipeline]
    rfl
  have hinputs : (h.next G (.remove toRemove)).pipeline.connectedInputs =
      h.pipeline.connectedInputs := by
    rw [hpipeline]
    rfl
  have hconnections : ∀ {m c}, c ∈ (h.next G (.remove toRemove)).pipeline.connections m ↔
      c ∈ h.pipeline.connections m ∧ (m ∈ (h.pipeline.eraseNode toRemove).getAllNodes →
        G.inNode c.input ∉ h.pipeline.withChildren toRemove ∧
          G.outNode c.out ∉ h.pipeline.withChildren toRemove) := by
    intro m c
    rw [hpipeline]
    exact PipelineImpl.mem_connections_removed
  rw [agree_iff hsound.book] at hagree
  rw [agree_iff (hsound.next _).book]
  simp only [inOrder_iff, hinputs, hconnections, removed_next_iff, hlive]
  refine forall_congr' fun out => ?_
  obtain ⟨hnodup, hconnected, hpresent⟩ := hagree out
  constructor
  · rintro ⟨-, hkept, hleft⟩ input hinput
    refine ⟨fun hin => ?_, (hkept input hinput).2⟩
    by_contra hnot
    exact hleft input hinput ⟨hsound.seen hin, hnot⟩
  · intro hstep
    refine ⟨hnodup, fun input hinput => ⟨hconnected input hinput, (hstep input hinput).2⟩, ?_⟩
    rintro input hinput ⟨hseen, hnot⟩
    by_cases hin : h.Live (G.inNode input)
    · exact hnot ((hstep input hinput).1 hin)
    · exact hpresent input hinput ⟨hseen, hin⟩

/-- **Where the views agree, they do after a call exactly when the call is `StepOk`.** -/
theorem agree_next_iff (hsound : h.Sound G) (hagree : h.Agree G) (c : PipelineCall N O I) :
    (h.next G c).Agree G ↔ h.StepOk G c := by
  by_cases hok : c.Accepted G h.pipeline
  · cases c with
    | add node => exact iff_of_true (agree_next_add hsound hagree hok) fun _ => trivial
    | link out input =>
      exact (agree_next_link hsound hagree hok).trans (imp_iff_right hok).symm
    | unlink out input =>
      exact (agree_next_unlink hsound hagree hok).trans (imp_iff_right hok).symm
    | remove toRemove =>
      exact (agree_next_remove hsound hagree hok).trans (imp_iff_right hok).symm
  · exact iff_of_true (agree_next_of_not hsound hagree hok) fun h' => absurd h' hok

/-! ### Runs -/

/-- A call as a step: every call can be made in every state. -/
def step (G : Ports N O I) (h : History N O I P) (c : PipelineCall N O I) :
    Option (History N O I P) :=
  some (h.next G c)

theorem Sound.run {tr : List (History N O I P × PipelineCall N O I)} {t : History N O I P}
    (hsound : h.Sound G) (hrun : Transition.Run (step G) h tr t) : t.Sound G := by
  refine hrun.invariant (fun h c t hsound hstep => ?_) hsound
  rw [← Option.some.inj hstep]
  exact hsound.next c

/-- **Along a run the views agree in every state exactly when every call is `StepOk`.** The calls
may throw, and the first one that is not `StepOk` makes the views differ. -/
theorem agree_run_iff {self : P} {isBuild : Bool} {nodeMap : Hierarchy N} {parent : N → Option P}
    {tr : List (History N O I P × PipelineCall N O I)}
    (hrun : Transition.Run (step G) (fresh self isBuild nodeMap parent) tr h) :
    ((∀ p ∈ tr, p.1.Agree G) ∧ h.Agree G) ↔ ∀ p ∈ tr, p.1.StepOk G p.2 := by
  induction hrun with
  | nil =>
    have hstart : (fresh self isBuild nodeMap parent : History N O I P).Agree G := by
      rw [agree_iff (sound_fresh self isBuild nodeMap parent).book]
      exact fun out => ⟨List.nodup_nil, by simp [fresh], by simp [fresh]⟩
    simp [hstart]
  | @snoc t u c tr hrun hstep ih =>
    obtain rfl := Option.some.inj hstep
    have hsound : t.Sound G := (sound_fresh self isBuild nodeMap parent).run hrun
    simp only [List.forall_mem_append, List.forall_mem_singleton]
    rw [← ih]
    constructor
    · rintro ⟨⟨htr, ht⟩, hu⟩
      exact ⟨⟨htr, ht⟩, (agree_next_iff hsound ht c).1 hu⟩
    · rintro ⟨⟨htr, ht⟩, hok⟩
      exact ⟨⟨htr, ht⟩, (agree_next_iff hsound ht c).2 hok⟩

/-- Two nodes, `A` and `B`, with an output `A.out` and an input `B.in` for any buffer. -/
def twoNodes : Ports Bool Unit Unit where
  nodeName n := if n then "B" else "A"
  outNode _ := false
  outName _ := "out"
  outGroup _ := ""
  outType _ := .MSender
  outDatatypes _ := [⟨.Buffer, true, DatatypeEnum.buffer_ne⟩]
  inNode _ := true
  inName _ := "in"
  inGroup _ := ""
  inType _ := .SReceiver
  inDatatypes _ := [⟨.Buffer, true, DatatypeEnum.buffer_ne⟩]

/-- A pipeline and two nodes that are not in it. -/
def start : History Bool Unit Unit Unit :=
  fresh () false ⟨fun _ => [], fun _ => 0, by simp⟩ fun _ => none

/-- Nodes that are unlinked before one of them is removed. -/
theorem agree_run_unlink :
    let calls : List (PipelineCall Bool Unit Unit) :=
      [.add (some false), .add (some true), .link () (), .unlink () (), .remove true]
    ((∀ p ∈ ((Transition.exec (step twoNodes) start calls).get (by decide)).1,
        p.1.Agree twoNodes) ∧
      ((Transition.exec (step twoNodes) start calls).get (by decide)).2.Agree twoNodes) :=
  (agree_run_iff (Transition.Run.of_isSome _)).2 (by decide)

/-- `A.out` still sends to `B.in` when `B` has been removed. -/
theorem agree_run_remove : ¬(([.add (some false), .add (some true), .link () (), .remove true].foldl
    (next twoNodes) start).Agree twoNodes) := by
  intro h
  exact h.removed () () (by decide) (by decide)

end History

end DepthaiCore
