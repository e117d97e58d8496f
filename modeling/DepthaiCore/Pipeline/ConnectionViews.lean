import DepthaiCore.Pipeline.PipelineCalls

/-!
# The book of the connections

The set of a node, the list of an output and the list of an input are kept by different functions.
`link` writes all three. `unlink` compares what it erases from the set by name and what it erases
from the lists by pointer. `remove` erases from the sets only. So the three can come apart, but only
in one way: the two lists always say the same, and a set never holds more than the lists do.
-/

namespace DepthaiCore

/-! ### Lists of the two ends -/

section Count

variable {A B : Type*} [DecidableEq A] [DecidableEq B] (lists : A → List B)

theorem count_update_append (a a' : A) (b b' : B) :
    (Function.update lists a (lists a ++ [b]) a').count b' =
      (lists a').count b' + if a' = a ∧ b' = b then 1 else 0 := by
  by_cases ha : a' = a
  · subst ha
    rw [Function.update_self, List.count_append, List.count_singleton']
    simp [eq_comm]
  · simp [ha]

theorem count_update_filter (a a' : A) (b b' : B) :
    (Function.update lists a ((lists a).filter (· ≠ b)) a').count b' =
      if a' = a ∧ b' = b then 0 else (lists a').count b' := by
  by_cases ha : a' = a
  · subst ha
    rw [Function.update_self]
    by_cases hb : b' = b
    · subst hb
      simp [List.count_eq_zero]
    · rw [List.count_filter (by simpa using hb)]
      simp [hb]
  · simp [ha]

end Count

variable {N O I P : Type*} [DecidableEq N] [DecidableEq O] [DecidableEq I]
variable {G : Ports N O I} {s : PipelineImpl N O I P}

/-! ### What every call keeps -/

omit [DecidableEq N] [DecidableEq I] in
theorem Output.mem_getConnections {out : O} {input : I} :
    input ∈ (Output.getConnections G s out).map (·.input) ↔
      ⟨out, input⟩ ∈ s.connections (G.outNode out) := by
  simp only [Output.getConnections, List.mem_map, List.mem_filter, decide_eq_true_eq]
  constructor
  · rintro ⟨c, ⟨hc, rfl⟩, rfl⟩
    exact hc
  · intro hc
    exact ⟨_, ⟨hc, rfl⟩, rfl⟩

/-- The list of an output and the list of an input have each other equally often, and what is in the
set of a node is in the list of the output. -/
structure PipelineImpl.Book (G : Ports N O I) (s : PipelineImpl N O I P) : Prop where
  counts : ∀ out input, (s.connectedInputs out).count input = (s.connectedOutputs input).count out
  outNode : ∀ m, ∀ c ∈ s.connections m, G.outNode c.out = m
  listed : ∀ m, ∀ c ∈ s.connections m, c.input ∈ s.connectedInputs c.out
  distinct : ∀ m, (s.connections m).Pairwise fun a b => ¬G.same a b

namespace PipelineImpl.Book

theorem eq_of_same (hbook : s.Book G) {m : N} {a b : ConnectionInternal O I}
    (ha : a ∈ s.connections m) (hb : b ∈ s.connections m) (h : G.same a b) : a = b := by
  have : Std.Symm fun a b : ConnectionInternal O I => ¬G.same a b :=
    ⟨fun a b h h' => h (Ports.same_symm h')⟩
  by_contra hne
  exact (hbook.distinct m).forall ha hb hne h

/-- The inputs of the connections of an output are different. -/
theorem nodup_getConnections (hbook : s.Book G) (out : O) :
    ((Output.getConnections G s out).map (·.input)).Nodup := by
  have hnodup : (Output.getConnections G s out).Nodup := by
    refine ((hbook.distinct _).filter _).imp fun {a b} hne heq => hne ?_
    rw [heq]
    exact Ports.same_refl b
  refine List.Nodup.map_on (fun a ha b hb hinput => ?_) hnodup
  rw [Output.getConnections, List.mem_filter, decide_eq_true_eq] at ha hb
  exact ConnectionInternal.ext (ha.2.trans hb.2.symm) hinput

theorem of_sameGraph (hbook : s.Book G) {t : PipelineImpl N O I P} (h : s.SameGraph t) :
    t.Book G := by
  constructor
  · rw [h.connectedInputs, h.connectedOutputs]
    exact hbook.counts
  · rw [h.connections]
    exact hbook.outNode
  · rw [h.connections, h.connectedInputs]
    exact hbook.listed
  · rw [h.connections]
    exact hbook.distinct

theorem linked (hbook : s.Book G) {out : O} {input : I}
    (h : (PipelineCall.link out input).Accepted G s) : (s.linked G out input).Book G := by
  constructor
  case counts =>
    intro o i
    show (Function.update s.connectedInputs out (s.connectedInputs out ++ [input]) o).count i =
      (Function.update s.connectedOutputs input (s.connectedOutputs input ++ [out]) i).count o
    rw [count_update_append, count_update_append, hbook.counts]
    simp only [and_comm]
  case outNode =>
    intro m c hc
    rcases PipelineImpl.mem_connections_linked.1 hc with hc | ⟨rfl, rfl⟩
    · exact hbook.outNode m c hc
    · rfl
  case listed =>
    intro m c hc
    rw [PipelineImpl.connectedInputs_linked]
    rcases PipelineImpl.mem_connections_linked.1 hc with hc | ⟨-, rfl⟩
    · have hold := hbook.listed m c hc
      split
      · rename_i hout
        exact List.mem_append_left _ (hout ▸ hold)
      · exact hold
    · simp
  case distinct =>
    intro m
    by_cases hm : m = G.outNode out
    · subst hm
      rw [PipelineImpl.linked]
      simp only [Function.update_self]
      refine List.pairwise_append.2 ⟨hbook.distinct _, List.pairwise_singleton _ _, ?_⟩
      intro a ha b hb hsame
      rw [List.mem_singleton.1 hb] at hsame
      exact h.2 a ha (Ports.same_symm hsame)
    · simpa [PipelineImpl.linked, hm] using hbook.distinct m

theorem unlinked (hbook : s.Book G) (out : O) (input : I) : (s.unlinked G out input).Book G := by
  constructor
  case counts =>
    intro o i
    show (Function.update s.connectedInputs out
        ((s.connectedInputs out).filter (· ≠ input)) o).count i =
      (Function.update s.connectedOutputs input
        ((s.connectedOutputs input).filter (· ≠ out)) i).count o
    rw [count_update_filter, count_update_filter, hbook.counts]
    simp only [and_comm]
  case outNode =>
    exact fun m c hc => hbook.outNode m c (PipelineImpl.mem_connections_unlinked.1 hc).1
  case listed =>
    intro m c hc
    obtain ⟨hold, hne⟩ := PipelineImpl.mem_connections_unlinked.1 hc
    rw [PipelineImpl.connectedInputs_unlinked]
    split
    · rename_i hout
      rw [List.mem_filter]
      refine ⟨hout ▸ hbook.listed m c hold, ?_⟩
      have hm : m = G.outNode out := by rw [← hout, hbook.outNode m c hold]
      have hinput : c.input ≠ input := by
        rintro rfl
        exact hne hm (hout ▸ Ports.same_refl c)
      simpa using hinput
    · exact hbook.listed m c hold
  case distinct =>
    intro m
    by_cases hm : m = G.outNode out
    · subst hm
      simpa [PipelineImpl.unlinked] using (hbook.distinct _).filter _
    · simpa [PipelineImpl.unlinked, hm] using hbook.distinct m

theorem removed (hbook : s.Book G) (toRemove : N) : (s.removed G toRemove).Book G := by
  have hsub : ∀ m, ((s.removed G toRemove).connections m).Sublist (s.connections m) := by
    intro m
    show ((s.eraseNode toRemove).erased G toRemove m).Sublist (s.connections m)
    rw [PipelineImpl.erased]
    split
    · exact List.filter_sublist
    · exact List.Sublist.refl _
  constructor
  · exact hbook.counts
  · exact fun m c hc => hbook.outNode m c ((hsub m).subset hc)
  · exact fun m c hc => hbook.listed m c ((hsub m).subset hc)
  · exact fun m => (hbook.distinct m).sublist (hsub m)

end PipelineImpl.Book

/-- **Every call keeps the book.** -/
theorem PipelineImpl.book_call [DecidableEq P] (hbook : s.Book G) (c : PipelineCall N O I) :
    (s.call G c).1.Book G := by
  by_cases h : c.Accepted G s
  · cases c with
    | add node =>
      cases node with
      | none => exact h.elim
      | some node =>
        obtain ⟨t, hnode, heq, hgraph, -⟩ := exists_add h
        rw [call, heq]
        -- The list of the nodes is not in the book.
        obtain ⟨hcounts, houtNode, hlisted, hdistinct⟩ := hbook.of_sameGraph hgraph
        exact ⟨hcounts, houtNode, hlisted, hdistinct⟩
    | link out input =>
      rw [call, Output.link_eq h]
      exact hbook.linked h
    | unlink out input =>
      rw [call, Output.unlink_eq h]
      exact hbook.unlinked out input
    | remove toRemove =>
      rw [call, remove_eq h]
      exact hbook.removed toRemove
  · exact hbook.of_sameGraph (sameGraph_call h)

end DepthaiCore
