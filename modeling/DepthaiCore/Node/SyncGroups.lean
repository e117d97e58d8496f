import DepthaiCore.Lib.Numerals
import DepthaiCore.Node.SyncRun
import Mathlib.Data.List.Induction

/-!
# The groups of a `Sync` node

The invariant of `SyncRun` describes each group by the groups before it, so two runs over the same
inputs send the same groups, however they go through the messages in hand: one of them may only have
got further than the other. And a node with a group ahead of it gets there, since every step before
brings it closer.
-/

open scoped Numerals

namespace DepthaiCore

namespace Sync

open Transition

variable {ι : Type*}

namespace Node

variable {node : Node ι} {inputs : Inputs ι}

/-! ### Independence of the iteration orders -/

/-- What is determined about a group that is sent: the positions of its messages, the messages, and
the time stamp. -/
def determined (e : (ι → ℕ) × MessageGroup ι) : (ι → ℕ) × List (ι × Buffer) × ℤ :=
  (e.1, e.2.group, e.2.timestamp)

theorem remaining_congr {sent sent' : List ((ι → ℕ) × MessageGroup ι)}
    (h : sent.map determined = sent'.map determined) :
    node.Remaining inputs sent = node.Remaining inputs sent' := by
  have hfst : sent.map Prod.fst = sent'.map Prod.fst := by
    have hmap := congrArg (List.map Prod.fst) h
    rwa [List.map_map, List.map_map] at hmap
  ext T
  have hsame : ∀ sent : List ((ι → ℕ) × MessageGroup ι),
      (∀ e ∈ sent, ∀ i ∈ node.inputNames, T i ≠ e.1 i) ↔
        ∀ P ∈ sent.map Prod.fst, ∀ i ∈ node.inputNames, T i ≠ P i := by
    simp
  exact and_congr_right fun _ => by rw [hsame, hsame, hfst]

theorem Emitted.determined_eq {before before' : List ((ι → ℕ) × MessageGroup ι)}
    {e e' : (ι → ℕ) × MessageGroup ι} (he : node.Emitted inputs before e)
    (he' : node.Emitted inputs before' e')
    (h : before.map determined = before'.map determined) : determined e = determined e' := by
  have hfst : e.1 = e'.1 := he.isLeast.unique (remaining_congr h ▸ he'.isLeast)
  have hgroup : e.2.group = e'.2.group := by rw [he.group, he'.group, hfst]
  obtain ⟨x, hx, hxts, -⟩ := he.newest_mem
  obtain ⟨y, hy, hyts, -⟩ := he'.newest_mem
  have hxle := he'.le_timestamp x (hgroup ▸ hx)
  have hyle := he.le_timestamp y (hgroup ▸ hy)
  have hts : e.2.timestamp = e'.2.timestamp := by omega
  rw [determined, determined, hfst, hgroup, hts]

/-- Of two lists of groups, each determined by the ones before, the shorter is a prefix. -/
theorem prefix_of_emitted {sent sent' : List ((ι → ℕ) × MessageGroup ι)}
    (h : ∀ before e after, sent = before ++ e :: after → node.Emitted inputs before e)
    (h' : ∀ before e after, sent' = before ++ e :: after → node.Emitted inputs before e)
    (hlen : sent.length ≤ sent'.length) :
    sent.map determined <+: sent'.map determined := by
  induction sent using List.reverseRecOn with
  | nil => exact List.nil_prefix
  | append_singleton sent e ih =>
    rw [List.length_append, List.length_singleton] at hlen
    have hinitial := ih (fun before e' after heq =>
      h before e' (after ++ [e]) (by rw [heq]; simp)) (by omega)
    obtain ⟨rest, hrest⟩ := hinitial
    -- the longer list goes on after the common part
    have hsplit : sent' = sent'.take sent.length ++ sent'.drop sent.length :=
      (List.take_append_drop _ _).symm
    have hcommon : sent.map determined = (sent'.take sent.length).map determined := by
      rw [List.map_take, ← hrest, List.take_left' (List.length_map _)]
    cases hdrop : sent'.drop sent.length with
    | nil =>
      have := congrArg List.length hdrop
      rw [List.length_drop, List.length_nil] at this
      omega
    | cons e' after =>
      rw [hdrop] at hsplit
      have hdetermined := (h sent e [] rfl).determined_eq (h' _ e' after hsplit) hcommon
      refine ⟨after.map determined, ?_⟩
      rw [hsplit, List.map_append, List.map_append, List.map_cons, List.map_cons, List.map_nil,
        hcommon, hdetermined, List.append_assoc]
      rfl

variable [DecidableEq ι] {tr tr' : List (State ι × Action ι)} {s s' : State ι}

/-- **Independence.** Of two runs over the same inputs, one sends the groups of the other and
perhaps some more. -/
theorem emissions_agree (h : node.Correct inputs tr s) (h' : node.Correct inputs tr' s') :
    (node.emissions tr).map determined <+: (node.emissions tr').map determined ∨
      (node.emissions tr').map determined <+: (node.emissions tr).map determined := by
  rcases Nat.le_total (node.emissions tr).length (node.emissions tr').length with hlen | hlen
  · exact .inl (prefix_of_emitted h.emitted h'.emitted hlen)
  · exact .inr (prefix_of_emitted h'.emitted h.emitted hlen)

/-! ### Progress -/

omit [DecidableEq ι] in
theorem InSync.exists_get? {T : ι → ℕ} (hT : node.InSync inputs T) {i : ι}
    (hi : i ∈ node.inputNames) {n : ℕ} (hn : n ≤ T i) : ∃ msg, (inputs i).get? n = some msg := by
  obtain ⟨a, ha⟩ := hT.exists_stamp i hi
  rw [← Option.ne_none_iff_exists']
  intro hnone
  rw [stamps, (inputs i).le_stable hn hnone] at ha
  cases ha

/-- With a group ahead of it, the node is not left waiting for an input. -/
theorem exists_step (h : node.Correct inputs tr s)
    (hmono : Alignment.NonDecreasing (stamps inputs)) {T : ι → ℕ}
    (hT : T ∈ node.Remaining inputs (node.emissions tr)) : ∃ a t, node.step inputs s a = some t := by
  have hkeys := h.sound.keys
  cases hpc : s.pc with
  | receiving todo =>
    rw [hpc] at hkeys
    obtain ⟨name, todo, rfl⟩ := List.exists_cons_of_ne_nil hkeys.1
    obtain ⟨hnames, hnotin⟩ := h.sound.notMem_keys hpc
    have hfront : s.front name = s.received name := if_neg hnotin
    have hname : name ∈ node.inputNames := by rw [← hnames]; simp
    obtain ⟨msg, hmsg⟩ := hT.1.exists_get? hname (hfront ▸ h.front_mem hT name)
    exact ⟨.receive, _, by simp only [step, hpc, State.get, hmsg, Option.map_some]; rfl⟩
  | matching attempts =>
    rw [hpc] at hkeys
    have hne : s.inputFrames ≠ [] := by
      intro hnil
      rw [State.keys, hnil] at hkeys
      exact node.inputNames_ne_nil (List.Perm.nil_eq hkeys).symm
    have hdecision : node.decision s s.inputFrames = node.verdict attempts s.inputFrames := by
      simp [decision, hpc]
    refine ⟨.attempt s.inputFrames, ?_⟩
    obtain ⟨verdict, hverdict⟩ := Option.isSome_iff_exists.mp
      (node.verdict_isSome hne : (node.verdict attempts s.inputFrames).isSome)
    cases verdict with
    | send g => exact ⟨_, by simp only [step, hdecision, hverdict]; rfl⟩
    | replace name =>
      obtain ⟨oldest, -, holdest, -, -⟩ := node.oldest_of_replace hverdict
      have hlt := Nat.lt_of_le_of_ne (h.front_mem hT name)
        (h.ne_front hmono (.refl _) hverdict T hT).symm
      have hnext : s.received name ≤ T name := by
        rw [h.sound.received_eq holdest]
        exact hlt
      obtain ⟨msg, hmsg⟩ :=
        hT.1.exists_get? (h.sound.keys.subset (State.mem_keys holdest)) hnext
      exact ⟨_, by simp only [step, hdecision, hverdict, hpc, State.get, hmsg, Option.map_some]; rfl⟩

end Node

/-- The number of inputs a node has yet to receive from before it matches. -/
def Pc.todo : Pc ι → ℕ
  | .receiving todo => todo.length
  | .matching _ => 0

theorem Pc.todo_receive (todo : List ι) : (Pc.receive todo).todo = todo.length := by
  cases todo <;> rfl

/-- The steps a node can take before it sends, if it is to send the messages at `T` at the latest. -/
def Node.stepsLeft [DecidableEq ι] (node : Node ι) (s : State ι) (T : ι → ℕ) : ℕ :=
  s.pc.todo + Alignment.distance node.inputNames s.front T

namespace Node

variable {node : Node ι} {inputs : Inputs ι} [DecidableEq ι] {tr tr' : List (State ι × Action ι)}
  {s t : State ι} {a : Action ι}

/-- A step that sends nothing brings the node closer to every group that is still possible. -/
theorem stepsLeft_lt (h : node.Correct inputs tr s)
    (hmono : Alignment.NonDecreasing (stamps inputs)) {T : ι → ℕ}
    (hT : T ∈ node.Remaining inputs (node.emissions tr)) (hstep : node.step inputs s a = some t)
    (hsends : node.sends (s, a) = none) : node.stepsLeft t T < node.stepsLeft s T := by
  have heff := node.step_effect hstep
  rw [hsends] at heff
  generalize node.drops (s, a) = d, node.gets (s, a) = i at heff
  cases heff with
  | @receive name todo msg hpc hmsg =>
    have htodo : (s.took name msg s.inputFrames (.receive todo)).pc.todo = todo.length :=
      Pc.todo_receive todo
    rw [stepsLeft, stepsLeft, h.sound.front_receive hpc, htodo, hpc, Pc.todo, List.length_cons]
    omega
  | @replace order attempts name msg hpc hperm hverdict hmsg =>
    obtain ⟨oldest, -, holdest, -, -⟩ := node.oldest_of_replace hverdict
    have hlt := Nat.lt_of_le_of_ne (h.front_mem hT name) (h.ne_front hmono hperm hverdict T hT).symm
    have hname : name ∈ node.inputNames :=
      h.sound.keys.subset (State.mem_keys (hperm.mem_iff.mp holdest))
    have hdistance := Alignment.distance_update_lt hname hlt
    rw [stepsLeft, stepsLeft, h.sound.front_replace hperm holdest, hpc]
    exact Nat.add_lt_add_left hdistance 0

/-- **Progress.** With a group ahead of it, the node sends one after finitely many steps. -/
theorem emissions_ne_nil (hattempts : node.properties.syncAttempts = -1)
    (hmono : Alignment.NonDecreasing (stamps inputs)) (h : node.Correct inputs tr s) {T : ι → ℕ}
    (hT : T ∈ node.Remaining inputs (node.emissions tr)) (hrun : Run (node.step inputs) s tr' t)
    (hlong : node.stepsLeft s T < tr'.length) : node.emissions tr' ≠ [] := by
  intro hnone
  have hbound : node.Correct inputs (tr ++ tr') t ∧
      tr'.length + node.stepsLeft t T ≤ node.stepsLeft s T := by
    clear hlong
    induction hrun with
    | nil => exact ⟨by rwa [List.append_nil], by simp⟩
    | @snoc t u a tr' hrun hstep ih =>
      rw [emissions_concat, List.append_eq_nil_iff] at hnone
      obtain ⟨hcorrect, hle⟩ := ih hnone.1
      have hsends : node.sends (t, a) = none := by simpa using hnone.2
      have hsame : node.emissions (tr ++ tr') = node.emissions tr := by
        have happend : node.emissions (tr ++ tr') = node.emissions tr ++ node.emissions tr' :=
          List.filterMap_append
        rw [happend, hnone.1, List.append_nil]
      have hlt := stepsLeft_lt hcorrect hmono (hsame ▸ hT) hstep hsends
      rw [← List.append_assoc, List.length_append, List.length_singleton]
      exact ⟨hcorrect.step hattempts hmono hstep, by omega⟩
  omega

/-! ### The groups -/

omit [DecidableEq ι] in
/-- The messages of a group in sync are close to each other. -/
theorem Emitted.sub_lt {before : List ((ι → ℕ) × MessageGroup ι)} {e : (ι → ℕ) × MessageGroup ι}
    (h : node.Emitted inputs before e) : ∀ x ∈ e.2.group, ∀ y ∈ e.2.group,
      x.2.timestamp - y.2.timestamp < node.properties.syncThresholdNs := by
  have hstamp : ∀ x ∈ e.2.group, x.1 ∈ node.inputNames ∧
      stamps inputs x.1 (e.1 x.1) = some x.2.timestamp := fun x hx => by
    rw [h.group] at hx
    obtain ⟨name, hname, hx⟩ := List.mem_filterMap.mp hx
    obtain ⟨msg, hmsg, rfl⟩ := Option.map_eq_some_iff.mp hx
    exact ⟨hname, by rw [stamps, hmsg]; rfl⟩
  intro x hx y hy
  obtain ⟨hxname, hxstamp⟩ := hstamp x hx
  obtain ⟨hyname, hystamp⟩ := hstamp y hy
  exact h.isLeast.1.1.sub_lt x.1 hxname y.1 hyname _ _ hxstamp hystamp

omit [DecidableEq ι] in
theorem Emitted.spec {before : List ((ι → ℕ) × MessageGroup ι)} {e : (ι → ℕ) × MessageGroup ι}
    (h : node.Emitted inputs before e) :
    IsLeast (node.Remaining inputs before) e.1 ∧ e.2.group = node.messagesAt inputs e.1 ∧
      ∃ newest ∈ e.2.group, e.2.HasHeader newest.2 ∧
        ∀ frame ∈ e.2.group, frame.2.timestamp ≤ newest.2.timestamp := by
  obtain ⟨newest, hmem, hheader⟩ := h.newest_mem
  exact ⟨h.isLeast, h.group, newest, hmem, hheader, fun frame hframe =>
    hheader.1 ▸ h.le_timestamp frame hframe⟩

/-- Two inputs with a message every 10 ns, the second one 25 ns late. -/
def lateInputs : Inputs (Fin 2) := fun i => .ofStream fun n => ⟨10 * n + 25 * i, n, n⟩

/-- A node with a threshold of 10 ns. -/
def tenNs : Node (Fin 2) := ⟨[0, 1], { syncThresholdNs := 10 }, zero_one_ne_nil, nodup_zero_one⟩

/-- The node takes a message from each input, replaces the first one twice, and sends. -/
def lateRun : List (Action (Fin 2)) :=
  [.receive, .receive, .attempt [(0, ⟨0, 0, 0⟩), (1, ⟨25, 0, 0⟩)],
    .attempt [(1, ⟨25, 0, 0⟩), (0, ⟨10, 1, 1⟩)], .attempt [(0, ⟨20, 2, 2⟩), (1, ⟨25, 0, 0⟩)]]

theorem nonDecreasing_lateInputs : Alignment.NonDecreasing (stamps lateInputs) := by
  intro i m n a b hmn ha hb
  obtain rfl : (10 * m + 25 * i : ℤ) = a := Option.some.inj ha
  obtain rfl : (10 * n + 25 * i : ℤ) = b := Option.some.inj hb
  omega

end Node

end Sync

end DepthaiCore
