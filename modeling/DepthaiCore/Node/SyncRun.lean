import DepthaiCore.Lib.Alignment
import DepthaiCore.Node.Sync
import Mathlib.Algebra.Order.Group.Int

/-!
# What a `Sync` node sends

Without a limit on its attempts, a `Sync` node whose inputs have non-decreasing time stamps sends the
least groups there are: each is in sync, and on every input it picks the first message that any
group in sync could pick among the messages no earlier group has used. So nothing that could have
been part of a group is thrown away, and it makes no difference in what order the node goes through
the messages in hand.

The position of a message in its input identifies it. The *front* of an input is the position of the
oldest message that has been neither sent nor thrown away. The invariant is that the fronts are a
lower bound of the tuples that are still possible; the library on aligned tuples moves it along.
-/

namespace DepthaiCore

namespace Sync

open Transition

variable {ι : Type*} [DecidableEq ι]

/-! ### Positions -/

/-- The names of the messages in hand. -/
def State.keys (s : State ι) : List ι := s.inputFrames.map Prod.fst

/-- The position of the oldest message of an input that has been neither sent nor thrown away: the
one in hand if there is one, and otherwise the next. -/
def State.front (s : State ι) (i : ι) : ℕ :=
  if i ∈ s.keys then s.received i - 1 else s.received i

omit [DecidableEq ι] in
theorem State.mem_keys {s : State ι} {i : ι} {msg : Buffer} (h : (i, msg) ∈ s.inputFrames) :
    i ∈ s.keys := List.mem_map_of_mem h

theorem State.keys_took_of_notMem {s : State ι} {name : ι} {msg : Buffer} {pc : Pc ι}
    (h : name ∉ s.keys) : (s.took name msg s.inputFrames pc).keys = s.keys ++ [name] := by
  rw [State.keys, State.took, map_fst_assign]
  exact if_neg h

namespace Node

variable (node : Node ι) (inputs : Inputs ι)

/-- The groups sent in a run, with the positions of their messages. -/
def emissions (tr : List (State ι × Action ι)) : List ((ι → ℕ) × MessageGroup ι) :=
  tr.filterMap fun p => (node.sends p).map fun outputGroup => (p.1.front, outputGroup)

/-- The positions of the messages of input `i` thrown away in a run. -/
def discards (tr : List (State ι × Action ι)) (i : ι) : List ℕ :=
  tr.filterMap fun p => if node.drops p = some i then some (p.1.front i) else none

/-- The positions of the messages taken from input `i` in a run. -/
def taken (tr : List (State ι × Action ι)) (i : ι) : List ℕ :=
  tr.filterMap fun p => if node.gets p = some i then some (p.1.received i) else none

/-- The time stamps of the inputs. -/
def stamps (inputs : Inputs ι) (i : ι) (n : ℕ) : Option ℤ :=
  ((inputs i).get? n).map Buffer.timestamp

/-- The messages at the positions of `T` exist, and their time stamps lie within the threshold. -/
def InSync (T : ι → ℕ) : Prop :=
  Alignment.Aligned (stamps inputs) node.inputNames node.properties.syncThresholdNs T

/-- The tuples in sync that use no message of the groups `sent`. -/
def Remaining (sent : List ((ι → ℕ) × MessageGroup ι)) : Set (ι → ℕ) :=
  {T | node.InSync inputs T ∧ ∀ e ∈ sent, ∀ i ∈ node.inputNames, T i ≠ e.1 i}

/-- The messages at the positions of `T`, by input. -/
def messagesAt (T : ι → ℕ) : List (ι × Buffer) :=
  node.inputNames.filterMap fun name => ((inputs name).get? (T name)).map fun msg => (name, msg)

/-! ### The messages in hand -/

/-- The messages in hand are those of the inputs received from. -/
def HoldsKeys (keys : List ι) : Pc ι → Prop
  | .receiving todo => todo ≠ [] ∧ keys ++ todo = node.inputNames
  | .matching _ => keys.Perm node.inputNames

/-- The messages in hand are the last ones taken from their inputs. -/
structure Sound (s : State ι) : Prop where
  keys : node.HoldsKeys s.keys s.pc
  held : ∀ frame ∈ s.inputFrames, 0 < s.received frame.1 ∧
    (inputs frame.1).get? (s.received frame.1 - 1) = some frame.2
  outside : ∀ i, i ∉ node.inputNames → s.received i = 0

variable {node inputs} {s t : State ι} {a : Action ι}

omit [DecidableEq ι] in
theorem holdsKeys_receive {keys todo : List ι} (h : keys ++ todo = node.inputNames) :
    node.HoldsKeys keys (.receive todo) := by
  cases todo with
  | nil => rw [List.append_nil] at h; exact h ▸ List.Perm.refl _
  | cons name todo => exact ⟨List.cons_ne_nil _ _, h⟩

omit [DecidableEq ι] in
theorem HoldsKeys.nodup {keys : List ι} {pc : Pc ι} (h : node.HoldsKeys keys pc) : keys.Nodup := by
  cases pc with
  | receiving todo => exact (h.2 ▸ node.nodup_inputNames : (keys ++ todo).Nodup).of_append_left
  | matching attempts => exact h.nodup_iff.mpr node.nodup_inputNames

omit [DecidableEq ι] in
theorem HoldsKeys.subset {keys : List ι} {pc : Pc ι} (h : node.HoldsKeys keys pc) :
    keys ⊆ node.inputNames := by
  cases pc with
  | receiving todo =>
    intro i hi
    rw [← h.2]
    exact List.mem_append_left todo hi
  | matching attempts => exact List.Perm.subset h

omit [DecidableEq ι] in
/-- The next input to receive from has no message in hand. -/
theorem Sound.notMem_keys (hs : node.Sound inputs s) {name : ι} {todo : List ι}
    (hpc : s.pc = .receiving (name :: todo)) :
    s.keys ++ name :: todo = node.inputNames ∧ name ∉ s.keys := by
  have hkeys := hs.keys
  rw [hpc] at hkeys
  have hnodup := node.nodup_inputNames
  rw [← hkeys.2, List.nodup_append] at hnodup
  exact ⟨hkeys.2, fun hmem => hnodup.2.2 name hmem name List.mem_cons_self rfl⟩

/-- A message taken from input `name` is in hand at its position. -/
theorem Sound.held_took (hs : node.Sound inputs s) {name : ι} {msg : Buffer}
    {order : List (ι × Buffer)} {pc : Pc ι} (hperm : order.Perm s.inputFrames)
    (hmsg : (inputs name).get? (s.received name) = some msg) :
    ∀ frame ∈ (s.took name msg order pc).inputFrames,
      0 < (s.took name msg order pc).received frame.1 ∧
        (inputs frame.1).get? ((s.took name msg order pc).received frame.1 - 1) = some frame.2 := by
  have hnodup : (order.map Prod.fst).Nodup :=
    (hperm.map Prod.fst).nodup_iff.mpr hs.keys.nodup
  intro frame hframe
  rcases (mem_assign hnodup).mp hframe with rfl | ⟨hne, hmem⟩
  · simp only [State.took, Function.update_self]
    exact ⟨Nat.succ_pos _, hmsg⟩
  · simp only [State.took, Function.update_of_ne hne]
    exact hs.held frame (hperm.mem_iff.mp hmem)

theorem Sound.step (hs : node.Sound inputs s) (h : node.step inputs s a = some t) :
    node.Sound inputs t := by
  have heff := node.step_effect h
  generalize node.sends (s, a) = g, node.drops (s, a) = d, node.gets (s, a) = i at heff
  cases heff with
  | @receive name todo msg hpc hmsg =>
    obtain ⟨hkeys, hnotin⟩ := hs.notMem_keys hpc
    refine ⟨holdsKeys_receive ?_, hs.held_took (.refl _) hmsg, fun i hi => ?_⟩
    · rw [State.keys_took_of_notMem hnotin, ← hkeys]
      exact List.append_assoc _ _ _
    · have hne : i ≠ name := by
        rintro rfl
        exact hi (by rw [← hkeys]; simp)
      simp only [State.took, Function.update_of_ne hne]
      exact hs.outside i hi
  | send => exact ⟨holdsKeys_receive rfl, by simp [Node.sent], hs.outside⟩
  | @replace order attempts name msg hpc hperm hverdict hmsg =>
    have hkeys : s.keys.Perm node.inputNames := by
      have hkeys := hs.keys
      rwa [hpc] at hkeys
    have horder : (order.map Prod.fst).Perm node.inputNames := (hperm.map Prod.fst).trans hkeys
    obtain ⟨oldest, -, holdest, -⟩ := node.oldest_of_replace hverdict
    have hname : name ∈ order.map Prod.fst := List.mem_map_of_mem holdest
    refine ⟨?_, hs.held_took hperm hmsg, fun i hi => ?_⟩
    · change (assign name msg order).map Prod.fst |>.Perm node.inputNames
      rwa [map_fst_assign, if_pos hname]
    · have hne : i ≠ name := by
        rintro rfl
        exact hi (horder.mem_iff.mp hname)
      simp only [State.took, Function.update_of_ne hne]
      exact hs.outside i hi

/-! ### The fronts -/

theorem Sound.get?_front (hs : node.Sound inputs s) {i : ι} {msg : Buffer}
    (h : (i, msg) ∈ s.inputFrames) : (inputs i).get? (s.front i) = some msg := by
  rw [State.front, if_pos (State.mem_keys h)]
  exact (hs.held (i, msg) h).2

omit [DecidableEq ι] in
/-- In the matching loop there is a message of every input in hand. -/
theorem Sound.exists_mem_inputFrames (hs : node.Sound inputs s) {attempts : ℤ}
    (hpc : s.pc = .matching attempts) {i : ι} (hi : i ∈ node.inputNames) :
    ∃ msg, (i, msg) ∈ s.inputFrames := by
  have hkeys := hs.keys
  rw [hpc] at hkeys
  have hmem : i ∈ s.keys := List.Perm.mem_iff hkeys |>.mpr hi
  obtain ⟨⟨i', msg⟩, hframe, rfl⟩ := List.mem_map.mp hmem
  exact ⟨msg, hframe⟩

/-- A message in hand has been taken, so its front is one behind. -/
theorem Sound.received_eq (hs : node.Sound inputs s) {i : ι} {msg : Buffer}
    (h : (i, msg) ∈ s.inputFrames) : s.received i = s.front i + 1 := by
  rw [State.front, if_pos (State.mem_keys h)]
  have hpos : 0 < s.received i := (hs.held (i, msg) h).1
  omega

theorem Sound.front_of_notMem (hs : node.Sound inputs s) {i : ι} (hi : i ∉ node.inputNames) :
    s.front i = s.received i := by
  rw [State.front, if_neg fun hmem => hi (hs.keys.subset hmem)]

theorem Sound.front_receive (hs : node.Sound inputs s) {name : ι} {todo : List ι} {msg : Buffer}
    (hpc : s.pc = .receiving (name :: todo)) :
    (s.took name msg s.inputFrames (.receive todo)).front = s.front := by
  obtain ⟨-, hnotin⟩ := hs.notMem_keys hpc
  funext i
  rw [State.front, State.front, State.keys_took_of_notMem hnotin]
  by_cases hi : i = name
  · subst hi
    simp [hnotin, State.took]
  · simp [State.took, hi]

theorem front_sent : (node.sent s).front = s.received := by
  funext i
  simp [State.front, State.keys, sent]

theorem Sound.front_replace (hs : node.Sound inputs s) {name : ι} {oldest msg : Buffer}
    {order : List (ι × Buffer)} {pc : Pc ι} (hperm : order.Perm s.inputFrames)
    (hname : (name, oldest) ∈ order) :
    (s.took name msg order pc).front = Function.update s.front name (s.front name + 1) := by
  have hin : (name, oldest) ∈ s.inputFrames := hperm.mem_iff.mp hname
  have hafter : (s.took name msg order pc).keys = order.map Prod.fst := by
    rw [State.keys, State.took, map_fst_assign, if_pos (List.mem_map_of_mem hname)]
  have hkeys : ∀ i, i ∈ (s.took name msg order pc).keys ↔ i ∈ s.keys := fun i => by
    rw [hafter]
    exact (hperm.map Prod.fst).mem_iff
  funext i
  by_cases hi : i = name
  · subst hi
    have hmem : i ∈ s.keys := State.mem_keys hin
    rw [State.front, if_pos ((hkeys i).mpr hmem), Function.update_self, ← hs.received_eq hin]
    simp [State.took]
  · have hreceived : (s.took name msg order pc).received i = s.received i := by
      simp [State.took, hi]
    simp only [Function.update_of_ne hi, State.front, hkeys, hreceived]

/-! ### One group -/

variable (node inputs) in
/-- What a group should be, given the groups sent before it. -/
structure Emitted (before : List ((ι → ℕ) × MessageGroup ι)) (e : (ι → ℕ) × MessageGroup ι) :
    Prop where
  isLeast : IsLeast (node.Remaining inputs before) e.1
  group : e.2.group = node.messagesAt inputs e.1
  newest_mem : ∃ newest ∈ e.2.group, e.2.HasHeader newest.2
  le_timestamp : ∀ frame ∈ e.2.group, frame.2.timestamp ≤ e.2.timestamp

/-- The messages in hand are in sync when they are sent. -/
theorem Sound.inSync_front (hs : node.Sound inputs s)
    (hattempts : node.properties.syncAttempts = -1) {attempts : ℤ} {order : List (ι × Buffer)}
    {g : MessageGroup ι} (hpc : s.pc = .matching attempts) (hperm : order.Perm s.inputFrames)
    (hverdict : node.verdict attempts order = some (.send g)) : node.InSync inputs s.front where
  exists_stamp i hi := by
    obtain ⟨msg, hmsg⟩ := hs.exists_mem_inputFrames hpc hi
    exact ⟨msg.timestamp, by rw [stamps, hs.get?_front hmsg]; rfl⟩
  sub_lt i hi j hj a b ha hb := by
    obtain ⟨x, hx⟩ := hs.exists_mem_inputFrames hpc hi
    obtain ⟨y, hy⟩ := hs.exists_mem_inputFrames hpc hj
    rw [stamps, hs.get?_front hx] at ha
    rw [stamps, hs.get?_front hy] at hb
    cases ha
    cases hb
    exact (node.sub_lt_of_send hattempts hverdict).2 _ (hperm.mem_iff.mpr hx) _
      (hperm.mem_iff.mpr hy)

/-- The group sent is made of the messages at the fronts, and carries the newest time stamp. -/
theorem Sound.group_eq (hs : node.Sound inputs s)
    (hattempts : node.properties.syncAttempts = -1) {attempts : ℤ} {order : List (ι × Buffer)}
    {g : MessageGroup ι} (hpc : s.pc = .matching attempts) (hperm : order.Perm s.inputFrames)
    (hverdict : node.verdict attempts order = some (.send g)) :
    g.group = node.messagesAt inputs s.front ∧
      (∃ newest ∈ g.group, g.HasHeader newest.2) ∧
      ∀ frame ∈ g.group, frame.2.timestamp ≤ g.timestamp := by
  obtain ⟨⟨first, hfirst, rfl⟩, -⟩ := node.sub_lt_of_send hattempts hverdict
  have hnodup : (order.map Prod.fst).Nodup := (hperm.map Prod.fst).nodup_iff.mpr hs.keys.nodup
  have hlookup : ∀ {name msg}, (name, msg) ∈ order → order.lookup name = some msg :=
    fun h => (lookup_eq_some_iff hnodup).mpr h
  have hmem : ∀ {name msg}, name ∈ node.inputNames → (name, msg) ∈ order →
      (name, msg) ∈ (outputGroup node.inputNames order first.2).group := fun {name msg} hname h =>
    List.mem_filterMap.mpr ⟨name, hname, by rw [hlookup h]; rfl⟩
  have hfst : ∀ frame ∈ order, frame.1 ∈ node.inputNames := fun frame hframe =>
    hs.keys.subset (List.mem_map_of_mem (hperm.mem_iff.mp hframe))
  obtain ⟨hnewest, hge, hall⟩ := newestFrame_spec hnodup node.inputNames first.2
  refine ⟨List.filterMap_congr fun name hname => ?_, ?_, fun frame hframe => ?_⟩
  · obtain ⟨msg, hmsg⟩ := hs.exists_mem_inputFrames hpc hname
    rw [hlookup (hperm.mem_iff.mpr hmsg), hs.get?_front hmsg]
  · rcases hnewest with hnewest | ⟨name, hname, hin⟩
    · refine ⟨first, hmem (hfst first hfirst) hfirst, ?_⟩
      simp only [MessageGroup.HasHeader, outputGroup, hnewest, and_self]
    · exact ⟨_, hmem hname hin, rfl, rfl, rfl⟩
  · obtain ⟨name, hname, hframe⟩ := List.mem_filterMap.mp hframe
    obtain ⟨msg, hmsg, rfl⟩ := Option.map_eq_some_iff.mp hframe
    exact hall name hname msg ((lookup_eq_some_iff hnodup).mp hmsg)

/-! ### Whole runs -/

section Traces

variable {tr : List (State ι × Action ι)} {p : State ι × Action ι} {i : ι}

theorem emissions_concat :
    node.emissions (tr ++ [p]) = node.emissions tr ++
      ((node.sends p).map fun outputGroup => (p.1.front, outputGroup)).toList := by
  cases h : node.sends p <;> simp [emissions, h]

theorem discards_concat :
    node.discards (tr ++ [p]) i =
      node.discards tr i ++ if node.drops p = some i then [p.1.front i] else [] := by
  by_cases h : node.drops p = some i <;> simp [discards, h]

theorem taken_concat :
    node.taken (tr ++ [p]) i =
      node.taken tr i ++ if node.gets p = some i then [p.1.received i] else [] := by
  by_cases h : node.gets p = some i <;> simp [taken, h]

end Traces

variable (node inputs) in
/-- What holds after a run with trace `tr`. -/
structure Correct (tr : List (State ι × Action ι)) (s : State ι) : Prop where
  sound : node.Sound inputs s
  /-- The messages of an input are taken in order, each once. -/
  taken : ∀ i, node.taken tr i = List.range (s.received i)
  /-- Each message before the front has been sent once or thrown away once. -/
  settled : ∀ i ∈ node.inputNames,
    ((node.emissions tr).map (·.1 i) ++ node.discards tr i).Perm (List.range (s.front i))
  /-- The tuples that are still possible use no message before the fronts. -/
  front_mem : s.front ∈ lowerBounds (node.Remaining inputs (node.emissions tr))
  emitted : ∀ before e after, node.emissions tr = before ++ e :: after →
    node.Emitted inputs before e

variable {tr : List (State ι × Action ι)}

theorem correct_start : node.Correct inputs [] node.start where
  sound := ⟨holdsKeys_receive rfl, by simp [start], fun _ _ => rfl⟩
  taken _ := rfl
  settled i _ := by simp [emissions, discards, start, State.front, State.keys]
  front_mem T _ i := by
    rw [State.front]
    split <;> exact Nat.zero_le _
  emitted before e after h := by simp [emissions] at h

theorem Correct.lt_front (h : node.Correct inputs tr s) {e : (ι → ℕ) × MessageGroup ι}
    (he : e ∈ node.emissions tr) {i : ι} (hi : i ∈ node.inputNames) : e.1 i < s.front i := by
  refine List.mem_range.mp ((h.settled i hi).mem_iff.mp (List.mem_append_left _ ?_))
  exact List.mem_map_of_mem he

/-- The messages at the fronts are the least group that is still possible when they are in sync. -/
theorem Correct.isLeast_front (h : node.Correct inputs tr s) (hsync : node.InSync inputs s.front) :
    IsLeast (node.Remaining inputs (node.emissions tr)) s.front :=
  ⟨⟨hsync, fun _ he _ hi => (h.lt_front he hi).ne'⟩, h.front_mem⟩

/-- No group that is still possible uses the oldest message in hand, when another is too far away
from it. -/
theorem Correct.ne_front (h : node.Correct inputs tr s)
    (hmono : Alignment.NonDecreasing (stamps inputs)) {attempts : ℤ} {order : List (ι × Buffer)}
    {name : ι} (hperm : order.Perm s.inputFrames)
    (hverdict : node.verdict attempts order = some (.replace name)) :
    ∀ T ∈ node.Remaining inputs (node.emissions tr), T name ≠ s.front name := by
  obtain ⟨oldest, ⟨newestName, newest⟩, holdest, hnewest, hfar⟩ := node.oldest_of_replace hverdict
  have holdest := hperm.mem_iff.mp holdest
  have hnewest := hperm.mem_iff.mp hnewest
  intro T hT
  exact Alignment.ne_of_oldest hmono hT.1 (h.front_mem hT)
    (h.sound.keys.subset (State.mem_keys holdest)) (h.sound.keys.subset (State.mem_keys hnewest))
    (by rw [stamps, h.sound.get?_front holdest]; rfl)
    (by rw [stamps, h.sound.get?_front hnewest]; rfl) hfar

/-- Taking a message of input `name` takes the next one. -/
theorem Correct.taken_took (h : node.Correct inputs tr s) {name : ι} {msg : Buffer}
    {order : List (ι × Buffer)} {pc : Pc ι} (hgets : node.gets (s, a) = some name) (i : ι) :
    node.taken (tr ++ [(s, a)]) i = List.range ((s.took name msg order pc).received i) := by
  rw [taken_concat, hgets, h.taken]
  by_cases hi : i = name
  · subst hi
    simp [State.took, List.range_succ]
  · have hne : ¬ name = i := fun heq => hi heq.symm
    simp [State.took, hi, hne]

omit [DecidableEq ι] in
theorem Emitted.concat {sent : List ((ι → ℕ) × MessageGroup ι)} {e : (ι → ℕ) × MessageGroup ι}
    (hsent : ∀ before e after, sent = before ++ e :: after → node.Emitted inputs before e)
    (he : node.Emitted inputs sent e) :
    ∀ before e' after, sent ++ [e] = before ++ e' :: after → node.Emitted inputs before e' := by
  intro before e' after heq
  rcases List.eq_nil_or_concat after with rfl | ⟨after, last, rfl⟩
  · obtain ⟨rfl, hlast⟩ := List.append_inj' heq rfl
    obtain rfl : e = e' := by simpa using hlast
    exact he
  · rw [List.concat_eq_append, ← List.cons_append, ← List.append_assoc] at heq
    obtain ⟨rfl, -⟩ := List.append_inj' heq rfl
    exact hsent before e' after rfl

theorem Correct.step (h : node.Correct inputs tr s)
    (hattempts : node.properties.syncAttempts = -1)
    (hmono : Alignment.NonDecreasing (stamps inputs)) (hstep : node.step inputs s a = some t) :
    node.Correct inputs (tr ++ [(s, a)]) t := by
  have hsound := h.sound.step hstep
  have heff := node.step_effect hstep
  generalize hsends : node.sends (s, a) = g, hdrops : node.drops (s, a) = d,
    hgets : node.gets (s, a) = i at heff
  cases heff with
  | @receive name todo msg hpc hmsg =>
    have hfront := @Sound.front_receive _ _ _ _ _ h.sound _ _ msg hpc
    have hemissions : node.emissions (tr ++ [(s, .receive)]) = node.emissions tr := by
      rw [emissions_concat, hsends]
      exact List.append_nil _
    refine ⟨hsound, h.taken_took hgets, fun i hi => ?_, ?_, ?_⟩
    · rw [hemissions, hfront, discards_concat, hdrops, if_neg (by simp), List.append_nil]
      exact h.settled i hi
    · rw [hemissions, hfront]
      exact h.front_mem
    · rw [hemissions]
      exact h.emitted
  | @send order attempts g hpc hperm hverdict =>
    have hemissions : node.emissions (tr ++ [(s, .attempt order)]) =
        node.emissions tr ++ [(s.front, g)] := by
      rw [emissions_concat, hsends]
      rfl
    have hreceived : ∀ i ∈ node.inputNames, s.received i = s.front i + 1 := fun i hi => by
      obtain ⟨msg, hmsg⟩ := h.sound.exists_mem_inputFrames hpc hi
      exact h.sound.received_eq hmsg
    have hsync := h.sound.inSync_front hattempts hpc hperm hverdict
    obtain ⟨hgroup, hmem, hle⟩ := h.sound.group_eq hattempts hpc hperm hverdict
    refine ⟨hsound, fun i => ?_, fun i hi => ?_, ?_, ?_⟩
    · rw [taken_concat, hgets, if_neg (by simp), List.append_nil]
      exact h.taken i
    · rw [hemissions, discards_concat, hdrops, if_neg (by simp), List.append_nil, front_sent,
        hreceived i hi, List.range_succ, List.map_append, List.append_assoc]
      -- the group sent takes its place before the messages thrown away
      refine (List.perm_append_comm.append_left _).trans ?_
      rw [← List.append_assoc]
      exact (h.settled i hi).append_right _
    · rw [hemissions, front_sent]
      refine lowerBounds_mono_set ?_ (Alignment.succ_mem_lowerBounds h.front_mem hreceived
        fun i hi => (h.sound.front_of_notMem hi).symm)
      rintro T ⟨hT, hne⟩
      exact ⟨⟨hT, fun e he => hne e (List.mem_append_left _ he)⟩,
        hne (s.front, g) (List.mem_append_right _ (List.mem_singleton_self _))⟩
    · rw [hemissions]
      exact Emitted.concat h.emitted ⟨h.isLeast_front hsync, hgroup, hmem, hle⟩
  | @replace order attempts name msg hpc hperm hverdict hmsg =>
    obtain ⟨oldest, -, holdest, -, -⟩ := node.oldest_of_replace hverdict
    have hfront := @Sound.front_replace _ _ _ _ _ h.sound _ _ msg _ (.matching (attempts + 1))
      hperm holdest
    have hemissions : node.emissions (tr ++ [(s, .attempt order)]) = node.emissions tr := by
      rw [emissions_concat, hsends]
      exact List.append_nil _
    refine ⟨hsound, h.taken_took hgets, fun i hi => ?_, ?_, ?_⟩
    · rw [hemissions, hfront, discards_concat, hdrops]
      by_cases hname : name = i
      · subst hname
        rw [if_pos rfl, Function.update_self, List.range_succ, ← List.append_assoc]
        exact (h.settled name hi).append_right _
      · rw [if_neg (by simpa using hname), List.append_nil, Function.update_of_ne (Ne.symm hname)]
        exact h.settled i hi
    · rw [hemissions, hfront]
      exact Alignment.update_mem_lowerBounds h.front_mem (h.ne_front hmono hperm hverdict)
    · rw [hemissions]
      exact h.emitted

theorem correct_of_run (hattempts : node.properties.syncAttempts = -1)
    (hmono : Alignment.NonDecreasing (stamps inputs))
    (h : Run (node.step inputs) node.start tr s) : node.Correct inputs tr s := by
  induction h with
  | nil => exact correct_start
  | snoc _ hstep ih => exact ih.step hattempts hmono hstep

end Node

end Sync

end DepthaiCore
