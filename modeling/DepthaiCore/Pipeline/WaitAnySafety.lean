import DepthaiCore.Lib.Numerals
import DepthaiCore.Pipeline.WaitAny

/-!
# `waitAny` misses nothing

A waiter that sleeps in `acquire` has read all its queues and found some of them open and every open
one empty. What it has read may have changed since, but only by a call that has notified it, or is
about to: the notifier was in every table before the first reading, a call announces its change
after making it, and the semaphore remembers a release that comes before the `acquire`.

The invariant has three parts. `Registered` matches the notifier tables with the calls of `waitAny`
in progress. `Waiter.Enrolled` says that a call has registered with all its queues before it reads
any. `Vigilant` is the argument above, for the part of a round that has been read so far.
-/

open scoped Numerals

namespace DepthaiCore

namespace WaitAny

open Transition
open MessageQueue (Call)

variable {ι κ α : Type*}

/-! ### The notifier tables -/

/-- The notifiers a thread has registered and not yet removed. -/
def Pc.registered : Pc ι κ α → List (κ × ℕ)
  | .waiting w => w.notifierIds
  | _ => []

@[simp] theorem Pc.registered_waiting (w : Waiter κ) :
    (Pc.waiting w : Pc ι κ α).registered = w.notifierIds := rfl

/-- The entries of the notifier tables are those of the calls of `waitAny` in progress. -/
structure Registered (s : System ι κ α) : Prop where
  lt : ∀ q, ∀ e ∈ (s.queues q).notifiers, e.1 < (s.queues q).uniqueNotifierId
  unique : ∀ q notifierId i j, (notifierId, i) ∈ (s.queues q).notifiers →
    (notifierId, j) ∈ (s.queues q).notifiers → i = j
  mem_iff : ∀ i q notifierId,
    (notifierId, i) ∈ (s.queues q).notifiers ↔ (q, notifierId) ∈ (s.pc i).registered
  nodup : ∀ i, (s.pc i).registered.Nodup

/-- The tables and the calls in progress are the same in `s` and `t`. -/
structure SameTables (s t : System ι κ α) : Prop where
  notifiers : ∀ q, (t.queues q).notifiers = (s.queues q).notifiers
  uniqueNotifierId : ∀ q, (t.queues q).uniqueNotifierId = (s.queues q).uniqueNotifierId
  registered : ∀ i, (t.pc i).registered = (s.pc i).registered

theorem Registered.of_same {s t : System ι κ α} (hs : Registered s) (h : SameTables s t) :
    Registered t where
  lt q e he := by
    rw [h.notifiers] at he
    rw [h.uniqueNotifierId]
    exact hs.lt q e he
  unique q notifierId i j hi hj := by
    rw [h.notifiers] at hi hj
    exact hs.unique q notifierId i j hi hj
  mem_iff i q notifierId := by
    rw [h.notifiers, h.registered]
    exact hs.mem_iff i q notifierId
  nodup i := by
    rw [h.registered]
    exact hs.nodup i

theorem SameTables.refl (s : System ι κ α) : SameTables s s :=
  ⟨fun _ => rfl, fun _ => rfl, fun _ => rfl⟩

theorem SameTables.setPc [DecidableEq ι] {s t : System ι κ α} {i : ι} {pc : Pc ι κ α} (h : SameTables s t)
    (hpc : pc.registered = (s.pc i).registered) : SameTables s (t.setPc i pc) where
  notifiers := h.notifiers
  uniqueNotifierId := h.uniqueNotifierId
  registered j := by
    by_cases hji : j = i
    · subst hji
      rw [System.setPc_pc_self, hpc]
    · rw [System.setPc_pc_of_ne hji, h.registered]

theorem SameTables.setQueue [DecidableEq κ] {s t : System ι κ α} {q : κ} {mq : MessageQueue ι α}
    (h : SameTables s t) (hnotifiers : mq.notifiers = (s.queues q).notifiers)
    (hid : mq.uniqueNotifierId = (s.queues q).uniqueNotifierId) :
    SameTables s (t.setQueue q mq) where
  notifiers q' := by
    by_cases hq : q' = q
    · subst hq
      rw [System.setQueue_queues_self, hnotifiers]
    · rw [System.setQueue_queues_of_ne hq, h.notifiers]
  uniqueNotifierId q' := by
    by_cases hq : q' = q
    · subst hq
      rw [System.setQueue_queues_self, hid]
    · rw [System.setQueue_queues_of_ne hq, h.uniqueNotifierId]
  registered := h.registered

theorem SameTables.setAvailable [DecidableEq ι] {s t : System ι κ α} {i : ι} {b : Bool}
    (h : SameTables s t) : SameTables s (t.setAvailable i b) :=
  ⟨h.notifiers, h.uniqueNotifierId, h.registered⟩

section

variable [DecidableEq ι] [DecidableEq κ]

/-- A registration adds one entry to one table and to one call. -/
theorem Registered.register {s : System ι κ α} (hs : Registered s) {i : ι} {w : Waiter κ}
    (hpc : s.pc i = .waiting w) (q : κ) {stage : Stage κ} :
    Registered ((s.setQueue q ((s.queues q).addNotifier i).2).setPc i (.waiting
      { w with notifierIds := w.notifierIds ++ [(q, ((s.queues q).addNotifier i).1)], stage })) := by
  have hregistered : (s.pc i).registered = w.notifierIds := by rw [hpc]; rfl
  have hmem : ∀ e, e ∈ ((s.queues q).addNotifier i).2.notifiers ↔
      e = ((s.queues q).uniqueNotifierId, i) ∨ e ∈ (s.queues q).notifiers :=
    fun e => MessageQueue.mem_addNotifier (hs.lt q)
  have hfresh : (q, (s.queues q).uniqueNotifierId) ∉ w.notifierIds := by
    rw [← hregistered, ← hs.mem_iff]
    intro hin
    exact Nat.lt_irrefl _ (hs.lt q _ hin)
  refine ⟨fun q' e he => ?_, fun q' notifierId j k hj hk => ?_, fun j q' notifierId => ?_,
    fun j => ?_⟩
  · by_cases hq : q' = q
    · subst hq
      simp only [System.setPc_queues, System.setQueue_queues_self, hmem] at he ⊢
      rcases he with rfl | he
      · exact Nat.lt_succ_self _
      · exact Nat.lt_succ_of_lt (hs.lt q' e he)
    · rw [System.setPc_queues, System.setQueue_queues_of_ne hq] at he ⊢
      exact hs.lt q' e he
  · by_cases hq : q' = q
    · subst hq
      simp only [System.setPc_queues, System.setQueue_queues_self, hmem, Prod.mk.injEq] at hj hk
      rcases hj with ⟨hid, rfl⟩ | hj <;> rcases hk with ⟨hid', rfl⟩ | hk
      · rfl
      · exact absurd (hs.lt q' _ hk) (by omega)
      · exact absurd (hs.lt q' _ hj) (by omega)
      · exact hs.unique q' notifierId j k hj hk
    · rw [System.setPc_queues, System.setQueue_queues_of_ne hq] at hj hk
      exact hs.unique q' notifierId j k hj hk
  · by_cases hq : q' = q
    · subst hq
      simp only [System.setPc_queues, System.setQueue_queues_self, hmem, Prod.mk.injEq]
      by_cases hji : j = i
      · subst hji
        rw [System.setPc_pc_self, hs.mem_iff, hregistered]
        simp [MessageQueue.addNotifier, or_comm]
      · rw [System.setPc_pc_of_ne hji, System.setQueue_pc, hs.mem_iff]
        simp [hji]
    · rw [System.setPc_queues, System.setQueue_queues_of_ne hq, hs.mem_iff]
      by_cases hji : j = i
      · subst hji
        rw [System.setPc_pc_self, hregistered]
        simp [hq]
      · rw [System.setPc_pc_of_ne hji, System.setQueue_pc]
  · by_cases hji : j = i
    · subst hji
      rw [System.setPc_pc_self]
      have hnodup := hs.nodup j
      rw [hregistered] at hnodup
      exact List.nodup_append.mpr ⟨hnodup, by simp, fun a ha b hb => by
        rintro rfl
        exact hfresh (List.mem_singleton.mp hb ▸ ha)⟩
    · rw [System.setPc_pc_of_ne hji, System.setQueue_pc]
      exact hs.nodup j

/-- A removal takes one entry out of one table and out of one call. -/
theorem Registered.remove {s : System ι κ α} (hs : Registered s) {i : ι} {w : Waiter κ} {q : κ}
    {notifierId : ℕ} {rest : List (κ × ℕ)} (hpc : s.pc i = .waiting w)
    (hids : w.notifierIds = (q, notifierId) :: rest) :
    Registered ((s.setQueue q ((s.queues q).removeNotifier notifierId).2).setPc i
      (.waiting { w with notifierIds := rest })) := by
  have hregistered : (s.pc i).registered = (q, notifierId) :: rest := by rw [hpc, ← hids]; rfl
  have hnodup := hs.nodup i
  rw [hregistered, List.nodup_cons] at hnodup
  have hin : (notifierId, i) ∈ (s.queues q).notifiers := by
    rw [hs.mem_iff, hregistered]
    exact List.mem_cons_self
  refine ⟨fun q' e he => ?_, fun q' notifierId' j k hj hk => ?_, fun j q' notifierId' => ?_,
    fun j => ?_⟩
  · by_cases hq : q' = q
    · subst hq
      simp only [System.setPc_queues, System.setQueue_queues_self, MessageQueue.mem_removeNotifier,
        MessageQueue.removeNotifier_uniqueNotifierId] at he ⊢
      exact hs.lt q' e he.1
    · rw [System.setPc_queues, System.setQueue_queues_of_ne hq] at he ⊢
      exact hs.lt q' e he
  · by_cases hq : q' = q
    · subst hq
      simp only [System.setPc_queues, System.setQueue_queues_self,
        MessageQueue.mem_removeNotifier] at hj hk
      exact hs.unique q' notifierId' j k hj.1 hk.1
    · rw [System.setPc_queues, System.setQueue_queues_of_ne hq] at hj hk
      exact hs.unique q' notifierId' j k hj hk
  · by_cases hji : j = i
    · subst hji
      rw [System.setPc_pc_self]
      by_cases hq : q' = q
      · subst hq
        simp only [System.setPc_queues, System.setQueue_queues_self,
          MessageQueue.mem_removeNotifier, hs.mem_iff, hregistered, List.mem_cons, Prod.mk.injEq,
          true_and, Pc.registered_waiting]
        constructor
        · rintro ⟨hid | hmem, hne⟩
          · exact absurd hid hne
          · exact hmem
        · intro hmem
          exact ⟨.inr hmem, fun hid => hnodup.1 (hid ▸ hmem)⟩
      · rw [System.setPc_queues, System.setQueue_queues_of_ne hq, hs.mem_iff, hregistered]
        simp [hq]
    · rw [System.setPc_pc_of_ne hji, System.setQueue_pc, ← hs.mem_iff]
      by_cases hq : q' = q
      · subst hq
        simp only [System.setPc_queues, System.setQueue_queues_self,
          MessageQueue.mem_removeNotifier]
        constructor
        · exact fun h => h.1
        · intro hmem
          exact ⟨hmem, fun hid => hji (hs.unique q' notifierId j i (hid ▸ hmem) hin)⟩
      · rw [System.setPc_queues, System.setQueue_queues_of_ne hq]
  · by_cases hji : j = i
    · subst hji
      rw [System.setPc_pc_self]
      exact hnodup.2
    · rw [System.setPc_pc_of_ne hji, System.setQueue_pc]
      exact hs.nodup j

theorem Registered.step {s t : System ι κ α} {i : ι} (hs : Registered s) (h : Moves s i t) :
    Registered t := by
  have hsame := SameTables.refl s
  cases h with
  | enter hold hnew =>
    refine hs.of_same (hsame.setPc ?_)
    rcases hold with ⟨o, hold⟩ | ⟨q, c, n, hold⟩ <;>
      rcases hnew with ⟨o', rfl⟩ | ⟨q', c', n', rfl⟩ <;> rw [hold] <;> rfl
  | @visit q c phase v hpc heff =>
    refine hs.of_same (.setPc (.setQueue hsame rfl rfl) ?_)
    have hafter : (Pc.after q c v.exit : Pc ι κ α).registered = [] := by
      unfold Pc.after
      split
      · rfl
      · split <;> rfl
    rcases hpc with hpc | hpc <;> rw [hpc, hafter] <;> rfl
  | lock hpc => exact hs.of_same (.setPc (.setQueue hsame rfl rfl) (by rw [hpc]; rfl))
  | release hpc => exact hs.of_same (.setPc hsame.setAvailable (by rw [hpc]; rfl))
  | unlock hpc => exact hs.of_same (.setPc (.setQueue hsame rfl rfl) (by rw [hpc]; rfl))
  | waitAny hpc => exact hs.of_same (.setPc hsame.setAvailable (by rw [hpc]; rfl))
  | turn hpc => exact hs.of_same (.setPc hsame (by rw [hpc]; rfl))
  | register hpc => exact hs.register hpc _
  | acquire hpc => exact hs.of_same (.setPc hsame.setAvailable (by rw [hpc]; rfl))
  | remove hpc hstage hids => exact hs.remove hpc hids
  | leave hpc hstage hids => exact hs.of_same (.setPc hsame (by rw [hpc]; exact hids.symm))

end

/-! ### Enrolment -/

/-- A call has registered with the queues it has gone through, and with all of them before it reads
any. -/
def Waiter.Enrolled (w : Waiter κ) : Prop :=
  match w.stage with
  | .registering todo => w.notifierIds.map Prod.fst ++ todo = w.queues
  | .allClosed _ todo => w.notifierIds.map Prod.fst = w.queues ∧ todo ⊆ w.queues
  | .removing _ => True
  | _ => w.notifierIds.map Prod.fst = w.queues

/-- What a call of `waitAny` that is not registering or removing has in its hands. -/
theorem Waiter.Enrolled.map_fst {w : Waiter κ} (h : w.Enrolled)
    (hregistering : ∀ todo, w.stage ≠ .registering todo)
    (hremoving : ∀ outcome, w.stage ≠ .removing outcome) :
    w.notifierIds.map Prod.fst = w.queues := by
  unfold Waiter.Enrolled at h
  split at h
  case h_1 todo hstage => exact absurd hstage (hregistering todo)
  case h_2 => exact h.1
  case h_3 outcome hstage => exact absurd hstage (hremoving outcome)
  case h_4 => exact h

theorem Waiter.enrolled_onTrue {w : Waiter κ} (h : w.notifierIds.map Prod.fst = w.queues)
    (r : Round) : Waiter.Enrolled { w with stage := w.onTrue r } := by
  cases r with
  | final => trivial
  | _ => exact h

theorem Waiter.enrolled_onFalse {w : Waiter κ} (h : w.notifierIds.map Prod.fst = w.queues)
    (r : Round) : Waiter.Enrolled { w with stage := w.onFalse r } := by
  cases r with
  | initial => exact ⟨h, List.Subset.refl _⟩
  | final => trivial
  | _ => exact h

theorem Waiter.enrolled_onThrow {w : Waiter κ} (h : w.notifierIds.map Prod.fst = w.queues)
    (r : Round) : Waiter.Enrolled { w with stage := w.onThrow r } := by
  cases r with
  | initial | final => trivial
  | _ => exact h

theorem Waiter.Enrolled.turn {w : Waiter κ} {queue : κ → LockingQueue α} {stage : Stage κ}
    (h : w.Enrolled) (hturn : w.Turns queue stage) : Waiter.Enrolled { w with stage } := by
  cases hturn with
  | start hstage =>
    simp only [Waiter.Enrolled, hstage, List.append_nil] at h
    exact ⟨h, List.Subset.refl _⟩
  | fail => trivial
  | timeout hstage =>
    simp only [Waiter.Enrolled, hstage] at h
    exact ⟨h, List.Subset.refl _⟩
  | scan hregistering hacquire hremoving =>
    have hfst := h.map_fst hregistering hremoving
    cases hstage : w.stage with
    | registering todo => exact absurd hstage (hregistering todo)
    | acquire => exact absurd hstage hacquire
    | removing outcome => exact absurd hstage (hremoving outcome)
    | allClosed r todo =>
      simp only [Waiter.Enrolled, hstage] at h
      cases todo with
      | nil => exact Waiter.enrolled_onTrue hfst r
      | cons q todo =>
        simp only [Waiter.scan]
        split
        · exact ⟨hfst, List.Subset.trans (List.subset_cons_self q todo) h.2⟩
        · exact hfst
    | skipClosed r todo =>
      cases todo with
      | nil => exact Waiter.enrolled_onFalse hfst r
      | cons q todo =>
        simp only [Waiter.scan]
        split <;> exact hfst
    | hasOpen r q todo =>
      simp only [Waiter.scan]
      split
      · exact Waiter.enrolled_onThrow hfst r
      · exact hfst
    | hasMessage r q todo =>
      simp only [Waiter.scan]
      split
      · exact hfst
      · exact Waiter.enrolled_onTrue hfst r

/-! ### Vigilance -/

/-- Whether a thread that has changed queue `q` has yet to release the notifier of thread `j`. -/
def Pc.Announcing (q : κ) (j : ι) : Pc ι κ α → Prop
  | .owing q' => q' = q
  | .notifying q' rest => q' = q ∧ ∃ notifierId, (notifierId, j) ∈ rest
  | _ => False

/-- The semaphore of thread `j` has been released, or will be by a call that has changed one of
`queues`. -/
def System.Pending (s : System ι κ α) (j : ι) (queues : List κ) : Prop :=
  s.available j = true ∨ ∃ i, ∃ q ∈ queues, (s.pc i).Announcing q j

/-- Some of `queues` are open, and every open one of `scanned` is empty. -/
structure Quiet (queue : κ → LockingQueue α) (queues scanned : List κ) : Prop where
  someOpen : ∃ q ∈ queues, (queue q).isDestroyed = false
  noMessage : ∀ q ∈ scanned, (queue q).isDestroyed = true ∨ (queue q).empty = true

/-- The queues a round of the predicate has yet to read, once it has found an open one. -/
def Stage.unscanned : Stage κ → Option (List κ)
  | .skipClosed .predicate todo => some todo
  | .hasOpen .predicate q todo | .hasMessage .predicate q todo => some (q :: todo)
  | .acquire => some []
  | _ => none

/-- What a waiter has read in its round is still so, unless a notification is pending. -/
def Vigilant (s : System ι κ α) (j : ι) (w : Waiter κ) : Prop :=
  ∀ todo, w.stage.unscanned = some todo → s.Pending j w.queues ∨
    ∃ scanned, w.queues = scanned ++ todo ∧ Quiet s.queue w.queues scanned

theorem Vigilant.read {s : System ι κ α} {j : ι} {w : Waiter κ} {q : κ} {todo : List κ}
    (hs : Vigilant s j w) (hunscanned : w.stage.unscanned = some (q :: todo))
    (hq : (s.queue q).isDestroyed = true ∨ (s.queue q).empty = true) :
    s.Pending j w.queues ∨ ∃ scanned, w.queues = scanned ++ todo ∧
      Quiet s.queue w.queues scanned := by
  refine (hs (q :: todo) hunscanned).imp_right ?_
  rintro ⟨scanned, hqueues, hquiet⟩
  refine ⟨scanned ++ [q], by rw [hqueues]; simp, hquiet.someOpen, fun q' hq' => ?_⟩
  rcases List.mem_append.mp hq' with hq' | hq'
  · exact hquiet.noMessage q' hq'
  · rwa [List.mem_singleton.mp hq']

theorem Vigilant.turn {s : System ι κ α} {j : ι} {w : Waiter κ} {stage : Stage κ}
    (hs : Vigilant s j w) (henrolled : w.Enrolled) (hturn : w.Turns s.queue stage) :
    ∀ todo, stage.unscanned = some todo → s.Pending j w.queues ∨
      ∃ scanned, w.queues = scanned ++ todo ∧ Quiet s.queue w.queues scanned := by
  cases hturn with
  | start | fail | timeout => simp [Stage.unscanned]
  | scan hregistering hacquire hremoving =>
    cases hstage : w.stage with
    | registering todo => exact absurd hstage (hregistering todo)
    | acquire => exact absurd hstage hacquire
    | removing outcome => exact absurd hstage (hremoving outcome)
    | allClosed r todo =>
      cases todo with
      | nil => cases r <;> simp [Waiter.scan, Waiter.onTrue, Stage.unscanned]
      | cons q todo =>
        simp only [Waiter.scan]
        split
        case isTrue => simp [Stage.unscanned]
        case isFalse hopen =>
          -- an open queue is found, and the search for a message begins
          intro todo' htodo
          cases r <;> simp only [Stage.unscanned, Option.some.injEq, reduceCtorEq] at htodo
          subst htodo
          simp only [Waiter.Enrolled, hstage] at henrolled
          refine .inr ⟨[], rfl, ⟨q, henrolled.2 List.mem_cons_self, ?_⟩, by simp⟩
          simpa [MessageQueue.isClosed] using hopen
    | skipClosed r todo =>
      cases todo with
      | nil =>
        cases r with
        | predicate =>
          intro todo' htodo
          obtain rfl : [] = todo' := by simpa [Waiter.scan, Waiter.onFalse, Stage.unscanned] using htodo
          exact hs [] (by rw [hstage]; rfl)
        | _ => simp [Waiter.scan, Waiter.onFalse, Stage.unscanned]
      | cons q todo =>
        simp only [Waiter.scan]
        split
        case isTrue hclosed =>
          intro todo' htodo
          cases r <;> simp only [Stage.unscanned, Option.some.injEq, reduceCtorEq] at htodo
          subst htodo
          exact hs.read (by rw [hstage]; rfl) (.inl hclosed)
        case isFalse =>
          intro todo' htodo
          cases r <;> simp only [Stage.unscanned, Option.some.injEq, reduceCtorEq] at htodo
          subst htodo
          exact hs (q :: todo) (by rw [hstage]; rfl)
    | hasOpen r q todo =>
      simp only [Waiter.scan]
      split
      case isTrue => cases r <;> simp [Waiter.onThrow, Stage.unscanned]
      case isFalse =>
        intro todo' htodo
        cases r <;> simp only [Stage.unscanned, Option.some.injEq, reduceCtorEq] at htodo
        subst htodo
        exact hs (q :: todo) (by rw [hstage]; rfl)
    | hasMessage r q todo =>
      simp only [Waiter.scan]
      split
      case isTrue hempty =>
        intro todo' htodo
        cases r <;> simp only [Stage.unscanned, Option.some.injEq, reduceCtorEq] at htodo
        subst htodo
        exact hs.read (by rw [hstage]; rfl) (.inr hempty)
      case isFalse => cases r <;> simp [Waiter.onTrue, Stage.unscanned]

/-! ### The invariant -/

/-- The invariant of the whole system. -/
structure Sound (s : System ι κ α) : Prop where
  registered : Registered s
  enrolled : ∀ i w, s.pc i = .waiting w → w.Enrolled
  vigilant : ∀ i w, s.pc i = .waiting w → Vigilant s i w

/-- Queues in any state, with every thread outside and no notifier registered. -/
structure Initial (s : System ι κ α) : Prop where
  pc : ∀ i, s.pc i = .outside none
  notifiers : ∀ q, (s.queues q).notifiers = []

theorem Initial.sound {s : System ι κ α} (h : Initial s) : Sound s where
  registered := by
    refine ⟨fun q e he => ?_, fun q notifierId i j hi => ?_, fun i q notifierId => ?_, fun i => ?_⟩
    · rw [h.notifiers] at he
      cases he
    · rw [h.notifiers] at hi
      cases hi
    · rw [h.notifiers, h.pc]
      exact ⟨nofun, nofun⟩
    · rw [h.pc]
      exact List.nodup_nil
  enrolled i w hw := by
    rw [h.pc] at hw
    cases hw
  vigilant i w hw := by
    rw [h.pc] at hw
    cases hw

/-- A waiter past its registration is in the table of every queue on its list. -/
theorem Sound.mem_notifiers {s : System ι κ α} (hs : Sound s) {j : ι} {w : Waiter κ}
    (hpc : s.pc j = .waiting w) {todo : List κ} (hstage : w.stage.unscanned = some todo) :
    ∀ q ∈ w.queues, ∃ notifierId, (notifierId, j) ∈ (s.queues q).notifiers := by
  intro q hq
  have hfst : w.notifierIds.map Prod.fst = w.queues :=
    (hs.enrolled j w hpc).map_fst (fun todo h => by rw [h] at hstage; cases hstage)
      (fun outcome h => by rw [h] at hstage; cases hstage)
  rw [← hfst, List.mem_map] at hq
  obtain ⟨⟨q', notifierId⟩, hmem, rfl⟩ := hq
  refine ⟨notifierId, ?_⟩
  rw [hs.registered.mem_iff, hpc]
  exact hmem

/-! ### Steps and runs -/

variable [DecidableEq ι] [DecidableEq κ]

theorem Moves.pc_of_ne {s t : System ι κ α} {i j : ι} (h : Moves s i t) (hj : j ≠ i) :
    t.pc j = s.pc j := by
  cases h with
  | _ => exact System.setPc_pc_of_ne hj

/-- Only a visit changes the messages or the closed flag of a queue. -/
theorem Moves.queue_cases {s t : System ι κ α} {i : ι} (h : Moves s i t) :
    (∀ q, t.queue q = s.queue q) ∨
      ∃ q c phase v, LockingQueue.Effect (s.queue q) (Call.op c) phase v ∧
        t = s.visited i q c v := by
  have hsame : ∀ {q : κ} {mq : MessageQueue ι α} {pc : Pc ι κ α}, mq.queue = s.queue q →
      ∀ q', ((s.setQueue q mq).setPc i pc).queue q' = s.queue q' := by
    intro q mq pc hmq q'
    by_cases hq : q' = q
    · subst hq
      simpa [System.queue] using hmq
    · simp [System.queue, System.setQueue_queues_of_ne hq]
  cases h with
  | visit hpc heff => exact .inr ⟨_, _, _, _, heff, rfl⟩
  | lock | unlock => exact .inl (hsame rfl)
  | register | remove => exact .inl (hsame (by simp [System.queue]))
  | _ => exact .inl fun _ => rfl

/-- A pending notification stays pending until the waiter takes it. -/
theorem System.Pending.step {s t : System ι κ α} {i j : ι} {queues : List κ}
    (hs : s.Pending j queues)
    (hin : ∀ q ∈ queues, ∃ notifierId, (notifierId, j) ∈ (s.queues q).notifiers)
    (h : Moves s i t) (hj : j ≠ i) : t.Pending j queues := by
  rcases hs with havailable | ⟨k, q, hq, hk⟩
  · left
    cases h with
    | @release q rest e hpc =>
      by_cases he : j = e.2
      · subst he
        simp
      · rwa [setPc_available, setAvailable_available_of_ne he]
    | waitAny | acquire => rwa [setPc_available, setAvailable_available_of_ne hj]
    | _ => exact havailable
  by_cases hki : k = i
  · subst hki
    cases h with
    | enter hold =>
      rcases hold with ⟨o, hold⟩ | ⟨q', c, n, hold⟩ <;> rw [hold] at hk <;> cases hk
    | visit hpc =>
      rcases hpc with hpc | hpc <;> rw [hpc] at hk <;> cases hk
    | lock hpc =>
      rw [hpc] at hk
      obtain rfl : _ = q := hk
      exact .inr ⟨k, _, hq, by rw [setPc_pc_self]; exact ⟨rfl, hin _ hq⟩⟩
    | @release q' rest e hpc =>
      rw [hpc] at hk
      obtain ⟨rfl, notifierId, hmem⟩ := hk
      by_cases he : j = e.2
      · left
        subst he
        simp
      · -- some other notifier is released, and this one is still to come
        refine .inr ⟨k, q', hq, ?_⟩
        rw [setPc_pc_self]
        refine ⟨rfl, notifierId, (List.mem_erase_of_ne ?_).mpr hmem⟩
        rintro rfl
        exact he rfl
    | unlock hpc =>
      rw [hpc] at hk
      obtain ⟨-, notifierId, hmem⟩ := hk
      cases hmem
    | waitAny hpc | turn hpc | register hpc | acquire hpc | remove hpc | leave hpc =>
      rw [hpc] at hk
      cases hk
  · exact .inr ⟨k, q, hq, by rwa [h.pc_of_ne hki]⟩

/-- What has been read stays so under the steps of others, or a notification becomes pending. -/
theorem Quiet.step {s t : System ι κ α} {i j : ι} {queues scanned : List κ}
    (hs : Quiet s.queue queues scanned) (hscanned : scanned ⊆ queues) (h : Moves s i t) :
    t.Pending j queues ∨ Quiet t.queue queues scanned := by
  rcases h.queue_cases with hsame | ⟨q, c, phase, v, heff, rfl⟩
  · right
    rwa [funext hsame]
  have hother : ∀ q' ≠ q, (s.visited i q c v).queue q' = s.queue q' := fun q' hq' => by
    simp [System.queue, System.visited, System.setQueue_queues_of_ne hq']
  have hself : (s.visited i q c v).queue q = v.shared := by
    simp [System.queue, System.visited]
  rcases Call.quiet_or_notifies heff with ⟨ret, notify, hexit, hnotifies⟩ | ⟨hdestroyed, hempty⟩
  · by_cases hq : q ∈ queues
    · -- the visitor goes on to notify the listeners of a queue on the list
      refine .inl (.inr ⟨i, q, hq, ?_⟩)
      simp [System.visited, Pc.after, hexit, hnotifies, Pc.Announcing]
    · have hsame : ∀ q' ∈ queues, (s.visited i q c v).queue q' = s.queue q' := fun q' hq' =>
        hother q' (by rintro rfl; exact hq hq')
      obtain ⟨q', hq', hopen⟩ := hs.someOpen
      refine .inr ⟨⟨q', hq', by rwa [hsame q' hq']⟩, fun q' hq' => ?_⟩
      rw [hsame q' (hscanned hq')]
      exact hs.noMessage q' hq'
  · right
    have hkeeps : ∀ q', ((s.visited i q c v).queue q').isDestroyed = (s.queue q').isDestroyed ∧
        ((s.queue q').empty = true → ((s.visited i q c v).queue q').empty = true) := by
      intro q'
      by_cases hq' : q' = q
      · subst hq'
        rw [hself]
        exact ⟨hdestroyed, hempty⟩
      · rw [hother q' hq']
        exact ⟨rfl, id⟩
    obtain ⟨q', hq', hopen⟩ := hs.someOpen
    refine ⟨⟨q', hq', by rwa [(hkeeps q').1]⟩, fun q' hq' => ?_⟩
    rw [(hkeeps q').1]
    exact (hs.noMessage q' hq').imp id (hkeeps q').2

/-- A call of `waitAny` stays enrolled and vigilant under its own steps. -/
theorem Sound.own_step {s t : System ι κ α} {i : ι} (hs : Sound s) (h : Moves s i t)
    {w : Waiter κ} (hw : t.pc i = .waiting w) : w.Enrolled ∧ Vigilant t i w := by
  cases h with
  | enter hold hnew =>
    rw [System.setPc_pc_self] at hw
    rcases hnew with ⟨o, rfl⟩ | ⟨q, c, n, rfl⟩ <;> cases hw
  | @visit q c phase v hpc heff =>
    rw [System.visited, System.setPc_pc_self] at hw
    unfold Pc.after at hw
    split at hw
    · cases hw
    · split at hw <;> cases hw
  | lock | release | unlock | leave => rw [System.setPc_pc_self] at hw; cases hw
  | waitAny hpc =>
    rw [System.setPc_pc_self] at hw
    cases hw
    exact ⟨rfl, by simp [Vigilant, Stage.unscanned]⟩
  | @turn w' stage hpc hturn =>
    rw [System.setPc_pc_self] at hw
    cases hw
    refine ⟨(hs.enrolled i w' hpc).turn hturn, fun todo htodo => ?_⟩
    refine ((hs.vigilant i w' hpc).turn (hs.enrolled i w' hpc) hturn todo htodo).imp_left ?_
    -- the waiter's own reading takes nothing from what is pending
    rintro (havailable | ⟨k, q, hq, hk⟩)
    · exact .inl havailable
    · have hki : k ≠ i := by
        rintro rfl
        rw [hpc] at hk
        cases hk
      exact .inr ⟨k, q, hq, by rwa [System.setPc_pc_of_ne hki]⟩
  | register hpc hstage =>
    have henrolled := hs.enrolled i _ hpc
    simp only [Waiter.Enrolled, hstage] at henrolled
    rw [System.setPc_pc_self] at hw
    cases hw
    refine ⟨?_, by simp [Vigilant, Stage.unscanned]⟩
    rw [Waiter.Enrolled, ← henrolled]
    simp
  | acquire hpc hstage =>
    have henrolled := hs.enrolled i _ hpc
    simp only [Waiter.Enrolled, hstage] at henrolled
    rw [System.setPc_pc_self] at hw
    cases hw
    exact ⟨⟨henrolled, List.Subset.refl _⟩, by simp [Vigilant, Stage.unscanned]⟩
  | remove hpc hstage hids =>
    rw [System.setPc_pc_self] at hw
    cases hw
    exact ⟨by simp only [Waiter.Enrolled, hstage], by simp [Vigilant, Stage.unscanned, hstage]⟩

theorem Sound.step {s t : System ι κ α} {i : ι} (hs : Sound s) (h : Moves s i t) : Sound t where
  registered := hs.registered.step h
  enrolled j w hw := by
    by_cases hji : j = i
    · subst hji
      exact (hs.own_step h hw).1
    · rw [h.pc_of_ne hji] at hw
      exact hs.enrolled j w hw
  vigilant j w hw := by
    by_cases hji : j = i
    · subst hji
      exact (hs.own_step h hw).2
    · rw [h.pc_of_ne hji] at hw
      intro todo htodo
      rcases hs.vigilant j w hw todo htodo with hpending | ⟨scanned, hqueues, hquiet⟩
      · exact .inl (hpending.step (hs.mem_notifiers hw htodo) h hji)
      · refine (hquiet.step (hqueues ▸ List.subset_append_left scanned todo) h).imp_right ?_
        exact fun hquiet => ⟨scanned, hqueues, hquiet⟩

theorem sound_of_run {s₀ s : System ι κ α} {tr : List (System ι κ α × Action ι κ α)}
    (h₀ : Initial s₀) (h : Run step s₀ tr s) : Sound s := by
  refine h.invariant (fun s a t hs hstep => ?_) h₀.sound
  obtain ⟨i, hmoves⟩ := step_moves hstep
  exact hs.step hmoves

/-- **`waitAny` misses nothing.** In no state of any run does a waiter sleep in `acquire` without a
permit, with nobody about to release its semaphore, while an open queue on its list holds a message
or all queues on its list are closed. And a thread outside `waitAny` has no notifier in any table,
however its last call ended. -/
theorem waitAny_misses_nothing {s₀ s : System ι κ α} {tr : List (System ι κ α × Action ι κ α)}
    (h₀ : Initial s₀) (h : Run step s₀ tr s) :
    (∀ i w, s.pc i = .waiting w → w.stage = .acquire → s.available i = false →
        (∀ j q, ¬ (s.pc j).Announcing q i) →
        (¬ ∃ q ∈ w.queues, (s.queue q).isDestroyed = false ∧ (s.queue q).empty = false) ∧
          ¬ ∀ q ∈ w.queues, (s.queue q).isDestroyed = true) ∧
      ∀ i o, s.pc i = .outside o → ∀ q notifierId, (notifierId, i) ∉ (s.queues q).notifiers := by
  have hs := sound_of_run h₀ h
  constructor
  · intro i w hpc hstage havailable hnobody
    rcases hs.vigilant i w hpc [] (by rw [hstage]; rfl) with
      (hpermit | ⟨j, q, -, hj⟩) | ⟨scanned, hqueues, ⟨q, hq, hopen⟩, hquiet⟩
    · rw [havailable] at hpermit
      cases hpermit
    · exact absurd hj (hnobody j q)
    · rw [List.append_nil] at hqueues
      subst hqueues
      constructor
      · rintro ⟨q', hq', hopen', hmessage⟩
        rcases hquiet q' hq' with hclosed | hempty
        · rw [hopen'] at hclosed
          cases hclosed
        · rw [hmessage] at hempty
          cases hempty
      · intro hclosed
        have hq' := hclosed q hq
        rw [hopen] at hq'
        cases hq'
  · intro i o hpc q notifierId hmem
    rw [hs.registered.mem_iff, hpc] at hmem
    cases hmem

/-- Two threads and one open, empty queue. -/
def twoThreads : System (Fin 2) (Fin 1) ℕ := ⟨fun _ => {}, fun _ => false, fun _ => .outside none⟩

/-- Thread `0` waits. Thread `1` sends a message and takes it out again before thread `0` has
acquired its permit, so that thread `0` looks once more and goes back to sleep. -/
def takenBackRun : List (Action (Fin 2) (Fin 1) ℕ) :=
  .waitAny 0 [0] false :: List.replicate 12 (.advance 0) ++
    [.call 1 0 (.send 5), .check 1, .visit 1, .lock 1, .release 1 (0, 0), .unlock 1,
      .call 1 0 .tryGet, .check 1, .visit 1] ++ List.replicate 6 (.advance 0)

theorem waitAny_misses_nothing_takenBack :
    ∃ tr s, Run step twoThreads tr s ∧
      (∃ w, s.pc 0 = .waiting w ∧ w.stage = .acquire ∧ w.queues = [0]) ∧
      ¬ ∃ q ∈ [0], (s.queue q).isDestroyed = false ∧ (s.queue q).empty = false := by
  have hrun := Run.of_isSome (show (exec step twoThreads takenBackRun).isSome by rfl)
  refine ⟨_, _, hrun, ⟨⟨[0], false, [(0, 0)], .acquire⟩, by rfl, rfl, rfl⟩, ?_⟩
  refine ((waitAny_misses_nothing ⟨fun _ => rfl, fun _ => rfl⟩ hrun).1 0
    ⟨[0], false, [(0, 0)], .acquire⟩ (by rfl) rfl (by rfl) fun j q => ?_).1
  rcases Fin.exists_fin_two.mp ⟨j, rfl⟩ with rfl | rfl <;> exact id

end WaitAny

end DepthaiCore
