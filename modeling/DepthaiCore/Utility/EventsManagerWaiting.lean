import DepthaiCore.Lib.Numerals
import DepthaiCore.Lib.Runs
import DepthaiCore.Utility.EventsManager
import Mathlib.Data.List.Count
import Mathlib.Data.List.Perm.Basic

/-!
# Waiting for the uploads of `EventsManager`

Any number of threads call `waitForPendingUploads` while events and snaps are sent, the tasks of the
file batches run, and the upload thread goes round. A section under a lock is one step; so is the
reading or writing of an atomic flag, and a notification.

An item is an event or a snap. It moves from `snapBuffer` to a batch, from there to `eventBuffer`,
and leaves the last two when it is sent, dropped or cached. A cached item may come back. The `Store`
keeps a record of what was accepted, what came back and what left.

A caller that waits is parked since an iteration of the upload thread. A wake-up without a
notification leaves it parked; one that was notified and finds its predicate false parks anew.
-/

open scoped Numerals

namespace DepthaiCore

namespace EventsManager

variable {ι α : Type*}

/-! ### The containers -/

/-- The buffers, the tasks of the file batches, and the record of the items. -/
structure Store (α : Type*) where
  snapBuffer : List α
  eventBuffer : List α
  /-- The items that the task of a batch has in its hands. -/
  running : List (ℕ × α)
  /-- The number of batches so far. -/
  launched : ℕ
  /-- The batches whose task has returned, so that their future is ready. -/
  returned : List ℕ
  uploadFileBatchFutures : List ℕ
  accepted : List α
  /-- The items that came back from the cache. -/
  restored : List α
  /-- The items that were sent, dropped or cached. -/
  left : List α
  deriving DecidableEq, Repr

namespace Store

def checkPendingUploadsFinished (st : Store α) : Bool :=
  if !st.snapBuffer.isEmpty then false
  else if st.uploadFileBatchFutures.any fun b => !st.returned.contains b then false
  else st.eventBuffer.isEmpty

/-- The last section of `sendEvent`. -/
def sendEvent (x : α) (st : Store α) : Store α :=
  { st with eventBuffer := st.eventBuffer ++ [x], accepted := st.accepted ++ [x] }

/-- The last section of `sendSnap`. -/
def sendSnap (x : α) (st : Store α) : Store α :=
  { st with snapBuffer := st.snapBuffer ++ [x], accepted := st.accepted ++ [x] }

/-- `uploadCachedEvents` puts an event back. -/
def restoreEvent (x : α) (st : Store α) : Store α :=
  { st with eventBuffer := st.eventBuffer ++ [x], restored := st.restored ++ [x] }

/-- `uploadCachedSnaps` puts a snap back. -/
def restoreSnap (x : α) (st : Store α) : Store α :=
  { st with snapBuffer := st.snapBuffer ++ [x], restored := st.restored ++ [x] }

/-- The upload thread takes a batch of at most `maxGroupsPerBatch` snaps and starts its task. -/
def takeBatch (maxGroupsPerBatch : ℕ) (st : Store α) : Store α :=
  if (st.snapBuffer.take maxGroupsPerBatch).isEmpty then st
  else
    { st with
      snapBuffer := st.snapBuffer.drop maxGroupsPerBatch
      running := st.running ++ (st.snapBuffer.take maxGroupsPerBatch).map fun x => (st.launched, x)
      launched := st.launched + 1
      uploadFileBatchFutures := st.uploadFileBatchFutures ++ [st.launched] }

/-- The upload thread forgets the futures that are ready. -/
def cleanFutures (st : Store α) : Store α :=
  { st with
    uploadFileBatchFutures :=
      st.uploadFileBatchFutures.filter fun b => !st.returned.contains b }

/-- The answer to a request with the first `n` events. -/
def answered (n : ℕ) (ok : Bool) (st : Store α) : Store α :=
  if ok then
    { st with eventBuffer := st.eventBuffer.drop n, left := st.left ++ st.eventBuffer.take n }
  else if eventBufferMaxSize ≤ st.eventBuffer.length then
    { st with eventBuffer := [], left := st.left ++ st.eventBuffer }
  else st

/-- The task of a batch returns. It waits for all its groups before. -/
def batchDone (b : ℕ) (st : Store α) : Option (Store α) :=
  if b < st.launched ∧ b ∉ st.returned ∧ ∀ p ∈ st.running, p.1 ≠ b then
    some { st with returned := st.returned ++ [b] }
  else none

variable [DecidableEq α]

/-- `uploadGroup` ends: it hands the event of a snap over, or the task is done with the snap. -/
def groupDone (b : ℕ) (x : α) (uploaded : Bool) (st : Store α) : Option (Store α) :=
  if (b, x) ∈ st.running then
    some (if uploaded then
        { st with running := st.running.erase (b, x), eventBuffer := st.eventBuffer ++ [x] }
      else { st with running := st.running.erase (b, x), left := st.left ++ [x] })
  else none

/-- No item is lost, or in two places: whatever was accepted or came back is in one of the containers
or has left. The tasks that hold items have not returned, and the futures of all tasks that have not
returned are in the list. -/
structure Conserved (st : Store α) : Prop where
  items : ∀ x, st.accepted.count x + st.restored.count x = st.snapBuffer.count x +
    (st.running.map Prod.snd).count x + st.eventBuffer.count x + st.left.count x
  returned : ∀ b ∈ st.returned, b < st.launched
  running : ∀ p ∈ st.running, p.1 < st.launched ∧ p.1 ∉ st.returned
  listed : ∀ b < st.launched, b ∉ st.returned → b ∈ st.uploadFileBatchFutures

/-- Every item has left, and none is on its way. -/
structure Settled (st : Store α) : Prop where
  items : (st.accepted ++ st.restored).Perm st.left
  gone : ∀ x ∈ st.accepted, x ∈ st.left ∧ x ∉ st.snapBuffer ∧ (∀ b, (b, x) ∉ st.running) ∧
    x ∉ st.eventBuffer

namespace Conserved

variable {st st' : Store α} {x : α} {b n : ℕ} {ok uploaded : Bool}

/-- **The check is right.** -/
theorem settled (h : st.Conserved) (hcheck : st.checkPendingUploadsFinished = true) :
    st.Settled := by
  obtain ⟨hsnap, hfutures, hevent⟩ : st.snapBuffer = [] ∧
      (∀ b ∈ st.uploadFileBatchFutures, b ∈ st.returned) ∧ st.eventBuffer = [] := by
    simpa [checkPendingUploadsFinished] using hcheck
  have hrunning : st.running = [] := by
    refine List.eq_nil_iff_forall_not_mem.2 fun p hp => ?_
    obtain ⟨hlt, hnot⟩ := h.running p hp
    exact hnot (hfutures _ (h.listed _ hlt hnot))
  have hitems : (st.accepted ++ st.restored).Perm st.left :=
    List.perm_iff_count.2 fun x => by simpa [hsnap, hevent, hrunning] using h.items x
  refine ⟨hitems, fun x hx => ⟨hitems.subset (List.mem_append_left _ hx), ?_⟩⟩
  simp [hsnap, hevent, hrunning]

theorem sendEvent (h : st.Conserved) : (st.sendEvent x).Conserved where
  items y := by
    have hy := h.items y
    simp only [Store.sendEvent, List.count_append]
    omega
  returned := h.returned
  running := h.running
  listed := h.listed

theorem sendSnap (h : st.Conserved) : (st.sendSnap x).Conserved where
  items y := by
    have hy := h.items y
    simp only [Store.sendSnap, List.count_append]
    omega
  returned := h.returned
  running := h.running
  listed := h.listed

theorem restoreEvent (h : st.Conserved) : (st.restoreEvent x).Conserved where
  items y := by
    have hy := h.items y
    simp only [Store.restoreEvent, List.count_append]
    omega
  returned := h.returned
  running := h.running
  listed := h.listed

theorem restoreSnap (h : st.Conserved) : (st.restoreSnap x).Conserved where
  items y := by
    have hy := h.items y
    simp only [Store.restoreSnap, List.count_append]
    omega
  returned := h.returned
  running := h.running
  listed := h.listed

/-- The snaps of a batch are in `snapBuffer` before the section and in the hands of a task whose
future is listed after it. -/
theorem takeBatch (h : st.Conserved) : (st.takeBatch n).Conserved := by
  unfold Store.takeBatch
  split_ifs with hempty
  · exact h
  refine ⟨fun y => ?_, fun c hc => Nat.lt_succ_of_lt (h.returned c hc), fun p hp => ?_,
    fun c hc hnot => ?_⟩
  · have hy := h.items y
    have htaken := congrArg (List.count y) (List.take_append_drop n st.snapBuffer)
    simp only [List.count_append, List.map_append, List.map_map, Function.comp_def,
      List.map_id'] at htaken ⊢
    omega
  · rcases List.mem_append.1 hp with hp | hp
    · exact ⟨Nat.lt_succ_of_lt (h.running p hp).1, (h.running p hp).2⟩
    · obtain ⟨y, -, rfl⟩ := List.mem_map.1 hp
      exact ⟨Nat.lt_succ_self _, fun hmem => Nat.lt_irrefl _ (h.returned _ hmem)⟩
  · rcases Nat.lt_succ_iff_lt_or_eq.1 hc with hc | rfl
    · exact List.mem_append_left _ (h.listed c hc hnot)
    · simp

theorem cleanFutures (h : st.Conserved) : st.cleanFutures.Conserved where
  items := h.items
  returned := h.returned
  running := h.running
  listed c hc hnot := List.mem_filter.2
    ⟨h.listed c hc hnot, by simpa [Store.cleanFutures] using hnot⟩

/-- The event of a snap goes to `eventBuffer` while the task that hands it over has not returned. -/
theorem groupDone (h : st.Conserved) (hst : st.groupDone b x uploaded = some st') :
    st'.Conserved := by
  unfold Store.groupDone at hst
  by_cases hmem : (b, x) ∈ st.running
  case neg => simp [hmem] at hst
  rw [if_pos hmem] at hst
  obtain rfl := Option.some.inj hst
  have hcount (y : α) := ((List.perm_cons_erase hmem).map Prod.snd).count_eq y
  simp only [List.map_cons, List.count_cons] at hcount
  have hrunning (p : ℕ × α) (hp : p ∈ st.running.erase (b, x)) :=
    h.running p (List.mem_of_mem_erase hp)
  split_ifs with huploaded
  · refine ⟨fun y => ?_, h.returned, hrunning, h.listed⟩
    have hy := h.items y
    have := hcount y
    simp only [List.count_append, List.count_singleton]
    omega
  · refine ⟨fun y => ?_, h.returned, hrunning, h.listed⟩
    have hy := h.items y
    have := hcount y
    simp only [List.count_append, List.count_singleton]
    omega

theorem batchDone (h : st.Conserved) (hst : st.batchDone b = some st') : st'.Conserved := by
  unfold Store.batchDone at hst
  split_ifs at hst with hb
  obtain rfl := Option.some.inj hst
  obtain ⟨hlt, -, hidle⟩ := hb
  refine ⟨h.items, fun c hc => ?_, fun p hp => ⟨(h.running p hp).1, fun hmem => ?_⟩,
    fun c hc hnot => h.listed c hc fun hmem => hnot (List.mem_append_left _ hmem)⟩
  · rcases List.mem_append.1 hc with hc | hc
    · exact h.returned c hc
    · obtain rfl := List.mem_singleton.1 hc
      exact hlt
  · rcases List.mem_append.1 hmem with hmem | hmem
    · exact (h.running p hp).2 hmem
    · exact hidle p hp (List.mem_singleton.1 hmem)

theorem answered (h : st.Conserved) : (st.answered n ok).Conserved := by
  unfold Store.answered
  split_ifs
  · refine ⟨fun y => ?_, h.returned, h.running, h.listed⟩
    have hy := h.items y
    have htaken := congrArg (List.count y) (List.take_append_drop n st.eventBuffer)
    simp only [List.count_append] at htaken ⊢
    omega
  · refine ⟨fun y => ?_, h.returned, h.running, h.listed⟩
    have hy := h.items y
    simp only [List.count_append, List.count_nil]
    omega
  · exact h

end Conserved

end Store

/-! ### The threads -/

/-- Where a caller of `waitForPendingUploads` is. -/
inductive Caller
  | idle
  /-- It has made the first check. -/
  | checked (timed uploadFinished : Bool)
  /-- It waits on the condition variable, since the upload thread had begun `since` iterations. -/
  | parked (timed : Bool) (since : ℕ) (notified : Bool)
  /-- It has yet to make the final check. -/
  | leaving
  deriving DecidableEq, Repr

/-- What `notify_all` does to a caller. -/
def Caller.notify : Caller → Caller
  | parked timed since _ => parked timed since true
  | c => c

/-- Where the upload thread is. -/
inductive Uploader
  /-- Before an iteration. -/
  | idle
  | limits
  | snaps
  | cleaning
  | events
  | requesting (eventsSize : ℕ)
  | flag
  | checking
  | storing (uploadFinished : Bool)
  | notifying (uploadFinished : Bool)
  /-- At the end of an iteration, with what its check found if it made one. -/
  | finishing (found : Option Bool)
  deriving DecidableEq, Repr

/-- The containers, the flags and the threads. -/
structure Waiting (ι α : Type*) where
  store : Store α
  connectionEstablished : Bool
  waitingForPendingUploads : Bool
  pendingUploadsFinished : Bool
  stopUploadThread : Bool
  caller : ι → Caller
  uploader : Uploader
  /-- The number of iterations that have begun. -/
  started : ℕ
  /-- The iterations that are over, with what the check of each found. -/
  completed : List (ℕ × Option Bool)

/-- The steps of the upload thread. -/
inductive UploadStep (α : Type*)
  | start
  | fetch (connectionEstablished : Bool)
  | restoreSnap (x : α)
  | takeBatch (maxGroupsPerBatch : ℕ)
  | cleanFutures
  | restoreEvent (x : α)
  | copyBatch (tokenEmpty : Bool) (eventsPerRequest : ℕ)
  | answer (ok : Bool)
  | readFlag
  | check
  | store
  | notify
  | finish
  deriving DecidableEq, Repr

/-- The atomic steps. The check of a caller comes with its result. -/
inductive WaitingStep (ι α : Type*)
  | sendEvent (x : α)
  | sendSnap (x : α)
  | groupDone (b : ℕ) (x : α) (uploaded : Bool)
  | batchDone (b : ℕ)
  | call (i : ι) (timed uploadFinished : Bool)
  | enter (i : ι)
  | wake (i : ι) (timedOut : Bool)
  | finalCheck (i : ι) (uploadFinished : Bool)
  | upload (a : UploadStep α)
  | stop
  | notifyStop
  deriving DecidableEq, Repr

namespace Waiting

/-- The predicate of the wait. -/
def waitOver (s : Waiting ι α) : Bool :=
  s.pendingUploadsFinished || !s.connectionEstablished || s.stopUploadThread

/-- `notify_all` on `pendingUploadsCondition`. -/
def notifyAll (s : Waiting ι α) : Waiting ι α :=
  { s with caller := fun i => (s.caller i).notify }

/-- One step of the upload thread. -/
def uploadStep (s : Waiting ι α) (a : UploadStep α) : Option (Waiting ι α) :=
  match s.uploader, a with
  | .idle, .start =>
    if s.stopUploadThread then none
    else some { s with uploader := .limits, started := s.started + 1 }
  | .limits, .fetch b => some { s with uploader := .snaps, connectionEstablished := b }
  | .snaps, .restoreSnap x =>
    if s.connectionEstablished then some { s with store := s.store.restoreSnap x } else none
  | .snaps, .takeBatch n => some { s with uploader := .cleaning, store := s.store.takeBatch n }
  | .cleaning, .cleanFutures => some { s with uploader := .events, store := s.store.cleanFutures }
  | .events, .restoreEvent x =>
    if s.connectionEstablished then some { s with store := s.store.restoreEvent x } else none
  | .events, .copyBatch tokenEmpty n =>
    if s.store.eventBuffer.isEmpty || tokenEmpty then some { s with uploader := .flag }
    else some { s with uploader := .requesting (min s.store.eventBuffer.length n) }
  | .requesting n, .answer ok => some { s with uploader := .flag, store := s.store.answered n ok }
  | .flag, .readFlag =>
    some { s with
      uploader := if s.waitingForPendingUploads then .checking else .finishing none }
  | .checking, .check => some { s with uploader := .storing s.store.checkPendingUploadsFinished }
  | .storing b, .store =>
    some { s with
      pendingUploadsFinished := b
      uploader := if b || !s.connectionEstablished then .notifying b else .finishing (some b) }
  | .notifying b, .notify => some { s.notifyAll with uploader := .finishing (some b) }
  | .finishing found, .finish =>
    some { s with uploader := .idle, completed := s.completed ++ [(s.started, found)] }
  | _, _ => none

/-- An `EventsManager` nobody has used. -/
structure Initial (s : Waiting ι α) : Prop where
  snapBuffer : s.store.snapBuffer = []
  eventBuffer : s.store.eventBuffer = []
  running : s.store.running = []
  launched : s.store.launched = 0
  returned : s.store.returned = []
  uploadFileBatchFutures : s.store.uploadFileBatchFutures = []
  accepted : s.store.accepted = []
  restored : s.store.restored = []
  left : s.store.left = []
  caller : ∀ i, s.caller i = .idle
  uploader : s.uploader = .idle
  completed : s.completed = []

/-! ### Nobody is forgotten -/

/-- What is known of the callers that are parked and have not been notified: no iteration that began
after that has found everything uploaded, whether it is over or about to be. -/
structure Noticed (s : Waiting ι α) : Prop where
  started : ∀ p ∈ s.completed, p.1 ≤ s.started
  completed : ∀ i timed since, s.caller i = .parked timed since false →
    ∀ n, (n, some true) ∈ s.completed → n ≤ since
  finishing : s.uploader = .finishing (some true) →
    ∀ i timed since, s.caller i = .parked timed since false → s.started ≤ since

theorem Initial.noticed {s : Waiting ι α} (h : s.Initial) : s.Noticed where
  started := by simp [h.completed]
  completed := by simp [h.completed]
  finishing := by simp [h.uploader]

/-- A step may leave parked callers parked, and park callers since the last iteration that has
begun. -/
theorem Noticed.of_parked {s t : Waiting ι α} (hs : s.Noticed) (hstarted : t.started = s.started)
    (hcompleted : t.completed = s.completed)
    (huploader : t.uploader = .finishing (some true) → s.uploader = .finishing (some true))
    (hparked : ∀ i timed since, t.caller i = .parked timed since false →
      s.caller i = .parked timed since false ∨ since = s.started) : t.Noticed where
  started := by simpa [hstarted, hcompleted] using hs.started
  completed i timed since hi n hn := by
    rw [hcompleted] at hn
    rcases hparked i timed since hi with hi | rfl
    · exact hs.completed i timed since hi n hn
    · exact hs.started _ hn
  finishing ht i timed since hi := by
    rw [hstarted]
    rcases hparked i timed since hi with hi | rfl
    · exact hs.finishing (huploader ht) i timed since hi
    · exact Nat.le_refl _

theorem notify_ne_parked (c : Caller) (timed : Bool) (since : ℕ) :
    c.notify ≠ .parked timed since false := by
  cases c <;> simp [Caller.notify]

/-- **What a step of the upload thread does to waiting callers.** It begins an iteration, notifies
everybody, ends an iteration, or does nothing to them; it is only a notification that leads to the end
of an iteration which found everything uploaded. -/
theorem uploadStep_cases {s t : Waiting ι α} {a : UploadStep α} (h : s.uploadStep a = some t) :
    (t.caller = s.caller ∧ t.completed = s.completed ∧ t.uploader ≠ .finishing (some true) ∧
        (t.started = s.started ∨ t.started = s.started + 1)) ∨
      (∃ b, t = { s.notifyAll with uploader := .finishing (some b) }) ∨
      ∃ found, s.uploader = .finishing found ∧
        t = { s with uploader := .idle, completed := s.completed ++ [(s.started, found)] } := by
  unfold uploadStep at h
  split at h
  case h_1 =>
    split_ifs at h
    obtain rfl := Option.some.inj h
    exact .inl ⟨rfl, rfl, nofun, .inr rfl⟩
  case h_3 huploader =>
    split_ifs at h
    obtain rfl := Option.some.inj h
    exact .inl ⟨rfl, rfl, by simp [huploader], .inl rfl⟩
  case h_6 huploader =>
    split_ifs at h
    obtain rfl := Option.some.inj h
    exact .inl ⟨rfl, rfl, by simp [huploader], .inl rfl⟩
  case h_7 =>
    split_ifs at h
    all_goals
      obtain rfl := Option.some.inj h
      exact .inl ⟨rfl, rfl, nofun, .inl rfl⟩
  case h_9 =>
    obtain rfl := Option.some.inj h
    refine .inl ⟨rfl, rfl, ?_, .inl rfl⟩
    cases s.waitingForPendingUploads <;> simp
  case h_11 b _ =>
    obtain rfl := Option.some.inj h
    refine .inl ⟨rfl, rfl, ?_, .inl rfl⟩
    cases b <;> cases s.connectionEstablished <;> simp
  case h_12 b _ => obtain rfl := Option.some.inj h; exact .inr (.inl ⟨b, rfl⟩)
  case h_13 found huploader =>
    obtain rfl := Option.some.inj h
    exact .inr (.inr ⟨found, huploader, rfl⟩)
  case h_14 => cases h
  all_goals
    obtain rfl := Option.some.inj h
    exact .inl ⟨rfl, rfl, nofun, .inl rfl⟩

theorem noticed_uploadStep {s t : Waiting ι α} {a : UploadStep α} (hs : s.Noticed)
    (h : s.uploadStep a = some t) : t.Noticed := by
  rcases uploadStep_cases h with ⟨hcaller, hcompleted, huploader, hstarted⟩ | ⟨b, rfl⟩ |
    ⟨found, huploader, rfl⟩
  · refine ⟨fun p hp => ?_, fun i timed since hi => ?_, fun ht => absurd ht huploader⟩
    · have := hs.started p (hcompleted ▸ hp)
      omega
    · rw [hcompleted]
      exact hs.completed i timed since (hcaller ▸ hi)
  · exact ⟨hs.started, fun i timed since hi => absurd hi (notify_ne_parked _ _ _),
      fun _ i timed since hi => absurd hi (notify_ne_parked _ _ _)⟩
  · refine ⟨fun p hp => ?_, fun i timed since hi n hn => ?_, nofun⟩
    · rcases List.mem_append.1 hp with hp | hp
      · exact hs.started p hp
      · obtain rfl := List.mem_singleton.1 hp
        exact Nat.le_refl _
    · rcases List.mem_append.1 hn with hn | hn
      · exact hs.completed i timed since hi n hn
      · -- The iteration that ends now has notified everybody who was parked when it did.
        obtain ⟨rfl, rfl⟩ := Prod.mk.inj (List.mem_singleton.1 hn)
        exact hs.finishing huploader i timed since hi

section Callers

variable [DecidableEq ι]

/-- The section of `waitForPendingUploads` up to its end or its first wait. -/
def enter (s : Waiting ι α) (i : ι) (timed uploadFinished : Bool) : Waiting ι α :=
  let s := { s with pendingUploadsFinished := uploadFinished }
  if uploadFinished then { s with caller := Function.update s.caller i .idle }
  else if s.waitOver then
    { s with
      waitingForPendingUploads := false
      caller := Function.update s.caller i .leaving }
  else
    { s with
      waitingForPendingUploads := true
      caller := Function.update s.caller i (.parked timed s.started false) }

/-- The section after a wake-up, up to its end or the next wait. -/
def wake (s : Waiting ι α) (i : ι) (timed : Bool) (since : ℕ) (notified timedOut : Bool) :
    Waiting ι α :=
  if s.waitOver || timedOut then
    { s with
      waitingForPendingUploads := false
      caller := Function.update s.caller i .leaving }
  else
    let since := if notified then s.started else since
    { s with caller := Function.update s.caller i (.parked timed since false) }

@[simp] theorem store_enter {s : Waiting ι α} {i : ι} {timed uploadFinished : Bool} :
    (s.enter i timed uploadFinished).store = s.store := by
  simp only [enter]
  split_ifs <;> rfl

@[simp] theorem store_wake {s : Waiting ι α} {i : ι} {since : ℕ} {timed notified timedOut : Bool} :
    (s.wake i timed since notified timedOut).store = s.store := by
  simp only [wake]
  split_ifs <;> rfl

/-- A caller may be parked since the last iteration that has begun, or stay parked. -/
theorem Noticed.of_update {s t : Waiting ι α} (hs : s.Noticed) {i : ι} {c : Caller}
    (hcaller : t.caller = Function.update s.caller i c) (hstarted : t.started = s.started)
    (hcompleted : t.completed = s.completed) (huploader : t.uploader = s.uploader)
    (hc : ∀ timed since, c = .parked timed since false →
      s.caller i = .parked timed since false ∨ since = s.started) : t.Noticed := by
  refine hs.of_parked hstarted hcompleted (huploader ▸ id) fun j timed since hj => ?_
  rw [hcaller] at hj
  by_cases hij : j = i
  · subst hij
    exact hc timed since (by simpa using hj)
  · exact .inl (by simpa [hij] using hj)

theorem Noticed.enter {s : Waiting ι α} (hs : s.Noticed) {i : ι} {timed uploadFinished : Bool} :
    (s.enter i timed uploadFinished).Noticed := by
  simp only [Waiting.enter]
  split_ifs
  · exact hs.of_update rfl rfl rfl rfl nofun
  · exact hs.of_update rfl rfl rfl rfl nofun
  · exact hs.of_update rfl rfl rfl rfl fun _ _ hc => .inr (Caller.parked.inj hc).2.1.symm

theorem Noticed.wake {s : Waiting ι α} (hs : s.Noticed) {i : ι} {timed notified timedOut : Bool}
    {since : ℕ} (hi : s.caller i = .parked timed since notified) :
    (s.wake i timed since notified timedOut).Noticed := by
  simp only [Waiting.wake]
  split_ifs with hover hnotified
  · exact hs.of_update rfl rfl rfl rfl nofun
  · exact hs.of_update rfl rfl rfl rfl fun _ _ hc => .inr (Caller.parked.inj hc).2.1.symm
  · -- A wake-up out of nowhere: the caller is where it was.
    obtain rfl : notified = false := by simpa using hnotified
    exact hs.of_update rfl rfl rfl rfl fun _ _ hc => .inl (hi.trans hc)

end Callers

/-! ### Nothing is lost -/

variable [DecidableEq α]

theorem Initial.conserved {s : Waiting ι α} (h : s.Initial) : s.store.Conserved where
  items x := by
    simp [h.snapBuffer, h.eventBuffer, h.running, h.accepted, h.restored, h.left]
  returned := by simp [h.returned]
  running := by simp [h.running]
  listed := by simp [h.launched]

theorem conserved_uploadStep {s t : Waiting ι α} {a : UploadStep α} (hs : s.store.Conserved)
    (h : s.uploadStep a = some t) : t.store.Conserved := by
  unfold uploadStep at h
  split at h
  case h_1 =>
    split_ifs at h
    obtain rfl := Option.some.inj h
    exact hs
  case h_2 => obtain rfl := Option.some.inj h; exact hs
  case h_3 =>
    split_ifs at h
    obtain rfl := Option.some.inj h
    exact hs.restoreSnap
  case h_4 => obtain rfl := Option.some.inj h; exact hs.takeBatch
  case h_5 => obtain rfl := Option.some.inj h; exact hs.cleanFutures
  case h_6 =>
    split_ifs at h
    obtain rfl := Option.some.inj h
    exact hs.restoreEvent
  case h_7 => split_ifs at h <;> (obtain rfl := Option.some.inj h; exact hs)
  case h_8 => obtain rfl := Option.some.inj h; exact hs.answered
  case h_14 => cases h
  all_goals
    obtain rfl := Option.some.inj h
    exact hs

variable [DecidableEq ι]

/-- One atomic step. -/
def step (s : Waiting ι α) : WaitingStep ι α → Option (Waiting ι α)
  | .sendEvent x => some { s with store := s.store.sendEvent x }
  | .sendSnap x => some { s with store := s.store.sendSnap x }
  | .groupDone b x uploaded =>
    (s.store.groupDone b x uploaded).map fun store => { s with store := store }
  | .batchDone b => (s.store.batchDone b).map fun store => { s with store := store }
  | .call i timed uploadFinished =>
    if s.caller i = .idle ∧ uploadFinished = s.store.checkPendingUploadsFinished then
      some { s with caller := Function.update s.caller i (.checked timed uploadFinished) }
    else none
  | .enter i =>
    match s.caller i with
    | .checked timed uploadFinished => some (s.enter i timed uploadFinished)
    | _ => none
  | .wake i timedOut =>
    match s.caller i with
    | .parked timed since notified =>
      if timedOut && !timed then none else some (s.wake i timed since notified timedOut)
    | _ => none
  | .finalCheck i uploadFinished =>
    if s.caller i = .leaving ∧ uploadFinished = s.store.checkPendingUploadsFinished then
      some { s with caller := Function.update s.caller i .idle }
    else none
  | .upload a => s.uploadStep a
  | .stop => some { s with stopUploadThread := true }
  | .notifyStop => if s.stopUploadThread then some s.notifyAll else none

theorem conserved_step {s t : Waiting ι α} {a : WaitingStep ι α} (hs : s.store.Conserved)
    (h : s.step a = some t) : t.store.Conserved := by
  cases a with
  | sendEvent x => obtain rfl := Option.some.inj h; exact hs.sendEvent
  | sendSnap x => obtain rfl := Option.some.inj h; exact hs.sendSnap
  | groupDone b x uploaded =>
    obtain ⟨st, hst, rfl⟩ := Option.map_eq_some_iff.1 h
    exact hs.groupDone hst
  | batchDone b =>
    obtain ⟨st, hst, rfl⟩ := Option.map_eq_some_iff.1 h
    exact hs.batchDone hst
  | call i timed uploadFinished =>
    simp only [step] at h
    split_ifs at h
    obtain rfl := Option.some.inj h
    exact hs
  | enter i =>
    simp only [step] at h
    split at h
    · obtain rfl := Option.some.inj h
      simpa using hs
    · cases h
  | wake i timedOut =>
    simp only [step] at h
    split at h
    · split_ifs at h
      obtain rfl := Option.some.inj h
      simpa using hs
    · cases h
  | finalCheck i uploadFinished =>
    simp only [step] at h
    split_ifs at h
    obtain rfl := Option.some.inj h
    exact hs
  | upload a => exact conserved_uploadStep hs h
  | stop => obtain rfl := Option.some.inj h; exact hs
  | notifyStop =>
    simp only [step] at h
    split_ifs at h
    obtain rfl := Option.some.inj h
    exact hs

theorem noticed_step {s t : Waiting ι α} {a : WaitingStep ι α} (hs : s.Noticed)
    (h : s.step a = some t) : t.Noticed := by
  cases a with
  | sendEvent x => obtain rfl := Option.some.inj h; exact ⟨hs.started, hs.completed, hs.finishing⟩
  | sendSnap x => obtain rfl := Option.some.inj h; exact ⟨hs.started, hs.completed, hs.finishing⟩
  | groupDone b x uploaded =>
    obtain ⟨st, -, rfl⟩ := Option.map_eq_some_iff.1 h
    exact ⟨hs.started, hs.completed, hs.finishing⟩
  | batchDone b =>
    obtain ⟨st, -, rfl⟩ := Option.map_eq_some_iff.1 h
    exact ⟨hs.started, hs.completed, hs.finishing⟩
  | call i timed uploadFinished =>
    simp only [step] at h
    split_ifs at h
    obtain rfl := Option.some.inj h
    exact hs.of_update rfl rfl rfl rfl nofun
  | enter i =>
    simp only [step] at h
    split at h
    · obtain rfl := Option.some.inj h
      exact hs.enter
    · cases h
  | wake i timedOut =>
    simp only [step] at h
    split at h
    case h_1 hcaller =>
      split_ifs at h
      obtain rfl := Option.some.inj h
      exact hs.wake hcaller
    case h_2 => cases h
  | finalCheck i uploadFinished =>
    simp only [step] at h
    split_ifs at h
    obtain rfl := Option.some.inj h
    exact hs.of_update rfl rfl rfl rfl nofun
  | upload a => exact noticed_uploadStep hs h
  | stop => obtain rfl := Option.some.inj h; exact ⟨hs.started, hs.completed, hs.finishing⟩
  | notifyStop =>
    simp only [step] at h
    split_ifs at h
    obtain rfl := Option.some.inj h
    exact hs.of_parked rfl rfl id fun i timed since hi => absurd hi (notify_ne_parked _ _ _)

/-! ### Runs -/

theorem conserved_of_run {s₀ s : Waiting ι α} {tr : List (Waiting ι α × WaitingStep ι α)}
    (h₀ : s₀.Initial) (hrun : Transition.Run step s₀ tr s) : s.store.Conserved :=
  hrun.invariant (I := fun s => s.store.Conserved) (fun _ _ _ hs h => conserved_step hs h)
    h₀.conserved

theorem noticed_of_run {s₀ s : Waiting ι α} {tr : List (Waiting ι α × WaitingStep ι α)}
    (h₀ : s₀.Initial) (hrun : Transition.Run step s₀ tr s) : s.Noticed :=
  hrun.invariant (fun _ _ _ hs h => noticed_step hs h) h₀.noticed

/-- **`waitForPendingUploads` is sound and wakes up.** In every state that a run reaches: when the
check that a call returns is made and succeeds, every item accepted before has left and none is on
its way; and no caller is parked without having been notified although an iteration that began after
it was parked is over and found everything uploaded. -/
theorem waitForPendingUploads_sound {s₀ s : Waiting ι α}
    {tr : List (Waiting ι α × WaitingStep ι α)} (h₀ : s₀.Initial)
    (hrun : Transition.Run step s₀ tr s) :
    (∀ i t, (s.step (.finalCheck i true) = some t ∨
        ∃ timed, s.step (.call i timed true) = some t) → s.store.Settled) ∧
      ∀ i timed since, s.caller i = .parked timed since false →
        ¬ ∃ n, since < n ∧ (n, some true) ∈ s.completed := by
  refine ⟨fun i t h => ?_, fun i timed since hi => ?_⟩
  · have hcheck : s.store.checkPendingUploadsFinished = true := by
      rcases h with h | ⟨timed, h⟩
      all_goals
        simp only [step] at h
        split_ifs at h with hguard
        exact hguard.2.symm
    exact (conserved_of_run h₀ hrun).settled hcheck
  · rintro ⟨n, hlt, hn⟩
    exact Nat.not_le.2 hlt ((noticed_of_run h₀ hrun).completed i timed since hi n hn)

/-- An `EventsManager` nobody has used, with two threads around it. -/
def unused : Waiting (Fin 2) ℕ where
  store := ⟨[], [], [], 0, [], [], [], [], []⟩
  connectionEstablished := false
  waitingForPendingUploads := false
  pendingUploadsFinished := false
  stopUploadThread := false
  caller := fun _ => .idle
  uploader := .idle
  started := 0
  completed := []

theorem unused_initial : unused.Initial :=
  ⟨rfl, rfl, rfl, rfl, rfl, rfl, rfl, rfl, rfl, fun _ => rfl, rfl, rfl⟩

/-- Thread `0` waits for an event and a snap. The upload thread sends the event in its first iteration
and the one of the snap in its second; then it notifies thread `0`, which wakes up. Thread `1` waits
since the end of the second iteration. -/
def uploadRun : List (WaitingStep (Fin 2) ℕ) :=
  [.upload .start, .upload (.fetch true), .sendEvent 7, .sendSnap 8, .call 0 false false, .enter 0,
    .upload (.takeBatch 5), .upload .cleanFutures, .upload (.copyBatch false 10),
    .upload (.answer true), .upload .readFlag, .upload .check, .upload .store, .upload .finish,
    .groupDone 0 8 true, .batchDone 0, .upload .start, .upload (.fetch true),
    .upload (.takeBatch 5), .upload .cleanFutures, .upload (.copyBatch false 10), .call 1 false false,
    .upload (.answer true), .upload .readFlag, .upload .check, .upload .store, .upload .notify,
    .upload .finish, .wake 0 false, .enter 1]

theorem waitForPendingUploads_sound_uploadRun :
    ∃ tr s, Transition.Run step unused tr s ∧ s.store.Settled ∧
      ¬ ∃ n, 2 < n ∧ (n, some true) ∈ s.completed := by
  have hexec : (Transition.exec step unused uploadRun).isSome := by rfl
  have hrun := Transition.Run.of_isSome hexec
  have hsound := waitForPendingUploads_sound unused_initial hrun
  have hcheck : (step ((Transition.exec step unused uploadRun).get hexec).2
      (.finalCheck 0 true)).isSome := by rfl
  obtain ⟨t, ht⟩ := Option.isSome_iff_exists.1 hcheck
  exact ⟨_, _, hrun, hsound.1 0 t (.inl ht), hsound.2 1 false 2 (by rfl)⟩

end Waiting

end EventsManager

end DepthaiCore
