import DepthaiCore.Lib.Numerals
import DepthaiCore.Pipeline.MessageQueue
import Mathlib.Data.List.Nodup
import Mathlib.Data.List.TakeWhile

/-!
# `getAny` without interference

`getAny` takes a map from keys to references to message queues, waits with `waitAny` until one of
the queues has a message, and then calls `tryGet` on each in the iteration order of the map. The
wait skips closed queues; the collection does not, and `tryGet` throws on a closed queue. Messages
taken from the queues before it are then lost with the local result.

Here no other thread touches the queues: a heap maps the references to the queues, and two keys may
hold the same reference. The map is the list of its entries in iteration order, which the code does
not determine.
-/

open scoped Numerals

namespace DepthaiCore

namespace MessageQueue

variable {κ α β : Type*}

/-! ### The functions -/

/-- What a call of the only thread comes to: a wait without a timeout that finds nothing to wake up
for never ends. -/
inductive Result (β : Type*)
  | returned (value : β)
  | threw (e : QueueException)
  | blocks
  deriving DecidableEq, Repr

/-- A map from keys to queues, as its entries in iteration order. -/
structure QueueMap (κ : Type*) where
  entries : List (String × κ)
  nodup_keys : (entries.map Prod.fst).Nodup

def checkAllClosed (queue : κ → LockingQueue α) (queues : List κ) : Bool :=
  queues.all fun q => isClosed (queue q)

def checkForMessages (queue : κ → LockingQueue α) : List κ → Except QueueException Bool
  | [] => .ok false
  | q :: queues =>
    if isClosed (queue q) then checkForMessages queue queues
    else
      match has (queue q) with
      | .error e => .error e
      | .ok true => .ok true
      | .ok false => checkForMessages queue queues

/-- The predicate of the wait. -/
def pred (queue : κ → LockingQueue α) (queues : List κ) : Bool :=
  checkAllClosed queue queues ||
    match checkForMessages queue queues with
    | .ok found => found
    | .error _ => true

/-- The end of `waitAny`: `gotMessage = checkForMessages()`. -/
def gotMessage (queue : κ → LockingQueue α) (queues : List κ) : Result Bool :=
  match checkForMessages queue queues with
  | .ok found => .returned found
  | .error e => .threw e

/-- `waitAny`. The notifier it registers and removes again is never released. -/
def waitAny (queue : κ → LockingQueue α) (queues : List κ) (timed : Bool) : Result Bool :=
  if checkAllClosed queue queues then gotMessage queue queues
  else
    match checkForMessages queue queues with
    | .error e => .threw e
    | .ok true => gotMessage queue queues
    | .ok false =>
      if pred queue queues || timed then gotMessage queue queues
      else .blocks

/-- The loop of `getAny` over the entries of the map. -/
def collect [DecidableEq κ] (queue : κ → LockingQueue α) :
    List (String × κ) → List (String × α) → Result (List (String × α)) × (κ → LockingQueue α)
  | [], inputs => (.returned inputs, queue)
  | (key, q) :: entries, inputs =>
    match tryGet (queue q) with
    | .error e => (.threw e, queue)
    | .ok (msg, rest) =>
      collect (Function.update queue q rest) entries
        (match msg with
        | some msg => inputs ++ [(key, msg)]
        | none => inputs)

/-- `getAny`: its result and the queues afterwards. -/
def getAny [DecidableEq κ] (queue : κ → LockingQueue α) (m : QueueMap κ) (timed : Bool) :
    Result (List (String × α)) × (κ → LockingQueue α) :=
  match waitAny queue (m.entries.map Prod.snd) timed with
  | .threw e => (.threw e, queue)
  | .blocks => (.blocks, queue)
  | .returned false => (.returned [], queue)
  | .returned true => collect queue m.entries []

/-! ### The conditions of `waitAny` -/

/-- Whether some open queue has a message. -/
def anyMessage (queue : κ → LockingQueue α) (queues : List κ) : Bool :=
  queues.any fun q => !(queue q).isDestroyed && !(queue q).empty

/-- Whether a call of `waitAny` waits for good: it has no timeout, and finds some queue open and no
message in any open one. -/
def Waits (queue : κ → LockingQueue α) (queues : List κ) (timed : Bool) : Prop :=
  timed = false ∧ (∃ q ∈ queues, (queue q).isDestroyed = false) ∧
    ∀ q ∈ queues, (queue q).isDestroyed = true ∨ (queue q).empty = true

theorem checkAllClosed_eq_false_iff {queue : κ → LockingQueue α} {queues : List κ} :
    checkAllClosed queue queues = false ↔ ∃ q ∈ queues, (queue q).isDestroyed = false := by
  simp [checkAllClosed, isClosed]

theorem anyMessage_eq_false_iff {queue : κ → LockingQueue α} {queues : List κ} :
    anyMessage queue queues = false ↔
      ∀ q ∈ queues, (queue q).isDestroyed = true ∨ (queue q).empty = true := by
  simp only [anyMessage, List.any_eq_false, Bool.and_eq_true, Bool.not_eq_eq_eq_not, Bool.not_true,
    not_and, Bool.not_eq_false]
  exact forall₂_congr fun q _ => by cases (queue q).isDestroyed <;> simp

theorem waits_iff {queue : κ → LockingQueue α} {queues : List κ} {timed : Bool} :
    Waits queue queues timed ↔
      timed = false ∧ checkAllClosed queue queues = false ∧ anyMessage queue queues = false := by
  rw [Waits, checkAllClosed_eq_false_iff, anyMessage_eq_false_iff]

theorem checkForMessages_eq (queue : κ → LockingQueue α) (queues : List κ) :
    checkForMessages queue queues = .ok (anyMessage queue queues) := by
  induction queues with
  | nil => rfl
  | cons q queues ih =>
    rw [checkForMessages, anyMessage, List.any_cons, ih, ← anyMessage]
    cases hdestroyed : (queue q).isDestroyed <;> cases hempty : (queue q).empty <;>
      simp [isClosed, has, hdestroyed, hempty]

theorem gotMessage_eq (queue : κ → LockingQueue α) (queues : List κ) :
    gotMessage queue queues = .returned (anyMessage queue queues) := by
  rw [gotMessage, checkForMessages_eq]

/-- **The result of `waitAny`.** It reports whether an open queue has a message, unless it waits for
good. -/
theorem waitAny_eq (queue : κ → LockingQueue α) (queues : List κ) (timed : Bool) :
    (Waits queue queues timed → waitAny queue queues timed = .blocks) ∧
      (¬ Waits queue queues timed →
        waitAny queue queues timed = .returned (anyMessage queue queues)) := by
  rw [waits_iff, waitAny, gotMessage_eq, pred, checkForMessages_eq]
  cases checkAllClosed queue queues <;> cases anyMessage queue queues <;> cases timed <;> simp

/-! ### The collection loop -/

/-- The queue without its oldest message. -/
def popOldest (q : LockingQueue α) : LockingQueue α := { q with queue := q.queue.tail }

theorem tryPop_shared (q : LockingQueue α) : q.tryPop.shared = popOldest q := by
  rcases q with ⟨maxSize, blocking, queue, destructed⟩
  cases queue with
  | nil => rfl
  | cons x xs => rfl

theorem popOldest_of_empty {q : LockingQueue α} (h : q.empty = true) : popOldest q = q := by
  rcases q with ⟨maxSize, blocking, queue, destructed⟩
  obtain rfl : queue = [] := by simpa [LockingQueue.empty] using h
  rfl

@[simp] theorem popOldest_isDestroyed (q : LockingQueue α) :
    (popOldest q).isDestroyed = q.isDestroyed := rfl

theorem front_of_empty {q : LockingQueue α} (h : q.empty = true) : q.front = none := by
  rw [LockingQueue.front, List.head?_eq_none_iff]
  simpa [LockingQueue.empty] using h

/-! ### What a call should do -/

/-- The result is a map from the keys of the open queues with a message to their oldest messages,
and those messages have been taken out. -/
structure Collected (queue : κ → LockingQueue α) (m : QueueMap κ) (inputs : List (String × α))
    (after : κ → LockingQueue α) : Prop where
  nodup_keys : (inputs.map Prod.fst).Nodup
  mem_iff : ∀ key msg, (key, msg) ∈ inputs ↔
    ∃ q, (key, q) ∈ m.entries ∧ (queue q).isDestroyed = false ∧ (queue q).front = some msg
  popped : ∀ q ∈ m.entries.map Prod.snd, (queue q).isDestroyed = false →
    after q = popOldest (queue q)
  kept : ∀ q, q ∉ m.entries.map Prod.snd ∨ (queue q).isDestroyed = true → after q = queue q

/-- Two entries that refer to the same queue refer to an empty one. -/
def Unshared (queue : κ → LockingQueue α) (entries : List (String × κ)) : Prop :=
  entries.Pairwise fun e e' => e.2 = e'.2 → (queue e.2).empty = true

/-- The states in which the collection loses nothing: every queue before the first closed one is
empty, and if none is closed then no two keys refer to the same queue with a message. -/
structure Harmless (queue : κ → LockingQueue α) (m : QueueMap κ) : Prop where
  closed : (∃ e ∈ m.entries, (queue e.2).isDestroyed = true) →
    ∀ e ∈ m.entries.takeWhile fun e => !(queue e.2).isDestroyed, (queue e.2).empty = true
  unshared : (∀ e ∈ m.entries, (queue e.2).isDestroyed = false) → Unshared queue m.entries

/-- With no message in any open queue there is nothing to lose. -/
theorem harmless_of_quiet {queue : κ → LockingQueue α} {m : QueueMap κ}
    (h : ∀ e ∈ m.entries, (queue e.2).isDestroyed = true ∨ (queue e.2).empty = true) :
    Harmless queue m where
  closed _ e he := by
    have hopen : (queue e.2).isDestroyed = false := by simpa using List.mem_takeWhile_imp he
    refine (h e ((List.takeWhile_sublist _).subset he)).resolve_left ?_
    simp [hopen]
  unshared hopen := List.pairwise_of_forall_mem_list fun e he e' _ _ =>
    (h e he).resolve_left (by simp [hopen e he])

theorem collected_nil {queue : κ → LockingQueue α} {m : QueueMap κ}
    (h : ∀ e ∈ m.entries, (queue e.2).isDestroyed = true ∨ (queue e.2).empty = true) :
    Collected queue m [] queue where
  nodup_keys := List.nodup_nil
  mem_iff key msg := by
    refine ⟨nofun, ?_⟩
    rintro ⟨q, hq, hopen, hfront⟩
    rcases h (key, q) hq with hclosed | hempty
    · simp [hopen] at hclosed
    · simp [front_of_empty hempty] at hfront
  popped q hq hopen := by
    obtain ⟨e, he, rfl⟩ := List.mem_map.mp hq
    exact (popOldest_of_empty ((h e he).resolve_left (by simp [hopen]))).symm
  kept _ _ := rfl

/-! ### The loop, one queue at a time -/

variable [DecidableEq κ]

/-- The queues after the oldest message of queue `q` has been taken. -/
def popAt (queue : κ → LockingQueue α) (q : κ) : κ → LockingQueue α :=
  Function.update queue q (popOldest (queue q))

/-- The queues after a message has been taken for each entry. -/
def popEach (queue : κ → LockingQueue α) (entries : List (String × κ)) : κ → LockingQueue α :=
  entries.foldl (fun queue e => popAt queue e.2) queue

/-- The messages taken for the entries, one after the other. -/
def fronts (queue : κ → LockingQueue α) : List (String × κ) → List (String × α)
  | [] => []
  | (key, q) :: entries =>
    ((queue q).front.map fun msg => (key, msg)).toList ++ fronts (popAt queue q) entries

section Heap

variable {queue : κ → LockingQueue α} {q q' : κ}

@[simp] theorem popAt_self : popAt queue q q = popOldest (queue q) := by simp [popAt]

theorem popAt_of_ne (h : q' ≠ q) : popAt queue q q' = queue q' := by simp [popAt, h]

theorem popAt_of_empty (h : (queue q).empty = true) : popAt queue q = queue := by
  rw [popAt, popOldest_of_empty h, Function.update_eq_self]

@[simp] theorem popAt_isDestroyed : (popAt queue q q').isDestroyed = (queue q').isDestroyed := by
  by_cases h : q' = q
  · subst h
    simp
  · rw [popAt_of_ne h]

@[simp] theorem popEach_nil : popEach queue [] = queue := rfl

@[simp] theorem popEach_cons {e : String × κ} {entries : List (String × κ)} :
    popEach queue (e :: entries) = popEach (popAt queue e.2) entries := rfl

@[simp] theorem popEach_isDestroyed (entries : List (String × κ)) :
    (popEach queue entries q).isDestroyed = (queue q).isDestroyed := by
  induction entries generalizing queue with
  | nil => rfl
  | cons e entries ih => rw [popEach_cons, ih, popAt_isDestroyed]

/-- The loop takes from a queue one message for each entry that refers to it. -/
theorem popEach_queue (entries : List (String × κ)) :
    (popEach queue entries q).queue = (queue q).queue.drop ((entries.map Prod.snd).count q) := by
  induction entries generalizing queue with
  | nil => rfl
  | cons e entries ih =>
    rw [popEach_cons, ih, List.map_cons]
    by_cases h : q = e.2
    · subst h
      rw [popAt_self, popOldest, List.count_cons_self, List.drop_tail, Nat.add_comm]
    · rw [popAt_of_ne h, List.count_cons_of_ne (Ne.symm h)]

end Heap

/-- The loop gets through entries whose queues are all open. -/
theorem collect_append {queue : κ → LockingQueue α} {before after : List (String × κ)}
    {inputs : List (String × α)} (hopen : ∀ e ∈ before, (queue e.2).isDestroyed = false) :
    collect queue (before ++ after) inputs =
      collect (popEach queue before) after (inputs ++ fronts queue before) := by
  induction before generalizing queue inputs with
  | nil => simp [fronts]
  | cons e before ih =>
    obtain ⟨key, q⟩ := e
    have hq : (queue q).isDestroyed = false := hopen (key, q) List.mem_cons_self
    have hrest : ∀ e ∈ before, (popAt queue q e.2).isDestroyed = false := fun e he => by
      rw [popAt_isDestroyed]
      exact hopen e (List.mem_cons_of_mem _ he)
    rw [List.cons_append, collect, tryGet, if_neg (by simp [hq]), tryPop_shared]
    change collect (popAt queue q) (before ++ after) _ = _
    rw [ih hrest, popEach_cons, fronts]
    cases (queue q).front <;> simp

theorem collect_of_open {queue : κ → LockingQueue α} {entries : List (String × κ)}
    (hopen : ∀ e ∈ entries, (queue e.2).isDestroyed = false) :
    collect queue entries [] = (.returned (fronts queue entries), popEach queue entries) := by
  have h : collect queue (entries ++ []) [] = _ := collect_append hopen
  rwa [List.append_nil] at h

theorem collect_of_closed {queue : κ → LockingQueue α} {entries : List (String × κ)}
    (hclosed : ∃ e ∈ entries, (queue e.2).isDestroyed = true) :
    collect queue entries [] = (.threw .closedQueue,
      popEach queue (entries.takeWhile fun e => !(queue e.2).isDestroyed)) := by
  set p : String × κ → Bool := fun e => !(queue e.2).isDestroyed with hp
  obtain ⟨e, he, hdestroyed⟩ := hclosed
  have hne : entries.dropWhile p ≠ [] := by
    rw [Ne, List.dropWhile_eq_nil_iff]
    intro hall
    simpa [hp, hdestroyed] using hall e he
  obtain ⟨⟨key, q⟩, after, hcons⟩ := List.exists_cons_of_ne_nil hne
  have hq : (queue q).isDestroyed = true := by
    have hhead := List.head_dropWhile_not p hne
    rw [List.head_eq_iff_head?_eq_some _ |>.mpr (by rw [hcons]; rfl)] at hhead
    simpa [hp] using hhead
  have hbefore : ∀ e ∈ entries.takeWhile p, (queue e.2).isDestroyed = false := fun e he => by
    simpa [hp] using List.mem_takeWhile_imp he
  calc collect queue entries []
      = collect queue (entries.takeWhile p ++ entries.dropWhile p) [] := by
        rw [List.takeWhile_append_dropWhile]
    _ = (.threw .closedQueue, popEach queue (entries.takeWhile p)) := by
        rw [collect_append hbefore, hcons, collect, tryGet, if_pos (by rw [popEach_isDestroyed, hq])]

/-- The loop over open queues changes nothing exactly when they are all empty. -/
theorem popEach_eq_self_iff {queue : κ → LockingQueue α} {entries : List (String × κ)} :
    popEach queue entries = queue ↔ ∀ e ∈ entries, (queue e.2).empty = true := by
  constructor
  · intro h e he
    have hqueue := congrArg LockingQueue.queue (congrFun h e.2)
    have hcount : 0 < (entries.map Prod.snd).count e.2 :=
      List.count_pos_iff.mpr (List.mem_map_of_mem he)
    have hlen := congrArg List.length hqueue
    rw [popEach_queue, List.length_drop] at hlen
    rw [LockingQueue.empty, List.isEmpty_iff_length_eq_zero]
    omega
  · intro h
    induction entries with
    | nil => rfl
    | cons e entries ih =>
      rw [popEach_cons, popAt_of_empty (h e List.mem_cons_self)]
      exact ih fun e he => h e (List.mem_cons_of_mem _ he)

/-- Taking the message of the first entry leaves the other entries what they had. -/
theorem Unshared.popAt_eq {queue : κ → LockingQueue α} {e : String × κ}
    {entries : List (String × κ)} (h : Unshared queue (e :: entries)) :
    ∀ e' ∈ entries, popAt queue e.2 e'.2 = queue e'.2 := by
  intro e' he'
  by_cases heq : e.2 = e'.2
  · rw [popAt_of_empty ((List.pairwise_cons.mp h).1 e' he' heq)]
  · exact popAt_of_ne (Ne.symm heq)

theorem Unshared.tail {queue : κ → LockingQueue α} {e : String × κ} {entries : List (String × κ)}
    (h : Unshared queue (e :: entries)) : Unshared (popAt queue e.2) entries := by
  refine (List.pairwise_cons.mp h).2.imp_of_mem fun {a b} ha _ hab heq => ?_
  rw [h.popAt_eq a ha]
  exact hab heq

theorem Unshared.mem_fronts_iff {queue : κ → LockingQueue α} {entries : List (String × κ)}
    (h : Unshared queue entries) {key : String} {msg : α} :
    (key, msg) ∈ fronts queue entries ↔
      ∃ q, (key, q) ∈ entries ∧ (queue q).front = some msg := by
  induction entries generalizing queue with
  | nil => simp [fronts]
  | cons e entries ih =>
    obtain ⟨key', q'⟩ := e
    have hrest : (∃ q, (key, q) ∈ entries ∧ (popAt queue q' q).front = some msg) ↔
        ∃ q, (key, q) ∈ entries ∧ (queue q).front = some msg :=
      exists_congr fun q => and_congr_right fun hq => by rw [h.popAt_eq (key, q) hq]
    rw [fronts, List.mem_append, ih h.tail, hrest]
    simp only [List.mem_cons, Prod.mk.injEq, Option.mem_toList, Option.map_eq_some_iff]
    constructor
    · rintro (⟨msg', hfront, rfl, rfl⟩ | ⟨q, hq, hfront⟩)
      · exact ⟨q', .inl ⟨rfl, rfl⟩, hfront⟩
      · exact ⟨q, .inr hq, hfront⟩
    · rintro ⟨q, ⟨rfl, rfl⟩ | hq, hfront⟩
      · exact .inl ⟨msg, hfront, rfl, rfl⟩
      · exact .inr ⟨q, hq, hfront⟩

theorem Unshared.popEach_eq {queue : κ → LockingQueue α} {entries : List (String × κ)}
    (h : Unshared queue entries) {q : κ} :
    popEach queue entries q = if q ∈ entries.map Prod.snd then popOldest (queue q) else queue q := by
  induction entries generalizing queue with
  | nil => simp
  | cons e entries ih =>
    rw [popEach_cons, ih h.tail]
    by_cases hq : q ∈ entries.map Prod.snd
    · obtain ⟨e', he', rfl⟩ := List.mem_map.mp hq
      rw [if_pos hq, h.popAt_eq e' he', List.map_cons, if_pos (List.mem_cons_of_mem _ hq)]
    · rw [if_neg hq]
      by_cases heq : q = e.2
      · subst heq
        simp
      · rw [popAt_of_ne heq, if_neg (by simpa [heq] using hq)]

theorem fronts_append {queue : κ → LockingQueue α} {before after : List (String × κ)} :
    fronts queue (before ++ after) = fronts queue before ++ fronts (popEach queue before) after := by
  induction before generalizing queue with
  | nil => rfl
  | cons e before ih => rw [List.cons_append, fronts, ih, popEach_cons, fronts, List.append_assoc]

theorem map_fst_fronts_sublist (queue : κ → LockingQueue α) (entries : List (String × κ)) :
    ((fronts queue entries).map Prod.fst).Sublist (entries.map Prod.fst) := by
  induction entries generalizing queue with
  | nil => exact List.Sublist.refl _
  | cons e entries ih =>
    rw [fronts, List.map_append, List.map_cons]
    cases (queue e.2).front with
    | none => exact (ih _).cons _
    | some msg => exact (ih _).cons_cons _

/-! ### What `getAny` loses -/

/-- `getAny` returns what it should, or throws and leaves every queue as it was. -/
def LosesNothing (queue : κ → LockingQueue α) (m : QueueMap κ) (timed : Bool) : Prop :=
  match getAny queue m timed with
  | (.returned inputs, after) => Collected queue m inputs after
  | (.threw _, after) => after = queue
  | (.blocks, _) => False

/-- When no queue is closed, the loop collects what it should exactly when no two keys refer to the
same queue with a message. -/
theorem collected_iff_of_open {queue : κ → LockingQueue α} {m : QueueMap κ}
    (hopen : ∀ e ∈ m.entries, (queue e.2).isDestroyed = false) :
    Collected queue m (fronts queue m.entries) (popEach queue m.entries) ↔
      Unshared queue m.entries := by
  constructor
  · intro h
    refine List.pairwise_iff_forall_sublist.mpr fun {e e'} hsub heq => ?_
    obtain ⟨key, q⟩ := e
    obtain ⟨key', q'⟩ := e'
    obtain rfl : q = q' := heq
    by_contra hmessage
    -- the second entry finds the front of the queue, yet the first has taken it already
    obtain ⟨before, rest, hentries, hfirst, hsub⟩ := List.cons_sublist_iff.mp hsub
    obtain ⟨between, after, rfl⟩ := List.append_of_mem (List.singleton_sublist.mp hsub)
    rw [← List.append_assoc] at hentries
    have hmem : (key', q) ∈ m.entries := by rw [hentries]; simp
    obtain ⟨msg, hmsg⟩ : ∃ msg, (queue q).front = some msg := by
      rw [← Option.ne_none_iff_exists', Ne, LockingQueue.front, List.head?_eq_none_iff]
      simpa [LockingQueue.empty] using hmessage
    have hin := (h.mem_iff key' msg).mpr ⟨q, hmem, hopen _ hmem, hmsg⟩
    have hkeys := m.nodup_keys
    rw [hentries, List.map_append, List.map_cons, List.nodup_append] at hkeys
    rw [hentries, fronts_append, List.mem_append, fronts, List.mem_append] at hin
    have hfront : (popEach queue (before ++ between) q).front = some msg := by
      rcases hin with hin | hin | hin
      · have hkey := (map_fst_fronts_sublist queue (before ++ between)).subset
          (List.mem_map_of_mem hin)
        exact absurd rfl (hkeys.2.2 key' hkey key' List.mem_cons_self)
      · simpa using hin
      · have hkey := (map_fst_fronts_sublist _ after).subset (List.mem_map_of_mem hin)
        exact absurd hkey (List.nodup_cons.mp hkeys.2.1).1
    have hlate : (popEach queue (before ++ between) q).queue ≠ [] := by
      intro hnil
      simp [LockingQueue.front, hnil] at hfront
    have hpopped := h.popped q (List.mem_map_of_mem hmem) (hopen _ hmem)
    have hlen := congrArg (fun q => q.queue.length) hpopped
    have hcount : 0 < ((before ++ between).map Prod.snd).count q :=
      List.count_pos_iff.mpr (List.mem_map_of_mem (List.mem_append_left between hfirst))
    have hpos := List.length_pos_iff.mpr hlate
    simp only [popEach_queue, popOldest, List.length_drop, List.length_tail, hentries,
      List.map_append, List.map_cons, List.count_append, List.count_cons_self] at hlen hpos hcount
    omega
  · intro h
    refine ⟨(map_fst_fronts_sublist queue m.entries).nodup m.nodup_keys, fun key msg => ?_,
      fun q hq _ => ?_, fun q hq => ?_⟩
    · rw [h.mem_fronts_iff]
      exact exists_congr fun q => and_congr_right fun hq => by simp [hopen (key, q) hq]
    · rw [h.popEach_eq, if_pos hq]
    · rw [h.popEach_eq, if_neg]
      intro hmem
      obtain ⟨e, he, rfl⟩ := List.mem_map.mp hmem
      rcases hq with hq | hq
      · exact hq hmem
      · simp [hopen e he] at hq

/-- **What `getAny` loses.** A call returns the oldest messages of the open queues, or throws with
every queue as it was, exactly when it does not wait for good and the queues are harmless. -/
theorem getAny_losesNothing_iff (queue : κ → LockingQueue α) (m : QueueMap κ) (timed : Bool) :
    LosesNothing queue m timed ↔
      ¬ Waits queue (m.entries.map Prod.snd) timed ∧ Harmless queue m := by
  obtain ⟨hblocks, hreturned⟩ := waitAny_eq queue (m.entries.map Prod.snd) timed
  rw [LosesNothing, getAny]
  by_cases hwaits : Waits queue (m.entries.map Prod.snd) timed
  · simp [hblocks hwaits, hwaits]
  rw [hreturned hwaits]
  simp only [hwaits, not_false_eq_true, true_and]
  cases hany : anyMessage queue (m.entries.map Prod.snd) with
  | false =>
    rw [anyMessage_eq_false_iff] at hany
    have hquiet : ∀ e ∈ m.entries, (queue e.2).isDestroyed = true ∨ (queue e.2).empty = true :=
      fun e he => hany e.2 (List.mem_map_of_mem he)
    exact iff_of_true (collected_nil hquiet) (harmless_of_quiet hquiet)
  | true =>
    by_cases hclosed : ∃ e ∈ m.entries, (queue e.2).isDestroyed = true
    · rw [collect_of_closed hclosed]
      refine popEach_eq_self_iff.trans ⟨fun h => ⟨fun _ => h, fun hopen => ?_⟩,
        fun h => h.closed hclosed⟩
      obtain ⟨e, he, hdestroyed⟩ := hclosed
      simp [hopen e he] at hdestroyed
    · have hopen : ∀ e ∈ m.entries, (queue e.2).isDestroyed = false := by simpa using hclosed
      rw [collect_of_open hopen]
      exact (collected_iff_of_open hopen).trans
        ⟨fun h => ⟨fun hex => absurd hex hclosed, fun _ => h⟩, fun h => h.unshared hopen⟩

/-- An open queue with a message, and a closed one. -/
def openAndClosed : Fin 2 → LockingQueue ℕ
  | 0 => { queue := [7] }
  | 1 => { destructed := true }

/-- A map that is iterated over with the open queue first. -/
def openFirst : QueueMap (Fin 2) := ⟨[("a", 0), ("b", 1)], by decide⟩

/-- `getAny` takes the message of the open queue and throws at the closed one. -/
theorem getAny_loses_message :
    (getAny openAndClosed openFirst false).1 = .threw .closedQueue ∧
      (getAny openAndClosed openFirst false).2 0 = { queue := [] } ∧
      ¬ LosesNothing openAndClosed openFirst false := by
  refine ⟨by decide, by decide, fun h => ?_⟩
  have hsame : (getAny openAndClosed openFirst false).2 = openAndClosed := h
  exact absurd (congrFun hsame 0) (by decide)

end MessageQueue

end DepthaiCore
