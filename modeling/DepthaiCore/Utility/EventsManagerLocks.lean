import DepthaiCore.Lib.LockTraces
import DepthaiCore.Utility.EventsManager

/-!
# The mutexes of `EventsManager`

What every thread of `EventsManager` does to the five mutexes: the callers of its public functions,
the upload thread, and the tasks for a batch, a group and a file. Each function of the source is the
trace of its guards, given what it reads on its way: the answers of the server, the directory, the
buffer as it is in each section, and how often a wait on a condition variable woke up. A callback of
the user is the list of the public functions it calls.

`uploadEventBatch` handles the answer to its request under `eventBufferMutex`. Two things in there
take this mutex again: `cacheEvents`, which it calls when the request failed and the buffer is full,
and a callback that sends an event or waits for the uploads. All other nesting goes up in `rank`.
-/

namespace DepthaiCore

namespace EventsManager

namespace Locks

/-- The mutexes. -/
inductive Mutex
  | eventBuffer
  | snapBuffer
  | uploadFileBatchFutures
  | stopThreadCondition
  | pendingUploads
  deriving DecidableEq, Repr

/-- The order in which the mutexes are taken. -/
def rank : Mutex → ℕ
  | .stopThreadCondition => 0
  | .eventBuffer => 1
  | .snapBuffer | .uploadFileBatchFutures | .pendingUploads => 2

open LockTrace

/-! ### The public functions -/

def checkPendingUploadsFinished : LockTrace Mutex :=
  locked [.snapBuffer, .uploadFileBatchFutures, .eventBuffer] nil

/-- A call of a public function, with what it reads. -/
inductive Call
  | sendEvent (configurationLimitsFetched : Bool) (event : Event)
  | sendSnap (configurationLimitsFetched : Bool) (event : Event) (fileGroup : List FileData)
      (maxFilesPerGroup maxFileSizeBytes : ℕ)
  /-- The first check found what `uploadFinished` says, and the wait gave the mutex up `waits`
  times. -/
  | waitForPendingUploads (uploadFinished : Bool) (waits : ℕ)
  deriving DecidableEq, Repr

/-- What a call does to the mutexes. -/
def Call.trace : Call → LockTrace Mutex
  | sendEvent fetched event =>
    if !fetched then nil
    else if !validateEvent event then nil
    else locked [.eventBuffer] nil
  | sendSnap fetched event fileGroup maxFilesPerGroup maxFileSizeBytes =>
    if !fetched then nil
    else if !validateEvent event then nil
    else if !validateFiles maxFilesPerGroup maxFileSizeBytes fileGroup then nil
    else locked [.snapBuffer] nil
  | waitForPendingUploads uploadFinished waits =>
    checkPendingUploadsFinished ++
      if uploadFinished then locked [.pendingUploads] nil
      else waiting .pendingUploads waits nil ++ checkPendingUploadsFinished

/-- The call takes `eventBufferMutex`. -/
def Call.takesEventBuffer : Call → Bool
  | sendEvent fetched event => fetched && validateEvent event
  | sendSnap .. => false
  | waitForPendingUploads .. => true

/-- A callback runs. -/
def runCallback (calls : List Call) : LockTrace Mutex :=
  seq (calls.map Call.trace)

/-- The callbacks of `callbacks` run, one after the other. -/
def runCallbacks (callbacks : List (List Call)) : LockTrace Mutex :=
  seq (callbacks.map runCallback)

/-! ### Requests -/

/-- An attempt that is made again after a while: whether the server answered with a good status, and
how often the wait before the next one gave the mutex up. -/
structure Attempt where
  ok : Bool
  waits : ℕ
  deriving DecidableEq, Repr

/-- `fetchConfigurationLimits`: its mutexes, and its result. The attempts end early when the upload
thread is to stop. -/
def fetchConfigurationLimits (retryOnFail : Bool) (token : String) :
    List Attempt → LockTrace Mutex × Bool
  | [] => (nil, false)
  | attempt :: attempts =>
    if token.isEmpty then (nil, false)
    else if attempt.ok then (nil, true)
    else if !retryOnFail then (nil, false)
    else
      let rest := fetchConfigurationLimits retryOnFail token attempts
      (waiting .stopThreadCondition attempt.waits nil ++ rest.1, rest.2)

/-- `uploadFile`, with the attempts it makes until the upload thread is to stop. -/
def uploadFile (attempts : List Attempt) : LockTrace Mutex :=
  seq (((attempts.take maxAttempts).takeWhile fun attempt => !attempt.ok).map fun attempt =>
    waiting .stopThreadCondition attempt.waits nil)

/-- `uploadGroup`: the answer to each file, the results of the uploads, and the failure callback.
The callback runs without a mutex. -/
def uploadGroup (onFailure : Option (List Call)) (accepted uploaded : List Bool) :
    LockTrace Mutex :=
  if !accepted.all id then runCallbacks onFailure.toList
  else if !uploaded.all id then runCallbacks onFailure.toList
  else locked [.eventBuffer] nil

/-- The loop of `uploadFileBatch` after `retryAttempt` failed attempts. `rejected` has the answer to
each group. The mutex of the wait is held until the end of the failed attempt. -/
def prepareBatch (batch : List (SnapData (List Call))) (rejected : List Bool) :
    ℕ → List Attempt → LockTrace Mutex
  | _, [] => nil
  | retryAttempt, attempt :: attempts =>
    if attempt.ok then
      runCallbacks ((batch.zip rejected).filterMap fun p =>
        if p.2 then p.1.eventData.onFailure else none)
    else if maxAttempts ≤ retryAttempt + 1 then
      waiting .stopThreadCondition attempt.waits
        (runCallbacks (batch.filterMap fun snap => snap.eventData.onFailure))
    else
      waiting .stopThreadCondition attempt.waits nil ++
        prepareBatch batch rejected (retryAttempt + 1) attempts

def uploadFileBatch (token : String) (batch : List (SnapData (List Call))) (rejected : List Bool)
    (attempts : List Attempt) : LockTrace Mutex :=
  if batch.isEmpty then nil
  else if token.isEmpty then nil
  else prepareBatch batch rejected 0 attempts

/-! ### The upload thread -/

/-- An entry of the cache directory, and the size of the buffer when its turn comes. -/
structure CacheEntry where
  isDirectory : Bool
  filename : String
  bufferSize : ℕ
  deriving DecidableEq, Repr

/-- The loop over the cache directory: the entries whose name starts with `start` go to the buffer
behind `mutex` until it has `limit` elements. -/
def uploadCached (start : String) (mutex : Mutex) (limit : ℕ) :
    List CacheEntry → LockTrace Mutex
  | [] => nil
  | entry :: entries =>
    if !entry.isDirectory then uploadCached start mutex limit entries
    else if entry.filename.startsWith start then
      locked [mutex] nil ++
        if limit ≤ entry.bufferSize then nil else uploadCached start mutex limit entries
    else uploadCached start mutex limit entries

def uploadCachedEvents (eventsPerRequest : ℕ) : List CacheEntry → LockTrace Mutex :=
  uploadCached "event" .eventBuffer eventsPerRequest

def uploadCachedSnaps (maxGroupsPerBatch : ℕ) : List CacheEntry → LockTrace Mutex :=
  uploadCached "snap" .snapBuffer maxGroupsPerBatch

def cacheEvents : LockTrace Mutex :=
  locked [.eventBuffer] nil

/-- What `uploadEventBatch` reads. The buffer is seen twice: when the request is put together, and
when its answer is handled. -/
structure EventBatch where
  cachedEvents : List CacheEntry
  eventsPerRequest : ℕ
  cacheIfCannotSend : Bool
  buffer : List (EventData (List Call))
  statusOk : Bool
  results : List EventResult
  answeredBuffer : List (EventData (List Call))
  deriving DecidableEq, Repr

/-- The number of events in the request. -/
def EventBatch.eventsSize (r : EventBatch) : ℕ := min r.buffer.length r.eventsPerRequest

/-- The callbacks that run when the answer to a request is handled. -/
def EventBatch.callbacks (r : EventBatch) : List (List Call) :=
  if r.statusOk then
    ((r.answeredBuffer.take r.eventsSize).zip r.results).filterMap fun p => resultCallback p.1 p.2
  else if eventBufferMaxSize ≤ r.answeredBuffer.length then
    r.answeredBuffer.filterMap fun eventData => eventData.onFailure
  else []

/-- The request failed and the buffer is full, so that the events are cached. -/
def EventBatch.caches (r : EventBatch) : Bool :=
  !r.statusOk && eventBufferMaxSize ≤ r.answeredBuffer.length && r.cacheIfCannotSend

/-- What `uploadEventBatch` does while it handles the answer. -/
def EventBatch.handled (r : EventBatch) : LockTrace Mutex :=
  runCallbacks r.callbacks ++ if r.caches then cacheEvents else nil

/-- There is a request: the buffer was not empty, and there is a token. -/
def EventBatch.sent (r : EventBatch) (token : String) : Bool :=
  !r.buffer.isEmpty && !token.isEmpty

def uploadEventBatch (token : String) (connectionEstablished : Bool) (r : EventBatch) :
    LockTrace Mutex :=
  (if connectionEstablished then uploadCachedEvents r.eventsPerRequest r.cachedEvents else nil) ++
    (locked [.eventBuffer] nil ++
      if r.sent token then locked [.eventBuffer] r.handled else nil)

/-- What one iteration of the upload thread reads. -/
structure Iteration where
  limits : List Attempt
  cachedSnaps : List CacheEntry
  maxGroupsPerBatch : ℕ
  eventBatch : EventBatch
  waitingForPendingUploads : Bool
  waits : ℕ
  deriving DecidableEq, Repr

/-- One iteration of the upload thread. -/
def Iteration.trace (token : String) (it : Iteration) : LockTrace Mutex :=
  let limits := fetchConfigurationLimits false token it.limits
  limits.1 ++
    ((if limits.2 then uploadCachedSnaps it.maxGroupsPerBatch it.cachedSnaps else nil) ++
      (locked [.snapBuffer, .uploadFileBatchFutures] nil ++
        (locked [.uploadFileBatchFutures] nil ++
          (uploadEventBatch token limits.2 it.eventBatch ++
            ((if it.waitingForPendingUploads then
                checkPendingUploadsFinished ++ locked [.pendingUploads] nil
              else nil) ++
              waiting .stopThreadCondition it.waits nil)))))

/-- A thread of `EventsManager`, or one that uses it, with what it reads. -/
inductive Thread
  | uploadThread (token : String) (limits : List Attempt) (iterations : List Iteration)
  | fileBatch (token : String) (batch : List (SnapData (List Call))) (rejected : List Bool)
      (attempts : List Attempt)
  | group (onFailure : Option (List Call)) (accepted uploaded : List Bool)
  | file (attempts : List Attempt)
  | user (calls : List Call)
  | destructor
  deriving DecidableEq, Repr

/-- What a thread does to the mutexes. -/
def Thread.trace : Thread → LockTrace Mutex
  | uploadThread token limits iterations =>
    let fetched := fetchConfigurationLimits true token limits
    fetched.1 ++ if fetched.2 then seq (iterations.map (Iteration.trace token)) else nil
  | fileBatch token batch rejected attempts => uploadFileBatch token batch rejected attempts
  | group onFailure accepted uploaded => uploadGroup onFailure accepted uploaded
  | file attempts => uploadFile attempts
  | user calls => runCallback calls
  | destructor => checkPendingUploadsFinished

/-! ### What is taken and what is nested -/

variable {a b : Mutex} {token : String}

@[simp] theorem nested_checkPendingUploadsFinished : ¬ checkPendingUploadsFinished.Nested a b := by
  simp [checkPendingUploadsFinished]

@[simp] theorem takes_checkPendingUploadsFinished :
    checkPendingUploadsFinished.Takes b ↔
      b = .snapBuffer ∨ b = .uploadFileBatchFutures ∨ b = .eventBuffer := by
  simp [checkPendingUploadsFinished]

namespace Call

@[simp] theorem not_nested (c : Call) : ¬ c.trace.Nested a b := by
  cases c with
  | sendEvent fetched event => simp only [trace]; split_ifs <;> simp
  | sendSnap fetched event fileGroup maxFilesPerGroup maxFileSizeBytes =>
    simp only [trace]; split_ifs <;> simp
  | waitForPendingUploads uploadFinished waits =>
    cases uploadFinished <;> simp [trace]

theorem takes_eventBuffer (c : Call) : c.trace.Takes .eventBuffer ↔ c.takesEventBuffer := by
  cases c with
  | sendEvent fetched event => simp only [trace, takesEventBuffer]; split_ifs <;> simp_all
  | sendSnap fetched event fileGroup maxFilesPerGroup maxFileSizeBytes =>
    simp only [trace, takesEventBuffer]; split_ifs <;> simp
  | waitForPendingUploads uploadFinished waits => simp [trace, takesEventBuffer]

theorem ne_stopThreadCondition {c : Call} (h : c.trace.Takes b) : b ≠ .stopThreadCondition := by
  rintro rfl
  cases c with
  | sendEvent fetched event => simp only [trace] at h; split_ifs at h <;> simp at h
  | sendSnap fetched event fileGroup maxFilesPerGroup maxFileSizeBytes =>
    simp only [trace] at h; split_ifs at h <;> simp at h
  | waitForPendingUploads uploadFinished waits => cases uploadFinished <;> simp [trace] at h

end Call

@[simp] theorem nested_runCallbacks (callbacks : List (List Call)) :
    ¬ (runCallbacks callbacks).Nested a b := by
  simp [runCallbacks, runCallback]

theorem takes_runCallbacks (callbacks : List (List Call)) :
    (runCallbacks callbacks).Takes b ↔ ∃ calls ∈ callbacks, ∃ c ∈ calls, c.trace.Takes b := by
  simp [runCallbacks, runCallback]

/-- Callbacks take `eventBufferMutex` exactly if one of them calls a function that does. -/
theorem takes_runCallbacks_eventBuffer (callbacks : List (List Call)) :
    (runCallbacks callbacks).Takes .eventBuffer ↔
      ∃ calls ∈ callbacks, ∃ c ∈ calls, c.takesEventBuffer := by
  simp only [takes_runCallbacks, Call.takes_eventBuffer]

theorem ne_of_takes_runCallbacks {callbacks : List (List Call)}
    (h : (runCallbacks callbacks).Takes b) : b ≠ .stopThreadCondition := by
  obtain ⟨calls, -, c, -, hc⟩ := (takes_runCallbacks callbacks).1 h
  exact Call.ne_stopThreadCondition hc

@[simp] theorem nested_fetchConfigurationLimits (retryOnFail : Bool) (attempts : List Attempt) :
    ¬ (fetchConfigurationLimits retryOnFail token attempts).1.Nested a b := by
  induction attempts with
  | nil => simp [fetchConfigurationLimits]
  | cons attempt attempts ih =>
    simp only [fetchConfigurationLimits]
    split_ifs <;> simp [ih]

@[simp] theorem nested_uploadFile (attempts : List Attempt) :
    ¬ (uploadFile attempts).Nested a b := by
  simp [uploadFile]

@[simp] theorem nested_uploadGroup (onFailure : Option (List Call)) (accepted uploaded : List Bool) :
    ¬ (uploadGroup onFailure accepted uploaded).Nested a b := by
  simp only [uploadGroup]
  split_ifs <;> simp

@[simp] theorem nested_uploadCached (start : String) (mutex : Mutex) (limit : ℕ)
    (entries : List CacheEntry) : ¬ (uploadCached start mutex limit entries).Nested a b := by
  induction entries with
  | nil => simp [uploadCached]
  | cons entry entries ih =>
    simp only [uploadCached]
    split_ifs <;> simp [ih]

/-- A batch whose preparation failed for good runs callbacks while it holds the mutex of the
retries. -/
theorem nested_prepareBatch {batch : List (SnapData (List Call))} {rejected : List Bool} {n : ℕ}
    {attempts : List Attempt} (h : (prepareBatch batch rejected n attempts).Nested a b) :
    a = .stopThreadCondition ∧ b ≠ .stopThreadCondition := by
  induction attempts generalizing n with
  | nil => simp [prepareBatch] at h
  | cons attempt attempts ih =>
    simp only [prepareBatch] at h
    split_ifs at h with hok hlast
    · simp at h
    · simp only [nested_waiting, nested_runCallbacks, false_or] at h
      exact ⟨h.1, ne_of_takes_runCallbacks h.2⟩
    · simp only [nested_append, nested_waiting, nested_nil, takes_nil, and_false, false_or] at h
      exact ih h

theorem nested_uploadFileBatch {batch : List (SnapData (List Call))} {rejected : List Bool}
    {attempts : List Attempt} (h : (uploadFileBatch token batch rejected attempts).Nested a b) :
    a = .stopThreadCondition ∧ b ≠ .stopThreadCondition := by
  simp only [uploadFileBatch] at h
  split_ifs at h
  · simp at h
  · simp at h
  · exact nested_prepareBatch h

/-! ### Requests that reenter -/

namespace EventBatch

/-- The answer is handled with a second acquisition of `eventBufferMutex`: the events of a full
buffer are cached, or a callback calls a function that takes it. -/
def Reenters (r : EventBatch) (token : String) : Prop :=
  r.sent token ∧ (r.caches ∨ ∃ calls ∈ r.callbacks, ∃ c ∈ calls, c.takesEventBuffer)

@[simp] theorem nested_handled (r : EventBatch) : ¬ r.handled.Nested a b := by
  simp only [handled, cacheEvents]
  split_ifs <;> simp

theorem takes_handled_eventBuffer (r : EventBatch) :
    r.handled.Takes .eventBuffer ↔
      r.caches ∨ ∃ calls ∈ r.callbacks, ∃ c ∈ calls, c.takesEventBuffer := by
  rw [handled, takes_append, takes_runCallbacks_eventBuffer, or_comm]
  cases r.caches <;> simp [cacheEvents]

theorem ne_of_takes_handled {r : EventBatch} (h : r.handled.Takes b) :
    b ≠ .stopThreadCondition := by
  rw [handled, takes_append] at h
  rcases h with h | h
  · exact ne_of_takes_runCallbacks h
  · rintro rfl
    split_ifs at h <;> simp [cacheEvents] at h

end EventBatch

/-- **What a request nests.** All of it is under `eventBufferMutex`. -/
theorem nested_uploadEventBatch (connectionEstablished : Bool) (r : EventBatch) :
    (uploadEventBatch token connectionEstablished r).Nested a b ↔
      r.sent token ∧ a = .eventBuffer ∧ r.handled.Takes b := by
  have hcached : ¬ LockTrace.Nested (if connectionEstablished then
      uploadCachedEvents r.eventsPerRequest r.cachedEvents else nil) a b := by
    split_ifs <;> simp [uploadCachedEvents]
  cases hsent : r.sent token <;> simp [uploadEventBatch, hsent, hcached]

theorem nested_iteration (it : Iteration) :
    (it.trace token).Nested a b ↔
      it.eventBatch.sent token ∧ a = .eventBuffer ∧ it.eventBatch.handled.Takes b := by
  have hcached : ¬ LockTrace.Nested (if (fetchConfigurationLimits false token it.limits).2 then
      uploadCachedSnaps it.maxGroupsPerBatch it.cachedSnaps else nil) a b := by
    split_ifs <;> simp [uploadCachedSnaps]
  have hpending : ¬ LockTrace.Nested (if it.waitingForPendingUploads then
      checkPendingUploadsFinished ++ locked [.pendingUploads] nil else nil) a b := by
    split_ifs <;> simp
  simp [Iteration.trace, nested_uploadEventBatch, hcached, hpending]

namespace Thread

/-- A thread makes a request that reenters. -/
def Reenters : Thread → Prop
  | uploadThread token limits iterations =>
    (fetchConfigurationLimits true token limits).2 ∧
      ∃ it ∈ iterations, it.eventBatch.Reenters token
  | _ => False

/-- The mutexes of the upload thread are nested by its requests. -/
theorem nested_uploadThread (limits : List Attempt) (iterations : List Iteration) :
    (uploadThread token limits iterations).trace.Nested a b ↔
      (fetchConfigurationLimits true token limits).2 ∧ ∃ it ∈ iterations,
        it.eventBatch.sent token ∧ a = .eventBuffer ∧ it.eventBatch.handled.Takes b := by
  cases hfetched : (fetchConfigurationLimits true token limits).2 <;>
    simp [trace, hfetched, nested_iteration]

/-- **All the nesting there is.** `eventBufferMutex` is nested in itself by the requests that
reenter; everything else goes up in rank. -/
theorem nested_cases {p : Thread} (h : p.trace.Nested a b) :
    a = .eventBuffer ∧ b = .eventBuffer ∧ p.Reenters ∨ rank a < rank b := by
  cases p with
  | uploadThread token limits iterations =>
    obtain ⟨hfetched, it, hit, hsent, rfl, hb⟩ := (nested_uploadThread limits iterations).1 h
    cases b with
    | eventBuffer =>
      exact .inl ⟨rfl, rfl, hfetched, it, hit, hsent, (it.eventBatch.takes_handled_eventBuffer).1 hb⟩
    | stopThreadCondition => exact absurd rfl (EventBatch.ne_of_takes_handled hb)
    | snapBuffer => exact .inr (by decide)
    | uploadFileBatchFutures => exact .inr (by decide)
    | pendingUploads => exact .inr (by decide)
  | fileBatch token batch rejected attempts =>
    obtain ⟨rfl, hb⟩ := nested_uploadFileBatch h
    exact .inr (by cases b <;> first | exact absurd rfl hb | decide)
  | group onFailure accepted uploaded => simp [trace] at h
  | file attempts => simp [trace] at h
  | user calls => simp [trace, runCallback] at h
  | destructor => simp [trace] at h

theorem nested_eventBuffer_of_reenters {p : Thread} (h : p.Reenters) :
    p.trace.Nested .eventBuffer .eventBuffer := by
  cases p with
  | uploadThread token limits iterations =>
    obtain ⟨hfetched, it, hit, hsent, htakes⟩ := h
    exact (nested_uploadThread limits iterations).2
      ⟨hfetched, it, hit, hsent, rfl, (it.eventBatch.takes_handled_eventBuffer).2 htakes⟩
  | _ => exact h.elim

/-- The law of the mutexes: a thread takes no mutex it holds, and what it takes together is taken the
other way round on no path of any thread. -/
structure Lawful (p : Thread) : Prop where
  not_reacquired : ∀ a, ¬ p.trace.Nested a a
  same_order : ∀ q : Thread, ∀ a b, a ≠ b → p.trace.Nested a b → ¬ q.trace.Nested b a

/-- Different mutexes are taken in the order of their ranks, on every path. -/
theorem rank_lt_of_nested {p : Thread} (hne : a ≠ b) (h : p.trace.Nested a b) :
    rank a < rank b := by
  rcases nested_cases h with ⟨rfl, rfl, -⟩ | hlt
  · exact absurd rfl hne
  · exact hlt

/-- **When a thread keeps to the law.** It does exactly if none of its requests reenters: whenever the
answer to a request is handled, the request did not fail with a full buffer that is to be cached, and
no callback that runs sends an event or waits for the uploads. -/
theorem lawful_iff (p : Thread) : p.Lawful ↔ ¬ p.Reenters := by
  refine ⟨fun h hp => h.not_reacquired _ (nested_eventBuffer_of_reenters hp), fun hp => ⟨?_, ?_⟩⟩
  · intro a ha
    rcases nested_cases ha with ⟨-, -, hre⟩ | hlt
    · exact hp hre
    · exact Nat.lt_irrefl _ hlt
  · intro q a b hne hab hba
    exact Nat.lt_asymm (rank_lt_of_nested hne hab) (rank_lt_of_nested hne.symm hba)

/-- A buffer as large as `EVENT_BUFFER_MAX_SIZE`. -/
def fullBuffer : List (EventData (List Call)) :=
  List.replicate eventBufferMaxSize ⟨"1_000000", ⟨"e", 1, [], [], []⟩, none, none⟩

/-- The upload thread, which fetches the limits twice and then fails to send the events of a full
buffer, with caching on. -/
def cachingThread : Thread :=
  .uploadThread "key" [⟨true, 0⟩] [{
    limits := [⟨true, 0⟩]
    cachedSnaps := []
    maxGroupsPerBatch := 1
    eventBatch := {
      cachedEvents := []
      eventsPerRequest := 1
      cacheIfCannotSend := true
      buffer := fullBuffer
      statusOk := false
      results := []
      answeredBuffer := fullBuffer }
    waitingForPendingUploads := false
    waits := 1 }]

/-- No callback is involved in it: `uploadEventBatch` calls `cacheEvents` under the mutex that
`cacheEvents` takes. -/
theorem cachingThread_not_lawful : ¬ cachingThread.Lawful := by
  refine fun h => h.not_reacquired .eventBuffer (nested_eventBuffer_of_reenters ⟨rfl, _,
    List.mem_singleton_self _, rfl, .inl ?_⟩)
  simp [EventBatch.caches, fullBuffer]

end Thread

end Locks

end EventsManager

end DepthaiCore
