import DepthaiCore.Lib.Runs
import DepthaiCore.Utility.EventsManagerCache
import Mathlib.Data.List.Count

/-!
# What becomes of an event

Events get into `eventBuffer` through `sendEvent`, `uploadGroup` and `uploadCachedEvents`. The upload
thread copies the first ones for a request, sends it without the mutex, and handles the answer by the
positions in the buffer, to which others have appended meanwhile. It is the only thread that takes
events out, so that the positions stand. When a request fails and the buffer is full, everything in it
is cached or dropped.

Each event has a number of its own, and each copy in the cache as well. The state keeps a record of
the requests that were answered, of the callbacks that were invoked, and of the copies that were
written and put back.
-/

namespace DepthaiCore

namespace EventsManager

open FileTree

variable {K : Type*}

/-- An element of `eventBuffer`, with the number of its event. -/
structure Tagged (K : Type*) where
  ref : ℕ
  data : EventData K
  deriving DecidableEq, Repr

/-- An event in the cache, with the number of the copy and of the event. -/
structure Copy where
  serial : ℕ
  ref : ℕ
  event : Event
  deriving DecidableEq, Repr

/-- A file system. The content of a file is a cached event, or nothing that matters here. -/
abbrev Disk := FileTree (List Char) (Option Copy)

/-- `"event.pb"`. -/
def eventFile : List Char := "event.pb".toList

/-- One event is written to the cache: the disk, what it comes to, and the copy if the file could be
opened. -/
def cacheEvent (cacheDir : Place) (copy : Copy) (disk : Disk) : Disk × Outcome (List Copy) :=
  match makeEntry cacheDir "event" copy.event disk with
  | (disk, .threw) => (disk, .threw)
  | (disk, .endless) => (disk, .endless)
  | (disk, .done text) =>
    match disk.write cacheDir (components (text ++ '/' :: eventFile)) (some copy) with
    | none => (disk, .done [])
    | some disk => (disk, .done [copy])

/-- The loop of `cacheEvents`: the disk, the copies written, and whether it got to the end. -/
def cacheEvents (cacheDir : Place) (serial : ℕ) : List (Tagged K) → Disk → Disk × List Copy × Outcome Unit
  | [], disk => (disk, [], .done ())
  | x :: xs, disk =>
    match cacheEvent cacheDir ⟨serial, x.ref, x.data.event⟩ disk with
    | (disk, .threw) => (disk, [], .threw)
    | (disk, .endless) => (disk, [], .endless)
    | (disk, .done copies) =>
      let rest := cacheEvents cacheDir (serial + 1) xs disk
      (rest.1, copies ++ rest.2.1, rest.2.2)

/-! ### The cache -/

/-- The copies that are on the disk: those written and not put back, at one place each, in the file
of an entry of the cache directory. -/
structure OnDisk (cacheDir : Place) (disk : Disk) (written restored : List Copy) : Prop where
  usable : Usable cacheDir disk
  located : ∀ p copy, disk.node p = some (.file (some copy)) →
    (∃ n, p = cacheDir ++ [n] ++ [eventFile]) ∧ copy ∈ written ∧ copy ∉ restored
  unique : ∀ p q copy, disk.node p = some (.file (some copy)) →
    disk.node q = some (.file (some copy)) → p = q
  present : ∀ copy ∈ written, copy ∉ restored → ∃ p, disk.node p = some (.file (some copy))

theorem plain_event : PlainName "event" := ⟨by decide, by decide⟩

theorem plain_eventFile : Plain eventFile := ⟨by decide, by decide, by decide⟩

theorem cacheEvent_plain {cacheDir : Place} {copy : Copy} {disk : Disk}
    (hname : PlainName copy.event.name) (husable : Usable cacheDir disk) :
    ∃ disk' n, cacheEvent cacheDir copy disk = (disk', .done [copy]) ∧
      ∀ p b, disk'.node p = some (.file b) ↔
        disk.node p = some (.file b) ∨ p = cacheDir ++ [n] ++ [eventFile] ∧ b = some copy := by
  obtain ⟨disk₁, i, hmake, hdir, hentry, hnew, hfiles⟩ :=
    makeEntry_plain plain_event hname husable
  have hplain := plain_entryText plain_event hname i
  obtain ⟨disk₂, hwrite, hnode⟩ := write_plain (m := eventFile) (b := some copy) hdir hentry
    (by rw [hnew]; exact nofun)
  refine ⟨disk₂, entryText "event" copy.event i, ?_, fun p b => ?_⟩
  · simp only [cacheEvent, hmake, components_slash hplain plain_eventFile, hwrite]
  · rw [hnode, ← hfiles]
    by_cases hp : p = cacheDir ++ [entryText "event" copy.event i] ++ [eventFile]
    · subst hp
      rw [Function.update_self, hnew]
      simp [eq_comm]
    · rw [Function.update_of_ne hp]
      exact ⟨.inl, fun h => h.resolve_right fun h' => hp h'.1⟩

namespace OnDisk

variable {cacheDir : Place} {disk disk' : Disk} {written restored : List Copy} {copy : Copy}

theorem write (h : OnDisk cacheDir disk written restored) (hwritten : copy ∉ written)
    (hrestored : copy ∉ restored) {n : List Char}
    (hfiles : ∀ p b, disk'.node p = some (.file b) ↔
      disk.node p = some (.file b) ∨ p = cacheDir ++ [n] ++ [eventFile] ∧ b = some copy) :
    OnDisk cacheDir disk' (written ++ [copy]) restored where
  usable p hp b hb := by
    rcases (hfiles p b).1 hb with hb | ⟨rfl, -⟩
    · exact h.usable p hp b hb
    · exact absurd hp.length_le (by simp)
  located p c hc := by
    rcases (hfiles p _).1 hc with hc | ⟨rfl, hcopy⟩
    · obtain ⟨hp, hw, hr⟩ := h.located p c hc
      exact ⟨hp, List.mem_append_left _ hw, hr⟩
    · obtain rfl := Option.some.inj hcopy
      exact ⟨⟨n, rfl⟩, by simp, hrestored⟩
  unique p q c hp hq := by
    rcases (hfiles p _).1 hp with hp | ⟨rfl, hcp⟩ <;>
      rcases (hfiles q _).1 hq with hq | ⟨rfl, hcq⟩
    · exact h.unique p q c hp hq
    · exact absurd (Option.some.inj hcq ▸ (h.located p c hp).2.1) hwritten
    · exact absurd (Option.some.inj hcp ▸ (h.located q c hq).2.1) hwritten
    · rfl
  present c hc hr := by
    rcases List.mem_append.1 hc with hc | hc
    · obtain ⟨p, hp⟩ := h.present c hc hr
      exact ⟨p, (hfiles p _).2 (.inl hp)⟩
    · obtain rfl := List.mem_singleton.1 hc
      exact ⟨_, (hfiles _ _).2 (.inr ⟨rfl, rfl⟩)⟩

theorem remove (h : OnDisk cacheDir disk written restored) {n : List Char}
    (hn : disk.node (cacheDir ++ [n] ++ [eventFile]) = some (.file (some copy))) :
    OnDisk cacheDir (disk.removeAll (cacheDir ++ [n])) written (restored ++ [copy]) where
  usable p hp b hb := by
    rw [node_removeAll (by simp)] at hb
    split_ifs at hb
    exact h.usable p hp b hb
  located p c hc := by
    rw [node_removeAll (by simp)] at hc
    split_ifs at hc with hinitial
    obtain ⟨hp, hw, hr⟩ := h.located p c hc
    refine ⟨hp, hw, fun hmem => ?_⟩
    rcases List.mem_append.1 hmem with hmem | hmem
    · exact hr hmem
    · obtain rfl := List.mem_singleton.1 hmem
      exact hinitial (h.unique _ _ _ hc hn ▸ List.prefix_append _ _)
  unique p q c hp hq := by
    rw [node_removeAll (by simp)] at hp hq
    split_ifs at hp hq
    exact h.unique p q c hp hq
  present c hc hr := by
    rw [List.mem_append, not_or] at hr
    obtain ⟨p, hp⟩ := h.present c hc hr.1
    refine ⟨p, ?_⟩
    rw [node_removeAll (by simp), if_neg, hp]
    -- The only file below the entry is that of the copy.
    intro hinitial
    obtain ⟨m, rfl⟩ := (h.located p c hp).1
    rw [List.append_assoc cacheDir [m], List.prefix_append_right_inj] at hinitial
    obtain rfl : n = m := by simpa using hinitial
    rw [hn] at hp
    simp only [Option.some.injEq, FileNode.file.injEq] at hp
    exact hr.2 (by simp [hp])

theorem remove_other (h : OnDisk cacheDir disk written restored) {n : List Char}
    (hn : ∀ copy, disk.node (cacheDir ++ [n] ++ [eventFile]) ≠ some (.file (some copy))) :
    OnDisk cacheDir (disk.removeAll (cacheDir ++ [n])) written restored where
  usable p hp b hb := by
    rw [node_removeAll (by simp)] at hb
    split_ifs at hb
    exact h.usable p hp b hb
  located p c hc := by
    rw [node_removeAll (by simp)] at hc
    split_ifs at hc
    exact h.located p c hc
  unique p q c hp hq := by
    rw [node_removeAll (by simp)] at hp hq
    split_ifs at hp hq
    exact h.unique p q c hp hq
  present c hc hr := by
    obtain ⟨p, hp⟩ := h.present c hc hr
    refine ⟨p, ?_⟩
    rw [node_removeAll (by simp), if_neg, hp]
    intro hinitial
    obtain ⟨m, rfl⟩ := (h.located p c hp).1
    rw [List.append_assoc cacheDir [m], List.prefix_append_right_inj] at hinitial
    obtain rfl : n = m := by simpa using hinitial
    exact hn c hp

end OnDisk

/-- The numbers of events and the events, as a request has them. -/
def Tagged.entry (x : Tagged K) : ℕ × Event := (x.ref, x.data.event)

/-- The number of an event and the event of a copy. -/
def Copy.entry (copy : Copy) : ℕ × Event := (copy.ref, copy.event)

/-- **The whole buffer gets to the disk**, as long as the names are plain: one copy of each event, in
order, with new numbers. -/
theorem cacheEvents_plain {cacheDir : Place} {xs : List (Tagged K)} {disk : Disk}
    {written restored : List Copy} {serial : ℕ} (hnames : ∀ x ∈ xs, PlainName x.data.event.name)
    (h : OnDisk cacheDir disk written restored) (hwritten : ∀ c ∈ written, c.serial < serial)
    (hrestored : ∀ c ∈ restored, c.serial < serial) :
    ∃ disk' copies, cacheEvents cacheDir serial xs disk = (disk', copies, .done ()) ∧
      OnDisk cacheDir disk' (written ++ copies) restored ∧
      copies.map Copy.entry = xs.map Tagged.entry ∧
      copies.map Copy.serial = List.range' serial xs.length := by
  induction xs generalizing disk written serial with
  | nil => exact ⟨disk, [], rfl, by simpa using h, rfl, rfl⟩
  | cons x xs ih =>
    let copy : Copy := ⟨serial, x.ref, x.data.event⟩
    have hname : PlainName copy.event.name := hnames x List.mem_cons_self
    obtain ⟨disk₁, n, hcache, hfiles⟩ := cacheEvent_plain hname h.usable
    have hfresh (cs : List Copy) (hcs : ∀ c ∈ cs, c.serial < serial) : copy ∉ cs :=
      fun hmem => Nat.lt_irrefl _ (hcs _ hmem)
    have h₁ := h.write (hfresh _ hwritten) (hfresh _ hrestored) hfiles
    have hwritten₁ : ∀ c ∈ written ++ [copy], c.serial < serial + 1 := by
      intro c hc
      rcases List.mem_append.1 hc with hc | hc
      · exact Nat.lt_succ_of_lt (hwritten c hc)
      · obtain rfl := List.mem_singleton.1 hc
        exact Nat.lt_succ_self _
    obtain ⟨disk', copies, hrest, hdisk', hentries, hserials⟩ :=
      ih (fun y hy => hnames y (List.mem_cons_of_mem _ hy)) h₁ hwritten₁
        fun c hc => Nat.lt_succ_of_lt (hrestored c hc)
    refine ⟨disk', copy :: copies, ?_, by simpa using hdisk', ?_, ?_⟩
    · simp only [cacheEvents]
      rw [show cacheEvent cacheDir ⟨serial, x.ref, x.data.event⟩ disk = _ from hcache]
      simp [hrest]
    · rw [List.map_cons, List.map_cons, hentries]
      rfl
    · rw [List.map_cons, hserials, List.length_cons, List.range'_succ]

/-! ### The buffer -/

/-- Where the upload thread is. -/
inductive Phase
  | idle
  /-- Before a request. There may be events to put back if the connection is established. -/
  | restoring (connectionEstablished : Bool)
  /-- A request with these events is on its way. -/
  | sending (batch : List (ℕ × Event))
  /-- An exception has ended the process. -/
  | terminated
  /-- It searches for ever, with the mutex. -/
  | endless
  deriving DecidableEq, Repr

/-- A callback was invoked for the result of the event `asked`; it was that of `called`. -/
structure Invocation where
  asked : ℕ
  called : ℕ
  result : EventResult
  deriving DecidableEq, Repr

/-- The buffer, the disk and the upload thread, with a record of what has happened. -/
structure Events (K : Type*) where
  eventBuffer : List (Tagged K)
  disk : Disk
  phase : Phase
  nextRef : ℕ
  nextSerial : ℕ
  /-- The events that were in the cache or have been added since. -/
  origin : List ℕ
  /-- The events of each request that was answered OK. -/
  sent : List (List ℕ)
  /-- The events that were dropped because caching is not enabled. -/
  dropped : List ℕ
  /-- The copies written to the cache, those that were there at the beginning included. -/
  written : List Copy
  restored : List Copy
  invocations : List Invocation

/-- The atomic steps. -/
inductive EventsStep (K : Type*)
  | sendEvent (localID : String) (event : Event)
  | uploadGroup (data : EventData K)
  | start (connectionEstablished : Bool)
  | restore (name : List Char) (eventsPerRequest : ℕ)
  | copyBatch (tokenEmpty : Bool) (eventsPerRequest : ℕ)
  | answered (results : List EventResult)
  | failed (cacheIfCannotSend : Bool)

namespace Events

/-- The event with the next number is appended to the buffer. -/
def push (s : Events K) (data : EventData K) : Events K :=
  { s with
    eventBuffer := s.eventBuffer ++ [⟨s.nextRef, data⟩]
    nextRef := s.nextRef + 1
    origin := s.origin ++ [s.nextRef] }

/-- `ParseFromIstream` of a file that is not there leaves the event as it was made. -/
def emptyEvent : Event := ⟨"", 0, [], [], []⟩

/-- An event from the cache has no callbacks and no local identifier. -/
def cachedData (event : Event) : EventData K := ⟨"", event, none, none⟩

/-- `uploadCachedEvents` at one entry of the cache directory. -/
def restore (cacheDir : Place) (s : Events K) (name : List Char) (eventsPerRequest : ℕ) :
    Option (Events K) :=
  if s.disk.isDir (cacheDir ++ [name]) && "event".toList.isPrefixOf name then
    if eventsPerRequest ≤ s.eventBuffer.length then some s
    else
      let disk := s.disk.removeAll (cacheDir ++ [name])
      match s.disk.node (cacheDir ++ [name] ++ [eventFile]) with
      | some (.file (some copy)) =>
        some { s with
          eventBuffer := s.eventBuffer ++ [⟨copy.ref, cachedData copy.event⟩]
          disk := disk
          restored := s.restored ++ [copy] }
      | _ => some { s.push (cachedData emptyEvent) with disk := disk }
  else none

/-- The invocations for the answer to a request with `batch`: the results and the elements of the
buffer are taken by position. -/
def invoked (batch : List (ℕ × Event)) (buffer : List (Tagged K)) (results : List EventResult) :
    List Invocation :=
  (batch.zip (buffer.zip results)).filterMap fun p =>
    (resultCallback p.2.1.data p.2.2).map fun _ => ⟨p.1.1, p.2.1.ref, p.2.2⟩

/-- The answer is OK: callbacks by position, and as many elements as the request has go. A position
beyond the end throws. -/
def answer (s : Events K) (batch : List (ℕ × Event)) (results : List EventResult) : Events K :=
  if s.eventBuffer.length < batch.length then { s with eventBuffer := [], phase := .terminated }
  else
    { s with
      eventBuffer := s.eventBuffer.drop batch.length
      phase := .idle
      sent := s.sent ++ [batch.map Prod.fst]
      invocations := s.invocations ++ invoked batch s.eventBuffer results }

/-- The request has failed: a full buffer is cached or dropped. -/
def fail (cacheDir : Place) (s : Events K) (cacheIfCannotSend : Bool) : Events K :=
  if eventBufferMaxSize ≤ s.eventBuffer.length then
    if cacheIfCannotSend then
      match cacheEvents cacheDir s.nextSerial s.eventBuffer s.disk with
      | (disk, copies, .done _) =>
        { s with
          eventBuffer := []
          disk := disk
          phase := .idle
          nextSerial := s.nextSerial + s.eventBuffer.length
          written := s.written ++ copies }
      | (disk, copies, .threw) =>
        { s with
          eventBuffer := []
          disk := disk
          phase := .terminated
          written := s.written ++ copies }
      | (disk, copies, .endless) =>
        { s with disk := disk, phase := .endless, written := s.written ++ copies }
    else
      { s with
        eventBuffer := []
        phase := .idle
        dropped := s.dropped ++ s.eventBuffer.map Tagged.ref }
  else { s with phase := .idle }

/-- The process lives, and the mutex can be had. -/
def running (s : Events K) : Bool :=
  match s.phase with
  | .terminated | .endless => false
  | _ => true

/-- One atomic step. An OK answer has one result for each event. -/
def step (cacheDir : Place) (s : Events K) : EventsStep K → Option (Events K)
  | .sendEvent localID event =>
    if s.running && validateEvent event then some (s.push ⟨localID, event, none, none⟩) else none
  | .uploadGroup data => if s.running then some (s.push data) else none
  | .start connectionEstablished =>
    if s.phase = .idle then some { s with phase := .restoring connectionEstablished } else none
  | .restore name eventsPerRequest =>
    if s.phase = .restoring true then s.restore cacheDir name eventsPerRequest else none
  | .copyBatch tokenEmpty eventsPerRequest =>
    match s.phase with
    | .restoring _ =>
      if s.eventBuffer.isEmpty || tokenEmpty then some { s with phase := .idle }
      else
        some { s with
          phase := .sending ((s.eventBuffer.take eventsPerRequest).map Tagged.entry) }
    | _ => none
  | .answered results =>
    match s.phase with
    | .sending batch => if results.length = batch.length then some (s.answer batch results) else none
    | _ => none
  | .failed cacheIfCannotSend =>
    match s.phase with
    | .sending _ => some (s.fail cacheDir cacheIfCannotSend)
    | _ => none

/-- Nothing has happened yet; there may be copies in the cache. -/
structure Initial (cacheDir : Place) (s : Events K) : Prop where
  eventBuffer : s.eventBuffer = []
  phase : s.phase = .idle
  origin : s.origin = s.written.map Copy.ref
  sent : s.sent = []
  dropped : s.dropped = []
  restored : s.restored = []
  invocations : s.invocations = []
  refs : s.origin.Nodup
  nextRef : ∀ r ∈ s.origin, r < s.nextRef
  nextSerial : ∀ copy ∈ s.written, copy.serial < s.nextSerial
  disk : OnDisk cacheDir s.disk s.written []

/-- **The invariant.** A request on its way has the first events of the buffer. Whatever has come is
in the buffer, in an answered request, dropped or written to the cache, and what has come back from
there was written before. -/
structure Sound (cacheDir : Place) (s : Events K) : Prop where
  batch : ∀ batch, s.phase = .sending batch → batch <+: s.eventBuffer.map Tagged.entry
  count : ∀ r, s.origin.count r + (s.restored.map Copy.ref).count r =
    (s.eventBuffer.map Tagged.ref).count r + s.sent.flatten.count r + s.dropped.count r +
      (s.written.map Copy.ref).count r
  refs : s.origin.Nodup
  nextRef : ∀ r ∈ s.origin, r < s.nextRef
  written : s.written.Nodup
  nextSerial : ∀ copy ∈ s.written, copy.serial < s.nextSerial
  restored : s.restored.Nodup
  restored_subset : s.restored ⊆ s.written
  disk : OnDisk cacheDir s.disk s.written s.restored
  invocations : ∀ i ∈ s.invocations, i.called = i.asked

theorem Initial.sound {cacheDir : Place} {s : Events K} (h : s.Initial cacheDir) :
    s.Sound cacheDir where
  batch batch hphase := by simp [h.phase] at hphase
  count r := by simp [h.eventBuffer, h.origin, h.sent, h.dropped, h.restored]
  refs := h.refs
  nextRef := h.nextRef
  written := by
    have := h.refs
    rw [h.origin] at this
    exact this.of_map
  nextSerial := h.nextSerial
  restored := by simp [h.restored]
  restored_subset := by simp [h.restored]
  disk := by simpa [h.restored] using h.disk
  invocations := by simp [h.invocations]

namespace Sound

variable {cacheDir : Place} {s t : Events K} {data : EventData K}

/-- No event is in two places, or in one of them twice. -/
theorem count_le_one (h : s.Sound cacheDir) (r : ℕ) :
    (s.eventBuffer.map Tagged.ref).count r + s.sent.flatten.count r + s.dropped.count r ≤ 1 := by
  have hrestored : (s.restored.map Copy.ref).count r ≤ (s.written.map Copy.ref).count r := by
    obtain ⟨cs, hperm, hsub⟩ := h.restored.subperm h.restored_subset
    rw [← (hperm.map Copy.ref).count_eq]
    exact (hsub.map Copy.ref).count_le r
  have horigin := List.nodup_iff_count_le_one.1 h.refs r
  have := h.count r
  omega

theorem sent_nodup (h : s.Sound cacheDir) : s.sent.flatten.Nodup :=
  List.nodup_iff_count_le_one.2 fun r => by have := h.count_le_one r; omega

theorem buffer_nodup (h : s.Sound cacheDir) : (s.eventBuffer.map Tagged.ref).Nodup :=
  List.nodup_iff_count_le_one.2 fun r => by have := h.count_le_one r; omega

theorem push (h : s.Sound cacheDir) (data : EventData K) : (s.push data).Sound cacheDir where
  batch batch hphase := by
    rw [Events.push, List.map_append]
    exact (h.batch batch hphase).trans (List.prefix_append _ _)
  count r := by
    have := h.count r
    simp only [Events.push, List.count_append, List.map_append, List.map_singleton]
    omega
  refs := List.nodup_append.2 ⟨h.refs, by simp, fun r hr r' hr' => by
    obtain rfl := List.mem_singleton.1 hr'
    exact (h.nextRef r hr).ne⟩
  nextRef r hr := by
    rcases List.mem_append.1 hr with hr | hr
    · exact Nat.lt_succ_of_lt (h.nextRef r hr)
    · obtain rfl := List.mem_singleton.1 hr
      exact Nat.lt_succ_self _
  written := h.written
  nextSerial := h.nextSerial
  restored := h.restored
  restored_subset := h.restored_subset
  disk := h.disk
  invocations := h.invocations

/-- A step that does not go to a request, and moves events or copies in a way that keeps account of
them. -/
theorem restore (h : s.Sound cacheDir) (hphase : s.phase = .restoring true) {name : List Char}
    {n : ℕ} (hst : s.restore cacheDir name n = some t) : t.Sound cacheDir := by
  unfold Events.restore at hst
  split_ifs at hst with hentry hfull
  · obtain rfl := Option.some.inj hst
    exact h
  · split at hst
    case h_1 copy hcopy =>
      obtain rfl := Option.some.inj hst
      obtain ⟨-, hwritten, hnew⟩ := h.disk.located _ _ hcopy
      exact {
        batch := fun batch hbatch => by simp [hphase] at hbatch
        count := fun r => by
          have := h.count r
          simp only [List.count_append, List.map_append, List.map_singleton]
          omega
        refs := h.refs
        nextRef := h.nextRef
        written := h.written
        nextSerial := h.nextSerial
        restored := List.nodup_append.2 ⟨h.restored, by simp, fun c hc c' hc' => by
          obtain rfl := List.mem_singleton.1 hc'
          rintro rfl
          exact hnew hc⟩
        restored_subset := List.append_subset.2 ⟨h.restored_subset, by simpa using hwritten⟩
        disk := h.disk.remove hcopy
        invocations := h.invocations }
    case h_2 hnone =>
      obtain rfl := Option.some.inj hst
      have hpush := h.push (cachedData emptyEvent)
      exact { hpush with
        disk := h.disk.remove_other fun copy hcopy => hnone copy hcopy }

theorem subset_restore {name : List Char} {n : ℕ} (hst : s.restore cacheDir name n = some t) :
    s.eventBuffer ⊆ t.eventBuffer := by
  unfold Events.restore at hst
  split_ifs at hst
  · exact (Option.some.inj hst) ▸ List.Subset.refl _
  · split at hst
    all_goals exact (Option.some.inj hst) ▸ List.subset_append_left _ _

/-- Results and elements of the buffer that are taken by position belong together. -/
theorem invoked_of_prefix {batch : List (ℕ × Event)} {buffer : List (Tagged K)}
    {results : List EventResult} (hbatch : batch <+: buffer.map Tagged.entry) :
    ∀ i ∈ invoked batch buffer results, i.called = i.asked := by
  induction batch generalizing buffer results with
  | nil => simp [invoked]
  | cons e batch ih =>
    cases buffer with
    | nil => simp at hbatch
    | cons x buffer =>
      obtain ⟨rfl, htail⟩ := List.cons_prefix_cons.1 hbatch
      cases results with
      | nil => simp [invoked]
      | cons r results =>
        intro i hi
        simp only [invoked, List.zip_cons_cons, List.filterMap_cons] at hi
        split at hi
        · exact ih htail i hi
        · next j hj =>
          rcases List.mem_cons.1 hi with rfl | hi
          · obtain ⟨-, -, rfl⟩ := Option.map_eq_some_iff.1 hj
            rfl
          · exact ih htail i hi

/-- The events of an answered request were the first of the buffer. -/
theorem answer (h : s.Sound cacheDir) {batch : List (ℕ × Event)} (results : List EventResult)
    (hphase : s.phase = .sending batch) :
    (s.answer batch results).Sound cacheDir ∧
      (s.answer batch results).eventBuffer = s.eventBuffer.drop batch.length ∧
      (s.answer batch results).sent = s.sent ++ [batch.map Prod.fst] ∧
      batch = (s.eventBuffer.take batch.length).map Tagged.entry := by
  have hbatch := h.batch batch hphase
  have hlen : batch.length ≤ s.eventBuffer.length := by simpa using hbatch.length_le
  have htake : batch = (s.eventBuffer.take batch.length).map Tagged.entry := by
    rw [List.map_take]
    exact List.prefix_iff_eq_take.1 hbatch
  have hrefs : batch.map Prod.fst = (s.eventBuffer.take batch.length).map Tagged.ref := by
    conv_lhs => rw [htake, List.map_map]
    rfl
  rw [Events.answer, if_neg (Nat.not_lt.2 hlen)]
  refine ⟨?_, rfl, rfl, htake⟩
  exact {
    batch := nofun
    count := fun r => by
      have := h.count r
      have hparts := congrArg (fun l => (l.map Tagged.ref).count r)
        (List.take_append_drop batch.length s.eventBuffer)
      simp only [List.map_append, List.count_append] at hparts
      simp only [List.flatten_append, List.flatten_singleton, List.count_append, hrefs]
      omega
    refs := h.refs
    nextRef := h.nextRef
    written := h.written
    nextSerial := h.nextSerial
    restored := h.restored
    restored_subset := h.restored_subset
    disk := h.disk
    invocations := fun i hi => by
      rcases List.mem_append.1 hi with hi | hi
      · exact h.invocations i hi
      · exact invoked_of_prefix hbatch i hi }

/-- What a failed request does to the buffer and the cache, if the names are plain: nothing, or
everything is dropped, or there is a new copy of everything on the disk. -/
theorem fail_cases (h : s.Sound cacheDir) {c : Bool}
    (hnames : c = true → eventBufferMaxSize ≤ s.eventBuffer.length →
      ∀ x ∈ s.eventBuffer, PlainName x.data.event.name) :
    s.fail cacheDir c = { s with phase := .idle } ∨
      (eventBufferMaxSize ≤ s.eventBuffer.length ∧ c = false ∧
        s.fail cacheDir c = { s with
          eventBuffer := []
          phase := .idle
          dropped := s.dropped ++ s.eventBuffer.map Tagged.ref }) ∨
      eventBufferMaxSize ≤ s.eventBuffer.length ∧ c = true ∧ ∃ disk copies,
        OnDisk cacheDir disk (s.written ++ copies) s.restored ∧
        copies.map Copy.entry = s.eventBuffer.map Tagged.entry ∧
        copies.map Copy.serial = List.range' s.nextSerial s.eventBuffer.length ∧
        s.fail cacheDir c = { s with
          eventBuffer := []
          disk := disk
          phase := .idle
          nextSerial := s.nextSerial + s.eventBuffer.length
          written := s.written ++ copies } := by
  unfold Events.fail
  split_ifs with hfull hc
  · obtain ⟨disk, copies, hcache, hdisk, hentries, hserials⟩ :=
      cacheEvents_plain (hnames hc hfull) h.disk h.nextSerial
        fun copy hcopy => h.nextSerial copy (h.restored_subset hcopy)
    exact .inr (.inr ⟨hfull, hc, disk, copies, hdisk, hentries, hserials, by rw [hcache]⟩)
  · exact .inr (.inl ⟨hfull, by simpa using hc, rfl⟩)
  · exact .inl rfl

theorem idle (h : s.Sound cacheDir) : ({ s with phase := .idle } : Events K).Sound cacheDir :=
  { h with batch := nofun }

theorem drop (h : s.Sound cacheDir) :
    ({ s with
      eventBuffer := []
      phase := .idle
      dropped := s.dropped ++ s.eventBuffer.map Tagged.ref } : Events K).Sound cacheDir :=
  { h with
    batch := nofun
    count := fun r => by
      have := h.count r
      simp only [List.map_nil, List.count_nil, List.count_append]
      omega }

theorem mem_serials {copies : List Copy} {copy : Copy} {n k : ℕ}
    (hserials : copies.map Copy.serial = List.range' n k) (hcopy : copy ∈ copies) :
    n ≤ copy.serial ∧ copy.serial < n + k := by
  have hmem := List.mem_map_of_mem (f := Copy.serial) hcopy
  rwa [hserials, List.mem_range'_1] at hmem

theorem cache (h : s.Sound cacheDir) {disk : Disk} {copies : List Copy}
    (hdisk : OnDisk cacheDir disk (s.written ++ copies) s.restored)
    (hentries : copies.map Copy.entry = s.eventBuffer.map Tagged.entry)
    (hserials : copies.map Copy.serial = List.range' s.nextSerial s.eventBuffer.length) :
    ({ s with
      eventBuffer := []
      disk := disk
      phase := .idle
      nextSerial := s.nextSerial + s.eventBuffer.length
      written := s.written ++ copies } : Events K).Sound cacheDir := by
  have hserial (copy : Copy) (hcopy : copy ∈ copies) : s.nextSerial ≤ copy.serial ∧
      copy.serial < s.nextSerial + s.eventBuffer.length := mem_serials hserials hcopy
  have hrefs : copies.map Copy.ref = s.eventBuffer.map Tagged.ref := by
    simpa [List.map_map, Function.comp_def, Copy.entry, Tagged.entry] using
      congrArg (List.map Prod.fst) hentries
  exact { h with
    batch := nofun
    count := fun r => by
      have := h.count r
      simp only [List.map_nil, List.count_nil, List.map_append, List.count_append, hrefs]
      omega
    written := List.nodup_append.2 ⟨h.written,
      List.Nodup.of_map Copy.serial (by rw [hserials]; exact List.nodup_range'),
      fun c hc c' hc' => by
        rintro rfl
        exact absurd (h.nextSerial c hc) (Nat.not_lt.2 (hserial c hc').1)⟩
    nextSerial := fun c hc => by
      rcases List.mem_append.1 hc with hc | hc
      · exact Nat.lt_add_right _ (h.nextSerial c hc)
      · exact (hserial c hc).2
    restored_subset := fun c hc => List.mem_append_left _ (h.restored_subset hc)
    disk := hdisk }

end Sound

/-- The names of all events in the buffer are plain whenever they are to be cached. -/
def CachesPlain (s : Events K) (a : EventsStep K) : Prop :=
  a = .failed true → eventBufferMaxSize ≤ s.eventBuffer.length →
    ∀ x ∈ s.eventBuffer, PlainName x.data.event.name

/-- How an element may leave the buffer: its event was in a request that was answered OK, or a request
has failed with a full buffer, and then its event is written to one place of the cache, or caching is
not enabled. -/
inductive Leaves (s : Events K) (a : EventsStep K) (t : Events K) (x : Tagged K) : Prop
  | answered {results : List EventResult} {batch : List (ℕ × Event)} (ha : a = .answered results)
      (hphase : s.phase = .sending batch) (hmem : x.entry ∈ batch)
      (hsent : t.sent = s.sent ++ [batch.map Prod.fst])
  | cached {copies : List Copy} (ha : a = .failed true)
      (hfull : eventBufferMaxSize ≤ s.eventBuffer.length)
      (hwritten : t.written = s.written ++ copies) (honce : (copies.map Copy.entry).count x.entry = 1)
      (hdisk : ∀ copy ∈ copies, ∃! p, t.disk.node p = some (.file (some copy)))
  | dropped (ha : a = .failed false) (hfull : eventBufferMaxSize ≤ s.eventBuffer.length)

/-- **What one step does.** It keeps the invariant, and elements leave the buffer as they may. -/
theorem sound_step {cacheDir : Place} {s t : Events K} {a : EventsStep K} (h : s.Sound cacheDir)
    (hplain : s.CachesPlain a) (hst : s.step cacheDir a = some t) :
    t.Sound cacheDir ∧ ∀ x ∈ s.eventBuffer, x ∉ t.eventBuffer → Leaves s a t x := by
  cases a with
  | sendEvent localID event =>
    simp only [step] at hst
    split_ifs at hst
    obtain rfl := Option.some.inj hst
    exact ⟨h.push _, fun x hx hnot => absurd (List.mem_append_left _ hx) hnot⟩
  | uploadGroup data =>
    simp only [step] at hst
    split_ifs at hst
    obtain rfl := Option.some.inj hst
    exact ⟨h.push _, fun x hx hnot => absurd (List.mem_append_left _ hx) hnot⟩
  | start connectionEstablished =>
    simp only [step] at hst
    split_ifs at hst
    obtain rfl := Option.some.inj hst
    exact ⟨{ h with batch := nofun }, fun x hx hnot => absurd hx hnot⟩
  | restore name eventsPerRequest =>
    simp only [step] at hst
    split_ifs at hst with hphase
    exact ⟨h.restore hphase hst, fun x hx hnot => absurd (Sound.subset_restore hst hx) hnot⟩
  | copyBatch tokenEmpty eventsPerRequest =>
    simp only [step] at hst
    split at hst
    case h_1 =>
      split_ifs at hst
      · obtain rfl := Option.some.inj hst
        exact ⟨h.idle, fun x hx hnot => absurd hx hnot⟩
      · obtain rfl := Option.some.inj hst
        refine ⟨{ h with batch := fun batch hbatch => ?_ }, fun x hx hnot => absurd hx hnot⟩
        obtain rfl := Phase.sending.inj hbatch
        exact (List.take_prefix _ _).map _
    case h_2 => cases hst
  | answered results =>
    simp only [step] at hst
    split at hst
    case h_1 batch hphase =>
      split_ifs at hst
      obtain rfl := Option.some.inj hst
      obtain ⟨hsound, hbuffer, hsent, htake⟩ := h.answer results hphase
      refine ⟨hsound, fun x hx hnot => .answered rfl hphase ?_ hsent⟩
      rw [hbuffer] at hnot
      rw [← List.take_append_drop batch.length s.eventBuffer, List.mem_append] at hx
      rw [htake]
      exact List.mem_map_of_mem (hx.resolve_right hnot)
    case h_2 => cases hst
  | failed c =>
    simp only [step] at hst
    split at hst
    case h_1 =>
      obtain rfl := Option.some.inj hst
      rcases h.fail_cases (c := c) (fun hc => hplain (by rw [hc])) with hfail | ⟨hfull, rfl, hfail⟩ |
        ⟨hfull, rfl, disk, copies, hdisk, hentries, hserials, hfail⟩
      · rw [hfail]
        exact ⟨h.idle, fun x hx hnot => absurd hx hnot⟩
      · rw [hfail]
        exact ⟨h.drop, fun x hx hnot => .dropped rfl hfull⟩
      · rw [hfail]
        refine ⟨h.cache hdisk hentries hserials, fun x hx hnot => .cached rfl hfull rfl ?_ ?_⟩
        · rw [hentries]
          exact List.count_eq_one_of_mem (List.Nodup.of_map Prod.fst
            (by simpa [Function.comp_def, Tagged.entry] using h.buffer_nodup))
            (List.mem_map_of_mem hx)
        · intro copy hcopy
          have hnew : copy ∉ s.restored := fun hmem => absurd
            (h.nextSerial copy (h.restored_subset hmem))
            (Nat.not_lt.2 (Sound.mem_serials hserials hcopy).1)
          obtain ⟨p, hp⟩ := hdisk.present copy (List.mem_append_right _ hcopy) hnew
          exact ⟨p, hp, fun q hq => hdisk.unique q p copy hq hp⟩
    case h_2 => cases hst

/-! ### Runs -/

theorem sound_of_run {cacheDir : Place} {s₀ s : Events K} {tr : List (Events K × EventsStep K)}
    (h₀ : s₀.Initial cacheDir) (hrun : Transition.Run (step cacheDir) s₀ tr s)
    (hplain : ∀ p ∈ tr, p.1.CachesPlain p.2) : s.Sound cacheDir :=
  hrun.invariant_of_forall (G := CachesPlain) (fun _ _ _ hG hs hst => (sound_step hs hG hst).1)
    hplain h₀.sound

/-- **Every event has one fate**, in every run in which only events with plain names are cached. An
event leaves the buffer because a request it was part of was answered OK, or through the path of the
full buffer, which writes it to one place of the cache if caching is enabled. No event is part of two
requests answered OK. The callback invoked for a result is that of the event the result belongs to.
No copy is put back twice, and none that was not written. -/
theorem fates_of_run {cacheDir : Place} {s₀ s : Events K} {tr : List (Events K × EventsStep K)}
    (h₀ : s₀.Initial cacheDir) (hrun : Transition.Run (step cacheDir) s₀ tr s)
    (hplain : ∀ p ∈ tr, p.1.CachesPlain p.2) :
    (∀ p ∈ tr, ∀ t, p.1.step cacheDir p.2 = some t →
        ∀ x ∈ p.1.eventBuffer, x ∉ t.eventBuffer → Leaves p.1 p.2 t x) ∧
      s.sent.flatten.Nodup ∧ (∀ i ∈ s.invocations, i.called = i.asked) ∧
      s.restored.Nodup ∧ s.restored ⊆ s.written := by
  have hs := sound_of_run h₀ hrun hplain
  refine ⟨fun p hp t hst => ?_, hs.sent_nodup, hs.invocations, hs.restored, hs.restored_subset⟩
  obtain ⟨tr₁, tr₂, u, rfl, hbefore, -⟩ := hrun.exists_of_mem hp
  have hp₁ := sound_of_run h₀ hbefore fun q hq => hplain q (List.mem_append_left _ hq)
  exact (sound_step hp₁ (hplain p hp) hst).2

/-- An `EventsManager` nobody has used, with no file in the system. -/
def fresh : Events ℕ := ⟨[], .empty, .idle, 0, 0, [], [], [], [], [], []⟩

theorem fresh_initial (cacheDir : Place) : fresh.Initial cacheDir where
  eventBuffer := rfl
  phase := rfl
  origin := rfl
  sent := rfl
  dropped := rfl
  restored := rfl
  invocations := rfl
  refs := List.nodup_nil
  nextRef := by simp [fresh]
  nextSerial := by simp [fresh]
  disk := by
    have hfile (p : Place) (b : Option Copy) : fresh.disk.node p ≠ some (.file b) := by
      simp only [fresh, FileTree.empty]
      split_ifs <;> simp
    exact ⟨fun p _ b => hfile p b, fun p c h => absurd h (hfile p _),
      fun p q c h => absurd h (hfile p _), fun c h => by cases h⟩

/-- An event has been sent `n` times, and nothing else has happened. -/
def sentTimes (event : Event) (n : ℕ) : Events ℕ :=
  { fresh with
    eventBuffer := (List.range n).map fun r => ⟨r, ⟨"", event, none, none⟩⟩
    nextRef := n
    origin := List.range n }

/-- Then a request with the first event is on its way. -/
def requested (event : Event) (n : ℕ) : Events ℕ :=
  { sentTimes event (n + 1) with phase := .sending [(0, event)] }

theorem run_sentTimes (cacheDir : Place) {event : Event} (hvalid : validateEvent event = true)
    (n : ℕ) : ∃ tr, Transition.Run (step cacheDir) fresh tr (sentTimes event n) ∧
      ∀ p ∈ tr, p.2 = .sendEvent "" event := by
  induction n with
  | zero => exact ⟨[], .nil, nofun⟩
  | succ n ih =>
    obtain ⟨tr, hrun, htr⟩ := ih
    refine ⟨_, hrun.snoc (a := .sendEvent "" event) ?_, fun p hp => ?_⟩
    · simp [step, running, push, sentTimes, fresh, hvalid, List.range_succ]
    · rcases List.mem_append.1 hp with hp | hp
      · exact htr p hp
      · obtain rfl := List.mem_singleton.1 hp
        rfl

theorem run_requested (cacheDir : Place) {event : Event} (hvalid : validateEvent event = true)
    (n : ℕ) : ∃ tr, Transition.Run (step cacheDir) fresh tr (requested event n) ∧
      ∀ p ∈ tr, p.2 ≠ .failed true := by
  obtain ⟨tr, hrun, htr⟩ := run_sentTimes cacheDir hvalid (n + 1)
  let prepared : Events ℕ := { sentTimes event (n + 1) with phase := .restoring false }
  have hstart : step cacheDir (sentTimes event (n + 1)) (.start false) = some prepared := rfl
  have hcopy : step cacheDir prepared (.copyBatch false 1) = some (requested event n) := by
    simp [step, prepared, sentTimes, requested, List.range_succ_eq_map, Tagged.entry]
  refine ⟨_, (hrun.snoc hstart).snoc hcopy, fun p hp => ?_⟩
  simp only [List.mem_append, List.mem_singleton] at hp
  rcases hp with (hp | rfl) | rfl
  · rw [htr p hp]
    exact nofun
  · exact nofun
  · exact nofun

/-- A full buffer of events with a plain name is cached. -/
theorem fates_of_run_door : ∃ tr s, Transition.Run (step internalPrivate) fresh tr s ∧
    s.sent.flatten.Nodup ∧ (∀ i ∈ s.invocations, i.called = i.asked) ∧
      s.restored.Nodup ∧ s.restored ⊆ s.written := by
  have hvalid : validateEvent ⟨"door", 1, [], [], []⟩ = true := by decide
  obtain ⟨tr, hrun, htr⟩ := run_requested internalPrivate hvalid 299
  have hrun' := hrun.snoc (a := .failed true) rfl
  refine ⟨_, _, hrun', (fates_of_run (fresh_initial _) hrun' fun p hp => ?_).2⟩
  rcases List.mem_append.1 hp with hp | hp
  · exact fun h => absurd h (htr p hp)
  · obtain rfl := List.mem_singleton.1 hp
    intro _ _ x hx
    simp only [requested, sentTimes, List.mem_map] at hx
    obtain ⟨r, -, rfl⟩ := hx
    exact (⟨by decide, by decide⟩ : PlainName "door")

/-- A name with a slash, which `validateEvent` accepts. -/
def slashed : Event := ⟨"front/door", 1, [], [], []⟩

/-- The directory for an event with a slash in its name cannot be made: it would be in another that
does not exist. -/
theorem cacheEvent_slashed : (cacheEvent internalPrivate ⟨0, 0, slashed⟩ .empty).2 = .threw := by
  decide

/-- A full buffer of events with a slash in the name: the exception ends the process with none of them
in the cache. -/
theorem slashed_not_cached : ∃ tr s t x, Transition.Run (step internalPrivate) fresh tr s ∧
    s.step internalPrivate (.failed true) = some t ∧ x ∈ s.eventBuffer ∧ x ∉ t.eventBuffer ∧
      ¬ Leaves s (.failed true) t x := by
  have hvalid : validateEvent slashed = true := by decide
  obtain ⟨tr, hrun, -⟩ := run_requested internalPrivate hvalid 299
  have hfail : ((requested slashed 299).fail internalPrivate true).eventBuffer = [] ∧
      ((requested slashed 299).fail internalPrivate true).written = [] := by
    obtain ⟨xs, hxs⟩ : ∃ xs, (requested slashed 299).eventBuffer =
        ⟨0, ⟨"", slashed, none, none⟩⟩ :: xs := ⟨_, by
      rw [requested, sentTimes, List.range_succ_eq_map, List.map_cons]⟩
    have hfull : eventBufferMaxSize ≤ (requested slashed 299).eventBuffer.length := by
      simp [requested, sentTimes, eventBufferMaxSize]
    obtain ⟨disk, hcache⟩ : ∃ disk, cacheEvents internalPrivate 0 (requested slashed 299).eventBuffer
        .empty = (disk, [], .threw) := by
      rw [hxs, cacheEvents]
      generalize hevent : cacheEvent internalPrivate _ _ = outcome
      obtain ⟨disk, outcome⟩ := outcome
      obtain rfl : outcome = .threw := by rw [← cacheEvent_slashed, hevent]
      exact ⟨disk, rfl⟩
    have hstart : cacheEvents internalPrivate (requested slashed 299).nextSerial
        (requested slashed 299).eventBuffer (requested slashed 299).disk = (disk, [], .threw) := hcache
    rw [Events.fail, if_pos hfull, if_pos rfl, hstart]
    exact ⟨rfl, rfl⟩
  refine ⟨tr, _, _, ⟨0, ⟨"", slashed, none, none⟩⟩, hrun, rfl, ?_, by simp [hfail.1], ?_⟩
  · simp [requested, sentTimes]
  · rintro (⟨ha, -, -, -⟩ | ⟨-, -, hwritten, honce, -⟩ | ⟨ha, -⟩)
    · cases ha
    · rw [hfail.2] at hwritten
      obtain ⟨-, rfl⟩ := List.append_eq_nil_iff.1 hwritten.symm
      simp at honce
    · cases ha

end Events

end EventsManager

end DepthaiCore
