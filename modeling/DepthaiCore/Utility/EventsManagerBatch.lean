import DepthaiCore.Lib.Numerals
import DepthaiCore.Lib.Runs
import DepthaiCore.Utility.EventsManagerCache
import Mathlib.Data.Fin.Basic
import Mathlib.Data.List.Count

/-!
# A batch of snaps

`uploadFileBatch` has the answer of the server to a batch. It reports the groups that are rejected and
starts a task for each of the others; then it waits for the tasks in order, and when one has failed it
caches the whole batch. A task moves the data of each accepted file out of the snap, and the event
once all files are uploaded. Whatever has been moved out is a null pointer afterwards, to the thread
that caches as well.

The thread and the tasks take their steps in any order. To cache a snap is one step for its directory
and event and one for each of its files.
-/

open scoped Numerals

namespace DepthaiCore

namespace EventsManager

open FileTree

variable {K : Type*}

/-! ### Files -/

def mimeTypeToExtensionMap : List (String × String) :=
  [("text/html", ".html"), ("text/css", ".css"), ("application/javascript", ".js"),
    ("image/png", ".png"), ("image/jpeg", ".jpg"), ("image/gif", ".gif"), ("image/webp", ".webp"),
    ("image/bmp", ".bmp"), ("image/tiff", ".tiff"), ("image/svg+xml", ".svg"),
    ("application/json", ".json"), ("text/plain", ".txt"),
    ("application/x-protobuf; proto=SnapAnnotation", ".annotation"),
    ("application/octet-stream", "")]

/-- The extension of a file in the cache. -/
def FileData.extension (file : FileData) : List Char :=
  ((mimeTypeToExtensionMap.lookup file.mimeType).getD "").toList

/-- The name that `toFile` tries at the `i`-th attempt. -/
def FileData.target (file : FileData) (i : ℕ) : List Char :=
  file.fileTag.toList ++ (if i = 0 then [] else '_' :: i.repr.toList) ++ file.extension

/-- `operator/` of the directory of an entry and a name. A name that starts with a slash replaces
everything before it. -/
def inEntry (cacheDir : Place) (entry name : List Char) : Place × List (Component (List Char)) :=
  if name.head? = some '/' then ([], components name)
  else (cacheDir, components (entry ++ '/' :: name))

/-- What the cache has of the batch: the event of a snap, or one of its files. -/
inductive Content
  | event (k : ℕ) (event : Event)
  | file (k i : ℕ) (file : FileData)
  deriving DecidableEq, Repr

/-- A file system. A file has something of the batch, or nothing that matters here. -/
abbrev SnapDisk := FileTree (List Char) (Option Content)

def toFile (cacheDir : Place) (entry : List Char) (k i : ℕ) (file : FileData) (disk : SnapDisk) :
    SnapDisk × Outcome Bool :=
  if file.fileTag.isEmpty then (disk, .done false)
  else
    let path j := inEntry cacheDir entry (file.target j)
    match disk.firstFree fun j => disk.pathExists (path j).1 (path j).2 with
    | none => (disk, .endless)
    | some j =>
      match disk.write (path j).1 (path j).2 (some (.file k i file)) with
      | none => (disk, .done false)
      | some disk => (disk, .done true)

/-- The tag of a file is a name. -/
def FileData.PlainTag (file : FileData) : Prop := Plain file.fileTag.toList

theorem notMem_extension (file : FileData) :
    '/' ∉ file.extension ∧ '\x00' ∉ file.extension := by
  have htable : ∀ p ∈ mimeTypeToExtensionMap, '/' ∉ p.2.toList ∧ '\x00' ∉ p.2.toList := by decide
  unfold FileData.extension
  cases hlookup : mimeTypeToExtensionMap.lookup file.mimeType with
  | none => exact ⟨List.not_mem_nil, List.not_mem_nil⟩
  | some extension =>
    obtain ⟨l, l', hsplit, -⟩ := List.lookup_eq_some_iff.1 hlookup
    exact htable (file.mimeType, extension) (by simp [hsplit])

theorem plain_target {file : FileData} (h : file.PlainTag) (i : ℕ) : Plain (file.target i) := by
  obtain ⟨hslash, hnull⟩ := notMem_extension file
  unfold FileData.target
  rw [List.append_assoc]
  split_ifs
  · exact h.append hslash hnull
  · refine h.append ?_ ?_ <;> simp only [List.mem_append, List.mem_cons, not_or]
    · exact ⟨⟨by decide, Separators.notMem_repr rfl i⟩, hslash⟩
    · exact ⟨⟨by decide, Separators.notMem_repr rfl i⟩, hnull⟩

theorem target_injective (file : FileData) : Function.Injective file.target := by
  intro i j h
  simp only [FileData.target, List.append_cancel_right_eq, List.append_cancel_left_eq] at h
  by_cases hi : i = 0 <;> by_cases hj : j = 0
  · rw [hi, hj]
  · simp [hi, hj] at h
  · simp [hi, hj] at h
  · rw [if_neg hi, if_neg hj] at h
    exact Separators.repr_injective (String.toList_inj.1 (List.cons.inj h).2)

theorem head?_ne_slash {text : List Char} (h : Plain text) : text.head? ≠ some '/' := fun hhead =>
  h.slash (List.mem_of_mem_head? hhead)

/-- A file with a plain tag gets a place of its own in the directory of its snap. -/
theorem toFile_plain {cacheDir : Place} {entry : List Char} {k i : ℕ} {file : FileData}
    {disk : SnapDisk} (hentry : Plain entry) (htag : file.PlainTag)
    (hdir : disk.node cacheDir = some .dir) (hnode : disk.node (cacheDir ++ [entry]) = some .dir) :
    ∃ disk' m, toFile cacheDir entry k i file disk = (disk', .done true) ∧
      disk.node (cacheDir ++ [entry] ++ [m]) = none ∧
      disk'.node =
        Function.update disk.node (cacheDir ++ [entry] ++ [m]) (some (.file (some (.file k i file)))) := by
  have hpath (j : ℕ) : inEntry cacheDir entry (file.target j) =
      (cacheDir, [.into entry, .into (file.target j)]) := by
    rw [inEntry, if_neg (head?_ne_slash (plain_target htag j)),
      components_slash hentry (plain_target htag j)]
  have hplace : Function.Injective fun j => cacheDir ++ [entry] ++ [file.target j] := by
    intro i j h
    exact target_injective file (by simpa using h)
  have htaken (j : ℕ) : disk.pathExists (inEntry cacheDir entry (file.target j)).1
      (inEntry cacheDir entry (file.target j)).2 =
        disk.taken (cacheDir ++ [entry] ++ [file.target j]) := by
    rw [hpath, pathExists_plain₂ hdir hnode]
  obtain ⟨j, hfree, hnone⟩ := disk.exists_firstFree hplace htaken
  obtain ⟨disk', hwrite, hnode'⟩ := write_plain (m := file.target j)
    (b := some (.file k i file)) hdir hnode (by rw [hnone]; exact nofun)
  refine ⟨disk', file.target j, ?_, hnone, hnode'⟩
  have hempty : ¬ file.fileTag.isEmpty = true := fun h =>
    htag.dots.1 (by simp [String.isEmpty_iff.1 h])
  simp only [toFile]
  rw [if_neg hempty, hfree]
  simp only [hpath, hwrite]

/-! ### The batch -/

/-- The answer to a file, and whether its upload succeeds in the end. -/
inductive FileAnswer
  | accepted (id : String) (uploaded : Bool)
  | notAccepted
  deriving DecidableEq, Repr

/-- `uploadFile` is called and returns `true`. -/
def FileAnswer.uploaded : FileAnswer → Bool
  | accepted _ uploaded => uploaded
  | notAccepted => false

/-- The answer to a group. -/
inductive GroupAnswer
  | rejected
  | files (results : List FileAnswer)
  deriving DecidableEq, Repr

/-- A batch and the answer to it, with one answer for each group and for each file. -/
structure Upload (K : Type*) where
  size : ℕ
  snap : Fin size → SnapData K
  answer : Fin size → GroupAnswer
  answered : ∀ k results, answer k = .files results → results.length = (snap k).fileGroup.length
  cacheIfCannotSend : Bool

/-- `SendSnapCallbackStatus`, as far as a batch goes. -/
inductive Status
  | groupContainsRejectedFiles
  | fileUploadFailed
  deriving DecidableEq, Repr

/-- Where the task of a group is. -/
inductive Task
  | idle
  /-- It looks at the answer to the `i`-th file. -/
  | uploading (i : ℕ)
  | failed
  | queued
  deriving DecidableEq, Repr

/-- A snap of the batch; what has been moved out is `none`. -/
structure Slot (K : Type*) where
  eventData : Option (EventData K)
  files : List (Option FileData)
  task : Task

/-- Where the thread of the batch is. -/
inductive Main
  | launching (i : ℕ)
  | collecting (i : ℕ)
  | caching (k : ℕ)
  /-- It has the directory `entry` and writes the files from the `i`-th on. -/
  | cachingFiles (k : ℕ) (entry : List Char) (i : ℕ)
  | returned
  /-- A null pointer has been dereferenced. -/
  | crashed
  | threw
  | endless
  deriving DecidableEq, Repr

/-- The state of a batch. -/
structure Batch (u : Upload K) where
  slot : Fin u.size → Slot K
  main : Main
  eventBuffer : List (Fin u.size × EventData K)
  reported : List (Fin u.size × Status)
  disk : SnapDisk

namespace Batch

variable {u : Upload K}

/-- The failure callback of a snap is called if there is one. -/
def report (s : Batch u) (k : Fin u.size) (status : Status) : List (Fin u.size × Status) :=
  if ((s.slot k).eventData.bind EventData.onFailure).isSome then s.reported ++ [(k, status)]
  else s.reported

/-- The state with a different snap in place `k`. -/
def setSlot (s : Batch u) (k : Fin u.size) (slot : Slot K) : Batch u :=
  { s with slot := Function.update s.slot k slot }

/-- The loop that starts the tasks, at the `i`-th group. -/
def launch (s : Batch u) (i : ℕ) : Batch u :=
  if h : i < u.size then
    match u.answer ⟨i, h⟩ with
    | .rejected =>
      { s with
        main := .launching (i + 1)
        reported := s.report ⟨i, h⟩ .groupContainsRejectedFiles }
    | .files _ =>
      { s.setSlot ⟨i, h⟩ { s.slot ⟨i, h⟩ with task := .uploading 0 } with
        main := .launching (i + 1) }
  else { s with main := .collecting 0 }

/-- The loop that waits for the tasks, at the `i`-th group. -/
def collect (s : Batch u) (i : ℕ) : Option (Batch u) :=
  if h : i < u.size then
    match u.answer ⟨i, h⟩, (s.slot ⟨i, h⟩).task with
    | .rejected, _ => some { s with main := .collecting (i + 1) }
    | .files _, .queued => some { s with main := .collecting (i + 1) }
    | .files _, .failed =>
      some { s with main := if u.cacheIfCannotSend then .caching 0 else .returned }
    | .files _, _ => none
  else some { s with main := .returned }

/-- `"snap.pb"`. -/
def snapFile : List Char := "snap.pb".toList

/-- `cacheSnapData` makes the directory of the `k`-th snap and writes its event. -/
def cacheEntry (cacheDir : Place) (s : Batch u) (k : ℕ) : Batch u :=
  if h : k < u.size then
    match (s.slot ⟨k, h⟩).eventData with
    | none => { s with main := .crashed }
    | some eventData =>
      match makeEntry cacheDir "snap" eventData.event s.disk with
      | (disk, .threw) => { s with main := .threw, disk := disk }
      | (disk, .endless) => { s with main := .endless, disk := disk }
      | (disk, .done entry) =>
        let written := disk.write cacheDir (components (entry ++ '/' :: snapFile))
          (some (.event k eventData.event))
        { s with main := .cachingFiles k entry 0, disk := written.getD disk }
  else { s with main := .returned }

/-- `cacheSnapData` writes the `i`-th file of the `k`-th snap. -/
def cacheFile (cacheDir : Place) (s : Batch u) (k : ℕ) (entry : List Char) (i : ℕ) : Batch u :=
  if h : k < u.size then
    match (s.slot ⟨k, h⟩).files[i]? with
    | none => { s with main := .caching (k + 1) }
    | some none => { s with main := .crashed }
    | some (some file) =>
      match toFile cacheDir entry k i file s.disk with
      | (disk, .done _) => { s with main := .cachingFiles k entry (i + 1), disk := disk }
      | (disk, .threw) => { s with main := .threw, disk := disk }
      | (disk, .endless) => { s with main := .endless, disk := disk }
  else { s with main := .returned }

/-- One step of the thread of the batch. -/
def mainStep (cacheDir : Place) (s : Batch u) : Option (Batch u) :=
  match s.main with
  | .launching i => some (s.launch i)
  | .collecting i => s.collect i
  | .caching k => some (s.cacheEntry cacheDir k)
  | .cachingFiles k entry i => some (s.cacheFile cacheDir k entry i)
  | _ => none

/-- The event of a snap with one more associated file. -/
def associate (id : String) (eventData : EventData K) : EventData K :=
  { eventData with
    event := { eventData.event with associateFiles := eventData.event.associateFiles ++ [id] } }

/-- One step of the task of the `k`-th group, which looks at the answer to the `i`-th file; after the
last it waits for the uploads. -/
def upload (s : Batch u) (k : Fin u.size) (results : List FileAnswer) (i : ℕ) : Option (Batch u) :=
  let slot := s.slot k
  match results[i]? with
  | some .notAccepted =>
    some { s.setSlot k { slot with task := .failed } with
      reported := s.report k .groupContainsRejectedFiles }
  | some (.accepted id _) =>
    if i < slot.files.length then
      some (s.setSlot k
        { eventData := slot.eventData.map (associate id)
          files := slot.files.set i none
          task := .uploading (i + 1) })
    else none
  | none =>
    if results.all FileAnswer.uploaded then
      slot.eventData.map fun eventData =>
        { s.setSlot k { slot with eventData := none, task := .queued } with
          eventBuffer := s.eventBuffer ++ [(k, eventData)] }
    else
      some { s.setSlot k { slot with task := .failed } with
        reported := s.report k .fileUploadFailed }

/-- The steps: of the thread of the batch, or of the task of a group. -/
inductive Action (n : ℕ)
  | main
  | task (k : Fin n)
  deriving DecidableEq, Repr

/-- One step. -/
def step (cacheDir : Place) (s : Batch u) : Action u.size → Option (Batch u)
  | .main => s.mainStep cacheDir
  | .task k =>
    match (s.slot k).task, u.answer k with
    | .uploading i, .files results => s.upload k results i
    | _, _ => none

/-- The task of no group has begun, and the cache has nothing of the batch. -/
structure Initial (cacheDir : Place) (s : Batch u) : Prop where
  slot : ∀ k, s.slot k = ⟨some (u.snap k).eventData, (u.snap k).fileGroup.map some, .idle⟩
  main : s.main = .launching 0
  eventBuffer : s.eventBuffer = []
  reported : s.reported = []
  usable : Usable cacheDir s.disk
  disk : ∀ p content, s.disk.node p ≠ some (.file (some content))

/-- The batch has come to its end: its thread has returned, and no task is at work. -/
structure Ended (s : Batch u) : Prop where
  main : s.main = .returned
  task : ∀ k i, (s.slot k).task ≠ .uploading i

/-! ### Fates -/

end Batch

/-- The snap that something in the cache belongs to. -/
def Content.index : Content → ℕ
  | event k _ => k
  | file k _ _ => k

/-- The event of a snap and its first `n` files. -/
def Upload.Contents (u : Upload K) (k : Fin u.size) (n : ℕ) (content : Content) : Prop :=
  content = .event k (u.snap k).eventData.event ∨
    ∃ i < n, ∃ file, (u.snap k).fileGroup[i]? = some file ∧ content = .file k i file

namespace Batch

variable {u : Upload K}

/-- The event of the snap is in `eventBuffer`, once, and all its files are uploaded. -/
def Queued (s : Batch u) (k : Fin u.size) : Prop :=
  (s.eventBuffer.map Prod.fst).count k = 1 ∧
    ∃ results, u.answer k = .files results ∧ results.all FileAnswer.uploaded = true

/-- One directory has the event of the snap and all its files, and they are nowhere else. -/
def Cached (cacheDir : Place) (s : Batch u) (k : Fin u.size) : Prop :=
  ∃ n, ∀ content, u.Contents k (u.snap k).fileGroup.length content →
    ∃ m, ∀ p, s.disk.node p = some (.file (some content)) ↔ p = cacheDir ++ [n] ++ [m]

/-- The cache has nothing of the snap. -/
def NotCached (s : Batch u) (k : Fin u.size) : Prop :=
  ∀ content : Content, content.index = k → ∀ p, s.disk.node p ≠ some (.file (some content))

/-- The group of the snap is rejected, and its failure callback, if it has one, was called once. -/
def Rejected (s : Batch u) (k : Fin u.size) : Prop :=
  u.answer k = .rejected ∧ ((u.snap k).eventData.onFailure.isSome →
    s.reported.count (k, .groupContainsRejectedFiles) = 1)

/-- The snap has exactly one of the three fates. -/
inductive OneFate (cacheDir : Place) (s : Batch u) (k : Fin u.size) : Prop
  | queued (hqueued : s.Queued k) (hcache : s.NotCached k) (hanswer : u.answer k ≠ .rejected)
  | cached (hcached : s.Cached cacheDir k) (hbuffer : k ∉ s.eventBuffer.map Prod.fst)
      (hanswer : u.answer k ≠ .rejected)
  | rejected (hrejected : s.Rejected k) (hcache : s.NotCached k)
      (hbuffer : k ∉ s.eventBuffer.map Prod.fst)

end Batch

/-- Every group that is not rejected is uploaded. -/
def Upload.Smooth (u : Upload K) : Prop :=
  ∀ k results, u.answer k = .files results → results.all FileAnswer.uploaded = true

/-- No group is rejected and in each the first file is, and all names and tags can be written. -/
structure Upload.Barren (u : Upload K) : Prop where
  answer : ∀ k, ∃ results, u.answer k = .files (.notAccepted :: results)
  name : ∀ k, PlainName (u.snap k).eventData.event.name
  tag : ∀ k, ∀ file ∈ (u.snap k).fileGroup, file.PlainTag

namespace Batch

variable {u : Upload K} {cacheDir : Place} {s t : Batch u}

/-! ### No task fails -/

/-- The number of groups the first loop has gone through. -/
def launched (s : Batch u) : ℕ :=
  match s.main with
  | .launching i => i
  | _ => u.size

/-- A snap after the first loop has gone through `n` groups, if no task fails. -/
structure SmoothSlot (u : Upload K) (buffer : List (Fin u.size × EventData K)) (n : ℕ)
    (k : Fin u.size) (slot : Slot K) : Prop where
  idle : slot.task = .idle ↔ n ≤ k ∨ u.answer k = .rejected
  failed : slot.task ≠ .failed
  data : slot.task ≠ .queued → ∃ eventData, slot.eventData = some eventData ∧
    eventData.onFailure = (u.snap k).eventData.onFailure
  files : slot.files.length = (u.snap k).fileGroup.length
  count : (buffer.map Prod.fst).count k = if slot.task = .queued then 1 else 0

/-- Where the batch can be if no task fails. -/
structure Smoothly (s : Batch u) : Prop where
  main : (∃ i, s.main = .launching i) ∨ (∃ i, s.main = .collecting i) ∨ s.main = .returned
  slot : ∀ k, SmoothSlot u s.eventBuffer s.launched k (s.slot k)
  reported : ∀ k, u.answer k = .rejected → (u.snap k).eventData.onFailure.isSome →
    s.reported.count (k, .groupContainsRejectedFiles) = if k < s.launched then 1 else 0
  disk : ∀ p content, s.disk.node p ≠ some (.file (some content))

theorem Initial.smoothly (h : s.Initial cacheDir) : s.Smoothly where
  main := .inl ⟨0, h.main⟩
  slot k := by
    rw [h.slot]
    exact ⟨by simp [launched, h.main], nofun, fun _ => ⟨_, rfl, rfl⟩, by simp, by
      simp [h.eventBuffer]⟩
  reported k _ _ := by simp [h.reported, launched, h.main]
  disk := h.disk

theorem launched_of_launching {i : ℕ} (h : s.main = .launching i) : s.launched = i := by
  simp [launched, h]

theorem launched_of_collecting {i : ℕ} (h : s.main = .collecting i) : s.launched = u.size := by
  simp [launched, h]

/-- What holds of every snap holds after one of them has been replaced. -/
theorem forall_update {P : Fin u.size → Slot K → Prop} {k : Fin u.size} {slot : Slot K}
    (h : ∀ k' ≠ k, P k' (s.slot k')) (hk : P k slot) (k' : Fin u.size) :
    P k' (Function.update s.slot k slot k') := by
  by_cases hkk' : k' = k
  · subst hkk'
    rwa [Function.update_self]
  · rw [Function.update_of_ne hkk']
    exact h k' hkk'

/-- A snap other than the `i`-th does not see that the first loop goes on. -/
theorem SmoothSlot.succ {buffer : List (Fin u.size × EventData K)} {i : ℕ} {k : Fin u.size}
    {slot : Slot K} (h : SmoothSlot u buffer i k slot)
    (hk : (k : ℕ) ≠ i ∨ u.answer k = .rejected) : SmoothSlot u buffer (i + 1) k slot where
  idle := h.idle.trans <| by
    rcases hk with hk | hk
    · rw [show i ≤ k ↔ i + 1 ≤ (k : ℕ) by omega]
    · simp [hk]
  failed := h.failed
  data := h.data
  files := h.files
  count := h.count

theorem count_report {i : ℕ} (hi : i < u.size) {eventData : EventData K}
    (hdata : (s.slot ⟨i, hi⟩).eventData = some eventData)
    (heq : eventData.onFailure = (u.snap ⟨i, hi⟩).eventData.onFailure) (status : Status)
    {k : Fin u.size} (hcallback : (u.snap k).eventData.onFailure.isSome) :
    (s.report ⟨i, hi⟩ status).count (k, status) =
      s.reported.count (k, status) + if (k : ℕ) = i then 1 else 0 := by
  unfold report
  rw [hdata, Option.bind_some, heq]
  by_cases hki : (k : ℕ) = i
  · subst hki
    rw [if_pos hcallback, List.count_append]
    simp
  · have hother : (⟨i, hi⟩ : Fin u.size) ≠ k := fun h => hki (by rw [← h])
    rw [if_neg hki, Nat.add_zero]
    split_ifs
    · rw [List.count_append, List.count_singleton, if_neg (by simp [hother]), Nat.add_zero]
    · rfl

theorem Smoothly.launch {i : ℕ} (h : s.Smoothly) (hmain : s.main = .launching i) :
    (s.launch i).Smoothly := by
  have hlaunched : s.launched = i := launched_of_launching hmain
  have hslot := h.slot
  have hreported := h.reported
  rw [hlaunched] at hslot hreported
  unfold Batch.launch
  by_cases hi : i < u.size
  · rw [dif_pos hi]
    have hidle : (s.slot ⟨i, hi⟩).task = .idle := (hslot _).idle.2 (.inl le_rfl)
    obtain ⟨eventData, hdata, heq⟩ := (hslot ⟨i, hi⟩).data (by rw [hidle]; exact nofun)
    cases hanswer : u.answer ⟨i, hi⟩ with
    | rejected =>
      refine ⟨.inl ⟨_, rfl⟩, fun k => (hslot k).succ ?_, fun k hk hcallback => ?_, h.disk⟩
      · by_cases hki : (k : ℕ) = i
        · exact .inr (by simpa [← hki] using hanswer)
        · exact .inl hki
      · show (s.report _ _).count _ = if (k : ℕ) < i + 1 then 1 else 0
        rw [count_report hi hdata heq _ hcallback, hreported k hk hcallback]
        split_ifs <;> omega
    | files results =>
      refine ⟨.inl ⟨_, rfl⟩, ?_, fun k hk hcallback => ?_, h.disk⟩
      · refine forall_update (fun k hk => (hslot k).succ (.inl fun heq => hk (Fin.ext heq))) ?_
        refine ⟨by simp [hanswer, launched], nofun, fun _ => ⟨_, hdata, heq⟩, (hslot _).files, ?_⟩
        exact (hslot _).count.trans (by rw [hidle]; rfl)
      · show s.reported.count _ = if (k : ℕ) < i + 1 then 1 else 0
        have hki : (k : ℕ) ≠ i := by
          rintro rfl
          rw [hk] at hanswer
          exact nomatch hanswer
        rw [hreported k hk hcallback]
        exact if_congr (by omega) rfl rfl
  · rw [dif_neg hi]
    have hlt (k : Fin u.size) : (k : ℕ) < i := k.isLt.trans_le (Nat.le_of_not_lt hi)
    refine ⟨.inr (.inl ⟨0, rfl⟩), fun k => ?_, fun k hk hcallback => ?_, h.disk⟩
    · refine { hslot k with idle := (hslot k).idle.trans ?_ }
      simp [launched, (hlt k).not_ge, k.isLt.not_ge]
    · show s.reported.count _ = if (k : ℕ) < u.size then 1 else 0
      rw [hreported k hk hcallback, if_pos (hlt k), if_pos k.isLt]

/-- So does the second: it goes on, for no task has failed. -/
theorem Smoothly.collect {i : ℕ} (h : s.Smoothly) (hmain : s.main = .collecting i)
    (hstep : s.collect i = some t) : t.Smoothly := by
  have hslot := h.slot
  have hreported := h.reported
  rw [launched_of_collecting hmain] at hslot hreported
  have hgoes (main : Main) (hmain : (∃ i, main = .collecting i) ∨ main = .returned) :
      Smoothly { s with main := main } := by
    rcases hmain with ⟨i, rfl⟩ | rfl
    · exact ⟨.inr (.inl ⟨i, rfl⟩), hslot, hreported, h.disk⟩
    · exact ⟨.inr (.inr rfl), hslot, hreported, h.disk⟩
  unfold Batch.collect at hstep
  by_cases hi : i < u.size
  · rw [dif_pos hi] at hstep
    split at hstep
    · obtain rfl := Option.some.inj hstep
      exact hgoes _ (.inl ⟨_, rfl⟩)
    · obtain rfl := Option.some.inj hstep
      exact hgoes _ (.inl ⟨_, rfl⟩)
    · next hfailed => exact absurd hfailed (h.slot _).failed
    · exact nomatch hstep
  · rw [dif_neg hi] at hstep
    obtain rfl := Option.some.inj hstep
    exact hgoes _ (.inr rfl)

theorem Smoothly.upload {k : Fin u.size} {results : List FileAnswer} {i : ℕ} (h : s.Smoothly)
    (hall : results.all FileAnswer.uploaded = true) (htask : (s.slot k).task = .uploading i)
    (hstep : s.upload k results i = some t) : t.Smoothly := by
  have hnot : ¬ (s.launched ≤ k ∨ u.answer k = .rejected) := fun hidle =>
    nomatch htask.symm.trans ((h.slot k).idle.2 hidle)
  obtain ⟨eventData, hdata, heq⟩ := (h.slot k).data (by rw [htask]; exact nofun)
  simp only [Batch.upload] at hstep
  split at hstep
  · next hget =>
    exact nomatch List.all_eq_true.1 hall _ (List.mem_of_getElem? hget)
  · next id _ hget =>
    split_ifs at hstep
    obtain rfl := Option.some.inj hstep
    refine ⟨h.main, forall_update (fun k _ => h.slot k) ?_, h.reported, h.disk⟩
    refine ⟨iff_of_false nofun hnot, nofun, fun _ => ⟨associate id eventData, ?_, heq⟩, ?_, ?_⟩
    · rw [hdata]
      rfl
    · rw [List.length_set]
      exact (h.slot k).files
    · exact (h.slot k).count.trans (by rw [htask]; rfl)
  · rw [if_pos hall, hdata] at hstep
    obtain rfl := Option.some.inj hstep
    refine ⟨h.main, forall_update (fun k' hk' => ?_) ?_, h.reported, h.disk⟩
    · refine { h.slot k' with count := ?_ }
      rw [List.map_append, List.count_append, (h.slot k').count]
      simp [Ne.symm hk']
    · refine ⟨iff_of_false nofun hnot, nofun, fun hne => absurd rfl hne, (h.slot k).files, ?_⟩
      rw [List.map_append, List.count_append, (h.slot k).count, htask]
      simp

theorem Smoothly.step {a : Action u.size} (hsmooth : u.Smooth) (h : s.Smoothly)
    (hstep : s.step cacheDir a = some t) : t.Smoothly := by
  cases a with
  | main =>
    rcases h.main with ⟨i, hmain⟩ | ⟨i, hmain⟩ | hmain <;>
      simp only [Batch.step, mainStep, hmain] at hstep
    · obtain rfl := Option.some.inj hstep
      exact h.launch hmain
    · exact h.collect hmain hstep
    · exact nomatch hstep
  | task k =>
    simp only [Batch.step] at hstep
    split at hstep
    · next i results htask hanswer => exact h.upload (hsmooth k results hanswer) htask hstep
    · exact nomatch hstep

/-- At the end a snap is queued, or its group has been rejected. -/
theorem Smoothly.oneFate (hsmooth : u.Smooth) (h : s.Smoothly) (hend : s.Ended) (k : Fin u.size) :
    s.OneFate cacheDir k := by
  have hlaunched : s.launched = u.size := by simp [launched, hend.main]
  have hidle := (h.slot k).idle
  have hreported := h.reported k
  rw [hlaunched] at hidle hreported
  have hcache : s.NotCached k := fun content _ p => h.disk p content
  cases hanswer : u.answer k with
  | rejected =>
    refine .rejected ⟨hanswer, fun hcallback => ?_⟩ hcache ?_
    · rw [hreported hanswer hcallback, if_pos k.isLt]
    · rw [← List.count_eq_zero, (h.slot k).count, hidle.2 (.inr hanswer)]
      rfl
  | files results =>
    have htask : (s.slot k).task = .queued := by
      cases htask : (s.slot k).task with
      | idle =>
        rcases hidle.1 htask with hle | hrejected
        · exact absurd hle k.isLt.not_ge
        · exact nomatch hanswer.symm.trans hrejected
      | uploading i => exact absurd htask (hend.task k i)
      | failed => exact absurd htask (h.slot k).failed
      | queued => rfl
    refine .queued ⟨?_, results, hanswer, hsmooth k results hanswer⟩ hcache (by simp [hanswer])
    rw [(h.slot k).count, if_pos htask]

theorem Smoothly.ended_or (hsmooth : u.Smooth) (h : s.Smoothly) :
    s.Ended ∨ ∃ a t, s.step cacheDir a = some t := by
  by_cases hbusy : ∃ k i, (s.slot k).task = .uploading i
  · obtain ⟨k, i, htask⟩ := hbusy
    obtain ⟨eventData, hdata, -⟩ := (h.slot k).data (by rw [htask]; exact nofun)
    refine .inr ⟨.task k, ?_⟩
    cases hanswer : u.answer k with
    | rejected => exact nomatch htask.symm.trans ((h.slot k).idle.2 (.inr hanswer))
    | files results =>
      have hall := hsmooth k results hanswer
      simp only [Batch.step, htask, hanswer, Batch.upload]
      split
      · exact ⟨_, rfl⟩
      · next hget =>
        have hlt : i < results.length := (List.getElem?_eq_some_iff.1 hget).1
        rw [if_pos (by rw [(h.slot k).files, ← u.answered k results hanswer]; exact hlt)]
        exact ⟨_, rfl⟩
      · rw [if_pos hall, hdata]
        exact ⟨_, rfl⟩
  · have htask (k : Fin u.size) (i : ℕ) : (s.slot k).task ≠ .uploading i := fun heq =>
      hbusy ⟨k, i, heq⟩
    rcases h.main with ⟨i, hmain⟩ | ⟨i, hmain⟩ | hmain
    · exact .inr ⟨.main, s.launch i, by simp only [Batch.step, mainStep, hmain]⟩
    · refine .inr ⟨.main, ?_⟩
      simp only [Batch.step, mainStep, hmain, Batch.collect]
      by_cases hi : i < u.size
      · rw [dif_pos hi]
        split
        · exact ⟨_, rfl⟩
        · exact ⟨_, rfl⟩
        · exact ⟨_, rfl⟩
        · next results hanswer hqueued hfailed =>
          cases hcase : (s.slot ⟨i, hi⟩).task with
          | idle =>
            rcases (h.slot _).idle.1 hcase with hle | hrejected
            · rw [launched_of_collecting hmain] at hle
              exact absurd hle hi.not_ge
            · exact nomatch hanswer.symm.trans hrejected
          | uploading j => exact absurd hcase (htask _ j)
          | failed => exact absurd hcase hfailed
          | queued => exact absurd hcase hqueued
      · rw [dif_neg hi]
        exact ⟨_, rfl⟩
    · exact .inl ⟨hmain, htask⟩

/-! ### Nothing is moved -/

/-- Of each snap with an amount the cache has the event and that many files, in the directory of the
snap; it has nothing else of the batch. -/
structure Stored (u : Upload K) (cacheDir : Place) (disk : SnapDisk)
    (amount : Fin u.size → Option ℕ) (dir : Fin u.size → List Char) : Prop where
  usable : Usable cacheDir disk
  found : ∀ k n, amount k = some n → ∀ content, u.Contents k n content →
    ∃ m, ∀ p, disk.node p = some (.file (some content)) ↔ p = cacheDir ++ [dir k] ++ [m]
  only : ∀ p content, disk.node p = some (.file (some content)) →
    ∃ k n, amount k = some n ∧ u.Contents k n content

variable {disk disk' : SnapDisk} {amount : Fin u.size → Option ℕ} {dir : Fin u.size → List Char}

theorem Stored.of_files (h : Stored u cacheDir disk amount dir)
    (hfiles : ∀ p b, disk'.node p = some (.file b) ↔ disk.node p = some (.file b)) :
    Stored u cacheDir disk' amount dir where
  usable p hp b hfile := h.usable p hp b ((hfiles p b).1 hfile)
  found k n hk content hcontent := by
    obtain ⟨m, hm⟩ := h.found k n hk content hcontent
    exact ⟨m, fun p => (hfiles p _).trans (hm p)⟩
  only p content hfile := h.only p content ((hfiles p _).1 hfile)

/-- A new file of the `k`-th snap is written to its directory. -/
theorem Stored.write {k : Fin u.size} {n' : ℕ} {entry m : List Char} {content : Content}
    (h : Stored u cacheDir disk amount dir) (hdir : ∀ n, amount k = some n → dir k = entry)
    (hnew : ∀ j n, amount j = some n → ¬ u.Contents j n content)
    (hcontents : ∀ content', u.Contents k n' content' ↔
      content' = content ∨ ∃ n, amount k = some n ∧ u.Contents k n content')
    (hnone : disk.node (cacheDir ++ [entry] ++ [m]) = none)
    (hnode : disk'.node =
      Function.update disk.node (cacheDir ++ [entry] ++ [m]) (some (.file (some content)))) :
    Stored u cacheDir disk' (Function.update amount k (some n')) (Function.update dir k entry) := by
  have hfile (p : Place) : disk'.node p = some (.file (some content)) ↔
      p = cacheDir ++ [entry] ++ [m] := by
    by_cases hp : p = cacheDir ++ [entry] ++ [m]
    · simp [hnode, hp]
    · refine iff_of_false (fun hwritten => ?_) hp
      rw [hnode, Function.update_of_ne hp] at hwritten
      obtain ⟨j, n, hj, hcontent⟩ := h.only p content hwritten
      exact hnew j n hj hcontent
  have hother (p : Place) {b : Option Content} (hb : b ≠ some content) :
      disk'.node p = some (.file b) ↔ disk.node p = some (.file b) := by
    by_cases hp : p = cacheDir ++ [entry] ++ [m]
    · rw [hp, hnode, Function.update_self, hnone]
      simp [Ne.symm hb]
    · rw [hnode, Function.update_of_ne hp]
  have hold {j : Fin u.size} {n : ℕ} (hj : amount j = some n) {content' : Content}
      (hcontent' : u.Contents j n content') :
      ∃ m, ∀ p, disk'.node p = some (.file (some content')) ↔ p = cacheDir ++ [dir j] ++ [m] := by
    obtain ⟨m', hm'⟩ := h.found j n hj content' hcontent'
    refine ⟨m', fun p => (hother p ?_).trans (hm' p)⟩
    rintro ⟨⟩
    exact hnew j n hj hcontent'
  refine ⟨fun p hp b hb => ?_, fun j n hj content' hcontent' => ?_, fun p content' hwritten => ?_⟩
  · have hne : p ≠ cacheDir ++ [entry] ++ [m] := by
      rintro rfl
      exact absurd hp.length_le (by simp)
    rw [hnode, Function.update_of_ne hne] at hb
    exact h.usable p hp b hb
  · by_cases hjk : j = k
    · subst hjk
      rw [Function.update_self] at hj ⊢
      obtain rfl := Option.some.inj hj
      rcases (hcontents content').1 hcontent' with rfl | ⟨n, hn, hcontent'⟩
      · exact ⟨m, hfile⟩
      · rw [← hdir n hn]
        exact hold hn hcontent'
    · rw [Function.update_of_ne hjk] at hj ⊢
      exact hold hj hcontent'
  · by_cases hc : content' = content
    · exact ⟨k, n', Function.update_self .., (hcontents content').2 (.inl hc)⟩
    · obtain ⟨j, n, hj, hcontent'⟩ :=
        h.only p content' ((hother p fun heq => hc (Option.some.inj heq)).1 hwritten)
      by_cases hjk : j = k
      · subst hjk
        exact ⟨j, n', Function.update_self .., (hcontents content').2 (.inr ⟨n, hj, hcontent'⟩)⟩
      · exact ⟨j, n, by rwa [Function.update_of_ne hjk], hcontent'⟩

/-- What the thread has written when it has done with `k` snaps and, if it is at the next, `next` of
its files. -/
def amounts (u : Upload K) (k : ℕ) (next : Option ℕ) (j : Fin u.size) : Option ℕ :=
  if (j : ℕ) < k then some (u.snap j).fileGroup.length else if (j : ℕ) = k then next else none

theorem update_amounts {k : ℕ} (hk : k < u.size) (next next' : Option ℕ) :
    Function.update (amounts u k next) ⟨k, hk⟩ next' = amounts u k next' := by
  funext j
  by_cases hjk : j = ⟨k, hk⟩
  · simp [hjk, amounts]
  · have hne : (j : ℕ) ≠ k := fun heq => hjk (Fin.ext heq)
    rw [Function.update_of_ne hjk]
    simp [amounts, hne]

theorem amounts_succ {k : ℕ} (hk : k < u.size) :
    amounts u k (some (u.snap ⟨k, hk⟩).fileGroup.length) = amounts u (k + 1) none := by
  funext j
  unfold amounts
  rcases lt_trichotomy (j : ℕ) k with hjk | hjk | hjk
  · rw [if_pos hjk, if_pos (Nat.lt_succ_of_lt hjk)]
  · obtain rfl : j = ⟨k, hk⟩ := Fin.ext hjk
    simp
  · rw [if_neg hjk.not_gt, if_neg hjk.ne', if_neg (by omega)]
    split_ifs <;> rfl

theorem amounts_of_le {k : ℕ} (hk : u.size ≤ k) : amounts u k none = amounts u u.size none := by
  funext j
  simp [amounts, j.isLt, j.isLt.trans_le hk]

theorem contents_zero {k : Fin u.size} {content : Content} :
    u.Contents k 0 content ↔ content = .event k (u.snap k).eventData.event := by
  simp [Upload.Contents]

theorem contents_succ {k : Fin u.size} {i : ℕ} {file : FileData}
    (hfile : (u.snap k).fileGroup[i]? = some file) {content : Content} :
    u.Contents k (i + 1) content ↔ content = .file k i file ∨ u.Contents k i content := by
  constructor
  · rintro (rfl | ⟨j, hj, file', hfile', rfl⟩)
    · exact .inr (.inl rfl)
    · rcases Nat.lt_succ_iff_lt_or_eq.1 hj with hlt | rfl
      · exact .inr (.inr ⟨j, hlt, file', hfile', rfl⟩)
      · obtain rfl := Option.some.inj (hfile.symm.trans hfile')
        exact .inl rfl
  · rintro (rfl | rfl | ⟨j, hj, file', hfile', rfl⟩)
    · exact .inr ⟨i, Nat.lt_succ_self i, file, hfile, rfl⟩
    · exact .inl rfl
    · exact .inr ⟨j, Nat.lt_succ_of_lt hj, file', hfile', rfl⟩

theorem index_of_contents {k : Fin u.size} {n : ℕ} {content : Content}
    (h : u.Contents k n content) : content.index = k := by
  rcases h with rfl | ⟨_, _, _, _, rfl⟩ <;> rfl

/-- The thread has the directory of the `k`-th snap and has written `i` of its files. -/
structure Filling (u : Upload K) (cacheDir : Place) (disk : SnapDisk) (k : ℕ) (entry : List Char)
    (i : ℕ) : Prop where
  lt : k < u.size
  le : i ≤ (u.snap ⟨k, lt⟩).fileGroup.length
  plain : Plain entry
  above : disk.node cacheDir = some .dir
  place : disk.node (cacheDir ++ [entry]) = some .dir
  stored : ∃ dir, dir ⟨k, lt⟩ = entry ∧ Stored u cacheDir disk (amounts u k (some i)) dir

/-- What the cache has when the thread is somewhere. -/
def Stage (u : Upload K) (cacheDir : Place) (disk : SnapDisk) : Main → Prop
  | .launching _ => ∃ dir, Stored u cacheDir disk (amounts u 0 none) dir
  | .collecting i => i = 0 ∧ ∃ dir, Stored u cacheDir disk (amounts u 0 none) dir
  | .caching k => ∃ dir, Stored u cacheDir disk (amounts u k none) dir
  | .cachingFiles k entry i => Filling u cacheDir disk k entry i
  | .returned => ∃ dir, Stored u cacheDir disk (amounts u u.size none) dir
  | _ => False

/-- A snap of which nothing has been moved out, after the first loop has gone through `n` groups. -/
structure BarrenSlot (u : Upload K) (n : ℕ) (k : Fin u.size) (slot : Slot K) : Prop where
  eventData : slot.eventData = some (u.snap k).eventData
  files : slot.files = (u.snap k).fileGroup.map some
  task : slot.task = .idle ∧ n ≤ k ∨ slot.task = .uploading 0 ∨ slot.task = .failed

/-- Where the batch can be if nothing is moved. -/
structure Barrenly (cacheDir : Place) (s : Batch u) : Prop where
  main : Stage u cacheDir s.disk s.main
  slot : ∀ k, BarrenSlot u s.launched k (s.slot k)
  eventBuffer : s.eventBuffer = []

theorem Initial.barrenly (h : s.Initial cacheDir) : s.Barrenly cacheDir where
  main := by
    rw [h.main]
    refine ⟨fun _ => [], h.usable, fun k n hk => ?_, fun p content hfile => ?_⟩
    · simp [amounts] at hk
    · exact absurd hfile (h.disk p content)
  slot k := by
    rw [h.slot]
    exact ⟨rfl, rfl, .inl ⟨rfl, by simp [launched, h.main]⟩⟩
  eventBuffer := h.eventBuffer

theorem plainName_snap : PlainName "snap" := ⟨by decide, by decide⟩

theorem plain_snapFile : Plain snapFile := ⟨by decide, by decide, by decide⟩

/-- The thread makes a directory for the `k`-th snap and writes the event. -/
theorem Barrenly.cacheEntry {k : ℕ} (hu : u.Barren) (h : s.Barrenly cacheDir)
    (hmain : s.main = .caching k) : (s.cacheEntry cacheDir k).Barrenly cacheDir := by
  have hstage := h.main
  have hslot := h.slot
  simp only [hmain, Stage, launched] at hstage hslot
  obtain ⟨dir, hstored⟩ := hstage
  unfold Batch.cacheEntry
  by_cases hk : k < u.size
  · rw [dif_pos hk]
    obtain ⟨disk₁, i, hentry, habove, hplace, hnone, hfiles⟩ :=
      makeEntry_plain plainName_snap (hu.name ⟨k, hk⟩) hstored.usable
    have hplain := plain_entryText plainName_snap (hu.name ⟨k, hk⟩) i
    obtain ⟨disk₂, hwrite, hnode⟩ := write_plain (m := snapFile)
      (b := some (.event k (u.snap ⟨k, hk⟩).eventData.event)) habove hplace
      (by rw [hnone]; exact nofun)
    simp only [(h.slot ⟨k, hk⟩).eventData, hentry, components_slash hplain plain_snapFile, hwrite,
      Option.getD_some]
    refine ⟨⟨hk, Nat.zero_le _, hplain, ?_, ?_, ?_⟩, hslot, h.eventBuffer⟩
    · show disk₂.node _ = _
      rw [hnode, Function.update_of_ne (by simp), habove]
    · show disk₂.node _ = _
      rw [hnode, Function.update_of_ne (by simp), hplace]
    · have hamount : amounts u k none ⟨k, hk⟩ = none := by simp [amounts]
      refine ⟨Function.update dir ⟨k, hk⟩ _, Function.update_self .., ?_⟩
      rw [← update_amounts hk none]
      refine (hstored.of_files hfiles).write (fun n hn => nomatch hamount.symm.trans hn)
        (fun j n hj hcontents => ?_) (fun content => ?_) (hnone snapFile) hnode
      · have hjk : k = j := index_of_contents hcontents
        obtain rfl : j = ⟨k, hk⟩ := Fin.ext hjk.symm
        exact nomatch hamount.symm.trans hj
      · rw [contents_zero, hamount]
        simp
  · rw [dif_neg hk]
    refine ⟨⟨dir, ?_⟩, hslot, h.eventBuffer⟩
    rw [← amounts_of_le (Nat.le_of_not_lt hk)]
    exact hstored

/-- It writes the `i`-th file of the snap, or has done with the snap. -/
theorem Barrenly.cacheFile {k i : ℕ} {entry : List Char} (hu : u.Barren) (h : s.Barrenly cacheDir)
    (hmain : s.main = .cachingFiles k entry i) :
    (s.cacheFile cacheDir k entry i).Barrenly cacheDir := by
  have hfilling := h.main
  have hslot := h.slot
  simp only [hmain, Stage, launched] at hfilling hslot
  obtain ⟨hk, hle, hplain, habove, hplace, dir, hdir, hstored⟩ := hfilling
  simp only [Batch.cacheFile, dif_pos hk, (h.slot ⟨k, hk⟩).files, List.getElem?_map]
  cases hget : (u.snap ⟨k, hk⟩).fileGroup[i]? with
  | none =>
    have hi : i = (u.snap ⟨k, hk⟩).fileGroup.length :=
      hle.antisymm (List.getElem?_eq_none_iff.1 hget)
    refine ⟨⟨dir, ?_⟩, hslot, h.eventBuffer⟩
    rw [← amounts_succ hk, ← hi]
    exact hstored
  | some file =>
    obtain ⟨disk₁, m, hfile, hnone, hnode⟩ := toFile_plain (k := k) (i := i) hplain
      (hu.tag _ file (List.mem_of_getElem? hget)) habove hplace
    simp only [Option.map_some, hfile]
    have hamount : amounts u k (some i) ⟨k, hk⟩ = some i := by simp [amounts]
    refine ⟨⟨hk, ?_, hplain, ?_, ?_, ?_⟩, hslot, h.eventBuffer⟩
    · exact (List.getElem?_eq_some_iff.1 hget).1
    · show disk₁.node _ = _
      rw [hnode, Function.update_of_ne (by simp), habove]
    · show disk₁.node _ = _
      rw [hnode, Function.update_of_ne (by simp), hplace]
    · refine ⟨Function.update dir ⟨k, hk⟩ _, Function.update_self .., ?_⟩
      rw [← update_amounts hk (some i)]
      refine hstored.write (fun _ _ => hdir) (fun j n hj hcontents => ?_) (fun content => ?_)
        hnone hnode
      · have hjk : k = j := index_of_contents hcontents
        obtain rfl : j = ⟨k, hk⟩ := Fin.ext hjk.symm
        obtain rfl := Option.some.inj (hamount.symm.trans hj)
        rcases hcontents with heq | ⟨i', hi', file', -, heq⟩
        · exact nomatch heq
        · exact absurd (Content.file.inj heq).2.1 hi'.ne'
      · rw [contents_succ hget, hamount]
        simp

theorem Barrenly.launch {i : ℕ} (h : s.Barrenly cacheDir) (hu : u.Barren)
    (hmain : s.main = .launching i) : (s.launch i).Barrenly cacheDir := by
  have hstage := h.main
  have hslot := h.slot
  simp only [hmain, Stage, launched] at hstage hslot
  unfold Batch.launch
  by_cases hi : i < u.size
  · obtain ⟨results, hanswer⟩ := hu.answer ⟨i, hi⟩
    rw [dif_pos hi, hanswer]
    refine ⟨hstage, forall_update (fun k hk => ?_) ?_, h.eventBuffer⟩
    · refine { hslot k with task := (hslot k).task.imp_left (And.imp_right fun hle => ?_) }
      have hne : (k : ℕ) ≠ i := fun heq => hk (Fin.ext heq)
      show i + 1 ≤ (k : ℕ)
      omega
    · exact { hslot ⟨i, hi⟩ with task := .inr (.inl rfl) }
  · rw [dif_neg hi]
    refine ⟨⟨rfl, hstage⟩, fun k => { hslot k with task := (hslot k).task.imp_left ?_ },
      h.eventBuffer⟩
    exact fun hidle => absurd hidle.2 (k.isLt.trans_le (Nat.le_of_not_lt hi)).not_ge

theorem Barrenly.collect {i : ℕ} (h : s.Barrenly cacheDir) (hu : u.Barren)
    (hcache : u.cacheIfCannotSend = true) (hmain : s.main = .collecting i)
    (hstep : s.collect i = some t) : t.Barrenly cacheDir := by
  have hstage := h.main
  have hslot := h.slot
  simp only [hmain, Stage, launched] at hstage hslot
  obtain ⟨rfl, hstored⟩ := hstage
  unfold Batch.collect at hstep
  by_cases hi : 0 < u.size
  · obtain ⟨results, hanswer⟩ := hu.answer ⟨0, hi⟩
    rw [dif_pos hi, hanswer] at hstep
    rcases (hslot ⟨0, hi⟩).task with ⟨-, hle⟩ | htask | htask
    · exact absurd hle hi.not_ge
    · rw [htask] at hstep
      exact nomatch hstep
    · rw [htask, hcache] at hstep
      obtain rfl := Option.some.inj hstep
      exact ⟨hstored, hslot, h.eventBuffer⟩
  · rw [dif_neg hi] at hstep
    obtain rfl := Option.some.inj hstep
    refine ⟨?_, hslot, h.eventBuffer⟩
    rwa [amounts_of_le (Nat.le_of_not_lt hi)] at hstored

theorem Barrenly.upload {k : Fin u.size} {results : List FileAnswer} (h : s.Barrenly cacheDir)
    (hstep : s.upload k (.notAccepted :: results) 0 = some t) : t.Barrenly cacheDir := by
  obtain rfl := Option.some.inj hstep
  refine ⟨h.main, forall_update (fun k _ => h.slot k) ?_, h.eventBuffer⟩
  exact { h.slot k with task := .inr (.inr rfl) }

theorem Barrenly.step {a : Action u.size} (hu : u.Barren) (hcache : u.cacheIfCannotSend = true)
    (h : s.Barrenly cacheDir) (hstep : s.step cacheDir a = some t) : t.Barrenly cacheDir := by
  cases a with
  | main =>
    simp only [Batch.step, mainStep] at hstep
    split at hstep
    · next i hmain =>
      obtain rfl := Option.some.inj hstep
      exact h.launch hu hmain
    · next i hmain => exact h.collect hu hcache hmain hstep
    · next k hmain =>
      obtain rfl := Option.some.inj hstep
      exact h.cacheEntry hu hmain
    · next k entry i hmain =>
      obtain rfl := Option.some.inj hstep
      exact h.cacheFile hu hmain
    · exact nomatch hstep
  | task k =>
    obtain ⟨results, hanswer⟩ := hu.answer k
    simp only [Batch.step, hanswer] at hstep
    rcases (h.slot k).task with ⟨htask, -⟩ | htask | htask <;> rw [htask] at hstep
    · exact nomatch hstep
    · exact h.upload hstep
    · exact nomatch hstep

theorem Barrenly.oneFate (hu : u.Barren) (h : s.Barrenly cacheDir) (hend : s.Ended)
    (k : Fin u.size) : s.OneFate cacheDir k := by
  have hstage := h.main
  rw [hend.main] at hstage
  obtain ⟨dir, hstored⟩ := hstage
  obtain ⟨results, hanswer⟩ := hu.answer k
  refine .cached ⟨dir k, hstored.found k _ ?_⟩ (by simp [h.eventBuffer]) (by simp [hanswer])
  simp [amounts]

theorem Barrenly.ended_or (hu : u.Barren) (h : s.Barrenly cacheDir) :
    s.Ended ∨ ∃ a t, s.step cacheDir a = some t := by
  by_cases hbusy : ∃ k i, (s.slot k).task = .uploading i
  · obtain ⟨k, i, htask⟩ := hbusy
    obtain ⟨results, hanswer⟩ := hu.answer k
    obtain ⟨-, -, hidle | hfirst | hfailed⟩ := h.slot k
    · exact nomatch htask.symm.trans hidle.1
    · exact .inr ⟨.task k, _, by simp only [Batch.step, hfirst, hanswer]; rfl⟩
    · exact nomatch htask.symm.trans hfailed
  · have htask (k : Fin u.size) (i : ℕ) : (s.slot k).task ≠ .uploading i := fun heq =>
      hbusy ⟨k, i, heq⟩
    have hstage := h.main
    cases hmain : s.main with
    | launching i => exact .inr ⟨.main, s.launch i, by simp only [Batch.step, mainStep, hmain]⟩
    | collecting i =>
      refine .inr ⟨.main, ?_⟩
      simp only [Batch.step, mainStep, hmain, Batch.collect]
      rw [hmain] at hstage
      obtain ⟨rfl, -⟩ := hstage
      by_cases hi : 0 < u.size
      · obtain ⟨results, hanswer⟩ := hu.answer ⟨0, hi⟩
        rw [dif_pos hi, hanswer]
        obtain ⟨-, -, hidle | hfirst | hfailed⟩ := h.slot ⟨0, hi⟩
        · simp only [launched, hmain] at hidle
          exact absurd hidle.2 hi.not_ge
        · exact absurd hfirst (htask _ 0)
        · rw [hfailed]
          exact ⟨_, rfl⟩
      · rw [dif_neg hi]
        exact ⟨_, rfl⟩
    | caching k => exact .inr ⟨.main, _, by simp only [Batch.step, mainStep, hmain]; rfl⟩
    | cachingFiles k entry i => exact .inr ⟨.main, _, by simp only [Batch.step, mainStep, hmain]; rfl⟩
    | returned => exact .inl ⟨hmain, htask⟩
    | crashed => exact (by rw [hmain] at hstage; exact hstage : False).elim
    | threw => exact (by rw [hmain] at hstage; exact hstage : False).elim
    | endless => exact (by rw [hmain] at hstage; exact hstage : False).elim

/-! ### Runs -/

/-- The batch before its first step, with an empty file system. -/
def fresh (u : Upload K) : Batch u where
  slot k := ⟨some (u.snap k).eventData, (u.snap k).fileGroup.map some, .idle⟩
  main := .launching 0
  eventBuffer := []
  reported := []
  disk := .empty

theorem fresh_initial (u : Upload K) (cacheDir : Place) : (fresh u).Initial cacheDir := by
  have hfile (p : Place) (b : Option Content) : (fresh u).disk.node p ≠ some (.file b) := by
    simp only [fresh, FileTree.empty]
    split_ifs <;> simp
  exact ⟨fun _ => rfl, rfl, rfl, rfl, fun p _ b => hfile p b, fun p content => hfile p _⟩

/-- A batch of two snaps with a file each. The file of the first is accepted and uploaded. -/
def pair (second : GroupAnswer) (h : ∀ results, second = .files results → results.length = 1) :
    Upload ℕ where
  size := 2
  snap _ := ⟨⟨"", ⟨"door", 1, [], [], []⟩, none, some 0⟩, [⟨"image/png", "frame", []⟩]⟩
  answer k := if k = 0 then .files [.accepted "a" true] else second
  answered k results hanswer := by
    split_ifs at hanswer with hk
    · rw [← GroupAnswer.files.inj hanswer]
      rfl
    · exact h results hanswer
  cacheIfCannotSend := true

/-- The second group is rejected. -/
def oneRejected : Upload ℕ := pair .rejected nofun

/-- The file of the second is not accepted. -/
def oneFailed : Upload ℕ := pair (.files [.notAccepted]) fun results h => by
  rw [← GroupAnswer.files.inj h]
  rfl

theorem oneRejected_smooth : oneRejected.Smooth := by
  intro k results hanswer
  simp only [oneRejected, pair] at hanswer
  split_ifs at hanswer
  rw [← GroupAnswer.files.inj hanswer]
  rfl

end Batch

end EventsManager

end DepthaiCore
