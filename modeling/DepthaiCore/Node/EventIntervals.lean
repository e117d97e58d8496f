import DepthaiCore.Node.PipelineEventAggregation

/-!
# Intervals of one source

The START events of a type and a source have increasing numbers, and the END events come in any
order. An END event is counted if its START event is among the last ones that wait and has not been
counted. The search for it goes through the circular buffer from the newest event on and stops at a
smaller number; the numbers in the buffer decrease, so nothing is missed.

The number that is looked for is narrowed to 32 bits on the way, and the numbers in the buffer are
not. An END event with a wide number is not matched, or with the START event of another number.
-/

namespace DepthaiCore

open PipelineEvent (EventType Interval Status)

/-- What the events of one interval have in common. -/
def PipelineEvent.key (event : PipelineEvent) : EventType × String :=
  (event.type, event.source)

namespace NodeEventAggregation

/-! ### The search -/

section Search

variable {b : CircularBuffer (Option PipelineEvent)} {n : ℤ}

/-- The numbers in a buffer decrease from the newest event to the oldest. -/
def Decreasing (r : List (Option PipelineEvent)) : Prop :=
  ∀ (i j : ℕ) (x y : PipelineEvent), i < j → r[i]? = some (some x) → r[j]? = some (some y) →
    y.sequenceNum < x.sequenceNum

theorem findAt_eq_some_iff (hdec : Decreasing b.recent) {l : List ℕ} (hl : l.Pairwise (· < ·))
    (hinside : ∀ i ∈ l, i < b.buffer.length) {place : ℕ} {start : PipelineEvent} :
    findAt b n (l.map b.reversePlace) = some (place, start) ↔
      ∃ i ∈ l, b.reversePlace i = place ∧ b.recent[i]? = some (some start) ∧
        start.sequenceNum = n := by
  induction l with
  | nil => simp [findAt]
  | cons i l ih =>
    obtain ⟨hi, hl⟩ := List.pairwise_cons.1 hl
    have ih := ih hl fun j hj => hinside j (List.mem_cons_of_mem _ hj)
    rw [List.map_cons, findAt, CircularBuffer.getElem?_reversePlace b
      (hinside i List.mem_cons_self), List.exists_mem_cons_iff]
    cases hevent : b.recent[i]? with
    | none => simpa using ih
    | some slot =>
      cases slot with
      | none => simpa using ih
      | some event =>
        -- no older event has a number as large
        have hsmaller : ∀ j ∈ l, ∀ x : PipelineEvent, b.recent[j]? = some (some x) →
            x.sequenceNum < event.sequenceNum := fun j hj x hx =>
          hdec i j event x (hi j hj) hevent hx
        dsimp only
        split_ifs with heq hlt
        · constructor
          · intro h
            obtain ⟨rfl, rfl⟩ := Prod.mk.inj (Option.some.inj h)
            exact .inl ⟨rfl, rfl, heq⟩
          · rintro (⟨rfl, hstart, -⟩ | ⟨j, hj, -, hstart, hnum⟩)
            · rw [Option.some.inj (Option.some.inj hstart)]
            · have hless := hsmaller j hj start hstart
              omega
        · constructor
          · intro h
            cases h
          · rintro (⟨-, hstart, hnum⟩ | ⟨j, hj, -, hstart, hnum⟩)
            · obtain rfl := Option.some.inj (Option.some.inj hstart)
              exact absurd hnum heq
            · have hless := hsmaller j hj start hstart
              omega
        · rw [ih]
          constructor
          · exact .inr
          · rintro (⟨-, hstart, hnum⟩ | h)
            · obtain rfl := Option.some.inj (Option.some.inj hstart)
              exact absurd hnum heq
            · exact h

/-- **The search finds the event of the narrowed number**, wherever it is. -/
theorem findOngoingEvent_eq_some_iff (hdec : Decreasing b.recent) {place : ℕ}
    {start : PipelineEvent} :
    findOngoingEvent n b = some (place, start) ↔
      ∃ i < b.buffer.length, b.reversePlace i = place ∧ b.recent[i]? = some (some start) ∧
        start.sequenceNum = n % 2 ^ 32 := by
  have hinside : ∀ i ∈ List.range b.buffer.length, i < b.buffer.length := fun i hi =>
    List.mem_range.1 hi
  show findAt b (n % 2 ^ 32) ((List.range b.buffer.length).map b.reversePlace) = _ ↔ _
  rw [findAt_eq_some_iff hdec List.pairwise_lt_range hinside]
  simp only [List.mem_range]

theorem findOngoingEvent_eq_none_iff (hdec : Decreasing b.recent) :
    findOngoingEvent n b = none ↔
      ∀ (i : ℕ) (start : PipelineEvent), b.recent[i]? = some (some start) →
        start.sequenceNum ≠ n % 2 ^ 32 := by
  rw [Option.eq_none_iff_forall_ne_some]
  constructor
  · intro h i start hstart hnum
    have hi : i < b.buffer.length := by
      rw [← CircularBuffer.length_recent]
      exact (List.getElem?_eq_some_iff.1 hstart).1
    exact h _ ((findOngoingEvent_eq_some_iff hdec).2 ⟨i, hi, rfl, hstart, hnum⟩)
  · rintro h ⟨place, start⟩ hfind
    obtain ⟨i, -, -, hstart, hnum⟩ := (findOngoingEvent_eq_some_iff hdec).1 hfind
    exact h i start hstart hnum

end Search

/-! ### What is to be counted -/

section Specification

variable (key : EventType × String)

def IsStart (e : PipelineEvent) : Prop := e.key = key ∧ e.interval = .START

def IsEnd (e : PipelineEvent) : Prop := e.key = key ∧ e.interval = .END

instance : DecidablePred (IsStart key) := fun e =>
  inferInstanceAs (Decidable (e.key = key ∧ e.interval = .START))

instance : DecidablePred (IsEnd key) := fun e =>
  inferInstanceAs (Decidable (e.key = key ∧ e.interval = .END))

/-- The events after the START event of a number, the newest first. -/
def since (n : ℤ) (past : List PipelineEvent) : List PipelineEvent :=
  past.reverse.takeWhile fun e => ¬ (IsStart key e ∧ e.sequenceNum = n)

/-- **An END event is due**: its START event has been seen, fewer than `window` START events came
after it, and no END event of the number. -/
def Due (window : ℕ) (past : List PipelineEvent) (n : ℤ) : Prop :=
  (∃ e ∈ past, IsStart key e ∧ e.sequenceNum = n) ∧
  (since key n past).countP (IsStart key) < window ∧
  ∀ e ∈ since key n past, ¬ (IsEnd key e ∧ e.sequenceNum = n)

instance (window : ℕ) (past : List PipelineEvent) (n : ℤ) : Decidable (Due key window past n) :=
  inferInstanceAs (Decidable (_ ∧ _))

/-- **A stream of START and END events** of one type and source, among events of others. The START
events have increasing numbers. -/
structure Stream (events : List PipelineEvent) : Prop where
  own : ∀ e ∈ events, e.key = key → e.status = .SUCCESS ∧ e.interval ≠ .NONE
  increasing : (events.filter (IsStart key)).Pairwise fun e e' => e.sequenceNum < e'.sequenceNum

/-- No other source has the same buffers. -/
def Alone (events : List PipelineEvent) : Prop :=
  ∀ e ∈ events, e.track = .of key.1 key.2 → e.status = .SUCCESS → e.key = key

/-- The aggregation after some events. -/
def Reached (windowSize window : ℕ) (past : List PipelineEvent) (a : NodeEventAggregation) : Prop :=
  past.foldlM add (init windowSize window) = .ok a

/-- **An event records what it should**: an END event that is due the time since its START event,
and no other event a duration of this type and source. -/
def CountsRight (window : ℕ) (past : List PipelineEvent) (e : PipelineEvent)
    (a : NodeEventAggregation) : Prop :=
  if e.key = key then
    ∃ a', a.add e = .ok a' ∧ Recording a e.track (a.recorded e) a' ∧
      ∀ d, a.recorded e = some d ↔ IsEnd key e ∧ Due key window past e.sequenceNum ∧
        ∃ start ∈ past, IsStart key start ∧ start.sequenceNum = e.sequenceNum ∧
          d = .between start e
  else
    ∀ a', a.add e = .ok a' → a'.tracks (.of key.1 key.2) = a.tracks (.of key.1 key.2)

/-- The number of an END event is not changed by narrowing it, or no START event waits for it or
for what it is narrowed to. -/
def Narrow (window : ℕ) (past : List PipelineEvent) (e : PipelineEvent) : Prop :=
  IsEnd key e → (0 ≤ e.sequenceNum ∧ e.sequenceNum < 2 ^ 32) ∨
    ¬ Due key window past e.sequenceNum ∧ ¬ Due key window past (e.sequenceNum % 2 ^ 32)

/-- An event adds to a buffer of the size of the window. -/
def Writes (window : ℕ) (past : List PipelineEvent) (e : PipelineEvent) : Prop :=
  IsEnd key e ∧ (Due key window past e.sequenceNum ∨ e.type = .INPUT ∧ e.queueSize.isSome)

end Specification

/-! ### What waits -/

section Waiting

variable {key : EventType × String} {window windowSize : ℕ} {past : List PipelineEvent}
  {e : PipelineEvent} {a a' : NodeEventAggregation}

/-- The START event of a number is the last of the events since then. -/
theorem since_append_start (hstart : IsStart key e) :
    since key e.sequenceNum (past ++ [e]) = [] := by
  rw [since, List.reverse_append, List.reverse_singleton, List.singleton_append,
    List.takeWhile_cons_of_neg]
  rw [decide_eq_true_iff, not_not]
  exact ⟨hstart, rfl⟩

theorem since_append {n : ℤ} (hother : ¬ (IsStart key e ∧ e.sequenceNum = n)) :
    since key n (past ++ [e]) = e :: since key n past := by
  rw [since, List.reverse_append, List.reverse_singleton, List.singleton_append,
    List.takeWhile_cons_of_pos]
  · rfl
  · exact decide_eq_true hother

/-- **What waits in the buffer** of a type and source: at each place the START event with as many
others after it, unless it has been counted. -/
structure Waiting (key : EventType × String) (windowSize window : ℕ) (past : List PipelineEvent)
    (a : NodeEventAggregation) : Prop where
  size : a.windowSize = windowSize
  waitWindow : a.eventWaitWindow = window
  eventsBuffer : a.eventsBuffer.maxSize = windowSize
  timings : (a.timings (.of key.1 key.2)).maxSize = windowSize
  queueSizes : QueueSizes a
  ongoing : (a.ongoing (.of key.1 key.2)).maxSize = window
  decreasing : Decreasing (a.ongoing (.of key.1 key.2)).recent
  waiting : ∀ (i : ℕ) start, (a.ongoing (.of key.1 key.2)).recent[i]? = some (some start) ↔
    start ∈ past ∧ IsStart key start ∧
      (since key start.sequenceNum past).countP (IsStart key) = i ∧ i < window ∧
      ∀ e ∈ since key start.sequenceNum past, ¬ (IsEnd key e ∧ e.sequenceNum = start.sequenceNum)

/-- An END event is due if a START event of its number waits. -/
theorem Waiting.due_iff (h : Waiting key windowSize window past a) {n : ℤ} :
    Due key window past n ↔
      ∃ (i : ℕ) (start : PipelineEvent),
        (a.ongoing (.of key.1 key.2)).recent[i]? = some (some start) ∧
          start.sequenceNum = n := by
  constructor
  · rintro ⟨⟨start, hmem, hstart, rfl⟩, hcount, hend⟩
    exact ⟨_, start, (h.waiting _ start).2 ⟨hmem, hstart, rfl, hcount, hend⟩, rfl⟩
  · rintro ⟨i, start, hi, rfl⟩
    obtain ⟨hmem, hstart, hcount, hlt, hend⟩ := (h.waiting i start).1 hi
    exact ⟨⟨start, hmem, hstart, rfl⟩, by rwa [hcount], hend⟩

theorem waiting_init (key : EventType × String) (windowSize window : ℕ) :
    Waiting key windowSize window [] (init windowSize window) := by
  have hongoing : (init windowSize window).ongoing (.of key.1 key.2) = .empty window := by
    cases Track.of key.1 key.2 <;> rfl
  have htimings : (init windowSize window).timings (.of key.1 key.2) = .empty windowSize := by
    cases Track.of key.1 key.2 <;> rfl
  refine ⟨rfl, rfl, rfl, by rw [htimings]; rfl, queueSizes_init _ _, by rw [hongoing]; rfl, ?_, ?_⟩
  · rw [hongoing, CircularBuffer.recent_empty]
    exact fun i j x y _ hx _ => by simp at hx
  · rw [hongoing, CircularBuffer.recent_empty]
    simp

theorem Waiting.maxSize_adds {α : Type} {b t : CircularBuffer α} {value : Option α} {size : ℕ}
    (h : Adds b value t) (hb : b.maxSize = size) : t.maxSize = size := by
  cases value with
  | none => exact (congrArg _ h).trans hb
  | some x => exact (CircularBuffer.maxSize_of_add h).trans hb

theorem track_eq (he : e.key = key) : e.track = .of key.1 key.2 := by
  rw [← he]
  rfl

/-- What an event keeps that leaves the START events where they are. -/
theorem Waiting.of_ongoing (h : Waiting key windowSize window past a)
    (hadd : a.add e = .ok a') (hstart : ¬ IsStart key e)
    (hdec : Decreasing (a'.ongoing (.of key.1 key.2)).recent)
    (hsize : (a'.ongoing (.of key.1 key.2)).maxSize = window)
    (hwaits : ∀ (i : ℕ) start, (a'.ongoing (.of key.1 key.2)).recent[i]? = some (some start) ↔
      (a.ongoing (.of key.1 key.2)).recent[i]? = some (some start) ∧
        ¬ (IsEnd key e ∧ e.sequenceNum = start.sequenceNum)) :
    Waiting key windowSize window (past ++ [e]) a' := by
  have hrecording := recording_of_add hadd
  refine ⟨hrecording.windowSize.trans h.size, hrecording.eventWaitWindow.trans h.waitWindow,
    Waiting.maxSize_adds hrecording.eventsBuffer h.eventsBuffer, ?_,
    queueSizes_of_add h.queueSizes hadd, hsize, hdec, fun i start => ?_⟩
  · by_cases htrack : e.track = .of key.1 key.2
    · exact Waiting.maxSize_adds (htrack ▸ hrecording.timings) h.timings
    · rw [NodeEventAggregation.timings, hrecording.others _ (Ne.symm htrack), hrecording.windowSize]
      exact h.timings
  · rw [hwaits, h.waiting, since_append fun hsame => hstart hsame.1, List.countP_cons_of_neg
      (by simpa using hstart), List.mem_append, List.mem_singleton, List.forall_mem_cons]
    constructor
    · rintro ⟨⟨hmem, hkind, hcount, hlt, hend⟩, hnot⟩
      exact ⟨.inl hmem, hkind, hcount, hlt, hnot, hend⟩
    · rintro ⟨hmem | rfl, hkind, hcount, hlt, hnot, hend⟩
      · exact ⟨⟨hmem, hkind, hcount, hlt, hend⟩, hnot⟩
      · exact absurd hkind hstart

theorem Waiting.other (h : Waiting key windowSize window past a) (hadd : a.add e = .ok a')
    (hkey : e.key ≠ key) (htracks : a'.tracks (.of key.1 key.2) = a.tracks (.of key.1 key.2)) :
    Waiting key windowSize window (past ++ [e]) a' := by
  have hongoing : a'.ongoing (.of key.1 key.2) = a.ongoing (.of key.1 key.2) := by
    rw [NodeEventAggregation.ongoing, htracks, (recording_of_add hadd).eventWaitWindow,
      NodeEventAggregation.ongoing]
  refine h.of_ongoing hadd (fun hstart => hkey hstart.1) (hongoing ▸ h.decreasing)
    (hongoing ▸ h.ongoing) fun i start => ?_
  rw [hongoing]
  exact (and_iff_left fun hend => hkey hend.1.1).symm

theorem Waiting.start (hwindow : 1 ≤ window) (h : Waiting key windowSize window past a)
    (hadd : a.add e = .ok a') (hstart : IsStart key e) (hstatus : e.status = .SUCCESS)
    (hlargest : ∀ e' ∈ past, IsStart key e' → e'.sequenceNum < e.sequenceNum) :
    Waiting key windowSize window (past ++ [e]) a' := by
  have hrecording := recording_of_add hadd
  have hwaits := waits_of_add hstatus (by rw [hstart.2]; decide) hadd
  rw [track_eq hstart.1] at hwaits hrecording
  unfold Waits at hwaits
  rw [hstart.2] at hwaits
  have hrecent := CircularBuffer.recent_of_add hwaits
  rw [h.ongoing] at hrecent
  -- the place of the new event, and the places of the others
  have hzero : (a'.ongoing (.of key.1 key.2)).recent[0]? = some (some e) := by
    rw [hrecent, List.getElem?_take_of_lt hwindow]
    rfl
  have hsucc : ∀ (i : ℕ) start, (a'.ongoing (.of key.1 key.2)).recent[i + 1]? = some (some start) ↔
      i + 1 < window ∧ (a.ongoing (.of key.1 key.2)).recent[i]? = some (some start) := by
    intro i start
    rw [hrecent, List.getElem?_take]
    split_ifs with hlt
    · rw [and_iff_right hlt]
      rfl
    · simp [hlt]
  have hless : ∀ (i : ℕ) start, (a.ongoing (.of key.1 key.2)).recent[i]? = some (some start) →
      start.sequenceNum < e.sequenceNum := by
    intro i start hi
    obtain ⟨hmem, hkind, -⟩ := (h.waiting i start).1 hi
    exact hlargest start hmem hkind
  refine ⟨hrecording.windowSize.trans h.size, hrecording.eventWaitWindow.trans h.waitWindow,
    Waiting.maxSize_adds hrecording.eventsBuffer h.eventsBuffer,
    Waiting.maxSize_adds hrecording.timings h.timings, queueSizes_of_add h.queueSizes hadd,
    (CircularBuffer.maxSize_of_add hwaits).trans h.ongoing, ?_, fun i start => ?_⟩
  · intro i j x y hij hx hy
    obtain ⟨j, rfl⟩ := Nat.exists_eq_succ_of_ne_zero (Nat.ne_zero_of_lt hij)
    have hy := ((hsucc j y).1 hy).2
    cases i with
    | zero =>
      obtain rfl := Option.some.inj (Option.some.inj (hzero.symm.trans hx))
      exact hless j y hy
    | succ i => exact h.decreasing i j x y (Nat.lt_of_succ_lt_succ hij) ((hsucc i x).1 hx).2 hy
  · by_cases hsame : start.sequenceNum = e.sequenceNum
    · -- only the new event has its number
      have hnew : ∀ start', start' ∈ past ++ [e] → IsStart key start' →
          start'.sequenceNum = e.sequenceNum → start' = e := by
        intro start' hmem hkind hnum
        rcases List.mem_append.1 hmem with hold | hlast
        · exact absurd hnum (hlargest start' hold hkind).ne
        · exact List.mem_singleton.1 hlast
      rw [hsame, since_append_start hstart]
      cases i with
      | zero =>
        constructor
        · intro hi
          obtain rfl := Option.some.inj (Option.some.inj (hzero.symm.trans hi))
          exact ⟨List.mem_append_right _ (List.mem_singleton_self _), hstart, rfl, hwindow, nofun⟩
        · rintro ⟨hmem, hkind, -⟩
          rw [hnew start hmem hkind hsame]
          exact hzero
      | succ i =>
        refine iff_of_false (fun hi => ?_) fun hi => by simp at hi
        exact absurd hsame (hless i start ((hsucc i start).1 hi).2).ne
    · have hne : ¬ (IsStart key e ∧ e.sequenceNum = start.sequenceNum) := fun hnum =>
        hsame hnum.2.symm
      rw [since_append hne, List.countP_cons_of_pos (by simpa using hstart), List.mem_append,
        List.mem_singleton, List.forall_mem_cons]
      have hnotEnd : ¬ (IsEnd key e ∧ e.sequenceNum = start.sequenceNum) := fun hnum =>
        hsame hnum.2.symm
      cases i with
      | zero =>
        refine iff_of_false (fun hi => ?_) fun hi => absurd hi.2.2.1 (Nat.succ_ne_zero _)
        exact hsame (congrArg _ (Option.some.inj (Option.some.inj (hzero.symm.trans hi)))).symm
      | succ i =>
        rw [hsucc, h.waiting, Nat.succ_inj]
        constructor
        · rintro ⟨hlt, hmem, hkind, hcount, -, hend⟩
          exact ⟨.inl hmem, hkind, hcount, hlt, hnotEnd, hend⟩
        · rintro ⟨hmem | rfl, hkind, hcount, hlt, -, hend⟩
          · exact ⟨hlt, hmem, hkind, hcount, Nat.lt_of_succ_lt hlt, hend⟩
          · exact absurd rfl hsame

theorem Waiting.unique (h : Waiting key windowSize window past a) {i j : ℕ}
    {x y : PipelineEvent} (hx : (a.ongoing (.of key.1 key.2)).recent[i]? = some (some x))
    (hy : (a.ongoing (.of key.1 key.2)).recent[j]? = some (some y))
    (hnum : x.sequenceNum = y.sequenceNum) : i = j := by
  rcases Nat.lt_trichotomy i j with hij | hij | hij
  · exact absurd hnum (h.decreasing i j x y hij hx hy).ne'
  · exact hij
  · exact absurd hnum (h.decreasing j i y x hij hy hx).ne

theorem Waiting.stop (h : Waiting key windowSize window past a) (hadd : a.add e = .ok a')
    (hend : IsEnd key e) (hstatus : e.status = .SUCCESS) (hnarrow : Narrow key window past e) :
    Waiting key windowSize window (past ++ [e]) a' := by
  have hnotStart : ¬ IsStart key e := fun hstart => by
    have hkind := hstart.2
    rw [hend.2] at hkind
    cases hkind
  have hwaits := waits_of_add hstatus (by rw [hend.2]; decide) hadd
  rw [track_eq hend.1] at hwaits
  unfold Waits at hwaits
  rw [hend.2] at hwaits
  cases hfind : findOngoingEvent e.sequenceNum (a.ongoing (.of key.1 key.2)) with
  | none =>
    rw [hfind] at hwaits
    have hsame : a'.ongoing (.of key.1 key.2) = a.ongoing (.of key.1 key.2) := hwaits
    refine h.of_ongoing hadd hnotStart (hsame ▸ h.decreasing) (hsame ▸ h.ongoing) fun i start => ?_
    rw [hsame]
    refine (and_iff_left_of_imp fun hi hnum => ?_).symm
    rcases hnarrow hend with ⟨hlow, hhigh⟩ | ⟨hdue, -⟩
    · refine (findOngoingEvent_eq_none_iff h.decreasing).1 hfind i start hi ?_
      rw [← hnum.2, Int.emod_eq_of_lt hlow hhigh]
    · exact hdue (h.due_iff.2 ⟨i, start, hi, hnum.2.symm⟩)
  | some found =>
    obtain ⟨place, start₀⟩ := found
    rw [hfind] at hwaits
    obtain ⟨i₀, hlt, rfl, hstart₀, hnum₀⟩ := (findOngoingEvent_eq_some_iff h.decreasing).1 hfind
    have hassign : a'.ongoing (.of key.1 key.2) =
        (a.ongoing (.of key.1 key.2)).assign (CircularBuffer.reversePlace _ i₀) none := hwaits
    have hrecent := CircularBuffer.recent_assign _ hlt none
    rw [← hassign] at hrecent
    have hnum : start₀.sequenceNum = e.sequenceNum := by
      rcases hnarrow hend with ⟨hlow, hhigh⟩ | ⟨-, hdue⟩
      · rw [hnum₀, Int.emod_eq_of_lt hlow hhigh]
      · exact absurd (h.due_iff.2 ⟨i₀, start₀, hstart₀, hnum₀⟩) hdue
    have hwaiting : ∀ (i : ℕ) start,
        (a'.ongoing (.of key.1 key.2)).recent[i]? = some (some start) ↔
        (a.ongoing (.of key.1 key.2)).recent[i]? = some (some start) ∧
          ¬ (IsEnd key e ∧ e.sequenceNum = start.sequenceNum) := by
      intro i start
      rw [hrecent]
      by_cases hi : i₀ = i
      · subst hi
        rw [List.getElem?_set_self (by rwa [CircularBuffer.length_recent])]
        refine iff_of_false (fun hnone => by cases Option.some.inj hnone) fun hold => ?_
        obtain rfl := Option.some.inj (Option.some.inj (hstart₀.symm.trans hold.1))
        exact hold.2 ⟨hend, hnum.symm⟩
      · rw [List.getElem?_set_ne hi]
        refine (and_iff_left_of_imp fun hold hsame => hi ?_).symm
        exact h.unique hstart₀ hold (hnum.trans hsame.2)
    refine h.of_ongoing hadd hnotStart (fun i j x y hij hx hy => ?_) ?_ hwaiting
    · exact h.decreasing i j x y hij ((hwaiting i x).1 hx).1 ((hwaiting j y).1 hy).1
    · rw [hassign]
      exact h.ongoing

theorem Waiting.recorded_end (h : Waiting key windowSize window past a) (hend : IsEnd key e)
    (hstatus : e.status = .SUCCESS) {d : DurationEvent} :
    a.recorded e = some d ↔
      ∃ (i : ℕ) (start : PipelineEvent),
        (a.ongoing (.of key.1 key.2)).recent[i]? = some (some start) ∧
        start.sequenceNum = e.sequenceNum % 2 ^ 32 ∧ d = .between start e := by
  unfold recorded
  rw [if_pos hstatus, hend.2, track_eq hend.1, Option.map_eq_some_iff]
  constructor
  · rintro ⟨⟨place, start⟩, hfind, rfl⟩
    obtain ⟨i, -, -, hi, hnum⟩ := (findOngoingEvent_eq_some_iff h.decreasing).1 hfind
    exact ⟨i, start, hi, hnum, rfl⟩
  · rintro ⟨i, start, hi, hnum, rfl⟩
    have hlt : i < (a.ongoing (.of key.1 key.2)).buffer.length := by
      rw [← CircularBuffer.length_recent]
      exact (List.getElem?_eq_some_iff.1 hi).1
    exact ⟨(_, start), (findOngoingEvent_eq_some_iff h.decreasing).2 ⟨i, hlt, rfl, hi, hnum⟩, rfl⟩

theorem Waiting.start_of_due (h : Waiting key windowSize window past a) {n : ℤ}
    (hunique : ∀ x ∈ past, ∀ y ∈ past, IsStart key x → IsStart key y →
      x.sequenceNum = y.sequenceNum → x = y)
    (hdue : Due key window past n) {start : PipelineEvent} (hmem : start ∈ past)
    (hstart : IsStart key start) (hnum : start.sequenceNum = n) :
    ∃ i : ℕ, (a.ongoing (.of key.1 key.2)).recent[i]? = some (some start) := by
  obtain ⟨i, start', hi, hnum'⟩ := h.due_iff.1 hdue
  obtain ⟨hmem', hstart', -⟩ := (h.waiting i start').1 hi
  rw [hunique start hmem start' hmem' hstart hstart' (hnum.trans hnum'.symm)]
  exact ⟨i, hi⟩

/-- **An END event records what it should** if its number can be narrowed and there is room. -/
theorem Waiting.countsRight_end (h : Waiting key windowSize window past a) (hend : IsEnd key e)
    (hstatus : e.status = .SUCCESS)
    (hunique : ∀ x ∈ past, ∀ y ∈ past, IsStart key x → IsStart key y →
      x.sequenceNum = y.sequenceNum → x = y) :
    CountsRight key window past e a ↔
      Narrow key window past e ∧ (Writes key window past e → 1 ≤ windowSize) := by
  have hinterval : e.interval ≠ .NONE := by
    rw [hend.2]
    decide
  have hexists := exists_add_iff h.queueSizes hstatus hinterval
  rw [h.size, h.eventsBuffer, track_eq hend.1, h.timings, hend.2] at hexists
  rw [CountsRight, if_pos hend.1]
  constructor
  · rintro ⟨a', hadd, -, hcounts⟩
    obtain ⟨hqueue, -, hrecords⟩ := hexists.1 ⟨a', hadd⟩
    -- a wide number is not due: what would be recorded starts with another one
    have hwide : ¬ (0 ≤ e.sequenceNum ∧ e.sequenceNum < 2 ^ 32) →
        ¬ Due key window past e.sequenceNum := by
      intro hrange hdue
      obtain ⟨i, start, hi, hnum⟩ := h.due_iff.1 hdue
      obtain ⟨hmem, hstart, -⟩ := (h.waiting i start).1 hi
      have hrecorded := (hcounts _).2 ⟨hend, hdue, start, hmem, hstart, hnum, rfl⟩
      obtain ⟨j, start', -, hnum', hbetween⟩ := (h.recorded_end hend hstatus).1 hrecorded
      have hsame : start = start' := congrArg DurationEvent.startEvent hbetween
      rw [← hsame, hnum] at hnum'
      exact hrange (by omega)
    refine ⟨fun _ => ?_, ?_⟩
    · by_cases hrange : 0 ≤ e.sequenceNum ∧ e.sequenceNum < 2 ^ 32
      · exact .inl hrange
      · refine .inr ⟨hwide hrange, fun hdue => hwide hrange ?_⟩
        obtain ⟨i, start, hi, hnum⟩ := h.due_iff.1 hdue
        exact ((hcounts _).1 ((h.recorded_end hend hstatus).2 ⟨i, start, hi, hnum, rfl⟩)).2.1
    · rintro ⟨-, hdue | ⟨htype, hsome⟩⟩
      · obtain ⟨i, start, hi, hnum⟩ := h.due_iff.1 hdue
        obtain ⟨hmem, hstart, -⟩ := (h.waiting i start).1 hi
        refine (hrecords rfl ?_).1
        rw [(hcounts _).2 ⟨hend, hdue, start, hmem, hstart, hnum, rfl⟩]
        exact nofun
      · exact hqueue htype nofun hsome
  · rintro ⟨hnarrow, hwrites⟩
    have hcounts : ∀ d, a.recorded e = some d ↔ IsEnd key e ∧ Due key window past e.sequenceNum ∧
        ∃ start ∈ past, IsStart key start ∧ start.sequenceNum = e.sequenceNum ∧
          d = .between start e := by
      intro d
      rw [h.recorded_end hend hstatus]
      constructor
      · rintro ⟨i, start, hi, hnum, rfl⟩
        obtain ⟨hmem, hstart, -⟩ := (h.waiting i start).1 hi
        rcases hnarrow hend with ⟨hlow, hhigh⟩ | ⟨-, hdue⟩
        · rw [Int.emod_eq_of_lt hlow hhigh] at hnum
          exact ⟨hend, h.due_iff.2 ⟨i, start, hi, hnum⟩, start, hmem, hstart, hnum, rfl⟩
        · exact absurd (h.due_iff.2 ⟨i, start, hi, hnum⟩) hdue
      · rintro ⟨-, hdue, start, hmem, hstart, hnum, rfl⟩
        obtain ⟨i, hi⟩ := h.start_of_due hunique hdue hmem hstart hnum
        refine ⟨i, start, hi, ?_, rfl⟩
        rcases hnarrow hend with ⟨hlow, hhigh⟩ | ⟨hnot, -⟩
        · rw [hnum, Int.emod_eq_of_lt hlow hhigh]
        · exact absurd hdue hnot
    obtain ⟨a', hadd⟩ := hexists.2 ⟨fun htype _ hsome => hwrites ⟨hend, .inr ⟨htype, hsome⟩⟩, nofun,
      fun _ hne => by
        obtain ⟨d, hd⟩ := Option.ne_none_iff_exists'.1 hne
        have hpos := hwrites ⟨hend, .inl ((hcounts d).1 hd).2.1⟩
        exact ⟨hpos, hpos⟩⟩
    exact ⟨a', hadd, recording_of_add hadd, hcounts⟩

theorem Waiting.countsRight_start (hwindow : 1 ≤ window)
    (h : Waiting key windowSize window past a) (hstart : IsStart key e)
    (hstatus : e.status = .SUCCESS) : CountsRight key window past e a := by
  have hinterval : e.interval ≠ .NONE := by
    rw [hstart.2]
    decide
  obtain ⟨a', hadd⟩ := (exists_add_iff h.queueSizes hstatus hinterval).2
    ⟨fun _ hne => absurd hstart.2 hne,
      fun _ => by rw [track_eq hstart.1, h.ongoing]; exact hwindow,
      fun hend => by rw [hstart.2] at hend; cases hend⟩
  rw [CountsRight, if_pos hstart.1]
  refine ⟨a', hadd, recording_of_add hadd, fun d =>
    iff_of_false (fun hrecorded => ?_) fun hend => ?_⟩
  · rw [recorded, if_pos hstatus, hstart.2] at hrecorded
    cases hrecorded
  · have hkind := hend.1.2
    rw [hstart.2] at hkind
    cases hkind

end Waiting

/-! ### One END event of a number -/

section Once

variable {key : EventType × String} {window : ℕ} {past : List PipelineEvent} {n : ℤ}

/-- The START event of a number, and what came after it. -/
theorem exists_since (hseen : ∃ e ∈ past, IsStart key e ∧ e.sequenceNum = n) :
    ∃ before start, past = before ++ start :: (since key n past).reverse ∧ IsStart key start ∧
      start.sequenceNum = n := by
  induction past using List.reverseRecOn with
  | nil => simp at hseen
  | append_singleton past e ih =>
    by_cases hlast : IsStart key e ∧ e.sequenceNum = n
    · refine ⟨past, e, ?_, hlast⟩
      rw [← hlast.2, since_append_start hlast.1]
      rfl
    · obtain ⟨e', hmem, he'⟩ := hseen
      rcases List.mem_append.1 hmem with hmem | hmem
      · obtain ⟨before, start, hpast, hstart⟩ := ih ⟨e', hmem, he'⟩
        refine ⟨before, start, ?_, hstart⟩
        rw [since_append hlast, List.reverse_cons, ← List.cons_append, ← List.append_assoc, ← hpast]
      · rw [List.mem_singleton.1 hmem] at he'
        exact absurd he' hlast

/-- The events after a START event with no other one of its number. -/
theorem since_eq {before after : List PipelineEvent} {start : PipelineEvent}
    (hstart : IsStart key start) (hafter : ∀ e ∈ after, ¬ (IsStart key e ∧
      e.sequenceNum = start.sequenceNum)) :
    since key start.sequenceNum (before ++ start :: after) = after.reverse := by
  induction after using List.reverseRecOn with
  | nil => exact since_append_start hstart
  | append_singleton after e ih =>
    have hlast := hafter e (List.mem_append_right _ (List.mem_singleton_self e))
    rw [← List.cons_append, ← List.append_assoc, since_append hlast,
      ih fun e' he' => hafter e' (List.mem_append_left _ he'), List.reverse_append]
    rfl

/-- **An END event is due if no earlier one of its number was.** -/
theorem due_iff (hunique : (past.filter (IsStart key)).Pairwise fun e e' =>
      e.sequenceNum < e'.sequenceNum) :
    Due key window past n ↔ (∃ e ∈ past, IsStart key e ∧ e.sequenceNum = n) ∧
      (since key n past).countP (IsStart key) < window ∧
      ∀ before e after, past = before ++ e :: after → IsEnd key e → e.sequenceNum = n →
        ¬ Due key window before n := by
  refine and_congr_right fun hseen => and_congr_right fun hcount => ?_
  obtain ⟨first, start, hpast, hstart, rfl⟩ := exists_since hseen
  set later := since key start.sequenceNum past with hlater
  -- no other START event has the number
  have hothers : ∀ e ∈ later.reverse, ¬ (IsStart key e ∧ e.sequenceNum = start.sequenceNum) := by
    rintro e he ⟨hkind, hnum⟩
    rw [hpast, List.filter_append, List.pairwise_append, List.filter_cons_of_pos (by simpa),
      List.pairwise_cons] at hunique
    exact absurd hnum
      (hunique.2.1.1 e (List.mem_filter.2 ⟨he, by simpa using hkind⟩)).ne'
  have hfirst : ∀ e ∈ first, ¬ (IsStart key e ∧ e.sequenceNum = start.sequenceNum) := by
    rintro e he ⟨hkind, hnum⟩
    rw [hpast, List.filter_append, List.pairwise_append] at hunique
    exact absurd hnum (hunique.2.2 e (List.mem_filter.2 ⟨he, by simpa using hkind⟩) start
      (List.mem_filter.2 ⟨List.mem_cons_self, by simpa using hstart⟩)).ne
  constructor
  · intro hnone before e after hsplit hend hnum hdue
    obtain ⟨⟨start', hmem', hstart'⟩, -, -⟩ := hdue
    rw [hpast] at hsplit
    rcases List.append_eq_append_iff.1 hsplit with ⟨c, hbefore, hrest⟩ | ⟨c, hbefore, hrest⟩
    · cases c with
      | nil =>
        obtain ⟨rfl, -⟩ := List.cons.inj hrest
        have hkind := hstart.2
        rw [hend.2] at hkind
        cases hkind
      | cons x c =>
        obtain ⟨-, hlater'⟩ := List.cons.inj hrest
        refine hnone e (List.mem_reverse.1 ?_) ⟨hend, hnum⟩
        rw [hlater']
        exact List.mem_append_right _ List.mem_cons_self
    · rw [hbefore] at hfirst
      exact hfirst start' (List.mem_append_left _ hmem') hstart'
  · intro hnone e he hcounted
    -- the first END event of the number
    obtain ⟨e', hfind⟩ : ∃ e', later.reverse.find?
        (fun e => IsEnd key e ∧ e.sequenceNum = start.sequenceNum) = some e' := by
      rw [← Option.isSome_iff_exists, List.find?_isSome]
      exact ⟨e, List.mem_reverse.2 he, decide_eq_true hcounted⟩
    obtain ⟨hend, middle, rest, hsplit, hmiddle⟩ := List.find?_eq_some_iff_append.1 hfind
    have hend := of_decide_eq_true hend
    refine hnone (first ++ start :: middle) e' rest ?_ hend.1 hend.2 ?_
    · rw [hpast, hsplit, List.append_assoc]
      rfl
    have hmem : ∀ x ∈ middle, x ∈ later.reverse := fun x hx => by
      rw [hsplit]
      exact List.mem_append_left _ hx
    refine ⟨⟨start, List.mem_append_right _ List.mem_cons_self, hstart, rfl⟩, ?_, ?_⟩
    · rw [since_eq hstart fun x hx => hothers x (hmem x hx), List.countP_reverse]
      rw [← List.countP_reverse, hsplit, List.countP_append] at hcount
      exact lt_of_le_of_lt (Nat.le_add_right _ _) hcount
    · rw [since_eq hstart fun x hx => hothers x (hmem x hx)]
      intro x hx
      simpa only [Bool.not_eq_true', decide_eq_false_iff_not] using
        hmiddle x (List.mem_reverse.1 hx)

end Once

/-! ### Streams -/

section Streams

variable {key : EventType × String} {window windowSize : ℕ} {past events : List PipelineEvent}
  {e : PipelineEvent} {a a' : NodeEventAggregation}

theorem reached_append_iff :
    Reached windowSize window (past ++ [e]) a' ↔
      ∃ a, Reached windowSize window past a ∧ a.add e = .ok a' := by
  rw [Reached, List.foldlM_append, Loop.bind_eq_ok]
  refine exists_congr fun a => and_congr_right fun _ => ?_
  rw [List.foldlM_cons, Loop.bind_eq_ok]
  constructor
  · rintro ⟨b, hadd, hb⟩
    rw [hadd]
    exact hb
  · intro hadd
    exact ⟨a', hadd, rfl⟩

theorem Stream.largest {rest : List PipelineEvent} (h : Stream key (past ++ e :: rest))
    (hstart : IsStart key e) : ∀ e' ∈ past, IsStart key e' → e'.sequenceNum < e.sequenceNum := by
  intro e' hmem hstart'
  have hpairwise := h.increasing
  rw [List.filter_append, List.pairwise_append] at hpairwise
  refine hpairwise.2.2 e' (List.mem_filter.2 ⟨hmem, by simpa using hstart'⟩) e ?_
  exact List.mem_filter.2 ⟨List.mem_cons_self, by simpa using hstart⟩

theorem Stream.unique {rest : List PipelineEvent} (h : Stream key (past ++ rest)) :
    ∀ x ∈ past, ∀ y ∈ past, IsStart key x → IsStart key y →
      x.sequenceNum = y.sequenceNum → x = y := by
  intro x hx y hy hstartx hstarty hnum
  have hpairwise := h.increasing
  rw [List.filter_append, List.pairwise_append] at hpairwise
  have hmem : ∀ z ∈ past, IsStart key z → z ∈ past.filter (IsStart key) := fun z hz hstart =>
    List.mem_filter.2 ⟨hz, by simpa using hstart⟩
  have hsame : (past.filter (IsStart key)).Pairwise fun x y =>
      x.sequenceNum = y.sequenceNum → x = y :=
    hpairwise.1.imp fun hlt heq => absurd heq hlt.ne
  have hflip : (past.filter (IsStart key)).Pairwise fun x y =>
      y.sequenceNum = x.sequenceNum → y = x :=
    hpairwise.1.imp fun hlt heq => absurd heq hlt.ne'
  exact hsame.forall_of_forall_of_flip (fun _ _ _ => rfl) hflip (hmem x hx hstartx)
    (hmem y hy hstarty) hnum

theorem tracks_of_other (halone : Alone key events) (hmem : e ∈ events) (hkey : e.key ≠ key)
    (hadd : a.add e = .ok a') : a'.tracks (.of key.1 key.2) = a.tracks (.of key.1 key.2) := by
  by_cases hstatus : e.status = .SUCCESS
  · refine (recording_of_add hadd).others _ fun htrack => ?_
    exact hkey (halone e hmem htrack.symm hstatus)
  · rw [(sameTracks_of_add hstatus hadd).tracks]

/-- What waits after some events, if the numbers of the END events among them can be narrowed. -/
theorem waiting_of_reached (hwindow : 1 ≤ window) (hstream : Stream key events)
    (halone : Alone key events)
    (hnarrow : ∀ past e rest, events = past ++ e :: rest → ∀ a, Reached windowSize window past a →
      Waiting key windowSize window past a → IsEnd key e → Narrow key window past e)
    {past rest : List PipelineEvent} (hevents : events = past ++ rest)
    (hreached : Reached windowSize window past a) : Waiting key windowSize window past a := by
  induction past using List.reverseRecOn generalizing a rest with
  | nil =>
    rw [← Except.ok.inj hreached]
    exact waiting_init key windowSize window
  | append_singleton past e ih =>
    obtain ⟨b, hb, hadd⟩ := reached_append_iff.1 hreached
    have hsplit : events = past ++ e :: rest := by
      rw [hevents, List.append_assoc]
      rfl
    have hwaiting := ih hsplit hb
    have hmem : e ∈ events := by
      rw [hsplit]
      exact List.mem_append_right _ List.mem_cons_self
    by_cases hkey : e.key = key
    · obtain ⟨hstatus, hinterval⟩ := hstream.own e hmem hkey
      cases hkind : e.interval with
      | NONE => exact absurd hkind hinterval
      | START =>
        exact hwaiting.start hwindow hadd ⟨hkey, hkind⟩ hstatus
          ((hsplit ▸ hstream).largest ⟨hkey, hkind⟩)
      | END =>
        have hend : IsEnd key e := ⟨hkey, hkind⟩
        exact hwaiting.stop hadd hend hstatus (hnarrow past e rest hsplit b hb hwaiting hend)
    · exact hwaiting.other hadd hkey (tracks_of_other halone hmem hkey hadd)

theorem Waiting.countsRight_iff (hwindow : 1 ≤ window) {rest : List PipelineEvent}
    (hstream : Stream key (past ++ e :: rest)) (halone : Alone key (past ++ e :: rest))
    (h : Waiting key windowSize window past a) :
    CountsRight key window past e a ↔
      Narrow key window past e ∧ (Writes key window past e → 1 ≤ windowSize) := by
  have hmem : e ∈ past ++ e :: rest := List.mem_append_right _ List.mem_cons_self
  by_cases hend : IsEnd key e
  · exact h.countsRight_end hend (hstream.own e hmem hend.1).1 hstream.unique
  · refine iff_of_true ?_ ⟨fun h => absurd h hend, fun h => absurd h.1 hend⟩
    by_cases hkey : e.key = key
    · obtain ⟨hstatus, hinterval⟩ := hstream.own e hmem hkey
      refine h.countsRight_start hwindow ⟨hkey, ?_⟩ hstatus
      cases hkind : e.interval with
      | NONE => exact absurd hkind hinterval
      | START => rfl
      | END => exact absurd ⟨hkey, hkind⟩ hend
    · rw [CountsRight, if_neg hkey]
      exact fun a' hadd => tracks_of_other halone hmem hkey hadd

/-- **When every interval is counted once**: the numbers of the END events can be narrowed, and the
window has room for what is counted. -/
theorem counted_iff (hwindow : 1 ≤ window) (hstream : Stream key events)
    (halone : Alone key events) :
    (∀ past e rest, events = past ++ e :: rest → ∀ a, Reached windowSize window past a →
      CountsRight key window past e a) ↔
    ∀ past e rest, events = past ++ e :: rest → ∀ a, Reached windowSize window past a →
      Narrow key window past e ∧ (Writes key window past e → 1 ≤ windowSize) := by
  constructor
  · intro hcounts past e rest hevents a ha
    have hwaiting := waiting_of_reached hwindow hstream halone
      (fun past e rest hevents a ha hwaiting _ => ((hwaiting.countsRight_iff hwindow
        (hevents ▸ hstream) (hevents ▸ halone)).1 (hcounts past e rest hevents a ha)).1) hevents ha
    exact (hwaiting.countsRight_iff hwindow (hevents ▸ hstream) (hevents ▸ halone)).1
      (hcounts past e rest hevents a ha)
  · intro hnarrow past e rest hevents a ha
    have hwaiting := waiting_of_reached hwindow hstream halone
      (fun past e rest hevents a ha _ _ => (hnarrow past e rest hevents a ha).1) hevents ha
    exact (hwaiting.countsRight_iff hwindow (hevents ▸ hstream) (hevents ▸ halone)).2
      (hnarrow past e rest hevents a ha)

end Streams

/-! ### Wide numbers -/

/-- An event of the main loop. -/
def loopEvent (sequenceNum ts : ℤ) (interval : Interval) : PipelineEvent :=
  ⟨sequenceNum, ts, .SUCCESS, none, interval, .LOOP, "_mainLoop"⟩

/-- Two intervals that overlap. -/
theorem counted_iff_overlapping :
    let events := [loopEvent 1 0 .START, loopEvent 2 1000 .START, loopEvent 1 5000 .END,
      loopEvent 2 9000 .END]
    ∀ past e rest, events = past ++ e :: rest → ∀ a, Reached 4 2 past a →
      CountsRight (.LOOP, "_mainLoop") 2 past e a := by
  intro events
  have hstream : Stream (.LOOP, "_mainLoop") events := ⟨by decide, by decide⟩
  have halone : Alone (.LOOP, "_mainLoop") events := by
    unfold Alone
    decide
  have hsmall : ∀ e ∈ events, 0 ≤ e.sequenceNum ∧ e.sequenceNum < 2 ^ 32 := by decide
  refine (counted_iff (by decide) hstream halone).2 fun past e rest hevents a _ => ⟨fun _ => ?_, ?_⟩
  · exact .inl (hsmall e (by rw [hevents]; exact List.mem_append_right _ List.mem_cons_self))
  · exact fun _ => by decide

/-- **An interval with a wide number is not counted.** -/
theorem not_countsRight_wide :
    let events := [loopEvent (2 ^ 32) 0 .START, loopEvent (2 ^ 32) 5000 .END]
    Stream (.LOOP, "_mainLoop") events ∧ Alone (.LOOP, "_mainLoop") events ∧
      ¬ ∀ past e rest, events = past ++ e :: rest → ∀ a, Reached 100 16 past a →
        CountsRight (.LOOP, "_mainLoop") 16 past e a := by
  intro events
  refine ⟨⟨by decide, by decide⟩, by unfold Alone; decide, fun h => ?_⟩
  obtain ⟨a, ha, hrecorded⟩ : ∃ a, Reached 100 16 [loopEvent (2 ^ 32) 0 .START] a ∧
      a.recorded (loopEvent (2 ^ 32) 5000 .END) = none := by
    refine ⟨_, show [loopEvent (2 ^ 32) 0 .START].foldlM add (init 100 16) = .ok _ from rfl, ?_⟩
    decide
  have hcounts := h [loopEvent (2 ^ 32) 0 .START] (loopEvent (2 ^ 32) 5000 .END) [] rfl a ha
  rw [CountsRight, if_pos (by decide)] at hcounts
  obtain ⟨a', -, -, hcounts⟩ := hcounts
  have hdue : Due (.LOOP, "_mainLoop") 16 [loopEvent (2 ^ 32) 0 .START] (2 ^ 32) := by decide
  have hsome := (hcounts _).2 ⟨by decide, hdue, loopEvent (2 ^ 32) 0 .START, by decide, by decide,
    rfl, rfl⟩
  rw [hrecorded] at hsome
  cases hsome

end NodeEventAggregation

end DepthaiCore
