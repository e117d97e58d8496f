import Mathlib.Algebra.Order.Ring.Int
import DepthaiCore.Lib.Loops
import DepthaiCore.Lib.Roster

/-!
# The object tracker

The tracker follows objects from frame to frame. For every class of objects it keeps a list of
trackers, which predict where an object is, and a list of tracklets, which are what it tells about
them. The classes share a counter of trackers, of which there may be so many, and a counter of ids.

Which detection belongs to which tracker is found out by geometry in floating point. Here it is an
outcome (`Association`), which a frame brings with it; confidences are of any type with an order. The
trackers and tracklets keep what the bookkeeping reads.

Trackers and tracklets have a number, `birth`, which is not in the source: how many trackers there
have been before. The log of births, removals and refusals (`history`) is not in the source either.
-/

namespace DepthaiCore

inductive TrackerIdAssignmentPolicy
  | UNIQUE_ID | SMALLEST_ID
  deriving DecidableEq, Repr

namespace ObjectTracker

inductive TrackingStatus
  | NEW | TRACKED | LOST | REMOVED
  deriving DecidableEq, Repr

/-- How a call fails: the tracker is not initialized, an index is out of bounds in `remove_tracker`,
or an association has an index outside its vector. -/
inductive Failure
  | notInitialized
  | indexOutOfBounds
  | outside
  deriving DecidableEq, Repr

/-- A number as a `uint32_t`. -/
def uint32 (n : ℕ) : ℕ := n % 2 ^ 32

structure ImgDetection (F : Type) where
  label : ℕ
  confidence : F
  deriving DecidableEq, Repr

structure KalmanBoxTracker (F : Type) where
  timeSinceUpdate : ℕ := 0
  hitStreak : ℕ := 0
  conf : F
  remove : Bool := false
  birth : ℕ
  deriving DecidableEq, Repr

/-- `TrackletExt`. The id is kept as a `uint32_t`. -/
structure TrackletExt (F : Type) where
  id : ℕ
  age : ℕ := 1
  status : TrackingStatus := .NEW
  srcImgDetection : ImgDetection F
  birth : ℕ
  deriving DecidableEq, Repr

/-- What `State` has that does not change. `lowConfidence` is the constant `0.1`. -/
structure Config (F : Type) where
  detThresh : F
  lowConfidence : F
  maxAge : ℤ
  minHits : ℤ
  useByte : Bool
  idAssignmentPolicy : TrackerIdAssignmentPolicy
  trackByClass : Bool
  maxTrackers : ℕ
  deriving DecidableEq, Repr

/-- What the classes of a `State` share. -/
structure Books where
  numTrackers : ℕ := 0
  maxId : ℕ := 0
  history : List (RosterEvent ℕ) := []
  deriving DecidableEq, Repr

structure ClassState (F : Type) where
  trackers : List (KalmanBoxTracker F) := []
  tracklets : List (TrackletExt F) := []
  deriving DecidableEq, Repr

/-- Which detection belongs to which tracker. First what `associate` returns: pairs of a detection
and a tracker, and what is left of both. Then, for the two rounds after it, the pairs of a row and a
column that are accepted; a round without any overlap is skipped. -/
structure Association where
  matched : List (ℕ × ℕ) := []
  unmatchedDets : List ℕ := []
  unmatchedTrks : List ℕ := []
  second : Option (List (ℕ × ℕ)) := none
  third : Option (List (ℕ × ℕ)) := none
  deriving DecidableEq, Repr

/-- `l[i]`. -/
def index {α : Type} (l : List α) (i : ℕ) : Except Failure α :=
  match l[i]? with
  | some a => .ok a
  | none => .error .outside

/-! ### Ids -/

/-- The loop over the sorted ids. -/
def smallestId : ℕ → List ℕ → ℕ
  | id, [] => id
  | id, t :: ids => if t ≠ id then id else smallestId (id + 1) ids

/-- `get_next_id`, with the ids of all tracklets: the id and the new `max_id`. -/
def getNextId (policy : TrackerIdAssignmentPolicy) (maxId : ℕ) (ids : List ℕ) : ℕ × ℕ :=
  match policy with
  | .UNIQUE_ID => (maxId, uint32 (maxId + 1))
  | .SMALLEST_ID =>
    let id := smallestId 0 (ids.mergeSort (· ≤ ·))
    (id, if id ≥ maxId then uint32 (id + 1) else maxId)

namespace ClassState

variable {F : Type}

/-! ### Trackers of one class -/

def prep (cs : ClassState F) : ClassState F where
  trackers := cs.trackers.filter fun k => !k.remove
  tracklets := cs.tracklets.filter fun t => t.status ≠ .REMOVED

/-- `KalmanBoxTracker::predict`. -/
def predictTracker (k : KalmanBoxTracker F) : KalmanBoxTracker F :=
  { k with
    hitStreak := if k.timeSinceUpdate > 0 then 0 else k.hitStreak
    timeSinceUpdate := k.timeSinceUpdate + 1 }

def predict (cs : ClassState F) : ClassState F :=
  { cs with trackers := cs.trackers.map predictTracker }

def removeTracker (b : Books) (cs : ClassState F) (idx : ℕ) :
    Except Failure (Books × ClassState F) :=
  match cs.trackers[idx]? with
  | none => .error .indexOutOfBounds
  | some k => do
    let t ← index cs.tracklets idx
    return ({ b with
      numTrackers := uint32 (b.numTrackers + (2 ^ 32 - 1))
      history := b.history ++ [.struck k.birth] },
      { trackers := cs.trackers.set idx { k with remove := true }
        tracklets := cs.tracklets.set idx { t with status := .REMOVED } })

def removeTracklets (b : Books) (cs : ClassState F) (ids : List ℕ) :
    Except Failure (Books × ClassState F) :=
  ids.foldlM (fun s id =>
    match s.2.tracklets.findIdx? fun t => t.id = id with
    | some idx => removeTracker s.1 s.2 idx
    | none => .ok s) (b, cs)

/-- The status after a match. -/
def matchStatus (c : Config F) (status : TrackingStatus) (count : ℤ) : TrackingStatus :=
  if status = .LOST then .TRACKED
  else if status = .NEW ∧ count ≥ c.minHits then .TRACKED
  else status

/-- A tracker and its tracklet get a detection. The third round asks for hits in a row, where the
others ask for the age. -/
def matchTracker (c : Config F) (thirdRound : Bool) (cs : ClassState F) (d : ImgDetection F)
    (idx : ℕ) : Except Failure (ClassState F) := do
  let k ← index cs.trackers idx
  let t ← index cs.tracklets idx
  let k := { k with conf := d.confidence, timeSinceUpdate := 0, hitStreak := k.hitStreak + 1 }
  let t := { t with age := t.age + 1, srcImgDetection := d }
  let status := matchStatus c t.status (if thirdRound then k.hitStreak else t.age)
  return { trackers := cs.trackers.set idx k, tracklets := cs.tracklets.set idx { t with status } }

/-- A round of matches. -/
def matchAll (c : Config F) (thirdRound : Bool) (dets : List (ImgDetection F))
    (cs : ClassState F) (pairs : List (ℕ × ℕ)) : Except Failure (ClassState F) :=
  pairs.foldlM (fun cs m => do matchTracker c thirdRound cs (← index dets m.1) m.2) cs

/-- A tracker without a detection. -/
def handleUnmatched (trackOnly : Bool) (s : Books × ClassState F) (m : ℕ) :
    Except Failure (Books × ClassState F) := do
  let _ ← index s.2.trackers m
  let t ← index s.2.tracklets m
  if trackOnly then return s
  else if t.status = .TRACKED then
    return (s.1, { s.2 with tracklets := s.2.tracklets.set m { t with status := .LOST } })
  else if t.status = .NEW then removeTracker s.1 s.2 m
  else return s

/-- A detection without a tracker. `others` are the ids of the other classes. -/
def createTracker (c : Config F) (others : List ℕ) (s : Books × ClassState F) (d : ImgDetection F) :
    Books × ClassState F :=
  let birth := (Roster.names s.1.history).length
  if s.1.numTrackers < c.maxTrackers then
    let (id, maxId) :=
      getNextId c.idAssignmentPolicy s.1.maxId (others ++ s.2.tracklets.map TrackletExt.id)
    ({ numTrackers := uint32 (s.1.numTrackers + 1)
       maxId := maxId
       history := s.1.history ++ [.joined birth id] },
     { trackers := s.2.trackers ++ [{ conf := d.confidence, birth }]
       tracklets := s.2.tracklets ++ [{ id, srcImgDetection := d, birth }] })
  else ({ s.1 with history := s.1.history ++ [.refused] }, s.2)

/-- The last loop: dead trackers are removed. -/
def expire (c : Config F) (s : Books × ClassState F) : Except Failure (Books × ClassState F) :=
  (List.range s.2.trackers.length).reverse.foldlM (fun s i => do
    let k ← index s.2.trackers i
    if (k.timeSinceUpdate : ℤ) > c.maxAge then removeTracker s.1 s.2 i else return s) s

end ClassState

/-! ### A frame -/

section Frame

variable {F : Type} [LT F] [DecidableLT F]

/-- `dets_first`. -/
def detsFirst (c : Config F) (detections : List (ImgDetection F)) : List (ImgDetection F) :=
  detections.filter fun d => c.detThresh < d.confidence

/-- `dets_second`. -/
def detsSecond (c : Config F) (detections : List (ImgDetection F)) : List (ImgDetection F) :=
  detections.filter fun d => c.lowConfidence < d.confidence ∧ d.confidence < c.detThresh

/-- A sorted list without the elements of another one, as `std::set_difference` makes it. -/
def setDifference (l removed : List ℕ) : List ℕ := (l.mergeSort (· ≤ ·)).diff removed

namespace Association

/-- The second round: the pairs of a detection and a tracker, and the trackers that are left. -/
def secondRound (a : Association) (c : Config F) (detections : List (ImgDetection F)) :
    Except Failure (List (ℕ × ℕ) × List ℕ) :=
  if c.useByte ∧ detsSecond c detections ≠ [] ∧ a.unmatchedTrks ≠ [] then
    match a.second with
    | none => .ok ([], a.unmatchedTrks)
    | some accepted => do
      let pairs ← accepted.mapM fun m => do return (m.1, ← index a.unmatchedTrks m.2)
      return (pairs, setDifference a.unmatchedTrks (pairs.map Prod.snd))
  else .ok ([], a.unmatchedTrks)

/-- The third round: the pairs, and the detections and trackers that are left. -/
def thirdRound (a : Association) (trks : List ℕ) :
    Except Failure (List (ℕ × ℕ) × List ℕ × List ℕ) :=
  if a.unmatchedDets ≠ [] ∧ trks ≠ [] then
    match a.third with
    | none => .ok ([], a.unmatchedDets, trks)
    | some accepted => do
      let pairs ← accepted.mapM fun m => do
        return (← index a.unmatchedDets m.1, ← index trks m.2)
      return (pairs, setDifference a.unmatchedDets (pairs.map Prod.fst),
        setDifference trks (pairs.map Prod.snd))
  else .ok ([], a.unmatchedDets, trks)

end Association

def ClassState.update (c : Config F) (others : List ℕ) (detections : List (ImgDetection F))
    (trackOnly : Bool) (a : Association) (b : Books) (cs : ClassState F) :
    Except Failure (Books × ClassState F) := do
  let first := detsFirst c detections
  let cs ← cs.prep.predict.matchAll c false first a.matched
  let (pairs, trks) ← a.secondRound c detections
  let cs ← cs.matchAll c false (detsSecond c detections) pairs
  let (pairs, dets, trks) ← a.thirdRound trks
  let cs ← cs.matchAll c true first pairs
  let s ← trks.foldlM (handleUnmatched trackOnly) (b, cs)
  let new ← dets.mapM (index first)
  expire c (new.foldl (createTracker c others) s)

/-- `OCSTracker::State`. The classes are in any order, each once. -/
structure State (F : Type) where
  config : Config F
  books : Books := {}
  classStates : List (ℕ × ClassState F) := []
  deriving DecidableEq, Repr

namespace State

variable (s : State F)

/-- The class of a detection. -/
def classOf (d : ImgDetection F) : ℕ := if s.config.trackByClass then d.label else 0

/-- The keys of `dets_map`: the classes that there are, and those of the detections. -/
def detsKeys (detections : List (ImgDetection F)) : List ℕ :=
  (s.classStates.map Prod.fst ++ detections.map s.classOf).dedup

/-- The state of a class, which is made if there is none. -/
def classAt (key : ℕ) : ClassState F := (s.classStates.lookup key).getD {}

/-- The other classes. -/
def others (key : ℕ) : List (ℕ × ClassState F) := s.classStates.filter fun p => p.1 ≠ key

/-- The ids of some classes. -/
def idsOf (l : List (ℕ × ClassState F)) : List ℕ :=
  l.flatMap fun p => p.2.tracklets.map TrackletExt.id

/-- The update of one class. -/
def visit (detections : List (ImgDetection F)) (trackOnly : Bool) (v : ℕ × Association) :
    Except Failure (State F) := do
  let (books, cs) ← ClassState.update s.config (idsOf (s.others v.1))
    (detections.filter fun d => s.classOf d = v.1) trackOnly v.2 s.books (s.classAt v.1)
  return { s with books, classStates := (v.1, cs) :: s.others v.1 }

/-- `State::update`: the classes are visited in any order. -/
def update (detections : List (ImgDetection F)) (trackOnly : Bool)
    (visits : List (ℕ × Association)) : Except Failure (State F) :=
  if (visits.map Prod.fst).Perm (s.detsKeys detections) then
    visits.foldlM (fun s v => s.visit detections trackOnly v) s
  else .error .outside

/-- `State::remove_tracklets`. -/
def removeTracklets (ids : List ℕ) : Except Failure (State F) := do
  let (books, classStates) ← s.classStates.foldlM (fun r p => do
    let (books, cs) ← p.2.removeTracklets r.1 ids
    return (books, r.2 ++ [(p.1, cs)])) (s.books, [])
  return { s with books, classStates }

end State

end Frame

end ObjectTracker

/-! ### The calls -/

open ObjectTracker

/-- `OCSTracker`. `tenth` is the constant `0.1`. -/
structure OCSTracker (F : Type) where
  maxObjectsToTrack : ℤ
  trackerIdAssignmentPolicy : TrackerIdAssignmentPolicy
  trackingPerClass : Bool
  trackletMaxLifespan : ℕ
  trackletBirthThreshold : ℕ
  tenth : F
  state : Option (State F) := none
  deriving DecidableEq, Repr

/-- A tracker with the default properties. -/
def OCSTracker.ofDefaults {F : Type} (tenth : F) : OCSTracker F where
  maxObjectsToTrack := 60
  trackerIdAssignmentPolicy := .UNIQUE_ID
  trackingPerClass := true
  trackletMaxLifespan := 120
  trackletBirthThreshold := 3
  tenth := tenth

/-- The calls of a tracker, with the outcomes for the classes in the order of the map. -/
inductive TrackerCall (F : Type)
  | init (detections : List (ObjectTracker.ImgDetection F)) (visits : List (ℕ × Association))
  | update (detections : List (ObjectTracker.ImgDetection F)) (visits : List (ℕ × Association))
  | track (visits : List (ℕ × Association))
  | configure (trackletIdsToRemove : List ℕ)
  deriving DecidableEq, Repr

namespace OCSTracker

variable {F : Type} [LT F] [DecidableLT F] [Zero F] (t : OCSTracker F)

/-- The `State` that `init` makes. The conversions to `int` and `uint32_t` wrap around. -/
def newState : State F where
  config :=
    { detThresh := 0
      lowConfidence := t.tenth
      maxAge := Int.bmod t.trackletMaxLifespan (2 ^ 32)
      minHits := Int.bmod t.trackletBirthThreshold (2 ^ 32)
      useByte := true
      idAssignmentPolicy := t.trackerIdAssignmentPolicy
      trackByClass := t.trackingPerClass
      maxTrackers := (t.maxObjectsToTrack % 2 ^ 32).toNat }

/-- The state, or the exception that there is none. -/
def getState : Except ObjectTracker.Failure (State F) :=
  match t.state with
  | some s => .ok s
  | none => .error .notInitialized

def call : TrackerCall F → Except ObjectTracker.Failure (OCSTracker F)
  | .init detections visits => do
    return { t with state := some (← t.newState.update detections false visits) }
  | .update detections visits => do
    return { t with state := some (← (← t.getState).update detections false visits) }
  | .track visits => do
    return { t with state := some (← (← t.getState).update [] true visits) }
  | .configure trackletIdsToRemove => do
    return { t with state := some (← (← t.getState).removeTracklets trackletIdsToRemove) }

/-- A call as a step. A tracker that is not initialized throws and stays as it is. -/
def step (t : OCSTracker F) (c : TrackerCall F) : Option (OCSTracker F) :=
  match t.call c with
  | .ok t' => some t'
  | .error .notInitialized => some t
  | .error _ => none

end OCSTracker

end DepthaiCore
