import DepthaiCore.Utility.TrackerStates

/-!
# The counter of trackers

The counter of trackers is right as long as no tracker is removed twice: then it is the number of
trackers that are not removed, it stays within the limit, and a detection is turned away only when
the limit is reached.

A tracker is removed twice by `configure` when an id is given twice, or when its tracklet is removed
already and the next frame has not come yet. It is removed twice in a frame when it is new and left
without a detection, and is too old as well: that takes a lifespan of no frames, or as many frames
without detections before.
-/

namespace DepthaiCore

namespace ObjectTracker

open ClassState Roster

variable {F : Type}

/-- The trackers of a class: when they were born, and whether they are removed. -/
def ClassState.marks (cs : ClassState F) : List (ℕ × Bool) :=
  cs.trackers.map fun k => (k.birth, k.remove)

/-- The counter is right for these trackers. -/
def CountedBooks (c : Config F) (b : Books) (members : List (ℕ × Bool)) : Prop :=
  Counted c.maxTrackers b.numTrackers b.history members

variable {c : Config F} {cs cs' : ClassState F} {b : Books} {s s' : Books × ClassState F} {idx : ℕ}
  {others : List ℕ} {rest : List (ℕ × Bool)}

theorem marks_prep (cs : ClassState F) : cs.prep.marks = cs.marks.filter fun m => !m.2 := by
  rw [marks, prep, marks, List.filter_map]
  rfl

theorem marks_predict (cs : ClassState F) : cs.predict.marks = cs.marks := by
  rw [marks, predict, marks, List.map_map]
  rfl

theorem marks_set {k k' : KalmanBoxTracker F} (hk : cs.trackers[idx]? = some k)
    (hbirth : k'.birth = k.birth) (hremove : k'.remove = k.remove)
    (tracklets : List (TrackletExt F)) :
    marks { trackers := cs.trackers.set idx k', tracklets } = cs.marks := by
  rw [marks, marks, List.map_set, hbirth, hremove]
  exact set_of_getElem? ((List.getElem?_map ..).trans (by rw [hk]; rfl))

/-- A tracker among all of them, and what it is changed to. -/
theorem marks_perm {k : KalmanBoxTracker F} (hk : cs.trackers[idx]? = some k) :
    ∃ l, cs.marks.Perm ((k.birth, k.remove) :: l) ∧
      ∀ (k' : KalmanBoxTracker F) (tracklets : List (TrackletExt F)),
        (marks { trackers := cs.trackers.set idx k', tracklets }).Perm
          ((k'.birth, k'.remove) :: l) := by
  obtain ⟨hlt, rfl⟩ := List.getElem?_eq_some_iff.1 hk
  refine ⟨(cs.trackers.eraseIdx idx).map fun k => (k.birth, k.remove), ?_, fun k' _ => ?_⟩
  · exact (List.getElem_cons_eraseIdx_perm hlt).symm.map _
  · exact (List.set_perm_cons_eraseIdx hlt k').map _

theorem keeps_counted (hc : c.maxTrackers < 2 ^ 32) (others : List ℕ) (rest : List (ℕ × Bool)) :
    Keeps c others True fun s => CountedBooks c s.1 (s.2.marks ++ rest) where
  prep b cs h := by
    refine Counted.sublist h ?_ ?_
    · rw [marks_prep]
      exact List.filter_sublist.append_right _
    · rw [marks_prep, alive, alive, List.countP_append, List.countP_append, List.countP_filter]
      simp
  predict b cs h := by
    rw [marks_predict]
    exact h
  matched b cs thirdRound d idx cs' h hok := by
    obtain ⟨k, t, status, hk, ht, -, rfl⟩ := matchTracker_eq_ok hok
    dsimp only
    rw [marks_set hk (by rfl) (by rfl)]
    exact h
  lost b cs idx t h ht := h
  removed b cs idx k s' h hk hfirst hok := by
    obtain ⟨k', t, hk', ht, rfl⟩ := removeTracker_eq_ok hok
    obtain rfl : k = k' := Option.some.inj (hk.symm.trans hk')
    obtain ⟨l, hmarks, hset⟩ := marks_perm hk
    rw [hfirst trivial] at hmarks
    have hcounted := Counted.perm h (hmarks.append_right rest)
    have hcount : uint32 (b.numTrackers + (2 ^ 32 - 1)) = b.numTrackers - 1 := by
      have hpos : b.numTrackers = alive (l ++ rest) + 1 := by
        rw [hcounted.count_eq, alive, List.cons_append, List.countP_cons_of_pos (by rfl)]
        rfl
      have hle : b.numTrackers ≤ c.maxTrackers := hcounted.le
      unfold uint32
      omega
    have hset' := (hset { k with remove := true }
      (cs.tracklets.set idx { t with status := .REMOVED })).append_right rest
    exact hcount ▸ Counted.perm hcounted.strike hset'.symm
  created s d h := by
    rw [createTracker]
    split
    case isTrue hlt =>
      have hcount : uint32 (s.1.numTrackers + 1) = s.1.numTrackers + 1 :=
        Nat.mod_eq_of_lt (by omega)
      refine Counted.perm (hcount ▸ Counted.join h hlt _) ?_
      dsimp only [marks]
      rw [List.map_append, List.map_singleton, List.append_assoc, List.singleton_append]
      exact List.perm_middle.symm
    case isFalse hfull => exact Counted.refuse h hfull

theorem spread_counted (hc : c.maxTrackers < 2 ^ 32) : Spread c True marks (CountedBooks c) where
  empty := rfl
  perm _ _ _ hperm h := Counted.perm h hperm
  keeps _ := keeps_counted hc _ _

end ObjectTracker

open ObjectTracker Roster

namespace OCSTracker

variable {F : Type} [LT F] [DecidableLT F] [Zero F]

/-- **The counter is right after every run of safe calls.** It is the number of trackers that are
not removed, and within the limit; no tracker is removed twice; and whenever a detection was turned
away, there were as many trackers as there may be. -/
theorem numTrackers_eq {t₀ t : OCSTracker F} {tr : List (OCSTracker F × TrackerCall F)}
    (h₀ : t₀.state = none) (hrun : Transition.Run step t₀ tr t)
    (hsafe : ∀ p ∈ tr, SafeCall p.1 p.2) {s : State F} (hs : t.state = some s) :
    s.books.numTrackers = alive (State.all ClassState.marks s.classStates) ∧
      s.books.numTrackers ≤ s.config.maxTrackers ∧
      (strikes s.books.history).Nodup ∧
      ∀ before after, s.books.history = before ++ .refused :: after →
        (names before).length = (strikes before).length + s.config.maxTrackers := by
  have hc : t₀.newState.config.maxTrackers < 2 ^ 32 := by
    have hlt := Int.emod_lt_of_pos t₀.maxObjectsToTrack (b := 2 ^ 32) (by decide)
    have hnonneg := Int.emod_nonneg t₀.maxObjectsToTrack (b := 2 ^ 32) (by decide)
    change (t₀.maxObjectsToTrack % 2 ^ 32).toNat < 2 ^ 32
    omega
  obtain ⟨-, hkept⟩ := run_keeps (spread_counted hc) (counted_nil _) h₀ hrun fun _ => hsafe
  obtain ⟨hcounted, -, hconfig⟩ := hkept s hs
  rw [hconfig]
  exact ⟨hcounted.count_eq, hcounted.le, hcounted.strikes_nodup, hcounted.needed⟩

/-- One object is found, its tracklet is removed, and the next frame has nothing. -/
def oneRemoval : List (TrackerCall ℕ) :=
  [.init [⟨7, 90⟩] [(7, { unmatchedDets := [0] })], .configure [0], .update [] [(7, {})]]

theorem numTrackers_eq_oneRemoval : ∃ tr t s, Transition.Run step (ofDefaults 10) tr t ∧
    t.state = some s ∧ s.books.numTrackers = alive (State.all ClassState.marks s.classStates) := by
  have hrun := Transition.Run.of_isSome
    (show (Transition.exec step (ofDefaults 10) oneRemoval).isSome by decide +kernel)
  refine ⟨_, _, _, hrun, rfl, (numTrackers_eq rfl hrun ?_ rfl).1⟩
  intro p hp
  rcases List.mem_cons.1 hp with rfl | hp
  · trivial
  rcases List.mem_cons.1 hp with rfl | hp
  · intro s hs
    cases hs
    intro q hq id hid idx t hidx ht
    obtain rfl := List.mem_singleton.1 hq
    obtain rfl := List.mem_singleton.1 hid
    cases hidx
    cases ht
    exact ⟨rfl, by decide⟩
  · obtain rfl := List.mem_singleton.1 hp
    intro s hs
    cases hs
    intro v hv _ trks htrks m hm
    obtain rfl := List.mem_singleton.1 hv
    cases htrks
    cases hm

/-- An id that is given twice makes the counter of trackers underflow. -/
theorem not_numTrackers_eq : ∃ tr t s, Transition.Run step (ofDefaults 10) tr t ∧ t.state = some s ∧
    s.books.numTrackers = 2 ^ 32 - 1 ∧ alive (State.all ClassState.marks s.classStates) = 0 ∧
    ¬(strikes s.books.history).Nodup := by
  refine ⟨_, _, _, Transition.Run.of_isSome (show (Transition.exec step (ofDefaults 10)
    [.init [⟨7, 90⟩] [(7, { unmatchedDets := [0] })], .configure [0, 0]]).isSome by decide +kernel),
    rfl, ?_⟩
  decide +kernel

end OCSTracker

end DepthaiCore
