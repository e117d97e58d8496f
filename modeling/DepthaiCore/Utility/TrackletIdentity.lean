import DepthaiCore.Utility.TrackerStates

/-!
# The ids of tracklets

Every tracklet has an id of its own, and it is the tracklet of one tracker. With the policy of unique
ids the ids count the births, and with the policy of smallest ids an id is one that no tracklet has.
Both count from nothing when the tracker is initialized again.
-/

namespace DepthaiCore

namespace ObjectTracker

open ClassState Roster

variable {F γ : Type}

/-! ### The smallest id -/

/-- **The smallest id is not taken.** The ids are sorted and distinct, and the loop has passed all
below the one it is at. -/
theorem smallestId_notMem {id : ℕ} {ids : List ℕ} (hsorted : ids.Pairwise (· < ·))
    (hle : ∀ t ∈ ids, id ≤ t) : smallestId id ids ∉ ids ∧ id ≤ smallestId id ids := by
  induction ids generalizing id with
  | nil => exact ⟨List.not_mem_nil, le_rfl⟩
  | cons t ids ih =>
    obtain ⟨hlt, hsorted⟩ := List.pairwise_cons.1 hsorted
    have ht := hle t List.mem_cons_self
    rw [smallestId]
    split
    case isTrue hne =>
      refine ⟨fun hmem => ?_, le_rfl⟩
      rcases List.mem_cons.1 hmem with heq | hmem
      · exact hne heq.symm
      · have := hlt id hmem
        omega
    case isFalse heq =>
      obtain rfl : t = id := not_not.1 heq
      obtain ⟨hnotMem, hge⟩ := ih hsorted fun t' ht' => hlt t' ht'
      refine ⟨fun hmem => ?_, (Nat.le_succ t).trans hge⟩
      rcases List.mem_cons.1 hmem with heq | hmem
      · exact absurd hge (by rw [heq]; exact Nat.not_succ_le_self t)
      · exact hnotMem hmem

theorem smallestId_mergeSort {ids : List ℕ} (h : ids.Nodup) :
    smallestId 0 (ids.mergeSort (· ≤ ·)) ∉ ids := by
  have hperm := List.mergeSort_perm ids (· ≤ ·)
  have hle : (ids.mergeSort (· ≤ ·)).Pairwise fun m n => decide (m ≤ n) = true :=
    List.pairwise_mergeSort (fun l m n => by simpa using Nat.le_trans)
      (fun m n => by simpa using Nat.le_total m n) ids
  have hsorted : (ids.mergeSort (· ≤ ·)).Pairwise (· < ·) :=
    hle.imp₂ (fun _ _ hle => Nat.lt_of_le_of_ne (of_decide_eq_true hle)) (hperm.nodup_iff.2 h)
  exact fun hmem => (smallestId_notMem hsorted fun _ _ => Nat.zero_le _).1 (hperm.mem_iff.2 hmem)

/-! ### What tracklets keep -/

/-- A property of the counters and of something that tracklets keep all their life. It has to
survive that tracklets are dropped and that a tracklet is born. -/
theorem keeps_tracklets {c : Config F} {others : List ℕ} {g : TrackletExt F → γ}
    (hg : ∀ (t : TrackletExt F) age status d, g { t with age, status, srcImgDetection := d } = g t)
    {P : Books → List γ → Prop} {rest : List γ}
    (hsub : ∀ b l l', l'.Sublist l → P b l → P b l')
    (hbooks : ∀ b b' l, b'.maxId = b.maxId → names b'.history = names b.history → P b l → P b' l)
    (hborn : ∀ b (cs : ClassState F) d numTrackers id maxId, P b (cs.tracklets.map g ++ rest) →
      getNextId c.idAssignmentPolicy b.maxId (others ++ cs.tracklets.map TrackletExt.id) =
        (id, maxId) →
      P ⟨numTrackers, maxId, b.history ++ [.joined (names b.history).length id]⟩
        (g { id, srcImgDetection := d, birth := (names b.history).length } ::
          (cs.tracklets.map g ++ rest)))
    (hperm : ∀ b l l', l.Perm l' → P b l → P b l') :
    Keeps c others False fun s => P s.1 (s.2.tracklets.map g ++ rest) := by
  have hset {cs : ClassState F} {idx : ℕ} {t : TrackletExt F} (ht : cs.tracklets[idx]? = some t)
      (age : ℕ) (status : TrackingStatus) (d : ImgDetection F) :
      (cs.tracklets.set idx { t with age, status, srcImgDetection := d }).map g =
        cs.tracklets.map g := by
    rw [List.map_set, hg]
    exact set_of_getElem? ((List.getElem?_map ..).trans (by rw [ht]; rfl))
  refine ⟨fun b cs h => ?_, fun b cs h => h, ?_, ?_, ?_, ?_⟩
  · exact hsub b _ _ ((List.filter_sublist.map g).append_right rest) h
  · intro b cs thirdRound d idx cs' h hok
    obtain ⟨k, t, status, hk, ht, -, rfl⟩ := matchTracker_eq_ok hok
    rw [hset ht]
    exact h
  · intro b cs idx t h ht
    dsimp only
    rw [hset ht t.age .LOST t.srcImgDetection]
    exact h
  · intro b cs idx k s' h hk _ hok
    obtain ⟨k, t, hk, ht, rfl⟩ := removeTracker_eq_ok hok
    dsimp only
    rw [hset ht t.age .REMOVED t.srcImgDetection]
    exact hbooks b _ _ rfl (by simp) h
  · rintro ⟨b, cs⟩ d h
    by_cases hlt : b.numTrackers < c.maxTrackers
    · rw [createTracker, if_pos hlt]
      dsimp only
      refine hperm _ _ _ ?_ (hborn b cs d _ _ _ h rfl)
      rw [List.map_append, List.map_singleton, List.append_assoc, List.singleton_append]
      exact List.perm_middle.symm
    · rw [createTracker, if_neg hlt]
      exact hbooks b _ _ rfl (by simp) h

/-! ### The two policies -/

/-- Ids that count the births. Below `2 ^ 32` births they are the births. -/
structure CountingIds (b : Books) (l : List (ℕ × ℕ)) : Prop where
  maxId : b.maxId = uint32 (names b.history).length
  names_eq : names b.history = (List.range (names b.history).length).map uint32
  nodup : (l.map Prod.snd).Nodup
  mem : ∀ p ∈ l, p.1 = uint32 p.2 ∧ p.2 < (names b.history).length

theorem CountingIds.perm {b : Books} {l l' : List (ℕ × ℕ)} (h : CountingIds b l)
    (hperm : l.Perm l') : CountingIds b l' :=
  { h with
    nodup := (hperm.map Prod.snd).nodup_iff.1 h.nodup
    mem := fun p hp => h.mem p (hperm.mem_iff.2 hp) }

theorem CountingIds.born {b : Books} {l : List (ℕ × ℕ)} (h : CountingIds b l) (numTrackers : ℕ) :
    CountingIds ⟨numTrackers, uint32 (b.maxId + 1),
        b.history ++ [.joined (names b.history).length b.maxId]⟩
      ((b.maxId, (names b.history).length) :: l) where
  maxId := by
    rw [h.maxId]
    simp [uint32]
  names_eq := by
    rw [names_append, names_joined, List.length_append, List.length_singleton, List.range_succ,
      List.map_append, ← h.names_eq, h.maxId]
    rfl
  nodup := by
    refine List.nodup_cons.2 ⟨fun hmem => ?_, h.nodup⟩
    obtain ⟨p, hp, heq⟩ := List.mem_map.1 hmem
    have := (h.mem p hp).2
    omega
  mem p hp := by
    rw [names_append, names_joined, List.length_append, List.length_singleton]
    rcases List.mem_cons.1 hp with rfl | hp
    · exact ⟨h.maxId, Nat.lt_succ_self _⟩
    · exact ⟨(h.mem p hp).1, Nat.lt_succ_of_lt (h.mem p hp).2⟩

theorem CountingIds.nodup_ids {b : Books} {l : List (ℕ × ℕ)} (h : CountingIds b l)
    (hle : (names b.history).length ≤ 2 ^ 32) : (l.map Prod.fst).Nodup := by
  have heq : l.map Prod.fst = l.map Prod.snd := by
    refine List.map_congr_left fun p hp => ?_
    rw [(h.mem p hp).1]
    exact Nat.mod_eq_of_lt ((h.mem p hp).2.trans_le hle)
  rw [heq]
  exact h.nodup

theorem CountingIds.nodup_names {b : Books} {l : List (ℕ × ℕ)} (h : CountingIds b l)
    (hle : (names b.history).length ≤ 2 ^ 32) : (names b.history).Nodup := by
  rw [h.names_eq]
  refine List.Nodup.map_on (fun m hm n hn heq => ?_) List.nodup_range
  rw [List.mem_range] at hm hn
  rwa [uint32, uint32, Nat.mod_eq_of_lt (hm.trans_le hle), Nat.mod_eq_of_lt (hn.trans_le hle)] at heq

theorem spread_counting {c : Config F} (hc : c.idAssignmentPolicy = .UNIQUE_ID) :
    Spread c False (fun cs => cs.tracklets.map fun t => (t.id, t.birth)) CountingIds where
  empty := rfl
  perm _ _ _ hperm h := h.perm hperm
  keeps rest := by
    refine keeps_tracklets (fun _ _ _ _ => rfl) ?_ ?_ ?_ fun _ _ _ hperm h => h.perm hperm
    · intro b l l' hsub h
      exact { h with
        nodup := h.nodup.sublist (hsub.map Prod.snd)
        mem := fun p hp => h.mem p (hsub.subset hp) }
    · intro b b' l hmaxId hnames h
      refine ⟨?_, ?_, h.nodup, ?_⟩
      · rw [hmaxId, hnames, h.maxId]
      · rw [hnames, ← h.names_eq]
      · rw [hnames]
        exact h.mem
    · intro b cs d numTrackers id maxId h hnext
      rw [hc, getNextId] at hnext
      cases hnext
      exact h.born numTrackers

theorem spread_smallest {c : Config F} (hc : c.idAssignmentPolicy = .SMALLEST_ID) :
    Spread c False (fun cs => cs.tracklets.map TrackletExt.id) fun _ ids => ids.Nodup where
  empty := rfl
  perm _ _ _ hperm h := hperm.nodup_iff.1 h
  keeps rest := by
    refine keeps_tracklets (P := fun _ ids => ids.Nodup) (fun _ _ _ _ => rfl)
      (fun _ _ _ hsub h => h.sublist hsub) (fun _ _ _ _ _ h => h) ?_
      fun _ _ _ hperm h => hperm.nodup_iff.1 h
    intro b cs d numTrackers id maxId h hnext
    have hids : (State.idsOf rest ++ cs.tracklets.map TrackletExt.id).Nodup :=
      (List.perm_append_comm).nodup_iff.1 h
    rw [hc, getNextId] at hnext
    obtain rfl := (Prod.mk.inj hnext).1
    refine List.nodup_cons.2 ⟨fun hmem => smallestId_mergeSort hids ?_, h⟩
    exact List.mem_append.2 (List.mem_append.1 hmem).symm

end ObjectTracker

/-! ### Runs -/

open ObjectTracker Roster

namespace OCSTracker

variable {F : Type} [LT F] [DecidableLT F] [Zero F]

/-- The tracklets that are not removed, of all classes. -/
def aliveTracklets (s : State F) : List (TrackletExt F) :=
  (State.all ClassState.tracklets s.classStates).filter fun t => t.status ≠ .REMOVED

/-- **Tracklet identities.** After every run of calls the two lists of every class are aligned, and
the ids of the tracklets that are not removed are distinct, as long as a counter of ids has not
wrapped around. With unique ids no id is given twice after the tracker was initialized last. -/
theorem tracklet_identities {t₀ t : OCSTracker F} {tr : List (OCSTracker F × TrackerCall F)}
    (h₀ : t₀.state = none) (hrun : Transition.Run step t₀ tr t) {s : State F}
    (hs : t.state = some s) :
    (∀ p ∈ s.classStates, Aligned p.2) ∧
      ((t.trackerIdAssignmentPolicy = .UNIQUE_ID → (names s.books.history).length ≤ 2 ^ 32) →
        ((aliveTracklets s).map TrackletExt.id).Nodup) ∧
      (t.trackerIdAssignmentPolicy = .UNIQUE_ID → (names s.books.history).length ≤ 2 ^ 32 →
        (names s.books.history).Nodup) := by
  have hsub : ((aliveTracklets s).map TrackletExt.id).Sublist
      (State.all (fun cs => cs.tracklets.map TrackletExt.id) s.classStates) := by
    rw [State.all, ← List.map_flatMap]
    exact List.filter_sublist.map _
  cases hpolicy : t₀.trackerIdAssignmentPolicy with
  | UNIQUE_ID =>
    obtain ⟨hnew, hkept⟩ := run_keeps (spread_counting hpolicy)
      ⟨rfl, rfl, List.nodup_nil, fun _ h => by cases h⟩ h₀ hrun fun h => h.elim
    obtain ⟨hids, hwf, -⟩ := hkept s hs
    have ht : t.trackerIdAssignmentPolicy = .UNIQUE_ID :=
      (congrArg (fun s => s.config.idAssignmentPolicy) hnew).trans hpolicy
    refine ⟨hwf.aligned, fun hle => ?_, fun _ hle => hids.nodup_names hle⟩
    have hnodup := hids.nodup_ids (hle ht)
    rw [State.all, List.map_flatMap] at hnodup
    refine List.Nodup.sublist hsub ?_
    simpa [State.all, Function.comp_def] using hnodup
  | SMALLEST_ID =>
    obtain ⟨hnew, hkept⟩ := run_keeps (spread_smallest hpolicy) List.nodup_nil h₀ hrun
      fun h => h.elim
    obtain ⟨hids, hwf, -⟩ := hkept s hs
    have ht : t.trackerIdAssignmentPolicy = .SMALLEST_ID :=
      (congrArg (fun s => s.config.idAssignmentPolicy) hnew).trans hpolicy
    refine ⟨hwf.aligned, fun _ => hids.sublist hsub, fun hunique => ?_⟩
    rw [ht] at hunique
    cases hunique

theorem tracklet_identities_lostAndFound : ∃ tr t s,
    Transition.Run step (ofDefaults (10 : ℕ)) tr t ∧ t.state = some s ∧
      (∀ p ∈ s.classStates, Aligned p.2) ∧ (names s.books.history).Nodup := by
  have hrun := Transition.Run.of_isSome (show (Transition.exec step (ofDefaults (10 : ℕ))
    [.init [⟨7, 90⟩] [(7, { unmatchedDets := [0] })], .track [(7, { unmatchedTrks := [0] })],
      .update [⟨7, 80⟩, ⟨7, 60⟩] [(7, { matched := [(0, 0)], unmatchedDets := [1] })]]).isSome by
    decide +kernel)
  have hids := tracklet_identities rfl hrun rfl
  exact ⟨_, _, _, hrun, rfl, hids.1, hids.2.2 rfl (by decide +kernel)⟩

/-- The ids given over a whole run: before each initialization, and since the last one. -/
def idsGiven (tr : List (OCSTracker F × TrackerCall F)) (t : OCSTracker F) : List ℕ :=
  ((tr.filter fun p => p.2 matches .init _ _).map Prod.fst ++ [t]).flatMap fun t =>
    t.state.elim [] fun s => names s.books.history

/-- A tracker that is initialized again gives the same ids again. -/
theorem not_tracklet_identities : ∃ tr t, Transition.Run step (ofDefaults (10 : ℕ)) tr t ∧
    t.trackerIdAssignmentPolicy = .UNIQUE_ID ∧ (idsGiven tr t).length ≤ 2 ^ 32 ∧
    ¬(idsGiven tr t).Nodup := by
  refine ⟨_, _, Transition.Run.of_isSome (show (Transition.exec step (ofDefaults (10 : ℕ))
    [.init [⟨7, 90⟩] [(7, { unmatchedDets := [0] })],
      .init [⟨7, 90⟩] [(7, { unmatchedDets := [0] })]]).isSome by decide +kernel), ?_⟩
  decide +kernel

end OCSTracker

end DepthaiCore
