import DepthaiCore.Lib.Correspondence
import DepthaiCore.Utility.ObjectTrackerImpl

/-!
# Trackers and their tracklets

The two lists of a class belong together entry by entry. They are created, matched, lost, removed and
dropped in different places, always both at the same index.

A frame is made of a few steps. What each of them keeps, the whole frame keeps (`Keeps`). Removals
are special: a tracker may be removed twice, and then the counter is wrong. `SafeVisit` says when a
frame does not do that, and `SafeRemoval` when a list of ids does not.
-/

namespace DepthaiCore

namespace ObjectTracker

variable {F : Type}

theorem index_eq_ok {α : Type} {l : List α} {i : ℕ} {a : α} :
    index l i = .ok a ↔ l[i]? = some a := by
  rw [index]
  cases l[i]? with
  | none => simp
  | some b => simp

/-! ### Alignment -/

/-- A tracklet tells about a tracker: they were born together, they are removed together, and they
had the same detection last. -/
structure Describes (k : KalmanBoxTracker F) (t : TrackletExt F) : Prop where
  birth : k.birth = t.birth
  remove : k.remove = true ↔ t.status = .REMOVED
  conf : k.conf = t.srcImgDetection.confidence

/-- **Entry `i` of one list describes entry `i` of the other.** -/
def Aligned (cs : ClassState F) : Prop := List.Forall₂ Describes cs.trackers cs.tracklets

theorem set_of_getElem? {α : Type} {l : List α} {i : ℕ} {a : α} (h : l[i]? = some a) :
    l.set i a = l := by
  obtain ⟨hlt, rfl⟩ := List.getElem?_eq_some_iff.1 h
  exact List.set_getElem_self hlt

namespace ClassState

variable {c : Config F} {cs cs' : ClassState F} {b : Books} {s s' : Books × ClassState F} {idx : ℕ}
  {others : List ℕ}

/-! ### What the steps do -/

theorem removeTracker_eq_ok (h : removeTracker b cs idx = .ok s') :
    ∃ k t, cs.trackers[idx]? = some k ∧ cs.tracklets[idx]? = some t ∧
      s' = ({ b with
          numTrackers := uint32 (b.numTrackers + (2 ^ 32 - 1))
          history := b.history ++ [.struck k.birth] },
        { trackers := cs.trackers.set idx { k with remove := true }
          tracklets := cs.tracklets.set idx { t with status := .REMOVED } }) := by
  rw [removeTracker] at h
  split at h
  case h_1 => cases h
  case h_2 k hk =>
    obtain ⟨t, ht, h⟩ := Loop.bind_eq_ok.1 h
    exact ⟨k, t, hk, index_eq_ok.1 ht, (Except.ok.inj h).symm⟩

theorem matchStatus_eq (c : Config F) (status : TrackingStatus) (count : ℤ) :
    matchStatus c status count = status ∨
      (status = .LOST ∨ status = .NEW) ∧ matchStatus c status count = .TRACKED := by
  rw [matchStatus]
  split
  case isTrue hlost => exact .inr ⟨.inl hlost, rfl⟩
  case isFalse =>
    split
    case isTrue hnew => exact .inr ⟨.inr hnew.1, rfl⟩
    case isFalse => exact .inl rfl

theorem matchTracker_eq_ok {thirdRound : Bool} {d : ImgDetection F}
    (h : matchTracker c thirdRound cs d idx = .ok cs') :
    ∃ k t status, cs.trackers[idx]? = some k ∧ cs.tracklets[idx]? = some t ∧
      (status = t.status ∨ (t.status = .LOST ∨ t.status = .NEW) ∧ status = .TRACKED) ∧
      cs' =
        { trackers := cs.trackers.set idx
            { k with conf := d.confidence, timeSinceUpdate := 0, hitStreak := k.hitStreak + 1 }
          tracklets := cs.tracklets.set idx
            { t with age := t.age + 1, srcImgDetection := d, status } } := by
  obtain ⟨k, hk, h⟩ := Loop.bind_eq_ok.1 h
  obtain ⟨t, ht, h⟩ := Loop.bind_eq_ok.1 h
  cases h
  exact ⟨k, t, _, index_eq_ok.1 hk, index_eq_ok.1 ht, matchStatus_eq _ _ _, rfl⟩

/-- A tracker without a detection gets lost, or it is removed if it is new. -/
theorem handleUnmatched_eq_ok {trackOnly : Bool} {m : ℕ}
    (h : handleUnmatched trackOnly s m = .ok s') :
    s' = s ∨
      (∃ t, s.2.tracklets[m]? = some t ∧ t.status = .TRACKED ∧
        s' = (s.1, { s.2 with tracklets := s.2.tracklets.set m { t with status := .LOST } })) ∨
      (trackOnly = false ∧ ∃ k t, s.2.trackers[m]? = some k ∧ s.2.tracklets[m]? = some t ∧
        t.status = .NEW ∧ removeTracker s.1 s.2 m = .ok s') := by
  obtain ⟨k, hk, h⟩ := Loop.bind_eq_ok.1 h
  obtain ⟨t, ht, h⟩ := Loop.bind_eq_ok.1 h
  rw [index_eq_ok] at hk ht
  split at h
  case isTrue =>
    cases h
    exact .inl rfl
  case isFalse htrack =>
    split at h
    case isTrue htracked =>
      cases h
      exact .inr (.inl ⟨t, ht, htracked, rfl⟩)
    case isFalse =>
      split at h
      case isTrue hnew =>
        exact .inr (.inr ⟨Bool.eq_false_iff.2 htrack, k, t, hk, ht, hnew, h⟩)
      case isFalse =>
        cases h
        exact .inl rfl

/-! ### The steps keep the lists aligned -/

theorem aligned_prep (h : Aligned cs) : Aligned cs.prep := by
  refine List.rel_filter (fun k t hkt => ?_) h
  have := hkt.remove
  cases hk : k.remove <;> simp_all

theorem aligned_predict (h : Aligned cs) : Aligned cs.predict :=
  List.forall₂_map_left_iff.2 (h.imp fun _ _ hkt => ⟨hkt.birth, hkt.remove, hkt.conf⟩)

theorem aligned_removeTracker (h : Aligned cs) (hok : removeTracker b cs idx = .ok s') :
    Aligned s'.2 := by
  obtain ⟨k, t, hk, ht, rfl⟩ := removeTracker_eq_ok hok
  have hkt := h.rel_getElem? hk ht
  exact h.set idx ⟨hkt.birth, iff_of_true rfl rfl, hkt.conf⟩

theorem aligned_matchTracker {thirdRound : Bool} {d : ImgDetection F} (h : Aligned cs)
    (hok : matchTracker c thirdRound cs d idx = .ok cs') : Aligned cs' := by
  obtain ⟨k, t, status, hk, ht, hstatus, rfl⟩ := matchTracker_eq_ok hok
  have hkt := h.rel_getElem? hk ht
  refine h.set idx ⟨hkt.birth, hkt.remove.trans ?_, rfl⟩
  rcases hstatus with rfl | ⟨hold, rfl⟩
  · rfl
  · rcases hold with hold | hold <;> simp [hold]

theorem aligned_lost {t : TrackletExt F} (h : Aligned cs) (ht : cs.tracklets[idx]? = some t)
    (htracked : t.status = .TRACKED) :
    Aligned { cs with tracklets := cs.tracklets.set idx { t with status := .LOST } } := by
  refine h.set_right idx fun k hk => ?_
  have hkt := h.rel_getElem? hk ht
  exact ⟨hkt.birth, hkt.remove.trans (by simp [htracked]), hkt.conf⟩

theorem aligned_createTracker (h : Aligned s.2) (d : ImgDetection F) :
    Aligned (createTracker c others s d).2 := by
  rw [createTracker]
  split
  case isTrue =>
    exact List.rel_append h (.cons ⟨rfl, by simp, rfl⟩ .nil)
  case isFalse => exact h

/-! ### Age -/

/-- A tracker that is removed is not too old, so the last loop does not remove it again. -/
def Young (c : Config F) (cs : ClassState F) : Prop :=
  ∀ k ∈ cs.trackers, k.remove = true → (k.timeSinceUpdate : ℤ) ≤ c.maxAge

/-- What is new was new before, and its last update is not longer ago. -/
def Newer (cs₀ cs : ClassState F) : Prop :=
  ∀ (m : ℕ) (k : KalmanBoxTracker F) (t : TrackletExt F), cs.trackers[m]? = some k →
    cs.tracklets[m]? = some t → t.status = .NEW →
    ∃ (k₀ : KalmanBoxTracker F) (t₀ : TrackletExt F), cs₀.trackers[m]? = some k₀ ∧
      cs₀.tracklets[m]? = some t₀ ∧ t₀.status = .NEW ∧ k.timeSinceUpdate ≤ k₀.timeSinceUpdate

theorem newer_refl (cs : ClassState F) : Newer cs cs :=
  fun _ k t hk ht hnew => ⟨k, t, hk, ht, hnew, le_rfl⟩

/-- A change at one index, where what is new was new and is not older. -/
theorem Newer.set {cs₀ : ClassState F} (h : Newer cs₀ cs) {k k' : KalmanBoxTracker F}
    {t t' : TrackletExt F} (hk : cs.trackers[idx]? = some k) (ht : cs.tracklets[idx]? = some t)
    (hnew : t'.status = .NEW → t.status = .NEW) (hle : k'.timeSinceUpdate ≤ k.timeSinceUpdate) :
    Newer cs₀ { trackers := cs.trackers.set idx k', tracklets := cs.tracklets.set idx t' } := by
  intro m k₁ t₁ hk₁ ht₁ hnew₁
  by_cases hm : idx = m
  · subst hm
    rw [List.getElem?_set_self' , hk] at hk₁
    rw [List.getElem?_set_self', ht] at ht₁
    cases hk₁
    cases ht₁
    obtain ⟨k₀, t₀, hk₀, ht₀, hnew₀, hle₀⟩ := h idx k t hk ht (hnew hnew₁)
    exact ⟨k₀, t₀, hk₀, ht₀, hnew₀, hle.trans hle₀⟩
  · rw [List.getElem?_set_ne hm] at hk₁ ht₁
    exact h m k₁ t₁ hk₁ ht₁ hnew₁

theorem Newer.lost {cs₀ : ClassState F} (h : Newer cs₀ cs) {t : TrackletExt F}
    (ht : cs.tracklets[idx]? = some t) :
    Newer cs₀ { cs with tracklets := cs.tracklets.set idx { t with status := .LOST } } := by
  intro m k₁ t₁ hk₁ ht₁ hnew₁
  by_cases hm : idx = m
  · subst hm
    rw [List.getElem?_set_self', ht] at ht₁
    cases ht₁
    cases hnew₁
  · rw [List.getElem?_set_ne hm] at ht₁
    exact h m k₁ t₁ hk₁ ht₁ hnew₁

theorem Young.set (h : Young c cs) {k' : KalmanBoxTracker F} (tracklets : List (TrackletExt F))
    (hk' : k'.remove = true → (k'.timeSinceUpdate : ℤ) ≤ c.maxAge) :
    Young c { trackers := cs.trackers.set idx k', tracklets } := by
  intro k hk
  rcases List.mem_or_eq_of_mem_set hk with hk | rfl
  · exact h k hk
  · exact hk'

theorem young_prep (c : Config F) (cs : ClassState F) : Young c cs.prep.predict := by
  intro k hk hremove
  obtain ⟨k₀, hk₀, rfl⟩ := List.mem_map.1 hk
  have hkept := (List.mem_filter.1 hk₀).2
  simp [predictTracker] at hremove
  simp [hremove] at hkept

end ClassState

open ClassState

/-! ### What a frame keeps -/

section Keeps

/-- An id of a tracklet is given once, and the tracklet is not removed yet. -/
def SafeRemoval (ids : List ℕ) (cs : ClassState F) : Prop :=
  ∀ id ∈ ids, ∀ idx t, (cs.tracklets.findIdx? fun t => t.id = id) = some idx →
    cs.tracklets[idx]? = some t → ids.count id = 1 ∧ t.status ≠ .REMOVED

/-- Every step of a frame keeps a property. Where it is `safe`, no tracker is removed twice. -/
structure Keeps (c : Config F) (others : List ℕ) (safe : Prop)
    (I : Books × ClassState F → Prop) : Prop where
  prep : ∀ b cs, I (b, cs) → I (b, cs.prep)
  predict : ∀ b cs, I (b, cs) → I (b, cs.predict)
  matched : ∀ b cs thirdRound d idx cs', I (b, cs) →
    matchTracker c thirdRound cs d idx = .ok cs' → I (b, cs')
  lost : ∀ b cs idx t, I (b, cs) → cs.tracklets[idx]? = some t →
    I (b, { cs with tracklets := cs.tracklets.set idx { t with status := .LOST } })
  removed : ∀ b cs idx k s', I (b, cs) → cs.trackers[idx]? = some k → (safe → k.remove = false) →
    removeTracker b cs idx = .ok s' → I s'
  created : ∀ s d, I s → I (createTracker c others s d)

/-- The property, and what goes with it during a frame. -/
structure Sound (c : Config F) (safe : Prop) (I : Books × ClassState F → Prop)
    (s : Books × ClassState F) : Prop where
  keep : I s
  aligned : Aligned s.2
  young : safe → Young c s.2

variable {c : Config F} {others : List ℕ} {safe : Prop} {I : Books × ClassState F → Prop}
  {b : Books} {cs cs₀ cs' : ClassState F} {s s' : Books × ClassState F}

theorem Sound.matchAll (hI : Keeps c others safe I) {thirdRound : Bool}
    {dets : List (ImgDetection F)} {pairs : List (ℕ × ℕ)} (h : Sound c safe I (b, cs))
    (hnewer : Newer cs₀ cs) (hok : matchAll c thirdRound dets cs pairs = .ok cs') :
    Sound c safe I (b, cs') ∧ Newer cs₀ cs' := by
  refine Loop.invariant (I := fun _ cs => Sound c safe I (b, cs) ∧ Newer cs₀ cs) ?_ ⟨h, hnewer⟩ hok
  rintro - m - cs cs' - ⟨h, hnewer⟩ hok
  obtain ⟨d, -, hok⟩ := Loop.bind_eq_ok.1 hok
  have hkeep := hI.matched b cs thirdRound d m.2 cs' h.keep hok
  have haligned := aligned_matchTracker h.aligned hok
  obtain ⟨k, t, status, hk, ht, hstatus, rfl⟩ := matchTracker_eq_ok hok
  refine ⟨⟨hkeep, haligned, fun hsafe => (h.young hsafe).set _ fun hremove => ?_⟩,
    hnewer.set hk ht ?_ (Nat.zero_le _)⟩
  · have := h.young hsafe k (List.mem_of_getElem? hk) hremove
    dsimp only
    omega
  · rintro rfl
    rcases hstatus with hstatus | ⟨-, hstatus⟩
    · exact hstatus.symm
    · cases hstatus

theorem Sound.removeTracker (hI : Keeps c others safe I) (h : Sound c safe I s) {idx : ℕ}
    {k : KalmanBoxTracker F} (hk : s.2.trackers[idx]? = some k)
    (hfirst : safe → k.remove = false ∧ (k.timeSinceUpdate : ℤ) ≤ c.maxAge)
    (hok : removeTracker s.1 s.2 idx = .ok s') : Sound c safe I s' := by
  have hkeep := hI.removed s.1 s.2 idx k s' h.keep hk (fun hsafe => (hfirst hsafe).1) hok
  have haligned := aligned_removeTracker h.aligned hok
  obtain ⟨k', t, hk', ht, rfl⟩ := removeTracker_eq_ok hok
  obtain rfl : k = k' := Option.some.inj (hk.symm.trans hk')
  exact ⟨hkeep, haligned, fun hsafe => (h.young hsafe).set _ fun _ => (hfirst hsafe).2⟩

/-- Trackers without a detection are removed only if they are new, and so not removed yet. -/
theorem Sound.handleUnmatched (hI : Keeps c others safe I) {trackOnly : Bool} {trks : List ℕ}
    (h : Sound c safe I s) (hnewer : Newer cs₀ s.2)
    (hsafe : safe → trackOnly = false → ∀ m ∈ trks, ∀ (k : KalmanBoxTracker F) (t : TrackletExt F),
      cs₀.trackers[m]? = some k → cs₀.tracklets[m]? = some t → t.status = .NEW →
      (k.timeSinceUpdate : ℤ) ≤ c.maxAge)
    (hok : trks.foldlM (handleUnmatched trackOnly) s = .ok s') : Sound c safe I s' := by
  refine (Loop.invariant (I := fun _ s => Sound c safe I s ∧ Newer cs₀ s.2) ?_
    ⟨h, hnewer⟩ hok).1
  rintro done m rest s s' hl ⟨h, hnewer⟩ hok
  rcases handleUnmatched_eq_ok hok with
    rfl | ⟨t, ht, htracked, rfl⟩ | ⟨htrack, k, t, hk, ht, hnew, hok⟩
  · exact ⟨h, hnewer⟩
  · exact ⟨⟨hI.lost _ _ m t h.keep ht, aligned_lost h.aligned ht htracked, h.young⟩,
      hnewer.lost ht⟩
  · have hremove : k.remove = false := by
      have hkt := (h.aligned.rel_getElem? hk ht).remove
      rw [← Bool.not_eq_true, hkt, hnew]
      decide
    have hle (hs : safe) : (k.timeSinceUpdate : ℤ) ≤ c.maxAge := by
      obtain ⟨k₀, t₀, hk₀, ht₀, hnew₀, hle₀⟩ := hnewer m k t hk ht hnew
      have := hsafe hs htrack m (hl ▸ List.mem_append_right _ List.mem_cons_self) k₀ t₀ hk₀ ht₀ hnew₀
      omega
    refine ⟨h.removeTracker hI hk (fun hs => ⟨hremove, hle hs⟩) hok, ?_⟩
    obtain ⟨k', t', hk', ht', rfl⟩ := removeTracker_eq_ok hok
    exact hnewer.set hk' ht' (fun hcontra => by cases hcontra) le_rfl

theorem Sound.createTracker (hI : Keeps c others safe I) (new : List (ImgDetection F))
    (h : Sound c safe I s) : Sound c safe I (new.foldl (createTracker c others) s) := by
  induction new generalizing s with
  | nil => exact h
  | cons d new ih =>
    refine ih ⟨hI.created s d h.keep, aligned_createTracker h.aligned d,
      fun hsafe k hk hremove => ?_⟩
    rw [ClassState.createTracker] at hk
    split at hk
    case isTrue =>
      rcases List.mem_append.1 hk with hk | hk
      · exact h.young hsafe k hk hremove
      · rw [List.mem_singleton.1 hk] at hremove
        cases hremove
    case isFalse => exact h.young hsafe k hk hremove

/-- The last loop comes to every tracker once, and what is removed by then is not too old. -/
theorem Sound.expire (hI : Keeps c others safe I) (h : Sound c safe I s)
    (hok : expire c s = .ok s') : I s' ∧ Aligned s'.2 := by
  have hloop := Loop.invariant (I := fun done s => I s ∧ Aligned s.2 ∧
    (safe → ∀ (j : ℕ) (k : KalmanBoxTracker F), j ∉ done → s.2.trackers[j]? = some k →
      k.remove = true → (k.timeSinceUpdate : ℤ) ≤ c.maxAge)) ?_
    ⟨h.keep, h.aligned, fun hsafe j k _ hk => h.young hsafe k (List.mem_of_getElem? hk)⟩ hok
  · exact ⟨hloop.1, hloop.2.1⟩
  · rintro done i rest s s' hl ⟨hkeep, haligned, hyoung⟩ hok
    have hi : i ∉ done := by
      have hnodup : (done ++ i :: rest).Nodup := hl ▸ List.nodup_reverse.2 List.nodup_range
      exact fun hmem => List.disjoint_of_nodup_append hnodup hmem List.mem_cons_self
    obtain ⟨k, hk, hok⟩ := Loop.bind_eq_ok.1 hok
    rw [index_eq_ok] at hk
    split at hok
    case isTrue hold =>
      have hfirst (hsafe : safe) : k.remove = false := by
        by_contra hremove
        have := hyoung hsafe i k hi hk (Bool.eq_true_of_not_eq_false hremove)
        omega
      have hkeep' := hI.removed s.1 s.2 i k s' hkeep hk hfirst hok
      have haligned' := aligned_removeTracker haligned hok
      obtain ⟨_, _, _, _, rfl⟩ := removeTracker_eq_ok hok
      refine ⟨hkeep', haligned', fun hsafe j k' hj hk' hremove => ?_⟩
      have hij : i ≠ j := fun hij => hj (hij ▸ List.mem_append_right _ List.mem_cons_self)
      rw [List.getElem?_set_ne hij] at hk'
      exact hyoung hsafe j k' (fun hmem => hj (List.mem_append_left _ hmem)) hk' hremove
    case isFalse =>
      cases hok
      exact ⟨hkeep, haligned, fun hsafe j k' hj =>
        hyoung hsafe j k' fun hmem => hj (List.mem_append_left _ hmem)⟩

/-! ### Removal by id -/

theorem findIdx?_id (tracklets : List (TrackletExt F)) (id : ℕ) :
    (tracklets.findIdx? fun t => t.id = id) =
      (tracklets.map TrackletExt.id).findIdx? fun id' => id' = id := by
  rw [List.findIdx?_map]
  rfl

/-- **What the steps of a frame keep, a removal by ids keeps.** -/
theorem Keeps.removeTracklets (hI : Keeps c others safe I) (hkeep : I (b, cs))
    (haligned : Aligned cs) {ids : List ℕ} (hsafe : safe → SafeRemoval ids cs)
    (hok : removeTracklets b cs ids = .ok s') : I s' ∧ Aligned s'.2 := by
  -- what has an id that is still to come is as it was
  have hloop := Loop.invariant (I := fun done s => I s ∧ Aligned s.2 ∧
    s.2.tracklets.map TrackletExt.id = cs.tracklets.map TrackletExt.id ∧
    ∀ (j : ℕ) (t : TrackletExt F), t.id ∉ done → s.2.tracklets[j]? = some t →
      cs.tracklets[j]? = some t) ?_ ⟨hkeep, haligned, rfl, fun _ _ _ h => h⟩ hok
  · exact ⟨hloop.1, hloop.2.1⟩
  · rintro done id rest s s' hl ⟨hkeep, haligned, hids, hsame⟩ hok
    cases hidx : s.2.tracklets.findIdx? fun t => t.id = id with
    | none =>
      rw [hidx] at hok
      cases hok
      exact ⟨hkeep, haligned, hids, fun j t ht =>
        hsame j t fun hmem => ht (List.mem_append_left _ hmem)⟩
    | some idx =>
      rw [hidx] at hok
      have haligned' := aligned_removeTracker haligned hok
      obtain ⟨k, t, hk, ht, hs'⟩ := removeTracker_eq_ok hok
      have htid : t.id = id := by
        obtain ⟨hlt, heq, -⟩ := List.findIdx?_eq_some_iff_getElem.1 hidx
        rw [List.getElem?_eq_getElem hlt] at ht
        rw [← Option.some.inj ht]
        exact of_decide_eq_true heq
      have hfirst (hs : safe) : k.remove = false := by
        have hidx₀ : (cs.tracklets.findIdx? fun t => t.id = id) = some idx := by
          rw [findIdx?_id, ← hids, ← findIdx?_id, hidx]
        have hid : id ∈ ids := hl ▸ List.mem_append_right _ List.mem_cons_self
        obtain ⟨t₀, ht₀⟩ : ∃ t₀, cs.tracklets[idx]? = some t₀ := by
          obtain ⟨hlt, -, -⟩ := List.findIdx?_eq_some_iff_getElem.1 hidx₀
          exact ⟨_, List.getElem?_eq_getElem hlt⟩
        obtain ⟨hcount, hstatus⟩ := hsafe hs id hid idx t₀ hidx₀ ht₀
        have hdone : t.id ∉ done := by
          rw [htid]
          rw [hl, List.count_append, List.count_cons_self] at hcount
          exact List.count_eq_zero.1 (by omega)
        obtain rfl : t = t₀ := Option.some.inj ((hsame idx t hdone ht).symm.trans ht₀)
        rw [← Bool.not_eq_true, (haligned.rel_getElem? hk ht).remove]
        exact hstatus
      refine ⟨hI.removed s.1 s.2 idx k s' hkeep hk hfirst hok, haligned', ?_, ?_⟩
      · rw [hs', ← hids, List.map_set]
        exact set_of_getElem? ((List.getElem?_map ..).trans (by rw [ht]; rfl))
      · intro j t' ht' hj
        rw [hs'] at hj
        by_cases hij : idx = j
        · subst hij
          rw [List.getElem?_set_self', ht] at hj
          cases hj
          exact absurd (List.mem_append_right _ (List.mem_singleton.2 htid)) ht'
        · rw [List.getElem?_set_ne hij] at hj
          exact hsame j t' (fun hmem => ht' (List.mem_append_left _ hmem)) hj

end Keeps

/-! ### A frame -/

section Frame

variable [LT F] [DecidableLT F]

/-- The trackers that no round matches. -/
def Association.leftTrackers (a : Association) (c : Config F) (detections : List (ImgDetection F)) :
    Except Failure (List ℕ) := do
  let (_, trks) ← a.secondRound c detections
  let (_, _, trks) ← a.thirdRound trks
  return trks

/-- A new tracker that is left without a detection is removed for that. It is then not too old as
well. -/
def SafeVisit (c : Config F) (detections : List (ImgDetection F)) (trackOnly : Bool)
    (a : Association) (cs : ClassState F) : Prop :=
  trackOnly = false → ∀ trks, a.leftTrackers c detections = .ok trks →
    ∀ m ∈ trks, ∀ k t, cs.prep.trackers[m]? = some k → cs.prep.tracklets[m]? = some t →
      t.status = .NEW → (k.timeSinceUpdate : ℤ) + 1 ≤ c.maxAge

variable {c : Config F} {others : List ℕ} {safe : Prop} {I : Books × ClassState F → Prop}
  {b : Books} {cs : ClassState F} {s' : Books × ClassState F}

/-- **What the steps of a frame keep, a frame keeps.** -/
theorem Keeps.update (hI : Keeps c others safe I) {detections : List (ImgDetection F)}
    {trackOnly : Bool} {a : Association} (hkeep : I (b, cs)) (haligned : Aligned cs)
    (hsafe : safe → SafeVisit c detections trackOnly a cs)
    (hok : ClassState.update c others detections trackOnly a b cs = .ok s') :
    I s' ∧ Aligned s'.2 := by
  obtain ⟨cs₁, hcs₁, hok⟩ := Loop.bind_eq_ok.1 hok
  obtain ⟨⟨pairs₂, trks₂⟩, hround₂, hok⟩ := Loop.bind_eq_ok.1 hok
  obtain ⟨cs₂, hcs₂, hok⟩ := Loop.bind_eq_ok.1 hok
  obtain ⟨⟨pairs₃, dets, trks⟩, hround₃, hok⟩ := Loop.bind_eq_ok.1 hok
  obtain ⟨cs₃, hcs₃, hok⟩ := Loop.bind_eq_ok.1 hok
  obtain ⟨s, hs, hok⟩ := Loop.bind_eq_ok.1 hok
  obtain ⟨new, -, hok⟩ := Loop.bind_eq_ok.1 hok
  have hstart : Sound c safe I (b, cs.prep.predict) :=
    ⟨hI.predict b _ (hI.prep b cs hkeep), aligned_predict (aligned_prep haligned),
      fun _ => young_prep c cs⟩
  obtain ⟨h₁, hnewer₁⟩ := hstart.matchAll hI (newer_refl _) hcs₁
  obtain ⟨h₂, hnewer₂⟩ := h₁.matchAll hI hnewer₁ hcs₂
  obtain ⟨h₃, hnewer₃⟩ := h₂.matchAll hI hnewer₂ hcs₃
  refine ((h₃.handleUnmatched hI hnewer₃ ?_ hs).createTracker hI new).expire hI hok
  intro hs htrack m hm k t hk ht hnew
  have hleft : a.leftTrackers c detections = .ok trks := by
    rw [Association.leftTrackers, hround₂, Loop.ok_bind]
    dsimp only
    rw [hround₃]
    rfl
  obtain ⟨k₀, hk₀, rfl⟩ := Option.map_eq_some_iff.1 ((List.getElem?_map ..).symm.trans hk)
  have := hsafe hs htrack trks hleft m hm k₀ t hk₀ ht hnew
  rw [predictTracker]
  push_cast
  exact this

end Frame

end ObjectTracker

end DepthaiCore
