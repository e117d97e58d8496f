import Mathlib.Data.List.Dedup
import DepthaiCore.Lib.Runs
import DepthaiCore.Utility.TrackletAlignment

/-!
# The classes of a tracker together

What the classes have is put together to one list, in any order. A property of the shared counters
and of such a list (`Spread`), which the steps of a frame keep whichever class they are about, is
kept by every call, and so it holds after every run of calls.
-/

namespace DepthaiCore

namespace ObjectTracker

variable {F β : Type}

/-- What the classes have, put together. -/
def State.all (f : ClassState F → List β) (l : List (ℕ × ClassState F)) : List β :=
  l.flatMap fun p => f p.2

/-- A property of the shared counters and of all that the classes have. -/
structure Spread (c : Config F) (safe : Prop) (f : ClassState F → List β)
    (P : Books → List β → Prop) : Prop where
  empty : f {} = []
  perm : ∀ b l l', l.Perm l' → P b l → P b l'
  keeps : ∀ rest : List (ℕ × ClassState F),
    Keeps c (State.idsOf rest) safe fun s => P s.1 (f s.2 ++ State.all f rest)

namespace State

variable {s s' : State F} {f : ClassState F → List β} {P : Books → List β → Prop} {safe : Prop}
  {key : ℕ}

/-- Every class has one state, and its lists are aligned. -/
structure Wf (s : State F) : Prop where
  nodup : (s.classStates.map Prod.fst).Nodup
  aligned : ∀ p ∈ s.classStates, Aligned p.2

theorem all_cons (f : ClassState F → List β) (p : ℕ × ClassState F) (l : List (ℕ × ClassState F)) :
    all f (p :: l) = f p.2 ++ all f l :=
  List.flatMap_cons

theorem all_append (f : ClassState F → List β) (l l' : List (ℕ × ClassState F)) :
    all f (l ++ l') = all f l ++ all f l' :=
  List.flatMap_append

/-- One class and the others: either there is no such class yet, or it is taken out. -/
theorem classAt_cases (hnodup : (s.classStates.map Prod.fst).Nodup) (key : ℕ) :
    (s.classAt key = {} ∧ s.others key = s.classStates) ∨
      ∃ l₁ l₂, s.classStates = l₁ ++ (key, s.classAt key) :: l₂ ∧ s.others key = l₁ ++ l₂ := by
  cases hlookup : s.classStates.lookup key with
  | none =>
    refine .inl ⟨by rw [classAt, hlookup]; rfl, List.filter_eq_self.2 fun p hp => ?_⟩
    have hne := List.lookup_eq_none_iff.1 hlookup p hp
    exact decide_eq_true (bne_iff_ne.1 hne).symm
  | some cs =>
    obtain ⟨l₁, l₂, hl, hl₁⟩ := List.lookup_eq_some_iff.1 hlookup
    have hclass : s.classAt key = cs := by
      rw [classAt, hlookup]
      rfl
    refine .inr ⟨l₁, l₂, by rw [hclass, hl], ?_⟩
    rw [hl, List.map_append, List.map_cons] at hnodup
    have hl₂ := (List.nodup_middle.1 hnodup)
    have hne (p : ℕ × ClassState F) (hp : p ∈ l₁ ++ l₂) : p.1 ≠ key := by
      intro heq
      refine (List.nodup_cons.1 hl₂).1 ?_
      rw [← List.map_append]
      exact List.mem_map.2 ⟨p, hp, heq⟩
    rw [others, hl, List.filter_append, List.filter_cons_of_neg (by simp), ← List.filter_append]
    exact List.filter_eq_self.2 fun p hp => by simpa using hne p hp

theorem classAt_append_others (hempty : f {} = []) (hnodup : (s.classStates.map Prod.fst).Nodup)
    (key : ℕ) : (f (s.classAt key) ++ all f (s.others key)).Perm (all f s.classStates) := by
  rcases classAt_cases hnodup key with ⟨hclass, hothers⟩ | ⟨l₁, l₂, hl, hothers⟩
  · rw [hclass, hothers, hempty]
    rfl
  · rw [hothers, hl, all_append, all_append, all_cons]
    exact List.perm_append_comm_assoc _ _ _

theorem lookup_others {key' : ℕ} (h : key' ≠ key) :
    (s.others key).lookup key' = s.classStates.lookup key' := by
  unfold others
  induction s.classStates with
  | nil => rfl
  | cons p l ih =>
    by_cases hp : p.1 = key
    · have hne : (key' == p.1) = false := beq_false_of_ne (hp ▸ h)
      rw [List.filter_cons_of_neg (by simpa using hp), ih, List.lookup_cons, hne]
    · rw [List.filter_cons_of_pos (by simpa using hp), List.lookup_cons, List.lookup_cons, ih]

theorem aligned_classAt (h : s.Wf) (key : ℕ) : Aligned (s.classAt key) := by
  rcases classAt_cases h.nodup key with ⟨hclass, -⟩ | ⟨l₁, l₂, hl, -⟩
  · rw [hclass]
    exact .nil
  · exact h.aligned (key, s.classAt key) (hl ▸ List.mem_append_right _ List.mem_cons_self)

/-! ### One class is visited -/

theorem Wf.visit (h : s.Wf) {cs : ClassState F} (hcs : Aligned cs) (b : Books) (key : ℕ) :
    Wf { s with books := b, classStates := (key, cs) :: s.others key } where
  nodup := by
    refine List.nodup_cons.2 ⟨fun hmem => ?_, h.nodup.sublist (List.filter_sublist.map _)⟩
    obtain ⟨p, hp, heq⟩ := List.mem_map.1 hmem
    have := (List.mem_filter.1 hp).2
    simp [heq] at this
  aligned p hp := by
    rcases List.mem_cons.1 hp with rfl | hp
    · exact hcs
    · exact h.aligned p (List.mem_of_mem_filter hp)

section Visits

variable [LT F] [DecidableLT F] {detections : List (ImgDetection F)} {trackOnly : Bool}
  {v : ℕ × Association}

theorem visit_eq_ok (h : s.visit detections trackOnly v = .ok s') :
    ∃ r, ClassState.update s.config (idsOf (s.others v.1))
        (detections.filter fun d => s.classOf d = v.1) trackOnly v.2 s.books (s.classAt v.1) =
          .ok r ∧
      s' = { s with books := r.1, classStates := (v.1, r.2) :: s.others v.1 } := by
  obtain ⟨r, hr, h⟩ := Loop.bind_eq_ok.1 h
  cases h
  exact ⟨r, hr, rfl⟩

theorem classAt_visit (h : s.visit detections trackOnly v = .ok s') {key : ℕ} (hkey : key ≠ v.1) :
    s'.classAt key = s.classAt key := by
  obtain ⟨r, -, rfl⟩ := visit_eq_ok h
  rw [classAt, classAt, List.lookup_cons, beq_false_of_ne hkey, lookup_others hkey]

/-- **What the steps keep, a visit keeps.** -/
theorem visit_keeps (hP : Spread s.config safe f P) (hwf : s.Wf)
    (hkeep : P s.books (all f s.classStates))
    (hsafe : safe → SafeVisit s.config (detections.filter fun d => s.classOf d = v.1) trackOnly v.2
      (s.classAt v.1))
    (h : s.visit detections trackOnly v = .ok s') :
    P s'.books (all f s'.classStates) ∧ s'.Wf ∧ s'.config = s.config := by
  obtain ⟨r, hr, rfl⟩ := visit_eq_ok h
  have hclass := hP.perm _ _ _ (classAt_append_others hP.empty hwf.nodup v.1).symm hkeep
  obtain ⟨hkeep', haligned⟩ :=
    (hP.keeps (s.others v.1)).update hclass (aligned_classAt hwf v.1) hsafe hr
  exact ⟨hkeep', hwf.visit haligned r.1 v.1, rfl⟩

/-- **What the steps keep, a frame keeps.** -/
theorem update_keeps (hP : Spread s.config safe f P) (hwf : s.Wf)
    (hkeep : P s.books (all f s.classStates)) {visits : List (ℕ × Association)}
    (hsafe : safe → ∀ v ∈ visits, SafeVisit s.config
      (detections.filter fun d => s.classOf d = v.1) trackOnly v.2 (s.classAt v.1))
    (h : s.update detections trackOnly visits = .ok s') :
    P s'.books (all f s'.classStates) ∧ s'.Wf ∧ s'.config = s.config := by
  rw [State.update] at h
  split at h
  case isTrue hperm =>
    have hvisits : (visits.map Prod.fst).Nodup := hperm.nodup_iff.2 (List.nodup_dedup _)
    have hloop := Loop.invariant (I := fun done r => (P r.books (all f r.classStates) ∧ r.Wf ∧
      r.config = s.config) ∧ ∀ key, key ∉ done.map Prod.fst → r.classAt key = s.classAt key) ?_
      ⟨⟨hkeep, hwf, rfl⟩, fun _ _ => rfl⟩ h
    · exact hloop.1
    · rintro done v rest r r' hl ⟨⟨hkeep, hwf, hconfig⟩, hsame⟩ hok
      have hv : v.1 ∉ done.map Prod.fst := by
        rw [hl, List.map_append, List.map_cons] at hvisits
        exact fun hmem => List.disjoint_of_nodup_append hvisits hmem List.mem_cons_self
      have hclassOf : r.classOf = s.classOf := by
        funext d
        rw [classOf, classOf, hconfig]
      have hround := visit_keeps (hconfig ▸ hP) hwf hkeep (fun hs => ?_) hok
      · refine ⟨⟨hround.1, hround.2.1, hround.2.2.trans hconfig⟩, fun key hkey => ?_⟩
        rw [List.map_append, List.mem_append, not_or] at hkey
        rw [classAt_visit hok fun heq => hkey.2 (List.mem_singleton.2 heq), hsame key hkey.1]
      · rw [hconfig, hclassOf, hsame v.1 hv]
        exact hsafe hs v (hl ▸ List.mem_append_right _ List.mem_cons_self)
  case isFalse => cases h

end Visits

/-! ### Tracklets are removed by id -/

theorem removeTracklets_keeps (hP : Spread s.config safe f P) (hwf : s.Wf)
    (hkeep : P s.books (all f s.classStates)) {ids : List ℕ}
    (hsafe : safe → ∀ p ∈ s.classStates, SafeRemoval ids p.2)
    (h : s.removeTracklets ids = .ok s') :
    P s'.books (all f s'.classStates) ∧ s'.Wf ∧ s'.config = s.config := by
  obtain ⟨r, hr, h⟩ := Loop.bind_eq_ok.1 h
  cases h
  -- what is done and what is left make up all classes
  have hloop := Loop.invariant (I := fun done r => (∀ rest, s.classStates = done ++ rest →
      P r.1 (all f (r.2 ++ rest))) ∧ r.2.map Prod.fst = done.map Prod.fst ∧
      ∀ p ∈ r.2, Aligned p.2) ?_ ⟨fun rest hrest => hrest ▸ hkeep, rfl, fun p hp => by cases hp⟩ hr
  · obtain ⟨hkeep', hkeys, haligned⟩ := hloop
    have hall := hkeep' [] (List.append_nil _).symm
    rw [List.append_nil] at hall
    exact ⟨hall, ⟨hkeys ▸ hwf.nodup, haligned⟩, rfl⟩
  · rintro done p rest r r' hl ⟨hkeep, hkeys, haligned⟩ hok
    obtain ⟨r₁, hr₁, hok⟩ := Loop.bind_eq_ok.1 hok
    cases hok
    have hp : p ∈ s.classStates := hl ▸ List.mem_append_right _ List.mem_cons_self
    have hclass : P r.1 (f p.2 ++ all f (r.2 ++ rest)) := by
      refine hP.perm _ _ _ ?_ (hkeep (p :: rest) hl)
      rw [all_append, all_append, all_cons]
      exact List.perm_append_comm_assoc _ _ _
    obtain ⟨hkeep', haligned'⟩ := (hP.keeps (r.2 ++ rest)).removeTracklets hclass
      (hwf.aligned p hp) (fun hs => hsafe hs p hp) hr₁
    refine ⟨fun rest' hrest => ?_, by rw [List.map_append, List.map_append, hkeys]; rfl, ?_⟩
    · obtain rfl : rest = rest' := by
        rw [hl, List.append_assoc] at hrest
        exact (List.cons.inj (List.append_cancel_left hrest)).2
      refine hP.perm _ _ _ ?_ hkeep'
      rw [List.append_assoc, all_append, all_append, List.singleton_append, all_cons]
      exact List.perm_append_comm_assoc _ _ _
    · intro q hq
      rcases List.mem_append.1 hq with hq | hq
      · exact haligned q hq
      · rw [List.mem_singleton.1 hq]
        exact haligned'

end State

end ObjectTracker

/-! ### Calls and runs -/

open ObjectTracker

namespace OCSTracker

variable {F β : Type} [LT F] [DecidableLT F] [Zero F]

/-- **A call that removes no tracker twice.** The first frame finds no tracker, and a frame that is
only tracked removes what is too old and nothing else. -/
def SafeCall (t : OCSTracker F) : TrackerCall F → Prop
  | .init _ _ => True
  | .update detections visits => ∀ s, t.state = some s → ∀ v ∈ visits, SafeVisit s.config
    (detections.filter fun d => s.classOf d = v.1) false v.2 (s.classAt v.1)
  | .track _ => True
  | .configure trackletIdsToRemove =>
    ∀ s, t.state = some s → ∀ p ∈ s.classStates, SafeRemoval trackletIdsToRemove p.2

variable {t t₀ t' : OCSTracker F} {call : TrackerCall F} {f : ClassState F → List β}
  {P : Books → List β → Prop} {safe : Prop} {tr : List (OCSTracker F × TrackerCall F)}

/-- The state has the property, is well formed and has the constants of the tracker. -/
def Kept (t₀ : OCSTracker F) (f : ClassState F → List β) (P : Books → List β → Prop)
    (t : OCSTracker F) : Prop :=
  t.newState = t₀.newState ∧ ∀ s, t.state = some s →
    P s.books (State.all f s.classStates) ∧ s.Wf ∧ s.config = t₀.newState.config

theorem step_cases (h : t.step call = some t') : t.call call = .ok t' ∨ t' = t := by
  rw [step] at h
  split at h
  case h_1 hcall =>
    cases h
    exact .inl hcall
  case h_2 =>
    cases h
    exact .inr rfl
  case h_3 => cases h

omit [LT F] [DecidableLT F] [Zero F] in
theorem getState_eq_ok {s : State F} : t.getState = .ok s ↔ t.state = some s := by
  rw [getState]
  cases t.state with
  | none => simp
  | some s' => simp

omit [Zero F] in
theorem safeVisit_empty (c : Config F) (detections : List (ObjectTracker.ImgDetection F))
    (trackOnly : Bool) (a : Association) : SafeVisit c detections trackOnly a {} := by
  intro _ trks _ m _ k t hk
  cases hk

omit [LT F] [DecidableLT F] in
theorem Kept.mk_state (ht : t.newState = t₀.newState) {s : State F}
    (hs : P s.books (State.all f s.classStates) ∧ s.Wf ∧ s.config = t₀.newState.config) :
    Kept t₀ f P { t with state := some s } := by
  refine ⟨ht, fun s' hs' => ?_⟩
  cases hs'
  exact hs

theorem call_keeps (hP : Spread t₀.newState.config safe f P) (hempty : P {} [])
    (ht : Kept t₀ f P t) (hsafe : safe → SafeCall t call) (h : t.call call = .ok t') :
    Kept t₀ f P t' := by
  obtain ⟨hnew, hkept⟩ := ht
  cases call with
  | init detections visits =>
    obtain ⟨s, hs, h⟩ := Loop.bind_eq_ok.1 h
    cases h
    have hwf : t.newState.Wf := ⟨List.nodup_nil, fun p hp => by cases hp⟩
    obtain ⟨hkeep, hwf', hconfig⟩ := State.update_keeps (f := f) (P := P) (hnew ▸ hP) hwf hempty
      (fun _ v _ => safeVisit_empty _ _ _ _) hs
    exact .mk_state hnew ⟨hkeep, hwf', hconfig.trans (congrArg State.config hnew)⟩
  | update detections visits =>
    obtain ⟨s, hs, h⟩ := Loop.bind_eq_ok.1 h
    obtain ⟨s', hs', h⟩ := Loop.bind_eq_ok.1 h
    cases h
    rw [getState_eq_ok] at hs
    obtain ⟨hkeep, hwf, hconfig⟩ := hkept s hs
    obtain ⟨hkeep', hwf', hconfig'⟩ := State.update_keeps (f := f) (P := P) (hconfig ▸ hP) hwf hkeep
      (fun hsf => hsafe hsf s hs) hs'
    exact .mk_state hnew ⟨hkeep', hwf', hconfig'.trans hconfig⟩
  | track visits =>
    obtain ⟨s, hs, h⟩ := Loop.bind_eq_ok.1 h
    obtain ⟨s', hs', h⟩ := Loop.bind_eq_ok.1 h
    cases h
    rw [getState_eq_ok] at hs
    obtain ⟨hkeep, hwf, hconfig⟩ := hkept s hs
    obtain ⟨hkeep', hwf', hconfig'⟩ := State.update_keeps (f := f) (P := P) (hconfig ▸ hP) hwf hkeep
      (fun _ v _ htrack => by cases htrack) hs'
    exact .mk_state hnew ⟨hkeep', hwf', hconfig'.trans hconfig⟩
  | configure ids =>
    obtain ⟨s, hs, h⟩ := Loop.bind_eq_ok.1 h
    obtain ⟨s', hs', h⟩ := Loop.bind_eq_ok.1 h
    cases h
    rw [getState_eq_ok] at hs
    obtain ⟨hkeep, hwf, hconfig⟩ := hkept s hs
    obtain ⟨hkeep', hwf', hconfig'⟩ := State.removeTracklets_keeps (f := f) (P := P) (hconfig ▸ hP)
      hwf hkeep (fun hsf => hsafe hsf s hs) hs'
    exact .mk_state hnew ⟨hkeep', hwf', hconfig'.trans hconfig⟩

theorem step_keeps (hP : Spread t₀.newState.config safe f P) (hempty : P {} [])
    (ht : Kept t₀ f P t) (hsafe : safe → SafeCall t call) (h : t.step call = some t') :
    Kept t₀ f P t' := by
  rcases step_cases h with hcall | rfl
  · exact call_keeps hP hempty ht hsafe hcall
  · exact ht

/-- **What the steps of a frame keep holds after every run of calls.** -/
theorem run_keeps (hP : Spread t₀.newState.config safe f P) (hempty : P {} [])
    (h₀ : t₀.state = none) (hrun : Transition.Run step t₀ tr t)
    (hsafe : safe → ∀ p ∈ tr, SafeCall p.1 p.2) : Kept t₀ f P t := by
  refine hrun.invariant_of_forall (G := fun t call => safe → SafeCall t call)
    (fun t call t' hG ht h => step_keeps hP hempty ht hG h) (fun p hp hs => hsafe hs p hp) ?_
  exact ⟨rfl, fun s hs => by rw [h₀] at hs; cases hs⟩

end OCSTracker

end DepthaiCore
