import DepthaiCore.Node.PipelineStateMerge
import DepthaiCore.Lib.Loops

/-!
# States of one configuration

The number of configurations that an aggregator has received is the epoch of what it sends. The merge
asks for the next epoch when it forwards a configuration, and skips what is of the one before. So what
it sends on was made under the configuration that it forwarded last.
-/

namespace DepthaiCore.StateMerge

open Epochs Transition

variable {V : Type}

/-! ### Aggregators and what was forwarded -/

/-- The aggregator as a sender. -/
def Aggregator.sender (self : Aggregator V) : Sender (PipelineState V) where
  pending := self.request.length
  epoch := self.received
  sent := self.sent
  queue := self.out

/-- The configuration of an epoch. There is none before the first. -/
def configOf (forwarded : List PipelineEventAggregationConfig) :
    ℕ → Option PipelineEventAggregationConfig
  | 0 => none
  | epoch + 1 => forwarded[epoch]?

/-- A letter carries the number of the configuration of its epoch. -/
def Stamped (forwarded : List PipelineEventAggregationConfig) (x : Letter (PipelineState V)) : Prop :=
  ∃ config, configOf forwarded x.epoch = some config ∧
    x.content.configSequenceNum = config.sequenceNum

/-- What an aggregator knows of what was forwarded. -/
structure Linked (forwarded : List PipelineEventAggregationConfig) (agg : Aggregator V) : Prop where
  received_le : agg.received ≤ forwarded.length
  request : agg.request = forwarded.drop agg.received
  config : ∀ config ∈ agg.currentConfig, configOf forwarded agg.received = some config
  gotConfig : agg.gotConfig.isSome → agg.currentConfig.isSome
  stamped : ∀ x ∈ agg.out, Stamped forwarded x
  ordered : Ordered agg.sender

theorem configOf_append {forwarded : List PipelineEventAggregationConfig} {epoch : ℕ}
    {config next : PipelineEventAggregationConfig} (h : configOf forwarded epoch = some config) :
    configOf (forwarded ++ [next]) epoch = some config := by
  cases epoch with
  | zero => exact h
  | succ epoch =>
    rw [configOf] at h ⊢
    rw [List.getElem?_append_left (List.getElem?_eq_some_iff.mp h).1]
    exact h

theorem configOf_length {forwarded : List PipelineEventAggregationConfig} :
    configOf forwarded forwarded.length = forwarded.getLast? := by
  cases hl : forwarded.length with
  | zero => rw [List.length_eq_zero_iff.mp hl]; rfl
  | succ n => rw [configOf, List.getLast?_eq_getElem?, hl, Nat.add_sub_cancel]

theorem Stamped.append {forwarded : List PipelineEventAggregationConfig}
    {x : Letter (PipelineState V)} {next : PipelineEventAggregationConfig}
    (h : Stamped forwarded x) : Stamped (forwarded ++ [next]) x := by
  obtain ⟨config, hconfig, hnumber⟩ := h
  exact ⟨config, configOf_append hconfig, hnumber⟩

variable {forwarded : List PipelineEventAggregationConfig} {agg next : Aggregator V}

theorem Linked.forward (h : Linked forwarded agg) (config : PipelineEventAggregationConfig) :
    Linked (forwarded ++ [config]) { agg with request := agg.request ++ [config] } where
  received_le := by
    rw [List.length_append]
    exact Nat.le_add_right_of_le h.received_le
  request := by
    rw [List.drop_append_of_le_length h.received_le, ← h.request]
  config c hc := configOf_append (h.config c hc)
  gotConfig := h.gotConfig
  stamped x hx := (h.stamped x hx).append
  ordered := ⟨h.ordered.serial, h.ordered.epoch, h.ordered.epoch_le, h.ordered.sent⟩

theorem Linked.take (h : Linked forwarded agg) {x : Letter (PipelineState V)}
    {rest : List (Letter (PipelineState V))} (hq : agg.out = x :: rest) :
    Linked forwarded { agg with out := rest } where
  received_le := h.received_le
  request := h.request
  config := h.config
  gotConfig := h.gotConfig
  stamped y hy := h.stamped y (by rw [hq]; exact List.mem_cons_of_mem _ hy)
  ordered := h.ordered.take hq

/-- A state is sent, under the number of the configuration that was received last. -/
theorem Linked.send (h : Linked forwarded agg) {state : PipelineState V}
    (hstate : Stamped forwarded (⟨state, agg.received, agg.sent.length⟩ : Letter (PipelineState V))) :
    Linked forwarded (agg.send state) where
  received_le := h.received_le
  request := h.request
  config := h.config
  gotConfig := h.gotConfig
  stamped x hx := by
    rcases List.mem_append.mp hx with hx | hx
    · exact h.stamped x hx
    · rw [List.mem_singleton.mp hx]
      exact hstate
  ordered := h.ordered.send state

/-- **One operation of an aggregator.** -/
theorem Linked.step (h : Linked forwarded agg) {a : AggregatorStep V} (hstep : agg.step a = some next) :
    Linked forwarded next ∧ agg.sender.Step next.sender := by
  cases a with
  | getRequest =>
    rw [Aggregator.step] at hstep
    split at hstep
    · next config request hgot hreq =>
      cases hstep
      have hdrop := h.request.symm.trans hreq
      have hnext : forwarded[agg.received]? = some config := by
        rw [← List.head?_drop, hdrop, List.head?_cons]
      have hlt := (List.getElem?_eq_some_iff.mp hnext).1
      have hrest : request = forwarded.drop (agg.received + 1) := by
        rw [← List.tail_drop, hdrop, List.tail_cons]
      have ho : Ordered agg.sender.receive := h.ordered.receive
      refine ⟨?_, .inr (.inl ⟨?_, ?_⟩)⟩
      · rw [Aggregator.configure]
        split
        · exact ⟨hlt, hrest, fun c hc => (by cases hc), fun hsome => (by simp [hgot] at hsome),
            h.stamped,
            ⟨ho.serial, ho.epoch, ho.epoch_le, ho.sent⟩⟩
        · refine ⟨hlt, hrest, fun c hc => ?_, fun _ => rfl, h.stamped,
            ⟨ho.serial, ho.epoch, ho.epoch_le, ho.sent⟩⟩
          rw [← Option.some.inj hc]
          exact hnext
      · rw [Aggregator.sender, hreq]
        exact Nat.succ_pos _
      · rw [Aggregator.configure]
        split <;> simp [Aggregator.sender, Sender.receive, hreq]
    · cases hstep
  | timeOut =>
    rw [Aggregator.step] at hstep
    split at hstep
    · next hcond =>
      cases hstep
      refine ⟨⟨h.received_le, h.request, h.config, fun _ => ?_, h.stamped, ?_⟩, .inl rfl⟩
      · cases hc : agg.currentConfig with
        | none => simp [hc, Aggregator.repeats] at hcond
        | some config => rfl
      · exact ⟨h.ordered.serial, h.ordered.epoch, h.ordered.epoch_le, h.ordered.sent⟩
    · cases hstep
  | report nodeStates updated elapsed now =>
    rw [Aggregator.step] at hstep
    split at hstep
    · cases hstep
    · next gotConfig hgot =>
      have hquiet : ∀ sequenceNum, Linked forwarded { agg with gotConfig := none, sequenceNum } :=
        fun _ => ⟨h.received_le, h.request, h.config, fun hsome => (by cases hsome), h.stamped,
          ⟨h.ordered.serial, h.ordered.epoch, h.ordered.epoch_le, h.ordered.sent⟩⟩
      dsimp only at hstep
      split at hstep
      · split at hstep
        · cases hstep
          refine ⟨(hquiet _).send ?_, .inr (.inr ⟨_, rfl⟩)⟩
          obtain ⟨config, hconfig⟩ := Option.isSome_iff_exists.mp (h.gotConfig (by rw [hgot]; rfl))
          refine ⟨config, h.config config hconfig, ?_⟩
          change (agg.currentConfig.map (·.sequenceNum)).getD 0 = config.sequenceNum
          rw [hconfig]
          rfl
        · cases hstep
          exact ⟨hquiet _, .inl rfl⟩
      · cases hstep
        exact ⟨hquiet _, .inl rfl⟩

/-! ### The invariant -/

/-- The letters of the device that were sent on. -/
def Output.devices (out : List (Output V)) : List (Letter (PipelineState V)) :=
  out.filterMap (·.device)

/-- The letters of the host that were sent on. -/
def Output.hosts (out : List (Output V)) : List (Letter (PipelineState V)) :=
  out.filterMap (·.host)

/-- The letters that the merge holds, of the device and of the host. -/
def Stage.held : Stage V → List (Letter (PipelineState V)) × List (Letter (PipelineState V))
  | .host _ deviceState => (deviceState.toList, [])
  | .send deviceState hostState => (deviceState.toList, hostState.toList)
  | _ => ([], [])

/-- What a side is known to hold before a state is taken from it. -/
def Ready (waitForMatch : Bool) (n : ℕ) (side : Sender (PipelineState V)) : Prop :=
  if waitForMatch then Catching n side else Settled n side

/-- A letter of the last epoch. -/
def Current (forwarded : List PipelineEventAggregationConfig) (x : Option (Letter (PipelineState V))) :
    Prop :=
  ∃ y, x = some y ∧ y.epoch = forwarded.length ∧ Stamped forwarded y

/-- What is known at a stage of the merge. -/
def StageInv (forwarded : List PipelineEventAggregationConfig)
    (device host : Sender (PipelineState V)) : Stage V → Prop
  | .top => Settled forwarded.length device ∧ Settled forwarded.length host
  | .device waitForMatch =>
    Ready waitForMatch forwarded.length device ∧ Ready waitForMatch forwarded.length host
  | .host waitForMatch deviceState =>
    Settled forwarded.length device ∧ Ready waitForMatch forwarded.length host ∧
      Current forwarded deviceState
  | .send deviceState hostState =>
    Settled forwarded.length device ∧ Settled forwarded.length host ∧
      Current forwarded deviceState ∧ Current forwarded hostState
  | .thrown _ => True

/-- What is known of a state that was sent on. -/
def OfOneConfiguration (forwarded : List PipelineEventAggregationConfig) (o : Output V) : Prop :=
  ∃ device host config, o.device = some device ∧ o.host = some host ∧
    o.state.nodeStates = device.content.nodeStates ++ host.content.nodeStates ∧
    configOf forwarded o.forwarded = some config ∧
    device.epoch = o.forwarded ∧ host.epoch = o.forwarded ∧
    device.content.configSequenceNum = config.sequenceNum ∧
    host.content.configSequenceNum = config.sequenceNum

/-- **The invariant.** -/
structure System.Inv (s : System V) : Prop where
  both : s.merge.hasDeviceNodes = true ∧ s.merge.hasHostNodes = true
  number : s.merge.configSequenceNum = UInt32.ofNat s.forwarded.length
  currentConfig : s.merge.currentConfig = s.forwarded.getLast?
  numbered : ∀ epoch config, configOf s.forwarded epoch = some config →
    config.sequenceNum = UInt32.ofNat epoch
  device : Linked s.forwarded s.device
  host : Linked s.forwarded s.host
  deviceUsed : Used s.device.sender (Output.devices s.out ++ s.merge.stage.held.1)
  hostUsed : Used s.host.sender (Output.hosts s.out ++ s.merge.stage.held.2)
  stage : StageInv s.forwarded s.device.sender s.host.sender s.merge.stage
  out : ∀ o ∈ s.out, OfOneConfiguration s.forwarded o

/-! ### One operation of the system -/

variable {device host side next : Sender (PipelineState V)} {stage : Stage V}

theorem Ready.step {waitForMatch : Bool} {n : ℕ} (h : Ready waitForMatch n side)
    (hstep : side.Step next) : Ready waitForMatch n next := by
  cases waitForMatch with
  | false => exact Settled.step h hstep
  | true => exact Catching.step h hstep

theorem StageInv.step_device (h : StageInv forwarded device host stage) (hstep : device.Step next) :
    StageInv forwarded next host stage := by
  cases stage with
  | top => exact ⟨h.1.step hstep, h.2⟩
  | device waitForMatch => exact ⟨h.1.step hstep, h.2⟩
  | host waitForMatch deviceState => exact ⟨h.1.step hstep, h.2⟩
  | send deviceState hostState => exact ⟨h.1.step hstep, h.2⟩
  | thrown what => trivial

theorem StageInv.step_host (h : StageInv forwarded device host stage) (hstep : host.Step next) :
    StageInv forwarded device next stage := by
  cases stage with
  | top => exact ⟨h.1, h.2.step hstep⟩
  | device waitForMatch => exact ⟨h.1, h.2.step hstep⟩
  | host waitForMatch deviceState => exact ⟨h.1, h.2.1.step hstep, h.2.2⟩
  | send deviceState hostState => exact ⟨h.1, h.2.1.step hstep, h.2.2⟩
  | thrown what => trivial

theorem ofNat_ne_ofNat_succ (n : ℕ) : UInt32.ofNat n ≠ UInt32.ofNat (n + 1) := by
  intro h
  have hmod := congrArg UInt32.toNat h
  rw [UInt32.toNat_ofNat', UInt32.toNat_ofNat'] at hmod
  omega

/-- **What is skipped is of the epoch before.** The numbers wrap, but two in a row differ. -/
theorem System.Inv.stale_iff {s : System V} (hs : s.Inv) {agg : Aggregator V}
    (hagg : Linked s.forwarded agg) (hcatch : Catching s.forwarded.length agg.sender)
    {x : Letter (PipelineState V)} (hx : x ∈ agg.out) :
    s.stale x.content = true ↔ x.epoch ≠ s.forwarded.length := by
  obtain ⟨config, hconfig, hnumber⟩ := hagg.stamped x hx
  have hpos : x.epoch ≠ 0 := fun h0 => by rw [h0] at hconfig; cases hconfig
  have hlast : ∃ last, s.merge.currentConfig = some last ∧
      last.sequenceNum = UInt32.ofNat s.forwarded.length := by
    cases hlast : s.forwarded.getLast? with
    | none =>
      rw [List.getLast?_eq_none_iff.mp hlast] at hconfig
      cases hepoch : x.epoch with
      | zero => exact absurd hepoch hpos
      | succ epoch => rw [hepoch] at hconfig; cases hconfig
    | some last =>
      exact ⟨last, hs.currentConfig.trans hlast,
        hs.numbered _ last (configOf_length.trans hlast)⟩
  obtain ⟨last, hcurrent, hlast⟩ := hlast
  rw [System.stale, hcurrent]
  simp only [decide_eq_true_eq, hnumber, hlast, hs.numbered _ config hconfig]
  rcases hcatch.epoch hagg.ordered hx with heq | hbefore
  · simp [heq]
  · rw [← hbefore]
    exact ⟨fun _ => by omega, fun _ => ofNat_ne_ofNat_succ _⟩

theorem mergeStates_eq {outState inState result : List (ℤ × NodeState V)}
    (h : mergeStates outState inState = .ok result) : result = outState ++ inState := by
  rw [mergeStates] at h
  induction inState generalizing outState with
  | nil =>
    cases h
    exact (List.append_nil _).symm
  | cons entry inState ih =>
    rw [List.foldlM_cons] at h
    obtain ⟨next, hnext, h⟩ := Loop.bind_eq_ok.1 h
    dsimp only at hnext
    split at hnext
    · cases hnext
    · cases hnext
      rw [ih h, List.append_assoc]
      rfl

theorem OfOneConfiguration.append {o : Output V} (h : OfOneConfiguration forwarded o)
    (config : PipelineEventAggregationConfig) : OfOneConfiguration (forwarded ++ [config]) o := by
  obtain ⟨device, host, last, hd, hh, hunion, hlast, hrest⟩ := h
  exact ⟨device, host, last, hd, hh, hunion, configOf_append hlast, hrest⟩

namespace System

variable {s t : System V}

theorem Inv.forward (hs : s.Inv) (htop : s.merge.stage = .top)
    (req : PipelineEventAggregationConfig) (request : List PipelineEventAggregationConfig) :
    (s.forward req request).Inv := by
  have hstage := hs.stage
  have hdevice := hs.deviceUsed
  have hhost := hs.hostUsed
  rw [htop] at hstage hdevice hhost
  have hrequest : ∀ agg : Aggregator V, ∀ config,
      Aggregator.sender { agg with request := agg.request ++ [config] } = agg.sender.request := by
    intro agg config
    simp [Aggregator.sender, Sender.request]
  have hnumber : s.merge.configSequenceNum + 1 = UInt32.ofNat (s.forwarded.length + 1) := by
    rw [hs.number]
    exact (UInt32.ofNat_add _ _).symm
  refine ⟨hs.both, ?_, ?_, ?_, hs.device.forward _, hs.host.forward _, ?_, ?_, ?_, fun o ho =>
    (hs.out o ho).append _⟩
  · simp only [System.forward, List.length_append, List.length_singleton]
    exact hnumber
  · simp [System.forward]
  · intro epoch config hconfig
    cases epoch with
    | zero => cases hconfig
    | succ epoch =>
      rw [configOf, System.forward, List.getElem?_append] at hconfig
      split at hconfig
      · exact hs.numbered (epoch + 1) config hconfig
      · next hge =>
        obtain ⟨hlt, hconfig⟩ := List.getElem?_eq_some_iff.mp hconfig
        have hepoch : epoch = s.forwarded.length := by
          rw [List.length_singleton] at hlt
          omega
        subst hepoch
        simp only [Nat.sub_self, List.getElem_cons_zero] at hconfig
        rw [← hconfig]
        exact hnumber
  · rw [System.forward]
    dsimp only
    rw [hrequest]
    exact hdevice.request
  · rw [System.forward]
    dsimp only
    rw [hrequest]
    exact hhost.request
  · rw [System.forward]
    dsimp only
    rw [hrequest, hrequest, StageInv, List.length_append]
    exact ⟨hstage.1.request, hstage.2.request⟩

/-- A letter of the last epoch is at the head of a queue. -/
theorem Inv.current (hs : s.Inv) {agg : Aggregator V} (hagg : Linked s.forwarded agg)
    {x : Letter (PipelineState V)} {rest : List (Letter (PipelineState V))} (hq : agg.out = x :: rest)
    {waitForMatch : Bool} (hready : Ready waitForMatch s.forwarded.length agg.sender)
    (hfresh : ¬(waitForMatch && s.stale x.content) = true) :
    Settled s.forwarded.length (agg.sender.take rest) ∧ Current s.forwarded (some x) := by
  have hx : x ∈ agg.out := by rw [hq]; exact List.mem_cons_self
  cases waitForMatch with
  | false =>
    have hsettled : Settled s.forwarded.length agg.sender := hready
    exact ⟨hsettled.take hq, x, rfl, hsettled.queue x hx, hagg.stamped x hx⟩
  | true =>
    have hcatch : Catching s.forwarded.length agg.sender := hready
    have hepoch : x.epoch = s.forwarded.length := by
      by_contra hne
      exact hfresh (by rw [(hs.stale_iff hagg hcatch hx).mpr hne]; rfl)
    exact ⟨hcatch.matched hagg.ordered hq hepoch, x, rfl, hepoch, hagg.stamped x hx⟩

theorem Inv.mergeStep_device (hs : s.Inv) {waitForMatch : Bool}
    (hstage : s.merge.stage = .device waitForMatch) (h : s.mergeStep = some t) : t.Inv := by
  have hinv := hs.stage
  have hdevice := hs.deviceUsed
  have hhost := hs.hostUsed
  rw [hstage] at hinv hdevice hhost
  rw [mergeStep, hstage] at h
  dsimp only at h
  rw [if_pos hs.both.1] at h
  split at h
  · cases h
  · next x rest hq =>
    split at h
    · next hstale =>
      -- the state is of the epoch before, so the merge still waits for a match
      cases h
      have hwait : waitForMatch = true := (Bool.and_eq_true_iff.mp hstale).1
      refine ⟨hs.both, hs.number, hs.currentConfig, hs.numbered, hs.device.take hq, hs.host, ?_, ?_, ?_,
        hs.out⟩
      · rw [hstage]
        exact hdevice.take hq
      · rw [hstage]
        exact hhost
      · rw [hstage, StageInv]
        subst hwait
        exact ⟨Catching.take hinv.1 hq, hinv.2⟩
    · next hfresh =>
      cases h
      obtain ⟨hsettled, hcurrent⟩ := hs.current hs.device hq hinv.1 hfresh
      refine ⟨hs.both, hs.number, hs.currentConfig, hs.numbered, hs.device.take hq, hs.host, ?_, hhost,
        ⟨hsettled, hinv.2, hcurrent⟩, hs.out⟩
      exact hdevice.left.use hs.device.ordered hq

theorem Inv.mergeStep_host (hs : s.Inv) {waitForMatch : Bool}
    {deviceState : Option (Letter (PipelineState V))}
    (hstage : s.merge.stage = .host waitForMatch deviceState) (h : s.mergeStep = some t) : t.Inv := by
  have hinv := hs.stage
  have hdevice := hs.deviceUsed
  have hhost := hs.hostUsed
  rw [hstage] at hinv hdevice hhost
  rw [mergeStep, hstage] at h
  dsimp only at h
  rw [if_pos hs.both.2] at h
  split at h
  · cases h
  · next x rest hq =>
    split at h
    · next hstale =>
      cases h
      have hwait : waitForMatch = true := (Bool.and_eq_true_iff.mp hstale).1
      refine ⟨hs.both, hs.number, hs.currentConfig, hs.numbered, hs.device, hs.host.take hq, ?_, ?_, ?_,
        hs.out⟩
      · rw [hstage]
        exact hdevice
      · rw [hstage]
        exact hhost.take hq
      · rw [hstage, StageInv]
        subst hwait
        exact ⟨hinv.1, Catching.take hinv.2.1 hq, hinv.2.2⟩
    · next hfresh =>
      cases h
      obtain ⟨hsettled, hcurrent⟩ := hs.current hs.host hq hinv.2.1 hfresh
      refine ⟨hs.both, hs.number, hs.currentConfig, hs.numbered, hs.device, hs.host.take hq, hdevice, ?_,
        ⟨hinv.1, hsettled, hinv.2.2, hcurrent⟩, hs.out⟩
      exact hhost.left.use hs.host.ordered hq

theorem Inv.mergeStep_send (hs : s.Inv) {deviceState hostState : Option (Letter (PipelineState V))}
    (hstage : s.merge.stage = .send deviceState hostState) (h : s.mergeStep = some t) : t.Inv := by
  have hinv := hs.stage
  have hdevice := hs.deviceUsed
  have hhost := hs.hostUsed
  rw [hstage] at hinv hdevice hhost
  obtain ⟨hsd, hsh, ⟨device, rfl, hde, config, hdc, hdn⟩, host, rfl, hhe, config', hhc, hhn⟩ := hinv
  rw [mergeStep, hstage] at h
  cases h
  rw [mergeAndSend]
  split
  · exact ⟨hs.both, hs.number, hs.currentConfig, hs.numbered, hs.device, hs.host,
      by simpa [System.goto, Stage.held] using hdevice.left,
      by simpa [System.goto, Stage.held] using hhost.left, trivial, hs.out⟩
  · next nodeStates hmerge =>
    have hsame : config' = config := by
      rw [hhe] at hhc
      rw [hde, hhc] at hdc
      exact Option.some.inj hdc
    refine ⟨hs.both, hs.number, hs.currentConfig, hs.numbered, hs.device, hs.host, ?_, ?_, ⟨hsd, hsh⟩, ?_⟩
    · simpa [sendOut, System.goto, Stage.held, Output.devices] using hdevice
    · simpa [sendOut, System.goto, Stage.held, Output.hosts] using hhost
    · intro o ho
      rcases List.mem_append.mp ho with ho | ho
      · exact hs.out o ho
      · rw [List.mem_singleton.mp ho]
        exact ⟨device, host, config, rfl, rfl, mergeStates_eq hmerge, hde ▸ hdc, hde, hhe, hdn,
          hsame ▸ hhn⟩

/-- **One operation of the system.** -/
theorem Inv.step {a : Action V} (hs : s.Inv) (h : s.step a = some t) : t.Inv := by
  cases a with
  | request config =>
    cases h
    exact ⟨hs.both, hs.number, hs.currentConfig, hs.numbered, hs.device, hs.host, hs.deviceUsed,
      hs.hostUsed, hs.stage, hs.out⟩
  | merge =>
    change s.mergeStep = some t at h
    cases hstage : s.merge.stage with
    | top =>
      have hinv := hs.stage
      have hdevice := hs.deviceUsed
      have hhost := hs.hostUsed
      rw [hstage] at hinv hdevice hhost
      rw [mergeStep, hstage] at h
      dsimp only at h
      split at h
      · split at h
        · cases h
        · cases h
          exact hs.forward hstage _ _
      · cases h
        exact ⟨hs.both, hs.number, hs.currentConfig, hs.numbered, hs.device, hs.host, hdevice, hhost,
          hinv, hs.out⟩
    | device waitForMatch => exact hs.mergeStep_device hstage h
    | host waitForMatch deviceState => exact hs.mergeStep_host hstage h
    | send deviceState hostState => exact hs.mergeStep_send hstage h
    | thrown what =>
      rw [mergeStep, hstage] at h
      cases h
  | device step =>
    obtain ⟨next, hnext, rfl⟩ := Option.map_eq_some_iff.mp h
    obtain ⟨hlinked, hstep⟩ := hs.device.step hnext
    exact ⟨hs.both, hs.number, hs.currentConfig, hs.numbered, hlinked, hs.host, hs.deviceUsed.step hstep,
      hs.hostUsed, hs.stage.step_device hstep, hs.out⟩
  | host step =>
    obtain ⟨next, hnext, rfl⟩ := Option.map_eq_some_iff.mp h
    obtain ⟨hlinked, hstep⟩ := hs.host.step hnext
    exact ⟨hs.both, hs.number, hs.currentConfig, hs.numbered, hs.device, hlinked, hs.deviceUsed,
      hs.hostUsed.step hstep, hs.stage.step_host hstep, hs.out⟩

theorem inv_initial (allowReconfiguration deviceTrace hostTrace : Bool) :
    (initial true true allowReconfiguration deviceTrace hostTrace : System V).Inv where
  both := ⟨rfl, rfl⟩
  number := rfl
  currentConfig := rfl
  numbered epoch config h := by cases epoch <;> cases h
  device := ⟨Nat.le_refl _, rfl, fun _ h => (by cases h), fun h => (by cases h), fun _ h => (by cases h),
    ⟨.nil, .nil, fun _ h => (by cases h), fun _ h => (by cases h)⟩⟩
  host := ⟨Nat.le_refl _, rfl, fun _ h => (by cases h), fun h => (by cases h), fun _ h => (by cases h),
    ⟨.nil, .nil, fun _ h => (by cases h), fun _ h => (by cases h)⟩⟩
  deviceUsed := ⟨.nil, fun _ h => (by cases h), fun _ h => (by cases h)⟩
  hostUsed := ⟨.nil, fun _ h => (by cases h), fun _ h => (by cases h)⟩
  stage := ⟨⟨rfl, rfl, fun _ h => (by cases h)⟩, ⟨rfl, rfl, fun _ h => (by cases h)⟩⟩
  out _ h := by cases h

/-- **Every state that is sent on is of one configuration**, the one that was forwarded last when it was
sent: it is the union of a state of the device and a state of the host that were made under it and carry
its number. No state of either is used twice. -/
theorem out_of_one_configuration {allowReconfiguration deviceTrace hostTrace : Bool}
    {tr : List (System V × Action V)} {s : System V}
    (h : Run step (initial true true allowReconfiguration deviceTrace hostTrace) tr s) :
    (∀ o ∈ s.out, OfOneConfiguration s.forwarded o) ∧
      ((Output.devices s.out).Pairwise fun x y => x.serial < y.serial) ∧
      ((Output.hosts s.out).Pairwise fun x y => x.serial < y.serial) ∧
      (∀ x ∈ Output.devices s.out, s.device.sent[x.serial]? = some x) ∧
      ∀ x ∈ Output.hosts s.out, s.host.sent[x.serial]? = some x := by
  have hinv : s.Inv := h.invariant (fun _ _ _ hs hstep => hs.step hstep) (inv_initial _ _ _)
  have hdevice := hinv.deviceUsed.left
  have hhost := hinv.hostUsed.left
  exact ⟨hinv.out, hdevice.serial, hhost.serial, hdevice.sent, hhost.sent⟩

/-- A configuration that repeats, an answer from both sides and a further state of each; then a second
configuration, which skips them. -/
def twoRounds : List (Action Unit) :=
  [.request ⟨7, [], some 1⟩, .merge,
    .device .getRequest, .device (.report [(0, ⟨[], [], [], ()⟩)] true true 10),
    .host .getRequest, .host (.report [(1, ⟨[], [], [], ()⟩)] true true 11), .merge, .merge, .merge,
    .device .timeOut, .device (.report [(0, ⟨[], [], [], ()⟩)] true true 20),
    .host .timeOut, .host (.report [(1, ⟨[], [], [], ()⟩)] true true 21),
    .request ⟨7, [], some 1⟩, .merge, .merge,
    .device .getRequest, .device (.report [(0, ⟨[], [], [], ()⟩)] true true 30), .merge, .merge,
    .host .getRequest, .host (.report [(1, ⟨[], [], [], ()⟩)] true true 31), .merge, .merge]

theorem twoRounds_enabled :
    (exec step (initial true true true false false) twoRounds).isSome := by decide

/-- Where that run ends. -/
def twoRoundsEnd : System Unit :=
  ((exec step (initial true true true false false) twoRounds).get twoRounds_enabled).2

theorem out_of_one_configuration_twoRounds :
    (Output.devices twoRoundsEnd.out).map (·.serial) = [0, 2] ∧
      ∀ o ∈ twoRoundsEnd.out, OfOneConfiguration twoRoundsEnd.forwarded o :=
  ⟨by decide, (out_of_one_configuration (Run.of_isSome twoRounds_enabled)).1⟩

end System

end DepthaiCore.StateMerge
