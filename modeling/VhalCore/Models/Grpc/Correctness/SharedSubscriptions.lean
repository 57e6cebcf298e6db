import VhalCore.Core.Execution
import VhalCore.Models.FakeHardware.Interpretation.Refresh
import VhalCore.Models.Grpc.Native.ProxyServer

/-!
# Subscriptions of several clients

The hardware has one entry for a pair, whoever subscribed to it: the first client that cancels
its subscription takes the entry away from the others, and the latest client that subscribes
sets the rate for all. A rate so high that its interval is 0 ends the server. The subscriptions
of all clients are kept exactly as long as a client cancels only what no other client has
subscribed to, and subscribes to continuous pairs only at an interval that is not 0 and not
longer than those of the other clients.
-/

namespace VhalCore.Grpc

open FakeHardware FakeVehicleHardware

variable {getPropConfig : Int → Option VehiclePropConfig} {s t : ProxyState} {e : ProxyEvent}

/-- The property is refreshed periodically. -/
def isContinuous (getPropConfig : Int → Option VehiclePropConfig) (propId : Int) : Prop :=
  ∃ config, getPropConfig propId = some config ∧ config.changeMode = .continuous

/-- The pair is refreshed at the interval: by a callback of the timer that includes it. -/
def RefreshedEvery (hardware : FakeVehicleHardware) (p : PropIdAreaId) (interval : Int) : Prop :=
  interval ∈ hardware.timerCallbacks ∧
    ∃ action, hardware.mActionByIntervalInNanos.lookup interval = some action ∧
      action.recurrentAction = some interval ∧ p ∈ action.propIdAreaIdsToRefresh

/-- As long as some client has a subscription to a pair, changed values of the pair are passed
on, and a continuous pair is refreshed at least as often as the rate of the subscription asks
for. -/
def KeepsSubscriptions (getPropConfig : Int → Option VehiclePropConfig) (s : ProxyState) : Prop :=
  ∀ client p rate, s.latest client p = some rate →
    (∀ values, ∀ value ∈ values, value.propIdAreaId = p →
      value ∈ s.forwarded values) ∧
    (isContinuous getPropConfig p.propId → ∃ interval, RefreshedEvery s.hardware p interval ∧
      ∀ limit, intervalInNanos rate = some limit → interval ≤ limit)

/-- The client leaves the subscriptions of the others alone: it cancels none of them, and the
interval it asks for is not longer than theirs and not 0. -/
def Considerate (getPropConfig : Int → Option VehiclePropConfig) (s : ProxyState) :
    ProxyEvent → Prop
  | .subscribe client options _ => isContinuous getPropConfig options.propId →
      ∀ interval, intervalInNanos options.sampleRate = some interval →
      ∀ areaId ∈ options.areaIds, interval ≠ 0 ∧
        ∀ other, other ≠ client → ∀ rate, s.latest other ⟨options.propId, areaId⟩ = some rate →
          ∀ limit, intervalInNanos rate = some limit → interval ≤ limit
  | .unsubscribe client propId areaId =>
      ∀ other, other ≠ client → s.latest other ⟨propId, areaId⟩ = none

/-- The hardware has an entry for the pair that serves a subscription with the rate. -/
def Serves (getPropConfig : Int → Option VehiclePropConfig) (hardware : FakeVehicleHardware)
    (p : PropIdAreaId) (rate : Binary32) : Prop :=
  hardware.isSubscribed p = true ∧
    (isContinuous getPropConfig p.propId → ∃ refreshInfo,
      hardware.mRefreshInfoByPropIdAreaId.lookup p = some refreshInfo ∧
        ∀ limit, intervalInNanos rate = some limit → refreshInfo.intervalInNanos ≤ limit)

/-- A pair is refreshed at an interval exactly if its information says so. -/
theorem refreshedEvery_iff {hardware : FakeVehicleHardware} (hs : Scheduled hardware)
    (p : PropIdAreaId) (interval : Int) :
    RefreshedEvery hardware p interval ↔ ∃ refreshInfo,
      hardware.mRefreshInfoByPropIdAreaId.lookup p = some refreshInfo ∧
        refreshInfo.intervalInNanos = interval := by
  constructor
  · rintro ⟨_, action, haction, _, hmem⟩
    exact hs.owned interval action haction p hmem
  · rintro ⟨refreshInfo, hlookup, rfl⟩
    obtain ⟨action, haction, hmem⟩ := hs.listed p refreshInfo hlookup
    obtain ⟨hcallback, htimer⟩ := hs.timed _ action haction
    exact ⟨htimer, action, haction, hcallback, hmem⟩

/-- Changed values of a pair are forwarded exactly if the server runs and its hardware has an
entry for the pair. -/
theorem forwarded_iff (s : ProxyState) (p : PropIdAreaId) :
    (∀ values, ∀ value ∈ values, value.propIdAreaId = p → value ∈ s.forwarded values) ↔
      s.running = true ∧ s.hardware.isSubscribed p = true := by
  constructor
  · intro h
    have hvalue := h [{ prop := p.propId, areaId := p.areaId }] _ (List.mem_singleton_self _) rfl
    rw [ProxyState.forwarded] at hvalue
    split at hvalue
    · next hrunning => exact ⟨hrunning, (List.mem_filter.mp hvalue).2⟩
    · exact absurd hvalue List.not_mem_nil
  · rintro ⟨hrunning, h⟩ values value hvalue rfl
    rw [ProxyState.forwarded, if_pos hrunning]
    exact List.mem_filter.mpr ⟨hvalue, h⟩

/-- A running server keeps the subscriptions exactly if it serves the latest rate of every
client. -/
theorem keepsSubscriptions_iff (hs : Scheduled s.hardware) (hrunning : s.running = true) :
    KeepsSubscriptions getPropConfig s ↔ ∀ client p rate, s.latest client p = some rate →
      Serves getPropConfig s.hardware p rate := by
  have hforwarded (p : PropIdAreaId) := (forwarded_iff s p).trans (and_iff_right hrunning)
  refine forall_congr' fun client => forall_congr' fun p => forall_congr' fun rate =>
    imp_congr_right fun _ => and_congr (hforwarded p) (imp_congr_right fun _ => ?_)
  constructor
  · rintro ⟨interval, hrefreshed, hlimit⟩
    obtain ⟨refreshInfo, hlookup, rfl⟩ := (refreshedEvery_iff hs p interval).mp hrefreshed
    exact ⟨refreshInfo, hlookup, hlimit⟩
  · rintro ⟨refreshInfo, hlookup, hlimit⟩
    exact ⟨_, (refreshedEvery_iff hs p _).mpr ⟨refreshInfo, hlookup, rfl⟩, hlimit⟩

theorem isSubscribed_iff (hardware : FakeVehicleHardware) (p : PropIdAreaId) :
    hardware.isSubscribed p = true ↔
      (∃ refreshInfo, hardware.mRefreshInfoByPropIdAreaId.lookup p = some refreshInfo) ∨
        p ∈ hardware.mSubOnChangePropIdAreaIds := by
  rw [isSubscribed, Bool.or_eq_true, decide_eq_true_eq, Option.isSome_iff_exists]

/-- A pair whose entries stay is served as before. -/
theorem Serves.mono {hardware hardware' : FakeVehicleHardware} {p : PropIdAreaId}
    {rate : Binary32} (h : Serves getPropConfig hardware p rate)
    (hrefresh : hardware'.mRefreshInfoByPropIdAreaId.lookup p =
      hardware.mRefreshInfoByPropIdAreaId.lookup p)
    (honChange : p ∈ hardware.mSubOnChangePropIdAreaIds →
      p ∈ hardware'.mSubOnChangePropIdAreaIds) : Serves getPropConfig hardware' p rate := by
  refine ⟨(isSubscribed_iff hardware' p).mpr ?_, ?_⟩
  · rw [hrefresh]
    exact ((isSubscribed_iff hardware p).mp h.1).imp_right honChange
  · rw [hrefresh]
    exact h.2

/-- A pair whose subscription is cancelled in the hardware. -/
theorem isSubscribed_unsubscribe (hardware : FakeVehicleHardware) (propId areaId : Int) :
    (hardware.unsubscribe propId areaId).2.isSubscribed ⟨propId, areaId⟩ = false := by
  rw [Bool.eq_false_iff, ne_eq, isSubscribed_iff, unsubscribe]
  simp only [lookup_unregisterRefreshLocked, ite_true]
  rintro (⟨refreshInfo, hlookup⟩ | hmem)
  · cases hlookup
  · exact absurd rfl (Finset.ne_of_mem_erase hmem)

theorem scheduled_unsubscribe {hardware : FakeVehicleHardware} (hs : Scheduled hardware)
    (propId areaId : Int) : Scheduled (hardware.unsubscribe propId areaId).2 := by
  have hscheduled := hs.unregisterRefreshLocked ⟨propId, areaId⟩
  exact ⟨hscheduled.listed, hscheduled.owned, hscheduled.timed⟩

/-- Cancelling keeps the subscriptions of the others exactly if no other client has one for
the pair. -/
theorem unsubscribe_keeps_iff (hs : Scheduled s.hardware) (hrunning : s.running = true)
    (hkept : KeepsSubscriptions getPropConfig s) (client : Nat) (propId areaId : Int) :
    KeepsSubscriptions getPropConfig { s with
        hardware := (s.hardware.unsubscribe propId areaId).2
        latest := withoutSubscription client ⟨propId, areaId⟩ s.latest } ↔
      Considerate getPropConfig s (.unsubscribe client propId areaId) := by
  refine Iff.trans (keepsSubscriptions_iff (scheduled_unsubscribe hs propId areaId) hrunning) ?_
  rw [keepsSubscriptions_iff hs hrunning] at hkept
  constructor
  · intro h other hother
    cases hlatest : s.latest other ⟨propId, areaId⟩ with
    | none => rfl
    | some rate =>
        have hserved := (h other ⟨propId, areaId⟩ rate
          ((if_neg fun hcond => hother hcond.1).trans hlatest)).1
        rw [isSubscribed_unsubscribe] at hserved
        cases hserved
  · intro h other p rate hlatest
    simp only [withoutSubscription] at hlatest
    split at hlatest
    · cases hlatest
    · next hcond =>
      have hp : p ≠ ⟨propId, areaId⟩ := by
        rintro rfl
        by_cases hother : other = client
        · exact hcond ⟨hother, rfl⟩
        · rw [h other hother] at hlatest
          cases hlatest
      refine (hkept other p rate hlatest).mono ?_ ?_
      · exact (lookup_unregisterRefreshLocked _ p s.hardware).trans (if_neg hp)
      · intro hmem
        refine Finset.mem_erase.mpr ⟨hp, ?_⟩
        rwa [onChange_unregisterRefreshLocked]

/-- A client subscribes to continuous pairs. -/
theorem subscribe_continuous_keeps_iff (hkept : ∀ client p rate, s.latest client p = some rate →
      Serves getPropConfig s.hardware p rate) (client : Nat) {options : SubscribeOptions}
    {hardware : FakeVehicleHardware} (hcontinuous : isContinuous getPropConfig options.propId)
    {interval : Int} (hinterval : intervalInNanos options.sampleRate = some interval)
    (hne : interval ≠ 0)
    (honChange : hardware.mSubOnChangePropIdAreaIds = s.hardware.mSubOnChangePropIdAreaIds)
    (hcovered : ∀ p, Covers options options.areaIds p → ∃ refreshInfo,
      hardware.mRefreshInfoByPropIdAreaId.lookup p = some refreshInfo ∧
        refreshInfo.intervalInNanos = interval)
    (hother : ∀ p, ¬Covers options options.areaIds p →
      hardware.mRefreshInfoByPropIdAreaId.lookup p =
        s.hardware.mRefreshInfoByPropIdAreaId.lookup p) (status : Option StatusCode) :
    (∀ other p rate, withSubscription client options s.latest other p = some rate →
        Serves getPropConfig hardware p rate) ↔
      Considerate getPropConfig s (.subscribe client options status) := by
  constructor
  · intro h _ interval' hinterval' areaId harea
    cases hinterval.symm.trans hinterval'
    refine ⟨hne, fun other hother' rate hlatest limit hlimit => ?_⟩
    have hcovers : Covers options options.areaIds ⟨options.propId, areaId⟩ := ⟨rfl, harea⟩
    obtain ⟨refreshInfo, hlookup, hle⟩ := (h other _ rate (by
      rw [withSubscription, if_neg fun hcond => hother' hcond.1, hlatest])).2 hcontinuous
    obtain ⟨refreshInfo', hlookup', rfl⟩ := hcovered _ hcovers
    cases hlookup.symm.trans hlookup'
    exact hle limit hlimit
  · intro h other p rate hlatest
    by_cases hcovers : Covers options options.areaIds p
    · obtain ⟨refreshInfo, hlookup, rfl⟩ := hcovered p hcovers
      refine ⟨(isSubscribed_iff hardware p).mpr (Or.inl ⟨_, hlookup⟩),
        fun _ => ⟨refreshInfo, hlookup, fun limit hlimit => ?_⟩⟩
      rw [withSubscription] at hlatest
      split at hlatest
      · cases hlatest
        cases hinterval.symm.trans hlimit
        exact le_rfl
      · next hcond =>
        have hne : other ≠ client := fun heq => hcond ⟨heq, hcovers⟩
        rcases p with ⟨propId, areaId⟩
        obtain ⟨rfl, harea⟩ := hcovers
        exact (h hcontinuous _ hinterval areaId harea).2 other hne rate hlatest limit hlimit
    · have hold : s.latest other p = some rate := by
        rwa [withSubscription, if_neg fun hcond => hcovers hcond.2] at hlatest
      exact (hkept other p rate hold).mono (hother p hcovers) fun hmem => honChange ▸ hmem

/-- A subscription that ends the server keeps nothing, and its interval is 0. -/
theorem die_keeps_iff (client : Nat) {options : SubscribeOptions}
    (h : DividesByZero getPropConfig options) :
    KeepsSubscriptions getPropConfig { s with
        latest := withSubscription client options s.latest, running := false } ↔
      Considerate getPropConfig s (.subscribe client options none) := by
  obtain ⟨hcontinuous, hareas, hinterval⟩ := h
  obtain ⟨areaId, harea⟩ := List.exists_mem_of_ne_nil _ hareas
  refine iff_of_false (fun hkept => ?_) fun hconsiderate => ?_
  · have hforwarded := (hkept client ⟨options.propId, areaId⟩ options.sampleRate
      (if_pos ⟨rfl, rfl, harea⟩)).1
    cases ((forwarded_iff _ _).mp hforwarded).1
  · exact (hconsiderate hcontinuous 0 hinterval areaId harea).1 rfl

/-- Every step keeps the pairs scheduled, and it keeps the subscriptions of all clients exactly
if the client leaves those of the others alone. -/
theorem ProxyStep.keeps_iff (hs : Scheduled s.hardware)
    (hkept : KeepsSubscriptions getPropConfig s) (h : ProxyStep getPropConfig s e t) :
    Scheduled t.hardware ∧
      (KeepsSubscriptions getPropConfig t ↔ Considerate getPropConfig s e) := by
  cases h with
  | unsubscribe client propId areaId hrunning =>
      exact ⟨scheduled_unsubscribe hs propId areaId,
        unsubscribe_keeps_iff hs hrunning hkept client propId areaId⟩
  | die client options hrunning hdies => exact ⟨hs, die_keeps_iff client hdies⟩
  | subscribe client options status hardware hrunning hsub =>
      rcases subscribe_cases hs hsub with
        ⟨rfl, hnothing⟩ | ⟨config, pairs, hconfig, hmode, rfl, rfl, hpairs⟩ |
        ⟨config, interval, hconfig, hmode, rfl, hinterval, hne, hs', honChange, hcovered, hother⟩
      · have hlatest : (if status = .ok ∧ canBeSubscribed getPropConfig options.propId then
            withSubscription client options s.latest else s.latest) = s.latest := by
          split
          · next hcond =>
            refine funext fun other => funext fun p => if_neg fun hcovers => ?_
            rcases hnothing.1 hcond.1 with hnil | ⟨config, hconfig, hstatic⟩
            · rw [hnil] at hcovers
              exact absurd hcovers.2.2 List.not_mem_nil
            · have hcan := hcond.2
              rw [canBeSubscribed, hconfig, Option.any_some, hstatic] at hcan
              cases hcan
          · rfl
        rw [hlatest]
        refine ⟨hs, iff_of_true hkept ?_⟩
        rintro ⟨config, hconfig, hmode⟩ interval hinterval areaId harea
        rcases hnothing.2 config interval hconfig hmode with hnil | hnot
        · rw [hnil] at harea
          exact absurd harea List.not_mem_nil
        · exact absurd hinterval hnot
      · have hs' : Scheduled { s.hardware with mSubOnChangePropIdAreaIds := pairs } :=
          ⟨hs.listed, hs.owned, hs.timed⟩
        have hnot : ¬isContinuous getPropConfig options.propId := by
          rintro ⟨config', hconfig', hcontinuous⟩
          cases hconfig.symm.trans hconfig'
          rw [hmode] at hcontinuous
          cases hcontinuous
        refine ⟨hs', iff_of_true ?_ fun hcontinuous => absurd hcontinuous hnot⟩
        rw [keepsSubscriptions_iff hs hrunning] at hkept
        refine Iff.mpr (keepsSubscriptions_iff hs' hrunning) ?_
        intro other p rate hlatest
        by_cases hcovers : Covers options options.areaIds p
        · refine ⟨(isSubscribed_iff _ p).mpr (Or.inr ((hpairs p).mpr (Or.inr hcovers))), ?_⟩
          rw [hcovers.1]
          exact fun hcontinuous => absurd hcontinuous hnot
        · have hold : s.latest other p = some rate := by
            simp only at hlatest
            split at hlatest
            · exact (if_neg fun hcond => hcovers hcond.2).symm.trans hlatest
            · exact hlatest
          exact (hkept other p rate hold).mono rfl fun hmem => (hpairs p).mpr (Or.inl hmem)
      · refine ⟨hs', ?_⟩
        rw [keepsSubscriptions_iff hs hrunning] at hkept
        refine Iff.trans (keepsSubscriptions_iff hs' hrunning) ?_
        have hcan : canBeSubscribed getPropConfig options.propId = true := by
          rw [canBeSubscribed, hconfig, Option.any_some, hmode]
          rfl
        rw [if_pos ⟨rfl, hcan⟩]
        exact subscribe_continuous_keeps_iff hkept client ⟨config, hconfig, hmode⟩ hinterval hne
          honChange hcovered hother (some .ok)

theorem keepsSubscriptions_start (getPropConfig : Int → Option VehiclePropConfig) :
    KeepsSubscriptions getPropConfig {} := fun _ _ _ h => absurd h (Option.some_ne_none _).symm

/-- A run keeps the subscriptions of all clients in every state that it reaches if and only if
every client leaves the subscriptions of the others alone in every step. -/
theorem keepsSubscriptions_iff_considerate {events : List ProxyEvent} :
    Path (fun s e t => ProxyStep getPropConfig s e t ∧ KeepsSubscriptions getPropConfig t)
        {} events s ↔
      Path (fun s e t => ProxyStep getPropConfig s e t ∧ Considerate getPropConfig s e)
        {} events s := by
  refine Path.restrict_congr
    (I := fun s : ProxyState => Scheduled s.hardware ∧ KeepsSubscriptions getPropConfig s)
    ⟨scheduled_start, keepsSubscriptions_start _⟩ fun s e t hs hstep => ?_
  obtain ⟨hscheduled, hiff⟩ := hstep.keeps_iff hs.1 hs.2
  exact ⟨hiff, fun hconsiderate => ⟨hscheduled, hiff.mpr hconsiderate⟩⟩

/-- The rate of a continuous request is positive and at most one in a nanosecond, and every
subscription of another client to a pair of the request has a rate that is positive and not
higher. -/
def AtHighestRate (getPropConfig : Int → Option VehiclePropConfig) (s : ProxyState) :
    ProxyEvent → Prop
  | .subscribe client options _ => isContinuous getPropConfig options.propId →
      Binary32.lt .zero options.sampleRate = true ∧
      Binary32.le options.sampleRate (.ofInt 1000000000) = true ∧
      ∀ other, other ≠ client → ∀ areaId ∈ options.areaIds, ∀ rate,
        s.latest other ⟨options.propId, areaId⟩ = some rate →
          Binary32.lt .zero rate = true ∧ Binary32.le rate options.sampleRate = true
  | .unsubscribe client propId areaId =>
      ∀ other, other ≠ client → s.latest other ⟨propId, areaId⟩ = none

/-- A higher rate does not have a longer interval. -/
theorem AtHighestRate.considerate (h : AtHighestRate getPropConfig s e) :
    Considerate getPropConfig s e := by
  cases e with
  | unsubscribe client propId areaId => exact h
  | subscribe client options status =>
      intro hcontinuous interval hinterval areaId harea
      obtain ⟨hpositive, hmost, hothers⟩ := h hcontinuous
      refine ⟨?_, fun other hother rate hlatest limit hlimit => ?_⟩
      · have hnano : intervalInNanos (.ofInt 1000000000) = some 1 := by decide +kernel
        have hone := Binary32.quotientToInt64_antitone hpositive hmost hinterval hnano
        omega
      · obtain ⟨hpos, hle⟩ := hothers other hother areaId harea rate hlatest
        exact Binary32.quotientToInt64_antitone hpos hle hlimit hinterval

/-- The subscriptions of all clients are kept if clients cancel only what no other client has
subscribed to and subscribe at rates that are not lower than those of the others. -/
theorem keepsSubscriptions_of_rates {events : List ProxyEvent}
    (h : Path (fun s e t => ProxyStep getPropConfig s e t ∧ AtHighestRate getPropConfig s e)
      {} events s) :
    KeepsSubscriptions getPropConfig s := by
  have hboth : Scheduled s.hardware ∧ KeepsSubscriptions getPropConfig s := by
    refine Path.invariant
      (P := fun s : ProxyState => Scheduled s.hardware ∧ KeepsSubscriptions getPropConfig s) h
      ⟨scheduled_start, keepsSubscriptions_start _⟩ ?_
    intro s e t hs hstep
    obtain ⟨hscheduled, hiff⟩ := hstep.1.keeps_iff hs.1 hs.2
    exact ⟨hscheduled, hiff.mpr hstep.2.considerate⟩
  exact hboth.2

/-- The gear, which is reported when it changes. -/
def gearConfig : VehiclePropConfig :=
  { prop := 0x11400400, access := .read, changeMode := .onChange }

/-- The speed, which is reported at a rate. -/
def speedConfig : VehiclePropConfig :=
  { prop := 0x11600207, access := .read, changeMode := .continuous,
    minSampleRate := .ofInt 1, maxSampleRate := .ofInt 10 }

/-- The configs of a hardware with these two. -/
def gearAndSpeed (propId : Int) : Option VehiclePropConfig :=
  [gearConfig, speedConfig].find? fun config => config.prop = propId

/-- The subscription of a client to a global property. -/
def globalOptions (propId : Int) (rate : Binary32) : SubscribeOptions :=
  { propId := propId, areaIds := [0], sampleRate := rate }

private theorem accepted_step {options : SubscribeOptions} {hardware : FakeVehicleHardware}
    (s : ProxyState) (client : Nat)
    (hrunning : s.running = true)
    (h : s.hardware.subscribe gearAndSpeed options = some (.ok, hardware))
    (hcan : canBeSubscribed gearAndSpeed options.propId = true) :
    ProxyStep gearAndSpeed s (.subscribe client options (some .ok)) { s with
      hardware := hardware, latest := withSubscription client options s.latest } := by
  have hstep := ProxyStep.subscribe s client options .ok hardware hrunning h
  rwa [if_pos ⟨rfl, hcan⟩] at hstep

private theorem gear_step (s : ProxyState) (hrunning : s.running = true) (client : Nat) :
    ∃ t, ProxyStep gearAndSpeed s
        (.subscribe client (globalOptions 0x11400400 .zero) (some .ok)) t ∧
      t.running = true ∧
      t.latest = withSubscription client (globalOptions 0x11400400 .zero) s.latest := by
  obtain ⟨pairs, heq, _⟩ := @subscribeAreas_onChange (globalOptions 0x11400400 .zero) gearConfig
    rfl [0] s.hardware
  exact ⟨_, accepted_step s client hrunning heq rfl, hrunning, rfl⟩

private theorem speed_step {s : ProxyState} (hs : Scheduled s.hardware)
    (hrunning : s.running = true) (client : Nat) {rate : Binary32} {interval : Int}
    (hinterval : intervalInNanos rate = some interval) (hne : interval ≠ 0) :
    ∃ t, ProxyStep gearAndSpeed s
        (.subscribe client (globalOptions 0x11600207 rate) (some .ok)) t ∧
      t.running = true ∧
      t.latest = withSubscription client (globalOptions 0x11600207 rate) s.latest ∧
      Scheduled t.hardware ∧ RefreshedEvery t.hardware ⟨0x11600207, 0⟩ interval := by
  obtain ⟨hardware, heq, hs', _, hcovered, _⟩ :=
    @subscribeAreas_continuous s.hardware (globalOptions 0x11600207 rate) speedConfig rfl interval
      hinterval hne [0] hs
  refine ⟨_, accepted_step s client hrunning heq rfl, hrunning, rfl, hs',
    (refreshedEvery_iff hs' _ _).mpr ?_⟩
  exact hcovered ⟨0x11600207, 0⟩ ⟨rfl, List.mem_singleton_self 0⟩

/-- Two clients subscribe to the gear and the first one cancels: the second one gets no more
changes. A client subscribes to the speed at 10 Hz and then a second one at 1 Hz: the speed is
refreshed once in a second. -/
theorem cancels_other_client :
    (∃ events s, Path (ProxyStep gearAndSpeed) {} events s ∧
      s.latest 2 ⟨0x11400400, 0⟩ = some .zero ∧
      s.hardware.isSubscribed ⟨0x11400400, 0⟩ = false ∧ ¬KeepsSubscriptions gearAndSpeed s) ∧
    ∃ events s, Path (ProxyStep gearAndSpeed) {} events s ∧
      s.latest 1 ⟨0x11600207, 0⟩ = some (.ofInt 10) ∧
      RefreshedEvery s.hardware ⟨0x11600207, 0⟩ 1000000000 ∧
      ¬KeepsSubscriptions gearAndSpeed s := by
  constructor
  · obtain ⟨s₁, h1, hrunning₁, _⟩ := gear_step {} rfl 1
    obtain ⟨s₂, h2, hrunning₂, hlatest⟩ := gear_step s₁ hrunning₁ 2
    have h3 := @ProxyStep.unsubscribe gearAndSpeed s₂ 1 0x11400400 0 hrunning₂
    have hnot := isSubscribed_unsubscribe s₂.hardware 0x11400400 0
    have hsecond : withoutSubscription 1 ⟨0x11400400, 0⟩ s₂.latest 2 ⟨0x11400400, 0⟩ =
        some .zero := by
      rw [hlatest]
      rfl
    refine ⟨_, _, ((Path.single h1).snoc h2).snoc h3, hsecond, hnot, fun hkept => ?_⟩
    have hserved := ((forwarded_iff _ _).mp (hkept 2 ⟨0x11400400, 0⟩ .zero hsecond).1).2
    rw [hnot] at hserved
    cases hserved
  · have hten : intervalInNanos (.ofInt 10) = some 100000000 := by decide +kernel
    have hone : intervalInNanos (.ofInt 1) = some 1000000000 := by decide +kernel
    have hspeed : isContinuous gearAndSpeed 0x11600207 := ⟨speedConfig, rfl, rfl⟩
    obtain ⟨s₁, h1, hrunning₁, hlatest₁, hs1, _⟩ :=
      speed_step (s := {}) scheduled_start rfl 1 hten (by decide)
    obtain ⟨s₂, h2, _, hlatest₂, hs2, hevery⟩ := speed_step hs1 hrunning₁ 2 hone (by decide)
    have hfirst : s₂.latest 1 ⟨0x11600207, 0⟩ = some (.ofInt 10) := by
      rw [hlatest₂, hlatest₁]
      rfl
    refine ⟨_, s₂, (Path.single h1).snoc h2, hfirst, hevery, fun hkept => ?_⟩
    obtain ⟨interval, hrefreshed, hlimit⟩ := (hkept 1 ⟨0x11600207, 0⟩ (.ofInt 10) hfirst).2 hspeed
    obtain ⟨info, hlookup, rfl⟩ := (refreshedEvery_iff hs2 _ _).mp hrefreshed
    obtain ⟨info', hlookup', hinfo'⟩ := (refreshedEvery_iff hs2 _ _).mp hevery
    cases hlookup.symm.trans hlookup'
    have hle := hlimit 100000000 hten
    omega

end VhalCore.Grpc
