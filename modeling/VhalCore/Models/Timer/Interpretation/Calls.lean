import VhalCore.Models.FakeHardware.Interpretation.Refresh
import VhalCore.Models.Timer.Interpretation.System

/-!
# The calls that the hardware makes to the timer

The calls of a function of the hardware leave the callbacks at the timer that the hardware
has for its intervals. Of a hardware that has no intervals, only a subscription that gets to
`registerRefreshLocked` calls the timer, and its first call registers a callback.
-/

namespace VhalCore.Timer

open FakeHardware FakeVehicleHardware

variable {hardware hardware' : FakeVehicleHardware} {p : PropIdAreaId}

section Callbacks

/-- The intervals with a callback at the timer after a call. -/
def callbacksAfter (callbacks : Finset Int) : Call → Finset Int
  | .registerTimerCallback _ (.refreshTimestampForInterval interval) => insert interval callbacks
  | .unregisterTimerCallback (.refreshTimestampForInterval interval) => callbacks.erase interval
  | _ => callbacks

/-- The calls of the timer are those that unregistering a pair makes. -/
theorem timerCallbacks_unregisterRefreshLocked (p : PropIdAreaId)
    (hardware : FakeVehicleHardware) :
    (hardware.unregisterRefreshLocked p).timerCallbacks =
      (unregisterRefreshCalls p hardware).foldl callbacksAfter hardware.timerCallbacks := by
  rw [unregisterRefreshLocked, unregisterRefreshCalls]
  cases hardware.mRefreshInfoByPropIdAreaId.lookup p with
  | none => rfl
  | some refreshInfo =>
      simp only
      split
      · cases (hardware.mActionByIntervalInNanos.valueAt
            refreshInfo.intervalInNanos {}).recurrentAction with
        | none => rfl
        | some interval => rfl
      · rfl

/-- Adding a pair registers a callback for a new interval only. -/
theorem timerCallbacks_addToInterval (p : PropIdAreaId) (refreshInfo : RefreshInfo)
    (hardware : FakeVehicleHardware) :
    (hardware.addToInterval p refreshInfo).timerCallbacks =
      match hardware.mActionByIntervalInNanos.lookup refreshInfo.intervalInNanos with
      | some _ => hardware.timerCallbacks
      | none => insert refreshInfo.intervalInNanos hardware.timerCallbacks := by
  rw [addToInterval]
  simp only
  cases hardware.mActionByIntervalInNanos.lookup refreshInfo.intervalInNanos with
  | none => rfl
  | some action => rfl

/-- One pair of a subscription leaves the callbacks that its calls leave. -/
theorem timerCallbacks_subscribePropIdAreaIdLocked {propId areaId : Int} {rate : Binary32}
    {enableVur : Bool} {config : VehiclePropConfig} {status : StatusCode}
    (h : hardware.subscribePropIdAreaIdLocked propId areaId rate enableVur config =
      some (status, hardware')) :
    hardware'.timerCallbacks =
      (subscribePropIdAreaIdCalls propId areaId rate config hardware).foldl callbacksAfter
        hardware.timerCallbacks := by
  rw [subscribePropIdAreaIdLocked] at h
  rw [subscribePropIdAreaIdCalls]
  cases hmode : config.changeMode with
  | static | onChange =>
      rw [hmode] at h
      cases h
      rfl
  | continuous =>
      rw [hmode] at h
      simp only at h ⊢
      split at h
      · next hzero =>
        cases h
        rw [if_pos hzero]
        rfl
      · next hzero =>
        rw [if_neg hzero]
        rw [registerRefreshLocked] at h
        cases hinterval : intervalInNanos rate with
        | none =>
            rw [hinterval] at h
            cases h
        | some interval =>
            rw [hinterval] at h
            simp only at h
            split at h
            · cases h
            cases h
            simp only
            rw [timerCallbacks_addToInterval, timerCallbacks_unregisterRefreshLocked,
              registerRefreshCalls, List.foldl_append]
            cases Finmap.lookup interval
                (hardware.unregisterRefreshLocked ⟨propId, areaId⟩).mActionByIntervalInNanos with
            | none => rfl
            | some action => rfl

/-- A subscription leaves the callbacks at the timer that its calls leave. -/
theorem timerCallbacks_subscribeAreas {options : SubscribeOptions} {config : VehiclePropConfig}
    {areaIds : List Int} {status : StatusCode}
    (h : subscribeAreas options config areaIds hardware = some (status, hardware')) :
    hardware'.timerCallbacks =
      (subscribeAreasCalls options config areaIds hardware).foldl callbacksAfter
        hardware.timerCallbacks := by
  induction areaIds generalizing hardware with
  | nil =>
      cases h
      rfl
  | cons areaId areaIds ih =>
      rw [subscribeAreas] at h
      rw [subscribeAreasCalls, List.foldl_append]
      cases hpair : hardware.subscribePropIdAreaIdLocked options.propId areaId options.sampleRate
          options.enableVariableUpdateRate config with
      | none =>
          rw [hpair] at h
          cases h
      | some result =>
          obtain ⟨pairStatus, hardware₁⟩ := result
          rw [hpair] at h
          rw [← timerCallbacks_subscribePropIdAreaIdLocked hpair]
          cases pairStatus with
          | ok => exact ih h
          | _ =>
              cases h
              rfl

/-- A call of the hardware leaves the callbacks at the timer that its own calls leave. -/
theorem timerCallbacks_hardwareCall {getPropConfig : Int → Option VehiclePropConfig}
    {call : Call} {calls : List Call}
    (h : hardwareCall getPropConfig hardware call = some (calls, hardware')) :
    hardware'.timerCallbacks = calls.foldl callbacksAfter hardware.timerCallbacks := by
  cases call with
  | subscribe options =>
      rw [hardwareCall] at h
      cases hconfig : getPropConfig options.propId with
      | none =>
          rw [hconfig] at h
          cases h
      | some config =>
          rw [hconfig] at h
          obtain ⟨⟨status, hardware₁⟩, heq, hresult⟩ := Option.map_eq_some_iff.mp h
          cases hresult
          exact timerCallbacks_subscribeAreas heq
  | unsubscribe propId areaId =>
      cases h
      exact timerCallbacks_unregisterRefreshLocked _ _
  | registerTimerCallback _ _ => cases h
  | unregisterTimerCallback _ => cases h
  | handleMessage _ => cases h

end Callbacks

section Quiet

variable {getPropConfig : Int → Option VehiclePropConfig} {options : SubscribeOptions}
  {config : VehiclePropConfig}

/-- The hardware refreshes nothing. -/
structure NoIntervals (hardware : FakeVehicleHardware) : Prop where
  refreshInfos : hardware.mRefreshInfoByPropIdAreaId = ∅
  actions : hardware.mActionByIntervalInNanos = ∅

theorem NoIntervals.unregisterRefreshLocked (h : NoIntervals hardware) (p : PropIdAreaId) :
    hardware.unregisterRefreshLocked p = hardware := by
  rw [FakeVehicleHardware.unregisterRefreshLocked, h.refreshInfos, Finmap.lookup_empty]

theorem NoIntervals.unregisterRefreshCalls (h : NoIntervals hardware) (p : PropIdAreaId) :
    unregisterRefreshCalls p hardware = [] := by
  rw [Timer.unregisterRefreshCalls, h.refreshInfos, Finmap.lookup_empty]

/-- Only continuous properties call the timer. -/
theorem subscribeAreasCalls_of_changeMode (hmode : config.changeMode ≠ .continuous)
    (areaIds : List Int) (hardware : FakeVehicleHardware) :
    subscribeAreasCalls options config areaIds hardware = [] := by
  induction areaIds generalizing hardware with
  | nil => rfl
  | cons areaId areaIds ih =>
      have hpair : subscribePropIdAreaIdCalls options.propId areaId options.sampleRate config
          hardware = [] := by
        rw [subscribePropIdAreaIdCalls]
        cases hc : config.changeMode with
        | static => rfl
        | onChange => rfl
        | continuous => exact absurd hc hmode
      rw [subscribeAreasCalls, hpair, List.nil_append]
      split
      · exact ih _
      · rfl

/-- A subscription that does not get to `registerRefreshLocked` calls nothing of the timer and
changes nothing but on-change pairs. -/
theorem hardwareCall_of_not_refreshes (hconfig : getPropConfig options.propId = some config)
    (hnot : refreshes getPropConfig options = false) (hardware : FakeVehicleHardware) :
    ∃ pairs, hardwareCall getPropConfig hardware (.subscribe options) =
      some ([], { hardware with mSubOnChangePropIdAreaIds := pairs }) := by
  rw [hardwareCall, hconfig]
  simp only
  cases hmode : config.changeMode with
  | static =>
      have hcalls := @subscribeAreasCalls_of_changeMode options config (by rw [hmode]; decide)
        options.areaIds hardware
      rw [subscribeAreas_static hmode, hcalls]
      exact ⟨_, rfl⟩
  | onChange =>
      have hcalls := @subscribeAreasCalls_of_changeMode options config (by rw [hmode]; decide)
        options.areaIds hardware
      obtain ⟨pairs, heq, _⟩ := @subscribeAreas_onChange options config hmode options.areaIds
        hardware
      rw [heq, hcalls]
      exact ⟨pairs, rfl⟩
  | continuous =>
      cases hareas : options.areaIds with
      | nil => exact ⟨_, rfl⟩
      | cons areaId areaIds =>
          have hzero : options.sampleRate.eq .zero = true := by
            simpa [refreshes, hconfig, hmode, hareas] using hnot
          rw [subscribeAreas, subscribeAreasCalls, subscribePropIdAreaIdCalls,
            subscribePropIdAreaIdLocked, hmode]
          simp only
          rw [if_pos hzero, if_pos hzero]
          exact ⟨_, rfl⟩

/-- Cancelling a pair calls nothing of the timer as long as nothing is refreshed. -/
theorem NoIntervals.hardwareCall_unsubscribe (h : NoIntervals hardware) (propId areaId : Int) :
    ∃ pairs, hardwareCall getPropConfig hardware (.unsubscribe propId areaId) =
      some ([], { hardware with mSubOnChangePropIdAreaIds := pairs }) := by
  rw [hardwareCall, h.unregisterRefreshCalls, unsubscribe, h.unregisterRefreshLocked]
  exact ⟨_, rfl⟩

/-- The first call of a subscription that gets to `registerRefreshLocked` registers a callback if
nothing is refreshed before. -/
theorem NoIntervals.hardwareCall_of_refreshes (h : NoIntervals hardware)
    (hrefreshes : refreshes getPropConfig options = true) {calls : List Call}
    (hcall : hardwareCall getPropConfig hardware (.subscribe options) = some (calls, hardware')) :
    ∃ interval callback more, calls = .registerTimerCallback interval callback :: more := by
  rw [hardwareCall] at hcall
  rw [refreshes] at hrefreshes
  cases hconfig : getPropConfig options.propId with
  | none =>
      rw [hconfig] at hcall
      cases hcall
  | some config =>
      rw [hconfig] at hcall hrefreshes
      obtain ⟨⟨status, hardware₁⟩, heq, hresult⟩ := Option.map_eq_some_iff.mp hcall
      cases hresult
      simp only [Bool.and_eq_true, decide_eq_true_eq, Bool.not_eq_true', List.isEmpty_eq_false_iff]
        at hrefreshes
      obtain ⟨⟨hmode, hareas⟩, hrate⟩ := hrefreshes
      cases hcons : options.areaIds with
      | nil => exact absurd hcons hareas
      | cons areaId areaIds =>
          rw [hcons, subscribeAreas, subscribePropIdAreaIdLocked, hmode] at heq
          rw [subscribeAreasCalls, subscribePropIdAreaIdCalls, hmode]
          simp only [hrate, Bool.false_eq_true, ite_false, registerRefreshLocked] at heq ⊢
          cases hinterval : intervalInNanos options.sampleRate with
          | none =>
              rw [hinterval] at heq
              cases heq
          | some interval =>
              simp only [registerRefreshCalls, h.unregisterRefreshCalls, h.unregisterRefreshLocked,
                h.actions, Finmap.lookup_empty]
              exact ⟨_, _, _, rfl⟩

end Quiet

end VhalCore.Timer
