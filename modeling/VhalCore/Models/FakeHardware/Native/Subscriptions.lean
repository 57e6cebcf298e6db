import VhalCore.Core.UnorderedMap
import VhalCore.Models.Vehicle.Configs

/-!
# Subscriptions of the fake vehicle hardware

The hardware has one entry for each subscribed property and area: on-change pairs are in a
set, continuous ones have the interval at which they are refreshed. Pairs with the same
interval share one callback of the timer, which is registered with the first of them and
unregistered with the last one. A changed value is passed on if its pair has an entry.
-/

namespace VhalCore.FakeHardware

/-- When a refreshed value counts as changed; the mode that is never used here is left out. -/
inductive EventMode where
  | onValueChange
  | always
  deriving DecidableEq, Repr

/-- How a pair is refreshed. -/
structure RefreshInfo where
  eventMode : EventMode
  intervalInNanos : Int
  deriving DecidableEq, Repr

/-- The pairs that are refreshed at an interval and the callback that does it. A callback is
named by the interval it was made for. -/
structure ActionForInterval where
  propIdAreaIdsToRefresh : Finset PropIdAreaId := ∅
  recurrentAction : Option Int := none

/-- The subscriptions that the hardware holds. -/
structure FakeVehicleHardware where
  mRefreshInfoByPropIdAreaId : UnorderedMap PropIdAreaId RefreshInfo := ∅
  mActionByIntervalInNanos : UnorderedMap Int ActionForInterval := ∅
  mSubOnChangePropIdAreaIds : Finset PropIdAreaId := ∅
  /-- The callbacks that are registered at the timer, each with its own interval. -/
  timerCallbacks : Finset Int := ∅

/-- The interval of a sample rate, if the conversion is defined. -/
def intervalInNanos (sampleRateHz : Binary32) : Option Int :=
  sampleRateHz.quotientToInt64 1000000000

/-- The configuration of the area says that it supports a variable update rate. -/
def isVariableUpdateRateSupported (vehiclePropConfig : VehiclePropConfig) (areaId : Int) : Bool :=
  match vehiclePropConfig.areaConfigs.find? fun areaConfig => areaConfig.areaId = areaId with
  | none => false
  | some areaConfig => areaConfig.supportVariableUpdateRate

namespace FakeVehicleHardware

/-- The timer forgets the callback of an action, where it has one. -/
def unregisterTimerCallback (callback : Option Int) (hardware : FakeVehicleHardware) :
    FakeVehicleHardware :=
  match callback with
  | none => hardware
  | some interval =>
      { hardware with timerCallbacks := hardware.timerCallbacks.erase interval }

/-- Removes a pair from the action of its interval, and the action with its last pair. -/
def unregisterRefreshLocked (propIdAreaId : PropIdAreaId) (hardware : FakeVehicleHardware) :
    FakeVehicleHardware :=
  match hardware.mRefreshInfoByPropIdAreaId.lookup propIdAreaId with
  | none => hardware
  | some refreshInfo =>
      let interval := refreshInfo.intervalInNanos
      let action := hardware.mActionByIntervalInNanos.valueAt interval {}
      let left := action.propIdAreaIdsToRefresh.erase propIdAreaId
      let refreshInfos := hardware.mRefreshInfoByPropIdAreaId.erase propIdAreaId
      if left = ∅ then
        { hardware.unregisterTimerCallback action.recurrentAction with
          mActionByIntervalInNanos := hardware.mActionByIntervalInNanos.erase interval
          mRefreshInfoByPropIdAreaId := refreshInfos }
      else
        { hardware with
          mActionByIntervalInNanos := hardware.mActionByIntervalInNanos.insert interval
            { action with propIdAreaIdsToRefresh := left }
          mRefreshInfoByPropIdAreaId := refreshInfos }

/-- The pair is added to the interval, which gets a callback if it is the first one. -/
def addToInterval (propIdAreaId : PropIdAreaId) (refreshInfo : RefreshInfo)
    (hardware : FakeVehicleHardware) : FakeVehicleHardware :=
  let interval := refreshInfo.intervalInNanos
  let hardware := { hardware with
    mRefreshInfoByPropIdAreaId :=
      hardware.mRefreshInfoByPropIdAreaId.insert propIdAreaId refreshInfo }
  match hardware.mActionByIntervalInNanos.lookup interval with
  | some action =>
      { hardware with
        mActionByIntervalInNanos := hardware.mActionByIntervalInNanos.insert interval
          { action with
            propIdAreaIdsToRefresh := insert propIdAreaId action.propIdAreaIdsToRefresh } }
  | none =>
      { hardware with
        mActionByIntervalInNanos :=
          hardware.mActionByIntervalInNanos.insert interval ⟨{propIdAreaId}, some interval⟩
        timerCallbacks := insert interval hardware.timerCallbacks }

/-- No result where the conversion is undefined, or where the interval is 0: the timer divides
by it when the callback is registered. -/
def registerRefreshLocked (propIdAreaId : PropIdAreaId) (eventMode : EventMode)
    (sampleRateHz : Binary32) (hardware : FakeVehicleHardware) : Option FakeVehicleHardware :=
  match intervalInNanos sampleRateHz with
  | none => none
  | some interval =>
      if interval = 0 then none
      else
        some ((hardware.unregisterRefreshLocked propIdAreaId).addToInterval propIdAreaId
          ⟨eventMode, interval⟩)

/-- One pair of a subscription; no result where an operation is undefined. -/
def subscribePropIdAreaIdLocked (propId areaId : Int) (sampleRateHz : Binary32)
    (enableVariableUpdateRate : Bool) (vehiclePropConfig : VehiclePropConfig)
    (hardware : FakeVehicleHardware) : Option (StatusCode × FakeVehicleHardware) :=
  match vehiclePropConfig.changeMode with
  | .static => some (.ok, hardware)
  | .onChange =>
      some (.ok, { hardware with
        mSubOnChangePropIdAreaIds := insert ⟨propId, areaId⟩ hardware.mSubOnChangePropIdAreaIds })
  | .continuous =>
      if sampleRateHz.eq .zero then some (.invalidArg, hardware)
      else
        let eventMode := if isVariableUpdateRateSupported vehiclePropConfig areaId &&
          enableVariableUpdateRate then EventMode.onValueChange else .always
        (hardware.registerRefreshLocked ⟨propId, areaId⟩ eventMode sampleRateHz).map
          fun hardware => (.ok, hardware)

/-- The loop of `subscribe`, which stops at the first failure. -/
def subscribeAreas (options : SubscribeOptions) (config : VehiclePropConfig) :
    List Int → FakeVehicleHardware → Option (StatusCode × FakeVehicleHardware)
  | [], hardware => some (.ok, hardware)
  | areaId :: areaIds, hardware =>
      match hardware.subscribePropIdAreaIdLocked options.propId areaId options.sampleRate
          options.enableVariableUpdateRate config with
      | none => none
      | some (.ok, hardware) => subscribeAreas options config areaIds hardware
      | some (status, hardware) => some (status, hardware)

/-- Subscribes the areas of some options. -/
def subscribe (getPropConfig : Int → Option VehiclePropConfig) (options : SubscribeOptions)
    (hardware : FakeVehicleHardware) : Option (StatusCode × FakeVehicleHardware) :=
  match getPropConfig options.propId with
  | none => some (.invalidArg, hardware)
  | some config => subscribeAreas options config options.areaIds hardware

/-- Removes a pair from the refreshed and from the on-change ones. -/
def unsubscribe (propId areaId : Int) (hardware : FakeVehicleHardware) :
    StatusCode × FakeVehicleHardware :=
  let hardware := hardware.unregisterRefreshLocked ⟨propId, areaId⟩
  (.ok, { hardware with
    mSubOnChangePropIdAreaIds := hardware.mSubOnChangePropIdAreaIds.erase ⟨propId, areaId⟩ })

/-- The hardware has an entry for the pair. -/
def isSubscribed (hardware : FakeVehicleHardware) (propIdAreaId : PropIdAreaId) : Bool :=
  (hardware.mRefreshInfoByPropIdAreaId.lookup propIdAreaId).isSome ||
    propIdAreaId ∈ hardware.mSubOnChangePropIdAreaIds

/-- The changed values that are passed on. -/
def onValuesChangeCallback (values : List VehiclePropValue) (hardware : FakeVehicleHardware) :
    List VehiclePropValue :=
  values.filter fun value => hardware.isSubscribed value.propIdAreaId

/-- The call at the end of `onValuesChangeCallback`, if there is a callback. -/
def callOnPropertyChange {Effect : Type}
    (mOnPropertyChangeCallback : Option (List VehiclePropValue → Effect))
    (values : List VehiclePropValue) (hardware : FakeVehicleHardware) : Option Effect :=
  match mOnPropertyChangeCallback with
  | none => none
  | some callback => some (callback (hardware.onValuesChangeCallback values))

end FakeVehicleHardware

end VhalCore.FakeHardware
