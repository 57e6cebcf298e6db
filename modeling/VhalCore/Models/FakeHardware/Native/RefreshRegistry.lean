import VhalCore.Models.FakeHardware.Native.Subscriptions

/-!
# The callbacks behind the refreshed pairs

Every callback that the hardware gives to the timer is an object of its own, made when an
interval gets its first pair. The action of the interval keeps the object and takes it from the
timer again. The timer has a map from the registered objects to their intervals.
-/

namespace VhalCore.FakeHardware

/-- The hardware with the callback objects that it has made. -/
structure RefreshRegistry where
  hardware : FakeVehicleHardware := {}
  /-- The object in the action of an interval. -/
  recurrentActions : UnorderedMap Int Nat := ∅
  /-- The objects that are registered at the timer, with their intervals. -/
  timerCallbacks : UnorderedMap Nat Int := ∅
  /-- The number of objects made so far, which is the next object. -/
  made : Nat := 0
  /-- The timer has divided by an interval of 0, which is a fault of the program. -/
  dividedByZero : Bool := false

section Conversion

variable (undefinedCast : Binary32 → Int)

/-- The interval of a sample rate. Where the conversion is undefined it gives some number. -/
def refreshInterval (sampleRateHz : Binary32) : Int :=
  (intervalInNanos sampleRateHz).getD (undefinedCast sampleRateHz)

/-- Only changes are reported where the client asks for it and the area supports it. -/
def refreshEventMode (vehiclePropConfig : VehiclePropConfig) (areaId : Int)
    (enableVariableUpdateRate : Bool) : EventMode :=
  if isVariableUpdateRateSupported vehiclePropConfig areaId && enableVariableUpdateRate then
    .onValueChange
  else .always

namespace RefreshRegistry

/-- The timer forgets an object. -/
def unregisterTimerCallback (callback : Option Nat) (registry : RefreshRegistry) :
    RefreshRegistry :=
  match callback with
  | none => registry
  | some callback =>
      { registry with timerCallbacks := registry.timerCallbacks.erase callback }

/-- Removes a pair from the action of its interval, and the action with its last pair. -/
def unregisterRefreshLocked (propIdAreaId : PropIdAreaId) (registry : RefreshRegistry) :
    RefreshRegistry :=
  match registry.hardware.mRefreshInfoByPropIdAreaId.lookup propIdAreaId with
  | none => registry
  | some refreshInfo =>
      let interval := refreshInfo.intervalInNanos
      let action := registry.hardware.mActionByIntervalInNanos.valueAt interval {}
      let hardware := registry.hardware.unregisterRefreshLocked propIdAreaId
      if action.propIdAreaIdsToRefresh.erase propIdAreaId = ∅ then
        { registry.unregisterTimerCallback (registry.recurrentActions.lookup interval) with
          hardware := hardware
          recurrentActions := registry.recurrentActions.erase interval }
      else { registry with hardware := hardware }

/-- The first pair of an interval makes a new object. The timer divides by the interval when it
registers the object. -/
def addToInterval (propIdAreaId : PropIdAreaId) (refreshInfo : RefreshInfo)
    (registry : RefreshRegistry) : RefreshRegistry :=
  let interval := refreshInfo.intervalInNanos
  let hardware := registry.hardware.addToInterval propIdAreaId refreshInfo
  match registry.hardware.mActionByIntervalInNanos.lookup interval with
  | some _ => { registry with hardware := hardware }
  | none =>
      { hardware := hardware
        recurrentActions := registry.recurrentActions.insert interval registry.made
        timerCallbacks := registry.timerCallbacks.insert registry.made interval
        made := registry.made + 1
        dividedByZero := registry.dividedByZero || interval == 0 }

/-- Moves a pair to the action of a new interval. -/
def registerRefreshLocked (propIdAreaId : PropIdAreaId) (eventMode : EventMode)
    (sampleRateHz : Binary32) (registry : RefreshRegistry) : RefreshRegistry :=
  (registry.unregisterRefreshLocked propIdAreaId).addToInterval propIdAreaId
    ⟨eventMode, refreshInterval undefinedCast sampleRateHz⟩

/-- Subscribes a pair as its change mode asks for. -/
def subscribePropIdAreaIdLocked (propId areaId : Int) (sampleRateHz : Binary32)
    (enableVariableUpdateRate : Bool) (vehiclePropConfig : VehiclePropConfig)
    (registry : RefreshRegistry) : StatusCode × RefreshRegistry :=
  match vehiclePropConfig.changeMode with
  | .static => (.ok, registry)
  | .onChange =>
      (.ok, { registry with
        hardware := { registry.hardware with
          mSubOnChangePropIdAreaIds :=
            insert ⟨propId, areaId⟩ registry.hardware.mSubOnChangePropIdAreaIds } })
  | .continuous =>
      if sampleRateHz.eq .zero then (.invalidArg, registry)
      else
        (.ok, registry.registerRefreshLocked undefinedCast ⟨propId, areaId⟩
          (refreshEventMode vehiclePropConfig areaId enableVariableUpdateRate) sampleRateHz)

/-- The loop of `subscribe`, which stops at the first failure. -/
def subscribeAreas (options : SubscribeOptions) (config : VehiclePropConfig) :
    List Int → RefreshRegistry → StatusCode × RefreshRegistry
  | [], registry => (.ok, registry)
  | areaId :: areaIds, registry =>
      match registry.subscribePropIdAreaIdLocked undefinedCast options.propId areaId
          options.sampleRate options.enableVariableUpdateRate config with
      | (.ok, registry) => subscribeAreas options config areaIds registry
      | (status, registry) => (status, registry)

variable (getPropConfig : Int → Option VehiclePropConfig)

/-- Subscribes the areas of some options. -/
def subscribe (options : SubscribeOptions) (registry : RefreshRegistry) :
    StatusCode × RefreshRegistry :=
  match getPropConfig options.propId with
  | none => (.invalidArg, registry)
  | some config => subscribeAreas undefinedCast options config options.areaIds registry

/-- Removes a pair from the refreshed and from the on-change ones. -/
def unsubscribe (propId areaId : Int) (registry : RefreshRegistry) :
    StatusCode × RefreshRegistry :=
  let registry := registry.unregisterRefreshLocked ⟨propId, areaId⟩
  (.ok, { registry with
    hardware := { registry.hardware with
      mSubOnChangePropIdAreaIds :=
        registry.hardware.mSubOnChangePropIdAreaIds.erase ⟨propId, areaId⟩ } })

end RefreshRegistry

/-- The calls that change the entries of the hardware. -/
inductive RegistryCall where
  | subscribe (options : SubscribeOptions)
  | unsubscribe (propId areaId : Int)

variable (getPropConfig : Int → Option VehiclePropConfig)

/-- One call changes the registry. -/
def RegistryCall.apply (registry : RefreshRegistry) : RegistryCall → RefreshRegistry
  | .subscribe options => (registry.subscribe undefinedCast getPropConfig options).2
  | .unsubscribe propId areaId => (registry.unsubscribe propId areaId).2

/-- The registry after some calls. -/
def RefreshRegistry.run (calls : List RegistryCall) : RefreshRegistry :=
  calls.foldl (RegistryCall.apply undefinedCast getPropConfig) {}

end Conversion

end VhalCore.FakeHardware
