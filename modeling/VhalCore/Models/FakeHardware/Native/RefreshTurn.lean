import VhalCore.Core.Execution
import VhalCore.Models.FakeHardware.Native.RefreshRegistry
import VhalCore.Models.PropertyStore.Native.Store

/-!
# A turn of the timer

The callback of an interval copies the event modes of its pairs under the lock of the hardware
and refreshes them in the store without it. The store then calls back with the refreshed values,
and the hardware takes its lock again to pass on those that are subscribed. In between other
threads subscribe, unsubscribe and use the store.
-/

namespace VhalCore.FakeHardware

open PropertyStore (ChangeCallback VehiclePropertyStore)

/-- The mode of the store, which has one more. -/
def EventMode.ofStore : EventMode → PropertyStore.EventMode
  | .onValueChange => .onValueChange
  | .always => .always

/-- What the subscript operator inserts for a pair without an interval. -/
def RefreshInfo.zero : RefreshInfo := ⟨.onValueChange, 0⟩

/-- The pairs that a turn refreshes, each with its event mode. -/
abbrev EventModes : Type := UnorderedMap PropIdAreaId PropertyStore.EventMode

namespace FakeVehicleHardware

/-- The loop over the pairs of an interval. -/
def copyEventModes (eventModeByPropIdAreaId : EventModes) :
    List PropIdAreaId → FakeVehicleHardware → EventModes × FakeVehicleHardware
  | [], hardware => (eventModeByPropIdAreaId, hardware)
  | propIdAreaId :: propIdAreaIds, hardware =>
      let refreshInfos := hardware.mRefreshInfoByPropIdAreaId
      let refreshInfo := refreshInfos.valueAt propIdAreaId .zero
      copyEventModes (eventModeByPropIdAreaId.insert propIdAreaId refreshInfo.eventMode.ofStore)
        propIdAreaIds
        { hardware with mRefreshInfoByPropIdAreaId := refreshInfos.touch propIdAreaId .zero }

/-- The part of `refreshTimestampForInterval` with the lock held. Nothing is refreshed for an
interval without an action. -/
def eventModesForInterval (order : Traversal PropIdAreaId) (intervalInNanos : Int)
    (hardware : FakeVehicleHardware) : Option EventModes × FakeVehicleHardware :=
  match hardware.mActionByIntervalInNanos.lookup intervalInNanos with
  | none => (none, hardware)
  | some actionForInterval =>
      let (eventModeByPropIdAreaId, hardware) :=
        hardware.copyEventModes ∅ (order.visit actionForInterval.propIdAreaIdsToRefresh)
      (some eventModeByPropIdAreaId, hardware)

end FakeVehicleHardware

/-- Where the thread of the timer is in the callback of an interval. -/
inductive TurnStage where
  | idle
  /-- The lock is released and the store is not called yet. -/
  | copied (intervalInNanos : Int) (eventModeByPropIdAreaId : EventModes)
  /-- The store has released its lock and has some callbacks left. -/
  | refreshed (intervalInNanos : Int) (callbacks : List ChangeCallback)

/-- The hardware with its timer thread. -/
structure RefreshSystem where
  registry : RefreshRegistry := {}
  store : VehiclePropertyStore := {}
  mOnPropertyChangeCallback : Bool := false
  stage : TurnStage := .idle

/-- The configs that a subscription finds. -/
def RefreshSystem.getPropConfig (s : RefreshSystem) (propId : Int) : Option VehiclePropConfig :=
  (s.store.getPropConfig propId).toOption

/-- Properties are registered before the hardware is used, and only the timer refreshes. -/
def StoreCall : PropertyStore.Operation → Prop
  | .registerProperty _ _ | .refreshTimestamps _ _ _ => False
  | _ => True

/-- What happens between the timer thread and the others. -/
inductive RefreshEvent where
  /-- Some thread subscribes or unsubscribes. -/
  | call (registryCall : RegistryCall)
  | registerOnPropertyChangeEvent
  /-- Some other thread calls the store. -/
  | store (op : PropertyStore.Operation)
  /-- The timer calls the callback of an interval. -/
  | timer (intervalInNanos : Int)
  | refresh (now : PropIdAreaId → Int)
  /-- The store calls back, with what is passed on if there is a callback. -/
  | passOn (intervalInNanos : Int) (values : Option (List VehiclePropValue))
  | finish (intervalInNanos : Int)

/-- The event is one of the thread of the timer. -/
def RefreshEvent.ofTimer : RefreshEvent → Bool
  | .timer _ | .refresh _ | .passOn _ _ | .finish _ => true
  | _ => false

/-- The steps of the threads. The timer has one thread, and may call the callback of any
interval at any time. No step follows a subscription with an interval of 0, by which the timer
divides. -/
inductive RefreshStep (undefinedCast : Binary32 → Int) :
    RefreshSystem → RefreshEvent → RefreshSystem → Prop
  | call (s : RefreshSystem) (registryCall : RegistryCall) :
      (registryCall.apply undefinedCast s.getPropConfig s.registry).dividedByZero = false →
      RefreshStep undefinedCast s (.call registryCall)
        { s with registry := registryCall.apply undefinedCast s.getPropConfig s.registry }
  | registerOnPropertyChangeEvent (s : RefreshSystem) :
      RefreshStep undefinedCast s .registerOnPropertyChangeEvent
        { s with mOnPropertyChangeCallback := true }
  | store (s : RefreshSystem) {op : PropertyStore.Operation} :
      StoreCall op → RefreshStep undefinedCast s (.store op) { s with store := op.apply s.store }
  | timer (s : RefreshSystem) (order : Traversal PropIdAreaId) {intervalInNanos : Int}
      {eventModes : EventModes} {hardware : FakeVehicleHardware} :
      s.stage = .idle →
      s.registry.hardware.eventModesForInterval order intervalInNanos =
        (some eventModes, hardware) →
      RefreshStep undefinedCast s (.timer intervalInNanos)
        { s with
          registry := { s.registry with hardware := hardware }
          stage := .copied intervalInNanos eventModes }
  | ignore (s : RefreshSystem) (order : Traversal PropIdAreaId) {intervalInNanos : Int}
      {hardware : FakeVehicleHardware} :
      s.stage = .idle →
      s.registry.hardware.eventModesForInterval order intervalInNanos = (none, hardware) →
      RefreshStep undefinedCast s (.timer intervalInNanos)
        { s with registry := { s.registry with hardware := hardware } }
  | refresh (s : RefreshSystem) (now : PropIdAreaId → Int) (order : Traversal PropIdAreaId)
      {intervalInNanos : Int} {eventModes : EventModes} :
      s.stage = .copied intervalInNanos eventModes →
      RefreshStep undefinedCast s (.refresh now)
        { s with
          store := (s.store.refreshTimestamps now order eventModes).2
          stage := .refreshed intervalInNanos (s.store.refreshTimestamps now order eventModes).1 }
  | passOn (s : RefreshSystem) {intervalInNanos : Int} {callback : ChangeCallback}
      {callbacks : List ChangeCallback} :
      s.stage = .refreshed intervalInNanos (callback :: callbacks) →
      RefreshStep undefinedCast s
        (.passOn intervalInNanos (s.registry.hardware.callOnPropertyChange
          (if s.mOnPropertyChangeCallback then some id else none) callback.values))
        { s with stage := .refreshed intervalInNanos callbacks }
  | finish (s : RefreshSystem) {intervalInNanos : Int} :
      s.stage = .refreshed intervalInNanos [] →
      RefreshStep undefinedCast s (.finish intervalInNanos) { s with stage := .idle }

namespace RefreshEvent

/-- The subscriptions and cancellations in some events. -/
def registryCalls (events : List RefreshEvent) : List RegistryCall :=
  events.filterMap fun
    | .call registryCall => some registryCall
    | _ => none

/-- The values that are passed on in some events. -/
def passedOn (events : List RefreshEvent) : List VehiclePropValue :=
  events.flatMap fun
    | .passOn _ values => values.getD []
    | _ => []

end RefreshEvent

end VhalCore.FakeHardware
