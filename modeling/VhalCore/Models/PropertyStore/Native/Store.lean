import VhalCore.Core.UnorderedMap
import VhalCore.Models.Vehicle.Configs

/-!
# The property store

The store has a record for every registered property: its config, an optional function that
derives a token from a value, and one value for each record id. A record id is an area and
a token, and every area id of a global property stands for area zero.

A call takes the lock for its work on the records. The callbacks run after the lock is
released, so an update is split into its locked section and its notification. A value that
is read is a copy from the value pool.
-/

namespace VhalCore.PropertyStore

/-- When an update invokes the callback. -/
inductive EventMode where
  | onValueChange
  | always
  | never
  deriving DecidableEq, Repr

/-- What a value is stored under. -/
structure RecordId where
  area : Int
  token : Int
  deriving DecidableEq, Repr

/-- How a property tells values of one area apart. -/
abbrev TokenFunction := VehiclePropValue → Int

/-- A registered property and its values. -/
structure Record where
  propConfig : VehiclePropConfig
  tokenFunction : Option TokenFunction := none
  values : UnorderedMap RecordId VehiclePropValue := ∅

/-- The records, and which of the two callbacks are set. -/
structure VehiclePropertyStore where
  mRecordsByPropId : UnorderedMap Int Record := ∅
  mOnValueChangeCallback : Bool := false
  mOnValuesChangeCallback : Bool := false

/-- An invocation of one of the callbacks. -/
inductive ChangeCallback where
  | onValueChange (updatedValue : VehiclePropValue)
  | onValuesChange (updatedValues : List VehiclePropValue)
  deriving DecidableEq

/-- The values that an invocation carries. -/
def ChangeCallback.values : ChangeCallback → List VehiclePropValue
  | .onValueChange updatedValue => [updatedValue]
  | .onValuesChange updatedValues => updatedValues

/-- The errors of the store. -/
inductive StoreError where
  /-- `property: {} not registered` -/
  | notRegistered (propId : Int)
  /-- `no config for property: {} area ID: {}` -/
  | noAreaConfig (propId areaId : Int)
  /-- `outdated timestampNanos: {}` -/
  | outdatedTimestamp (timestamp : Int)
  /-- `Record ID: {} is not found` -/
  | recordNotFound (recId : RecordId)
  deriving DecidableEq, Repr

/-- The status that an error is reported with. -/
def StoreError.code : StoreError → StatusCode
  | .notRegistered _ | .noAreaConfig _ _ | .outdatedTimestamp _ => .invalidArg
  | .recordNotFound _ => .notAvailable

/-- The area under which a value is stored. -/
def recordArea (propId areaId : Int) : Int := if isGlobalProp propId then 0 else areaId

/-- The token of a value, zero without a token function. -/
def Record.tokenOf (record : Record) (propValue : VehiclePropValue) : Int :=
  match record.tokenFunction with
  | none => 0
  | some tokenFunction => tokenFunction propValue

/-- What a value of the property is stored under. -/
def getRecordIdLocked (propValue : VehiclePropValue) (record : Record) : RecordId :=
  ⟨recordArea propValue.prop propValue.areaId, record.tokenOf propValue⟩

/-- The value that is stored under an identity. -/
def readValueLocked (recId : RecordId) (record : Record) : Except StoreError VehiclePropValue :=
  match record.values.lookup recId with
  | some value => .ok value
  | none => .error (.recordNotFound recId)

/-- What the locked section of an update leaves to its notification. -/
structure Notification where
  updatedValue : VehiclePropValue
  valueUpdated : Bool
  onValueChangeCallback : Bool
  onValuesChangeCallback : Bool
  deriving DecidableEq

/-- The callbacks for some updated values, if there are any and a callback is set. The
callback for several values is preferred to the one for a single value. -/
def invokeCallbacks (onValueChangeCallback onValuesChangeCallback : Bool)
    (updatedValues : List VehiclePropValue) : List ChangeCallback :=
  if updatedValues = [] then []
  else if onValuesChangeCallback then [.onValuesChange updatedValues]
  else if onValueChangeCallback then updatedValues.map .onValueChange
  else []

/-- The part of a write after the lock is released. -/
def Notification.invoke (eventMode : EventMode) (n : Notification) : List ChangeCallback :=
  if eventMode = .always || n.valueUpdated then
    invokeCallbacks n.onValueChangeCallback n.onValuesChangeCallback [n.updatedValue]
  else []

/-- A value with the current time, if the caller asks for it. -/
def stamp (now : Int) (useCurrentTimestamp : Bool) (propValue : VehiclePropValue) :
    VehiclePropValue :=
  if useCurrentTimestamp then { propValue with timestamp := now } else propValue

/-- The status of a written value: that of the previous one unless it is to be updated. -/
def writtenStatus (updateStatus : Bool) (propValue : VehiclePropValue)
    (previous : Option VehiclePropValue) : VehiclePropertyStatus :=
  if updateStatus then propValue.status
  else match previous with
    | some valueToUpdate => valueToUpdate.status
    | none => .available

/-- The written value differs from the previous one in its payload or its status. -/
def isUpdated (written : VehiclePropValue) : Option VehiclePropValue → Bool
  | some valueToUpdate =>
      !(valueToUpdate.value.eq written.value) || valueToUpdate.status != written.status
  | none => true

namespace VehiclePropertyStore

/-- The record of a property, if it is registered. -/
def getRecordLocked (propId : Int) (store : VehiclePropertyStore) : Option Record :=
  store.mRecordsByPropId.lookup propId

/-- The store with another record for a property. -/
def withRecord (propId : Int) (record : Record) (store : VehiclePropertyStore) :
    VehiclePropertyStore :=
  { store with mRecordsByPropId := store.mRecordsByPropId.insert propId record }

/-- A property that was registered before loses its values. -/
def registerProperty (config : VehiclePropConfig) (tokenFunc : Option TokenFunction)
    (store : VehiclePropertyStore) : VehiclePropertyStore :=
  store.withRecord config.prop { propConfig := config, tokenFunction := tokenFunc }

/-- The locked section of a write; there is nothing to notify in mode `never`. -/
def writeValueLocked (now : Int) (propValue : VehiclePropValue) (updateStatus : Bool)
    (eventMode : EventMode) (useCurrentTimestamp : Bool) (store : VehiclePropertyStore) :
    Except StoreError (Option Notification × VehiclePropertyStore) :=
  let propValue := stamp now useCurrentTimestamp propValue
  let propId := propValue.prop
  match store.getRecordLocked propId with
  | none => .error (.notRegistered propId)
  | some record =>
      if !isGlobalProp propId &&
          (getAreaConfig propId propValue.areaId record.propConfig).isNone then
        .error (.noAreaConfig propId propValue.areaId)
      else
        let recId := getRecordIdLocked propValue record
        let previous := record.values.lookup recId
        if previous.any fun valueToUpdate => propValue.timestamp < valueToUpdate.timestamp then
          .error (.outdatedTimestamp propValue.timestamp)
        else
          let updatedValue :=
            { propValue with status := writtenStatus updateStatus propValue previous }
          let store := store.withRecord propId
            { record with values := record.values.insert recId updatedValue }
          if eventMode = .never then .ok (none, store)
          else .ok (some ⟨updatedValue, isUpdated updatedValue previous,
            store.mOnValueChangeCallback, store.mOnValuesChangeCallback⟩, store)

/-- A write, with the callbacks it invokes; `now` is the time of the clock. -/
def writeValue (now : Int) (propValue : VehiclePropValue) (updateStatus : Bool)
    (eventMode : EventMode) (useCurrentTimestamp : Bool) (store : VehiclePropertyStore) :
    Except StoreError Unit × List ChangeCallback × VehiclePropertyStore :=
  match store.writeValueLocked now propValue updateStatus eventMode useCurrentTimestamp with
  | .error e => (.error e, [], store)
  | .ok (none, store) => (.ok (), [], store)
  | .ok (some notification, store) => (.ok (), notification.invoke eventMode, store)

/-- The turn of one pair in a refresh: the stored value, if there is one, gets the time of
the clock. -/
def refreshLocked (now : Int) (propIdAreaId : PropIdAreaId) (store : VehiclePropertyStore) :
    Option VehiclePropValue × VehiclePropertyStore :=
  match store.getRecordLocked propIdAreaId.propId with
  | none => (none, store)
  | some record =>
      let propValue : VehiclePropValue :=
        { areaId := propIdAreaId.areaId, prop := propIdAreaId.propId }
      let recId := getRecordIdLocked propValue record
      match record.values.lookup recId with
      | none => (none, store)
      | some value =>
          let updatedValue := { value with timestamp := now }
          (some updatedValue, store.withRecord propIdAreaId.propId
            { record with values := record.values.insert recId updatedValue })

/-- The loop of a refresh, with the values that are to be notified. The clock is read in the
turn of each pair. -/
def refreshLoop (now : PropIdAreaId → Int) (entries : List (PropIdAreaId × EventMode))
    (store : VehiclePropertyStore) : List VehiclePropValue × VehiclePropertyStore :=
  match entries with
  | [] => ([], store)
  | (propIdAreaId, eventMode) :: entries =>
      let (updatedValue, store) := store.refreshLocked (now propIdAreaId) propIdAreaId
      let (updatedValues, store) := store.refreshLoop now entries
      (if eventMode = .always then updatedValue.toList ++ updatedValues else updatedValues, store)

/-- Stamps some values anew and tells the callback. -/
def refreshTimestamps (now : PropIdAreaId → Int) (order : Traversal PropIdAreaId)
    (eventModeByPropIdAreaId : UnorderedMap PropIdAreaId EventMode)
    (store : VehiclePropertyStore) : List ChangeCallback × VehiclePropertyStore :=
  let (updatedValues, after) := store.refreshLoop now (order.entries eventModeByPropIdAreaId)
  (invokeCallbacks store.mOnValueChangeCallback store.mOnValuesChangeCallback updatedValues, after)

/-- Stamps a single value anew. -/
def refreshTimestamp (now : PropIdAreaId → Int) (order : Traversal PropIdAreaId)
    (propId areaId : Int) (eventMode : EventMode) (store : VehiclePropertyStore) :
    List ChangeCallback × VehiclePropertyStore :=
  store.refreshTimestamps now order (Finmap.singleton ⟨propId, areaId⟩ eventMode)

/-- Removes what is stored under the identity of a value. -/
def removeValue (propValue : VehiclePropValue) (store : VehiclePropertyStore) :
    VehiclePropertyStore :=
  match store.getRecordLocked propValue.prop with
  | none => store
  | some record => store.withRecord propValue.prop
      { record with values := record.values.erase (getRecordIdLocked propValue record) }

/-- Removes all values of a property. -/
def removeValuesForProperty (propId : Int) (store : VehiclePropertyStore) :
    VehiclePropertyStore :=
  match store.getRecordLocked propId with
  | none => store
  | some record => store.withRecord propId { record with values := ∅ }

/-- The value that is stored under the identity of a value. -/
def readValue (propValue : VehiclePropValue) (store : VehiclePropertyStore) :
    Except StoreError VehiclePropValue :=
  match store.getRecordLocked propValue.prop with
  | none => .error (.notRegistered propValue.prop)
  | some record => readValueLocked (getRecordIdLocked propValue record) record

/-- The read by property, area and token. -/
def readValueOf (propId areaId token : Int) (store : VehiclePropertyStore) :
    Except StoreError VehiclePropValue :=
  match store.getRecordLocked propId with
  | none => .error (.notRegistered propId)
  | some record => readValueLocked ⟨recordArea propId areaId, token⟩ record

/-- All values of a property, in the order of the table. -/
def readValuesForProperty (order : Traversal RecordId) (propId : Int)
    (store : VehiclePropertyStore) : Except StoreError (List VehiclePropValue) :=
  match store.getRecordLocked propId with
  | none => .error (.notRegistered propId)
  | some record => .ok ((order.entries record.values).map Prod.snd)

/-- The configuration of a property, if it is registered. -/
def getPropConfig (propId : Int) (store : VehiclePropertyStore) :
    Except StoreError VehiclePropConfig :=
  match store.getRecordLocked propId with
  | none => .error (.notRegistered propId)
  | some record => .ok record.propConfig

end VehiclePropertyStore

/-- The calls of the store; a read changes nothing. -/
inductive Operation where
  | registerProperty (config : VehiclePropConfig) (tokenFunc : Option TokenFunction)
  | writeValue (now : Int) (propValue : VehiclePropValue) (updateStatus : Bool)
      (eventMode : EventMode) (useCurrentTimestamp : Bool)
  | refreshTimestamps (now : PropIdAreaId → Int) (order : Traversal PropIdAreaId)
      (eventModeByPropIdAreaId : UnorderedMap PropIdAreaId EventMode)
  | removeValue (propValue : VehiclePropValue)
  | removeValuesForProperty (propId : Int)
  | read

namespace Operation

/-- One call changes the store. -/
def apply : Operation → VehiclePropertyStore → VehiclePropertyStore
  | .registerProperty config tokenFunc, store => store.registerProperty config tokenFunc
  | .writeValue now propValue updateStatus eventMode useCurrentTimestamp, store =>
      (store.writeValue now propValue updateStatus eventMode useCurrentTimestamp).2.2
  | .refreshTimestamps now order eventModes, store =>
      (store.refreshTimestamps now order eventModes).2
  | .removeValue propValue, store => store.removeValue propValue
  | .removeValuesForProperty propId, store => store.removeValuesForProperty propId
  | .read, store => store

/-- The store after some calls. -/
def run (ops : List Operation) (store : VehiclePropertyStore) : VehiclePropertyStore :=
  ops.foldl (fun store op => op.apply store) store

end Operation

end VhalCore.PropertyStore
