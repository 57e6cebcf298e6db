import VhalCore.Models.Proto.Native.Messages
import VhalCore.Models.VehicleHal.Native.Requests

/-!
# Queries for supported values

A query for some pairs is answered pair by pair. A pair without an info about its supported
values is answered at once, and so is one for which the config says that nothing is specified.
The others are forwarded to the hardware in one call, and the position of each is remembered
for its result. The two queries differ in what they ask for and in the type of their results.
-/

namespace VhalCore.VehicleHal

/-- The integer of the status code `INVALID_ARG`. -/
def statusInvalidArg : Int32 := 2

/-- The errors of `getHasSupportedValueInfo`. -/
inductive SupportedValueInfoError where
  /-- `Failed to get property config for propertyId: {}, error: {}` -/
  | noPropertyConfig (propId : Int32) (error : ConfigError)
  /-- `AreaId config not found for propertyId: {}, areaId: {}` -/
  | noAreaConfig (propId areaId : Int32)
  /-- `property: {}, areaId: {} does not support this operation because hasSupportedValueInfo is
  null` -/
  | noSupportedValueInfo (propId areaId : Int32)
  deriving DecidableEq

/-- `{}: Unexpected results size from IVehicleHardware, got: {}, expect: {}`. -/
structure UnexpectedResultsSize where
  got : Nat
  expect : Nat
  deriving DecidableEq, Repr

section Info

open ProtoMsgConverter.Aidl (HasSupportedValueInfo)

/-- The config of an area in a config with its supported-value infos. -/
def findAreaConfig (propId areaId : Int32) (config : ProtoMsgConverter.Aidl.VehiclePropConfig) :
    Option ProtoMsgConverter.Aidl.VehicleAreaConfig :=
  if isGlobalProp propId.toInt then config.areaConfigs.head?
  else config.areaConfigs.find? fun c => c.areaId = areaId

variable (getConfig : Int32 → Except ConfigError ProtoMsgConverter.Aidl.VehiclePropConfig)

/-- The configuration of the area of a pair. -/
def getAreaConfigForPropIdAreaId (propId areaId : Int32) :
    Except SupportedValueInfoError ProtoMsgConverter.Aidl.VehicleAreaConfig :=
  match getConfig propId with
  | .error e => .error (.noPropertyConfig propId e)
  | .ok config =>
      match findAreaConfig propId areaId config with
      | none => .error (.noAreaConfig propId areaId)
      | some areaConfig => .ok areaConfig

/-- A global property may have no config of its area. -/
def getHasSupportedValueInfo (propId areaId : Int32) :
    Except SupportedValueInfoError HasSupportedValueInfo :=
  match getAreaConfigForPropIdAreaId getConfig propId areaId with
  | .error e =>
      if isGlobalProp propId.toInt then .error (.noSupportedValueInfo propId areaId) else .error e
  | .ok areaConfig =>
      match areaConfig.hasSupportedValueInfo with
      | some info => .ok info
      | none => .error (.noSupportedValueInfo propId areaId)

end Info

/-- What a query asks for, and the results that it gives itself. -/
structure SupportedValueQuery (Result : Type) where
  asksFor : ProtoMsgConverter.Aidl.HasSupportedValueInfo → Bool
  /-- The result of a pair without an info. -/
  invalidArg : Result
  /-- The result of a pair for which nothing is specified. -/
  notSpecified : Result
  /-- The result with which the list is filled at first. -/
  initial : Result

/-- The variables of the loop over the pairs. -/
structure QueryLoop (Result : Type) where
  toHardwareRequestCounters : List Nat := []
  toHardwarePropIdAreaIds : List ProtoMsgConverter.Aidl.PropIdAreaId := []
  results : List Result

namespace SupportedValueQuery

variable {Result : Type} (query : SupportedValueQuery Result)
  (getConfig : Int32 → Except ConfigError ProtoMsgConverter.Aidl.VehiclePropConfig)

/-- One pair, with its position. -/
def turn (loop : QueryLoop Result) (request : ProtoMsgConverter.Aidl.PropIdAreaId × Nat) :
    QueryLoop Result :=
  let (vhalPropIdAreaId, requestCounter) := request
  match getHasSupportedValueInfo getConfig vhalPropIdAreaId.propId vhalPropIdAreaId.areaId with
  | .error _ => { loop with results := loop.results.set requestCounter query.invalidArg }
  | .ok hasSupportedValueInfo =>
      if query.asksFor hasSupportedValueInfo then
        { loop with
          toHardwarePropIdAreaIds := loop.toHardwarePropIdAreaIds ++ [vhalPropIdAreaId]
          toHardwareRequestCounters := loop.toHardwareRequestCounters ++ [requestCounter] }
      else { loop with results := loop.results.set requestCounter query.notSpecified }

/-- The results of the hardware are put at the positions of their pairs. -/
def placeResults (results : List Result) (counters : List Nat) (fromHardware : List Result) :
    List Result :=
  (counters.zip fromHardware).foldl (fun results (counter, result) => results.set counter result)
    results

/-- The results for some pairs, in the payload of the reply, or the service specific error of the
whole call. -/
def run (hardware : List ProtoMsgConverter.Aidl.PropIdAreaId → List Result)
    (vhalPropIdAreaIds : List ProtoMsgConverter.Aidl.PropIdAreaId) :
    Except (StatusCode × UnexpectedResultsSize) (List Result) :=
  let loop := vhalPropIdAreaIds.zipIdx.foldl (query.turn getConfig)
    { results := .replicate vhalPropIdAreaIds.length query.initial }
  if loop.toHardwarePropIdAreaIds.length ≠ 0 then
    let resultsFromHardware := hardware loop.toHardwarePropIdAreaIds
    if resultsFromHardware.length ≠ loop.toHardwareRequestCounters.length then
      .error (.internalError,
        ⟨resultsFromHardware.length, loop.toHardwareRequestCounters.length⟩)
    else .ok (placeResults loop.results loop.toHardwareRequestCounters resultsFromHardware)
  else .ok loop.results

end SupportedValueQuery

section Queries

variable (getConfig : Int32 → Except ConfigError ProtoMsgConverter.Aidl.VehiclePropConfig)

/-- What a request for lists answers by itself, and whom it asks for the rest. -/
def supportedValuesListsQuery :
    SupportedValueQuery ProtoMsgConverter.Aidl.SupportedValuesListResult where
  asksFor info := info.hasSupportedValuesList
  invalidArg := { status := statusInvalidArg, supportedValuesList := none }
  notSpecified := { status := ProtoMsgConverter.statusOk, supportedValuesList := none }
  initial := {}

/-- The list of supported values for each pair. -/
def getSupportedValuesLists : (List ProtoMsgConverter.Aidl.PropIdAreaId →
      List ProtoMsgConverter.Aidl.SupportedValuesListResult) →
    List ProtoMsgConverter.Aidl.PropIdAreaId →
    Except (StatusCode × UnexpectedResultsSize)
      (List ProtoMsgConverter.Aidl.SupportedValuesListResult) :=
  supportedValuesListsQuery.run getConfig

/-- What a request for bounds answers by itself, and whom it asks for the rest. -/
def minMaxSupportedValueQuery :
    SupportedValueQuery ProtoMsgConverter.Aidl.MinMaxSupportedValueResult where
  asksFor info := info.hasMinSupportedValue || info.hasMaxSupportedValue
  invalidArg :=
    { status := statusInvalidArg, minSupportedValue := none, maxSupportedValue := none }
  notSpecified :=
    { status := ProtoMsgConverter.statusOk, minSupportedValue := none, maxSupportedValue := none }
  initial := {}

/-- The smallest and the largest supported value for each pair. -/
def getMinMaxSupportedValue : (List ProtoMsgConverter.Aidl.PropIdAreaId →
      List ProtoMsgConverter.Aidl.MinMaxSupportedValueResult) →
    List ProtoMsgConverter.Aidl.PropIdAreaId →
    Except (StatusCode × UnexpectedResultsSize)
      (List ProtoMsgConverter.Aidl.MinMaxSupportedValueResult) :=
  minMaxSupportedValueQuery.run getConfig

end Queries

end VhalCore.VehicleHal
