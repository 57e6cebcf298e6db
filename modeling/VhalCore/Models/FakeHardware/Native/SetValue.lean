import Mathlib.Data.Int.ConditionallyCompleteOrder
import Mathlib.Data.Prod.Lex
import Mathlib.Order.Monotone.Basic
import VhalCore.Models.FakeHardware.Native.FakeUserHal
import VhalCore.Models.PropertyStore.Native.Store

/-!
# Setting a value in the fake vehicle hardware

A value is written to the property store. Before that, or in place of it, some properties
have an effect of their own: switches of the driver assistance and of the air conditioning
write the properties that depend on them, and the reports of the power state are answered.

The clock is read at one moment after the other and does not go back. The callbacks of the
store are recorded in the order in which they run.
-/

namespace VhalCore.FakeHardware

open PropertyStore

/-- The property `AP_POWER_STATE_REQ`. -/
def apPowerStateReqId : Int := 0x11410a00

/-- The property `AP_POWER_STATE_REPORT`. -/
def apPowerStateReportId : Int := 0x11410a01

/-- The property `DISPLAY_BRIGHTNESS`. -/
def displayBrightnessId : Int := 0x11400a03

/-- The property `PER_DISPLAY_BRIGHTNESS`. -/
def perDisplayBrightnessId : Int := 0x11410a04

/-- The property `SHUTDOWN_REQUEST`. -/
def shutdownRequestId : Int := 0x11400f49

/-- The property `VEHICLE_MAP_SERVICE`. -/
def vehicleMapServiceId : Int := 0x11e00c00

/-- The property `OBD2_FREEZE_FRAME`. -/
def obd2FreezeFrameId : Int := 0x11e00d01

/-- The property `OBD2_FREEZE_FRAME_CLEAR`. -/
def obd2FreezeFrameClearId : Int := 0x11e00d03

/-- The vendor property that answers with an error code. -/
def vendorPropertyForErrorCodeTestingId : Int := 0x21030002

/-- The property `HVAC_POWER_ON`. -/
def hvacPowerOnId : Int := 0x15200510

/-- The property `HVAC_TEMPERATURE_VALUE_SUGGESTION`. -/
def hvacTemperatureValueSuggestionId : Int := 0x11610515

/-- The property `HVAC_TEMPERATURE_SET`. -/
def hvacTemperatureSetId : Int := 0x15600503

/-- The property `HVAC_DUAL_ON`. -/
def hvacDualOnId : Int := 0x15200509

/-- The property `LANE_CENTERING_ASSIST_STATE`. -/
def laneCenteringAssistStateId : Int := 0x1140100c

/-- The property `LANE_CENTERING_ASSIST_COMMAND`. -/
def laneCenteringAssistCommandId : Int := 0x1140100b

/-- The property `CRUISE_CONTROL_TYPE`. -/
def cruiseControlTypeId : Int := 0x11401010

/-- The property `CRUISE_CONTROL_STATE`. -/
def cruiseControlStateId : Int := 0x11401011

/-- The property `CRUISE_CONTROL_COMMAND`. -/
def cruiseControlCommandId : Int := 0x11401012

/-- The property `ADAPTIVE_CRUISE_CONTROL_TARGET_TIME_GAP`. -/
def adaptiveCruiseControlTargetTimeGapId : Int := 0x11401014

/-- The first of the vendor properties that only tests use. -/
def startingVendorCodePropertiesForTest : Int := 0x21403000

/-- The end of the vendor properties that only tests use. -/
def endingVendorCodePropertiesForTest : Int := 0x21405000

/-- The switches of the driver assistance and the properties that show their states. -/
def mAdasEnabledPropToAdasPropWithErrorState : List (Int × List Int) :=
  [(0x11201000, [0x11401001]), (0x11201002, [0x11401003]), (0x11201004, [0x14401005]),
    (0x11201006, [0x11401007]), (0x11201008, [0x11401009]), (0x1120100a, [0x1140100c]),
    (0x1120100d, [0x1140100e]), (0x1120100f, [cruiseControlTypeId, cruiseControlStateId]),
    (0x11201016, [0x11401017, 0x11401018]), (0x11201019, [0x1140101a]),
    (0x1120101b, [0x1140101c]), (0x1120101d, [0x1140101e, 0x11401020]),
    (0x1120101f, [0x11401020]), (0x11201021, [0x11401022]), (0x1120040e, [0x1140040f]),
    (0x11201023, [0x11401024]), (0x11201025, [0x11401026])]

/-- The state of a feature that is switched off. -/
def notAvailableDisabled : Int := -2

/-- The errors of a set. -/
inductive SetValueError where
  /-- `hvac not available` -/
  | hvacNotAvailable
  /-- The error code that is kept for tests. -/
  | vendorErrorCode
  /-- `HVAC_POWER_ON requires only one int32 value` -/
  | hvacPowerOnSize
  /-- `HVAC_DUAL_ON requires only one float value` -/
  | hvacTemperatureSetSize
  /-- `HVAC_DUAL_ON requires only one int32 value` -/
  | hvacDualOnSize
  /-- `Failed to set SHUTDOWN_REQUEST, expect 1 int value: VehicleApPowerStateShutdownParam` -/
  | shutdownRequestSize
  /-- `... because HVAC_TEMPERATURE_SET could not be retrieved. Error: {}` -/
  | temperatureSetConfig (error : StoreError)
  /-- `... because float array value is not size 4.` -/
  | suggestionSize
  /-- `... because float value at index 1 is not any of {} or {}, ...` -/
  | suggestionUnit
  /-- `Failed to get HVAC_TEMPERATURE_SET, error: {}` -/
  | temperatureSetValues (error : StoreError)
  /-- `ADAS feature is disabled ...` -/
  | adasNotAvailable (errorState : Int)
  /-- `tried to use a change target time gap command while on a standard CC setting` -/
  | timeGapCommandOnStandard
  /-- `tried to set target time gap ... while on a standard CC setting` -/
  | timeGapOnStandard
  /-- `onSetProperty(): HAL returned error: {}` -/
  | userHal (error : UserHalError)
  /-- `asked for OBD2_FREEZE_FRAME at invalid timestamp, error: {}` -/
  | freezeFrameTimestamp (error : StoreError)
  /-- `failed to write {} into property store, error: {}` -/
  | write (error : StoreError)
  deriving DecidableEq, Repr

/-- The code of an error; the one that is kept for tests is no enumerator. -/
def SetValueError.code : SetValueError → Option StatusCode
  | .hvacNotAvailable | .timeGapCommandOnStandard | .timeGapOnStandard =>
      some .notAvailableDisabled
  | .vendorErrorCode => none
  | .hvacPowerOnSize | .hvacTemperatureSetSize | .hvacDualOnSize | .shutdownRequestSize
  | .suggestionSize | .suggestionUnit | .freezeFrameTimestamp _ => some .invalidArg
  | .temperatureSetValues _ => some .notAvailable
  | .temperatureSetConfig error | .write error => some error.code
  | .userHal error => some error.code
  | .adasNotAvailable errorState =>
      match errorState with
      | -2 => some .notAvailableDisabled
      | -3 => some .notAvailableSpeedLow
      | -4 => some .notAvailableSpeedHigh
      | -5 => some .notAvailablePoorVisibility
      | -6 => some .notAvailableSafety
      | _ => some .notAvailable

/-- The clock at the moments of a call, and the orders in which containers are visited. -/
structure Environment where
  clock : Nat → Int
  monotone : Monotone clock
  propOrder : Traversal Int
  recordOrder : Int → Traversal RecordId

instance : LinearOrder RecordId :=
  LinearOrder.lift' (fun r => toLex (r.area, r.token)) fun a b h => by
    have harea := congrArg (fun x => (ofLex x).1) h
    have htoken := congrArg (fun x => (ofLex x).2) h
    cases a
    cases b
    simp_all

/-- A clock that stands still, and containers that are visited in ascending order. -/
def Environment.still : Environment where
  clock _ := 5
  monotone := monotone_const
  propOrder := .ascending Int
  recordOrder _ := .ascending RecordId

/-- The parts of the hardware that a set works on, with the callbacks so far and the number of
moments at which the clock was read. -/
structure PropertyState where
  mServerSidePropStore : VehiclePropertyStore
  mFakeUserHal : FakeUserHal := {}
  hvacPowerDependentProps : Finset Int := ∅
  emitted : List ChangeCallback := []
  moments : Nat := 0

/-- The outcome of a call that may fail or be undefined. -/
abbrev Outcome := Except Fault (Except SetValueError Unit × PropertyState)

/-- Whether a value is special, and what was done for it. -/
abbrev Decision := Except Fault ((Bool × Except SetValueError Unit) × PropertyState)

/-- The bits of one area are among those of another one. -/
def coversArea (outer inner : Int) : Bool :=
  BitVec.ofInt 32 outer &&& BitVec.ofInt 32 inner == BitVec.ofInt 32 inner

namespace PropertyState

variable (env : Environment)

/-- A write to the store; the clock is read if the value gets the current time. -/
def writeValue (propValue : VehiclePropValue) (updateStatus : Bool)
    (eventMode : PropertyStore.EventMode) (useCurrentTimestamp : Bool) (s : PropertyState) :
    Except SetValueError Unit × PropertyState :=
  let (result, callbacks, store) := s.mServerSidePropStore.writeValue (env.clock s.moments)
    propValue updateStatus eventMode useCurrentTimestamp
  (result.mapError .write, { s with
    mServerSidePropStore := store
    emitted := s.emitted ++ callbacks
    moments := if useCurrentTimestamp then s.moments + 1 else s.moments })

/-- A value gets the current time and is written. -/
def writeNow (propValue : VehiclePropValue) (updateStatus : Bool)
    (eventMode : PropertyStore.EventMode) (s : PropertyState) :
    Except SetValueError Unit × PropertyState :=
  writeValue env { propValue with timestamp := env.clock s.moments } updateStatus eventMode false
    { s with moments := s.moments + 1 }

/-- The values of a property. -/
def readValuesForProperty (propId : Int) (s : PropertyState) :
    Except StoreError (List VehiclePropValue) :=
  s.mServerSidePropStore.readValuesForProperty (env.recordOrder propId) propId

/-- A request to the application processor, with its parameter. -/
def createApPowerStateReq (state parameter : Int) : VehiclePropValue :=
  { prop := apPowerStateReqId, value := { int32Values := [state, parameter] } }

/-- The state of a driver assistance property in an area. -/
def createAdasStateReq (propertyId areaId state : Int) : VehiclePropValue :=
  { prop := propertyId, areaId, value := { int32Values := [state] } }

/-- A shutdown request becomes a request for the power state. -/
def setApPowerStateReqShutdown (value : VehiclePropValue) (s : PropertyState) : Outcome :=
  match value.value.int32Values with
  | [powerStateShutdownParam] =>
      .ok (writeNow env (createApPowerStateReq 1 powerStateShutdownParam) true .always s)
  | _ => .ok (.error .shutdownRequestSize, s)

/-- The report is stored and answered with the next request. -/
def setApPowerStateReport (value : VehiclePropValue) (s : PropertyState) : Outcome :=
  match writeNow env value false .onValueChange s with
  | (.error e, s) => .ok (.error e, s)
  | (.ok (), s) => do
      let state ← elementAt value.value.int32Values 0
      if state = 3 ∨ state = 0xa ∨ state = 8 ∨ state = 1 then
        return writeNow env (createApPowerStateReq 0 0) true .always s
      else if state = 2 ∨ state = 9 ∨ state = 5 then
        return writeNow env (createApPowerStateReq 3 0) true .onValueChange s
      else return (.ok (), s)

/-- The number of increments from the lowest temperature to the requested one. -/
def getHvacTempNumIncrements (requestedTemp minTemp maxTemp increment : Int) :
    Except Fault Int :=
  let requestedTemp := min (max requestedTemp minTemp) maxTemp
  match ((Binary32.ofInt (requestedTemp - minTemp)).div (Binary32.ofInt increment)).round.toInt
      (-2 ^ 31) (2 ^ 31 - 1) with
  | some numIncrements => .ok numIncrements
  | none => .error .conversion

/-- The suggested temperatures in both units replace the last two elements. -/
def updateHvacTemperatureValueSuggestionInput (configArray : List Int)
    (input : List Binary32) : Except Fault (List Binary32) := do
  let minTempInCelsius ← elementAt configArray 0
  let maxTempInCelsius ← elementAt configArray 1
  let incrementInCelsius ← elementAt configArray 2
  let minTempInFahrenheit ← elementAt configArray 3
  let maxTempInFahrenheit ← elementAt configArray 4
  let incrementInFahrenheit ← elementAt configArray 5
  let requested ← elementAt input 0
  let requestedTemp ← match (requested.mul (.ofInt 10)).toInt (-2 ^ 31) (2 ^ 31 - 1) with
    | some requestedTemp => Except.ok requestedTemp
    | none => .error Fault.conversion
  let unit ← elementAt input 1
  let numIncrements ←
    if unit.eq (.ofInt 0x30) then
      getHvacTempNumIncrements requestedTemp minTempInCelsius maxTempInCelsius incrementInCelsius
    else
      getHvacTempNumIncrements requestedTemp minTempInFahrenheit maxTempInFahrenheit
        incrementInFahrenheit
  let input ← assignAt input 2
    ((Binary32.ofInt (minTempInCelsius + incrementInCelsius * numIncrements)).div (.ofInt 10))
  assignAt input 3
    ((Binary32.ofInt (minTempInFahrenheit + incrementInFahrenheit * numIncrements)).div (.ofInt 10))

/-- Completes a temperature suggestion and stores it. -/
def setHvacTemperatureValueSuggestion (value : VehiclePropValue) (s : PropertyState) :
    Outcome :=
  match s.mServerSidePropStore.getPropConfig hvacTemperatureSetId with
  | .error e => .ok (.error (.temperatureSetConfig e), s)
  | .ok config =>
      match value.value.floatValues with
      | [_, unit, _, _] =>
          if !unit.eq (.ofInt 0x30) && !unit.eq (.ofInt 0x31) then
            .ok (.error .suggestionUnit, s)
          else do
            let floatValues ← updateHvacTemperatureValueSuggestionInput config.configArray
              value.value.floatValues
            return writeNow env { value with value := { value.value with floatValues } } true
              .always s
      | _ => .ok (.error .suggestionSize, s)

/-- The first value of the power switch that covers the area decides. -/
def isHvacPropAndHvacNotAvailable (propId areaId : Int) (s : PropertyState) : Bool :=
  if propId ∈ s.hvacPowerDependentProps then
    match s.readValuesForProperty env hvacPowerOnId with
    | .error _ => false
    | .ok values =>
        match values.find? fun value => coversArea value.areaId areaId with
        | some value => value.value.int32Values = [0]
        | none => false
  else false

/-- A driver assistance property is unavailable while its state is negative. -/
def isAdasPropertyAvailable (adasStatePropertyId : Int) (s : PropertyState) :
    Except SetValueError Unit :=
  match s.mServerSidePropStore.readValueOf adasStatePropertyId 0 0 with
  | .error _ => .ok ()
  | .ok value =>
      match value.value.int32Values with
      | [errorState] => if errorState < 0 then .error (.adasNotAvailable errorState) else .ok ()
      | _ => .ok ()

/-- Hands a value to the user HAL, and stores its response. -/
def setUserHalProp (value : VehiclePropValue) (s : PropertyState) : Outcome := do
  let (outcome, hal) ← s.mFakeUserHal.onSetProperty (env.clock s.moments) value
  let s := { s with mFakeUserHal := hal, moments := s.moments + 1 }
  match outcome with
  | .error e => return (.error (.userHal e), s)
  | .ok none => return (.ok (), s)
  | .ok (some updatedValue) => return writeNow env updatedValue true .always s

/-- The loop of `synchronizeHvacTemp`. Without a temperature the first value gives it. -/
def synchronizeLoop (hvacDualOnAreaId : Int) :
    Option Binary32 → List VehiclePropValue → PropertyState → Outcome
  | _, [], s => .ok (.ok (), s)
  | tempCToSynchronize, value :: values, s =>
      if !coversArea hvacDualOnAreaId value.areaId || value.status != .available then
        synchronizeLoop hvacDualOnAreaId tempCToSynchronize values s
      else
        match tempCToSynchronize with
        | none => do
            let temp ← elementAt value.value.floatValues 0
            synchronizeLoop hvacDualOnAreaId (some temp) values s
        | some temp => do
            let floatValues ← assignAt value.value.floatValues 0 temp
            match writeNow env { value with value := { value.value with floatValues } } true
                .always s with
            | (.ok (), s) => synchronizeLoop hvacDualOnAreaId (some temp) values s
            | (.error e, s) => return (.error e, s)

/-- Copies a temperature to the areas that the dual mode covers. -/
def synchronizeHvacTemp (hvacDualOnAreaId : Int) (newTempC : Option Binary32)
    (s : PropertyState) : Outcome :=
  match s.readValuesForProperty env hvacTemperatureSetId with
  | .error e => .ok (.error (.temperatureSetValues e), s)
  | .ok values => synchronizeLoop env hvacDualOnAreaId newTempC values s

/-- The area of the dual mode that covers a temperature, where it is on. -/
def getSyncedAreaIdIfHvacDualOn (hvacTemperatureSetAreaId : Int) (s : PropertyState) :
    Option Int :=
  match s.readValuesForProperty env hvacDualOnId with
  | .error _ => none
  | .ok values =>
      (values.find? fun value => coversArea value.areaId hvacTemperatureSetAreaId &&
        value.value.int32Values = [1]).map VehiclePropValue.areaId

/-- The type of the cruise control, unless its property is unavailable. -/
def isCruiseControlTypeStandard (s : PropertyState) :
    Except Fault (Except SetValueError Bool) :=
  match s.isAdasPropertyAvailable cruiseControlTypeId with
  | .error e => .ok (.error e)
  | .ok () =>
      match s.mServerSidePropStore.readValueOf cruiseControlTypeId 0 0 with
      | .error _ => .error .noValue
      | .ok value => do
          let type ← elementAt value.value.int32Values 0
          return .ok (type == 1)

/-- Some values of one property get a status and are written; failures are ignored. -/
def sendValues (areaId hvacPowerOnVal : Int) :
    List VehiclePropValue → PropertyState → PropertyState
  | [], s => s
  | value :: values, s =>
      if coversArea areaId value.areaId then
        let status := if hvacPowerOnVal = 0 then .unavailable else .available
        sendValues areaId hvacPowerOnVal values
          (writeNow env { value with status } true .always s).2
      else sendValues areaId hvacPowerOnVal values s

/-- The loop of `sendHvacPropertiesCurrentValues`. -/
def sendPowerProps (areaId hvacPowerOnVal : Int) : List Int → PropertyState → PropertyState
  | [], s => s
  | powerPropId :: powerPropIds, s =>
      match s.readValuesForProperty env powerPropId with
      | .error _ => sendPowerProps areaId hvacPowerOnVal powerPropIds s
      | .ok values => sendPowerProps areaId hvacPowerOnVal powerPropIds
          (sendValues env areaId hvacPowerOnVal values s)

/-- Tells the values that depend on the power of an area as available or not. -/
def sendHvacPropertiesCurrentValues (areaId hvacPowerOnVal : Int) (s : PropertyState) :
    PropertyState :=
  sendPowerProps env areaId hvacPowerOnVal (env.propOrder.visit s.hvacPowerDependentProps) s

/-- The state that a dependent property shows. -/
def adasState (dependentPropId state : Int) : Int :=
  if state = 1 ∧ dependentPropId = cruiseControlTypeId then 2 else state

/-- The areas of one dependent property; failures are ignored. -/
def sendAdasAreas (dependentPropId state : Int) :
    List VehicleAreaConfig → PropertyState → PropertyState
  | [], s => s
  | areaConfig :: areaConfigs, s =>
      sendAdasAreas dependentPropId state areaConfigs (writeNow env
        (createAdasStateReq dependentPropId areaConfig.areaId (adasState dependentPropId state))
        true .always s).2

/-- The loop of `sendAdasPropertiesState`. -/
def sendAdasProps (state : Int) : List Int → PropertyState → PropertyState
  | [], s => s
  | dependentPropId :: dependentPropIds, s =>
      match s.mServerSidePropStore.getPropConfig dependentPropId with
      | .error _ => sendAdasProps state dependentPropIds s
      | .ok config => sendAdasProps state dependentPropIds
          (sendAdasAreas env dependentPropId state config.areaConfigs s)

/-- Sets the states that depend on an enabled property. -/
def sendAdasPropertiesState (propertyId state : Int) (s : PropertyState) : PropertyState :=
  sendAdasProps env state ((mAdasEnabledPropToAdasPropWithErrorState.lookup propertyId).getD []) s

/-- The loop of `clearObd2FreezeFrames`. -/
def clearFrames : List Int → VehiclePropertyStore →
    Except SetValueError Unit × VehiclePropertyStore
  | [], store => (.ok (), store)
  | timestamp :: timestamps, store =>
      match store.readValueOf obd2FreezeFrameId 0 timestamp with
      | .error e => (.error (.freezeFrameTimestamp e), store)
      | .ok value => clearFrames timestamps (store.removeValue value)

/-- Without timestamps all frames are removed. -/
def clearObd2FreezeFrames (value : VehiclePropValue) (s : PropertyState) :
    Except SetValueError Unit × PropertyState :=
  if value.value.int64Values = [] then
    (.ok (), { s with
      mServerSidePropStore := s.mServerSidePropStore.removeValuesForProperty obd2FreezeFrameId })
  else
    let (result, store) := clearFrames value.value.int64Values s.mServerSidePropStore
    (result, { s with mServerSidePropStore := store })

/-- The writes to the properties that depend on a switch of the driver assistance. -/
def sendAdasDependents (value : VehiclePropValue) (s : PropertyState) : PropertyState :=
  if (mAdasEnabledPropToAdasPropWithErrorState.lookup value.prop).isSome then
    match value.value.int32Values with
    | [1] => s.sendAdasPropertiesState env value.prop 1
    | [_] => s.sendAdasPropertiesState env value.prop notAvailableDisabled
    | _ => s
  else s

/-- The value is not special, with the result that is then not looked at. -/
def plain (s : PropertyState) : Decision :=
  .ok ((false, .ok ()), s)

/-- The value is special and its result is the one of the call. -/
def special (outcome : Outcome) : Decision :=
  outcome.map fun (result, s) => ((true, result), s)

/-- The value is special and refused. -/
def refuse (error : SetValueError) (s : PropertyState) : Decision :=
  .ok ((true, .error error), s)

/-- The branches of `maybeSetSpecialValue` for single properties. -/
def setSpecialProperty (value : VehiclePropValue) (s : PropertyState) : Decision :=
  if value.prop = displayBrightnessId ∨ value.prop = perDisplayBrightnessId then plain s
  else if value.prop = apPowerStateReportId then special (s.setApPowerStateReport env value)
  else if value.prop = shutdownRequestId then special (s.setApPowerStateReqShutdown env value)
  else if value.prop = vehicleMapServiceId then special (.ok (.ok (), s))
  else if value.prop = obd2FreezeFrameClearId then special (.ok (s.clearObd2FreezeFrames value))
  else if value.prop = vendorPropertyForErrorCodeTestingId then refuse .vendorErrorCode s
  else if value.prop = hvacPowerOnId then
    match value.value.int32Values with
    | [hvacPowerOnVal] =>
        plain (s.sendHvacPropertiesCurrentValues env value.areaId hvacPowerOnVal)
    | _ => refuse .hvacPowerOnSize s
  else if value.prop = hvacTemperatureValueSuggestionId then
    special (s.setHvacTemperatureValueSuggestion env value)
  else if value.prop = hvacTemperatureSetId then
    match value.value.floatValues with
    | [temp] =>
        match s.getSyncedAreaIdIfHvacDualOn env value.areaId with
        | some hvacDualOnAreaId => special (s.synchronizeHvacTemp env hvacDualOnAreaId (some temp))
        | none => plain s
    | _ => refuse .hvacTemperatureSetSize s
  else if value.prop = hvacDualOnId then
    match value.value.int32Values with
    | [1] => do
        let (_, s) ← s.synchronizeHvacTemp env value.areaId none
        plain s
    | [_] => plain s
    | _ => refuse .hvacDualOnSize s
  else if value.prop = laneCenteringAssistCommandId then
    match s.isAdasPropertyAvailable laneCenteringAssistStateId with
    | .error e => refuse e s
    | .ok () => plain s
  else if value.prop = cruiseControlCommandId then
    match s.isAdasPropertyAvailable cruiseControlStateId with
    | .error e => refuse e s
    | .ok () => do
        match ← s.isCruiseControlTypeStandard with
        | .error e => refuse e s
        | .ok false => plain s
        | .ok true =>
            let command ← elementAt value.value.int32Values 0
            if command = 5 ∨ command = 6 then refuse .timeGapCommandOnStandard s else plain s
  else if value.prop = adaptiveCruiseControlTargetTimeGapId then
    match s.isAdasPropertyAvailable cruiseControlStateId with
    | .error e => refuse e s
    | .ok () => do
        match ← s.isCruiseControlTypeStandard with
        | .error e => refuse e s
        | .ok true => refuse .timeGapOnStandard s
        | .ok false => plain s
  else plain s

/-- What is done before the store is written, and whether that was all. -/
def maybeSetSpecialValue (value : VehiclePropValue) (s : PropertyState) : Decision :=
  if startingVendorCodePropertiesForTest ≤ value.prop ∧
      value.prop < endingVendorCodePropertiesForTest then special (.ok (.ok (), s))
  else if FakeUserHal.isSupported value.prop then special (s.setUserHalProp env value)
  else if s.isHvacPropAndHvacNotAvailable env value.prop value.areaId then
    refuse .hvacNotAvailable s
  else setSpecialProperty env value (s.sendAdasDependents env value)

/-- Sets a value: by a special rule, or in the store. -/
def setValue (value : VehiclePropValue) (s : PropertyState) : Outcome := do
  let ((isSpecialValue, setSpecialValueResult), s) ← s.maybeSetSpecialValue env value
  if isSpecialValue then return (setSpecialValueResult, s)
  else return s.writeValue env value false .onValueChange true

end PropertyState

end VhalCore.FakeHardware
