import VhalCore.Models.FakeHardware.Native.FakeObd2Frame

/-!
# Getting a value from the fake vehicle hardware

A value is read from the property store. Some properties have a read of their own in place of
it: the power properties may come from an external service, those of the user HAL and the freeze
frames are kept elsewhere, and some are refused while a feature is not available.
-/

namespace VhalCore.FakeHardware

open PropertyStore VehiclePropertyStore

/-- The property `VEHICLE_IN_USE`. -/
def vehicleInUseId : Int := 0x11200f4a

/-- The property `AP_POWER_BOOTUP_REASON`. -/
def apPowerBootupReasonId : Int := 0x11400a02

/-- The property `CRUISE_CONTROL_TARGET_SPEED`. -/
def cruiseControlTargetSpeedId : Int := 0x11601013

/-- The property `ADAPTIVE_CRUISE_CONTROL_LEAD_VEHICLE_MEASURED_DISTANCE`. -/
def adaptiveCruiseControlLeadVehicleMeasuredDistanceId : Int := 0x11401015

/-- The test property whose bytes are read in reverse. -/
def echoReverseBytesId : Int := 0x21030001

/-- The answers of the external power controller; none if it cannot be connected to. -/
structure PowerController where
  isVehicleInUse : Option Bool
  getApPowerBootupReason : Option Int

/-- The errors of a get. -/
inductive GetValueError where
  /-- `Cannot connect to GRPC service , error: {}` -/
  | powerController
  /-- `get(): User HAL returned error: {}` -/
  | userHal (error : FakeUserHal.GetError)
  /-- `hvac not available` -/
  | hvacNotAvailable
  | frame (error : FrameError)
  /-- The error code that is kept for tests. -/
  | vendorErrorCode
  /-- A feature of the driver assistance is not available. -/
  | adas (error : SetValueError)
  /-- `tried to get target time gap or lead vehicle measured distance value ...` -/
  | timeGapOnStandard
  /-- `value has not been set yet` -/
  | notSet
  /-- `failed to get value, error: {}` -/
  | read (error : StoreError)
  /-- A value to be reversed that cannot be read. -/
  | echo (error : StoreError)
  deriving DecidableEq, Repr

/-- The result of a read of a special property, or nothing for another one. -/
abbrev SpecialValue := Option (Except GetValueError VehiclePropValue)

/-- What a get finds outside of the hardware: the time, the order in which values are visited,
the external service, and the status that an object of the pool has from its last use. -/
structure GetContext where
  now : Int
  env : Environment
  powerController : Option PowerController := none
  recycledStatus : VehiclePropertyStatus := .available

namespace PropertyState

variable (context : GetContext)

/-- Asks the power controller whether the vehicle is in use. -/
def getVehicleInUse (service : PowerController) : Except GetValueError VehiclePropValue :=
  match service.isVehicleInUse with
  | none => .error .powerController
  | some isVehicleInUse => .ok {
      prop := vehicleInUseId
      timestamp := context.now
      value := { int32Values := [if isVehicleInUse then 1 else 0] } }

/-- Asks the power controller for the reason of the last start. -/
def getApPowerBootupReason (service : PowerController) : Except GetValueError VehiclePropValue :=
  match service.getApPowerBootupReason with
  | none => .error .powerController
  | some bootupReason => .ok {
      prop := apPowerBootupReasonId
      timestamp := context.now
      value := { int32Values := [bootupReason] } }

/-- Asks the user HAL and stamps its answer. -/
def getUserHalProp (value : VehiclePropValue) (s : PropertyState) :
    Except Fault (Except GetValueError VehiclePropValue) := do
  match ← s.mFakeUserHal.onGetProperty value with
  | .error e => return .error (.userHal e)
  | .ok gotValue => return .ok { gotValue with timestamp := context.now }

/-- The value of the store with its bytes in reverse. -/
def getEchoReverseBytes (value : VehiclePropValue) (s : PropertyState) :
    Except GetValueError VehiclePropValue :=
  match s.mServerSidePropStore.readValue value with
  | .error e => .error (.echo e)
  | .ok gotValue => .ok { gotValue with
      timestamp := context.now
      value := { gotValue.value with byteValues := gotValue.value.byteValues.reverse } }

/-- A frame, or the list of them, with the current time. -/
def withCurrentTime (result : Except FrameError VehiclePropValue) :
    Except GetValueError VehiclePropValue :=
  match result with
  | .error e => .error (.frame e)
  | .ok value => .ok { value with timestamp := context.now }

/-- A distance of the cruise control is refused on a standard one. -/
def getCruiseDistance (s : PropertyState) : Except Fault SpecialValue :=
  match s.isAdasPropertyAvailable cruiseControlStateId with
  | .error e => .ok (some (.error (.adas e)))
  | .ok () => do
      match ← s.isCruiseControlTypeStandard with
      | .error e => return some (.error (.adas e))
      | .ok true => return some (.error .timeGapOnStandard)
      | .ok false => return none

/-- The properties whose value comes from elsewhere than the store. -/
def getSpecialProperty (value : VehiclePropValue) (s : PropertyState) :
    Except Fault SpecialValue :=
  let order := context.env.recordOrder obd2FreezeFrameId
  if value.prop = obd2FreezeFrameId then
    .ok (some (withCurrentTime context (s.getObd2FreezeFrame order value)))
  else if value.prop = obd2FreezeFrameInfoId then
    .ok (some (withCurrentTime context (s.getObd2DtcInfo order)))
  else if value.prop = echoReverseBytesId then
    .ok (some (s.getEchoReverseBytes context value))
  else if value.prop = vendorPropertyForErrorCodeTestingId then
    .ok (some (.error .vendorErrorCode))
  else if value.prop = cruiseControlTargetSpeedId then
    match s.isAdasPropertyAvailable cruiseControlStateId with
    | .error e => .ok (some (.error (.adas e)))
    | .ok () => .ok none
  else if value.prop = adaptiveCruiseControlTargetTimeGapId ∨
      value.prop = adaptiveCruiseControlLeadVehicleMeasuredDistanceId then s.getCruiseDistance
  else .ok none

/-- The answer of the external service, if there is one and the property is of the power. -/
def getPowerPropFromExternalService (value : VehiclePropValue) : SpecialValue :=
  match context.powerController with
  | none => none
  | some service =>
      if value.prop = vehicleInUseId then some (getVehicleInUse context service)
      else if value.prop = apPowerBootupReasonId then
        some (getApPowerBootupReason context service)
      else none

/-- A value that does not come from the store, or that the store must not give. -/
def maybeGetSpecialValue (value : VehiclePropValue) (s : PropertyState) :
    Except Fault SpecialValue :=
  match getPowerPropFromExternalService context value with
  | some result => .ok (some result)
  | none =>
      if startingVendorCodePropertiesForTest ≤ value.prop ∧
          value.prop < endingVendorCodePropertiesForTest then
        .ok (some (.ok {
          prop := value.prop
          timestamp := context.now
          status := context.recycledStatus
          value := { int32Values := [5] } }))
      else if FakeUserHal.isSupported value.prop then
        (s.getUserHalProp context value).map some
      else if s.isHvacPropAndHvacNotAvailable context.env value.prop value.areaId then
        .ok (some (.error .hvacNotAvailable))
      else s.getSpecialProperty context value

/-- Reads a value: a special one, or the one in the store. -/
def getValue (value : VehiclePropValue) (s : PropertyState) :
    Except Fault (Except GetValueError VehiclePropValue) := do
  match ← s.maybeGetSpecialValue context value with
  | some result => return result
  | none =>
      match s.mServerSidePropStore.readValue value with
      | .error e => return .error (if e.code = .notAvailable then .notSet else .read e)
      | .ok readValue => return .ok readValue

end PropertyState

end VhalCore.FakeHardware
