import VhalCore.Core.Binary32
import Mathlib.Data.Prod.Lex
import Mathlib.Order.Lattice

/-!
# Vehicle property values and subscribe options

The parcelables of the vehicle interface that the subscription paths read and
return, with the generated equality of raw values and the rounding of a value to
a requested resolution. Equality of raw values compares floats as floats, so a
value that contains not-a-number differs from itself.
-/

namespace VhalCore

/-- Result code of a vehicle hardware call. -/
inductive StatusCode where
  | ok
  | tryAgain
  | invalidArg
  | notAvailable
  | accessDenied
  | internalError
  | notAvailableDisabled
  | notAvailableSpeedLow
  | notAvailableSpeedHigh
  | notAvailablePoorVisibility
  | notAvailableSafety
  | notAvailableSubsystemNotConnected
  deriving DecidableEq, Repr

/-- Status of a property value. -/
inductive VehiclePropertyStatus where
  | available
  | unavailable
  | error
  | notAvailableDisabled
  | notAvailableSpeedLow
  | notAvailableSpeedHigh
  | notAvailablePoorVisibility
  | notAvailableSafety
  | notAvailableSubsystemNotConnected
  deriving DecidableEq, Repr

/-- A property in one of its areas. -/
structure PropIdAreaId where
  propId : Int
  areaId : Int
  deriving DecidableEq, Repr

/-- The lexicographic order, by property and then by area. -/
instance : LinearOrder PropIdAreaId :=
  LinearOrder.lift' (fun p => toLex (p.propId, p.areaId)) fun p q h => by
    have hp := congrArg ofLex h
    simp only [ofLex_toLex, Prod.mk.injEq] at hp
    rcases p with ⟨propId, areaId⟩
    rcases q with ⟨propId', areaId'⟩
    simpa only [PropIdAreaId.mk.injEq] using hp

/-- The payload of a property value. -/
structure RawPropValues where
  int32Values : List Int := []
  floatValues : List Binary32 := []
  int64Values : List Int := []
  byteValues : List UInt8 := []
  stringValue : String := ""
  deriving DecidableEq

/-- The generated equality: all fields, floats compared as floats. -/
def RawPropValues.eq (a b : RawPropValues) : Bool :=
  a.int32Values == b.int32Values && a.floatValues.isEqv b.floatValues Binary32.eq &&
    a.int64Values == b.int64Values && a.byteValues == b.byteValues &&
    a.stringValue == b.stringValue

/-- A property value of one area, with the time it was produced. -/
structure VehiclePropValue where
  timestamp : Int := 0
  areaId : Int := 0
  prop : Int := 0
  status : VehiclePropertyStatus := .available
  value : RawPropValues := {}
  deriving DecidableEq

/-- The pair a value belongs to. -/
def VehiclePropValue.propIdAreaId (v : VehiclePropValue) : PropIdAreaId := ⟨v.prop, v.areaId⟩

/-- One subscription request: a property, its areas and the requested rate. -/
structure SubscribeOptions where
  propId : Int
  areaIds : List Int
  sampleRate : Binary32 := .zero
  resolution : Binary32 := .zero
  enableVariableUpdateRate : Bool := false
  deriving DecidableEq

/-- An asynchronous failure of a property write. -/
structure SetValueErrorEvent where
  errorCode : StatusCode
  propId : Int
  areaId : Int
  deriving DecidableEq, Repr

/-- The failure of a property write as it is sent to a client. -/
structure VehiclePropError where
  propId : Int
  areaId : Int
  errorCode : StatusCode
  deriving DecidableEq, Repr

/-- Round every element of a vector to a multiple of the resolution; `toFloat` and
`ofFloat` are the conversions between the element type and float. A resolution of
zero leaves the vector as it is. -/
def roundToNearestResolution {T : Type} (toFloat : T → Binary32) (ofFloat : Binary32 → Option T)
    (arrayToSanitize : List T) (resolution : Binary32) : Option (List T) :=
  if resolution.eq .zero then some arrayToSanitize
  else arrayToSanitize.mapM fun x =>
    ofFloat ((Binary32.round ((toFloat x).div resolution)).mul resolution)

/-- Round the numeric vectors of a value to the resolution. The result is undefined
when a rounded integer leaves the range of its type. -/
def sanitizeByResolution (value : RawPropValues) (resolution : Binary32) :
    Option RawPropValues := do
  let int32Values ← roundToNearestResolution Binary32.ofInt
    (Binary32.toInt (-2 ^ 31) (2 ^ 31 - 1)) value.int32Values resolution
  let floatValues ← roundToNearestResolution id some value.floatValues resolution
  let int64Values ← roundToNearestResolution Binary32.ofInt
    (Binary32.toInt (-2 ^ 63) (2 ^ 63 - 1)) value.int64Values resolution
  return { value with int32Values, floatValues, int64Values }

/-- Resolution zero keeps every value exactly. -/
@[simp] theorem sanitizeByResolution_zero (value : RawPropValues) :
    sanitizeByResolution value .zero = some value := by
  have hz : Binary32.eq .zero .zero = true := by decide
  simp [sanitizeByResolution, roundToNearestResolution, hz]

/-- A value rounded to a resolution, where that is defined. -/
def VehiclePropValue.rounded (v : VehiclePropValue) (resolution : Binary32) : VehiclePropValue :=
  { v with value := (sanitizeByResolution v.value resolution).getD v.value }

end VhalCore
