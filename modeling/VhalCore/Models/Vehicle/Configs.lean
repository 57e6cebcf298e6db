import VhalCore.Models.Vehicle.Types

/-!
# Property ids, property configs and the checks of a value against its config

A property id is a bit field that names the group, the area type and the value type
of the property. A config lists the areas of the property with their access and
ranges. The checks of a value against a config have no result where the code would
read beyond the end of an array.
-/

namespace VhalCore

/-- The bits of a 32-bit property id that a mask selects. -/
def maskedBits (prop : Int) (mask : Nat) : Nat := (prop % 2 ^ 32).toNat &&& mask

/-- The value types with an enumerator. -/
inductive VehiclePropertyType where
  | string
  | boolean
  | int32
  | int32Vec
  | int64
  | int64Vec
  | float
  | floatVec
  | bytes
  | mixed
  deriving DecidableEq, Repr

/-- The type a property id names, if it is one of the enumerators. -/
def getPropType (prop : Int) : Option VehiclePropertyType :=
  match maskedBits prop 0x00ff0000 with
  | 0x00100000 => some .string
  | 0x00200000 => some .boolean
  | 0x00400000 => some .int32
  | 0x00410000 => some .int32Vec
  | 0x00500000 => some .int64
  | 0x00510000 => some .int64Vec
  | 0x00600000 => some .float
  | 0x00610000 => some .floatVec
  | 0x00700000 => some .bytes
  | 0x00e00000 => some .mixed
  | _ => none

/-- The property belongs to the vehicle as a whole. -/
def isGlobalProp (prop : Int) : Bool := maskedBits prop 0x0f000000 == 0x01000000

/-- The property is one of the interface. -/
def isSystemProp (prop : Int) : Bool := maskedBits prop 0xf0000000 == 0x10000000

/-- The property is one of the vendor. -/
def isVendorProp (prop : Int) : Bool := maskedBits prop 0xf0000000 == 0x20000000

/-- The access that a config allows. -/
inductive VehiclePropertyAccess where
  | none
  | read
  | write
  | readWrite
  deriving DecidableEq, Repr

/-- How a property changes. -/
inductive VehiclePropertyChangeMode where
  | static
  | onChange
  | continuous
  deriving DecidableEq, Repr

/-- The access and the ranges of a property in one area. -/
structure VehicleAreaConfig where
  areaId : Int := 0
  minInt32Value : Int := 0
  maxInt32Value : Int := 0
  minInt64Value : Int := 0
  maxInt64Value : Int := 0
  minFloatValue : Binary32 := .zero
  maxFloatValue : Binary32 := .zero
  access : VehiclePropertyAccess := .none
  supportVariableUpdateRate : Bool := false
  deriving DecidableEq

/-- The config of a property. -/
structure VehiclePropConfig where
  prop : Int
  access : VehiclePropertyAccess := .none
  changeMode : VehiclePropertyChangeMode := .static
  areaConfigs : List VehicleAreaConfig := []
  configArray : List Int := []
  configString : String := ""
  minSampleRate : Binary32 := .zero
  maxSampleRate : Binary32 := .zero
  deriving DecidableEq

/-- The config of an area. A global property has one area, whatever its area id. -/
def getAreaConfig (propId areaId : Int) (config : VehiclePropConfig) : Option VehicleAreaConfig :=
  if isGlobalProp propId then config.areaConfigs.head?
  else config.areaConfigs.find? fun c => c.areaId = areaId

/-- The errors of the checks of a value. -/
inductive ValueError where
  /-- `expect 1 {} for {} type` -/
  | expectOne (type : VehiclePropertyType)
  /-- `expect >=1 {} for {} type` -/
  | expectAtLeastOne (type : VehiclePropertyType)
  /-- `unknown property type: {}` -/
  | unknownPropertyType (bits : Nat)
  /-- `invalid mixed property, got {} {}, expect {}` -/
  | invalidMixedProperty (got expected : Nat)
  /-- `{}: {} out of range, min: {} max: {}` -/
  | outOfRange (type : VehiclePropertyType)
  deriving DecidableEq, Repr

/-- A count read from a config array, as the code converts it to `size_t`. -/
def countOfConfig (n : Int) : Nat := (n % 2 ^ 64).toNat

/-- One comparison of a number of elements with the number that the config asks for: flags
count one each if they are set, the last entry counts as it is. -/
def checkMixedCount (flags : List Int) (size : Int) (got : Nat) : Except ValueError Unit :=
  let expected := (flags.countP (· = 1) + countOfConfig size) % 2 ^ 64
  if got = expected then .ok () else .error (.invalidMixedProperty got expected)

/-- The check of a mixed value of the vendor. An entry beyond the end of the config array
is read without a check, and the result is then undefined. -/
def checkVendorMixedPropValue (value : VehiclePropValue) (config : VehiclePropConfig) :
    Option (Except ValueError Unit) := do
  let boolean ← config.configArray[1]?
  let integer ← config.configArray[2]?
  let integers ← config.configArray[3]?
  match checkMixedCount [boolean, integer] integers value.value.int32Values.length with
  | .error e => return .error e
  | .ok () =>
      let long ← config.configArray[4]?
      let longs ← config.configArray[5]?
      match checkMixedCount [long] longs value.value.int64Values.length with
      | .error e => return .error e
      | .ok () =>
          let float ← config.configArray[6]?
          let floats ← config.configArray[7]?
          match checkMixedCount [float] floats value.value.floatValues.length with
          | .error e => return .error e
          | .ok () =>
              let bytes ← config.configArray[8]?
              if countOfConfig bytes = 0 then return .ok ()
              else return checkMixedCount [] bytes value.value.byteValues.length

/-- A vector with one element. -/
def expectOne (type : VehiclePropertyType) (size : Nat) : Except ValueError Unit :=
  if size = 1 then .ok () else .error (.expectOne type)

/-- A vector with an element. -/
def expectAtLeastOne (type : VehiclePropertyType) (size : Nat) : Except ValueError Unit :=
  if 1 ≤ size then .ok () else .error (.expectAtLeastOne type)

/-- Checks the sizes of a payload against the type of the property. -/
def checkPropValue (value : VehiclePropValue) (config : VehiclePropConfig) :
    Option (Except ValueError Unit) :=
  match getPropType value.prop with
  | some .boolean | some .int32 => some (expectOne .int32 value.value.int32Values.length)
  | some .int32Vec => some (expectAtLeastOne .int32Vec value.value.int32Values.length)
  | some .int64 => some (expectOne .int64 value.value.int64Values.length)
  | some .int64Vec => some (expectAtLeastOne .int64Vec value.value.int64Values.length)
  | some .float => some (expectOne .float value.value.floatValues.length)
  | some .floatVec => some (expectAtLeastOne .floatVec value.value.floatValues.length)
  | some .bytes | some .string => some (.ok ())
  | some .mixed =>
      if isVendorProp value.prop then checkVendorMixedPropValue value config else some (.ok ())
  | none => some (.error (.unknownPropertyType (maskedBits value.prop 0x00ff0000)))

/-- All elements are in a range, unless both bounds are zero. -/
def inRange {T : Type} (lt : T → T → Bool) (zero : T → Bool) (min max : T) (values : List T) :
    Bool :=
  zero min && zero max || values.all fun x => !(lt x min || lt max x)

/-- The check of the elements against the range of the area. -/
def checkValueRange (value : VehiclePropValue) :
    Option VehicleAreaConfig → Except ValueError Unit
  | none => .ok ()
  | some areaConfig =>
      match getPropType value.prop with
      | some .int32 | some .int32Vec =>
          if inRange (fun a b => decide (a < b)) (· == 0) areaConfig.minInt32Value
            areaConfig.maxInt32Value value.value.int32Values then .ok ()
          else .error (.outOfRange .int32)
      | some .int64 | some .int64Vec =>
          if inRange (fun a b => decide (a < b)) (· == 0) areaConfig.minInt64Value
            areaConfig.maxInt64Value value.value.int64Values then .ok ()
          else .error (.outOfRange .int64)
      | some .float | some .floatVec =>
          if inRange Binary32.lt (Binary32.eq .zero) areaConfig.minFloatValue
            areaConfig.maxFloatValue value.value.floatValues then .ok ()
          else .error (.outOfRange .float)
      | _ => .ok ()

end VhalCore
