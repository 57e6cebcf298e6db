import Mathlib.Data.List.Basic

/-!
# Parcelables and messages

The parcelables of the vehicle interface and the messages that carry them between the
proxy and its server, field by field. Integers are machine integers, an enum is its
integer, a float is its bit pattern and a string is its characters, so that a value here
is exactly what the code holds. A message has a presence bit for its message fields and
none for its repeated fields.
-/

namespace VhalCore.ProtoMsgConverter

/-- The bit pattern of a single-precision number. -/
abbrev FloatBits := BitVec 32

/-- A character string; bytes of a message are held in the same type. -/
abbrev CharString := List Int8

namespace Aidl

/-- The payload of a property value. -/
structure RawPropValues where
  int32Values : List Int32 := []
  floatValues : List FloatBits := []
  int64Values : List Int64 := []
  byteValues : List UInt8 := []
  stringValue : CharString := []
  deriving DecidableEq

/-- A property value of one area. -/
structure VehiclePropValue where
  timestamp : Int64 := 0
  areaId : Int32 := 0
  prop : Int32 := 0
  status : Int32 := 0
  value : RawPropValues := {}
  deriving DecidableEq

/-- One subscription request. -/
structure SubscribeOptions where
  propId : Int32 := 0
  areaIds : List Int32 := []
  sampleRate : FloatBits := 0
  resolution : FloatBits := 0
  enableVariableUpdateRate : Bool := false
  deriving DecidableEq

/-- A property in one of its areas. -/
structure PropIdAreaId where
  propId : Int32 := 0
  areaId : Int32 := 0
  deriving DecidableEq

/-- Which supported values the hardware specifies. -/
structure HasSupportedValueInfo where
  hasMinSupportedValue : Bool := false
  hasMaxSupportedValue : Bool := false
  hasSupportedValuesList : Bool := false
  deriving DecidableEq

/-- The config of an area. -/
structure VehicleAreaConfig where
  areaId : Int32 := 0
  minInt32Value : Int32 := 0
  maxInt32Value : Int32 := 0
  minInt64Value : Int64 := 0
  maxInt64Value : Int64 := 0
  minFloatValue : FloatBits := 0
  maxFloatValue : FloatBits := 0
  supportedEnumValues : Option (List Int64) := none
  access : Int32 := 0
  supportVariableUpdateRate : Bool := false
  hasSupportedValueInfo : Option HasSupportedValueInfo := none
  deriving DecidableEq, Inhabited

/-- The config of a property. -/
structure VehiclePropConfig where
  prop : Int32 := 0
  access : Int32 := 0
  changeMode : Int32 := 0
  areaConfigs : List VehicleAreaConfig := []
  configArray : List Int32 := []
  configString : CharString := []
  minSampleRate : FloatBits := 0
  maxSampleRate : FloatBits := 0
  deriving DecidableEq

/-- The range of supported values of a pair. -/
structure MinMaxSupportedValueResult where
  status : Int32 := 0
  minSupportedValue : Option RawPropValues := none
  maxSupportedValue : Option RawPropValues := none
  deriving DecidableEq

/-- The supported values of a pair, an optional list of optional values. -/
structure SupportedValuesListResult where
  status : Int32 := 0
  supportedValuesList : Option (List (Option RawPropValues)) := none
  deriving DecidableEq

end Aidl

namespace Proto

/-- The message of a payload. -/
structure RawPropValues where
  int32Values : List Int32 := []
  floatValues : List FloatBits := []
  int64Values : List Int64 := []
  byteValues : CharString := []
  stringValue : CharString := []
  deriving DecidableEq

/-- The message of a property value, with the payload in its own fields. -/
structure VehiclePropValue where
  timestamp : Int64 := 0
  areaId : Int32 := 0
  prop : Int32 := 0
  status : Int32 := 0
  int32Values : List Int32 := []
  floatValues : List FloatBits := []
  int64Values : List Int64 := []
  byteValues : CharString := []
  stringValue : CharString := []
  deriving DecidableEq

/-- The message of a subscription request. -/
structure SubscribeOptions where
  propId : Int32 := 0
  areaIds : List Int32 := []
  sampleRate : FloatBits := 0
  resolution : FloatBits := 0
  enableVariableUpdateRate : Bool := false
  deriving DecidableEq

/-- The message of a property in one of its areas. -/
structure PropIdAreaId where
  propId : Int32 := 0
  areaId : Int32 := 0
  deriving DecidableEq

/-- The message of what the hardware specifies. -/
structure HasSupportedValueInfo where
  hasMinSupportedValue : Bool := false
  hasMaxSupportedValue : Bool := false
  hasSupportedValuesList : Bool := false
  deriving DecidableEq

/-- The message of the config of an area. -/
structure VehicleAreaConfig where
  areaId : Int32 := 0
  minInt32Value : Int32 := 0
  maxInt32Value : Int32 := 0
  minInt64Value : Int64 := 0
  maxInt64Value : Int64 := 0
  minFloatValue : FloatBits := 0
  maxFloatValue : FloatBits := 0
  supportedEnumValues : List Int64 := []
  access : Int32 := 0
  supportVariableUpdateRate : Bool := false
  hasSupportedValueInfo : Option HasSupportedValueInfo := none
  deriving DecidableEq

/-- The message of the config of a property. -/
structure VehiclePropConfig where
  prop : Int32 := 0
  access : Int32 := 0
  changeMode : Int32 := 0
  areaConfigs : List VehicleAreaConfig := []
  configArray : List Int32 := []
  configString : CharString := []
  minSampleRate : FloatBits := 0
  maxSampleRate : FloatBits := 0
  deriving DecidableEq

/-- The message of a range of supported values. -/
structure MinMaxSupportedValueResult where
  status : Int32 := 0
  minSupportedValue : Option RawPropValues := none
  maxSupportedValue : Option RawPropValues := none
  deriving DecidableEq

/-- The message of a list of supported values. -/
structure SupportedValuesListResult where
  status : Int32 := 0
  supportedValuesList : List RawPropValues := []
  deriving DecidableEq

end Proto

/-- The integer of the status code `OK`. -/
def statusOk : Int32 := 0

/-- The integer of the status code `INTERNAL_ERROR`. -/
def statusInternalError : Int32 := 5

end VhalCore.ProtoMsgConverter
