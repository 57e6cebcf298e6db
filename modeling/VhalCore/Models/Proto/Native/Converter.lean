import VhalCore.Core.Repeated
import VhalCore.Models.Proto.Native.Messages

/-!
# Conversion between parcelables and messages

Every conversion writes into an output that the caller passes: scalar fields are set,
repeated fields of a message are added to, vectors of a parcelable are resized and
assigned, bytes are pushed back one by one. Byte vectors hold unsigned bytes, the bytes
of a message are characters.
-/

namespace VhalCore.ProtoMsgConverter

/-- The bytes of a vector, copied as characters. -/
def setBytes (bytes : List UInt8) : CharString := bytes.map UInt8.toInt8

/-- Push the characters of a message back to a byte vector. -/
def pushBytes (chars : CharString) (bytes : List UInt8) : List UInt8 :=
  addAll Int8.toUInt8 chars bytes

/-- Writes a payload into a protobuf message. -/
def Aidl.RawPropValues.aidlToProto (input : Aidl.RawPropValues) (out : Proto.RawPropValues) :
    Proto.RawPropValues :=
  { out with
    stringValue := input.stringValue
    byteValues := setBytes input.byteValues
    int32Values := addAll id input.int32Values out.int32Values
    int64Values := addAll id input.int64Values out.int64Values
    floatValues := addAll id input.floatValues out.floatValues }

/-- Reads a payload from a protobuf message. -/
def Proto.RawPropValues.protoToAidl (input : Proto.RawPropValues) (out : Aidl.RawPropValues) :
    Aidl.RawPropValues :=
  { out with
    int32Values := castCopy id input.int32Values out.int32Values
    int64Values := castCopy id input.int64Values out.int64Values
    floatValues := castCopy id input.floatValues out.floatValues
    stringValue := input.stringValue
    byteValues := pushBytes input.byteValues out.byteValues }

/-- Writes a value into a message, which holds the payload in its own fields. -/
def Aidl.VehiclePropValue.aidlToProto (input : Aidl.VehiclePropValue)
    (out : Proto.VehiclePropValue) : Proto.VehiclePropValue :=
  { out with
    prop := input.prop
    timestamp := input.timestamp
    status := input.status
    areaId := input.areaId
    stringValue := input.value.stringValue
    byteValues := setBytes input.value.byteValues
    int32Values := addAll id input.value.int32Values out.int32Values
    int64Values := addAll id input.value.int64Values out.int64Values
    floatValues := addAll id input.value.floatValues out.floatValues }

/-- Reads a value from a message. -/
def Proto.VehiclePropValue.protoToAidl (input : Proto.VehiclePropValue)
    (out : Aidl.VehiclePropValue) : Aidl.VehiclePropValue :=
  { out with
    prop := input.prop
    timestamp := input.timestamp
    status := input.status
    areaId := input.areaId
    value :=
      { out.value with
        stringValue := input.stringValue
        byteValues := pushBytes input.byteValues out.value.byteValues
        int32Values := castCopy id input.int32Values out.value.int32Values
        int64Values := castCopy id input.int64Values out.value.int64Values
        floatValues := castCopy id input.floatValues out.value.floatValues } }

/-- Writes options of a subscription into a message. -/
def Aidl.SubscribeOptions.aidlToProto (input : Aidl.SubscribeOptions)
    (out : Proto.SubscribeOptions) : Proto.SubscribeOptions :=
  { out with
    propId := input.propId
    areaIds := addAll id input.areaIds out.areaIds
    sampleRate := input.sampleRate
    resolution := input.resolution
    enableVariableUpdateRate := input.enableVariableUpdateRate }

/-- Reads options of a subscription from a message. -/
def Proto.SubscribeOptions.protoToAidl (input : Proto.SubscribeOptions)
    (out : Aidl.SubscribeOptions) : Aidl.SubscribeOptions :=
  { out with
    propId := input.propId
    areaIds := castCopy id input.areaIds out.areaIds
    sampleRate := input.sampleRate
    resolution := input.resolution
    enableVariableUpdateRate := input.enableVariableUpdateRate }

/-- Writes a pair into a message. -/
def Aidl.PropIdAreaId.aidlToProto (input : Aidl.PropIdAreaId) (out : Proto.PropIdAreaId) :
    Proto.PropIdAreaId :=
  { out with propId := input.propId, areaId := input.areaId }

/-- Reads a pair from a message. -/
def Proto.PropIdAreaId.protoToAidl (input : Proto.PropIdAreaId) (out : Aidl.PropIdAreaId) :
    Aidl.PropIdAreaId :=
  { out with propId := input.propId, areaId := input.areaId }

/-- Writes a result into a message. A bound that is absent leaves the field as it is. -/
def Aidl.MinMaxSupportedValueResult.aidlToProto (input : Aidl.MinMaxSupportedValueResult)
    (out : Proto.MinMaxSupportedValueResult) : Proto.MinMaxSupportedValueResult :=
  { out with
    status := input.status
    minSupportedValue :=
      match input.minSupportedValue with
      | some value => some (value.aidlToProto (out.minSupportedValue.getD {}))
      | none => out.minSupportedValue
    maxSupportedValue :=
      match input.maxSupportedValue with
      | some value => some (value.aidlToProto (out.maxSupportedValue.getD {}))
      | none => out.maxSupportedValue }

/-- Reads a result from a message. -/
def Proto.MinMaxSupportedValueResult.protoToAidl (input : Proto.MinMaxSupportedValueResult)
    (out : Aidl.MinMaxSupportedValueResult) : Aidl.MinMaxSupportedValueResult :=
  { out with
    status := input.status
    minSupportedValue :=
      match input.minSupportedValue with
      | some value => some (value.protoToAidl {})
      | none => out.minSupportedValue
    maxSupportedValue :=
      match input.maxSupportedValue with
      | some value => some (value.protoToAidl {})
      | none => out.maxSupportedValue }

/-- An element of a list is added to the message if it is present. -/
def addSupportedValue (added : List Proto.RawPropValues) :
    Option Aidl.RawPropValues → List Proto.RawPropValues
  | some value => added ++ [value.aidlToProto {}]
  | none => added

/-- An absent list adds nothing. -/
def Aidl.SupportedValuesListResult.aidlToProto (input : Aidl.SupportedValuesListResult)
    (out : Proto.SupportedValuesListResult) : Proto.SupportedValuesListResult :=
  let out := { out with status := input.status }
  match input.supportedValuesList with
  | none => out
  | some list =>
      { out with supportedValuesList := list.foldl addSupportedValue out.supportedValuesList }

/-- A status other than `OK` leaves the list of the output as it is. -/
def Proto.SupportedValuesListResult.protoToAidl (input : Proto.SupportedValuesListResult)
    (out : Aidl.SupportedValuesListResult) : Aidl.SupportedValuesListResult :=
  let out := { out with status := input.status }
  if out.status ≠ statusOk then out
  else
    { out with
      supportedValuesList :=
        some (addAll (fun value => some (value.protoToAidl {})) input.supportedValuesList []) }

/-- Writes which supported values there are into a message. -/
def Aidl.HasSupportedValueInfo.aidlToProto (input : Aidl.HasSupportedValueInfo)
    (out : Proto.HasSupportedValueInfo) : Proto.HasSupportedValueInfo :=
  { out with
    hasMinSupportedValue := input.hasMinSupportedValue
    hasMaxSupportedValue := input.hasMaxSupportedValue
    hasSupportedValuesList := input.hasSupportedValuesList }

/-- Reads which supported values there are from a message. -/
def Proto.HasSupportedValueInfo.protoToAidl (input : Proto.HasSupportedValueInfo)
    (out : Aidl.HasSupportedValueInfo) : Aidl.HasSupportedValueInfo :=
  { out with
    hasMinSupportedValue := input.hasMinSupportedValue
    hasMaxSupportedValue := input.hasMaxSupportedValue
    hasSupportedValuesList := input.hasSupportedValuesList }

/-- The message that is filled for one area config. -/
def Aidl.VehicleAreaConfig.aidlToProto (input : Aidl.VehicleAreaConfig)
    (out : Proto.VehicleAreaConfig) : Proto.VehicleAreaConfig :=
  { out with
    areaId := input.areaId
    access := input.access
    minInt64Value := input.minInt64Value
    maxInt64Value := input.maxInt64Value
    minFloatValue := input.minFloatValue
    maxFloatValue := input.maxFloatValue
    minInt32Value := input.minInt32Value
    maxInt32Value := input.maxInt32Value
    supportedEnumValues :=
      match input.supportedEnumValues with
      | some values => addAll id values out.supportedEnumValues
      | none => out.supportedEnumValues
    supportVariableUpdateRate := input.supportVariableUpdateRate
    hasSupportedValueInfo :=
      match input.hasSupportedValueInfo with
      | some info => some (info.aidlToProto (out.hasSupportedValueInfo.getD {}))
      | none => out.hasSupportedValueInfo }

/-- The area config of a message; the list of enum values is set only if the field has an
element. -/
def castToAcfg (protoAcfg : Proto.VehicleAreaConfig) : Aidl.VehicleAreaConfig :=
  { areaId := protoAcfg.areaId
    minInt32Value := protoAcfg.minInt32Value
    maxInt32Value := protoAcfg.maxInt32Value
    minInt64Value := protoAcfg.minInt64Value
    maxInt64Value := protoAcfg.maxInt64Value
    minFloatValue := protoAcfg.minFloatValue
    maxFloatValue := protoAcfg.maxFloatValue
    access := protoAcfg.access
    supportVariableUpdateRate := protoAcfg.supportVariableUpdateRate
    supportedEnumValues :=
      if protoAcfg.supportedEnumValues.length ≠ 0 then
        some (castCopy id protoAcfg.supportedEnumValues [])
      else none
    hasSupportedValueInfo :=
      match protoAcfg.hasSupportedValueInfo with
      | some info => some (info.protoToAidl {})
      | none => none }

/-- Writes a configuration into a message. -/
def Aidl.VehiclePropConfig.aidlToProto (input : Aidl.VehiclePropConfig)
    (out : Proto.VehiclePropConfig) : Proto.VehiclePropConfig :=
  { out with
    prop := input.prop
    access := input.access
    changeMode := input.changeMode
    configString := input.configString
    minSampleRate := input.minSampleRate
    maxSampleRate := input.maxSampleRate
    configArray := addAll id input.configArray out.configArray
    areaConfigs := addAll (fun areaConfig => areaConfig.aidlToProto {}) input.areaConfigs [] }

/-- Reads a configuration from a message. -/
def Proto.VehiclePropConfig.protoToAidl (input : Proto.VehiclePropConfig)
    (out : Aidl.VehiclePropConfig) : Aidl.VehiclePropConfig :=
  { out with
    prop := input.prop
    access := input.access
    changeMode := input.changeMode
    configString := input.configString
    minSampleRate := input.minSampleRate
    maxSampleRate := input.maxSampleRate
    configArray := castCopy id input.configArray out.configArray
    areaConfigs := castCopy castToAcfg input.areaConfigs out.areaConfigs }

end VhalCore.ProtoMsgConverter
