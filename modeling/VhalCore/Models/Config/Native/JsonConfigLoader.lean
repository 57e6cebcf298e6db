import VhalCore.Core.UnorderedMap
import VhalCore.Models.Proto.Native.Messages

/-!
# Loader of property configs

The loader reads the properties of a document one by one. Errors do not stop it: they are
collected, a field with an error keeps what its variable held, and a document with any
error yields no config. A field of an area may stand in the area or in its property.

The library that reads JSON, the tables of constants and the tables of default modes are
given by an `Environment`.
-/

namespace VhalCore.JsonConfigLoader

open ProtoMsgConverter

/-- The errors that are collected for a document. -/
inductive ConfigError (Value : Type) where
  /-- `The value: {} for field: {} is not in correct type, expect {}` -/
  | incorrectType (value : Value) (fieldName expected : String)
  /-- `Invalid constant value: {} for field: {}` -/
  | invalidConstant (value : Value) (fieldName : String)
  /-- `Unrecognized type: {}` -/
  | unrecognizedType (type : CharString)
  /-- `{}::{} undefined` -/
  | undefinedConstant (type valueName : CharString)
  /-- `Node: {} is not an object` -/
  | notAnObject (node : Value)
  /-- `Missing required field: {} in node: {}` -/
  | missingField (fieldName : String) (node : Value)
  /-- `Missing required field: {} in nodes: {}` -/
  | missingFieldInNodes (fieldName : String) (nodes : List Value)
  /-- `No {} specified for property: {}` -/
  | notSpecified (fieldName : String) (property : Option Value)
  /-- `Field: {} is not an array` -/
  | notAnArray (fieldName : String)

/-- The values of the JSON library and the tables that the loader looks up. A conversion is
defined where the check of the type succeeds; `asInt` is the unchecked one, which throws
where it is not defined. -/
structure Environment (Value : Type) where
  isObject : Value → Bool
  member : Value → String → Option Value
  elements : Value → Option (List Value)
  toBool : Value → Option Bool
  toInt : Value → Option Int32
  toFloat : Value → Option FloatBits
  toInt64 : Value → Option Int64
  toText : Value → Option CharString
  asInt : Value → Option Int32
  constantParsersByType : CharString → Option (CharString → Option Int32)
  defaultAccessForVehicleProperty : Int32 → Option Int32
  changeModeForVehicleProperty : Int32 → Option Int32

/-- The characters of a text in the source. -/
def chars (text : String) : CharString := text.toList.map fun c => Int8.ofNat c.toNat

/-- The number nearest to an integer, the even one of two. -/
def floatOfInt (n : Int32) : FloatBits :=
  let magnitude := n.toInt.natAbs
  if magnitude = 0 then 0
  else
    let exponent := magnitude.log2
    let shift := exponent - 23
    let quotient := magnitude * 2 ^ (23 - exponent) / 2 ^ shift
    let remainder := magnitude % 2 ^ shift
    let roundUp := 2 ^ shift < 2 * remainder ∨ 2 ^ shift = 2 * remainder ∧ quotient % 2 = 1
    let significand := if roundUp then quotient + 1 else quotient
    let sign := if n < 0 then 2 ^ 31 else 0
    BitVec.ofNat 32 (sign + (exponent + 127) * 2 ^ 23 + significand - 2 ^ 23)

/-- A type of the fields: the conversion of a value and, but for strings, of a constant. -/
structure FieldType (Value T : Type) where
  expected : String
  convert : Value → Option T
  ofConstant : Option (Int32 → T)

section

variable {Value T : Type} (env : Environment Value)

/-- The Boolean fields. A constant other than zero stands for `true`. -/
def boolType : FieldType Value Bool := ⟨"bool", env.toBool, some fun n => n ≠ 0⟩

/-- The fields of 32-bit integers. -/
def intType : FieldType Value Int32 := ⟨"int", env.toInt, some id⟩

/-- The fields of floats. A constant is converted. -/
def floatType : FieldType Value FloatBits := ⟨"float", env.toFloat, some floatOfInt⟩

/-- The fields of 64-bit integers. A constant is extended. -/
def int64Type : FieldType Value Int64 := ⟨"int64", env.toInt64, some Int32.toInt64⟩

/-- The fields of strings, for which no constant stands. -/
def stringType : FieldType Value CharString := ⟨"string", env.toText, none⟩

/-- Reads a value as the type of a field. -/
def convertValueToType (type : FieldType Value T) (fieldName : String) (value : Value) :
    Except (ConfigError Value) T :=
  match type.convert value with
  | some result => .ok result
  | none => .error (.incorrectType value fieldName type.expected)

/-- The text before the first delimiter and the text after it. -/
def splitAtDelimiter : CharString → Option (CharString × CharString)
  | 58 :: 58 :: rest => some ([], rest)
  | c :: rest => (splitAtDelimiter rest).map fun (before, after) => (c :: before, after)
  | [] => none

/-- Splits a text at the delimiter, if what stands before it is a type with constants. -/
def maybeGetTypeAndValueName (jsonFieldValue : CharString) : Option (CharString × CharString) :=
  match splitAtDelimiter jsonFieldValue with
  | none => none
  | some (type, valueName) =>
      if type ≠ chars "Constants" ∧ env.constantParsersByType type = none then none
      else some (type, valueName)

/-- Looks a constant up among those of its type. -/
def parseConstantValue (type valueName : CharString) : Except (ConfigError Value) Int32 :=
  match env.constantParsersByType type with
  | none => .error (.unrecognizedType type)
  | some parser =>
      match parser valueName with
      | none => .error (.undefinedConstant type valueName)
      | some constant => .ok constant

/-- A string is a constant, unless the field is a string; other values are converted. -/
def parseValue (type : FieldType Value T) (fieldName : String) (value : Value) :
    Except (ConfigError Value) T :=
  match type.ofConstant, env.toText value with
  | some ofConstant, some text =>
      match maybeGetTypeAndValueName env text with
      | none => .error (.invalidConstant value fieldName)
      | some (typeName, valueName) => (parseConstantValue env typeName valueName).map ofConstant
  | _, _ => convertValueToType type fieldName value

/-- Reads all elements of an array, up to the first that is none of the type. -/
def parseArray (type : FieldType Value T) (fieldName : String) (value : Value) :
    Except (ConfigError Value) (List T) :=
  match env.elements value with
  | none => .error (.incorrectType value fieldName "array")
  | some elements => elements.mapM (parseValue env type fieldName)

/-- A step of the loader, which may append errors. -/
abbrev Loading (Value T : Type) := StateM (List (ConfigError Value)) T

/-- Adds an error to those of the load. -/
def report (error : ConfigError Value) : Loading Value Unit := modify (· ++ [error])

/-- What an attempt to read a field says, and the variable after it. -/
structure Attempt (T : Type) where
  success : Bool
  found : Bool
  out : T

/-- Read a field of a node into a variable; the two functions of the source differ in how
the value is parsed. -/
def tryParseJson (parse : String → Value → Except (ConfigError Value) T) (parentJsonNode : Value)
    (fieldName : String) (fieldIsOptional : Bool) (out : T) : Loading Value (Attempt T) := do
  if !env.isObject parentJsonNode then
    report (.notAnObject parentJsonNode)
    return ⟨false, false, out⟩
  match env.member parentJsonNode fieldName with
  | none =>
      if fieldIsOptional then return ⟨true, false, out⟩
      report (.missingField fieldName parentJsonNode)
      return ⟨false, false, out⟩
  | some value =>
      match parse fieldName value with
      | .error error =>
          report error
          return ⟨false, false, out⟩
      | .ok result => return ⟨true, true, result⟩

/-- Read a field of the first node that has it; `nodes` is the whole list of nodes. -/
def tryParseJsonInNodes (parse : String → Value → Except (ConfigError Value) T)
    (nodes : List Value) (fieldName : String) (fieldIsOptional : Bool) (out : T) :
    List Value → Loading Value (Attempt T)
  | [] => do
      if fieldIsOptional then return ⟨true, false, out⟩
      report (.missingFieldInNodes fieldName nodes)
      return ⟨false, false, out⟩
  | node :: rest => do
      let attempt ← tryParseJson env parse node fieldName true out
      if !attempt.success || attempt.found then return attempt
      tryParseJsonInNodes parse nodes fieldName fieldIsOptional out rest

/-- Reads a field of a single value into a variable. -/
def tryParseJsonValueToVariable (type : FieldType Value T) :
    Value → String → Bool → T → Loading Value (Attempt T) :=
  tryParseJson env (parseValue env type)

/-- Reads a field of an array into a variable. -/
def tryParseJsonArrayToVariable (type : FieldType Value T) :
    Value → String → Bool → List T → Loading Value (Attempt (List T)) :=
  tryParseJson env (parseArray env type)

/-- The variable after an optional field is read from the first node that has it. -/
def inheritValue (type : FieldType Value T) (nodes : List Value) (fieldName : String) (out : T) :
    Loading Value T := do
  return (← tryParseJsonInNodes env (parseValue env type) nodes fieldName true out nodes).out

/-- The vector after an optional array is read from the first node that has it. -/
def inheritArray (type : FieldType Value T) (nodes : List Value) (fieldName : String)
    (out : List T) : Loading Value (List T) := do
  return (← tryParseJsonInNodes env (parseArray env type) nodes fieldName true out nodes).out

/-- Reads the access or the change mode of a property, with the default of the property where the
document names none. -/
def parseAccessChangeMode (parentJsonNode : Value) (fieldName : String) (property : Option Value)
    (defaultMode : Option Int32) (out : Int32) : Loading Value Int32 := do
  if !env.isObject parentJsonNode then
    report (.notAnObject parentJsonNode)
    return out
  match env.member parentJsonNode fieldName with
  | some value =>
      match parseValue env (intType env) fieldName value with
      | .error error =>
          report error
          return out
      | .ok result => return result
  | none =>
      match defaultMode with
      | none =>
          report (.notSpecified fieldName property)
          return out
      | some mode => return mode

/-- The payload after its fields are read, and whether all of them were read. -/
def parsePropValues (parentJsonNode : Value) (fieldName : String) (out : Aidl.RawPropValues) :
    Loading Value (Bool × Aidl.RawPropValues) := do
  if !env.isObject parentJsonNode then
    report (.notAnObject parentJsonNode)
    return (false, out)
  match env.member parentJsonNode fieldName with
  | none => return (false, out)
  | some value =>
      let int32Values ← tryParseJsonArrayToVariable env (intType env) value "int32Values" true
        out.int32Values
      let floatValues ← tryParseJsonArrayToVariable env (floatType env) value "floatValues" true
        out.floatValues
      let int64Values ← tryParseJsonArrayToVariable env (int64Type env) value "int64Values" true
        out.int64Values
      let stringValue ← tryParseJsonValueToVariable env (stringType env) value "stringValue" true
        out.stringValue
      return (int32Values.success && floatValues.success && int64Values.success &&
          stringValue.success,
        { out with
          int32Values := int32Values.out
          floatValues := floatValues.out
          int64Values := int64Values.out
          stringValue := stringValue.out })

/-- A property config with its initial values and the supported values of its areas. -/
structure ConfigDeclaration where
  config : Aidl.VehiclePropConfig := {}
  initialValue : Aidl.RawPropValues := {}
  initialAreaValues : UnorderedMap Int32 Aidl.RawPropValues := ∅
  supportedValuesForAreaId : UnorderedMap Int32 (List FloatBits) := ∅

/-- A vector that is kept only if it has an element. -/
def nonEmpty (values : List T) : Option (List T) := if values.isEmpty then none else some values

/-- What the hardware specifies, from the area or else from the property. -/
def parseHasSupportedValueInfo (jsonAreaConfig parentJsonNode : Value) :
    Loading Value (Option Aidl.HasSupportedValueInfo) := do
  let node := (env.member jsonAreaConfig "hasSupportedValueInfo").or
    (env.member parentJsonNode "hasSupportedValueInfo")
  match node with
  | none => return none
  | some node =>
      let minimum ← tryParseJsonValueToVariable env (boolType env) node "hasMinSupportedValue" true
        false
      let maximum ← tryParseJsonValueToVariable env (boolType env) node "hasMaxSupportedValue" true
        false
      let list ← tryParseJsonValueToVariable env (boolType env) node "hasSupportedValuesList" true
        false
      return some ⟨minimum.out, maximum.out, list.out⟩

/-- The config of an area whose id is read, and the supported values of the area. -/
def parseAreaConfig (parentJsonNode jsonAreaConfig : Value) (access areaId : Int32) :
    Loading Value (Aidl.VehicleAreaConfig × List FloatBits) := do
  let nodes := [jsonAreaConfig, parentJsonNode]
  let access ← parseAccessChangeMode env jsonAreaConfig "access"
    (env.member parentJsonNode "property") (some access) 0
  let minInt32Value ← inheritValue env (intType env) nodes "minInt32Value" 0
  let maxInt32Value ← inheritValue env (intType env) nodes "maxInt32Value" 0
  let minInt64Value ← inheritValue env (int64Type env) nodes "minInt64Value" 0
  let maxInt64Value ← inheritValue env (int64Type env) nodes "maxInt64Value" 0
  let minFloatValue ← inheritValue env (floatType env) nodes "minFloatValue" 0
  let maxFloatValue ← inheritValue env (floatType env) nodes "maxFloatValue" 0
  let supportVariableUpdateRate ← inheritValue env (boolType env) nodes
    "supportVariableUpdateRate" true
  let supportedEnumValues ← inheritArray env (int64Type env) nodes "supportedEnumValues" []
  let supportedValues ← inheritArray env (floatType env) nodes "supportedValues" []
  let hasSupportedValueInfo ← parseHasSupportedValueInfo env jsonAreaConfig parentJsonNode
  return ({ areaId, access, minInt32Value, maxInt32Value, minInt64Value, maxInt64Value,
            minFloatValue, maxFloatValue, supportVariableUpdateRate, hasSupportedValueInfo,
            supportedEnumValues := nonEmpty supportedEnumValues }, supportedValues)

/-- One turn of the loop over the areas. -/
def parseArea (parentJsonNode : Value) (config : ConfigDeclaration) (jsonAreaConfig : Value) :
    Loading Value ConfigDeclaration := do
  let areaId ← tryParseJsonValueToVariable env (intType env) jsonAreaConfig "areaId" false 0
  if !areaId.success then return config
  let areaId := areaId.out
  let (areaConfig, supportedValues) ← parseAreaConfig env parentJsonNode jsonAreaConfig
    config.config.access areaId
  let (parsed, areaValue) ← parsePropValues env jsonAreaConfig "defaultValue" {}
  return { config with
    config := { config.config with areaConfigs := config.config.areaConfigs ++ [areaConfig] }
    supportedValuesForAreaId :=
      if supportedValues.isEmpty then config.supportedValuesForAreaId
      else config.supportedValuesForAreaId.insert areaId supportedValues
    initialAreaValues :=
      if parsed then config.initialAreaValues.insert areaId areaValue
      else if config.initialValue ≠ {} then
        config.initialAreaValues.insert areaId config.initialValue
      else config.initialAreaValues }

/-- Reads the areas of a property, if the document lists any. -/
def parseAreas (parentJsonNode : Value) (fieldName : String) (config : ConfigDeclaration) :
    Loading Value ConfigDeclaration := do
  if !env.isObject parentJsonNode then
    report (.notAnObject parentJsonNode)
    return config
  match env.member parentJsonNode fieldName with
  | none => return config
  | some value =>
      match env.elements value with
      | none =>
          report (.notAnArray fieldName)
          return config
      | some areas => areas.foldlM (parseArea env parentJsonNode) config

/-- The config of a property before its areas are read. -/
def parseProperty (propJsonValue : Value) (propId : Int32) : Loading Value ConfigDeclaration := do
  let property := env.member propJsonValue "property"
  let access ← parseAccessChangeMode env propJsonValue "access" property
    (env.defaultAccessForVehicleProperty propId) 0
  let changeMode ← parseAccessChangeMode env propJsonValue "changeMode" property
    (env.changeModeForVehicleProperty propId) 0
  let configString ← tryParseJsonValueToVariable env (stringType env) propJsonValue
    "configString" true []
  let configArray ← tryParseJsonArrayToVariable env (intType env) propJsonValue
    "configArray" true []
  let (_, initialValue) ← parsePropValues env propJsonValue "defaultValue" {}
  let minSampleRate ← tryParseJsonValueToVariable env (floatType env) propJsonValue
    "minSampleRate" true 0
  let maxSampleRate ← tryParseJsonValueToVariable env (floatType env) propJsonValue
    "maxSampleRate" true 0
  return {
    config := {
      prop := propId, access, changeMode
      configString := configString.out
      configArray := configArray.out
      minSampleRate := minSampleRate.out
      maxSampleRate := maxSampleRate.out }
    initialValue }

/-- A property without an area has one area, with the access of the property. -/
def addGlobalAreaConfig (configDecl : ConfigDeclaration) : ConfigDeclaration :=
  if configDecl.config.areaConfigs.length = 0 then
    { configDecl with
      config := { configDecl.config with
        areaConfigs := [
          { areaId := 0
            access := configDecl.config.access
            supportVariableUpdateRate := true }] } }
  else configDecl

/-- The config of a property, unless reading it appends an error. -/
def parseEachProperty (propJsonValue : Value) : Loading Value (Option ConfigDeclaration) := do
  let initialErrorCount := (← get).length
  let propId ← tryParseJsonValueToVariable env (intType env) propJsonValue "property" false 0
  if !propId.success then return none
  let configDecl ← parseProperty env propJsonValue propId.out
  let configDecl ← parseAreas env propJsonValue "areas" configDecl
  let configDecl := addGlobalAreaConfig configDecl
  if (← get).length ≠ initialErrorCount then return none
  return some configDecl

/-- One turn of the loop over the properties: a later config replaces an earlier one. -/
def addProperty (configsByPropId : UnorderedMap Int32 ConfigDeclaration) (propJsonValue : Value) :
    Loading Value (UnorderedMap Int32 ConfigDeclaration) := do
  match ← parseEachProperty env propJsonValue with
  | none => return configsByPropId
  | some configDecl => return configsByPropId.insert configDecl.config.prop configDecl

/-- Why a document yields no config. -/
inductive LoadError (Value : Type) where
  /-- `Failed to parse property config file as JSON, error: {}` -/
  | notJson (error : String)
  /-- `root element must be an object` -/
  | rootNotAnObject
  /-- `The JSON file is not compatible with the JSON loader version` -/
  | notCompatible
  /-- `Missing 'properties' field in root or the field is not an array` -/
  | missingProperties
  /-- The errors of the fields, joined. -/
  | fields (errors : List (ConfigError Value))

/-- The API versions of the loader. -/
def compatibleApiVersions : List Int32 := [1, 2]

/-- The API version of a document, 1 by default. -/
def apiVersion (root : Value) : Option Int32 :=
  match env.member root "apiVersion" with
  | none => some 1
  | some version => env.asInt version

/-- The configs of the properties of a document, unless there is an error. -/
def parseProperties (root : Value) :
    Except (LoadError Value) (UnorderedMap Int32 ConfigDeclaration) :=
  match (env.member root "properties").bind env.elements with
  | none => .error .missingProperties
  | some properties =>
      let loaded := (properties.foldlM (addProperty env) ∅).run []
      if !loaded.2.isEmpty then .error (.fields loaded.2) else .ok loaded.1

/-- Load a document. There is no result where the API version is a value that does not
convert to an integer. -/
def parseJsonConfig (document : Except String Value) :
    Option (Except (LoadError Value) (UnorderedMap Int32 ConfigDeclaration)) :=
  match document with
  | .error error => some (.error (.notJson error))
  | .ok root =>
      if !env.isObject root then some (.error .rootNotAnObject)
      else
        (apiVersion env root).map fun apiVersion =>
          if !compatibleApiVersions.contains apiVersion then .error .notCompatible
          else parseProperties env root

end

end VhalCore.JsonConfigLoader
