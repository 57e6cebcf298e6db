import VhalCore.Models.Config.Native.JsonConfigLoader

/-!
# What a document of configs says

A document is well formed if every field that is read can be read and no required one is missing.
A field of an area is that of the area if it is there, else that of the property, else a default;
so a field that the property has for its areas is read only where an area lacks it.

What a well-formed document says of a property is said field by field, without errors and
without the order in which the fields are read.
-/

namespace VhalCore.JsonConfigLoader

open ProtoMsgConverter

variable {Value T : Type} (env : Environment Value)

section Fields

/-- The value of a constant that is there, `XXX::XXX`. -/
def constantOf (text : CharString) : Option Int32 :=
  (splitAtDelimiter text).bind fun (type, valueName) =>
    (env.constantParsersByType type).bind fun parser => parser valueName

/-- The value of a field in its type: a text stands for a constant unless the type is that of
texts. -/
def valueOf (type : FieldType Value T) (value : Value) : Option T :=
  match type.ofConstant, env.toText value with
  | some ofConstant, some text => (constantOf env text).map ofConstant
  | _, _ => type.convert value

/-- The elements that an array of the document denotes, if all of them denote one. -/
def arrayOf (type : FieldType Value T) (value : Value) : Option (List T) :=
  (env.elements value).bind fun elements => elements.mapM (valueOf env type)

/-- A field that is there can be read. -/
def Readable (read : Value → Option T) (field : Option Value) : Prop :=
  ∀ value ∈ field, (read value).isSome = true

/-- A field that is there, or the default. -/
def fieldOr (read : Value → Option T) (field : Option Value) (default : T) : T :=
  (field.bind read).getD default

/-- The field of the area, or else that of the property. -/
def inherited (property area : Value) (fieldName : String) : Option Value :=
  (env.member area fieldName).or (env.member property fieldName)

/-- The mode that a field or else a default gives. -/
def modeOf (field : Option Value) (defaultMode : Option Int32) : Option Int32 :=
  match field with
  | some value => valueOf env (intType env) value
  | none => defaultMode

end Fields

/-- A payload: each of its fields can be read. -/
structure IsPropValues (value : Value) : Prop where
  isObject : env.isObject value = true
  int32Values : Readable (arrayOf env (intType env)) (env.member value "int32Values")
  floatValues : Readable (arrayOf env (floatType env)) (env.member value "floatValues")
  int64Values : Readable (arrayOf env (int64Type env)) (env.member value "int64Values")
  stringValue : Readable (valueOf env (stringType env)) (env.member value "stringValue")

/-- The payload that an object of the document denotes. -/
def propValuesOf (value : Value) : Aidl.RawPropValues where
  int32Values := fieldOr (arrayOf env (intType env)) (env.member value "int32Values") []
  floatValues := fieldOr (arrayOf env (floatType env)) (env.member value "floatValues") []
  int64Values := fieldOr (arrayOf env (int64Type env)) (env.member value "int64Values") []
  stringValue := fieldOr (valueOf env (stringType env)) (env.member value "stringValue") []

/-- What an area says of its supported values: each of the fields can be read. -/
structure IsSupportedValueInfo (value : Value) : Prop where
  isObject : env.isObject value = true
  minimum : Readable (valueOf env (boolType env)) (env.member value "hasMinSupportedValue")
  maximum : Readable (valueOf env (boolType env)) (env.member value "hasMaxSupportedValue")
  list : Readable (valueOf env (boolType env)) (env.member value "hasSupportedValuesList")

/-- What an object of the document says of the supported values, `false` where it says nothing. -/
def supportedValueInfoOf (value : Value) : Aidl.HasSupportedValueInfo where
  hasMinSupportedValue :=
    fieldOr (valueOf env (boolType env)) (env.member value "hasMinSupportedValue") false
  hasMaxSupportedValue :=
    fieldOr (valueOf env (boolType env)) (env.member value "hasMaxSupportedValue") false
  hasSupportedValuesList :=
    fieldOr (valueOf env (boolType env)) (env.member value "hasSupportedValuesList") false

section Areas

variable (property area : Value)

/-- The id of an area, which is required. -/
def areaIdOf : Option Int32 := (env.member area "areaId").bind (valueOf env (intType env))

/-- Every field of the config of an area, or that it takes from the property, can be read. -/
structure IsAreaConfig : Prop where
  isObject : env.isObject area = true
  access : Readable (valueOf env (intType env)) (env.member area "access")
  minInt32Value : Readable (valueOf env (intType env)) (inherited env property area "minInt32Value")
  maxInt32Value : Readable (valueOf env (intType env)) (inherited env property area "maxInt32Value")
  minInt64Value :
    Readable (valueOf env (int64Type env)) (inherited env property area "minInt64Value")
  maxInt64Value :
    Readable (valueOf env (int64Type env)) (inherited env property area "maxInt64Value")
  minFloatValue :
    Readable (valueOf env (floatType env)) (inherited env property area "minFloatValue")
  maxFloatValue :
    Readable (valueOf env (floatType env)) (inherited env property area "maxFloatValue")
  supportVariableUpdateRate :
    Readable (valueOf env (boolType env)) (inherited env property area "supportVariableUpdateRate")
  supportedEnumValues :
    Readable (arrayOf env (int64Type env)) (inherited env property area "supportedEnumValues")
  supportedValues :
    Readable (arrayOf env (floatType env)) (inherited env property area "supportedValues")
  hasSupportedValueInfo :
    ∀ value ∈ inherited env property area "hasSupportedValueInfo", IsSupportedValueInfo env value

/-- The config, the id and the default value of an area can be read. -/
structure IsAreaEntry : Prop extends IsAreaConfig env property area where
  areaId : (areaIdOf env area).isSome = true
  defaultValue : ∀ value ∈ env.member area "defaultValue", IsPropValues env value

/-- The config of an area: each field is its own, else that of the property, else a default. -/
def areaConfigOf (access : Int32) : Aidl.VehicleAreaConfig where
  areaId := (areaIdOf env area).getD 0
  access := fieldOr (valueOf env (intType env)) (env.member area "access") access
  minInt32Value :=
    fieldOr (valueOf env (intType env)) (inherited env property area "minInt32Value") 0
  maxInt32Value :=
    fieldOr (valueOf env (intType env)) (inherited env property area "maxInt32Value") 0
  minInt64Value :=
    fieldOr (valueOf env (int64Type env)) (inherited env property area "minInt64Value") 0
  maxInt64Value :=
    fieldOr (valueOf env (int64Type env)) (inherited env property area "maxInt64Value") 0
  minFloatValue :=
    fieldOr (valueOf env (floatType env)) (inherited env property area "minFloatValue") 0
  maxFloatValue :=
    fieldOr (valueOf env (floatType env)) (inherited env property area "maxFloatValue") 0
  supportVariableUpdateRate :=
    fieldOr (valueOf env (boolType env)) (inherited env property area "supportVariableUpdateRate")
      true
  supportedEnumValues := nonEmpty
    (fieldOr (arrayOf env (int64Type env)) (inherited env property area "supportedEnumValues") [])
  hasSupportedValueInfo :=
    (inherited env property area "hasSupportedValueInfo").map (supportedValueInfoOf env)

/-- The supported values of an area, if there is one. -/
def supportedValuesOf : Option (List FloatBits) := nonEmpty
  (fieldOr (arrayOf env (floatType env)) (inherited env property area "supportedValues") [])

/-- The initial value of an area: its own default value, else the one of the property unless that
is empty. -/
def initialValueOf (initialValue : Aidl.RawPropValues) : Option Aidl.RawPropValues :=
  match env.member area "defaultValue" with
  | some value => some (propValuesOf env value)
  | none => if initialValue ≠ {} then some initialValue else none

end Areas

section Properties

variable (property : Value)

/-- The property that an entry of the document is about. -/
def propIdOf : Option Int32 := (env.member property "property").bind (valueOf env (intType env))

/-- The areas of a property in the order of the document. -/
def areasOf : List Value := ((env.member property "areas").bind env.elements).getD []

/-- The default value of a property, which may be empty. -/
def defaultValueOf : Aidl.RawPropValues :=
  ((env.member property "defaultValue").map (propValuesOf env)).getD {}

/-- Every field of the config of a property can be read, and there are modes or defaults of them. -/
structure IsPropertyConfig (propId : Int32) : Prop where
  isObject : env.isObject property = true
  access : (modeOf env (env.member property "access")
    (env.defaultAccessForVehicleProperty propId)).isSome = true
  changeMode : (modeOf env (env.member property "changeMode")
    (env.changeModeForVehicleProperty propId)).isSome = true
  configString : Readable (valueOf env (stringType env)) (env.member property "configString")
  configArray : Readable (arrayOf env (intType env)) (env.member property "configArray")
  defaultValue : ∀ value ∈ env.member property "defaultValue", IsPropValues env value
  minSampleRate : Readable (valueOf env (floatType env)) (env.member property "minSampleRate")
  maxSampleRate : Readable (valueOf env (floatType env)) (env.member property "maxSampleRate")

/-- The id, the config and the areas of a property can be read. -/
structure IsPropertyEntry : Prop where
  config : ∃ propId, propIdOf env property = some propId ∧ IsPropertyConfig env property propId
  areas : ∀ value ∈ env.member property "areas",
    ∃ areas, env.elements value = some areas ∧ ∀ area ∈ areas, IsAreaEntry env property area

/-- What is declared for the areas of a property with some id, the last of them first. -/
def lastOfArea (of : Value → Option T) (areaId : Int32) : Option T :=
  (areasOf env property).reverse.findSome? fun area =>
    if areaIdOf env area = some areaId then of area else none

/-- A declaration is what the entry of a property says. -/
structure Declares (configDecl : ConfigDeclaration) : Prop where
  prop : propIdOf env property = some configDecl.config.prop
  access : modeOf env (env.member property "access")
    (env.defaultAccessForVehicleProperty configDecl.config.prop) = some configDecl.config.access
  changeMode : modeOf env (env.member property "changeMode")
    (env.changeModeForVehicleProperty configDecl.config.prop) = some configDecl.config.changeMode
  configString : configDecl.config.configString =
    fieldOr (valueOf env (stringType env)) (env.member property "configString") []
  configArray : configDecl.config.configArray =
    fieldOr (arrayOf env (intType env)) (env.member property "configArray") []
  minSampleRate : configDecl.config.minSampleRate =
    fieldOr (valueOf env (floatType env)) (env.member property "minSampleRate") 0
  maxSampleRate : configDecl.config.maxSampleRate =
    fieldOr (valueOf env (floatType env)) (env.member property "maxSampleRate") 0
  initialValue : configDecl.initialValue = defaultValueOf env property
  /-- The configs of the areas in their order, or that of one area that takes only the access. -/
  areaConfigs : configDecl.config.areaConfigs =
    if areasOf env property = [] then
      [{ areaId := 0, access := configDecl.config.access, supportVariableUpdateRate := true }]
    else (areasOf env property).map fun area =>
      areaConfigOf env property area configDecl.config.access
  initialAreaValues : ∀ areaId, configDecl.initialAreaValues.lookup areaId =
    lastOfArea env property
      (fun area => initialValueOf env area (defaultValueOf env property)) areaId
  supportedValuesForAreaId : ∀ areaId, configDecl.supportedValuesForAreaId.lookup areaId =
    lastOfArea env property (supportedValuesOf env property) areaId

end Properties

/-- The last entry with an id. -/
def lastEntry (entries : List Value) (propId : Int32) : Option Value :=
  entries.reverse.find? fun entry => propIdOf env entry = some propId

/-- The configs of some entries: for every id there is what the last entry with it says, and it
has an area. -/
structure AreConfigsOf (entries : List Value) (configs : UnorderedMap Int32 ConfigDeclaration) :
    Prop where
  absent : ∀ propId, lastEntry env entries propId = none → configs.lookup propId = none
  present : ∀ propId entry, lastEntry env entries propId = some entry →
    ∃ configDecl, configs.lookup propId = some configDecl ∧ Declares env entry configDecl ∧
      configDecl.config.areaConfigs ≠ []

/-- The entries of a well-formed document: a version that is compatible and an array of properties
that can all be read. -/
structure IsConfigDocument (document : Except String Value) (entries : List Value) : Prop where
  root : ∃ root, document = .ok root ∧ env.isObject root = true ∧
    (∃ version ∈ compatibleApiVersions, apiVersion env root = some version) ∧
    (env.member root "properties").bind env.elements = some entries
  readable : ∀ entry ∈ entries, IsPropertyEntry env entry

end VhalCore.JsonConfigLoader
