import VhalCore.Models.FakeHardware.Native.FakeObd2Frame
import VhalCore.Models.FakeHardware.Native.Obd2SensorStore

/-!
# Construction of the fake vehicle hardware

The constructor goes through the declarations that were loaded, in the order of a hash map. It
registers each property, stores its initial value for every area and notes which values the areas
support. The properties of the diagnosis are registered only: their frames are made up at the end.

The declarations of the areas have more fields than the store reads. They are kept beside the
config, which has the fields of the store.
-/

namespace VhalCore.FakeHardware

open PropertyStore VehiclePropertyStore

/-- The property `OBD2_LIVE_FRAME`. -/
def obd2LiveFrameId : Int := 0x11e00d00

/-- What is specified about the values that an area supports. -/
structure HasSupportedValueInfo where
  hasMinSupportedValue : Bool := false
  hasMaxSupportedValue : Bool := false
  hasSupportedValuesList : Bool := false
  deriving DecidableEq, Repr

/-- The declaration of an area. -/
structure AreaDeclaration extends VehicleAreaConfig where
  hasSupportedValueInfo : Option HasSupportedValueInfo := none
  supportedEnumValues : Option (List Int) := none

/-- The declaration of a property. -/
structure ConfigDeclaration where
  config : VehiclePropConfig
  areas : List AreaDeclaration := []
  /-- The config has the areas that are declared. -/
  areaConfigs : config.areaConfigs = areas.map AreaDeclaration.toVehicleAreaConfig := by rfl
  initialValue : RawPropValues := {}
  initialAreaValues : UnorderedMap Int RawPropValues := ∅
  supportedValuesForAreaId : UnorderedMap Int (List Binary32) := ∅

/-- The loaded declarations, each under the id of its property. -/
structure ConfigDeclarations where
  byPropId : UnorderedMap Int ConfigDeclaration
  keyed : ∀ propId declaration, byPropId.lookup propId = some declaration →
    declaration.config.prop = propId

/-- The values that the areas support. -/
structure SupportedValues where
  mMinSupportedValueByPropIdAreaId : UnorderedMap PropIdAreaId RawPropValues := ∅
  mMaxSupportedValueByPropIdAreaId : UnorderedMap PropIdAreaId RawPropValues := ∅
  mSupportedValuesByPropIdAreaId : UnorderedMap PropIdAreaId (List RawPropValues) := ∅

/-- The parts of the hardware that the constructor fills. -/
structure HardwareState where
  properties : PropertyState
  supported : SupportedValues := {}

namespace SupportedValues

/-- Sets the minimum of a pair. -/
def setMinSupportedValueLocked (p : PropIdAreaId) (minValue : RawPropValues)
    (t : SupportedValues) : SupportedValues :=
  { t with
    mMinSupportedValueByPropIdAreaId := t.mMinSupportedValueByPropIdAreaId.insert p minValue }

/-- Sets the maximum of a pair. -/
def setMaxSupportedValueLocked (p : PropIdAreaId) (maxValue : RawPropValues)
    (t : SupportedValues) : SupportedValues :=
  { t with
    mMaxSupportedValueByPropIdAreaId := t.mMaxSupportedValueByPropIdAreaId.insert p maxValue }

/-- Sets the list of supported values of a pair. -/
def setSupportedValues (p : PropIdAreaId) (list : List RawPropValues) (t : SupportedValues) :
    SupportedValues :=
  { t with mSupportedValuesByPropIdAreaId := t.mSupportedValuesByPropIdAreaId.insert p list }

end SupportedValues

section Areas

/-- The minimum of an area, as a payload. Only numbers have one. -/
def AreaDeclaration.minValue (areaConfig : AreaDeclaration) :
    Option VehiclePropertyType → Option RawPropValues
  | some .int32 => some { int32Values := [areaConfig.minInt32Value] }
  | some .int64 => some { int64Values := [areaConfig.minInt64Value] }
  | some .float => some { floatValues := [areaConfig.minFloatValue] }
  | _ => none

/-- The maximum of an area, as a payload. Only numbers have one. -/
def AreaDeclaration.maxValue (areaConfig : AreaDeclaration) :
    Option VehiclePropertyType → Option RawPropValues
  | some .int32 => some { int32Values := [areaConfig.maxInt32Value] }
  | some .int64 => some { int64Values := [areaConfig.maxInt64Value] }
  | some .float => some { floatValues := [areaConfig.maxFloatValue] }
  | _ => none

/-- A float that is converted to an integer type has to be in its range. -/
def castFloat (min max : Int) (value : Binary32) : Except Fault Int :=
  match value.toInt min max with
  | some n => .ok n
  | none => .error .conversion

/-- The list that is made from the field `supportedValues`. -/
def listOfSupportedValues (values : List Binary32) :
    Option VehiclePropertyType → Except Fault (List RawPropValues)
  | some .int32 => values.mapM fun value =>
      (castFloat (-2 ^ 31) (2 ^ 31 - 1) value).map fun n => { int32Values := [n] }
  | some .int64 => values.mapM fun value =>
      (castFloat (-2 ^ 63) (2 ^ 63 - 1) value).map fun n => { int64Values := [n] }
  | some .float => .ok (values.map fun value => { floatValues := [value] })
  | _ => .ok []

/-- The list that is made from the field `supportedEnumValues`. -/
def listOfSupportedEnumValues (supportedEnumValues : Option (List Int)) :
    Option VehiclePropertyType → List RawPropValues
  | some .int32 => (supportedEnumValues.getD []).map fun n => { int32Values := [n.bmod (2 ^ 32)] }
  | some .int64 => (supportedEnumValues.getD []).map fun n => { int64Values := [n] }
  | _ => []

/-- The list of an area: the second field is looked at where the first is not specified. -/
def ConfigDeclaration.supportedValuesList (configDeclaration : ConfigDeclaration)
    (areaConfig : AreaDeclaration) (propertyType : Option VehiclePropertyType) :
    Except Fault (List RawPropValues) :=
  match configDeclaration.supportedValuesForAreaId.lookup areaConfig.areaId with
  | some values => listOfSupportedValues values propertyType
  | none => .ok (listOfSupportedEnumValues areaConfig.supportedEnumValues propertyType)

/-- One of the two bounds of an area. There is no result where the property has a type without
bounds: the rest of the area is then skipped. -/
def SupportedValues.initBound (specified : Bool) (bound : Option RawPropValues)
    (set : RawPropValues → SupportedValues → SupportedValues) (t : SupportedValues) :
    Option SupportedValues :=
  if specified then bound.map fun value => set value t else some t

/-- One turn of the loop over the areas. -/
def SupportedValues.initArea (configDeclaration : ConfigDeclaration) (t : SupportedValues)
    (areaConfig : AreaDeclaration) : Except Fault SupportedValues :=
  let propertyType := getPropType configDeclaration.config.prop
  let p : PropIdAreaId := ⟨configDeclaration.config.prop, areaConfig.areaId⟩
  match areaConfig.hasSupportedValueInfo with
  | none => .ok t
  | some info =>
      match initBound info.hasMinSupportedValue (areaConfig.minValue propertyType)
        (setMinSupportedValueLocked p) t with
      | none => .ok t
      | some t =>
          match initBound info.hasMaxSupportedValue (areaConfig.maxValue propertyType)
            (setMaxSupportedValueLocked p) t with
          | none => .ok t
          | some t =>
              if info.hasSupportedValuesList then
                (configDeclaration.supportedValuesList areaConfig propertyType).map fun list =>
                  if list = [] then t else t.setSupportedValues p list
              else .ok t

end Areas

/-- The initial value of an area, if it has one. An own value of the area is only looked for
where the declaration has values of areas. -/
def ConfigDeclaration.valueForArea (config : ConfigDeclaration) (curArea : Int) :
    Option RawPropValues :=
  if config.initialAreaValues = ∅ then
    if config.initialValue.eq {} then none else some config.initialValue
  else config.initialAreaValues.lookup curArea

/-- The areas that get an initial value: a global property has a single one. -/
def ConfigDeclaration.initialAreas (config : ConfigDeclaration) : List Int :=
  if isGlobalProp config.config.prop then [0]
  else config.config.areaConfigs.map VehicleAreaConfig.areaId

/-- The config that is registered: the first entry for the requests of the power state is the
one that the build sets. -/
def ConfigDeclaration.registeredConfig (s2rS2dConfig : Int) (declaration : ConfigDeclaration) :
    Except Fault VehiclePropConfig :=
  if declaration.config.prop = apPowerStateReqId then
    (assignAt declaration.config.configArray 0 s2rS2dConfig).map fun configArray =>
      { declaration.config with configArray }
  else .ok declaration.config

/-- The property is one of the four diagnostic ones. -/
def isDiagnosticProperty (propConfig : VehiclePropConfig) : Bool :=
  propConfig.prop = obd2LiveFrameId || propConfig.prop = obd2FreezeFrameId ||
    propConfig.prop = obd2FreezeFrameClearId || propConfig.prop = obd2FreezeFrameInfoId

namespace PropertyState

variable (env : Environment)

/-- One turn of the loop over the areas; the clock is read whether there is a value or not, and
a failure is ignored. -/
def storeAreaInitialValue (config : ConfigDeclaration) (s : PropertyState) (curArea : Int) :
    PropertyState :=
  match config.valueForArea curArea with
  | none => { s with moments := s.moments + 1 }
  | some value =>
      (writeNow env { areaId := curArea, prop := config.config.prop, value } true
        .onValueChange s).2

/-- Stores the initial values of a property, and notes the properties that depend on the power. -/
def storePropInitialValue (config : ConfigDeclaration) (s : PropertyState) : PropertyState :=
  let s := if config.config.prop = hvacPowerOnId then
      { s with
        hvacPowerDependentProps := s.hvacPowerDependentProps ∪ config.config.configArray.toFinset }
    else s
  config.initialAreas.foldl (storeAreaInitialValue env config) s

/-- The token of a freeze frame is its time. -/
def registerDeclared (cfg : VehiclePropConfig) (s : PropertyState) : PropertyState :=
  { s with
    mServerSidePropStore := s.mServerSidePropStore.registerProperty cfg
      (if cfg.prop = obd2FreezeFrameId then some VehiclePropValue.timestamp else none) }

/-- The sensors that `fillDefaultObd2Frame` sets. -/
def defaultObd2Sensors : List SensorCall :=
  [.integer 0 2, .integer 1 0, .integer 2 0, .integer 3 (0x1 ||| 0x10 ||| 0x1000 ||| 0x10000 : Nat),
    .integer 4 35, .integer 5 4, .integer 6 1, .integer 7 500, .integer 8 0, .integer 9 51,
    .integer 10 365, .integer 11 30, .integer 12 12, .integer 13 18, .integer 16 1,
    .integer 21 1, .float 0 (.ofRatio false (153 * 2 ^ 149) 1000),
    .float 2 (.ofRatio true (16 * 2 ^ 149) 100), .float 3 (.ofRatio true (16 * 2 ^ 149) 100),
    .float 4 (.ofRatio true (16 * 2 ^ 149) 100), .float 5 (.ofRatio true (16 * 2 ^ 149) 100),
    .float 7 (.ofRatio false (75 * 2 ^ 149) 10), .float 8 (.ofInt 1250), .float 9 (.ofInt 40),
    .float 10 (.ofRatio false (25 * 2 ^ 149) 10), .float 12 (.ofRatio false (1975 * 2 ^ 149) 100),
    .float 13 (.ofRatio false (265 * 2 ^ 149) 1000),
    .float 42 (.ofRatio false (824 * 2 ^ 149) 1000),
    .float 43 (.ofRatio true (373 * 2 ^ 149) 1000), .float 44 (.ofInt 190), .float 50 (.ofInt 3),
    .float 51 (.ofRatio false (306 * 2 ^ 149) 1000),
    .float 53 (.ofRatio false (188 * 2 ^ 149) 1000),
    .float 54 (.ofRatio false (94 * 2 ^ 149) 1000), .float 56 (.ofRatio false (24 * 2 ^ 149) 1000)]

/-- A sensor store with the default sensors set. -/
def fillDefaultObd2Frame (numVendorIntegerSensors numVendorFloatSensors : UInt64) :
    Obd2SensorStore :=
  (Obd2SensorStore.construct numVendorIntegerSensors numVendorFloatSensors).run defaultObd2Sensors

/-- A frame of the default sensors, with the current time; a failure is ignored. -/
def writeFrame (prop : Int) (propConfig : VehiclePropConfig) (s : PropertyState) (dtc : String) :
    Except Fault PropertyState := do
  let numVendorIntegerSensors ← elementAt propConfig.configArray 0
  let numVendorFloatSensors ← elementAt propConfig.configArray 1
  let sensorStore := fillDefaultObd2Frame (UInt64.ofNat (countOfConfig numVendorIntegerSensors))
    (UInt64.ofNat (countOfConfig numVendorFloatSensors))
  return (writeNow env { prop, value := sensorStore.getSensorProperty dtc } true .onValueChange s).2

/-- Stores the live frame, without a trouble code. -/
def initObd2LiveFrame (propConfig : VehiclePropConfig) (s : PropertyState) :
    Except Fault PropertyState :=
  writeFrame env obd2LiveFrameId propConfig s ""

/-- Stores a freeze frame for each of three trouble codes. -/
def initObd2FreezeFrame (propConfig : VehiclePropConfig) (s : PropertyState) :
    Except Fault PropertyState :=
  ["P0070", "P0102", "P0123"].foldlM (writeFrame env obd2FreezeFrameId propConfig) s

/-- The frames of a property, if it is configured. -/
def initFrames (propId : Int)
    (initFrame : VehiclePropConfig → PropertyState → Except Fault PropertyState)
    (s : PropertyState) : Except Fault PropertyState :=
  match s.mServerSidePropStore.getPropConfig propId with
  | .ok propConfig => initFrame propConfig s
  | .error _ => .ok s

end PropertyState

namespace HardwareState

variable (env : Environment)

/-- One turn of the loop over the declarations. -/
def initProperty (s2rS2dConfig : Int) (s : HardwareState)
    (entry : Int × ConfigDeclaration) : Except Fault HardwareState := do
  let configDeclaration := entry.2
  let cfg ← configDeclaration.registeredConfig s2rS2dConfig
  let properties := s.properties.registerDeclared cfg
  if isDiagnosticProperty cfg then return { s with properties }
  else
    let supported ← configDeclaration.areas.foldlM (SupportedValues.initArea configDeclaration)
      s.supported
    return ⟨properties.storePropInitialValue env configDeclaration, supported⟩

/-- The loop over the declarations. -/
def initProperties (order : Traversal Int) (s2rS2dConfig : Int) (declarations : ConfigDeclarations)
    (s : HardwareState) : Except Fault HardwareState :=
  (order.entries declarations.byPropId).foldlM (initProperty env s2rS2dConfig) s

/-- The constructor, from an empty store. The callback of the store is set last, so that nothing
is notified before. -/
def init (order : Traversal Int) (s2rS2dConfig : Int) (declarations : ConfigDeclarations) :
    Except Fault HardwareState := do
  let s ← initProperties env order s2rS2dConfig declarations ⟨{ mServerSidePropStore := {} }, {}⟩
  let properties ← s.properties.initFrames obd2LiveFrameId (PropertyState.initObd2LiveFrame env)
  let properties ← properties.initFrames obd2FreezeFrameId (PropertyState.initObd2FreezeFrame env)
  return { s with
    properties := { properties with
      mServerSidePropStore := { properties.mServerSidePropStore with
        mOnValuesChangeCallback := true } } }

end HardwareState

namespace SupportedValues

/-- A pair without any bound is an invalid argument. -/
def getMinMaxSupportedValue (t : SupportedValues) (p : PropIdAreaId) :
    Except StatusCode (Option RawPropValues × Option RawPropValues) :=
  match t.mMinSupportedValueByPropIdAreaId.lookup p,
    t.mMaxSupportedValueByPropIdAreaId.lookup p with
  | none, none => .error .invalidArg
  | minValue, maxValue => .ok (minValue, maxValue)

/-- The minimum and the maximum of each pair. -/
def getMinMaxSupportedValues (propIdAreaIds : List PropIdAreaId) (t : SupportedValues) :
    List (Except StatusCode (Option RawPropValues × Option RawPropValues)) :=
  propIdAreaIds.map t.getMinMaxSupportedValue

/-- The list of supported values of each pair. -/
def getSupportedValuesLists (propIdAreaIds : List PropIdAreaId) (t : SupportedValues) :
    List (Except StatusCode (List RawPropValues)) :=
  propIdAreaIds.map fun p =>
    match t.mSupportedValuesByPropIdAreaId.lookup p with
    | none => .error .invalidArg
    | some list => .ok list

end SupportedValues

end VhalCore.FakeHardware
