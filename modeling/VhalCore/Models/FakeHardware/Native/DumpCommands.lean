import VhalCore.Core.Numerals
import VhalCore.Models.FakeHardware.Native.GetValue
import VhalCore.Models.FakeHardware.Native.HexString
import VhalCore.Models.FakeHardware.Native.Initialization

/-!
# The debug commands of the fake vehicle hardware

A debug command is a list of texts, of which the first is its name. Some commands take a property
value as options: each option has a name and the texts up to the next name. Other commands take a
property, an area of it and the values that the area supports.

The commands set a property, save and restore its value, report an event of the vehicle bus or
change the values that an area supports. A restored value is no longer saved. The commands for fake
data report an input of a key or of pointers, which is not stored, or change the generators.
-/

namespace VhalCore.FakeHardware

open PropertyStore VehiclePropertyStore

/-- What the texts of a command are read with: the names of the properties and of the areas of a
property, and the floats of the C library. -/
structure OptionReaders where
  stringToPropId : String → Option Int
  stringToArea : String → Int → Option Int
  parseFloat : String → Option Binary32

/-- The errors of a number. -/
inductive NumberError where
  /-- `non-integer argument at index {}: {}` -/
  | nonInteger (index : Nat) (s : String)
  /-- `non-float argument at index {}: {}` -/
  | nonFloat (index : Nat) (s : String)
  deriving DecidableEq, Repr

/-- The errors of an area. -/
inductive AreaError where
  | number (error : NumberError)
  /-- The property has no area of the name. -/
  | unknown (areaName : String)
  deriving DecidableEq, Repr

/-- The errors of `parsePropOptions`. -/
inductive OptionError where
  /-- `Property ID/Name: "{}" is not valid: {}` -/
  | propId (propIdStr : String) (error : NumberError)
  /-- `Duplicate "{}" options` -/
  | duplicate (argType : String)
  /-- `No values specified when using "{}"` -/
  | noValues (option : String)
  /-- `Expect exact one value when using "{}"` -/
  | notOneValue (option : String)
  /-- `Value: "{}" is not a valid int: {}`, or int64, or float -/
  | value (option : String) (s : String) (error : NumberError)
  /-- `value: "{}" is not a valid hex string: {}` -/
  | hexString (s : String) (error : HexError)
  /-- `Timestamp: "{}" is not a valid int64: {}` -/
  | timestamp (s : String) (error : NumberError)
  /-- `Unknown option: {}` -/
  | unknown (argType : String)
  /-- `Area ID: "{}" is not a valid int or one or more area names: {}` -/
  | areaId (areaIdStr : String) (error : AreaError)
  deriving DecidableEq, Repr

/-- The errors of the commands for supported values. -/
inductive SupportedValueError where
  /-- `Not enough arguments` -/
  | notEnoughArguments
  /-- `propId not valid: {}` -/
  | propId (propIdStr : String)
  /-- `property not supported` -/
  | notSupported
  /-- `areaId not valid: {}` -/
  | areaId (areaIdStr : String)
  /-- `only int32/int64/float type property is supported` -/
  | propertyType
  /-- `Value: "{}" is not a valid int: {}`, or float -/
  | value (s : String) (error : NumberError)
  /-- `MinValue: {} must not > MaxValue: {}` -/
  | minAboveMax (minValue maxValue : RawPropValues)
  deriving DecidableEq

/-- The errors of the commands for inputs. -/
inductive InputError where
  /-- `No subcommand specified for genfakedata` -/
  | noSubcommand
  /-- `incorrect argument count, need 4 arguments for --genfakedata --keypress` -/
  | keyPressCount
  /-- `incorrect argument count, need 7 arguments for --genfakedata --keyinputv2` -/
  | keyInputV2Count
  /-- `incorrect argument count, need at least 14 arguments for --genfakedata --motioninput
  including at least 1 --pointer` -/
  | motionInputCount
  /-- `incorrect argument count, need 6 arguments for every --pointer` -/
  | pointerCount
  /-- `--pointer is needed for the motion input` -/
  | pointerNeeded
  /-- `failed to parse {} as {}: "{}"` -/
  | parse (fieldName type value : String)
  deriving DecidableEq, Repr

section Texts

/-- Compares two texts without regard to case. -/
def equalsIgnoreCase (a b : String) : Bool := a.toList.map Char.toLower = b.toList.map Char.toLower

/-- `strtoll` reads a text up to the first NUL; it has to read all of that. -/
def parseInt (min max : Int) (s : String) : Option Int :=
  let (negative, text) := takeSign ((s.toList.takeWhile fun c => c.toNat ≠ 0).dropWhile isSpace)
  let (digits, rest) := scanDigits 10 text
  let n : Int := if negative then -(valueOfDigits 10 digits) else valueOfDigits 10 digits
  if digits = [] ∨ rest ≠ [] ∨ n < min ∨ max < n then none else some n

/-- Reads a bounded integer of the command line. -/
def safelyParseInt (min max : Int) (index : Nat) (s : String) : Except NumberError Int :=
  match parseInt min max s with
  | none => .error (.nonInteger index s)
  | some n => .ok n

/-- Reads an `int32_t` of the command line. -/
def safelyParseInt32 : Nat → String → Except NumberError Int :=
  safelyParseInt (-2 ^ 31) (2 ^ 31 - 1)

/-- Reads an `int64_t` of the command line. -/
def safelyParseInt64 : Nat → String → Except NumberError Int :=
  safelyParseInt (-2 ^ 63) (2 ^ 63 - 1)

/-- The class `\w` of the pattern for area names. -/
def isWordCharacter (c : Char) : Bool := c.isAlphanum || c = '_'

/-- What a text ends with that the pattern of area names may begin with. -/
inductive AreaPattern where
  | nothing
  | name
  | blank
  | bar
  | barBlank
  deriving DecidableEq

/-- One character more of a text that the pattern for area names may match. -/
def AreaPattern.step : AreaPattern → Char → Option AreaPattern
  | .nothing, c => if isWordCharacter c then some .name else none
  | .name, c =>
      if isWordCharacter c then some .name
      else if c = '|' then some .bar
      else if c = ' ' then some .blank
      else none
  | .blank, c => if c = '|' then some .bar else none
  | .bar, c =>
      if isWordCharacter c then some .name
      else if c = ' ' then some .barBlank
      else none
  | .barBlank, c => if isWordCharacter c then some .name else none

/-- Names with bars between them, and at most one blank on each side of a bar. -/
def matchesAreaPattern (s : String) : Bool :=
  s.toList.foldlM AreaPattern.step .nothing = some .name

/-- The longest runs of word characters. -/
def areaNames (s : String) : List String :=
  ((s.toList.splitOnP fun c => !isWordCharacter c).filter (· ≠ [])).map String.ofList

end Texts

namespace OptionReaders

variable (readers : OptionReaders)

/-- Reads a float of the command line. -/
def safelyParseFloat (index : Nat) (s : String) : Except NumberError Binary32 :=
  match readers.parseFloat s with
  | none => .error (.nonFloat index s)
  | some value => .ok value

/-- A name is looked for first. -/
def parsePropId (index : Nat) (propIdStr : String) : Except NumberError Int :=
  match readers.stringToPropId propIdStr with
  | some propId => .ok propId
  | none => safelyParseInt32 index propIdStr

/-- A number is looked for first. -/
def parseAreaId (index : Nat) (areaIdStr : String) (propId : Int) : Except AreaError Int :=
  match safelyParseInt32 index areaIdStr with
  | .ok areaId => .ok areaId
  | .error e =>
      if matchesAreaPattern areaIdStr then
        (areaNames areaIdStr).foldlM (fun areaId areaName =>
          match readers.stringToArea areaName propId with
          | none => .error (.unknown areaName)
          | some area => .ok (BitVec.ofInt 32 areaId ||| BitVec.ofInt 32 area).toInt) 0
      else .error (.number e)

end OptionReaders

section PropOptions

variable (readers : OptionReaders)

/-- The options that start a group of values. -/
def setPropOptions : List String := ["-i", "-i64", "-f", "-s", "-b", "-a", "-t"]

/-- The texts from an index on, up to the next name of an option. -/
def getOptionValues (options : List String) (index : Nat) : List String :=
  (options.drop index).takeWhile (· ∉ setPropOptions)

/-- What has been read of the options. -/
structure ParsedOptions where
  prop : VehiclePropValue
  parsedOptions : List String := []
  areaIdIndex : Option Nat := none

/-- The values of an option that takes one or more of them. -/
def parseValues {α : Type} (option : String) (parse : Nat → String → Except NumberError α)
    (currentIndex : Nat) (argValues : List String) : Except OptionError (List α) :=
  if argValues = [] then .error (.noValues option)
  else (argValues.zipIdx currentIndex).mapM fun (s, index) =>
    (parse index s).mapError (.value option s)

/-- The value of an option that takes one. -/
def parseSingle {α : Type} (option : String) (parse : String → Except OptionError α)
    (argValues : List String) : Except OptionError α :=
  match argValues with
  | [s] => parse s
  | _ => .error (.notOneValue option)

/-- The branches for the names of the options. -/
def parseOption (argType : String) (currentIndex : Nat) (argValues : List String)
    (parsed : ParsedOptions) : Except OptionError ParsedOptions :=
  let prop := parsed.prop
  if equalsIgnoreCase argType "-i" then
    (parseValues "-i" safelyParseInt32 currentIndex argValues).map fun int32Values =>
      { parsed with prop := { prop with value := { prop.value with int32Values } } }
  else if equalsIgnoreCase argType "-i64" then
    (parseValues "-i64" safelyParseInt64 currentIndex argValues).map fun int64Values =>
      { parsed with prop := { prop with value := { prop.value with int64Values } } }
  else if equalsIgnoreCase argType "-f" then
    (parseValues "-f" readers.safelyParseFloat currentIndex argValues).map fun floatValues =>
      { parsed with prop := { prop with value := { prop.value with floatValues } } }
  else if equalsIgnoreCase argType "-s" then
    (parseSingle "-s" .ok argValues).map fun stringValue =>
      { parsed with prop := { prop with value := { prop.value with stringValue } } }
  else if equalsIgnoreCase argType "-b" then
    (parseSingle "-b" (fun s => (parseHexString (s.toList.flatMap String.utf8EncodeChar)).mapError
      (.hexString s)) argValues).map fun byteValues =>
      { parsed with prop := { prop with value := { prop.value with byteValues } } }
  else if equalsIgnoreCase argType "-a" then
    (parseSingle "-a" .ok argValues).map fun _ => { parsed with areaIdIndex := some currentIndex }
  else if equalsIgnoreCase argType "-t" then
    (parseSingle "-t" (fun s => (safelyParseInt64 currentIndex s).mapError (.timestamp s))
      argValues).map fun timestamp => { parsed with prop := { prop with timestamp } }
  else .error (.unknown argType)

/-- The loop over the options. The same name, in the same case, must not come twice. -/
def parseOptions (options : List String) (optionIndex : Nat) (parsed : ParsedOptions) :
    Except OptionError ParsedOptions :=
  if h : optionIndex < options.length then
    let argType := options[optionIndex]
    let currentIndex := optionIndex + 1
    let argValues := getOptionValues options currentIndex
    if argType ∈ parsed.parsedOptions then .error (.duplicate argType)
    else do
      let parsed ← parseOption readers argType currentIndex argValues
        { parsed with parsedOptions := argType :: parsed.parsedOptions }
      parseOptions options (currentIndex + argValues.length) parsed
  else .ok parsed
termination_by options.length - optionIndex

/-- The area is read last, since its names depend on the property. -/
def ParsedOptions.place (options : List String) (parsed : ParsedOptions) :
    Except OptionError VehiclePropValue :=
  match parsed.areaIdIndex with
  | none => .ok parsed.prop
  | some areaIdIndex =>
      let areaIdStr := options.getD areaIdIndex ""
      ((readers.parseAreaId areaIdIndex areaIdStr parsed.prop.prop).mapError
        (.areaId areaIdStr)).map fun areaId => { parsed.prop with areaId }

/-- Reads a property and the groups of values after it. -/
def parsePropOptions (options : List String) (hsize : 2 ≤ options.length) :
    Except OptionError VehiclePropValue := do
  let propIdStr := options[1]
  let prop ← (readers.parsePropId 1 propIdStr).mapError (.propId propIdStr)
  let parsed ← parseOptions readers options 2 { prop := { prop } }
  parsed.place readers options

end PropOptions

section SupportedValues

variable (readers : OptionReaders)

/-- A type of values that can be supported: how it is read, when a minimum is above a maximum, and
the value of a property that is made of it. -/
structure SupportedType (α : Type) where
  parse : Nat → String → Except NumberError α
  above : α → α → Bool
  createRawPropValues : α → RawPropValues

/-- Supported values of type `int32_t`. -/
def SupportedType.int32 : SupportedType Int where
  parse := safelyParseInt32
  above minValue maxValue := maxValue < minValue
  createRawPropValues n := { int32Values := [n] }

/-- Supported values of type `int64_t`. -/
def SupportedType.int64 : SupportedType Int where
  parse := safelyParseInt64
  above minValue maxValue := maxValue < minValue
  createRawPropValues n := { int64Values := [n] }

/-- Supported values of type `float`. -/
def SupportedType.float : SupportedType Binary32 where
  parse := readers.safelyParseFloat
  above minValue maxValue := maxValue.lt minValue
  createRawPropValues value := { floatValues := [value] }

/-- The pair of a command, and the index of the texts after it. -/
def parseDumpOptionPropIdAreaId (store : VehiclePropertyStore) (options : List String) :
    Except SupportedValueError (PropIdAreaId × Nat) :=
  let propIdStr := options.getD 1 ""
  match readers.parsePropId 1 propIdStr with
  | .error _ => .error (.propId propIdStr)
  | .ok propId =>
      match store.getPropConfig propId with
      | .error _ => .error .notSupported
      | .ok _ =>
          if equalsIgnoreCase (options.getD 2 "") "-a" then
            if 3 < options.length then
              let areaIdStr := options.getD 3 ""
              match readers.parseAreaId 3 areaIdStr propId with
              | .error _ => .error (.areaId areaIdStr)
              | .ok areaId => .ok (⟨propId, areaId⟩, 4)
            else .error .notEnoughArguments
          else .ok (⟨propId, 0⟩, 2)

variable {α : Type} (type : SupportedType α)

/-- Reads a number of values of the command line, from an index on. -/
def parseOptionValues (options : List String) (index count : Nat) :
    Except SupportedValueError (List α) :=
  if options.length < index + count then .error .notEnoughArguments
  else (((options.drop index).take count).zipIdx index).mapM fun (s, i) =>
    (type.parse i s).mapError (.value s)

/-- The two bounds that are set by `parseAndSetMinMaxValue`. -/
def parseMinMaxValue (options : List String) (index : Nat) :
    Except SupportedValueError (RawPropValues × RawPropValues) := do
  match ← parseOptionValues type options index 2 with
  | [min, max] =>
      let minValue := type.createRawPropValues min
      let maxValue := type.createRawPropValues max
      if type.above min max then .error (.minAboveMax minValue maxValue)
      else .ok (minValue, maxValue)
  | _ => .error .notEnoughArguments

/-- Reads all values of the command line from an index on, of which there must be one. -/
def parseOptionsToSupportedValuesList (options : List String) (index : Nat) :
    Except SupportedValueError (List RawPropValues) := do
  let values ← parseOptionValues type options index (options.length - index)
  if values = [] then .error .notEnoughArguments
  else return values.map type.createRawPropValues

end SupportedValues

/-- A finger, a stylus or the like. -/
structure Pointer where
  pointerId : Int
  toolType : Int
  xData : Binary32
  yData : Binary32
  pressure : Binary32
  size : Binary32
  deriving DecidableEq

/-- An input that a command makes up. -/
inductive FakeInput where
  | keyPress (keyCode display : Int)
  | keyInputV2 (area display keyCode action repeatCount : Int)
  | motionInput (area display inputType action buttonState : Int) (pointers : List Pointer)
  deriving DecidableEq

section Inputs

variable (readers : OptionReaders)

/-- Reads an integer of an input command. -/
def parseInputInt (fieldName s : String) : Except InputError Int :=
  match parseInt (-2 ^ 31) (2 ^ 31 - 1) s with
  | none => .error (.parse fieldName "int" s)
  | some n => .ok n

/-- Reads a float of an input command. -/
def parseInputFloat (fieldName s : String) : Except InputError Binary32 :=
  match readers.parseFloat s with
  | none => .error (.parse fieldName "float" s)
  | some value => .ok value

/-- Reads the two numbers of `--keypress`. -/
def parseKeyPress : List String → Except InputError FakeInput
  | [_, _, keyCode, display] => do
      let keyCode ← parseInputInt "keyCode" keyCode
      let display ← parseInputInt "display" display
      return .keyPress keyCode display
  | _ => .error .keyPressCount

/-- Reads the five numbers of `--keyinputv2`. -/
def parseKeyInputV2 : List String → Except InputError FakeInput
  | [_, _, area, display, keyCode, action, repeatCount] => do
      let area ← parseInputInt "area" area
      let display ← parseInputInt "display" display
      let keyCode ← parseInputInt "keyCode" keyCode
      let action ← parseInputInt "action" action
      let repeatCount ← parseInputInt "repeatCount" repeatCount
      return .keyInputV2 area display keyCode action repeatCount
  | _ => .error .keyInputV2Count

/-- The loop over the pointers, each of which has seven texts. -/
def parsePointers : List String → Except InputError (List Pointer)
  | option :: pointerId :: toolType :: xData :: yData :: pressure :: size :: options =>
      if option ≠ "--pointer" then .error .pointerNeeded
      else do
        let pointerId ← parseInputInt "pointerId" pointerId
        let toolType ← parseInputInt "toolType" toolType
        let xData ← parseInputFloat readers "xData" xData
        let yData ← parseInputFloat readers "yData" yData
        let pressure ← parseInputFloat readers "pressure" pressure
        let size ← parseInputFloat readers "size" size
        let pointers ← parsePointers options
        return { pointerId, toolType, xData, yData, pressure, size } :: pointers
  | _ => .ok []

/-- The texts come in sevens, of which the first are those of the input itself. -/
def parseMotionInput (options : List String) : Except InputError FakeInput :=
  if options.length / 7 < 2 then .error .motionInputCount
  else if options.length % 7 ≠ 0 then .error .pointerCount
  else
    match options with
    | _ :: _ :: area :: display :: inputType :: action :: buttonState :: options => do
        let area ← parseInputInt "area" area
        let display ← parseInputInt "display" display
        let inputType ← parseInputInt "inputType" inputType
        let action ← parseInputInt "action" action
        let buttonState ← parseInputInt "buttonState" buttonState
        let pointers ← parsePointers readers options
        return .motionInput area display inputType action buttonState pointers
    | _ => .error .motionInputCount

/-- The input of a command, unless the command is one for the generators or unknown. -/
def parseInput (options : List String) (command : String) : Option (Except InputError FakeInput) :=
  if command = "--keypress" then some (parseKeyPress options)
  else if command = "--keyinputv2" then some (parseKeyInputV2 options)
  else if command = "--motioninput" then some (parseMotionInput readers options)
  else none

end Inputs

/-- The answers of the commands. -/
inductive DumpReply where
  /-- A text that is made of the state, or the answer of a command for the generators. -/
  | shown
  /-- `Invalid option: {}` -/
  | invalidOption (option : String)
  /-- `Invalid number of arguments: required at least {}, got {}` -/
  | tooFewArguments (minSize size : Nat)
  | optionError (error : OptionError)
  /-- `Set property: {}`, or `failed to set property: {}, error: {}` -/
  | set (prop : VehiclePropValue) (result : Except SetValueError Unit)
  /-- `Get property result: {}`, or `failed to read property value: {}, error: {}, code: {}` -/
  | got (prop : Int) (result : Except GetValueError VehiclePropValue)
  /-- `Property: {}, areaID: {} saved` -/
  | saved (p : PropIdAreaId)
  /-- `Failed to save current property value, error: {}` -/
  | notSaved (error : StoreError)
  /-- `Property: {}, areaID: {} restored` -/
  | restored (p : PropIdAreaId)
  /-- `No saved property for property: {}, areaID: {}` -/
  | nothingSaved (p : PropIdAreaId)
  /-- `Failed to restore property value, error: {}` -/
  | notRestored (error : SetValueError)
  /-- `Event for property: {} injected` -/
  | injected (prop : Int)
  | inputError (error : InputError)
  /-- `keypress event generated successfully`, or another input with its numbers -/
  | generated (input : FakeInput)
  /-- `Min/Max supported value for propId: {}, areaId: {} set` -/
  | minMaxValueSet (p : PropIdAreaId)
  /-- `Failed to set min/max supported value: {}` -/
  | minMaxValueNotSet (error : SupportedValueError)
  /-- `Supported values list for propId: {}, areaId: {} set` -/
  | supportedValuesSet (p : PropIdAreaId)
  /-- `Failed to set supported values list: {}` -/
  | supportedValuesNotSet (error : SupportedValueError)
  /-- The configs of the properties have to be read again. -/
  | refreshPropertyConfigs

/-- The hardware with what the commands change besides: the saved values, and the calls of the
callback for supported values, if there is one. -/
structure DebugState extends HardwareState where
  mSavedProps : UnorderedMap PropIdAreaId VehiclePropValue := ∅
  mOnSupportedValueChangeCallback : Bool := false
  supportedValueChanges : List PropIdAreaId := []
  mAddExtraTestVendorConfigs : Bool := false

/-- The property `HW_KEY_INPUT`. -/
def hwKeyInputId : Int := 0x0A10 + 0x10000000 + 0x01000000 + 0x00410000

/-- The property `HW_KEY_INPUT_V2`. -/
def hwKeyInputV2Id : Int := 0x0A11 + 0x10000000 + 0x05000000 + 0x00e00000

/-- The property `HW_MOTION_INPUT`. -/
def hwMotionInputId : Int := 0x0A12 + 0x10000000 + 0x05000000 + 0x00e00000

namespace PropertyState

variable (env : Environment)

/-- A value that comes from the vehicle bus has its own time. A failure is ignored. -/
def eventFromVehicleBus (value : VehiclePropValue) (s : PropertyState) : PropertyState :=
  (s.writeValue env value false .onValueChange false).2

/-- The time now, after which the clock may go on. -/
def elapsedRealtimeNano (s : PropertyState) : Int × PropertyState :=
  (env.clock s.moments, { s with moments := s.moments + 1 })

/-- A value is given to the callback without being stored. -/
def onValueChangeCallback (value : VehiclePropValue) (s : PropertyState) : PropertyState :=
  { s with emitted := s.emitted ++ [.onValuesChange [value]] }

/-- The event of a pressed or released key. -/
def createHwInputKeyProp (action keyCode targetDisplay : Int) (s : PropertyState) :
    VehiclePropValue × PropertyState :=
  let (timestamp, s) := s.elapsedRealtimeNano env
  ({ timestamp, areaId := 0, prop := hwKeyInputId,
     value := { int32Values := [action, keyCode, targetDisplay] } }, s)

/-- The event of a key in an area, with the time of the press. -/
def createHwKeyInputV2Prop (area targetDisplay keyCode action repeatCount : Int)
    (s : PropertyState) : VehiclePropValue × PropertyState :=
  let (timestamp, s) := s.elapsedRealtimeNano env
  let (eventTime, s) := s.elapsedRealtimeNano env
  ({ timestamp, areaId := area, prop := hwKeyInputV2Id,
     value := { int32Values := [targetDisplay, keyCode, action, repeatCount]
                int64Values := [eventTime] } }, s)

/-- The data of the pointers stand together: all ids, then all types, and so on. -/
def createHwMotionInputProp (area display inputType action buttonState : Int)
    (pointers : List Pointer) (s : PropertyState) : VehiclePropValue × PropertyState :=
  let intValues := [display, inputType, action, buttonState, (pointers.length : Int)] ++
    pointers.map Pointer.pointerId ++ pointers.map Pointer.toolType
  let floatValues := pointers.map Pointer.xData ++ pointers.map Pointer.yData ++
    pointers.map Pointer.pressure ++ pointers.map Pointer.size
  let (timestamp, s) := s.elapsedRealtimeNano env
  let (eventTime, s) := s.elapsedRealtimeNano env
  ({ timestamp, areaId := area, prop := hwMotionInputId,
     value := { int32Values := intValues, floatValues, int64Values := [eventTime] } }, s)

/-- A key that is pressed goes down (0) and up again (1). -/
def generate (input : FakeInput) (s : PropertyState) : PropertyState :=
  match input with
  | .keyPress keyCode display =>
      let (down, s) := s.createHwInputKeyProp env 0 keyCode display
      let s := s.onValueChangeCallback down
      let (up, s) := s.createHwInputKeyProp env 1 keyCode display
      s.onValueChangeCallback up
  | .keyInputV2 area display keyCode action repeatCount =>
      let (value, s) := s.createHwKeyInputV2Prop env area display keyCode action repeatCount
      s.onValueChangeCallback value
  | .motionInput area display inputType action buttonState pointers =>
      let (value, s) :=
        s.createHwMotionInputProp env area display inputType action buttonState pointers
      s.onValueChangeCallback value

/-- A set that is not special is written with the current time. -/
def setByDump (prop : VehiclePropValue) (s : PropertyState) : Outcome := do
  let ((isSpecialValue, setResult), s) ← s.maybeSetSpecialValue env prop
  if isSpecialValue then return (setResult, s)
  else return writeNow env prop false .onValueChange s

/-- The store is read also where a property has not been set yet. -/
def getByDump (context : GetContext) (prop : VehiclePropValue) (s : PropertyState) :
    Except Fault (Except GetValueError VehiclePropValue) := do
  match ← s.maybeGetSpecialValue context prop with
  | some result => return result
  | none => return (s.mServerSidePropStore.readValue prop).mapError .read

end PropertyState

namespace DebugState

variable (readers : OptionReaders) (context : GetContext)

/-- The result of a command that changes the state. -/
abbrev Dumped := Except Fault (DumpReply × DebugState)

/-- A command that needs some options, of which a property value is made. -/
def withPropOptions (minSize : Nat) (hmin : 2 ≤ minSize) (options : List String)
    (command : VehiclePropValue → DebugState → Dumped) (s : DebugState) : Dumped :=
  if h : minSize ≤ options.length then
    match parsePropOptions readers options (hmin.trans h) with
    | .error e => .ok (.optionError e, s)
    | .ok prop => command prop s
  else .ok (.tooFewArguments minSize options.length, s)

/-- Sets a property on behalf of a command. -/
def setProperty (prop : VehiclePropValue) (s : DebugState) : Dumped := do
  let (result, properties) ← s.properties.setByDump context.env prop
  return (.set prop result, { s with properties })

/-- Reads a property on behalf of a command. -/
def getPropertyWithArg (prop : VehiclePropValue) (s : DebugState) : Dumped := do
  let result ← s.properties.getByDump context prop
  return (.got prop.prop result, s)

/-- Keeps the stored value of a property, to restore it later. -/
def saveProperty (value : VehiclePropValue) (s : DebugState) : Dumped :=
  match s.properties.mServerSidePropStore.readValue value with
  | .error e => .ok (.notSaved e, s)
  | .ok readValue => .ok (.saved value.propIdAreaId, { s with
      mSavedProps := s.mSavedProps.insert value.propIdAreaId readValue })

/-- What was saved is erased, whether it can be written or not. -/
def restoreProperty (value : VehiclePropValue) (s : DebugState) : Dumped :=
  match s.mSavedProps.lookup value.propIdAreaId with
  | none => .ok (.nothingSaved value.propIdAreaId, s)
  | some savedValue =>
      let (result, properties) :=
        s.properties.writeNow context.env savedValue false .onValueChange
      let s := { s with properties, mSavedProps := s.mSavedProps.erase value.propIdAreaId }
      match result with
      | .error e => .ok (.notRestored e, s)
      | .ok () => .ok (.restored value.propIdAreaId, s)

/-- Takes a value as an event of the vehicle bus. -/
def injectEvent (prop : VehiclePropValue) (s : DebugState) : Dumped :=
  .ok (.injected prop.prop, { s with
    properties := s.properties.eventFromVehicleBus context.env prop })

/-- The commands for fake data. Those for the generators leave this state as it is: what a
generator yields later is an event of the vehicle bus. -/
def genFakeDataCommand (options : List String) (s : DebugState) : DumpReply × DebugState :=
  match options[1]? with
  | none => (.inputError .noSubcommand, s)
  | some command =>
      match parseInput readers options command with
      | none => (.shown, s)
      | some (.error e) => (.inputError e, s)
      | some (.ok input) =>
          (.generated input, { s with properties := s.properties.generate context.env input })

/-- Tells the callback, where there is one, that the supported values of a pair have changed. -/
def triggerSupportedValueChange (p : PropIdAreaId) (s : DebugState) : DebugState :=
  if s.mOnSupportedValueChangeCallback then
    { s with supportedValueChanges := s.supportedValueChanges ++ [p] }
  else s

/-- The bounds of a type that has them. -/
def parseBoundsOf (propertyType : Option VehiclePropertyType) (options : List String)
    (index : Nat) : Except SupportedValueError (RawPropValues × RawPropValues) :=
  match propertyType with
  | some .int32 => parseMinMaxValue .int32 options index
  | some .int64 => parseMinMaxValue .int64 options index
  | some .float => parseMinMaxValue (.float readers) options index
  | _ => .error .propertyType

/-- The pair of the command and its bounds, unless it is refused. -/
def parseSetMinMaxValue (store : VehiclePropertyStore) (options : List String) :
    Except SupportedValueError (PropIdAreaId × RawPropValues × RawPropValues) :=
  if options.length < 4 then .error .notEnoughArguments
  else do
    let (p, index) ← parseDumpOptionPropIdAreaId readers store options
    let bounds ← parseBoundsOf readers (getPropType p.propId) options index
    return (p, bounds)

/-- The command that sets the minimum and the maximum of a pair. -/
def dumpSetMinMaxValue (options : List String) (s : DebugState) : DumpReply × DebugState :=
  match parseSetMinMaxValue readers s.properties.mServerSidePropStore options with
  | .error e => (.minMaxValueNotSet e, s)
  | .ok (p, minValue, maxValue) =>
      (.minMaxValueSet p, triggerSupportedValueChange p { s with
        supported := (s.supported.setMinSupportedValueLocked p minValue).setMaxSupportedValueLocked
          p maxValue })

/-- The list of a type that has one. -/
def parseListOf (propertyType : Option VehiclePropertyType) (options : List String)
    (index : Nat) : Except SupportedValueError (List RawPropValues) :=
  match propertyType with
  | some .int32 => parseOptionsToSupportedValuesList .int32 options index
  | some .int64 => parseOptionsToSupportedValuesList .int64 options index
  | some .float => parseOptionsToSupportedValuesList (.float readers) options index
  | _ => .error .propertyType

/-- The pair of the command and its list, unless it is refused. -/
def parseSetSupportedValues (store : VehiclePropertyStore) (options : List String) :
    Except SupportedValueError (PropIdAreaId × List RawPropValues) :=
  if options.length < 3 then .error .notEnoughArguments
  else do
    let (p, index) ← parseDumpOptionPropIdAreaId readers store options
    let list ← parseListOf readers (getPropType p.propId) options index
    return (p, list)

/-- The command that sets the list of supported values of a pair. -/
def dumpSetSupportedValues (options : List String) (s : DebugState) : DumpReply × DebugState :=
  match parseSetSupportedValues readers s.properties.mServerSidePropStore options with
  | .error e => (.supportedValuesNotSet e, s)
  | .ok (p, list) =>
      (.supportedValuesSet p, triggerSupportedValueChange p { s with
        supported := s.supported.setSupportedValues p list })

/-- The commands that only show something of the state. -/
def shownOptions : List String := ["--help", "--list", "--get", "--user-hal", "--dumpSub"]

/-- The debug command. Without options all properties are shown. -/
def dump (options : List String) (s : DebugState) : Dumped :=
  match options with
  | [] => .ok (.shown, s)
  | option :: _ =>
      if shownOptions.any (equalsIgnoreCase option) then .ok (.shown, s)
      else if equalsIgnoreCase option "--getWithArg" then
        withPropOptions readers 3 (by decide) options (getPropertyWithArg context) s
      else if equalsIgnoreCase option "--set" then
        withPropOptions readers 3 (by decide) options (setProperty context) s
      else if equalsIgnoreCase option "--save-prop" then
        withPropOptions readers 2 (by decide) options saveProperty s
      else if equalsIgnoreCase option "--restore-prop" then
        withPropOptions readers 2 (by decide) options (restoreProperty context) s
      else if equalsIgnoreCase option "--inject-event" then
        withPropOptions readers 3 (by decide) options (injectEvent context) s
      else if equalsIgnoreCase option "--genfakedata" then
        .ok (genFakeDataCommand readers context options s)
      else if equalsIgnoreCase option "--genTestVendorConfigs" then
        .ok (.refreshPropertyConfigs, { s with mAddExtraTestVendorConfigs := true })
      else if equalsIgnoreCase option "--restoreVendorConfigs" then
        .ok (.refreshPropertyConfigs, { s with mAddExtraTestVendorConfigs := false })
      else if equalsIgnoreCase option "--set-minmaxvalue" then
        .ok (dumpSetMinMaxValue readers options s)
      else if equalsIgnoreCase option "--set-supportedvalues" then
        .ok (dumpSetSupportedValues readers options s)
      else .ok (.invalidOption option, s)

end DebugState

end VhalCore.FakeHardware
