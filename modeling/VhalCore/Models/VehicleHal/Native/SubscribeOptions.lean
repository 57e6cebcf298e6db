import VhalCore.Models.Subscription.Native.Operations
import VhalCore.Models.VehicleHal.Native.Requests

/-!
# The options of a subscription

The service checks all options of a subscription and then expands them: the areas are written
out, the rate of a continuous property is moved into its range, and an option that asks for a
variable update rate is split by the areas that support it. The manager gets the options of the
on-change properties and those of the continuous ones, and checks them once more.
-/

namespace VhalCore.VehicleHal

open Subscription (MathLibrary)

/-- The errors of `checkSubscribeOptions`. -/
inductive SubscribeOptionError where
  /-- `no config for property, ID: {}` -/
  | noConfig (propId : Int)
  /-- `invalid area ID: {} for prop ID: {}, not listed in config` -/
  | invalidArea (areaId propId : Int)
  /-- `only support subscribing to ON_CHANGE or CONTINUOUS property` -/
  | changeMode
  /-- `Property {} has no read access` -/
  | noReadAccess (propId : Int)
  /-- `invalid sample rate: {} HZ` -/
  | sampleRate (sampleRateHz : Binary32)
  /-- `invalid resolution: {}` -/
  | resolution (resolution : Binary32)
  deriving DecidableEq

/-- The rate, moved into the bounds of the configuration. -/
def getDefaultSampleRateHz (sampleRateHz minSampleRateHz maxSampleRateHz : Binary32) : Binary32 :=
  if sampleRateHz.lt minSampleRateHz then minSampleRateHz
  else if maxSampleRateHz.lt sampleRateHz then maxSampleRateHz
  else sampleRateHz

/-- There are areas, and all of them allow what is required. -/
def areaConfigsHaveRequiredAccess (areaConfigs : List VehicleAreaConfig)
    (requiredAccess : VehiclePropertyAccess) : Bool :=
  !areaConfigs.isEmpty && areaConfigs.all fun c => hasRequiredAccess c.access requiredAccess

/-- The interval itself is not looked at, so a rate whose conversion is undefined passes. -/
def checkSampleRateHz (sampleRateHz : Binary32) : Bool :=
  match Subscription.getIntervalNanos sampleRateHz with
  | some (.error _) => false
  | _ => true

/-- The configs of the listed areas. Area zero of a property without area configs has none. -/
def listedAreaConfigs (propId : Int) (areaConfigs : List VehicleAreaConfig) :
    List Int → Except SubscribeOptionError (List VehicleAreaConfig)
  | [] => .ok []
  | areaId :: areaIds =>
      match areaConfigs.find? fun c => c.areaId = areaId with
      | some areaConfig => (listedAreaConfigs propId areaConfigs areaIds).map (areaConfig :: ·)
      | none =>
          if areaId ≠ 0 ∨ areaConfigs ≠ [] then .error (.invalidArea areaId propId)
          else listedAreaConfigs propId areaConfigs areaIds

section Options

variable (lib : MathLibrary)

/-- The checks for a continuous property. -/
def checkContinuousRate (option : SubscribeOptions) (config : VehiclePropConfig) :
    Except SubscribeOptionError Unit :=
  let sampleRateHz :=
    getDefaultSampleRateHz option.sampleRate config.minSampleRate config.maxSampleRate
  if checkSampleRateHz sampleRateHz = false then .error (.sampleRate sampleRateHz)
  else if Subscription.checkResolution lib option.resolution = false then
    .error (.resolution option.resolution)
  else .ok ()

/-- The configs of the areas of an option. All areas are meant if none is listed. -/
def checkedAreaConfigs (option : SubscribeOptions) (config : VehiclePropConfig) :
    Except SubscribeOptionError (List VehicleAreaConfig) :=
  if option.areaIds = [] then .ok config.areaConfigs
  else listedAreaConfigs option.propId config.areaConfigs option.areaIds

/-- Checks an option against the configuration of its property. -/
def checkSubscribeOption (configsByPropId : UnorderedMap Int VehiclePropConfig)
    (option : SubscribeOptions) : Except SubscribeOptionError Unit :=
  match configsByPropId.lookup option.propId with
  | none => .error (.noConfig option.propId)
  | some config => do
      let areaConfigs ← checkedAreaConfigs option config
      if config.changeMode ≠ .onChange ∧ config.changeMode ≠ .continuous then
        .error .changeMode
      else if hasRequiredAccess config.access .read = false ∧
          areaConfigsHaveRequiredAccess areaConfigs .read = false then
        .error (.noReadAccess option.propId)
      else if config.changeMode = .continuous then checkContinuousRate lib option config
      else .ok ()

/-- The first option that is refused ends the check. -/
def checkSubscribeOptions (configsByPropId : UnorderedMap Int VehiclePropConfig) :
    List SubscribeOptions → Except SubscribeOptionError Unit
  | [] => .ok ()
  | option :: options => do
      checkSubscribeOption lib configsByPropId option
      checkSubscribeOptions configsByPropId options

end Options

/-- The options for the on-change properties and those for the continuous ones. -/
structure ParsedOptions where
  onChangeSubscriptions : List SubscribeOptions := []
  continuousSubscriptions : List SubscribeOptions := []

/-- The areas of an option. All areas are meant if none is listed. -/
def expandedAreaIds (option : SubscribeOptions) (config : VehiclePropConfig) : List Int :=
  if isGlobalProp option.propId then [0]
  else if option.areaIds = [] then config.areaConfigs.map VehicleAreaConfig.areaId
  else option.areaIds

/-- The variable update rate is supported in an area. -/
def isVurSupported (propId areaId : Int) (config : VehiclePropConfig) : Bool :=
  match getAreaConfig propId areaId config with
  | none => false
  | some areaConfig => areaConfig.supportVariableUpdateRate

/-- The areas of an option that asks for a variable update rate are split. -/
def splitByVur (optionCopy : SubscribeOptions) (config : VehiclePropConfig) :
    List SubscribeOptions :=
  let areasVurEnabled := optionCopy.areaIds.filter fun areaId =>
    isVurSupported optionCopy.propId areaId config
  let areasVurDisabled := optionCopy.areaIds.filter fun areaId =>
    !isVurSupported optionCopy.propId areaId config
  (if areasVurEnabled = [] then []
    else [{ optionCopy with areaIds := areasVurEnabled, enableVariableUpdateRate := true }]) ++
  if areasVurDisabled = [] then []
  else [{ optionCopy with areaIds := areasVurDisabled, enableVariableUpdateRate := false }]

/-- Expands an option and adds it to those of its change mode. -/
def parseSubscribeOption (option : SubscribeOptions) (config : VehiclePropConfig)
    (parsed : ParsedOptions) : ParsedOptions :=
  let optionCopy := { option with areaIds := expandedAreaIds option config }
  if config.changeMode = .continuous then
    let optionCopy := { optionCopy with
      sampleRate :=
        getDefaultSampleRateHz optionCopy.sampleRate config.minSampleRate config.maxSampleRate }
    { parsed with
      continuousSubscriptions := parsed.continuousSubscriptions ++
        if !optionCopy.enableVariableUpdateRate then [optionCopy]
        else splitByVur optionCopy config }
  else { parsed with onChangeSubscriptions := parsed.onChangeSubscriptions ++ [optionCopy] }

/-- A property without a config throws. -/
def parseSubscribeOptions (configsByPropId : UnorderedMap Int VehiclePropConfig) :
    List SubscribeOptions → ParsedOptions → Option ParsedOptions
  | [], parsed => some parsed
  | option :: options, parsed =>
      match configsByPropId.lookup option.propId with
      | none => none
      | some config =>
          parseSubscribeOptions configsByPropId options (parseSubscribeOption option config parsed)

end VhalCore.VehicleHal
