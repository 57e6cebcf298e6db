import VhalCore.Core.UnorderedMap
import VhalCore.Models.VehicleHal.Native.Requests

/-!
# The cache of property configs

Until something asks for all configs, a config is looked up in the hardware. Then all
configs of the hardware that are supported are put into a map, and perhaps into a file in
shared memory, and lookups use these. A dump may ask for the configs to be read again.
-/

namespace VhalCore.VehicleHal

/-- What the cache depends on. -/
structure ConfigContext where
  /-- `VersionForVehicleProperty`: the version that a system property needs. -/
  versionForVehicleProperty : Int → Option Int
  getVhalInterfaceVersion : Int
  /-- The contents of the file that configs are put into, if they do not stay inline. -/
  parcelableToStableLargeParcelable :
    List VehiclePropConfig → Except Unit (Option (List VehiclePropConfig))

/-- The configs that the hardware has, one for each property. -/
structure HardwareConfigs where
  getAllPropertyConfigs : List VehiclePropConfig
  distinct : (getAllPropertyConfigs.map VehiclePropConfig.prop).Nodup

/-- The configuration that the hardware has for a property. -/
def HardwareConfigs.getPropertyConfig (hardware : HardwareConfigs) (propId : Int) :
    Option VehiclePropConfig :=
  hardware.getAllPropertyConfigs.find? fun config => config.prop = propId

/-- A parcelable with configs: inline, or in a file whose contents are given. -/
structure VehiclePropConfigs where
  payloads : List VehiclePropConfig
  sharedMemoryFd : Option (List VehiclePropConfig) := none

/-- The configs that a client reads from the parcelable. -/
def VehiclePropConfigs.contents (configs : VehiclePropConfigs) : List VehiclePropConfig :=
  configs.sharedMemoryFd.getD configs.payloads

/-- The fields of the cache. -/
structure ConfigCache where
  mConfigInit : Bool := false
  mConfigsByPropId : UnorderedMap Int VehiclePropConfig := ∅
  mConfigFile : Option (List VehiclePropConfig) := none

section Operations

variable (ctx : ConfigContext) (hardware : HardwareConfigs)

/-- The interface version is not below the one that the property needs. Other properties than those
of the system need none. -/
def isConfigSupportedForCurrentVhalVersion (config : VehiclePropConfig) : Bool :=
  if isSystemProp config.prop = false then true
  else
    match ctx.versionForVehicleProperty config.prop with
    | none => false
    | some requiredVersion => !decide (ctx.getVhalInterfaceVersion < requiredVersion)

/-- The configs of the hardware that are supported. -/
def filteredConfigs : List VehiclePropConfig :=
  hardware.getAllPropertyConfigs.filter (isConfigSupportedForCurrentVhalVersion ctx)

/-- The loop that stores configs in the map. -/
def storeConfigs (configs : List VehiclePropConfig)
    (configsByPropId : UnorderedMap Int VehiclePropConfig) :
    UnorderedMap Int VehiclePropConfig :=
  configs.foldl (fun m config => m.insert config.prop config) configsByPropId

/-- Reads the configs of the hardware into the cache, and says whether this was successful. -/
def getAllPropConfigsFromHardwareLocked (cache : ConfigCache) : Bool × ConfigCache :=
  let configsByPropId := storeConfigs (filteredConfigs ctx hardware) cache.mConfigsByPropId
  match ctx.parcelableToStableLargeParcelable (filteredConfigs ctx hardware) with
  | .error _ => (false, ⟨cache.mConfigInit, configsByPropId, none⟩)
  | .ok none => (true, ⟨true, configsByPropId, cache.mConfigFile⟩)
  | .ok (some file) => (true, ⟨true, configsByPropId, some file⟩)

/-- The initialisation of the cache when it is first needed. The process is aborted with
`Failed to get property configs from hardware` if it fails. -/
def initConfigs (cache : ConfigCache) : Option ConfigCache :=
  if cache.mConfigInit then some cache
  else
    match getAllPropConfigsFromHardwareLocked ctx hardware cache with
    | (true, cache) => some cache
    | (false, _) => none

/-- The configs that are sent to a client that asks for all of them. -/
def allConfigs (order : Traversal Int) (cache : ConfigCache) : VehiclePropConfigs :=
  match cache.mConfigFile with
  | some file => ⟨[], some file⟩
  | none => ⟨(order.entries cache.mConfigsByPropId).map Prod.snd, none⟩

/-- All configurations, which are fetched at the first call. -/
def getAllPropConfigs (order : Traversal Int) (cache : ConfigCache) :
    Option (VehiclePropConfigs × ConfigCache) :=
  (initConfigs ctx hardware cache).map fun cache => (allConfigs order cache, cache)

/-- The configuration of a property, from the hardware until all have been fetched. -/
def getConfig (cache : ConfigCache) : ConfigSource := fun propId =>
  if cache.mConfigInit = false then
    match hardware.getPropertyConfig propId with
    | none => .error (.noConfig propId)
    | some config =>
        if isConfigSupportedForCurrentVhalVersion ctx config = false then
          .error (.notSupported propId)
        else .ok config
  else
    match cache.mConfigsByPropId.lookup propId with
    | none => .error (.noConfig propId)
    | some config => .ok config

/-- The loops of `getPropConfigs`, which stop at the first property without a config. -/
def collectConfigs (find : Int → Option VehiclePropConfig) :
    List Int → Except ConfigError (List VehiclePropConfig)
  | [] => .ok []
  | prop :: props =>
      match find prop with
      | none => .error (.noConfig prop)
      | some config => (collectConfigs find props).map fun configs => config :: configs

/-- The configs of some properties. An error is returned with `INVALID_ARG`. -/
def getPropConfigs (cache : ConfigCache) (props : List Int) :
    Except ConfigError VehiclePropConfigs :=
  let find : Int → Option VehiclePropConfig :=
    if cache.mConfigInit = false then
      fun prop => (hardware.getPropertyConfig prop).filter
        (isConfigSupportedForCurrentVhalVersion ctx)
    else fun prop => cache.mConfigsByPropId.lookup prop
  (collectConfigs find props).map fun configs => ⟨configs, none⟩

end Operations

/-- The service as far as configs are concerned, with the hardware as it is now. -/
structure ConfigState where
  hardware : HardwareConfigs
  cache : ConfigCache := {}

/-- The configs of the hardware change, or an operation uses the cache: a dump asks for the
configs to be read again, or for the state of the service, or for neither. -/
inductive ConfigEvent where
  | hardwareChanges (hardware : HardwareConfigs)
  | getAllPropConfigs
  | subscribe
  | dump (refreshPropertyConfigs callerShouldDumpState : Bool)

/-- One operation; no state if the process is aborted. -/
def configStep (ctx : ConfigContext) (s : ConfigState) : ConfigEvent → Option ConfigState
  | .hardwareChanges hardware => some { s with hardware := hardware }
  | .getAllPropConfigs | .subscribe =>
      (initConfigs ctx s.hardware s.cache).map fun cache => { s with cache := cache }
  | .dump refreshPropertyConfigs callerShouldDumpState =>
      let cache := if refreshPropertyConfigs then
        (getAllPropConfigsFromHardwareLocked ctx s.hardware s.cache).2 else s.cache
      if callerShouldDumpState then
        (initConfigs ctx s.hardware cache).map fun cache => { s with cache := cache }
      else some { s with cache := cache }

end VhalCore.VehicleHal
