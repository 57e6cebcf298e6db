import VhalCore.Core.Execution
import VhalCore.Core.UnorderedMap
import VhalCore.Models.Vehicle.Types

/-!
# State of the subscription manager

The maps of the manager are kept as the source keeps them, the presence of a key
included: an entry with an empty inner map is not the same as no entry. The
hardware is known only by the calls made to it. The `n`-th call of a run gets the
`n`-th status of an arbitrary sequence, so every pattern of failures is covered.
-/

namespace VhalCore.Subscription

/-- Address of the binder object that identifies a client. -/
abbrev ClientIdType := Nat

/-- A callback object: its own address and the binder it returns. -/
structure CallbackType where
  object : Nat
  asBinder : ClientIdType
  deriving DecidableEq, Repr

/-- The mathematical functions of the C library, with their documented special values. -/
structure MathLibrary where
  /-- Base-ten logarithm. -/
  log10 : Binary32 → Binary32
  log10_nan : log10 .nan = .nan
  log10_infinity : log10 .infinity = .infinity

instance : Inhabited MathLibrary := ⟨⟨id, rfl, rfl⟩⟩

/-- Subscription config of one client. -/
structure SubConfig where
  sampleRateHz : Binary32
  resolution : Binary32
  enableVur : Bool
  deriving DecidableEq

/-- All subscription configs of one continuous pair, with their combination. -/
structure ContSubConfigs where
  mMaxSampleRateHz : Binary32 := .zero
  mMinRequiredResolution : Binary32 := .maxFinite
  mEnableVur : Bool := false
  mConfigByClient : UnorderedMap ClientIdType SubConfig := ∅
  deriving DecidableEq

/-- The running combination of sample rate, resolution and variable update rate. -/
structure CombinedConfig where
  maxSampleRateHz : Binary32
  minRequiredResolution : Binary32
  enableVur : Bool
  deriving DecidableEq

/-- One iteration of the combining loop. -/
def CombinedConfig.add (acc : CombinedConfig) (subConfig : SubConfig) : CombinedConfig where
  maxSampleRateHz := acc.maxSampleRateHz.keepMax subConfig.sampleRateHz
  minRequiredResolution := acc.minRequiredResolution.keepMin subConfig.resolution
  enableVur := if !subConfig.enableVur then false else acc.enableVur

/-- The iterations of the combining loop commute, so the bucket order is irrelevant. -/
theorem CombinedConfig.add_right_comm (acc : CombinedConfig) (x y : SubConfig) :
    (acc.add x).add y = (acc.add y).add x := by
  simp only [CombinedConfig.add, CombinedConfig.mk.injEq]
  refine ⟨Binary32.keepMax_right_comm .., Binary32.keepMin_right_comm .., ?_⟩
  cases x.enableVur <;> cases y.enableVur <;> rfl

/-- The combination of the configs of all clients. -/
def combine (configByClient : UnorderedMap ClientIdType SubConfig) : CombinedConfig :=
  configByClient.foldl (fun acc _ subConfig => acc.add subConfig)
    (fun acc _ x _ y => acc.add_right_comm x y) ⟨.zero, .maxFinite, true⟩

namespace ContSubConfigs

/-- Combines the configurations of all clients again. -/
def refreshCombinedConfig (s : ContSubConfigs) : ContSubConfigs where
  mMaxSampleRateHz := (combine s.mConfigByClient).maxSampleRateHz
  mMinRequiredResolution := (combine s.mConfigByClient).minRequiredResolution
  mEnableVur := (combine s.mConfigByClient).enableVur
  mConfigByClient := s.mConfigByClient

/-- Adds a client with its configuration, or replaces it. -/
def addClient (s : ContSubConfigs) (clientId : ClientIdType) (subConfig : SubConfig) :
    ContSubConfigs :=
  refreshCombinedConfig { s with mConfigByClient := s.mConfigByClient.insert clientId subConfig }

/-- Removes a client. -/
def removeClient (s : ContSubConfigs) (clientId : ClientIdType) : ContSubConfigs :=
  refreshCombinedConfig { s with mConfigByClient := s.mConfigByClient.erase clientId }

/-- The largest rate of all clients. -/
def getMaxSampleRateHz (s : ContSubConfigs) : Binary32 := s.mMaxSampleRateHz

/-- The finest resolution of all clients. -/
def getMinRequiredResolution (s : ContSubConfigs) : Binary32 := s.mMinRequiredResolution

/-- All clients ask for a variable update rate. -/
def isVurEnabled (s : ContSubConfigs) : Bool := s.mEnableVur

/-- The client asks for a variable update rate. -/
def isVurEnabledForClient (s : ContSubConfigs) (clientId : ClientIdType) : Bool :=
  match s.mConfigByClient.lookup clientId with
  | none => false
  | some subConfig => subConfig.enableVur

/-- The resolution of the client, zero where it has none. -/
def getResolutionForClient (s : ContSubConfigs) (clientId : ClientIdType) : Binary32 :=
  match s.mConfigByClient.lookup clientId with
  | none => .zero
  | some subConfig => subConfig.resolution

end ContSubConfigs

/-- A call to the vehicle hardware. -/
inductive HardwareCall where
  | subscribe (options : SubscribeOptions)
  | unsubscribe (propId areaId : Int)
  | updateSampleRate (propId areaId : Int) (sampleRate : Binary32)
  | subscribeSupportedValueChange (propIdAreaIds : List PropIdAreaId)
  | unsubscribeSupportedValueChange (propIdAreaIds : List PropIdAreaId)
  deriving DecidableEq

/-- The call is about changes of the supported values. -/
def HardwareCall.isSupportedValueChange : HardwareCall → Bool
  | .subscribeSupportedValueChange _ => true
  | .unsubscribeSupportedValueChange _ => true
  | _ => false

/-- The error texts of the manager, as their format and its arguments. -/
inductive ErrorMessage where
  /-- `invalid sample rate, must be a positive number` -/
  | sampleRateNotPositive
  /-- `invalid sample rate: {}, too small` -/
  | sampleRateTooSmall (sampleRateHz : Binary32)
  /-- `SubscribeOptions.resolution {} is not an integer power of 10` -/
  | resolutionNotPowerOfTen (resolution : Binary32)
  /-- `area IDs to subscribe must not be empty` -/
  | emptyAreaIds
  /-- `failed subscribe for propIdAreaId: {}` -/
  | failedSubscribe (propIdAreaId : PropIdAreaId)
  /-- `failed subscribe for prop: {}, areaId: {}, sample rate: {} HZ` -/
  | failedSubscribeAtRate (propId areaId : Int) (sampleRateHz : Binary32)
  /-- `failed unsubscribe for prop: {}, areaId: {}` -/
  | failedUnsubscribe (propId areaId : Int)
  /-- `failed to update sample rate for prop: {}, areaId: {}, sample rate: {} HZ` -/
  | failedUpdateSampleRate (propId areaId : Int) (sampleRateHz : Binary32)
  /-- `failed to call subscribeSupportedValueChange for propIdAreaIds: {}` -/
  | failedSubscribeSupportedValueChange (propIdAreaIds : List PropIdAreaId)
  /-- `failed to call unsubscribeSupportedValueChange for propIdAreaIds: {}` -/
  | failedUnsubscribeSupportedValueChange (propIdAreaIds : List PropIdAreaId)
  deriving DecidableEq

/-- An error status with its text. -/
structure StatusError where
  code : StatusCode
  message : ErrorMessage
  deriving DecidableEq

/-- The result of an operation that returns no value. -/
abbrev VhalResult := Except StatusError Unit

/-- The maps of the manager and the hardware calls made so far, latest first. -/
structure SubscriptionManager where
  mClientsByPropIdAreaId : UnorderedMap PropIdAreaId (UnorderedMap ClientIdType CallbackType) := ∅
  mSubscribedPropsByClient : UnorderedMap ClientIdType (Finset PropIdAreaId) := ∅
  mContSubConfigsByPropIdArea : UnorderedMap PropIdAreaId ContSubConfigs := ∅
  /-- For each callback a set of values in which the pair alone decides equality. -/
  mContSubValuesByCallback :
    UnorderedMap CallbackType (UnorderedMap PropIdAreaId VehiclePropValue) := ∅
  mSupportedValueChangeClientsByPropIdAreaId :
    UnorderedMap PropIdAreaId (UnorderedMap ClientIdType CallbackType) := ∅
  mSupportedValueChangePropIdAreaIdsByClient :
    UnorderedMap ClientIdType (Finset PropIdAreaId) := ∅
  mVehicleHardware : List (HardwareCall × StatusCode) := []

end VhalCore.Subscription
