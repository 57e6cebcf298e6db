import VhalCore.Models.Subscription.Native.State

/-!
# Operations of the subscription manager

Each operation follows the source statement by statement, the subscript operators
that insert a default included. Operations that convert a float to an integer have
no result where the conversion is undefined; the others always have one. A loop
over a hash container takes the order in which it visits the elements.
-/

namespace VhalCore.Subscription

/-- The float constant `0.0000001`. -/
def epsilon : Binary32 := .ofRatio false (2 ^ 149) (10 ^ 7)

/-- The constant `ONE_SECOND_IN_NANOS`. -/
def oneSecondInNanos : Binary32 := .ofInt (10 ^ 9)

/-- The largest `int64_t`. -/
def int64Max : Int := 2 ^ 63 - 1

/-- The options for a single area. -/
def newSubscribeOptions (propId areaId : Int) (sampleRateHz resolution : Binary32)
    (enableVur : Bool) : SubscribeOptions where
  propId := propId
  areaIds := [areaId]
  sampleRate := sampleRateHz
  resolution := resolution
  enableVariableUpdateRate := enableVur

/-- The interval of a rate, unless it is too small for one. There is no result where the conversion
is undefined. -/
def getIntervalNanos (sampleRateHz : Binary32) : Option (Except ErrorMessage Int) :=
  if sampleRateHz.le .zero then some (.error .sampleRateNotPositive)
  else if sampleRateHz.le (oneSecondInNanos.div (.ofInt int64Max)) then
    some (.error (.sampleRateTooSmall sampleRateHz))
  else ((oneSecondInNanos.div sampleRateHz).toInt (-2 ^ 63) int64Max).map .ok

/-- A resolution is zero or a power of ten. -/
def checkResolution (lib : MathLibrary) (resolution : Binary32) : Bool :=
  if resolution.eq .zero then true
  else
    let log := lib.log10 resolution
    ((log.sub log.round).abs).lt epsilon

namespace SubscriptionManager

section Hardware

variable (hw : Nat → StatusCode)

/-- One hardware call: the next status of the sequence, recorded with the call. -/
def callHardware (call : HardwareCall) (s : SubscriptionManager) :
    StatusCode × SubscriptionManager :=
  (hw s.mVehicleHardware.length,
    { s with mVehicleHardware := (call, hw s.mVehicleHardware.length) :: s.mVehicleHardware })

/-- One hardware call whose failure is returned with the given text. -/
def tryHardware (call : HardwareCall) (message : ErrorMessage) (s : SubscriptionManager) :
    VhalResult × SubscriptionManager :=
  match callHardware hw call s with
  | (.ok, t) => (.ok (), t)
  | (status, t) => (.error ⟨status, message⟩, t)

/-- The first client of a pair subscribes it at the hardware. -/
def addOnChangeSubscriberLocked (propIdAreaId : PropIdAreaId) (s : SubscriptionManager) :
    VhalResult × SubscriptionManager :=
  if (s.mClientsByPropIdAreaId.lookup propIdAreaId).isSome then (.ok (), s)
  else
    tryHardware hw
      (.subscribe (newSubscribeOptions propIdAreaId.propId propIdAreaId.areaId .zero .zero false))
      (.failedSubscribe propIdAreaId) s

/-- The hardware calls made once some combined value has changed. -/
def callUpdatedConfig (propIdAreaId : PropIdAreaId) (oldConfig newConfig : ContSubConfigs)
    (s : SubscriptionManager) : VhalResult × SubscriptionManager :=
  let propId := propIdAreaId.propId
  let areaId := propIdAreaId.areaId
  let newRateHz := newConfig.getMaxSampleRateHz
  let updated :=
    if !newRateHz.eq oldConfig.getMaxSampleRateHz then
      tryHardware hw (.updateSampleRate propId areaId newRateHz)
        (.failedUpdateSampleRate propId areaId newRateHz) s
    else (.ok (), s)
  match updated with
  | (.error e, t) => (.error e, t)
  | (.ok (), t) =>
      if !newRateHz.eq .zero then
        tryHardware hw
          (.subscribe (newSubscribeOptions propId areaId newRateHz
            newConfig.getMinRequiredResolution newConfig.isVurEnabled))
          (.failedSubscribeAtRate propId areaId newRateHz) t
      else
        tryHardware hw (.unsubscribe propId areaId) (.failedUnsubscribe propId areaId) t

/-- Takes a new configuration of a pair, and tells the hardware where it differs. -/
def updateContSubConfigsLocked (propIdAreaId : PropIdAreaId) (newConfig : ContSubConfigs)
    (s : SubscriptionManager) : VhalResult × SubscriptionManager :=
  let oldConfig := s.mContSubConfigsByPropIdArea.valueAt propIdAreaId {}
  let s := { s with
    mContSubConfigsByPropIdArea := s.mContSubConfigsByPropIdArea.touch propIdAreaId {} }
  let result :=
    if newConfig.getMaxSampleRateHz.eq oldConfig.getMaxSampleRateHz &&
        newConfig.getMinRequiredResolution.eq oldConfig.getMinRequiredResolution &&
        newConfig.isVurEnabled == oldConfig.isVurEnabled then (.ok (), s)
    else callUpdatedConfig hw propIdAreaId oldConfig newConfig s
  match result with
  | (.error e, t) => (.error e, t)
  | (.ok (), t) => (.ok (), { t with
      mContSubConfigsByPropIdArea :=
        t.mContSubConfigsByPropIdArea.insert propIdAreaId newConfig })

/-- Adds a client to the configuration of a pair. -/
def addContinuousSubscriberLocked (clientId : ClientIdType) (propIdAreaId : PropIdAreaId)
    (subConfig : SubConfig) (s : SubscriptionManager) : VhalResult × SubscriptionManager :=
  let newConfig := (s.mContSubConfigsByPropIdArea.valueAt propIdAreaId {}).addClient clientId
    subConfig
  updateContSubConfigsLocked hw propIdAreaId newConfig { s with
    mContSubConfigsByPropIdArea := s.mContSubConfigsByPropIdArea.touch propIdAreaId {} }

/-- Removes a client from the configuration of a pair. -/
def removeContinuousSubscriberLocked (clientId : ClientIdType) (propIdAreaId : PropIdAreaId)
    (s : SubscriptionManager) : VhalResult × SubscriptionManager :=
  let newConfig := (s.mContSubConfigsByPropIdArea.valueAt propIdAreaId {}).removeClient clientId
  updateContSubConfigsLocked hw propIdAreaId newConfig { s with
    mContSubConfigsByPropIdArea := s.mContSubConfigsByPropIdArea.touch propIdAreaId {} }

/-- The last client of a pair unsubscribes it at the hardware. -/
def removeOnChangeSubscriberLocked (propIdAreaId : PropIdAreaId) (s : SubscriptionManager) :
    VhalResult × SubscriptionManager :=
  let t := { s with mClientsByPropIdAreaId := s.mClientsByPropIdAreaId.touch propIdAreaId ∅ }
  if 1 < (s.mClientsByPropIdAreaId.valueAt propIdAreaId ∅).size then (.ok (), t)
  else
    tryHardware hw (.unsubscribe propIdAreaId.propId propIdAreaId.areaId)
      (.failedUnsubscribe propIdAreaId.propId propIdAreaId.areaId) t

/-- The turn of one pair in the loops of `subscribe`. -/
def subscribePropIdAreaId (callback : CallbackType) (isContinuousProperty : Bool)
    (option : SubscribeOptions) (areaId : Int) (s : SubscriptionManager) :
    VhalResult × SubscriptionManager :=
  let clientId := callback.asBinder
  let propIdAreaId : PropIdAreaId := ⟨option.propId, areaId⟩
  let result :=
    if isContinuousProperty then
      addContinuousSubscriberLocked hw clientId propIdAreaId
        ⟨option.sampleRate, option.resolution, option.enableVariableUpdateRate⟩ s
    else addOnChangeSubscriberLocked hw propIdAreaId s
  match result with
  | (.error e, t) => (.error e, t)
  | (.ok (), t) => (.ok (), { t with
      mSubscribedPropsByClient := t.mSubscribedPropsByClient.insert clientId
        (insert propIdAreaId (t.mSubscribedPropsByClient.valueAt clientId ∅))
      mClientsByPropIdAreaId := t.mClientsByPropIdAreaId.insert propIdAreaId
        ((t.mClientsByPropIdAreaId.valueAt propIdAreaId ∅).insert clientId callback) })

/-- Drop a client of a pair, and the pair with its last client. -/
def eraseClient (clientId : ClientIdType) (propIdAreaId : PropIdAreaId)
    (s : SubscriptionManager) : SubscriptionManager :=
  let clients := (s.mClientsByPropIdAreaId.valueAt propIdAreaId ∅).erase clientId
  if clients = ∅ then
    { s with
      mClientsByPropIdAreaId := s.mClientsByPropIdAreaId.erase propIdAreaId
      mContSubConfigsByPropIdArea := s.mContSubConfigsByPropIdArea.erase propIdAreaId }
  else
    { s with mClientsByPropIdAreaId := s.mClientsByPropIdAreaId.insert propIdAreaId clients }

/-- Unsubscribes a pair for a client, which is then no longer one of its clients. -/
def unsubscribePropIdAreaIdLocked (clientId : ClientIdType) (propIdAreaId : PropIdAreaId)
    (s : SubscriptionManager) : VhalResult × SubscriptionManager :=
  if (s.mContSubConfigsByPropIdArea.lookup propIdAreaId).isSome then
    match removeContinuousSubscriberLocked hw clientId propIdAreaId s with
    | (.error e, t) => (.error e, t)
    | (.ok (), t) => (.ok (), eraseClient clientId propIdAreaId t)
  else if (s.mClientsByPropIdAreaId.lookup propIdAreaId).isNone then (.ok (), s)
  else
    match removeOnChangeSubscriberLocked hw propIdAreaId s with
    | (.error e, t) => (.error e, t)
    | (.ok (), t) => (.ok (), eraseClient clientId propIdAreaId t)

/-- The turn of one pair in the loop of `unsubscribe` with property ids. -/
def unsubscribeAndForget (clientId : ClientIdType) (propIdAreaId : PropIdAreaId)
    (s : SubscriptionManager) : VhalResult × SubscriptionManager :=
  match unsubscribePropIdAreaIdLocked hw clientId propIdAreaId s with
  | (.error e, t) => (.error e, t)
  | (.ok (), t) => (.ok (), { t with
      mSubscribedPropsByClient := t.mSubscribedPropsByClient.insert clientId
        ((t.mSubscribedPropsByClient.valueAt clientId ∅).erase propIdAreaId) })

/-- The held pairs whose property is listed, in the order of the visit. -/
def propIdAreaIdsToUnsubscribe (propIds : List Int) (order : Traversal PropIdAreaId)
    (subscribed : Finset PropIdAreaId) : List PropIdAreaId :=
  (order.visit subscribed).filter fun p => propIds.contains p.propId

/-- Unsubscribes the pairs of some properties for a client, up to the first failure. -/
def unsubscribe (clientId : ClientIdType) (propIds : List Int) (order : Traversal PropIdAreaId)
    (s : SubscriptionManager) : VhalResult × SubscriptionManager :=
  match s.mSubscribedPropsByClient.lookup clientId with
  | none => (.ok (), s)
  | some subscribed =>
      match forEach (unsubscribeAndForget hw clientId)
        (propIdAreaIdsToUnsubscribe propIds order subscribed) s with
      | (.error e, t) => (.error e, t)
      | (.ok (), t) =>
          if t.mSubscribedPropsByClient.valueAt clientId ∅ = ∅ then
            (.ok (), { t with
              mSubscribedPropsByClient := t.mSubscribedPropsByClient.erase clientId })
          else (.ok (), t)

/-- The book-keeping of one pair when a client subscribes to its supported values. -/
def holdSupportedValueChange (callback : CallbackType) (s : SubscriptionManager)
    (p : PropIdAreaId) : SubscriptionManager :=
  let clientId := callback.asBinder
  { s with
    mSupportedValueChangeClientsByPropIdAreaId :=
      s.mSupportedValueChangeClientsByPropIdAreaId.insert p
        ((s.mSupportedValueChangeClientsByPropIdAreaId.valueAt p ∅).insert clientId callback)
    mSupportedValueChangePropIdAreaIdsByClient :=
      s.mSupportedValueChangePropIdAreaIdsByClient.insert clientId
        (insert p (s.mSupportedValueChangePropIdAreaIdsByClient.valueAt clientId ∅)) }

/-- Subscribes a client to changes of the supported values. -/
def subscribeSupportedValueChange (callback : CallbackType) (propIdAreaIds : List PropIdAreaId)
    (s : SubscriptionManager) : VhalResult × SubscriptionManager :=
  match tryHardware hw (.subscribeSupportedValueChange propIdAreaIds)
    (.failedSubscribeSupportedValueChange propIdAreaIds) s with
  | (.error e, t) => (.error e, t)
  | (.ok (), t) => (.ok (), propIdAreaIds.foldl (holdSupportedValueChange callback) t)

/-- The requested pairs whose only client is the leaving one. -/
def soleSupportedValueChangePairs (clientId : ClientIdType) (propIdAreaIds : List PropIdAreaId)
    (s : SubscriptionManager) : List PropIdAreaId :=
  propIdAreaIds.filter fun p =>
    match s.mSupportedValueChangeClientsByPropIdAreaId.lookup p with
    | none => false
    | some clients => clients.size == 1 && (clients.lookup clientId).isSome

/-- The book-keeping of one pair when a client drops its supported-value subscription. -/
def forgetSupportedValueChange (clientId : ClientIdType) (s : SubscriptionManager)
    (p : PropIdAreaId) : SubscriptionManager :=
  let byPair := match s.mSupportedValueChangeClientsByPropIdAreaId.lookup p with
    | none => s.mSupportedValueChangeClientsByPropIdAreaId
    | some clients => s.mSupportedValueChangeClientsByPropIdAreaId.insert p (clients.erase clientId)
  let byPair := UnorderedMap.touch byPair p ∅
  let byPair := if byPair.valueAt p ∅ = ∅ then byPair.erase p else byPair
  let byClient := s.mSupportedValueChangePropIdAreaIdsByClient.insert clientId
    ((s.mSupportedValueChangePropIdAreaIdsByClient.valueAt clientId ∅).erase p)
  let byClient :=
    if UnorderedMap.valueAt byClient clientId ∅ = ∅ then byClient.erase clientId else byClient
  { s with
    mSupportedValueChangeClientsByPropIdAreaId := byPair
    mSupportedValueChangePropIdAreaIdsByClient := byClient }

/-- Unsubscribes a client from such changes. The hardware is told of the pairs no one else holds. -/
def unsubscribeSupportedValueChangeLocked (clientId : ClientIdType)
    (propIdAreaIds : List PropIdAreaId) (s : SubscriptionManager) :
    VhalResult × SubscriptionManager :=
  let propIdAreaIdsToUnsubscribe := soleSupportedValueChangePairs clientId propIdAreaIds s
  let result :=
    if propIdAreaIdsToUnsubscribe.isEmpty then (.ok (), s)
    else
      tryHardware hw (.unsubscribeSupportedValueChange propIdAreaIdsToUnsubscribe)
        (.failedUnsubscribeSupportedValueChange propIdAreaIdsToUnsubscribe) s
  match result with
  | (.error e, t) => (.error e, t)
  | (.ok (), t) => (.ok (), propIdAreaIds.foldl (forgetSupportedValueChange clientId) t)

/-- Unsubscribes a client from changes of the supported values. -/
def unsubscribeSupportedValueChange (clientId : ClientIdType)
    (propIdAreaIds : List PropIdAreaId) (s : SubscriptionManager) :
    VhalResult × SubscriptionManager :=
  unsubscribeSupportedValueChangeLocked hw clientId propIdAreaIds s

/-- The property part of `unsubscribe` for a whole client. -/
def unsubscribeAllProperties (clientId : ClientIdType) (order : Traversal PropIdAreaId)
    (s : SubscriptionManager) : VhalResult × SubscriptionManager :=
  match s.mSubscribedPropsByClient.lookup clientId with
  | none => (.ok (), s)
  | some propIdAreaIds =>
      match forEach (unsubscribePropIdAreaIdLocked hw clientId) (order.visit propIdAreaIds) s with
      | (.error e, t) => (.error e, t)
      | (.ok (), t) => (.ok (), { t with
          mSubscribedPropsByClient := t.mSubscribedPropsByClient.erase clientId })

/-- The overload of `unsubscribe` without property ids. -/
def unsubscribeClient (clientId : ClientIdType) (order : Traversal PropIdAreaId)
    (s : SubscriptionManager) : VhalResult × SubscriptionManager :=
  match unsubscribeAllProperties hw clientId order s with
  | (.error e, t) => (.error e, t)
  | (.ok (), t) =>
      match t.mSupportedValueChangePropIdAreaIdsByClient.lookup clientId with
      | none => (.ok (), t)
      | some propIdAreaIds =>
          unsubscribeSupportedValueChangeLocked hw clientId (order.visit propIdAreaIds) t

variable (lib : MathLibrary)

/-- The checks made on the rate and the resolution of a continuous option. -/
def checkContinuousOption (option : SubscribeOptions) : Option VhalResult :=
  (getIntervalNanos option.sampleRate).map fun
    | .error message => .error ⟨.invalidArg, message⟩
    | .ok _ =>
        if checkResolution lib option.resolution then .ok ()
        else .error ⟨.invalidArg, .resolutionNotPowerOfTen option.resolution⟩

/-- The first loop of `subscribe`: every option is checked before any is applied. -/
def checkOptions (isContinuousProperty : Bool) : List SubscribeOptions → Option VhalResult
  | [] => some (.ok ())
  | option :: options =>
      (if isContinuousProperty then checkContinuousOption lib option else some (.ok ())).bind fun
        | .error e => some (.error e)
        | .ok () =>
            if option.areaIds.isEmpty then some (.error ⟨.invalidArg, .emptyAreaIds⟩)
            else checkOptions isContinuousProperty options

/-- The second loop of `subscribe`: every area of every option in turn. -/
def subscribeOptions (callback : CallbackType) (options : List SubscribeOptions)
    (isContinuousProperty : Bool) (s : SubscriptionManager) : VhalResult × SubscriptionManager :=
  forEach (fun option =>
    forEach (subscribePropIdAreaId hw callback isContinuousProperty option) option.areaIds)
      options s

/-- Checks some options and subscribes all of them, up to the first failure. -/
def subscribe (callback : CallbackType) (options : List SubscribeOptions)
    (isContinuousProperty : Bool) (s : SubscriptionManager) :
    Option (VhalResult × SubscriptionManager) :=
  (checkOptions lib isContinuousProperty options).map fun
    | .error e => (.error e, s)
    | .ok () => subscribeOptions hw callback options isContinuousProperty s

end Hardware

/-- Insertion into the set of remembered values: a value of the same pair stays. -/
def insertContSubValue (callback : CallbackType) (value : VehiclePropValue)
    (s : SubscriptionManager) : SubscriptionManager :=
  { s with
    mContSubValuesByCallback := s.mContSubValuesByCallback.insert callback
      ((s.mContSubValuesByCallback.valueAt callback ∅).touch value.propIdAreaId value) }

/-- The value is not older than the last one of the client, and differs from it. It is then kept. -/
def isValueUpdatedLocked (callback : CallbackType) (value : VehiclePropValue)
    (s : SubscriptionManager) : Bool × SubscriptionManager :=
  match (s.mContSubValuesByCallback.valueAt callback ∅).lookup value.propIdAreaId with
  | none => (true, insertContSubValue callback value s)
  | some it =>
      if it.timestamp > value.timestamp then (false, s)
      else if it.value.eq value.value && it.status == value.status then
        (false, insertContSubValue callback value s)
      else (true, insertContSubValue callback value s)

/-- The values collected for each callback. -/
abbrev ClientEvents (Event : Type) := UnorderedMap CallbackType (List Event)

/-- Append an event to the list of a callback. -/
def pushBack {Event : Type} (clients : ClientEvents Event) (callback : CallbackType)
    (event : Event) : ClientEvents Event :=
  clients.insert callback (clients.valueAt callback [] ++ [event])

/-- The turn of one client in the inner loop of `getSubscribedClients`. -/
def deliverToClient (value : VehiclePropValue)
    (acc : ClientEvents VehiclePropValue × SubscriptionManager)
    (entry : ClientIdType × CallbackType) :
    Option (ClientEvents VehiclePropValue × SubscriptionManager) :=
  let subConfigs := acc.2.mContSubConfigsByPropIdArea.valueAt value.propIdAreaId {}
  let s := { acc.2 with
    mContSubConfigsByPropIdArea :=
      acc.2.mContSubConfigsByPropIdArea.touch value.propIdAreaId {} }
  (sanitizeByResolution value.value (subConfigs.getResolutionForClient entry.1)).map fun raw =>
    let newValue := { value with value := raw }
    if subConfigs.isVurEnabledForClient entry.1 && !subConfigs.isVurEnabled then
      match isValueUpdatedLocked entry.2 newValue s with
      | (true, t) => (pushBack acc.1 entry.2 newValue, t)
      | (false, t) => (acc.1, t)
    else (pushBack acc.1 entry.2 newValue, s)

/-- The turn of one value in the outer loop of `getSubscribedClients`. -/
def deliverValue (order : Traversal ClientIdType)
    (acc : ClientEvents VehiclePropValue × SubscriptionManager) (value : VehiclePropValue) :
    Option (ClientEvents VehiclePropValue × SubscriptionManager) :=
  match acc.2.mClientsByPropIdAreaId.lookup value.propIdAreaId with
  | none => some acc
  | some clients => (order.entries clients).foldlM (deliverToClient value) acc

/-- Sorts some values by the clients they go to. -/
def getSubscribedClients (updatedValues : List VehiclePropValue) (order : Traversal ClientIdType)
    (s : SubscriptionManager) :
    Option (ClientEvents VehiclePropValue × SubscriptionManager) :=
  updatedValues.foldlM (deliverValue order) (∅, s)

/-- The loops of the two stateless fan-outs: every event goes to every client of its pair. -/
def fanOut {Event Sent : Type} (pairOf : Event → PropIdAreaId) (send : Event → Sent)
    (clientsByPair : UnorderedMap PropIdAreaId (UnorderedMap ClientIdType CallbackType))
    (order : Traversal ClientIdType) (events : List Event) : ClientEvents Sent :=
  events.foldl (fun acc event =>
    match clientsByPair.lookup (pairOf event) with
    | none => acc
    | some clients =>
        (order.entries clients).foldl (fun acc entry => pushBack acc entry.2 (send event)) acc) ∅

/-- Sorts some errors by the clients they go to. -/
def getSubscribedClientsForErrorEvents (errorEvents : List SetValueErrorEvent)
    (order : Traversal ClientIdType) (s : SubscriptionManager) : ClientEvents VehiclePropError :=
  fanOut (fun e => ⟨e.propId, e.areaId⟩) (fun e => ⟨e.propId, e.areaId, e.errorCode⟩)
    s.mClientsByPropIdAreaId order errorEvents

/-- Sorts some pairs by the clients that are told of them. -/
def getSubscribedClientsForSupportedValueChange (propIdAreaIds : List PropIdAreaId)
    (order : Traversal ClientIdType) (s : SubscriptionManager) : ClientEvents PropIdAreaId :=
  fanOut id id s.mSupportedValueChangeClientsByPropIdAreaId order propIdAreaIds

/-- The calls that change the manager. -/
inductive Operation where
  | subscribe (callback : CallbackType) (options : List SubscribeOptions)
      (isContinuousProperty : Bool)
  | unsubscribe (clientId : ClientIdType) (propIds : List Int) (order : Traversal PropIdAreaId)
  | unsubscribeClient (clientId : ClientIdType) (order : Traversal PropIdAreaId)
  | getSubscribedClients (updatedValues : List VehiclePropValue) (order : Traversal ClientIdType)
  | subscribeSupportedValueChange (callback : CallbackType) (propIdAreaIds : List PropIdAreaId)
  | unsubscribeSupportedValueChange (clientId : ClientIdType) (propIdAreaIds : List PropIdAreaId)

/-- One call, with the result it returns; the lock makes it a single step. -/
def step (hw : Nat → StatusCode) (lib : MathLibrary) (s : SubscriptionManager) :
    Operation → Option (VhalResult × SubscriptionManager)
  | .subscribe callback options isContinuousProperty =>
      subscribe hw lib callback options isContinuousProperty s
  | .unsubscribe clientId propIds order => some (unsubscribe hw clientId propIds order s)
  | .unsubscribeClient clientId order => some (unsubscribeClient hw clientId order s)
  | .getSubscribedClients updatedValues order =>
      (getSubscribedClients updatedValues order s).map fun r => (.ok (), r.2)
  | .subscribeSupportedValueChange callback propIdAreaIds =>
      some (subscribeSupportedValueChange hw callback propIdAreaIds s)
  | .unsubscribeSupportedValueChange clientId propIdAreaIds =>
      some (unsubscribeSupportedValueChange hw clientId propIdAreaIds s)

end SubscriptionManager

end VhalCore.Subscription
