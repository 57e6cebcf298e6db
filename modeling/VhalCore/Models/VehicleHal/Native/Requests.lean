import VhalCore.Core.UnorderedMap
import VhalCore.Models.Vehicle.Configs
import VhalCore.Models.Vehicle.Order

/-!
# Reading and writing values: the checks and the replies

`getValues` and `setValues` differ in the checks of a request and in the type of the
result; everything else is shared. A call is turned away for a duplicate property.
Each request of the others is checked on its own: the failed ones are answered at
once and the rest goes to the hardware. Results of the hardware are passed on for the
requests that are still pending, and a timeout is answered for every id of its set.
-/

namespace VhalCore.VehicleHal

/-- Which of the two calls. -/
inductive RequestKind where
  | get
  | set
  deriving DecidableEq, Repr

/-- `GetValueRequest` with its property, `SetValueRequest` with its value. -/
structure ValueRequest where
  requestId : Int
  value : VehiclePropValue
  deriving DecidableEq

/-- `GetValueResult`, and `SetValueResult` with no property. -/
structure ValueResult where
  requestId : Int
  status : StatusCode := .ok
  prop : Option VehiclePropValue := none
  deriving DecidableEq

/-- The errors of `getConfig`. -/
inductive ConfigError where
  /-- `no config for property, ID: {}` -/
  | noConfig (propId : Int)
  /-- `property not supported for current VHAL interface, ID: {}` -/
  | notSupported (propId : Int)
  deriving DecidableEq, Repr

/-- What `getConfig` answers for each property. -/
abbrev ConfigSource := Int → Except ConfigError VehiclePropConfig

/-- The errors of `checkPermissionHelper`. -/
inductive PermissionError where
  /-- `checkPermissionHelper parameter is an invalid access type` -/
  | invalidAccessType
  /-- the message of `getConfig` -/
  | config (e : ConfigError)
  /-- `no config for area ID: {}` -/
  | noConfigForArea (areaId : Int)
  /-- `Property {} does not have the following access: {}` -/
  | noAccess (propId : Int) (access : VehiclePropertyAccess)
  deriving DecidableEq, Repr

/-- The status that an error is reported with. -/
def PermissionError.code : PermissionError → StatusCode
  | .noAccess _ _ => .accessDenied
  | _ => .invalidArg

/-- The access allows what is required. -/
def hasRequiredAccess (access requiredAccess : VehiclePropertyAccess) : Bool :=
  access == requiredAccess || access == .readWrite

/-- The access of the property or of the area allows a request. -/
def checkPermissionHelper (getConfig : ConfigSource) (value : VehiclePropValue)
    (accessToTest : VehiclePropertyAccess) : Except PermissionError Unit :=
  if accessToTest = .none then .error .invalidAccessType
  else
    match getConfig value.prop with
    | .error e => .error (.config e)
    | .ok config =>
        let areaConfig := getAreaConfig value.prop value.areaId config
        if areaConfig = none ∧ isGlobalProp value.prop = false then
          .error (.noConfigForArea value.areaId)
        else if hasRequiredAccess config.access accessToTest = false ∧
            areaConfig.all (fun c => hasRequiredAccess c.access accessToTest = false) then
          .error (.noAccess value.prop accessToTest)
        else .ok ()

/-- The property may be read. -/
def checkReadPermission (getConfig : ConfigSource) (value : VehiclePropValue) :
    Except PermissionError Unit :=
  checkPermissionHelper getConfig value .read

/-- The property may be written. -/
def checkWritePermission (getConfig : ConfigSource) (value : VehiclePropValue) :
    Except PermissionError Unit :=
  checkPermissionHelper getConfig value .write

/-- The errors of `checkProperty`. -/
inductive PropertyError where
  | config (e : ConfigError)
  /-- `invalid area ID: {} for prop ID: {}, not listed in config` -/
  | invalidAreaId (areaId propId : Int)
  /-- `invalid property value: {}, error: {}` -/
  | invalidValue (e : ValueError)
  /-- `property value out of range: {}, error: {}` -/
  | outOfRange (e : ValueError)
  deriving DecidableEq, Repr

/-- The check of a value that is to be written; undefined where `checkPropValue` is. -/
def checkProperty (getConfig : ConfigSource) (propValue : VehiclePropValue) :
    Option (Except PropertyError Unit) :=
  match getConfig propValue.prop with
  | .error e => some (.error (.config e))
  | .ok config =>
      let areaConfig := getAreaConfig propValue.prop propValue.areaId config
      if isGlobalProp propValue.prop = false ∧ areaConfig = none then
        some (.error (.invalidAreaId propValue.areaId propValue.prop))
      else
        (checkPropValue propValue config).map fun
          | .error e => .error (.invalidValue e)
          | .ok () =>
              match checkValueRange propValue areaConfig with
              | .error e => .error (.outOfRange e)
              | .ok () => .ok ()

/-- The check of one request: the status it is answered with if it fails. -/
def checkRequest (kind : RequestKind) (getConfig : ConfigSource) (request : ValueRequest) :
    Option (Except StatusCode Unit) :=
  match kind with
  | .get =>
      match checkReadPermission getConfig request.value with
      | .error e => some (.error e.code)
      | .ok () => some (.ok ())
  | .set =>
      match checkWritePermission getConfig request.value with
      | .error e => some (.error e.code)
      | .ok () =>
          (checkProperty getConfig request.value).map fun
            | .error _ => .error .invalidArg
            | .ok () => .ok ()

/-- The results of the requests that fail their check and the requests that are sent to the
hardware, each in the order of the list. -/
def splitRequests (check : ValueRequest → Except StatusCode Unit) :
    List ValueRequest → List ValueResult × List ValueRequest
  | [] => ([], [])
  | request :: rest =>
      let (failedResults, hardwareRequests) := splitRequests check rest
      match check request with
      | .error status => (⟨request.requestId, status, none⟩ :: failedResults, hardwareRequests)
      | .ok () => (failedResults, request :: hardwareRequests)

/-- The loop of `checkDuplicateRequests`. The values seen so far are in an ordered set, which
takes values for equal if neither is less than the other. Where not-a-number keeps the order
from being transitive on these values, the set's behaviour is undefined. -/
def checkDuplicateLoop (requestProps : List VehiclePropValue) :
    List ValueRequest → Option (Except VehiclePropValue (List Int))
  | [] => some (.ok [])
  | request :: rest =>
      if ¬TransitiveOn (request.value :: requestProps) then none
      else if ∃ v ∈ requestProps, v.Equivalent request.value then some (.error request.value)
      else
        (checkDuplicateLoop (request.value :: requestProps) rest).map fun
          | .error v => .error v
          | .ok requestIds => .ok (request.requestId :: requestIds)

/-- The ids of the requests, or the value for which the call is turned away with
`duplicate request for property: {}`. -/
def checkDuplicateRequests (requests : List ValueRequest) :
    Option (Except VehiclePropValue (List Int)) :=
  checkDuplicateLoop [] requests

/-- The set of request ids that are sent to the hardware. -/
def hardwareRequestIds (hardwareRequests : List ValueRequest) : Finset Int :=
  (hardwareRequests.map ValueRequest.requestId).toFinset

/-- The ids of a batch of results. -/
def resultIds (results : List ValueResult) : Finset Int :=
  (results.map ValueResult.requestId).toFinset

/-- The results for a set of ids whose time is over. -/
def onTimeout (order : Traversal Int) (timeoutIds : Finset Int) : List ValueResult :=
  (order.visit timeoutIds).map fun requestId => ⟨requestId, .tryAgain, none⟩

/-- The results of a batch that are passed on to the client: those of requests that were
pending. -/
def getOrSetValuesCallback (finishedRequests : Finset Int) (results : List ValueResult) :
    List ValueResult :=
  results.filter fun result => result.requestId ∈ finishedRequests

end VhalCore.VehicleHal
