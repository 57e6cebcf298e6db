import VhalCore.Models.Vehicle.Configs

/-!
# The emulated user HAL

Five properties of user management have an emulation of their own. A value with an area id
other than zero is stored as the response to a later request, and the area id of the
response says what is done with it. Every access to an element of a vector has an
outcome of its own where the vector is too short.
-/

namespace VhalCore.FakeHardware

/-- What the language leaves undefined. -/
inductive Fault where
  /-- An element beyond the end of a vector. -/
  | outOfBounds
  /-- The value of a result that is an error. -/
  | noValue
  /-- A number beyond the range of the type it is converted to. -/
  | conversion
  deriving DecidableEq, Repr

/-- Read an element of a vector. -/
def elementAt {α : Type} (xs : List α) (i : Nat) : Except Fault α :=
  match xs[i]? with
  | some x => .ok x
  | none => .error .outOfBounds

/-- Assign to an element of a vector. -/
def assignAt {α : Type} (xs : List α) (i : Nat) (x : α) : Except Fault (List α) :=
  if i < xs.length then .ok (xs.set i x) else .error .outOfBounds

/-- The property `INITIAL_USER_INFO`. -/
def initialUserInfoId : Int := 0x11e00f07

/-- The property `SWITCH_USER`. -/
def switchUserId : Int := 0x11e00f08

/-- The property `CREATE_USER`. -/
def createUserId : Int := 0x11e00f09

/-- The property `REMOVE_USER`. -/
def removeUserId : Int := 0x11e00f0a

/-- The property `USER_IDENTIFICATION_ASSOCIATION`. -/
def userIdentificationAssociationId : Int := 0x11e00f0b

/-- The enumerators of `SwitchUserMessageType`. -/
inductive SwitchUserMessageType where
  | unknown
  | legacyAndroidSwitch
  | androidSwitch
  | vehicleResponse
  | vehicleRequest
  | androidPostSwitch
  deriving DecidableEq, Repr

/-- The message type of a number, if it is one of the enumerators. -/
def verifyAndCast : Int → Option SwitchUserMessageType
  | 0 => some .unknown
  | 1 => some .legacyAndroidSwitch
  | 2 => some .androidSwitch
  | 3 => some .vehicleResponse
  | 4 => some .vehicleRequest
  | 5 => some .androidPostSwitch
  | _ => none

/-- The errors of the user HAL. -/
inductive UserHalError where
  /-- `no int32Values on property: {}` -/
  | noInt32Values
  /-- `missing switch user message type on property: {}` -/
  | missingMessageType
  /-- `Value {} not in enum values` -/
  | invalidMessageType (value : Int)
  /-- `not set by lshal` -/
  | notSetByLshal
  /-- `not generating a property change event because of lshal prop: {}` -/
  | noEvent
  /-- `invalid action on lshal response: {}` -/
  | invalidAction
  /-- `Unsupported property: {}` -/
  | unsupportedProperty
  deriving DecidableEq, Repr

/-- The status that an error is reported with. -/
def UserHalError.code : UserHalError → StatusCode
  | .noInt32Values | .missingMessageType | .invalidMessageType _ | .unsupportedProperty =>
      .invalidArg
  | .notSetByLshal | .noEvent => .notAvailable
  | .invalidAction => .internalError

/-- The request identity is the first integer. -/
def getRequestId (value : VehiclePropValue) : Except UserHalError Int :=
  match value.value.int32Values with
  | [] => .error .noInt32Values
  | requestId :: _ => .ok requestId

/-- The message type is the second integer. -/
def getSwitchUserMessageType (value : VehiclePropValue) :
    Except UserHalError SwitchUserMessageType :=
  match value.value.int32Values with
  | _ :: messageType :: _ =>
      match verifyAndCast messageType with
      | some messageType => .ok messageType
      | none => .error (.invalidMessageType messageType)
  | _ => .error .missingMessageType

/-- The responses that are stored for later requests. -/
structure FakeUserHal where
  mInitialUserResponseFromCmd : Option VehiclePropValue := none
  mSwitchUserResponseFromCmd : Option VehiclePropValue := none
  mCreateUserResponseFromCmd : Option VehiclePropValue := none
  mSetUserIdentificationAssociationResponseFromCmd : Option VehiclePropValue := none
  deriving DecidableEq

/-- A call returns an error or an optional value that is to be written. -/
abbrev UserHalOutcome := Except UserHalError (Option VehiclePropValue)

namespace FakeUserHal

/-- The user HAL handles these five properties. -/
def isSupported (prop : Int) : Bool :=
  prop == initialUserInfoId || prop == switchUserId || prop == createUserId ||
    prop == removeUserId || prop == userIdentificationAssociationId

/-- The area id of the response says whether it is sent and with which request id. -/
def sendUserHalResponse (response : VehiclePropValue) (requestId : Int) :
    Except Fault UserHalOutcome :=
  let reply (id : Int) : Except Fault UserHalOutcome := do
    let int32Values ← assignAt response.value.int32Values 0 id
    return .ok (some { response with
      value := { response.value with int32Values }
      areaId := 0 })
  match response.areaId with
  | 1 => reply requestId
  | 2 => reply (-requestId)
  | 3 => .ok (.error .noEvent)
  | _ => .ok (.error .invalidAction)

/-- The default answer to a request for the initial user. -/
def initialUserInfoResponse (now requestId : Int) : VehiclePropValue :=
  { prop := initialUserInfoId, timestamp := now
    value := { int32Values := [requestId, 0, 0, 0], stringValue := "||" } }

/-- The default answer to a switch: a response of the vehicle that reports success. -/
def switchUserResponse (now requestId : Int) : VehiclePropValue :=
  { prop := switchUserId, timestamp := now, value := { int32Values := [requestId, 3, 1] } }

/-- The default answer to a creation: success. -/
def createUserResponse (now requestId : Int) : VehiclePropValue :=
  { prop := createUserId, timestamp := now, value := { int32Values := [requestId, 1] } }

/-- A command stores a response for the next request, and a request takes it. -/
def onSetInitialUserInfoResponse (now : Int) (value : VehiclePropValue) (hal : FakeUserHal) :
    Except Fault (UserHalOutcome × FakeUserHal) :=
  match getRequestId value with
  | .error e => .ok (.error e, hal)
  | .ok requestId =>
      if value.areaId ≠ 0 then
        .ok (.ok none, { hal with mInitialUserResponseFromCmd := some value })
      else
        match hal.mInitialUserResponseFromCmd with
        | some response => do
            let outcome ← sendUserHalResponse response requestId
            return (outcome, { hal with mInitialUserResponseFromCmd := none })
        | none => .ok (.ok (some (initialUserInfoResponse now requestId)), hal)

/-- As for the initial user, but a request of the vehicle is passed on at once. -/
def onSetSwitchUserResponse (now : Int) (value : VehiclePropValue) (hal : FakeUserHal) :
    Except Fault (UserHalOutcome × FakeUserHal) :=
  match getRequestId value with
  | .error e => .ok (.error e, hal)
  | .ok requestId =>
      match getSwitchUserMessageType value with
      | .error e => .ok (.error e, hal)
      | .ok messageType =>
          if value.areaId ≠ 0 then
            if messageType = .vehicleRequest then .ok (.ok (some value), hal)
            else .ok (.ok none, { hal with mSwitchUserResponseFromCmd := some value })
          else
            match hal.mSwitchUserResponseFromCmd with
            | some response => do
                let outcome ← sendUserHalResponse response requestId
                return (outcome, { hal with mSwitchUserResponseFromCmd := none })
            | none =>
                if messageType = .legacyAndroidSwitch ∨ messageType = .androidPostSwitch then
                  .ok (.ok none, hal)
                else .ok (.ok (some (switchUserResponse now requestId)), hal)

/-- As for the initial user. Without a stored response the request succeeds. -/
def onSetCreateUserResponse (now : Int) (value : VehiclePropValue) (hal : FakeUserHal) :
    Except Fault (UserHalOutcome × FakeUserHal) :=
  match getRequestId value with
  | .error e => .ok (.error e, hal)
  | .ok requestId =>
      if value.areaId ≠ 0 then
        .ok (.ok none, { hal with mCreateUserResponseFromCmd := some value })
      else
        match hal.mCreateUserResponseFromCmd with
        | some response => do
            let outcome ← sendUserHalResponse response requestId
            return (outcome, { hal with mCreateUserResponseFromCmd := none })
        | none => .ok (.ok (some (createUserResponse now requestId)), hal)

/-- The stored response is kept, since a read may ask for it. -/
def onSetUserIdentificationAssociation (value : VehiclePropValue) (hal : FakeUserHal) :
    Except Fault (UserHalOutcome × FakeUserHal) :=
  match getRequestId value with
  | .error e => .ok (.error e, hal)
  | .ok requestId =>
      if value.areaId ≠ 0 then
        .ok (.ok none,
          { hal with mSetUserIdentificationAssociationResponseFromCmd := some value })
      else
        match hal.mSetUserIdentificationAssociationResponseFromCmd with
        | some response => do
            let outcome ← sendUserHalResponse response requestId
            return (outcome, hal)
        | none => .ok (.error .notSetByLshal, hal)

/-- Hands a value to the function for its property. -/
def onSetProperty (now : Int) (value : VehiclePropValue) (hal : FakeUserHal) :
    Except Fault (UserHalOutcome × FakeUserHal) :=
  if value.prop = initialUserInfoId then hal.onSetInitialUserInfoResponse now value
  else if value.prop = switchUserId then hal.onSetSwitchUserResponse now value
  else if value.prop = createUserId then hal.onSetCreateUserResponse now value
  else if value.prop = removeUserId then .ok (.ok none, hal)
  else if value.prop = userIdentificationAssociationId then
    hal.onSetUserIdentificationAssociation value
  else .ok (.error .unsupportedProperty, hal)

/-- The errors of a read. -/
inductive GetError where
  /-- `only supported on SET` -/
  | onlySupportedOnSet
  /-- `not supported by User HAL` -/
  | notSupported
  /-- An error that a write has, too. -/
  | ofSet (error : UserHalError)
  deriving DecidableEq, Repr

/-- A read returns a copy of the stored response with the request id of the read. -/
def onGetUserIdentificationAssociation (value : VehiclePropValue) (hal : FakeUserHal) :
    Except Fault (Except GetError VehiclePropValue) :=
  match hal.mSetUserIdentificationAssociationResponseFromCmd with
  | none => .ok (.error (.ofSet .notSetByLshal))
  | some newValue =>
      match getRequestId value with
      | .error e => .ok (.error (.ofSet e))
      | .ok requestId => do
          let int32Values ← assignAt newValue.value.int32Values 0 requestId
          return .ok { newValue with value := { newValue.value with int32Values } }

/-- Only the associations of a user can be read. -/
def onGetProperty (value : VehiclePropValue) (hal : FakeUserHal) :
    Except Fault (Except GetError VehiclePropValue) :=
  if value.prop = initialUserInfoId ∨ value.prop = switchUserId ∨ value.prop = createUserId ∨
      value.prop = removeUserId then .ok (.error .onlySupportedOnSet)
  else if value.prop = userIdentificationAssociationId then
    hal.onGetUserIdentificationAssociation value
  else .ok (.error .notSupported)

end FakeUserHal

/-- The calls of the user HAL. -/
inductive UserHalCall where
  | set (now : Int) (value : VehiclePropValue)
  | get (value : VehiclePropValue)

/-- The answer to a call. -/
inductive UserHalAnswer where
  | set (outcome : UserHalOutcome)
  | get (outcome : Except FakeUserHal.GetError VehiclePropValue)

namespace UserHalCall

/-- One call of the user HAL. -/
def step (hal : FakeUserHal) : UserHalCall → Except Fault (UserHalAnswer × FakeUserHal)
  | set now value => do
      let (outcome, hal) ← hal.onSetProperty now value
      return (.set outcome, hal)
  | get value => do
      let outcome ← hal.onGetProperty value
      return (.get outcome, hal)

end UserHalCall

end VhalCore.FakeHardware
