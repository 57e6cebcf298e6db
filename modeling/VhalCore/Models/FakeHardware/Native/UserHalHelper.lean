import VhalCore.Models.FakeHardware.Native.FakeUserHal

/-!
# Requests of the user HAL

A request of user management is a vector of integers: a fixed part, and lists that are preceded
by their lengths. Positions and lengths are of type `size_t`, so a negative length becomes a
number close to 2 to the power of 64 and sums start again at zero. Every list that is resized
is recorded with the size it is given, also where the parsing fails later.
-/

namespace VhalCore.FakeHardware.UserHalHelper

/-- The errors of the functions. -/
inductive RequestError where
  /-- `Invalid vehicle property: {}` -/
  | invalidProperty (prop : Int)
  /-- `Mismatching {} request, received {} property` -/
  | mismatchingProperty (expected received : Int)
  /-- `Int32Values must have at least {} values, received {}` -/
  | tooFewValues (atLeast received : Nat)
  /-- `Invalid user flags: {}, must be '|' of UserFlags` -/
  | invalidUserFlags (flags : Int)
  /-- `Value {} not in enum values` -/
  | notInEnum (value : Int)
  /-- `Invalid {} message type from Android System` -/
  | notFromAndroid (messageType : SwitchUserMessageType)
  /-- A text followed by the error of a callee. -/
  | because (text : String) (error : RequestError)
  /-- The same with the number of an entry in the text. -/
  | becauseOfEntry (text : String) (entry : Nat) (error : RequestError)

/-- How a parsing ends without a request. -/
inductive Failure where
  | fault (fault : Fault)
  /-- `std::length_error` from `resize`. -/
  | lengthError
  | invalid (error : RequestError)

/-- A parsing with the sizes that it has given to lists so far. -/
abbrev Parse (T : Type) := ExceptT Failure (StateM (List Nat)) T

section Primitives

variable {T : Type}

/-- The request is refused. -/
def invalid (error : RequestError) : Parse T := throw (.invalid error)

/-- Arithmetic of `size_t`. -/
def sizeT (n : Nat) : Nat := n % 2 ^ 64

/-- An `int32_t` that becomes a `size_t`. -/
def toSizeT (n : Int) : Nat := (n % 2 ^ 64).toNat

/-- `resize`, which throws beyond the greatest size of a vector of such elements. -/
def resize (elementSize count : Nat) : Parse Unit := do
  modify (· ++ [count])
  if (2 ^ 63 - 1) / elementSize < count then throw .lengthError

/-- Read an element of the vector without asking whether it is there. -/
def readAt (int32Values : List Int) (pos : Nat) : Parse Int :=
  match int32Values[pos]? with
  | some value => pure value
  | none => throw (.fault .outOfBounds)

/-- `int32Values.size() < atLeast` is an error. -/
def requireValues (int32Values : List Int) (atLeast : Nat) : Parse Unit :=
  if int32Values.length < atLeast then invalid (.tooFewValues atLeast int32Values.length)
  else pure ()

/-- Put the text of the caller before an error. -/
def inContext (context : RequestError → RequestError) (parse : Parse T) : Parse T :=
  fun sizes =>
    match parse sizes with
    | (.error (.invalid error), sizes) => (.error (.invalid (context error)), sizes)
    | result => result

/-- The entries of a list from number `entry` on. -/
def parseEach (parse : Nat → Parse T) : Nat → Nat → Parse (List T)
  | _, 0 => pure []
  | entry, count + 1 => do
      let first ← parse entry
      let rest ← parseEach parse (entry + 1) count
      return first :: rest

end Primitives

section Enumerations

/-- The enumerators of `InitialUserInfoRequestType`. -/
inductive InitialUserInfoRequestType where
  | unknown
  | firstBoot
  | firstBootAfterOta
  | coldBoot
  | resume
  deriving DecidableEq, Repr

/-- The enumerator with a value. -/
def InitialUserInfoRequestType.ofInt : Int → Option InitialUserInfoRequestType
  | 0 => some .unknown
  | 1 => some .firstBoot
  | 2 => some .firstBootAfterOta
  | 3 => some .coldBoot
  | 4 => some .resume
  | _ => none

/-- The enumerators of `UserIdentificationAssociationType`. -/
inductive UserIdentificationAssociationType where
  | invalid
  | keyFob
  | custom1
  | custom2
  | custom3
  | custom4
  deriving DecidableEq, Repr

/-- The enumerator with a value. -/
def UserIdentificationAssociationType.ofInt : Int → Option UserIdentificationAssociationType
  | 0 => some .invalid
  | 1 => some .keyFob
  | 101 => some .custom1
  | 102 => some .custom2
  | 103 => some .custom3
  | 104 => some .custom4
  | _ => none

/-- The enumerators of `UserIdentificationAssociationSetValue`. -/
inductive UserIdentificationAssociationSetValue where
  | invalid
  | associateCurrentUser
  | disassociateCurrentUser
  | disassociateAllUsers
  deriving DecidableEq, Repr

/-- The enumerator with a value. -/
def UserIdentificationAssociationSetValue.ofInt :
    Int → Option UserIdentificationAssociationSetValue
  | 0 => some .invalid
  | 1 => some .associateCurrentUser
  | 2 => some .disassociateCurrentUser
  | 3 => some .disassociateAllUsers
  | _ => none

/-- `verifyAndCast` for an enumeration that is given by the enumerators of its numbers. -/
def verifyAndCastTo {T : Type} (ofInt : Int → Option T) (value : Int) : Parse T :=
  match ofInt value with
  | some enumerator => pure enumerator
  | none => invalid (.notInEnum value)

end Enumerations

section Requests

/-- A user of Android. -/
structure UserInfo where
  userId : Int
  flags : Int
  deriving DecidableEq, Repr

/-- The current user and all users that exist. -/
structure UsersInfo where
  currentUser : UserInfo
  numberUsers : Int
  existingUsers : List UserInfo
  deriving DecidableEq, Repr

/-- A request for the user to start with. -/
structure InitialUserInfoRequest where
  requestId : Int
  requestType : InitialUserInfoRequestType
  usersInfo : UsersInfo
  deriving DecidableEq, Repr

/-- A request to switch to another user. -/
structure SwitchUserRequest where
  requestId : Int
  messageType : SwitchUserMessageType
  targetUser : UserInfo
  usersInfo : UsersInfo
  deriving DecidableEq, Repr

/-- A request to create a user. -/
structure CreateUserRequest where
  requestId : Int
  newUserInfo : UserInfo
  newUserName : String
  usersInfo : UsersInfo
  deriving DecidableEq, Repr

/-- A request to remove a user. -/
structure RemoveUserRequest where
  requestId : Int
  removedUserInfo : UserInfo
  usersInfo : UsersInfo
  deriving DecidableEq, Repr

/-- A request for the associations of a user. -/
structure UserIdentificationGetRequest where
  requestId : Int
  userInfo : UserInfo
  numberAssociationTypes : Int
  associationTypes : List UserIdentificationAssociationType
  deriving DecidableEq, Repr

/-- An association and what becomes of it. -/
structure UserIdentificationSetAssociation where
  type : UserIdentificationAssociationType
  value : UserIdentificationAssociationSetValue
  deriving DecidableEq, Repr

/-- A request to change the associations of a user. -/
structure UserIdentificationSetRequest where
  requestId : Int
  userInfo : UserInfo
  numberAssociations : Int
  associations : List UserIdentificationSetAssociation
  deriving DecidableEq, Repr

end Requests

section Parsing

/-- The complement of the user flags. -/
def noUserFlags : Nat := 0xffffffc0

/-- Reads a user from a position on, and refuses unknown flags. -/
def parseUserInfo (int32Values : List Int) (startPos : Nat) : Parse UserInfo := do
  requireValues int32Values (sizeT (startPos + 2))
  let userId ← readAt int32Values startPos
  let intUserFlags ← readAt int32Values (sizeT (startPos + 1))
  if maskedBits intUserFlags noUserFlags ≠ 0 then invalid (.invalidUserFlags intUserFlags)
  else return { userId := userId, flags := intUserFlags }

/-- One turn of the loop over the existing users. -/
def parseExistingUser (int32Values : List Int) (startPos i : Nat) : Parse UserInfo :=
  inContext (.becauseOfEntry "Failed to parse existing user info" i)
    (parseUserInfo int32Values (sizeT (startPos + 3 + 2 * i)))

/-- Reads the current user, the number of users and each of them. -/
def parseUsersInfo (int32Values : List Int) (startPos : Nat) : Parse UsersInfo := do
  requireValues int32Values (sizeT (startPos + 3))
  let currentUser ← parseUserInfo int32Values startPos
  let numberUsers ← readAt int32Values (sizeT (startPos + 2))
  resize 8 (toSizeT numberUsers)
  let existingUsers ← parseEach (parseExistingUser int32Values startPos) 0 (toSizeT numberUsers)
  return { currentUser := currentUser, numberUsers := numberUsers, existingUsers := existingUsers }

/-- One turn of the loop over the association types. -/
def parseAssociationType (int32Values : List Int) (startPos i : Nat) :
    Parse UserIdentificationAssociationType := do
  let type ← readAt int32Values (sizeT (startPos + i))
  inContext (.becauseOfEntry "Invalid association type in query" i)
    (verifyAndCastTo UserIdentificationAssociationType.ofInt type)

/-- Reads a number of association types. -/
def parseUserAssociationTypes (int32Values : List Int) (startPos numberAssociationTypes : Nat) :
    Parse (List UserIdentificationAssociationType) := do
  requireValues int32Values (sizeT (startPos + numberAssociationTypes))
  resize 4 numberAssociationTypes
  parseEach (parseAssociationType int32Values startPos) 0 numberAssociationTypes

/-- One turn of the loop over the associations. -/
def parseAssociation (int32Values : List Int) (startPos i : Nat) :
    Parse UserIdentificationSetAssociation := do
  let pos := sizeT (startPos + 2 * i)
  let type ← readAt int32Values pos
  let type ← inContext (.becauseOfEntry "Invalid association type in request" i)
    (verifyAndCastTo UserIdentificationAssociationType.ofInt type)
  let value ← readAt int32Values (sizeT (pos + 1))
  let value ← inContext (.becauseOfEntry "Invalid association set value in request" i)
    (verifyAndCastTo UserIdentificationAssociationSetValue.ofInt value)
  return { type := type, value := value }

/-- Reads a number of associations, each with its value. -/
def parseUserAssociations (int32Values : List Int) (startPos numberAssociations : Nat) :
    Parse (List UserIdentificationSetAssociation) := do
  requireValues int32Values (sizeT (startPos + sizeT (numberAssociations * 2)))
  resize 8 numberAssociations
  parseEach (parseAssociation int32Values startPos) 0 numberAssociations

variable (isVehicleProperty : Int → Bool)

/-- The enumerators of `VehicleProperty` are those of a generated file. -/
def verifyPropValue (propValue : VehiclePropValue) (vehicleProperty : Int)
    (minInt32Values : Nat) : Parse Unit :=
  if !isVehicleProperty propValue.prop then invalid (.invalidProperty propValue.prop)
  else if propValue.prop ≠ vehicleProperty then
    invalid (.mismatchingProperty vehicleProperty propValue.prop)
  else requireValues propValue.value.int32Values minInt32Values

/-- Reads an `INITIAL_USER_INFO` request. -/
def toInitialUserInfoRequest (propValue : VehiclePropValue) : Parse InitialUserInfoRequest := do
  let int32Values := propValue.value.int32Values
  verifyPropValue isVehicleProperty propValue initialUserInfoId 2
  let requestId ← readAt int32Values 0
  let requestType ← readAt int32Values 1
  let requestType ← inContext (.because "Invalid InitialUserInfoRequestType")
    (verifyAndCastTo InitialUserInfoRequestType.ofInt requestType)
  let usersInfo ← inContext (.because "Failed to parse users info") (parseUsersInfo int32Values 2)
  return { requestId := requestId, requestType := requestType, usersInfo := usersInfo }

/-- The message types that come from Android. -/
def requireFromAndroid (messageType : SwitchUserMessageType) : Parse Unit :=
  if messageType ≠ .legacyAndroidSwitch ∧ messageType ≠ .androidSwitch ∧
      messageType ≠ .androidPostSwitch then invalid (.notFromAndroid messageType)
  else pure ()

/-- Reads a `SWITCH_USER` request, which must come from Android. -/
def toSwitchUserRequest (propValue : VehiclePropValue) : Parse SwitchUserRequest := do
  let int32Values := propValue.value.int32Values
  verifyPropValue isVehicleProperty propValue switchUserId 2
  let messageType ← readAt int32Values 1
  let messageType ← inContext (.because "Invalid SwitchUserMessageType")
    (verifyAndCastTo verifyAndCast messageType)
  requireFromAndroid messageType
  let requestId ← readAt int32Values 0
  let targetUser ← inContext (.because "Failed to parse target user info")
    (parseUserInfo int32Values 2)
  let usersInfo ← inContext (.because "Failed to parse users info") (parseUsersInfo int32Values 4)
  return {
    requestId := requestId, messageType := messageType
    targetUser := targetUser, usersInfo := usersInfo }

/-- Reads a `CREATE_USER` request. -/
def toCreateUserRequest (propValue : VehiclePropValue) : Parse CreateUserRequest := do
  let int32Values := propValue.value.int32Values
  verifyPropValue isVehicleProperty propValue createUserId 1
  let requestId ← readAt int32Values 0
  let newUserInfo ← inContext (.because "Failed to parse new user info")
    (parseUserInfo int32Values 1)
  let usersInfo ← inContext (.because "Failed to parse users info") (parseUsersInfo int32Values 3)
  return {
    requestId := requestId, newUserInfo := newUserInfo
    newUserName := propValue.value.stringValue, usersInfo := usersInfo }

/-- Reads a `REMOVE_USER` request. -/
def toRemoveUserRequest (propValue : VehiclePropValue) : Parse RemoveUserRequest := do
  let int32Values := propValue.value.int32Values
  verifyPropValue isVehicleProperty propValue removeUserId 1
  let requestId ← readAt int32Values 0
  let removedUserInfo ← inContext (.because "Failed to parse removed user info")
    (parseUserInfo int32Values 1)
  let usersInfo ← inContext (.because "Failed to parse users info") (parseUsersInfo int32Values 3)
  return { requestId := requestId, removedUserInfo := removedUserInfo, usersInfo := usersInfo }

/-- Reads a request for the associations of a user. -/
def toUserIdentificationGetRequest (propValue : VehiclePropValue) :
    Parse UserIdentificationGetRequest := do
  let int32Values := propValue.value.int32Values
  verifyPropValue isVehicleProperty propValue userIdentificationAssociationId 4
  let requestId ← readAt int32Values 0
  let userInfo ← inContext (.because "Failed to parse user info") (parseUserInfo int32Values 1)
  let numberAssociationTypes ← readAt int32Values 3
  let associationTypes ← inContext
    (.because "Failed to parse UserIdentificationAssociationType")
    (parseUserAssociationTypes int32Values 4 (toSizeT numberAssociationTypes))
  return {
    requestId := requestId, userInfo := userInfo
    numberAssociationTypes := numberAssociationTypes, associationTypes := associationTypes }

/-- Reads a request that sets associations of a user. -/
def toUserIdentificationSetRequest (propValue : VehiclePropValue) :
    Parse UserIdentificationSetRequest := do
  let int32Values := propValue.value.int32Values
  verifyPropValue isVehicleProperty propValue userIdentificationAssociationId 4
  let requestId ← readAt int32Values 0
  let userInfo ← inContext (.because "Failed to parse user info") (parseUserInfo int32Values 1)
  let numberAssociations ← readAt int32Values 3
  let associations ← inContext (.because "Failed to parse UserIdentificationSetAssociation")
    (parseUserAssociations int32Values 4 (toSizeT numberAssociations))
  return {
    requestId := requestId, userInfo := userInfo
    numberAssociations := numberAssociations, associations := associations }

end Parsing

end VhalCore.FakeHardware.UserHalHelper
