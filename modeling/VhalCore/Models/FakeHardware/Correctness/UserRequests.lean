import VhalCore.Models.FakeHardware.Interpretation.RequestParsing

/-!
# Requests of the user HAL and their documented layout

The layout of a request says which element is what, down to the entries of its lists. The
functions decide it exactly unless they come to a length that they use before it is checked: a
number of users that is negative or greater than the vector is long, and a number of
associations that is negative and so close to zero that the sum with it starts again at zero.
-/

namespace VhalCore.FakeHardware.UserHalHelper

/-- The elements and the length of a vector of `int32_t`. -/
structure IsInt32Vector (int32Values : List Int) : Prop where
  int32 : ∀ n ∈ int32Values, -2 ^ 31 ≤ n ∧ n < 2 ^ 31
  length_lt : int32Values.length < 2 ^ 61

section Layout

/-- A combination of the user flags. -/
def IsUserFlags (flags : Int) : Prop := maskedBits flags noUserFlags = 0

/-- A user stands at a position of the integers, as an identity and flags. -/
structure UserInfoAt (int32Values : List Int) (pos : Nat) (user : UserInfo) : Prop where
  userId : int32Values[pos]? = some user.userId
  flags : int32Values[pos + 1]? = some user.flags
  valid : IsUserFlags user.flags

/-- The users stand at a position: the current one, their number, and each of them. -/
structure UsersInfoAt (int32Values : List Int) (pos : Nat) (users : UsersInfo) : Prop where
  currentUser : UserInfoAt int32Values pos users.currentUser
  numberUsers : int32Values[pos + 2]? = some users.numberUsers
  length : (users.existingUsers.length : Int) = users.numberUsers
  existingUsers : ∀ i user, users.existingUsers[i]? = some user →
    UserInfoAt int32Values (pos + 3 + 2 * i) user

/-- An enumerator at a position. -/
def EnumeratorAt {T : Type} (ofInt : Int → Option T) (int32Values : List Int) (pos : Nat)
    (enumerator : T) : Prop :=
  ∃ value, int32Values[pos]? = some value ∧ ofInt value = some enumerator

/-- Where the parts of an `INITIAL_USER_INFO` request stand. -/
structure InitialUserInfoLayout (propValue : VehiclePropValue) (request : InitialUserInfoRequest) :
    Prop where
  prop : propValue.prop = initialUserInfoId
  requestId : propValue.value.int32Values[0]? = some request.requestId
  requestType : EnumeratorAt InitialUserInfoRequestType.ofInt propValue.value.int32Values 1
    request.requestType
  usersInfo : UsersInfoAt propValue.value.int32Values 2 request.usersInfo

/-- The message types that come from Android. -/
def IsFromAndroid (messageType : SwitchUserMessageType) : Prop :=
  messageType = .legacyAndroidSwitch ∨ messageType = .androidSwitch ∨
    messageType = .androidPostSwitch

/-- Where the parts of a `SWITCH_USER` request stand. -/
structure SwitchUserLayout (propValue : VehiclePropValue) (request : SwitchUserRequest) :
    Prop where
  prop : propValue.prop = switchUserId
  requestId : propValue.value.int32Values[0]? = some request.requestId
  messageType : EnumeratorAt verifyAndCast propValue.value.int32Values 1 request.messageType
  fromAndroid : IsFromAndroid request.messageType
  targetUser : UserInfoAt propValue.value.int32Values 2 request.targetUser
  usersInfo : UsersInfoAt propValue.value.int32Values 4 request.usersInfo

/-- Where the parts of a `CREATE_USER` request stand. -/
structure CreateUserLayout (propValue : VehiclePropValue) (request : CreateUserRequest) :
    Prop where
  prop : propValue.prop = createUserId
  requestId : propValue.value.int32Values[0]? = some request.requestId
  newUserInfo : UserInfoAt propValue.value.int32Values 1 request.newUserInfo
  newUserName : request.newUserName = propValue.value.stringValue
  usersInfo : UsersInfoAt propValue.value.int32Values 3 request.usersInfo

/-- Where the parts of a `REMOVE_USER` request stand. -/
structure RemoveUserLayout (propValue : VehiclePropValue) (request : RemoveUserRequest) :
    Prop where
  prop : propValue.prop = removeUserId
  requestId : propValue.value.int32Values[0]? = some request.requestId
  removedUserInfo : UserInfoAt propValue.value.int32Values 1 request.removedUserInfo
  usersInfo : UsersInfoAt propValue.value.int32Values 3 request.usersInfo

/-- Where the parts of a request for the associations of a user stand. -/
structure GetAssociationLayout (propValue : VehiclePropValue)
    (request : UserIdentificationGetRequest) : Prop where
  prop : propValue.prop = userIdentificationAssociationId
  requestId : propValue.value.int32Values[0]? = some request.requestId
  userInfo : UserInfoAt propValue.value.int32Values 1 request.userInfo
  number : propValue.value.int32Values[3]? = some request.numberAssociationTypes
  length : (request.associationTypes.length : Int) = request.numberAssociationTypes
  associationTypes : ∀ i type, request.associationTypes[i]? = some type →
    EnumeratorAt UserIdentificationAssociationType.ofInt propValue.value.int32Values (4 + i) type

/-- Where the parts of a request that sets the associations of a user stand. -/
structure SetAssociationLayout (propValue : VehiclePropValue)
    (request : UserIdentificationSetRequest) : Prop where
  prop : propValue.prop = userIdentificationAssociationId
  requestId : propValue.value.int32Values[0]? = some request.requestId
  userInfo : UserInfoAt propValue.value.int32Values 1 request.userInfo
  number : propValue.value.int32Values[3]? = some request.numberAssociations
  length : (request.associations.length : Int) = request.numberAssociations
  associations : ∀ i association, request.associations[i]? = some association →
    EnumeratorAt UserIdentificationAssociationType.ofInt propValue.value.int32Values
        (4 + 2 * i) association.type ∧
      EnumeratorAt UserIdentificationAssociationSetValue.ofInt propValue.value.int32Values
        (4 + 2 * i + 1) association.value

end Layout

section Arithmetic

variable {int32Values : List Int} {pos : Nat} {value : Int}

theorem sizeT_of_lt {n : Nat} (h : n < 2 ^ 64) : sizeT n = n := Nat.mod_eq_of_lt h

theorem IsInt32Vector.bounds (h : IsInt32Vector int32Values)
    (hvalue : int32Values[pos]? = some value) : -2 ^ 31 ≤ value ∧ value < 2 ^ 31 :=
  h.int32 value (List.mem_of_getElem? hvalue)

theorem toSizeT_of_nonneg (h : 0 ≤ value) (hlt : value < 2 ^ 31) :
    (toSizeT value : Int) = value := by
  rw [toSizeT, Int.emod_eq_of_lt h (by omega), Int.toNat_of_nonneg h]

theorem toSizeT_of_neg (h : value < 0) (hge : -2 ^ 31 ≤ value) :
    (toSizeT value : Int) = 2 ^ 64 + value := by
  rw [toSizeT, ← Int.add_emod_right, Int.emod_eq_of_lt (by omega) (by omega),
    Int.toNat_of_nonneg (by omega), add_comm]

theorem lt_length_of_getElem? (h : int32Values[pos]? = some value) : pos < int32Values.length :=
  (List.getElem?_eq_some_iff.mp h).1

end Arithmetic

section Primitives

variable {int32Values : List Int}

/-- A position inside the vector is read. -/
theorem decides_readAt {pos : Nat} (h : pos < int32Values.length) :
    Decides (readAt int32Values pos) fun value => int32Values[pos]? = some value := by
  refine ⟨fun sizes => Or.inl ⟨int32Values[pos], fun value => ?_, ?_⟩⟩
  · simp only [List.getElem?_eq_getElem h, Option.some.injEq]
    exact eq_comm
  · rw [readAt, List.getElem?_eq_getElem h]
    rfl

/-- A requirement decides whether there are enough values. -/
theorem decides_requireValues (atLeast : Nat) :
    Decides (requireValues int32Values atLeast) fun _ => atLeast ≤ int32Values.length := by
  rcases Nat.lt_or_ge int32Values.length atLeast with h | h
  · rw [requireValues, if_pos h]
    exact (Decides.invalid _).congr fun _ => iff_of_false id (Nat.not_le.mpr h)
  · rw [requireValues, if_neg (Nat.not_lt.mpr h)]
    exact (Decides.pure ()).congr fun _ => iff_of_true rfl h

/-- A cast decides whether there is an enumerator with the value. -/
theorem decides_verifyAndCastTo {T : Type} (ofInt : Int → Option T) (value : Int) :
    Decides (verifyAndCastTo ofInt value) fun enumerator => ofInt value = some enumerator := by
  rw [verifyAndCastTo]
  rcases h : ofInt value with _ | enumerator
  · exact (Decides.invalid _).congr fun _ => iff_of_false id fun h => by cases h
  · exact (Decides.pure enumerator).congr fun e => by rw [Option.some.injEq, eq_comm]

/-- Reading an enumerator whose error is put into a context. -/
theorem decides_enumeratorAt {T : Type} (ofInt : Int → Option T)
    (context : RequestError → RequestError) {pos : Nat} (h : pos < int32Values.length) :
    Decides (do
        let value ← readAt int32Values pos
        inContext context (verifyAndCastTo ofInt value))
      (EnumeratorAt ofInt int32Values pos) :=
  (decides_readAt h).bind fun value _ => (decides_verifyAndCastTo ofInt value).inContext

/-- The check decides whether the property is the right one and has enough values. -/
theorem decides_verifyPropValue {isVehicleProperty : Int → Bool} {vehicleProperty : Int}
    (hknown : isVehicleProperty vehicleProperty) (propValue : VehiclePropValue)
    (minInt32Values : Nat) :
    Decides (verifyPropValue isVehicleProperty propValue vehicleProperty minInt32Values)
      fun _ => propValue.prop = vehicleProperty ∧
        minInt32Values ≤ propValue.value.int32Values.length := by
  rw [verifyPropValue]
  split_ifs with hunknown hother
  · refine (Decides.invalid _).congr fun _ => iff_of_false id ?_
    rintro ⟨rfl, -⟩
    rw [hknown] at hunknown
    exact absurd hunknown (by decide)
  · exact (Decides.invalid _).congr fun _ => iff_of_false id fun h => hother h.1
  · exact (decides_requireValues minInt32Values).congr fun _ =>
      (and_iff_right (not_not.mp hother)).symm

end Primitives

section Parsing

variable {int32Values : List Int}

/-- Parsing decides whether a user stands at the position. -/
theorem decides_parseUserInfo {pos : Nat} (hpos : pos + 2 < 2 ^ 64) :
    Decides (parseUserInfo int32Values pos) (UserInfoAt int32Values pos) := by
  unfold parseUserInfo
  rw [sizeT_of_lt hpos, sizeT_of_lt (Nat.lt_of_succ_lt hpos)]
  refine ((decides_requireValues (pos + 2)).bind fun _ hlength =>
    (decides_readAt (by omega)).bind fun userId _ =>
      (decides_readAt (by omega)).bind (M := fun flags user =>
        (⟨userId, flags⟩ : UserInfo) = user ∧ IsUserFlags flags) fun flags _ => ?_).congr
    fun user => ⟨?_, ?_⟩
  · by_cases hflags : maskedBits flags noUserFlags ≠ 0
    · rw [if_pos hflags]
      exact (Decides.invalid _).congr fun _ => iff_of_false id fun h => hflags h.2
    · rw [if_neg hflags]
      exact (Decides.pure _).congr fun _ => ⟨fun h => ⟨h.symm, not_not.mp hflags⟩,
        fun h => h.1.symm⟩
  · rintro ⟨-, -, userId, huser, flags, hflags, rfl, hvalid⟩
    exact ⟨huser, hflags, hvalid⟩
  · intro h
    have hlength := lt_length_of_getElem? h.flags
    exact ⟨(), by omega, user.userId, h.userId, user.flags, h.flags, rfl, h.valid⟩

/-- A length that becomes a size within the limit is a length in `int32_t`. -/
theorem toSizeT_le_iff {limit : Nat} (hlimit : limit < 2 ^ 61) {count : Int}
    (hbounds : -2 ^ 31 ≤ count ∧ count < 2 ^ 31) :
    toSizeT count ≤ limit ↔ 0 ≤ count ∧ count ≤ limit := by
  rcases lt_or_ge count 0 with hneg | hnonneg
  · have := toSizeT_of_neg hneg hbounds.1
    omega
  · have := toSizeT_of_nonneg hnonneg hbounds.2
    omega

/-- The number of users is used before it is checked. -/
theorem parses_existingUsers (hvector : IsInt32Vector int32Values) {pos : Nat} (hpos : pos < 5)
    (currentUser : UserInfo) {numberUsers : Int}
    (hnumber : int32Values[pos + 2]? = some numberUsers) :
    Parses (do
        resize 8 (toSizeT numberUsers)
        let existingUsers ← parseEach (parseExistingUser int32Values pos) 0 (toSizeT numberUsers)
        return (⟨currentUser, numberUsers, existingUsers⟩ : UsersInfo))
      (fun users => users.currentUser = currentUser ∧ users.numberUsers = numberUsers ∧
        (users.existingUsers.length : Int) = numberUsers ∧
        ∀ i user, users.existingUsers[i]? = some user →
          UserInfoAt int32Values (pos + 3 + 2 * i) user)
      int32Values.length (0 ≤ numberUsers ∧ numberUsers ≤ int32Values.length) := by
  have hlimit := hvector.length_lt
  have hsafe := toSizeT_le_iff hlimit (hvector.bounds hnumber)
  refine (Parses.resize (fun hle => ?_) fun hle =>
    (Decides.parseEach (E := fun i => UserInfoAt int32Values (pos + 3 + 2 * i)) 0
      (toSizeT numberUsers) fun i _ hi => ?_).bind fun existingUsers _ =>
        Decides.pure (⟨currentUser, numberUsers, existingUsers⟩ : UsersInfo)).congr hsafe ?_
  · have hbounds := hvector.bounds hnumber
    have hcount := toSizeT_of_nonneg (hsafe.mp hle).1 hbounds.2
    omega
  · rw [parseExistingUser, sizeT_of_lt (by omega)]
    exact (decides_parseUserInfo (by omega)).inContext
  · intro hle users
    have hcount := toSizeT_of_nonneg (hsafe.mp hle).1 (hvector.bounds hnumber).2
    constructor
    · rintro ⟨existingUsers, ⟨hlength, hentries⟩, rfl⟩
      refine ⟨rfl, rfl, by rw [hlength, hcount], fun i user h => ?_⟩
      have := hentries i user h
      rwa [Nat.zero_add] at this
    · rintro ⟨rfl, rfl, hlength, hentries⟩
      refine ⟨users.existingUsers, ⟨by omega, fun i user h => ?_⟩, rfl⟩
      rw [Nat.zero_add]
      exact hentries i user h

/-- A number of users is safe if it is a possible length. -/
theorem parses_parseUsersInfo (hvector : IsInt32Vector int32Values) {pos : Nat}
    (hpos : pos < 5) :
    Parses (parseUsersInfo int32Values pos) (UsersInfoAt int32Values pos) int32Values.length
      ((∃ user, UserInfoAt int32Values pos user) →
        ∀ count, int32Values[pos + 2]? = some count → 0 ≤ count ∧ count ≤ int32Values.length) := by
  unfold parseUsersInfo
  rw [sizeT_of_lt (show pos + 3 < 2 ^ 64 by omega), sizeT_of_lt (show pos + 2 < 2 ^ 64 by omega)]
  have hnumbers : ∀ currentUser, pos + 3 ≤ int32Values.length → Parses _ _ _ _ :=
    fun currentUser hlength =>
      Parses.bind (decides_readAt (show pos + 2 < int32Values.length by omega))
        fun _ => parses_existingUsers hvector hpos currentUser
  refine (Parses.bind (decides_requireValues (pos + 3)) fun _ hlength =>
    Parses.bind (decides_parseUserInfo (by omega)) fun currentUser _ =>
      hnumbers currentUser hlength).congr ⟨?_, ?_⟩ ?_
  · rintro h ⟨user, huser⟩ count hcount
    have hlength := lt_length_of_getElem? hcount
    exact h () (by omega) user huser count hcount
  · intro h _ _ user huser count hcount
    exact h ⟨user, huser⟩ count hcount
  · intro _ users
    constructor
    · rintro ⟨-, -, user, huser, count, hcount, rfl, rfl, hlength, hentries⟩
      exact ⟨huser, hcount, hlength, hentries⟩
    · intro h
      have hlength := lt_length_of_getElem? h.numberUsers
      exact ⟨(), by omega, users.currentUser, h.currentUser, users.numberUsers, h.numberUsers,
        rfl, rfl, h.length, h.existingUsers⟩

/-- Parsing decides whether an association type stands at the position. -/
theorem decides_parseAssociationType {i : Nat} (h : 4 + i < int32Values.length)
    (hlength : int32Values.length < 2 ^ 61) :
    Decides (parseAssociationType int32Values 4 i)
      (EnumeratorAt UserIdentificationAssociationType.ofInt int32Values (4 + i)) := by
  rw [parseAssociationType, sizeT_of_lt (by omega)]
  exact decides_enumeratorAt _ _ h

/-- Parsing decides whether an association stands at the position. -/
theorem decides_parseAssociation {i : Nat} (h : 4 + 2 * i + 1 < int32Values.length)
    (hlength : int32Values.length < 2 ^ 61) :
    Decides (parseAssociation int32Values 4 i) fun association =>
      EnumeratorAt UserIdentificationAssociationType.ofInt int32Values (4 + 2 * i)
          association.type ∧
        EnumeratorAt UserIdentificationAssociationSetValue.ofInt int32Values (4 + 2 * i + 1)
          association.value := by
  rw [parseAssociation, sizeT_of_lt (show 4 + 2 * i < 2 ^ 64 by omega),
    sizeT_of_lt (show 4 + 2 * i + 1 < 2 ^ 64 by omega)]
  refine ((decides_readAt (by omega)).bind fun typeValue _ =>
    (decides_verifyAndCastTo _ typeValue).inContext.bind fun type _ =>
      (decides_readAt (by omega)).bind fun setValue _ =>
        (decides_verifyAndCastTo _ setValue).inContext.bind fun value _ =>
          Decides.pure (⟨type, value⟩ : UserIdentificationSetAssociation)).congr
    fun association => ⟨?_, ?_⟩
  · rintro ⟨typeValue, htypeValue, type, htype, setValue, hsetValue, value, hvalue, rfl⟩
    exact ⟨⟨typeValue, htypeValue, htype⟩, setValue, hsetValue, hvalue⟩
  · rintro ⟨⟨typeValue, htypeValue, htype⟩, setValue, hsetValue, hvalue⟩
    exact ⟨typeValue, htypeValue, _, htype, setValue, hsetValue, _, hvalue, rfl⟩

/-- A list behind a check of its end, which may start again at zero. -/
theorem parses_checkedList {α : Type} {parse : Nat → Parse α} {E : Nat → α → Prop}
    {count : Int} {bound elementSize : Nat} {S : Prop} (hlimit : int32Values.length < 2 ^ 61)
    (hbounds : -2 ^ 31 ≤ count ∧ count < 2 ^ 31)
    (hmax : 2 ^ 31 ≤ (2 ^ 63 - 1) / elementSize ∧ (2 ^ 63 - 1) / elementSize < 2 ^ 63)
    (hparse : bound ≤ int32Values.length → ∀ i : Nat, (i : Int) < count → Decides (parse i) (E i))
    (hbound : ∀ xs : List α, (xs.length : Int) = count →
      (∀ i x, xs[i]? = some x → E i x) → bound ≤ int32Values.length)
    (hsafe : (bound ≤ int32Values.length → 0 ≤ count ∧ count ≤ int32Values.length) ↔ S) :
    Parses (do
        requireValues int32Values bound
        resize elementSize (toSizeT count)
        parseEach parse 0 (toSizeT count))
      (fun xs : List α => (xs.length : Int) = count ∧ ∀ i x, xs[i]? = some x → E i x)
      int32Values.length S := by
  have hle := toSizeT_le_iff hlimit hbounds
  refine (Parses.bind (decides_requireValues bound) fun _ hsize =>
    (Parses.resize (fun h => ?_) fun h => Decides.parseEach (E := E) 0 (toSizeT count)
      fun i _ hi => ?_)).congr ⟨fun h => ?_, fun h _ hsize => ?_⟩ fun h xs => ⟨?_, ?_⟩
  · have := toSizeT_of_nonneg (hle.mp h).1 hbounds.2
    omega
  · refine hparse hsize i ?_
    rcases lt_or_ge count 0 with hneg | hnonneg
    · have := toSizeT_of_neg hneg hbounds.1
      omega
    · have := toSizeT_of_nonneg hnonneg hbounds.2
      omega
  · exact hsafe.mp fun hsize => hle.mp (h () hsize)
  · exact hle.mpr (hsafe.mpr h hsize)
  · rintro ⟨-, hsize, hlength, hentries⟩
    have hcount := toSizeT_of_nonneg (hle.mp (h () hsize)).1 hbounds.2
    refine ⟨by rw [hlength, hcount], fun i x hx => ?_⟩
    have hentry := hentries i x hx
    rwa [Nat.zero_add] at hentry
  · rintro ⟨hlength, hentries⟩
    have hcount := toSizeT_of_nonneg (show 0 ≤ count by omega) hbounds.2
    refine ⟨(), hbound xs hlength hentries, by omega, fun i x hx => ?_⟩
    rw [Nat.zero_add]
    exact hentries i x hx

/-- The sum of the position and the number is checked, which starts again at zero for the numbers
from -4 to -1. -/
theorem parses_parseUserAssociationTypes (hvector : IsInt32Vector int32Values) {count : Int}
    (hcount : int32Values[3]? = some count) :
    Parses (parseUserAssociationTypes int32Values 4 (toSizeT count))
      (fun types => (types.length : Int) = count ∧ ∀ i type, types[i]? = some type →
        EnumeratorAt UserIdentificationAssociationType.ofInt int32Values (4 + i) type)
      int32Values.length (0 ≤ count ∨ count < -4) := by
  have hlimit := hvector.length_lt
  have hbounds := hvector.bounds hcount
  have hfour := lt_length_of_getElem? hcount
  have hsum : sizeT (4 + toSizeT count) ≤ int32Values.length ↔
      0 ≤ count ∧ 4 + count ≤ int32Values.length ∨ -4 ≤ count ∧ count < 0 := by
    rcases lt_or_ge count 0 with hneg | hnonneg
    · have := toSizeT_of_neg hneg hbounds.1
      unfold sizeT
      omega
    · have := toSizeT_of_nonneg hnonneg hbounds.2
      rw [sizeT_of_lt (by omega)]
      omega
  refine parses_checkedList hlimit hbounds (by decide) (fun hsize i hi => ?_)
    (fun types hlength hentries => ?_) (by omega)
  · refine decides_parseAssociationType ?_ hlimit
    omega
  · rw [hsum]
    refine Or.inl ⟨by omega, ?_⟩
    rcases types.eq_nil_or_concat with rfl | ⟨init, last, rfl⟩
    · simp only [List.length_nil] at hlength
      omega
    · obtain ⟨value, hvalue, -⟩ := hentries init.length last (by simp)
      have := lt_length_of_getElem? hvalue
      rw [List.concat_eq_append, List.length_append, List.length_singleton] at hlength
      omega

/-- The same with two elements for each association, for the numbers -2 and -1. -/
theorem parses_parseUserAssociations (hvector : IsInt32Vector int32Values) {count : Int}
    (hcount : int32Values[3]? = some count) :
    Parses (parseUserAssociations int32Values 4 (toSizeT count))
      (fun associations => (associations.length : Int) = count ∧
        ∀ i association, associations[i]? = some association →
          EnumeratorAt UserIdentificationAssociationType.ofInt int32Values (4 + 2 * i)
              association.type ∧
            EnumeratorAt UserIdentificationAssociationSetValue.ofInt int32Values (4 + 2 * i + 1)
              association.value)
      int32Values.length (0 ≤ count ∨ count < -2) := by
  have hlimit := hvector.length_lt
  have hbounds := hvector.bounds hcount
  have hfour := lt_length_of_getElem? hcount
  have hsum : sizeT (4 + sizeT (toSizeT count * 2)) ≤ int32Values.length ↔
      0 ≤ count ∧ 4 + 2 * count ≤ int32Values.length ∨ -2 ≤ count ∧ count < 0 := by
    rcases lt_or_ge count 0 with hneg | hnonneg
    · have := toSizeT_of_neg hneg hbounds.1
      unfold sizeT
      omega
    · have := toSizeT_of_nonneg hnonneg hbounds.2
      rw [sizeT_of_lt (show toSizeT count * 2 < 2 ^ 64 by omega), sizeT_of_lt (by omega)]
      omega
  refine parses_checkedList hlimit hbounds (by decide) (fun hsize i hi => ?_)
    (fun associations hlength hentries => ?_) (by omega)
  · refine decides_parseAssociation ?_ hlimit
    omega
  · rw [hsum]
    refine Or.inl ⟨by omega, ?_⟩
    rcases associations.eq_nil_or_concat with rfl | ⟨init, last, rfl⟩
    · simp only [List.length_nil] at hlength
      omega
    · obtain ⟨-, value, hvalue, -⟩ := hentries init.length last (by simp)
      have := lt_length_of_getElem? hvalue
      rw [List.concat_eq_append, List.length_append, List.length_singleton] at hlength
      omega

end Parsing

section Conditions

/-- The length at a position, if there is one, is that of a list that fits into the vector. -/
def CountWithin (int32Values : List Int) (pos : Nat) : Prop :=
  ∀ count, int32Values[pos]? = some count → 0 ≤ count ∧ count ≤ int32Values.length

/-- The length at a position is not one of the negative numbers down to a bound. -/
def CountOutside (int32Values : List Int) (pos : Nat) (bound : Int) : Prop :=
  ∀ count, int32Values[pos]? = some count → 0 ≤ count ∨ count < bound

/-- The part of a request up to the number of users is in order. -/
structure InitialUserInfoHeader (propValue : VehiclePropValue) : Prop where
  prop : propValue.prop = initialUserInfoId
  requestType : ∃ requestType, EnumeratorAt InitialUserInfoRequestType.ofInt
    propValue.value.int32Values 1 requestType
  currentUser : ∃ user, UserInfoAt propValue.value.int32Values 2 user

/-- The parts of a `SWITCH_USER` request that are read before the list of users. -/
structure SwitchUserHeader (propValue : VehiclePropValue) : Prop where
  prop : propValue.prop = switchUserId
  messageType : ∃ messageType, EnumeratorAt verifyAndCast propValue.value.int32Values 1
    messageType ∧ IsFromAndroid messageType
  targetUser : ∃ user, UserInfoAt propValue.value.int32Values 2 user
  currentUser : ∃ user, UserInfoAt propValue.value.int32Values 4 user

/-- The property is a given one, and two users follow each other after the request id. -/
structure TwoUsersHeader (vehicleProperty : Int) (propValue : VehiclePropValue) : Prop where
  prop : propValue.prop = vehicleProperty
  user : ∃ user, UserInfoAt propValue.value.int32Values 1 user
  currentUser : ∃ user, UserInfoAt propValue.value.int32Values 3 user

/-- The parts of a request about associations that are read before their list. -/
structure AssociationHeader (propValue : VehiclePropValue) : Prop where
  prop : propValue.prop = userIdentificationAssociationId
  userInfo : ∃ user, UserInfoAt propValue.value.int32Values 1 user

end Conditions

section Requests

variable {isVehicleProperty : Int → Bool} {propValue : VehiclePropValue}

/-- An `INITIAL_USER_INFO` request is parsed exactly if it has the layout. -/
theorem parses_toInitialUserInfoRequest (hvector : IsInt32Vector propValue.value.int32Values)
    (hknown : isVehicleProperty initialUserInfoId) :
    Parses (toInitialUserInfoRequest isVehicleProperty propValue)
      (InitialUserInfoLayout propValue) propValue.value.int32Values.length
      (InitialUserInfoHeader propValue → CountWithin propValue.value.int32Values 4) := by
  refine (Parses.bind (decides_verifyPropValue hknown propValue 2) fun _ hprop =>
    Parses.bind (decides_readAt (by omega)) fun requestId _ =>
      Parses.bind (decides_readAt (by omega)) fun typeValue _ =>
        Parses.bind (decides_verifyAndCastTo _ typeValue).inContext fun requestType _ =>
          (parses_parseUsersInfo hvector (show 2 < 5 by decide)).inContext.map
            fun usersInfo => (⟨requestId, requestType, usersInfo⟩ :
              InitialUserInfoRequest)).congr ⟨?_, ?_⟩ ?_
  · intro h hheader count hcount
    obtain ⟨requestType, typeValue, hvalue, htype⟩ := hheader.requestType
    have hlength := lt_length_of_getElem? hcount
    exact h () ⟨hheader.prop, by omega⟩ _ (List.getElem?_eq_getElem (by omega)) typeValue hvalue
      requestType htype hheader.currentUser count hcount
  · intro h _ hprop _ _ typeValue hvalue requestType htype huser
    exact h ⟨hprop.1, ⟨requestType, typeValue, hvalue, htype⟩, huser⟩
  · intro _ request
    constructor
    · rintro ⟨-, hprop, requestId, hid, typeValue, hvalue, requestType, htype, usersInfo, husers,
        rfl⟩
      exact ⟨hprop.1, hid, ⟨typeValue, hvalue, htype⟩, husers⟩
    · intro h
      obtain ⟨typeValue, hvalue, htype⟩ := h.requestType
      have hlength := lt_length_of_getElem? hvalue
      exact ⟨(), ⟨h.prop, by omega⟩, _, h.requestId, typeValue, hvalue, _, htype, _, h.usersInfo,
        rfl⟩

/-- The check decides whether the message comes from Android. -/
theorem decides_requireFromAndroid (messageType : SwitchUserMessageType) :
    Decides (requireFromAndroid messageType) fun _ => IsFromAndroid messageType := by
  by_cases h : messageType ≠ .legacyAndroidSwitch ∧ messageType ≠ .androidSwitch ∧
      messageType ≠ .androidPostSwitch
  · rw [requireFromAndroid, if_pos h]
    refine (Decides.invalid _).congr fun _ => iff_of_false id ?_
    rintro (h' | h' | h')
    · exact h.1 h'
    · exact h.2.1 h'
    · exact h.2.2 h'
  · rw [requireFromAndroid, if_neg h]
    refine (Decides.pure ()).congr fun _ => iff_of_true rfl ?_
    by_contra hnot
    obtain ⟨h₁, h₂⟩ := not_or.mp hnot
    exact h ⟨h₁, not_or.mp h₂⟩

/-- A `SWITCH_USER` request is parsed exactly if it has the layout. -/
theorem parses_toSwitchUserRequest (hvector : IsInt32Vector propValue.value.int32Values)
    (hknown : isVehicleProperty switchUserId) :
    Parses (toSwitchUserRequest isVehicleProperty propValue)
      (SwitchUserLayout propValue) propValue.value.int32Values.length
      (SwitchUserHeader propValue → CountWithin propValue.value.int32Values 6) := by
  refine (Parses.bind (decides_verifyPropValue hknown propValue 2) fun _ hprop =>
    Parses.bind (decides_readAt (by omega)) fun typeValue _ =>
      Parses.bind (decides_verifyAndCastTo _ typeValue).inContext fun messageType _ =>
        Parses.bind (decides_requireFromAndroid messageType) fun _ _ =>
          Parses.bind (decides_readAt (by omega)) fun requestId _ =>
            Parses.bind (decides_parseUserInfo (by decide)).inContext fun targetUser _ =>
              (parses_parseUsersInfo hvector (show 4 < 5 by decide)).inContext.map
                fun usersInfo => (⟨requestId, messageType, targetUser, usersInfo⟩ :
                  SwitchUserRequest)).congr ⟨?_, ?_⟩ ?_
  · intro h hheader count hcount
    obtain ⟨messageType, ⟨typeValue, hvalue, htype⟩, hfrom⟩ := hheader.messageType
    obtain ⟨targetUser, htarget⟩ := hheader.targetUser
    have hlength := lt_length_of_getElem? hcount
    exact h () ⟨hheader.prop, by omega⟩ typeValue hvalue messageType htype () hfrom _
      (List.getElem?_eq_getElem (by omega)) targetUser htarget hheader.currentUser count hcount
  · intro h _ hprop typeValue hvalue messageType htype _ hfrom _ _ targetUser htarget huser
    exact h ⟨hprop.1, ⟨messageType, ⟨typeValue, hvalue, htype⟩, hfrom⟩, ⟨targetUser, htarget⟩,
      huser⟩
  · intro _ request
    constructor
    · rintro ⟨-, hprop, typeValue, hvalue, messageType, htype, -, hfrom, requestId, hid,
        targetUser, htarget, usersInfo, husers, rfl⟩
      exact ⟨hprop.1, hid, ⟨typeValue, hvalue, htype⟩, hfrom, htarget, husers⟩
    · intro h
      obtain ⟨typeValue, hvalue, htype⟩ := h.messageType
      have hlength := lt_length_of_getElem? hvalue
      exact ⟨(), ⟨h.prop, by omega⟩, typeValue, hvalue, _, htype, (), h.fromAndroid, _,
        h.requestId, _, h.targetUser, _, h.usersInfo, rfl⟩

/-- A `CREATE_USER` request is parsed exactly if it has the layout. -/
theorem parses_toCreateUserRequest (hvector : IsInt32Vector propValue.value.int32Values)
    (hknown : isVehicleProperty createUserId) :
    Parses (toCreateUserRequest isVehicleProperty propValue) (CreateUserLayout propValue)
      propValue.value.int32Values.length
      (TwoUsersHeader createUserId propValue → CountWithin propValue.value.int32Values 5) := by
  refine (Parses.bind (decides_verifyPropValue hknown propValue 1) fun _ hprop =>
    Parses.bind (decides_readAt (by omega)) fun requestId _ =>
      Parses.bind (decides_parseUserInfo (by decide)).inContext fun user _ =>
        (parses_parseUsersInfo hvector (show 3 < 5 by decide)).inContext.map
          fun usersInfo => (⟨requestId, user, propValue.value.stringValue, usersInfo⟩ :
            CreateUserRequest)).congr ⟨?_, ?_⟩ ?_
  · intro h hheader count hcount
    obtain ⟨user, huser⟩ := hheader.user
    have hlength := lt_length_of_getElem? hcount
    exact h () ⟨hheader.prop, by omega⟩ _ (List.getElem?_eq_getElem (by omega)) user huser
      hheader.currentUser count hcount
  · intro h _ hprop _ _ user huser hcurrent
    exact h ⟨hprop.1, ⟨user, huser⟩, hcurrent⟩
  · intro _ request
    constructor
    · rintro ⟨-, hprop, requestId, hid, user, huser, usersInfo, husers, rfl⟩
      exact ⟨hprop.1, hid, huser, rfl, husers⟩
    · intro h
      have hlength := lt_length_of_getElem? h.requestId
      refine ⟨(), ⟨h.prop, by omega⟩, _, h.requestId, _, h.newUserInfo, _, h.usersInfo, ?_⟩
      rw [← h.newUserName]

/-- A `REMOVE_USER` request is parsed exactly if it has the layout. -/
theorem parses_toRemoveUserRequest (hvector : IsInt32Vector propValue.value.int32Values)
    (hknown : isVehicleProperty removeUserId) :
    Parses (toRemoveUserRequest isVehicleProperty propValue) (RemoveUserLayout propValue)
      propValue.value.int32Values.length
      (TwoUsersHeader removeUserId propValue → CountWithin propValue.value.int32Values 5) := by
  refine (Parses.bind (decides_verifyPropValue hknown propValue 1) fun _ hprop =>
    Parses.bind (decides_readAt (by omega)) fun requestId _ =>
      Parses.bind (decides_parseUserInfo (by decide)).inContext fun user _ =>
        (parses_parseUsersInfo hvector (show 3 < 5 by decide)).inContext.map
          fun usersInfo => (⟨requestId, user, usersInfo⟩ :
            RemoveUserRequest)).congr ⟨?_, ?_⟩ ?_
  · intro h hheader count hcount
    obtain ⟨user, huser⟩ := hheader.user
    have hlength := lt_length_of_getElem? hcount
    exact h () ⟨hheader.prop, by omega⟩ _ (List.getElem?_eq_getElem (by omega)) user huser
      hheader.currentUser count hcount
  · intro h _ hprop _ _ user huser hcurrent
    exact h ⟨hprop.1, ⟨user, huser⟩, hcurrent⟩
  · intro _ request
    constructor
    · rintro ⟨-, hprop, requestId, hid, user, huser, usersInfo, husers, rfl⟩
      exact ⟨hprop.1, hid, huser, husers⟩
    · intro h
      have hlength := lt_length_of_getElem? h.requestId
      exact ⟨(), ⟨h.prop, by omega⟩, _, h.requestId, _, h.removedUserInfo, _, h.usersInfo, rfl⟩

/-- A request for associations is parsed exactly if it has the layout. -/
theorem parses_toUserIdentificationGetRequest (hvector : IsInt32Vector propValue.value.int32Values)
    (hknown : isVehicleProperty userIdentificationAssociationId) :
    Parses (toUserIdentificationGetRequest isVehicleProperty propValue)
      (GetAssociationLayout propValue) propValue.value.int32Values.length
      (AssociationHeader propValue → CountOutside propValue.value.int32Values 3 (-4)) := by
  refine (Parses.bind (decides_verifyPropValue hknown propValue 4) fun _ hprop =>
    Parses.bind (decides_readAt (by omega)) fun requestId _ =>
      Parses.bind (decides_parseUserInfo (by decide)).inContext fun user _ =>
        Parses.bind (decides_readAt (show 3 < _ by omega)) fun count hcount =>
          (parses_parseUserAssociationTypes hvector hcount).inContext.map
            fun associationTypes => (⟨requestId, user, count, associationTypes⟩ :
              UserIdentificationGetRequest)).congr ⟨?_, ?_⟩ ?_
  · intro h hheader count hcount
    obtain ⟨user, huser⟩ := hheader.userInfo
    have hlength := lt_length_of_getElem? hcount
    exact h () ⟨hheader.prop, by omega⟩ _ (List.getElem?_eq_getElem (by omega)) user huser
      count hcount
  · intro h _ hprop _ _ user huser count hcount
    exact h ⟨hprop.1, ⟨user, huser⟩⟩ count hcount
  · intro _ request
    constructor
    · rintro ⟨-, hprop, requestId, hid, user, huser, count, hcount, associationTypes,
        ⟨hlength, hentries⟩, rfl⟩
      exact ⟨hprop.1, hid, huser, hcount, hlength, hentries⟩
    · intro h
      have hlength := lt_length_of_getElem? h.number
      exact ⟨(), ⟨h.prop, by omega⟩, _, h.requestId, _, h.userInfo, _, h.number, _,
        ⟨h.length, h.associationTypes⟩, rfl⟩

/-- A request that sets associations is parsed exactly if it has the layout. -/
theorem parses_toUserIdentificationSetRequest (hvector : IsInt32Vector propValue.value.int32Values)
    (hknown : isVehicleProperty userIdentificationAssociationId) :
    Parses (toUserIdentificationSetRequest isVehicleProperty propValue)
      (SetAssociationLayout propValue) propValue.value.int32Values.length
      (AssociationHeader propValue → CountOutside propValue.value.int32Values 3 (-2)) := by
  refine (Parses.bind (decides_verifyPropValue hknown propValue 4) fun _ hprop =>
    Parses.bind (decides_readAt (by omega)) fun requestId _ =>
      Parses.bind (decides_parseUserInfo (by decide)).inContext fun user _ =>
        Parses.bind (decides_readAt (show 3 < _ by omega)) fun count hcount =>
          (parses_parseUserAssociations hvector hcount).inContext.map
            fun associations => (⟨requestId, user, count, associations⟩ :
              UserIdentificationSetRequest)).congr ⟨?_, ?_⟩ ?_
  · intro h hheader count hcount
    obtain ⟨user, huser⟩ := hheader.userInfo
    have hlength := lt_length_of_getElem? hcount
    exact h () ⟨hheader.prop, by omega⟩ _ (List.getElem?_eq_getElem (by omega)) user huser
      count hcount
  · intro h _ hprop _ _ user huser count hcount
    exact h ⟨hprop.1, ⟨user, huser⟩⟩ count hcount
  · intro _ request
    constructor
    · rintro ⟨-, hprop, requestId, hid, user, huser, count, hcount, associations,
        ⟨hlength, hentries⟩, rfl⟩
      exact ⟨hprop.1, hid, huser, hcount, hlength, hentries⟩
    · intro h
      have hlength := lt_length_of_getElem? h.number
      exact ⟨(), ⟨h.prop, by omega⟩, _, h.requestId, _, h.userInfo, _, h.number, _,
        ⟨h.length, h.associations⟩, rfl⟩

end Requests

/-- The properties of user management. -/
def userProperties : List Int :=
  [initialUserInfoId, switchUserId, createUserId, removeUserId, userIdentificationAssociationId]

/-- Each of the six functions reads, sizes and decides as documented if and only if it does not
come to a length that it uses unchecked. -/
theorem userRequests_parseExactly_iff (isVehicleProperty : Int → Bool)
    (hknown : ∀ prop ∈ userProperties, isVehicleProperty prop) (propValue : VehiclePropValue)
    (hvector : IsInt32Vector propValue.value.int32Values) :
    (ParsesExactly (toInitialUserInfoRequest isVehicleProperty propValue)
        (InitialUserInfoLayout propValue) propValue.value.int32Values.length ↔
      (InitialUserInfoHeader propValue → CountWithin propValue.value.int32Values 4)) ∧
    (ParsesExactly (toSwitchUserRequest isVehicleProperty propValue)
        (SwitchUserLayout propValue) propValue.value.int32Values.length ↔
      (SwitchUserHeader propValue → CountWithin propValue.value.int32Values 6)) ∧
    (ParsesExactly (toCreateUserRequest isVehicleProperty propValue)
        (CreateUserLayout propValue) propValue.value.int32Values.length ↔
      (TwoUsersHeader createUserId propValue → CountWithin propValue.value.int32Values 5)) ∧
    (ParsesExactly (toRemoveUserRequest isVehicleProperty propValue)
        (RemoveUserLayout propValue) propValue.value.int32Values.length ↔
      (TwoUsersHeader removeUserId propValue → CountWithin propValue.value.int32Values 5)) ∧
    (ParsesExactly (toUserIdentificationGetRequest isVehicleProperty propValue)
        (GetAssociationLayout propValue) propValue.value.int32Values.length ↔
      (AssociationHeader propValue → CountOutside propValue.value.int32Values 3 (-4))) ∧
    (ParsesExactly (toUserIdentificationSetRequest isVehicleProperty propValue)
        (SetAssociationLayout propValue) propValue.value.int32Values.length ↔
      (AssociationHeader propValue → CountOutside propValue.value.int32Values 3 (-2))) := by
  refine ⟨?_, ?_, ?_, ?_, ?_, ?_⟩
  · exact (parses_toInitialUserInfoRequest hvector (hknown _ (by decide))).parsesExactly_iff
  · exact (parses_toSwitchUserRequest hvector (hknown _ (by decide))).parsesExactly_iff
  · exact (parses_toCreateUserRequest hvector (hknown _ (by decide))).parsesExactly_iff
  · exact (parses_toRemoveUserRequest hvector (hknown _ (by decide))).parsesExactly_iff
  · exact (parses_toUserIdentificationGetRequest hvector (hknown _ (by decide))).parsesExactly_iff
  · exact (parses_toUserIdentificationSetRequest hvector (hknown _ (by decide))).parsesExactly_iff

section Example

/-- A request of a property with given values. -/
def userRequest (prop : Int) (int32Values : List Int) : VehiclePropValue :=
  { prop := prop, value := { int32Values := int32Values } }

/-- The first boot with one user. -/
theorem firstBoot_parsesExactly :
    ParsesExactly (toInitialUserInfoRequest (· ∈ userProperties)
        (userRequest initialUserInfoId [7, 1, 10, 1, 1, 10, 1]))
      (InitialUserInfoLayout (userRequest initialUserInfoId [7, 1, 10, 1, 1, 10, 1])) 7 := by
  refine (userRequests_parseExactly_iff (· ∈ userProperties)
    (fun prop h => decide_eq_true h) _ ⟨by decide, by decide⟩).1.mpr fun _ count hcount => ?_
  cases hcount
  exact ⟨by decide, by decide⟩

/-- A thousand users are announced in a vector of five integers, and minus one association in a
vector of four. -/
theorem announced_lists_sized :
    (outcome (toInitialUserInfoRequest (· ∈ userProperties)
        (userRequest initialUserInfoId [7, 1, 10, 1, 1000])) []).2 = [1000] ∧
      outcome (toUserIdentificationGetRequest (· ∈ userProperties)
          (userRequest userIdentificationAssociationId [7, 10, 1, -1])) [] =
        (.error .lengthError, [2 ^ 64 - 1]) ∧
      ¬ ParsesExactly (toInitialUserInfoRequest (· ∈ userProperties)
          (userRequest initialUserInfoId [7, 1, 10, 1, 1000]))
        (InitialUserInfoLayout (userRequest initialUserInfoId [7, 1, 10, 1, 1000])) 5 := by
  have hsized : (outcome (toInitialUserInfoRequest (· ∈ userProperties)
      (userRequest initialUserInfoId [7, 1, 10, 1, 1000])) []).2 = [1000] := by rfl
  refine ⟨hsized, by rfl, fun h => ?_⟩
  have hle := h.sizes 1000 (by rw [hsized]; exact List.mem_singleton_self _)
  omega

end Example

end VhalCore.FakeHardware.UserHalHelper
