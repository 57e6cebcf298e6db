import VhalCore.Core.Execution
import VhalCore.Models.FakeHardware.Interpretation.Responses

/-!
# The slots of the user HAL

Each of four properties has a slot for a response. A call for one of them fails its
validation, stores a response, gives a request of the vehicle back, or is a request of Android
that is answered from the slot. These lemmas say what each of them does to the slots.
-/

namespace VhalCore.FakeHardware

/-- The properties with a slot. -/
inductive UserProperty where
  | initialUserInfo
  | switchUser
  | createUser
  | association
  deriving DecidableEq, Repr

namespace UserProperty

open FakeUserHal

/-- The property of a kind of user request. -/
def propId : UserProperty → Int
  | initialUserInfo => initialUserInfoId
  | switchUser => switchUserId
  | createUser => createUserId
  | association => userIdentificationAssociationId

/-- The response that a command has stored for a kind of request. -/
def slot (hal : FakeUserHal) : UserProperty → Option VehiclePropValue
  | initialUserInfo => hal.mInitialUserResponseFromCmd
  | switchUser => hal.mSwitchUserResponseFromCmd
  | createUser => hal.mCreateUserResponseFromCmd
  | association => hal.mSetUserIdentificationAssociationResponseFromCmd

/-- Stores a response for a kind of request, or forgets it. -/
def store (response : Option VehiclePropValue) (hal : FakeUserHal) : UserProperty → FakeUserHal
  | initialUserInfo => { hal with mInitialUserResponseFromCmd := response }
  | switchUser => { hal with mSwitchUserResponseFromCmd := response }
  | createUser => { hal with mCreateUserResponseFromCmd := response }
  | association => { hal with mSetUserIdentificationAssociationResponseFromCmd := response }

@[simp] theorem slot_store (p : UserProperty) (response : Option VehiclePropValue)
    (hal : FakeUserHal) : p.slot (p.store response hal) = response := by
  cases p <;> rfl

theorem slot_store_of_ne {p q : UserProperty} (h : q ≠ p) (response : Option VehiclePropValue)
    (hal : FakeUserHal) : q.slot (p.store response hal) = q.slot hal := by
  cases p <;> cases q <;> first | rfl | exact absurd rfl h

/-- The state after a request of Android: the association stays for the reads. -/
def spend (p : UserProperty) (hal : FakeUserHal) : FakeUserHal :=
  if p = association then hal else p.store none hal

/-- A write of the property that passes the validation. -/
structure Valid (p : UserProperty) (value : VehiclePropValue) (requestId : Int) : Prop where
  prop : value.prop = p.propId
  requestId : getRequestId value = .ok requestId
  messageType : p = switchUser → ∃ m, getSwitchUserMessageType value = .ok m

/-- A write of the property by the vehicle that stores a response. -/
structure Stores (p : UserProperty) (value : VehiclePropValue) : Prop where
  area : value.areaId ≠ 0
  valid : ∃ requestId, p.Valid value requestId
  noRequest : p = switchUser → getSwitchUserMessageType value ≠ .ok .vehicleRequest

/-- A write of the property by Android. -/
structure AndroidSet (p : UserProperty) (value : VehiclePropValue) (requestId : Int) : Prop where
  area : value.areaId = 0
  valid : p.Valid value requestId

/-- The response with a request id, as it is sent. -/
def withRequestId (requestId : Int) (response : VehiclePropValue) : VehiclePropValue :=
  { response with
    areaId := 0
    value := { response.value with
      int32Values := requestId :: response.value.int32Values.tail } }

/-- The answer from a stored response: its area says with which request id it is sent, if it
is sent at all. -/
def answerFrom (response : VehiclePropValue) (requestId : Int) : UserHalOutcome :=
  if response.areaId = 1 then .ok (some (withRequestId requestId response))
  else if response.areaId = 2 then .ok (some (withRequestId (-requestId) response))
  else if response.areaId = 3 then .error .noEvent
  else .error .invalidAction

/-- The answer without a stored response. -/
def defaultAnswer (now : Int) (value : VehiclePropValue) (requestId : Int) :
    UserProperty → UserHalOutcome
  | initialUserInfo => .ok (some (initialUserInfoResponse now requestId))
  | switchUser =>
      if getSwitchUserMessageType value = .ok .legacyAndroidSwitch ∨
          getSwitchUserMessageType value = .ok .androidPostSwitch then .ok none
      else .ok (some (switchUserResponse now requestId))
  | createUser => .ok (some (createUserResponse now requestId))
  | association => .error .notSetByLshal

/-- The answer to a request of Android. -/
def answer (now : Int) (value : VehiclePropValue) (requestId : Int) (hal : FakeUserHal)
    (p : UserProperty) : UserHalOutcome :=
  match p.slot hal with
  | some response => answerFrom response requestId
  | none => p.defaultAnswer now value requestId

theorem assignAt_head {α : Type} {xs : List α} (h : xs ≠ []) (x : α) :
    assignAt xs 0 x = .ok (x :: xs.tail) := by
  cases xs with
  | nil => exact absurd rfl h
  | cons y ys => rfl

/-- A response with a place for the request id is sent as the answer. -/
theorem sendUserHalResponse_eq {response : VehiclePropValue}
    (h : response.value.int32Values ≠ []) (requestId : Int) :
    sendUserHalResponse response requestId = .ok (answerFrom response requestId) := by
  unfold sendUserHalResponse answerFrom
  split
  · rename_i harea
    rw [harea]
    simp only [assignAt_head h]
    rfl
  · rename_i harea
    rw [harea]
    simp only [assignAt_head h]
    rfl
  · rename_i harea
    rw [harea]
    rfl
  · rename_i h₁ h₂ h₃
    rw [if_neg h₁, if_neg h₂, if_neg h₃]

/-- The four outcomes of a write of a property. -/
inductive SetOutcome (p : UserProperty) (now : Int) (value : VehiclePropValue)
    (hal : FakeUserHal) : UserHalOutcome × FakeUserHal → Prop
  | invalid (hinvalid : ∀ requestId, ¬p.Valid value requestId) (e : UserHalError) :
      SetOutcome p now value hal (.error e, hal)
  | stored (hstores : p.Stores value) :
      SetOutcome p now value hal (.ok none, p.store (some value) hal)
  | vehicleRequest (requestId : Int) (hvalid : p.Valid value requestId)
      (hswitch : p = switchUser) (harea : value.areaId ≠ 0)
      (hrequest : getSwitchUserMessageType value = .ok .vehicleRequest) :
      SetOutcome p now value hal (.ok (some value), hal)
  | android (requestId : Int) (hset : p.AndroidSet value requestId) :
      SetOutcome p now value hal (p.answer now value requestId hal, p.spend hal)

/-- A write that is defined, with one of the four outcomes. -/
def Decided (p : UserProperty) (now : Int) (value : VehiclePropValue) (hal : FakeUserHal)
    (result : Except Fault (UserHalOutcome × FakeUserHal)) : Prop :=
  ∃ r, result = .ok r ∧ SetOutcome p now value hal r

variable {hal : FakeUserHal} {value : VehiclePropValue} {now requestId : Int}

/-- An answer from a slot that is emptied. -/
theorem decided_from_slot {p : UserProperty} {response : VehiclePropValue} {after : FakeUserHal}
    (hset : p.AndroidSet value requestId) (hslot : p.slot hal = some response)
    (hplace : response.value.int32Values ≠ []) (hafter : after = p.spend hal) :
    p.Decided now value hal (do
      let outcome ← sendUserHalResponse response requestId
      return (outcome, after)) := by
  have hanswer : p.SetOutcome now value hal (p.answer now value requestId hal, p.spend hal) :=
    .android requestId hset
  rw [answer, hslot] at hanswer
  refine ⟨_, ?_, hanswer⟩
  rw [sendUserHalResponse_eq hplace, hafter]
  rfl

/-- An answer without a response leaves the slot empty. -/
theorem decided_default {p : UserProperty} (hset : p.AndroidSet value requestId)
    (hslot : p.slot hal = none) :
    p.Decided now value hal (.ok (p.defaultAnswer now value requestId, hal)) := by
  have hanswer : p.SetOutcome now value hal (p.answer now value requestId hal, p.spend hal) :=
    .android requestId hset
  have hspend : p.spend hal = hal := by
    rcases hal with ⟨_, _, _, _⟩
    cases p <;> simp_all [spend, store, slot]
  rw [answer, hslot, hspend] at hanswer
  exact ⟨_, rfl, hanswer⟩

/-- The rule for the initial user decides its requests. -/
theorem onSetInitialUserInfoResponse_decided (h : hal.WellFormed)
    (hprop : value.prop = initialUserInfoId) :
    initialUserInfo.Decided now value hal (hal.onSetInitialUserInfoResponse now value) := by
  unfold onSetInitialUserInfoResponse
  rcases hid : getRequestId value with e | requestId
  · refine ⟨_, rfl, .invalid (fun requestId hvalid => ?_) e⟩
    cases hid.symm.trans hvalid.requestId
  · have hvalid : initialUserInfo.Valid value requestId := ⟨hprop, hid, nofun⟩
    simp only
    split
    · exact ⟨_, rfl, .stored ⟨‹_›, ⟨requestId, hvalid⟩, nofun⟩⟩
    · rename_i hzero
      have hset : initialUserInfo.AndroidSet value requestId := ⟨not_not.mp hzero, hvalid⟩
      split
      · exact decided_from_slot hset ‹_› (h.initialUser _ ‹_›).2 rfl
      · exact decided_default hset ‹_›

/-- The rule for switching users decides its requests. -/
theorem onSetSwitchUserResponse_decided (h : hal.WellFormed)
    (hprop : value.prop = switchUserId) :
    switchUser.Decided now value hal (hal.onSetSwitchUserResponse now value) := by
  unfold onSetSwitchUserResponse
  rcases hid : getRequestId value with e | requestId
  · refine ⟨_, rfl, .invalid (fun requestId hvalid => ?_) e⟩
    cases hid.symm.trans hvalid.requestId
  · simp only
    rcases htype : getSwitchUserMessageType value with e | messageType
    · refine ⟨_, rfl, .invalid (fun requestId hvalid => ?_) e⟩
      obtain ⟨m, hm⟩ := hvalid.messageType rfl
      cases htype.symm.trans hm
    · have hvalid : switchUser.Valid value requestId := ⟨hprop, hid, fun _ => ⟨_, htype⟩⟩
      simp only
      split
      · rename_i harea
        split
        · rename_i hrequest
          exact ⟨_, rfl, .vehicleRequest requestId hvalid rfl harea (hrequest ▸ htype)⟩
        · rename_i hrequest
          refine ⟨_, rfl, .stored ⟨harea, ⟨requestId, hvalid⟩, fun _ hvehicle => hrequest ?_⟩⟩
          exact Except.ok.inj (htype.symm.trans hvehicle)
      · rename_i hzero
        have hset : switchUser.AndroidSet value requestId := ⟨not_not.mp hzero, hvalid⟩
        split
        · exact decided_from_slot hset ‹_› (h.switchUser _ ‹_›).2 rfl
        · have hdefault := @decided_default hal value now requestId _ hset ‹_›
          simp only [defaultAnswer, htype, Except.ok.injEq] at hdefault
          split
          · rename_i hignored
            rwa [if_pos hignored] at hdefault
          · rename_i hanswered
            rwa [if_neg hanswered] at hdefault

/-- The rule for creating users decides its requests. -/
theorem onSetCreateUserResponse_decided (h : hal.WellFormed)
    (hprop : value.prop = createUserId) :
    createUser.Decided now value hal (hal.onSetCreateUserResponse now value) := by
  unfold onSetCreateUserResponse
  rcases hid : getRequestId value with e | requestId
  · refine ⟨_, rfl, .invalid (fun requestId hvalid => ?_) e⟩
    cases hid.symm.trans hvalid.requestId
  · have hvalid : createUser.Valid value requestId := ⟨hprop, hid, nofun⟩
    simp only
    split
    · exact ⟨_, rfl, .stored ⟨‹_›, ⟨requestId, hvalid⟩, nofun⟩⟩
    · rename_i hzero
      have hset : createUser.AndroidSet value requestId := ⟨not_not.mp hzero, hvalid⟩
      split
      · exact decided_from_slot hset ‹_› (h.createUser _ ‹_›).2 rfl
      · exact decided_default hset ‹_›

/-- The rule for associations decides its requests. -/
theorem onSetUserIdentificationAssociation_decided (h : hal.WellFormed)
    (hprop : value.prop = userIdentificationAssociationId) :
    association.Decided now value hal (hal.onSetUserIdentificationAssociation value) := by
  unfold onSetUserIdentificationAssociation
  rcases hid : getRequestId value with e | requestId
  · refine ⟨_, rfl, .invalid (fun requestId hvalid => ?_) e⟩
    cases hid.symm.trans hvalid.requestId
  · have hvalid : association.Valid value requestId := ⟨hprop, hid, nofun⟩
    simp only
    split
    · exact ⟨_, rfl, .stored ⟨‹_›, ⟨requestId, hvalid⟩, nofun⟩⟩
    · rename_i hzero
      have hset : association.AndroidSet value requestId := ⟨not_not.mp hzero, hvalid⟩
      split
      · exact decided_from_slot hset ‹_› (h.association _ ‹_›).2 rfl
      · exact decided_default hset ‹_›

/-- Every write of one of the properties has one of the four outcomes. -/
theorem onSetProperty_decided (h : hal.WellFormed) {p : UserProperty}
    (hprop : value.prop = p.propId) (now : Int) :
    p.Decided now value hal (hal.onSetProperty now value) := by
  cases p with
  | initialUserInfo =>
      rw [onSetProperty, hprop]
      exact onSetInitialUserInfoResponse_decided h hprop
  | switchUser =>
      rw [onSetProperty, hprop]
      exact onSetSwitchUserResponse_decided h hprop
  | createUser =>
      rw [onSetProperty, hprop]
      exact onSetCreateUserResponse_decided h hprop
  | association =>
      rw [onSetProperty, hprop]
      exact onSetUserIdentificationAssociation_decided h hprop

/-- A write of any other property stores nothing. -/
theorem onSetProperty_other (hother : ∀ p : UserProperty, value.prop ≠ p.propId) (now : Int) :
    ∃ outcome, hal.onSetProperty now value = .ok (outcome, hal) := by
  have hinitial : value.prop ≠ initialUserInfoId := hother initialUserInfo
  have hswitch : value.prop ≠ switchUserId := hother switchUser
  have hcreate : value.prop ≠ createUserId := hother createUser
  have hassociation : value.prop ≠ userIdentificationAssociationId := hother association
  simp only [onSetProperty, hinitial, hswitch, hcreate, hassociation, if_false]
  split <;> exact ⟨_, rfl⟩

end UserProperty

end VhalCore.FakeHardware
