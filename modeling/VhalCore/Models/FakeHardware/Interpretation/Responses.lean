import VhalCore.Models.FakeHardware.Native.FakeUserHal

/-!
# The stored responses of the user HAL

A response is stored only from a request for the same property that has a request id. So a
response can always take the request id of a later request: no call of the user HAL reads
or assigns an element that does not exist, and a value that it gives back is of the property
and the area of the request.
-/

namespace VhalCore.FakeHardware

namespace FakeUserHal

/-- A stored response is of the property and has a place for the request id. -/
def Answers (propId : Int) (response : Option VehiclePropValue) : Prop :=
  ∀ r, response = some r → r.prop = propId ∧ r.value.int32Values ≠ []

/-- Every stored response is one to its own property. -/
structure WellFormed (hal : FakeUserHal) : Prop where
  initialUser : Answers initialUserInfoId hal.mInitialUserResponseFromCmd
  switchUser : Answers switchUserId hal.mSwitchUserResponseFromCmd
  createUser : Answers createUserId hal.mCreateUserResponseFromCmd
  association : Answers userIdentificationAssociationId
    hal.mSetUserIdentificationAssociationResponseFromCmd

/-- The user HALs that are reached by requests. -/
inductive Reachable : FakeUserHal → Prop
  | start : Reachable {}
  | call {hal after : FakeUserHal} {now : Int} {value : VehiclePropValue}
      {outcome : UserHalOutcome} : Reachable hal →
      hal.onSetProperty now value = .ok (outcome, after) → Reachable after

/-- What a call does: it is defined, keeps the responses well-formed, and a value that it
gives back is of the property and of the area of the request. -/
def Regular (value : VehiclePropValue) (result : Except Fault (UserHalOutcome × FakeUserHal)) :
    Prop :=
  ∃ outcome after, result = .ok (outcome, after) ∧ after.WellFormed ∧
    ∀ w, outcome = .ok (some w) → w.prop = value.prop ∧ w.areaId = value.areaId

variable {hal : FakeUserHal} {value : VehiclePropValue} {propId : Int}

theorem answers_none (propId : Int) : Answers propId none := by
  intro r h
  cases h

/-- A value of the property with a request identity answers a request. -/
theorem answers_some (hprop : value.prop = propId) {requestId : Int}
    (hid : getRequestId value = .ok requestId) : Answers propId (some value) := by
  rintro r ⟨⟩
  refine ⟨hprop, fun hempty => ?_⟩
  rw [getRequestId, hempty] at hid
  cases hid

/-- A response can take the request id. -/
theorem sendUserHalResponse_of_answers {response : VehiclePropValue}
    (h : Answers propId (some response)) (requestId : Int) :
    ∃ outcome, sendUserHalResponse response requestId = .ok outcome ∧
      ∀ w, outcome = .ok (some w) → w.prop = propId ∧ w.areaId = 0 := by
  obtain ⟨hprop, hne⟩ := h response rfl
  have hpos : 0 < response.value.int32Values.length := List.length_pos_iff.mpr hne
  unfold sendUserHalResponse
  split
  · refine ⟨_, by simp only [assignAt, if_pos hpos]; rfl, ?_⟩
    rintro w ⟨⟩
    exact ⟨hprop, rfl⟩
  · refine ⟨_, by simp only [assignAt, if_pos hpos]; rfl, ?_⟩
    rintro w ⟨⟩
    exact ⟨hprop, rfl⟩
  · exact ⟨_, rfl, fun w hw => by cases hw⟩
  · exact ⟨_, rfl, fun w hw => by cases hw⟩

/-- A call that sends a stored response. -/
theorem regular_of_response {stored : Option VehiclePropValue} {response : VehiclePropValue}
    {after : FakeUserHal} (hanswers : Answers propId stored) (hprop : value.prop = propId)
    (harea : value.areaId = 0) (hstored : stored = some response) (hafter : after.WellFormed)
    (requestId : Int) :
    Regular value (do
      let outcome ← sendUserHalResponse response requestId
      return (outcome, after)) := by
  rw [hstored] at hanswers
  obtain ⟨outcome, hsend, hout⟩ := sendUserHalResponse_of_answers hanswers requestId
  refine ⟨outcome, after, by simp only [hsend]; rfl, hafter, fun w hw => ?_⟩
  exact ⟨(hout w hw).1.trans hprop.symm, (hout w hw).2.trans harea.symm⟩

theorem regular_error (h : hal.WellFormed) (e : UserHalError) :
    Regular value (.ok (.error e, hal)) := ⟨_, _, rfl, h, nofun⟩

theorem regular_none (h : hal.WellFormed) : Regular value (.ok (.ok none, hal)) :=
  ⟨_, _, rfl, h, nofun⟩

/-- A response of the property and the area of the request is regular. -/
theorem regular_some (h : hal.WellFormed) {w : VehiclePropValue} (hprop : w.prop = value.prop)
    (harea : w.areaId = value.areaId) :
    Regular value (.ok (.ok (some w), hal)) := by
  refine ⟨_, _, rfl, h, ?_⟩
  rintro x ⟨⟩
  exact ⟨hprop, harea⟩

/-- The rule for the initial user responds regularly. -/
theorem onSetInitialUserInfoResponse_regular (h : hal.WellFormed)
    (hprop : value.prop = initialUserInfoId) (now : Int) :
    Regular value (hal.onSetInitialUserInfoResponse now value) := by
  unfold onSetInitialUserInfoResponse
  rcases hid : getRequestId value with e | requestId
  · exact regular_error h e
  · simp only
    split
    · exact regular_none { h with initialUser := answers_some hprop hid }
    · rename_i hzero
      have harea := not_not.mp hzero
      split
      · refine regular_of_response h.initialUser hprop harea ‹_› ?_ requestId
        exact { h with initialUser := answers_none _ }
      · exact regular_some h hprop.symm harea.symm

/-- The rule for switching users responds regularly. -/
theorem onSetSwitchUserResponse_regular (h : hal.WellFormed) (hprop : value.prop = switchUserId)
    (now : Int) : Regular value (hal.onSetSwitchUserResponse now value) := by
  unfold onSetSwitchUserResponse
  rcases hid : getRequestId value with e | requestId
  · exact regular_error h e
  · rcases getSwitchUserMessageType value with e | messageType
    · exact regular_error h e
    · simp only
      split
      · split
        · exact regular_some h rfl rfl
        · exact regular_none { h with switchUser := answers_some hprop hid }
      · rename_i hzero
        have harea := not_not.mp hzero
        split
        · refine regular_of_response h.switchUser hprop harea ‹_› ?_ requestId
          exact { h with switchUser := answers_none _ }
        · split
          · exact regular_none h
          · exact regular_some h hprop.symm harea.symm

/-- The rule for creating users responds regularly. -/
theorem onSetCreateUserResponse_regular (h : hal.WellFormed) (hprop : value.prop = createUserId)
    (now : Int) : Regular value (hal.onSetCreateUserResponse now value) := by
  unfold onSetCreateUserResponse
  rcases hid : getRequestId value with e | requestId
  · exact regular_error h e
  · simp only
    split
    · exact regular_none { h with createUser := answers_some hprop hid }
    · rename_i hzero
      have harea := not_not.mp hzero
      split
      · refine regular_of_response h.createUser hprop harea ‹_› ?_ requestId
        exact { h with createUser := answers_none _ }
      · exact regular_some h hprop.symm harea.symm

/-- The rule for associations responds regularly. -/
theorem onSetUserIdentificationAssociation_regular (h : hal.WellFormed)
    (hprop : value.prop = userIdentificationAssociationId) :
    Regular value (hal.onSetUserIdentificationAssociation value) := by
  unfold onSetUserIdentificationAssociation
  rcases hid : getRequestId value with e | requestId
  · exact regular_error h e
  · simp only
    split
    · exact regular_none { h with association := answers_some hprop hid }
    · rename_i hzero
      have harea := not_not.mp hzero
      split
      · exact regular_of_response h.association hprop harea ‹_› h requestId
      · exact regular_error h _

/-- A call on well-formed responses is regular. -/
theorem onSetProperty_regular (h : hal.WellFormed) (now : Int) (value : VehiclePropValue) :
    Regular value (hal.onSetProperty now value) := by
  unfold onSetProperty
  split
  · exact onSetInitialUserInfoResponse_regular h ‹_› now
  · split
    · exact onSetSwitchUserResponse_regular h ‹_› now
    · split
      · exact onSetCreateUserResponse_regular h ‹_› now
      · split
        · exact regular_none h
        · split
          · exact onSetUserIdentificationAssociation_regular h ‹_›
          · exact regular_error h _

/-- A reachable user HAL is well formed. -/
theorem Reachable.wellFormed (h : hal.Reachable) : hal.WellFormed := by
  induction h with
  | start => exact ⟨answers_none _, answers_none _, answers_none _, answers_none _⟩
  | call _ hcall ih =>
      obtain ⟨outcome, after, hresult, hwell, _⟩ := onSetProperty_regular ih _ _
      cases hresult.symm.trans hcall
      exact hwell

end FakeUserHal

end VhalCore.FakeHardware
