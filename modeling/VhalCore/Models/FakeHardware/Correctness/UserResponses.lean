import VhalCore.Models.FakeHardware.Interpretation.ResponseSlots

/-!
# Responses of the user HAL are used for the right requests

A response that is stored for one of three properties answers the next request of Android for
that property and no other one; that for the association answers all requests until another
takes its place. The steps of a run are the writes and reads of all properties.
-/

namespace VhalCore.FakeHardware

open FakeUserHal UserProperty

/-- A call of a run: it is defined, and has an answer. -/
def HalStep (hal : FakeUserHal) (call : UserHalCall) (after : FakeUserHal) : Prop :=
  ∃ answer, call.step hal = .ok (answer, after)

/-- The calls that put a response into a slot. -/
def UserHalCall.StoresFor (p : UserProperty) : UserHalCall → Prop
  | .set _ value => p.Stores value
  | .get _ => False

/-- The calls that take the response out of a slot; reads and requests leave the association. -/
def UserHalCall.TakesFor (p : UserProperty) : UserHalCall → Prop
  | .set _ value => p ≠ .association ∧ ∃ requestId, p.AndroidSet value requestId
  | .get _ => False

/-- The writes of a property that fail its validation. -/
def UserHalCall.Invalid (p : UserProperty) : UserHalCall → Prop
  | .set _ value => value.prop = p.propId ∧ ∀ requestId, ¬p.Valid value requestId
  | .get _ => False

/-- The property that a call is for. -/
def UserHalCall.prop : UserHalCall → Int
  | .set _ value => value.prop
  | .get value => value.prop

/-- A run from the start. -/
abbrev HalRun (calls : List UserHalCall) (hal : FakeUserHal) : Prop := Path HalStep {} calls hal

/-- How the stored responses are used. -/
structure ResponsesUsedOnce : Prop where
  /-- No call reads or assigns an element that does not exist. -/
  defined : ∀ calls hal, HalRun calls hal → ∀ call, ∃ after, HalStep hal call after
  /-- The next request is answered from the response and takes it. -/
  next : ∀ (p : UserProperty) before storedAt response between now value requestId hal,
    p ≠ .association → p.Stores response → p.AndroidSet value requestId →
    (∀ call ∈ between, ¬call.StoresFor p ∧ ¬call.TakesFor p) →
    HalRun (before ++ .set storedAt response :: between) hal →
    (UserHalCall.set now value).step hal =
      .ok (.set (answerFrom response requestId), p.store none hal)
  /-- No later request is answered from it. -/
  later : ∀ (p : UserProperty) before takenAt taking takingId between now value requestId hal,
    p ≠ .association → p.AndroidSet taking takingId → p.AndroidSet value requestId →
    (∀ call ∈ between, ¬call.StoresFor p) →
    HalRun (before ++ .set takenAt taking :: between) hal →
    (UserHalCall.set now value).step hal =
      .ok (.set (p.defaultAnswer now value requestId), hal)
  /-- The association answers every request and every read until it is overwritten. -/
  association : ∀ before storedAt response between hal,
    UserProperty.association.Stores response →
    (∀ call ∈ between, ¬call.StoresFor .association) →
    HalRun (before ++ .set storedAt response :: between) hal →
    (∀ now value requestId, UserProperty.association.AndroidSet value requestId →
      (UserHalCall.set now value).step hal = .ok (.set (answerFrom response requestId), hal)) ∧
    ∀ value requestId, value.prop = userIdentificationAssociationId →
      getRequestId value = .ok requestId →
      (UserHalCall.get value).step hal = .ok (.get (.ok { response with
        value := { response.value with
          int32Values := requestId :: response.value.int32Values.tail } }), hal)
  /-- With the area one a response has the request id, with the area two its negation. -/
  reply : ∀ (response : VehiclePropValue) requestId,
    (response.areaId = 1 → answerFrom response requestId =
      .ok (some { response with
        areaId := 0
        value := { response.value with
          int32Values := requestId :: response.value.int32Values.tail } })) ∧
    (response.areaId = 2 → requestId ≠ -2 ^ 31 → answerFrom response requestId =
      .ok (some { response with
        areaId := 0
        value := { response.value with
          int32Values := -requestId :: response.value.int32Values.tail } }))
  /-- A call that fails its validation changes no response. -/
  invalid : ∀ (p : UserProperty) (call : UserHalCall) calls hal, call.Invalid p → HalRun calls hal →
    ∃ e, call.step hal = .ok (.set (.error e), hal)
  /-- A read changes nothing. -/
  reads : ∀ value calls hal after, HalRun calls hal → HalStep hal (.get value) after → after = hal
  /-- A call for one property leaves the responses for the others. -/
  separate : ∀ (p : UserProperty) (call : UserHalCall) calls hal after, call.prop ≠ p.propId →
    HalRun calls hal → HalStep hal call after → p.slot after = p.slot hal

section Steps

variable {hal after : FakeUserHal} {call : UserHalCall} {value : VehiclePropValue}
  {p : UserProperty}

theorem step_get {outcome : Except GetError VehiclePropValue}
    (h : hal.onGetProperty value = .ok outcome) :
    (UserHalCall.get value).step hal = .ok (.get outcome, hal) := by
  rw [UserHalCall.step, h]
  rfl

theorem step_set {outcome : UserHalOutcome} {now : Int}
    (h : hal.onSetProperty now value = .ok (outcome, after)) :
    (UserHalCall.set now value).step hal = .ok (.set outcome, after) := by
  rw [UserHalCall.step, h]
  rfl

/-- A read of the association is defined, since its response has a place for the request id. -/
theorem onGetUserIdentificationAssociation_eq (h : hal.WellFormed) {response : VehiclePropValue}
    (hslot : UserProperty.association.slot hal = some response) {requestId : Int}
    (hid : getRequestId value = .ok requestId) :
    hal.onGetUserIdentificationAssociation value = .ok (.ok { response with
      value := { response.value with
        int32Values := requestId :: response.value.int32Values.tail } }) := by
  have hplace := (h.association response hslot).2
  have hstored : hal.mSetUserIdentificationAssociationResponseFromCmd = some response := hslot
  rw [onGetUserIdentificationAssociation, hstored, hid]
  simp only [assignAt_head hplace]
  rfl

/-- A read of a well formed user HAL never fails in the code. -/
theorem onGetProperty_defined (h : hal.WellFormed) (value : VehiclePropValue) :
    ∃ outcome, hal.onGetProperty value = .ok outcome := by
  unfold onGetProperty
  split
  · exact ⟨_, rfl⟩
  · split
    · cases hslot : UserProperty.association.slot hal with
      | none =>
          have hstored : hal.mSetUserIdentificationAssociationResponseFromCmd = none := hslot
          exact ⟨_, by rw [onGetUserIdentificationAssociation, hstored]⟩
      | some response =>
          have hstored : hal.mSetUserIdentificationAssociationResponseFromCmd = some response :=
            hslot
          cases hid : getRequestId value with
          | error e => exact ⟨_, by rw [onGetUserIdentificationAssociation, hstored, hid]⟩
          | ok requestId => exact ⟨_, onGetUserIdentificationAssociation_eq h hslot hid⟩
    · exact ⟨_, rfl⟩

/-- A call on well-formed responses is defined and keeps them so. -/
theorem halStep_defined (h : hal.WellFormed) (call : UserHalCall) :
    ∃ after, HalStep hal call after ∧ after.WellFormed := by
  cases call with
  | set now value =>
      obtain ⟨outcome, after, hset, hwell, _⟩ := onSetProperty_regular h now value
      exact ⟨after, ⟨_, step_set hset⟩, hwell⟩
  | get value =>
      obtain ⟨outcome, hget⟩ := onGetProperty_defined h value
      exact ⟨hal, ⟨_, step_get hget⟩, h⟩

/-- Every call keeps the user HAL well formed. -/
theorem HalStep.wellFormed (hstep : HalStep hal call after) (h : hal.WellFormed) :
    after.WellFormed := by
  obtain ⟨after', ⟨answer', hstep'⟩, hwell⟩ := halStep_defined h call
  obtain ⟨answer, hstep⟩ := hstep
  cases hstep.symm.trans hstep'
  exact hwell

theorem HalRun.wellFormed {calls : List UserHalCall} (h : HalRun calls hal) : hal.WellFormed :=
  Path.invariant h Reachable.start.wellFormed fun _ _ _ ht hstep => hstep.wellFormed ht

/-- A read changes nothing. -/
theorem HalStep.eq_of_get (hstep : HalStep hal (.get value) after) (h : hal.WellFormed) :
    after = hal := by
  obtain ⟨outcome, hget⟩ := onGetProperty_defined h value
  obtain ⟨answer, hstep⟩ := hstep
  cases hstep.symm.trans (step_get hget)
  rfl

/-- A write of one of the properties, by its outcome. -/
theorem HalStep.outcome {now : Int} (hstep : HalStep hal (.set now value) after)
    (h : hal.WellFormed) {q : UserProperty} (hprop : value.prop = q.propId) :
    ∃ outcome, q.SetOutcome now value hal (outcome, after) := by
  obtain ⟨⟨outcome, after'⟩, hset, houtcome⟩ := onSetProperty_decided h hprop now
  obtain ⟨answer, hstep⟩ := hstep
  cases hstep.symm.trans (step_set hset)
  exact ⟨outcome, houtcome⟩

/-- A request of another property changes nothing. -/
theorem HalStep.eq_of_other {now : Int} (hstep : HalStep hal (.set now value) after)
    (hother : ∀ q : UserProperty, value.prop ≠ q.propId) : after = hal := by
  obtain ⟨outcome, hset⟩ := @onSetProperty_other hal value hother now
  obtain ⟨answer, hstep⟩ := hstep
  cases hstep.symm.trans (step_set hset)
  rfl

/-- A call that stores nothing for the property leaves its slot or empties it. -/
theorem HalStep.slot_cases (hstep : HalStep hal call after) (h : hal.WellFormed)
    (hstores : ¬call.StoresFor p) :
    p.slot after = p.slot hal ∨ call.TakesFor p ∧ p.slot after = none := by
  cases call with
  | get value => exact Or.inl (by rw [hstep.eq_of_get h])
  | set now value =>
      by_cases hq : ∃ q : UserProperty, value.prop = q.propId
      · obtain ⟨q, hprop⟩ := hq
        obtain ⟨outcome, houtcome⟩ := hstep.outcome h hprop
        cases houtcome with
        | invalid hinvalid e => exact Or.inl rfl
        | stored hq =>
            have hne : p ≠ q := fun heq => hstores (heq ▸ hq)
            exact Or.inl (slot_store_of_ne hne _ _)
        | vehicleRequest _ _ _ _ _ => exact Or.inl rfl
        | android requestId hset =>
            by_cases hkeep : q = .association
            · exact Or.inl (by rw [spend, if_pos hkeep])
            · rw [spend, if_neg hkeep]
              by_cases heq : p = q
              · subst heq
                exact Or.inr ⟨⟨hkeep, requestId, hset⟩, slot_store ..⟩
              · exact Or.inl (slot_store_of_ne heq _ _)
      · have hother (q : UserProperty) : value.prop ≠ q.propId := fun he => hq ⟨q, he⟩
        exact Or.inl (by rw [hstep.eq_of_other hother])

/-- A call for another property leaves the slot. -/
theorem HalStep.slot_of_other (hstep : HalStep hal call after) (h : hal.WellFormed)
    (hother : call.prop ≠ p.propId) : p.slot after = p.slot hal := by
  cases call with
  | get value => rw [hstep.eq_of_get h]
  | set now value =>
      have hstores : ¬(UserHalCall.set now value).StoresFor p := fun hstores => by
        obtain ⟨requestId, hvalid⟩ := hstores.valid
        exact hother hvalid.prop
      rcases hstep.slot_cases h hstores with hsame | ⟨⟨_, requestId, hset⟩, _⟩
      · exact hsame
      · exact absurd hset.valid.prop hother

/-- A call that fails its validation is answered with an error. -/
theorem step_invalid (h : hal.WellFormed) (hinvalid : call.Invalid p) :
    ∃ e, call.step hal = .ok (.set (.error e), hal) := by
  cases call with
  | get value => exact hinvalid.elim
  | set now value =>
      obtain ⟨hprop, hnone⟩ := hinvalid
      obtain ⟨⟨outcome, after⟩, hresult, houtcome⟩ := onSetProperty_decided h hprop now
      rw [step_set hresult]
      cases houtcome with
      | invalid _ e => exact ⟨e, rfl⟩
      | stored hstores =>
          obtain ⟨requestId, hvalid⟩ := hstores.valid
          exact absurd hvalid (hnone requestId)
      | vehicleRequest requestId hvalid _ _ _ => exact absurd hvalid (hnone requestId)
      | android requestId hset => exact absurd hset.valid (hnone requestId)

/-- A response stays while no call stores another one or takes it. -/
theorem slot_kept {between : List UserHalCall} (hpath : Path HalStep hal between after)
    (h : hal.WellFormed) (hquiet : ∀ call ∈ between, ¬call.StoresFor p ∧ ¬call.TakesFor p) :
    after.WellFormed ∧ p.slot after = p.slot hal := by
  refine Path.invariant_of_mem (P := fun s => s.WellFormed ∧ p.slot s = p.slot hal) hpath
    ⟨h, rfl⟩ fun t call u hmem ht hstep => ⟨hstep.wellFormed ht.1, ?_⟩
  obtain ⟨hstores, htakes⟩ := hquiet call hmem
  rcases hstep.slot_cases ht.1 hstores with hsame | ⟨htaken, _⟩
  · exact hsame.trans ht.2
  · exact absurd htaken htakes

/-- An empty slot stays empty while no call stores a response. -/
theorem slot_stays_empty {between : List UserHalCall} (hpath : Path HalStep hal between after)
    (h : hal.WellFormed) (hempty : p.slot hal = none)
    (hquiet : ∀ call ∈ between, ¬call.StoresFor p) :
    after.WellFormed ∧ p.slot after = none := by
  refine Path.invariant_of_mem (P := fun s => s.WellFormed ∧ p.slot s = none) hpath
    ⟨h, hempty⟩ fun t call u hmem ht hstep => ⟨hstep.wellFormed ht.1, ?_⟩
  rcases hstep.slot_cases ht.1 (hquiet call hmem) with hsame | ⟨_, hnone⟩
  · exact hsame.trans ht.2
  · exact hnone

/-- A request of Android is answered from the slot. -/
theorem step_android (h : hal.WellFormed) {requestId : Int} (hset : p.AndroidSet value requestId)
    (now : Int) :
    (UserHalCall.set now value).step hal =
      .ok (.set (p.answer now value requestId hal), p.spend hal) := by
  obtain ⟨⟨outcome, after⟩, hresult, houtcome⟩ := onSetProperty_decided h hset.valid.prop now
  rw [step_set hresult]
  cases houtcome with
  | invalid hinvalid e => exact absurd hset.valid (hinvalid requestId)
  | stored hstores => exact absurd hset.area hstores.area
  | vehicleRequest _ _ _ harea _ => exact absurd hset.area harea
  | android requestId' hset' =>
      cases hset.valid.requestId.symm.trans hset'.valid.requestId
      rfl

/-- A stored response is in its slot. -/
theorem HalStep.slot_of_stores {now : Int} (hstep : HalStep hal (.set now value) after)
    (h : hal.WellFormed) (hstores : p.Stores value) : p.slot after = some value := by
  obtain ⟨requestId, hvalid⟩ := hstores.valid
  obtain ⟨outcome, houtcome⟩ := hstep.outcome h hvalid.prop
  cases houtcome with
  | invalid hinvalid e => exact absurd hvalid (hinvalid requestId)
  | stored _ => exact slot_store ..
  | vehicleRequest _ _ hswitch _ hrequest =>
      exact absurd hrequest (hstores.noRequest hswitch)
  | android _ hset => exact absurd hset.area hstores.area

/-- A request of Android leaves the slot of the property empty. -/
theorem HalStep.slot_of_android {now requestId : Int} (hstep : HalStep hal (.set now value) after)
    (h : hal.WellFormed) (honce : p ≠ .association) (hset : p.AndroidSet value requestId) :
    p.slot after = none := by
  obtain ⟨answer, hstep⟩ := hstep
  cases hstep.symm.trans (step_android h hset now)
  rw [spend, if_neg honce, slot_store]

/-- After a stored response and calls that leave it, it is still in its slot. -/
theorem slot_after_stored {before between : List UserHalCall} {storedAt : Int}
    {response : VehiclePropValue} (hstores : p.Stores response)
    (hquiet : ∀ call ∈ between, ¬call.StoresFor p ∧ ¬call.TakesFor p)
    (hrun : HalRun (before ++ .set storedAt response :: between) hal) :
    hal.WellFormed ∧ p.slot hal = some response := by
  obtain ⟨t, v, hbefore, hstep, hbetween⟩ := hrun.step_at
  have hwell := HalRun.wellFormed hbefore
  have hkept := slot_kept hbetween (hstep.wellFormed hwell) hquiet
  exact ⟨hkept.1, hkept.2.trans (hstep.slot_of_stores hwell hstores)⟩

end Steps

/-- The stored responses are used once and for the right requests, in every run. -/
theorem responses_used_once : ResponsesUsedOnce where
  defined calls hal hrun call := by
    obtain ⟨after, hstep, _⟩ := halStep_defined (HalRun.wellFormed hrun) call
    exact ⟨after, hstep⟩
  next p before storedAt response between now value requestId hal honce hstores hset hquiet
      hrun := by
    obtain ⟨hwell, hslot⟩ := slot_after_stored hstores hquiet hrun
    rw [step_android hwell hset, answer, hslot, spend, if_neg honce]
  later p before takenAt taking takingId between now value requestId hal honce htaking hset hquiet
      hrun := by
    obtain ⟨t, v, hbefore, hstep, hbetween⟩ := hrun.step_at
    have hwell := HalRun.wellFormed hbefore
    obtain ⟨hwell', hslot⟩ := slot_stays_empty hbetween (hstep.wellFormed hwell)
      (hstep.slot_of_android hwell honce htaking) hquiet
    rw [step_android hwell' hset, answer, hslot, spend, if_neg honce]
    rcases hal with ⟨_, _, _, _⟩
    cases p <;> simp_all [slot, store]
  association before storedAt response between hal hstores hquiet hrun := by
    have hleft : ∀ call ∈ between, ¬call.StoresFor UserProperty.association ∧
        ¬call.TakesFor UserProperty.association := fun call hmem => by
      refine ⟨hquiet call hmem, fun htakes => ?_⟩
      cases call with
      | set now value => exact htakes.1 rfl
      | get value => exact htakes
    obtain ⟨hwell, hslot⟩ := slot_after_stored hstores hleft hrun
    constructor
    · intro now value requestId hset
      rw [step_android hwell hset, answer, hslot, spend, if_pos rfl]
    · intro value requestId hprop hid
      refine step_get ?_
      rw [onGetProperty, hprop]
      exact onGetUserIdentificationAssociation_eq hwell hslot hid
  reply response requestId := by
    constructor
    · intro harea
      rw [answerFrom, if_pos harea]
      rfl
    · intro harea _
      rw [answerFrom, if_neg (by omega), if_pos harea]
      rfl
  invalid _ _ _ _ hinvalid hrun := step_invalid (HalRun.wellFormed hrun) hinvalid
  reads value calls hal after hrun hstep := hstep.eq_of_get (HalRun.wellFormed hrun)
  separate _ _ _ _ _ hother hrun hstep :=
    hstep.slot_of_other (HalRun.wellFormed hrun) hother

end VhalCore.FakeHardware
