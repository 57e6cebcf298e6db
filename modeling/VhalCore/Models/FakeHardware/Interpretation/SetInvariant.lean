import VhalCore.Models.FakeHardware.Interpretation.Responses
import VhalCore.Models.FakeHardware.Interpretation.ZonedRecords

/-!
# Invariants of a set

Every change that a set makes is a write at the current time, a request to the user HAL, or
the removal of stored values. What these changes keep is kept by a set, also by one that
fails, and so over a whole run of sets.
-/

namespace VhalCore.FakeHardware

open PropertyStore VehiclePropertyStore

/-- What the single changes of a set keep. -/
structure KeptByChanges (env : Environment) (P : PropertyState → Prop) : Prop where
  write : ∀ {s} v updateStatus eventMode, P s →
    P (PropertyState.writeNow env v updateStatus eventMode s).2
  userHal : ∀ {s v outcome hal}, P s →
    s.mFakeUserHal.onSetProperty (env.clock s.moments) v = .ok (outcome, hal) →
    P { s with mFakeUserHal := hal, moments := s.moments + 1 }
  removeValue : ∀ {s} value, P s →
    P { s with mServerSidePropStore := s.mServerSidePropStore.removeValue value }
  removeValues : ∀ {s} propId, P s →
    P { s with mServerSidePropStore := s.mServerSidePropStore.removeValuesForProperty propId }

/-- Where a result is defined, its state has a property. -/
def Leaves {α : Type} (P : PropertyState → Prop) (result : Except Fault (α × PropertyState)) :
    Prop :=
  ∀ a s, result = .ok (a, s) → P s

section Leaves

variable {α β : Type} {P : PropertyState → Prop} {s : PropertyState}

theorem leaves_ok (a : α) (h : P s) : Leaves P (.ok (a, s)) := by
  rintro b t ⟨⟩
  exact h

theorem leaves_error (f : Fault) : Leaves P (.error f : Except Fault (α × PropertyState)) := by
  intro a s h
  cases h

/-- A sequence leaves what both of its parts leave. -/
theorem leaves_bind {x : Except Fault (α × PropertyState)}
    {f : α × PropertyState → Except Fault (β × PropertyState)} (hx : Leaves P x)
    (hf : ∀ a s, P s → Leaves P (f (a, s))) : Leaves P (x >>= f) := by
  rcases x with e | ⟨a, s⟩
  · exact leaves_error e
  · exact hf a s (hx a s rfl)

/-- A computation that does not change the state. -/
theorem leaves_bind_pure {x : Except Fault α} {f : α → Except Fault (β × PropertyState)}
    (hf : ∀ a, Leaves P (f a)) : Leaves P (x >>= f) := by
  rcases x with e | a
  · exact leaves_error e
  · exact hf a

theorem leaves_ite {p : Prop} [Decidable p] {x y : Except Fault (α × PropertyState)}
    (hx : Leaves P x) (hy : Leaves P y) : Leaves P (if p then x else y) := by
  split
  · exact hx
  · exact hy

end Leaves

namespace PropertyState

variable {env : Environment} {P : PropertyState → Prop} {s : PropertyState}

theorem leaves_plain (h : P s) : Leaves P (plain s) := leaves_ok _ h

theorem leaves_refuse (error : SetValueError) (h : P s) : Leaves P (refuse error s) :=
  leaves_ok _ h

theorem leaves_special {outcome : Outcome} (h : Leaves P outcome) :
    Leaves P (special outcome) := by
  rcases outcome with e | ⟨result, s⟩
  · exact leaves_error e
  · exact leaves_ok _ (h result s rfl)

/-- A value that is refused unless a feature is available. -/
theorem leaves_whenAvailable {adasStatePropertyId : Int} {decision : Decision} (h : P s)
    (hdecision : Leaves P decision) :
    Leaves P (match s.isAdasPropertyAvailable adasStatePropertyId with
      | .error e => refuse e s
      | .ok () => decision) := by
  split
  · exact leaves_refuse _ h
  · exact hdecision

section Changes

variable (hkept : KeptByChanges env P)

include hkept

/-- Telling some values keeps the invariant. -/
theorem kept_sendValues (areaId hvacPowerOnVal : Int) (values : List VehiclePropValue)
    (h : P s) : P (sendValues env areaId hvacPowerOnVal values s) := by
  induction values generalizing s with
  | nil => exact h
  | cons value values ih =>
      rw [sendValues]
      split
      · exact ih (hkept.write _ _ _ h)
      · exact ih h

/-- Telling the properties that depend on the power keeps the invariant. -/
theorem kept_sendPowerProps (areaId hvacPowerOnVal : Int) (powerPropIds : List Int) (h : P s) :
    P (sendPowerProps env areaId hvacPowerOnVal powerPropIds s) := by
  induction powerPropIds generalizing s with
  | nil => exact h
  | cons powerPropId powerPropIds ih =>
      rw [sendPowerProps]
      split
      · exact ih h
      · exact ih (kept_sendValues hkept _ _ _ h)

theorem kept_sendAdasAreas (dependentPropId state : Int) (areaConfigs : List VehicleAreaConfig)
    (h : P s) : P (sendAdasAreas env dependentPropId state areaConfigs s) := by
  induction areaConfigs generalizing s with
  | nil => exact h
  | cons areaConfig areaConfigs ih => exact ih (hkept.write _ _ _ h)

/-- Setting the states of the driver assistance keeps the invariant. -/
theorem kept_sendAdasProps (state : Int) (dependentPropIds : List Int) (h : P s) :
    P (sendAdasProps env state dependentPropIds s) := by
  induction dependentPropIds generalizing s with
  | nil => exact h
  | cons dependentPropId dependentPropIds ih =>
      rw [sendAdasProps]
      split
      · exact ih h
      · exact ih (kept_sendAdasAreas hkept _ _ _ h)

/-- Setting what depends on an enabled property keeps the invariant. -/
theorem kept_sendAdasDependents (value : VehiclePropValue) (h : P s) :
    P (s.sendAdasDependents env value) := by
  unfold sendAdasDependents
  split
  · split
    · exact kept_sendAdasProps hkept _ _ h
    · exact kept_sendAdasProps hkept _ _ h
    · exact h
  · exact h

/-- Copying a temperature keeps the invariant. -/
theorem leaves_synchronizeLoop (hvacDualOnAreaId : Int) (tempCToSynchronize : Option Binary32)
    (values : List VehiclePropValue) (h : P s) :
    Leaves P (synchronizeLoop env hvacDualOnAreaId tempCToSynchronize values s) := by
  induction values generalizing tempCToSynchronize s with
  | nil => exact leaves_ok _ h
  | cons value values ih =>
      cases tempCToSynchronize with
      | none =>
          rw [synchronizeLoop]
          exact leaves_ite (ih _ h) (leaves_bind_pure fun temp => ih _ h)
      | some temp =>
          rw [synchronizeLoop]
          refine leaves_ite (ih _ h) (leaves_bind_pure fun floatValues => ?_)
          have hwrite := hkept.write { value with
            value := { value.value with floatValues := floatValues } } true .always h
          split
          · rename_i t ht
            rw [ht] at hwrite
            exact ih _ hwrite
          · rename_i e t ht
            rw [ht] at hwrite
            exact leaves_ok _ hwrite

/-- Synchronising the temperatures keeps the invariant. -/
theorem leaves_synchronizeHvacTemp (hvacDualOnAreaId : Int) (newTempC : Option Binary32)
    (h : P s) : Leaves P (s.synchronizeHvacTemp env hvacDualOnAreaId newTempC) := by
  unfold synchronizeHvacTemp
  split
  · exact leaves_ok _ h
  · exact leaves_synchronizeLoop hkept _ _ _ h

/-- A power report keeps the invariant. -/
theorem leaves_setApPowerStateReport (value : VehiclePropValue) (h : P s) :
    Leaves P (s.setApPowerStateReport env value) := by
  unfold setApPowerStateReport
  have hwrite := hkept.write value false .onValueChange h
  split
  · rename_i e t ht
    rw [ht] at hwrite
    exact leaves_ok _ hwrite
  · rename_i t ht
    rw [ht] at hwrite
    refine leaves_bind_pure fun state => leaves_ite ?_ (leaves_ite ?_ (leaves_ok _ hwrite))
    · exact leaves_ok _ (hkept.write _ _ _ hwrite)
    · exact leaves_ok _ (hkept.write _ _ _ hwrite)

/-- A shutdown request keeps the invariant. -/
theorem leaves_setApPowerStateReqShutdown (value : VehiclePropValue) (h : P s) :
    Leaves P (s.setApPowerStateReqShutdown env value) := by
  unfold setApPowerStateReqShutdown
  split
  · exact leaves_ok _ (hkept.write _ _ _ h)
  · exact leaves_ok _ h

/-- A suggestion keeps the invariant. -/
theorem leaves_setHvacTemperatureValueSuggestion (value : VehiclePropValue) (h : P s) :
    Leaves P (s.setHvacTemperatureValueSuggestion env value) := by
  unfold setHvacTemperatureValueSuggestion
  split
  · exact leaves_ok _ h
  · split
    · refine leaves_ite (leaves_ok _ h) (leaves_bind_pure fun floatValues => ?_)
      exact leaves_ok _ (hkept.write _ _ _ h)
    · exact leaves_ok _ h

/-- A request of the user HAL keeps the invariant. -/
theorem leaves_setUserHalProp (value : VehiclePropValue) (h : P s) :
    Leaves P (s.setUserHalProp env value) := by
  unfold setUserHalProp
  rcases hcall : s.mFakeUserHal.onSetProperty (env.clock s.moments) value with f | ⟨outcome, hal⟩
  · exact leaves_error f
  · have hafter := hkept.userHal h hcall
    rcases outcome with e | _ | updatedValue
    · exact leaves_ok _ hafter
    · exact leaves_ok _ hafter
    · exact leaves_ok _ (hkept.write _ _ _ hafter)

/-- Clearing frames keeps the invariant. -/
theorem kept_clearFrames (timestamps : List Int) (h : P s) :
    P { s with mServerSidePropStore := (clearFrames timestamps s.mServerSidePropStore).2 } := by
  induction timestamps generalizing s with
  | nil => exact h
  | cons timestamp timestamps ih =>
      rw [clearFrames]
      split
      · exact h
      · exact ih (hkept.removeValue _ h)

/-- A request to clear frames keeps the invariant. -/
theorem kept_clearObd2FreezeFrames (value : VehiclePropValue) (h : P s) :
    P (s.clearObd2FreezeFrames value).2 := by
  unfold clearObd2FreezeFrames
  split
  · exact hkept.removeValues _ h
  · exact kept_clearFrames hkept _ h

/-- The branches for single properties, one after the other. -/
theorem leaves_setSpecialProperty (value : VehiclePropValue) (h : P s) :
    Leaves P (s.setSpecialProperty env value) := by
  unfold setSpecialProperty
  refine leaves_ite (leaves_plain h) ?_
  refine leaves_ite (leaves_special (leaves_setApPowerStateReport hkept value h)) ?_
  refine leaves_ite (leaves_special (leaves_setApPowerStateReqShutdown hkept value h)) ?_
  refine leaves_ite (leaves_special (leaves_ok _ h)) ?_
  refine leaves_ite (leaves_special (leaves_ok _ (kept_clearObd2FreezeFrames hkept value h))) ?_
  refine leaves_ite (leaves_refuse _ h) ?_
  refine leaves_ite ?_ ?_
  · split
    · exact leaves_plain (kept_sendPowerProps hkept _ _ _ h)
    · exact leaves_refuse _ h
  refine leaves_ite (leaves_special (leaves_setHvacTemperatureValueSuggestion hkept value h)) ?_
  refine leaves_ite ?_ ?_
  · split
    · split
      · exact leaves_special (leaves_synchronizeHvacTemp hkept _ _ h)
      · exact leaves_plain h
    · exact leaves_refuse _ h
  refine leaves_ite ?_ ?_
  · split
    · exact leaves_bind (leaves_synchronizeHvacTemp hkept _ _ h) fun _ t ht => leaves_plain ht
    · exact leaves_plain h
    · exact leaves_refuse _ h
  refine leaves_ite (leaves_whenAvailable h (leaves_plain h)) ?_
  refine leaves_ite (leaves_whenAvailable h (leaves_bind_pure fun standard => ?_)) ?_
  · split
    · exact leaves_refuse _ h
    · exact leaves_plain h
    · refine leaves_bind_pure fun command => ?_
      exact leaves_ite (leaves_refuse _ h) (leaves_plain h)
  refine leaves_ite (leaves_whenAvailable h (leaves_bind_pure fun standard => ?_)) ?_
  · split
    · exact leaves_refuse _ h
    · exact leaves_refuse _ h
    · exact leaves_plain h
  exact leaves_plain h

/-- What the single changes keep is kept by a set. -/
theorem leaves_setValue (value : VehiclePropValue) (h : P s) :
    Leaves P (s.setValue env value) := by
  have hdecision : Leaves P (s.maybeSetSpecialValue env value) := by
    unfold maybeSetSpecialValue
    refine leaves_ite (leaves_special (leaves_ok _ h)) ?_
    refine leaves_ite (leaves_special (leaves_setUserHalProp hkept value h)) ?_
    refine leaves_ite (leaves_refuse _ h) ?_
    exact leaves_setSpecialProperty hkept value (kept_sendAdasDependents hkept value h)
  refine leaves_bind hdecision ?_
  rintro ⟨isSpecialValue, result⟩ t ht
  exact leaves_ite (leaves_ok _ ht) (leaves_ok _ (hkept.write value false .onValueChange ht))

end Changes

end PropertyState

section Runs

variable {clock : Nat → Int} {start s t : PropertyState} {v : VehiclePropValue}

/-- What holds in every state of a run of sets: the records are kept by area, nothing stored is
after the current moment, and what the sets do not change is as it was at the start. -/
structure Running (clock : Nat → Int) (start s : PropertyState) : Prop where
  zoned : Zoned s.mServerSidePropStore
  timely : ∀ propId recId x, s.mServerSidePropStore.stored propId recId = some x →
    x.timestamp ≤ clock s.moments
  callback : s.mServerSidePropStore.mOnValuesChangeCallback = true
  userHal : s.mFakeUserHal.Reachable
  registration : ∀ propId, s.mServerSidePropStore.registration propId =
    start.mServerSidePropStore.registration propId
  dependents : s.hvacPowerDependentProps = start.hvacPowerDependentProps

/-- The removal of values. -/
theorem Running.loses (h : Running clock start s)
    {store : VehiclePropertyStore} (hl : Loses s.mServerSidePropStore store) :
    Running clock start { s with mServerSidePropStore := store } where
  zoned := h.zoned.loses hl
  timely propId recId x hx := h.timely propId recId x (hl.stored propId recId x hx)
  callback := hl.callback.trans h.callback
  userHal := h.userHal
  registration propId := (hl.registration propId).trans (h.registration propId)
  dependents := h.dependents

/-- No change of the store ends a running state. -/
theorem running_keptByChanges (env : Environment) (start : PropertyState) :
    KeptByChanges env (Running env.clock start) where
  write {s} v updateStatus eventMode h := by
    have hadv := Board.write_advances updateStatus eventMode s.board (env.stamped s.moments v)
    have hmono := env.monotone (Nat.le_succ s.moments)
    rw [PropertyState.writeNow_eq]
    refine ⟨Board.zoned_write h.zoned updateStatus eventMode _, fun propId recId x hx => ?_,
      hadv.callback.trans h.callback, h.userHal,
      fun propId => (hadv.registration propId).trans (h.registration propId), h.dependents⟩
    rcases hadv.stored propId recId with hsame | ⟨⟨new, hnew, hle⟩, _⟩
    · exact (h.timely propId recId x (hsame.symm.trans hx)).trans hmono
    · cases hnew.symm.trans hx
      exact hle.trans hmono
  userHal {s} _ _ _ h hcall :=
    { h with
      timely := fun propId recId x hx =>
        (h.timely propId recId x hx).trans (env.monotone (Nat.le_succ s.moments))
      userHal := .call h.userHal hcall }
  removeValue {s} value h := h.loses (loses_removeValue s.mServerSidePropStore value)
  removeValues {s} propId h := h.loses (loses_removeValuesForProperty s.mServerSidePropStore propId)

/-- A property has an area. -/
structure HasArea (s : PropertyState) (propId areaId : Int) : Prop where
  registered : s.mServerSidePropStore.IsRegistered propId
  configured : ¬s.mServerSidePropStore.LacksAreaConfig { prop := propId, areaId }

/-- The areas of a property are those of its config, and any for a global one. -/
theorem hasArea_iff {propId areaId : Int} {config : VehiclePropConfig}
    {tokenFunc : Option TokenFunction}
    (hreg : s.mServerSidePropStore.registration propId = some (config, tokenFunc)) :
    HasArea s propId areaId ↔
      isGlobalProp propId = true ∨ ∃ c ∈ config.areaConfigs, c.areaId = areaId := by
  obtain ⟨record, hrecord, hpair⟩ := Option.map_eq_some_iff.mp hreg
  cases hpair
  constructor
  · intro h
    by_contra hnot
    obtain ⟨hzone, hnone⟩ := not_or.mp hnot
    refine h.configured ⟨Bool.eq_false_iff.mpr hzone, record, hrecord, ?_⟩
    rw [getAreaConfig, if_neg hzone, List.find?_eq_none]
    exact fun c hc harea => hnone ⟨c, hc, of_decide_eq_true harea⟩
  · intro h
    refine ⟨Option.isSome_iff_exists.mpr ⟨record, hrecord⟩, ?_⟩
    rintro ⟨hzone, other, hother, hnone⟩
    cases hrecord.symm.trans hother
    obtain ⟨c, hc, harea⟩ := h.resolve_left (Bool.eq_false_iff.mp hzone)
    rw [getAreaConfig, if_neg (Bool.eq_false_iff.mp hzone), List.find?_eq_none] at hnone
    exact hnone c hc (decide_eq_true harea)

/-- A set in a configured area. -/
structure SetStep (env : Environment) (s : PropertyState) (v : VehiclePropValue)
    (t : PropertyState) : Prop where
  area : HasArea s v.prop v.areaId
  set : ∃ result, s.setValue env v = .ok (result, t)

theorem SetStep.running {env : Environment} (h : SetStep env s v t)
    (hs : Running env.clock start s) : Running env.clock start t := by
  obtain ⟨result, hset⟩ := h.set
  exact PropertyState.leaves_setValue (running_keptByChanges env start) v hs result t hset

/-- The areas of a run are those of its start. -/
theorem Running.hasArea_iff (h : Running clock start s) (propId areaId : Int) :
    HasArea s propId areaId ↔ HasArea start propId areaId := by
  have hreg := isRegistered_congr (h.registration propId)
  have hlacks := lacksAreaConfig_congr (x := { prop := propId, areaId }) (h.registration propId)
    rfl rfl
  exact ⟨fun ha => ⟨hreg.mp ha.registered, mt hlacks.mpr ha.configured⟩,
    fun ha => ⟨hreg.mpr ha.registered, mt hlacks.mp ha.configured⟩⟩

/-- The area of a stored value has a configuration. -/
theorem Running.hasArea_of_stored (h : Running clock start s) {propId : Int} {recId : RecordId}
    {x : VehiclePropValue} (hx : s.mServerSidePropStore.stored propId recId = some x) :
    HasArea start propId x.areaId := by
  have hprop := (h.zoned.valid.keyed propId recId x hx).1
  refine (h.hasArea_iff propId x.areaId).mp ⟨Zoned.isRegistered_of_stored hx, ?_⟩
  have hsame := lacksAreaConfig_congr (a := s.mServerSidePropStore) (x := x)
    (y := { prop := propId, areaId := x.areaId }) rfl hprop.symm rfl
  exact mt hsame.mp (h.zoned.configured propId recId x hx)

/-- A state from which a run of sets begins. -/
theorem running_start (hreached : StoreReached s.mServerSidePropStore)
    (htimely : ∀ propId recId x, s.mServerSidePropStore.stored propId recId = some x →
      x.timestamp ≤ clock s.moments)
    (hcallback : s.mServerSidePropStore.mOnValuesChangeCallback = true)
    (huserHal : s.mFakeUserHal.Reachable) : Running clock s s :=
  ⟨hreached.zoned, htimely, hcallback, huserHal, fun _ => rfl, rfl⟩

end Runs

end VhalCore.FakeHardware
