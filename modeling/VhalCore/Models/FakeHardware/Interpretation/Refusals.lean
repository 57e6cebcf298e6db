import VhalCore.Models.FakeHardware.Interpretation.ClimateEffects

/-!
# Refusals by the power

A write fails with another code than that of a feature that is switched off, and so do the
checks of the climate properties. A property with areas is refused with this code by the
power alone, and such a refusal changes nothing.
-/

namespace VhalCore.FakeHardware

open PropertyStore VehiclePropertyStore

section Refusal

variable {b after : Board} {e : SetValueError}

/-- No write is refused as disabled. -/
theorem code_of_write {w : VehiclePropValue} {updateStatus : Bool}
    {eventMode : PropertyStore.EventMode}
    (h : b.write w updateStatus eventMode = (.error e, after)) :
    e.code ≠ some .notAvailableDisabled := by
  have hresult := congrArg Prod.fst h
  unfold Board.write at hresult
  rcases hw : b.store.writeValue 0 w updateStatus eventMode false with ⟨se | _, rest⟩
  · rw [hw] at hresult
    cases hresult
    cases se <;> exact nofun
  · rw [hw] at hresult
    cases hresult

/-- No sequence of writes is refused as disabled. -/
theorem code_of_attemptUntil {ws : List VehiclePropValue}
    (h : b.attemptUntil ws = (.error e, after)) : e.code ≠ some .notAvailableDisabled := by
  induction ws generalizing b with
  | nil => cases h
  | cons w ws ih =>
      rw [Board.attemptUntil] at h
      rcases hw : b.write w true .always with ⟨_ | _, c⟩
      · rw [hw] at h
        cases h
        exact code_of_write hw
      · rw [hw] at h
        exact ih h

/-- No clearing of frames is refused as disabled. -/
theorem code_of_clearFrames {store : VehiclePropertyStore} {timestamps : List Int}
    (h : (PropertyState.clearFrames timestamps store).1 = .error e) :
    e.code ≠ some .notAvailableDisabled := by
  induction timestamps generalizing store with
  | nil => cases h
  | cons t ts ih =>
      rcases hread : store.readValueOf obd2FreezeFrameId 0 t with se | value
      · simp only [PropertyState.clearFrames, hread] at h
        cases h
        rintro ⟨⟩
      · simp only [PropertyState.clearFrames, hread] at h
        exact ih h

/-- Only a refusal has the code of a feature that is switched off. -/
theorem Route.refused_of_code {route : Route} (h : route.run b = .ok (.error e, after))
    (hcode : e.code = some .notAvailableDisabled) : route = .refused e := by
  cases route with
  | done => cases h
  | refused error =>
      cases h
      rfl
  | fault f => cases h
  | single w => exact absurd hcode (code_of_write (Except.ok.inj h))
  | plain side w => exact absurd hcode (code_of_write (Except.ok.inj h))
  | report w request =>
      rcases hw : b.write w false .onValueChange with ⟨_ | _, c⟩
      · simp only [run, hw] at h
        cases h
        exact absurd hcode (code_of_write hw)
      · rcases request with _ | ⟨r, eventMode⟩
        · simp only [run, hw] at h
          cases h
        · simp only [run, hw] at h
          exact absurd hcode (code_of_write (Except.ok.inj h))
  | synchronized ws => exact absurd hcode (code_of_attemptUntil (Except.ok.inj h))
  | clear timestamps =>
      rw [run] at h
      split at h
      · cases h
      · have hresult := congrArg Prod.fst (Except.ok.inj h)
        exact absurd hcode (code_of_clearFrames hresult)

end Refusal

namespace PropertyState

variable {env : Environment} {s t : PropertyState} {v : VehiclePropValue} {e : SetValueError}

/-- No route for a temperature is refused as disabled. -/
theorem code_of_temperatureRoute {temp : Binary32}
    (h : s.temperatureRoute env v temp = .refused e) : e.code ≠ some .notAvailableDisabled := by
  unfold temperatureRoute at h
  split at h
  · cases h
  · split at h
    · cases h
      exact nofun
    · split at h
      · cases h
      · cases h

/-- The route for the dual mode is never refused. -/
theorem dualRoute_ne_refused : s.dualRoute env v ≠ .refused e := by
  unfold dualRoute
  split
  · exact nofun
  · split
    · exact nofun
    · exact nofun

/-- The route of a property with areas has no refusal with the code. -/
theorem code_of_propertyRoute (hzone : isGlobalProp v.prop = false)
    (h : s.propertyRoute env v = .refused e) : e.code ≠ some .notAvailableDisabled := by
  by_cases hpower : v.prop = hvacPowerOnId
  · rcases hints : v.value.int32Values with _ | ⟨i, _ | ⟨_, _⟩⟩
    case cons.nil =>
      rw [propertyRoute_power hpower hints] at h
      cases h
    all_goals
      rw [propertyRoute, hpower, hints] at h
      cases h
      rintro ⟨⟩
  by_cases htemp : v.prop = hvacTemperatureSetId
  · rcases hfloats : v.value.floatValues with _ | ⟨temp, _ | ⟨_, _⟩⟩
    case cons.nil =>
      rw [propertyRoute_temperature htemp hfloats] at h
      exact code_of_temperatureRoute h
    all_goals
      rw [propertyRoute, htemp, hfloats] at h
      cases h
      rintro ⟨⟩
  by_cases hdual : v.prop = hvacDualOnId
  · rw [propertyRoute_dual_eq hdual] at h
    split at h
    · exact absurd h dualRoute_ne_refused
    · cases h
    · cases h
      rintro ⟨⟩
  · rw [propertyRoute_zoned hzone hpower htemp hdual] at h
    cases h

/-- A refusal by the power leaves everything as it is. -/
theorem setValue_of_notAvailable (hzone : isGlobalProp v.prop = false)
    (h : s.isHvacPropAndHvacNotAvailable env v.prop v.areaId = true) :
    s.setValue env v = .ok (.error .hvacNotAvailable, s) := by
  unfold setValue maybeSetSpecialValue
  rw [if_neg (not_vendorCode hzone), if_neg (not_isSupported hzone), if_pos h]
  rfl

/-- A property with areas is refused with the code only by the power. -/
theorem refused_iff (hzoned : Zoned s.mServerSidePropStore)
    (hzone : isGlobalProp v.prop = false) :
    (∃ e, s.setValue env v = .ok (.error e, s) ∧ e.code = some .notAvailableDisabled) ↔
      s.isHvacPropAndHvacNotAvailable env v.prop v.areaId = true := by
  constructor
  · rintro ⟨e, hset, hcode⟩
    rcases run_of_zoned hzoned hzone hset with ⟨hnot, _⟩ | ⟨_, hrun⟩
    · exact hnot
    · exact absurd hcode (code_of_propertyRoute hzone (Route.refused_of_code hrun hcode))
  · exact fun h => ⟨.hvacNotAvailable, setValue_of_notAvailable hzone h, rfl⟩

end PropertyState

end VhalCore.FakeHardware
