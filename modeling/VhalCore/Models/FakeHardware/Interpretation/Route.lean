import VhalCore.Models.FakeHardware.Interpretation.Attempts

/-!
# The route of a set

What a set does can be told from the state before it. The `route` names the writes that are
attempted, with their times, and how they hang together: some are attempted before the value
itself and may fail, some end the call when they fail. Running the route on the board gives
the result of the set.
-/

namespace VhalCore.FakeHardware

open PropertyStore VehiclePropertyStore

/-- A value with the time of a moment. -/
def Environment.stamped (env : Environment) (k : Nat) (v : VehiclePropValue) : VehiclePropValue :=
  { v with timestamp := env.clock k }

/-- Values with the times of consecutive moments. -/
def Environment.stampFrom (env : Environment) : Nat → List VehiclePropValue → List VehiclePropValue
  | _, [] => []
  | k, v :: vs => env.stamped k v :: env.stampFrom (k + 1) vs

/-- What a set does, told from the state before it. -/
inductive Route where
  /-- Nothing is to be done. -/
  | done
  | refused (error : SetValueError)
  | fault (fault : Fault)
  /-- One write that is announced in any case. -/
  | single (w : VehiclePropValue)
  /-- Writes that may fail, and then the write of the value itself. -/
  | plain (side : List VehiclePropValue) (w : VehiclePropValue)
  /-- The write of a report, and then of the request that answers it. -/
  | report (w : VehiclePropValue) (request : Option (VehiclePropValue × PropertyStore.EventMode))
  /-- Writes that end with the first failure. -/
  | synchronized (ws : List VehiclePropValue)
  /-- The removal of the frames with some timestamps, or of all without any. -/
  | clear (timestamps : List Int)

/-- What a call leaves. -/
abbrev View := Except Fault (Except SetValueError Unit × Board)

/-- Carries a route out on the board. -/
def Route.run : Route → Board → View
  | .done, b => .ok (.ok (), b)
  | .refused e, b => .ok (.error e, b)
  | .fault f, _ => .error f
  | .single w, b => .ok (b.write w true .always)
  | .plain side w, b => .ok ((b.attemptAll side).write w false .onValueChange)
  | .report w request, b =>
      match b.write w false .onValueChange, request with
      | (.error e, b), _ => .ok (.error e, b)
      | (.ok (), b), none => .ok (.ok (), b)
      | (.ok (), b), some (r, eventMode) => .ok (b.write r true eventMode)
  | .synchronized ws, b => .ok (b.attemptUntil ws)
  | .clear timestamps, b =>
      if timestamps = [] then
        .ok (.ok (), { b with store := b.store.removeValuesForProperty obd2FreezeFrameId })
      else
        let (result, store) := PropertyState.clearFrames timestamps b.store
        .ok (result, { b with store })

/-- The part of some writes that is reached when the first failure ends them. A write without
a place for the temperature is undefined. -/
def reached (store : VehiclePropertyStore) :
    List VehiclePropValue → Except Fault (List VehiclePropValue)
  | [] => .ok []
  | w :: ws =>
      if w.value.floatValues = [] then .error .outOfBounds
      else if store.Writable w then (reached store ws).map (w :: ·)
      else .ok [w]

/-- A value with another temperature. -/
def setTemp (temp : Binary32) (v : VehiclePropValue) : VehiclePropValue :=
  { v with value := { v.value with floatValues := v.value.floatValues.set 0 temp } }

/-- The values that a synchronisation concerns. -/
def syncTargets (hvacDualOnAreaId : Int) (values : List VehiclePropValue) :
    List VehiclePropValue :=
  values.filter fun v => coversArea hvacDualOnAreaId v.areaId && v.status == .available

/-- The request that answers a report of the power state. -/
def powerRequest (state : Int) : Option (VehiclePropValue × PropertyStore.EventMode) :=
  if state = 3 ∨ state = 0xa ∨ state = 8 ∨ state = 1 then
    some (PropertyState.createApPowerStateReq 0 0, .always)
  else if state = 2 ∨ state = 9 ∨ state = 5 then
    some (PropertyState.createApPowerStateReq 3 0, .onValueChange)
  else none

namespace PropertyState

variable (env : Environment) (s : PropertyState) (v : VehiclePropValue)

/-- What the routes work on: the store, and the events sent so far. -/
def board : Board := ⟨s.mServerSidePropStore, s.emitted⟩

/-- The values of one property that a switch of the power concerns, with their new status. -/
def powerWrites (areaId hvacPowerOnVal propId : Int) : List VehiclePropValue :=
  match s.readValuesForProperty env propId with
  | .error _ => []
  | .ok values => (values.filter fun v => coversArea areaId v.areaId).map fun v =>
      { v with status := if hvacPowerOnVal = 0 then .unavailable else .available }

/-- The states of one property that a switch of the driver assistance concerns. -/
def adasWrites (state propId : Int) : List VehiclePropValue :=
  match s.mServerSidePropStore.getPropConfig propId with
  | .error _ => []
  | .ok config => config.areaConfigs.map fun areaConfig =>
      createAdasStateReq propId areaConfig.areaId (adasState propId state)

/-- The value itself is written, after some writes that may fail. -/
def plainRoute (side : List VehiclePropValue) : Route :=
  .plain (env.stampFrom s.moments side) (env.stamped (s.moments + side.length) v)

/-- The route for a request of the user HAL. -/
def userHalRoute : Route :=
  match s.mFakeUserHal.onSetProperty (env.clock s.moments) v with
  | .error f => .fault f
  | .ok (.error e, _) => .refused (.userHal e)
  | .ok (.ok none, _) => .done
  | .ok (.ok (some updatedValue), _) => .single (env.stamped (s.moments + 1) updatedValue)

/-- The route for a power report, which may be answered with a power request. -/
def reportRoute : Route :=
  let w := env.stamped s.moments v
  match v.value.int32Values with
  | [] => if s.mServerSidePropStore.Writable w then .fault .outOfBounds else .report w none
  | state :: _ => .report w
      ((powerRequest state).map fun (r, eventMode) => (env.stamped (s.moments + 1) r, eventMode))

/-- The route for a temperature suggestion, which replaces the four floats. -/
def suggestionRoute : Route :=
  match s.mServerSidePropStore.getPropConfig hvacTemperatureSetId with
  | .error e => .refused (.temperatureSetConfig e)
  | .ok config =>
      match v.value.floatValues with
      | [_, unit, _, _] =>
          if !unit.eq (.ofInt 0x30) && !unit.eq (.ofInt 0x31) then .refused .suggestionUnit
          else
            match updateHvacTemperatureValueSuggestionInput config.configArray
                v.value.floatValues with
            | .error f => .fault f
            | .ok floatValues => .single (env.stamped s.moments
                { v with value := { v.value with floatValues } })
      | _ => .refused .suggestionSize

/-- The writes of a synchronisation that are reached. -/
def syncWrites (hvacDualOnAreaId : Int) (newTempC : Option Binary32)
    (values : List VehiclePropValue) : Except Fault (List VehiclePropValue) :=
  match newTempC, syncTargets hvacDualOnAreaId values with
  | some temp, targets =>
      reached s.mServerSidePropStore (env.stampFrom s.moments (targets.map (setTemp temp)))
  | none, [] => .ok []
  | none, first :: targets => do
      let temp ← elementAt first.value.floatValues 0
      reached s.mServerSidePropStore (env.stampFrom s.moments (targets.map (setTemp temp)))

/-- The route for a temperature, which is copied to the areas of the dual mode. -/
def temperatureRoute (temp : Binary32) : Route :=
  match s.getSyncedAreaIdIfHvacDualOn env v.areaId with
  | none => s.plainRoute env v []
  | some hvacDualOnAreaId =>
      match s.readValuesForProperty env hvacTemperatureSetId with
      | .error e => .refused (.temperatureSetValues e)
      | .ok values =>
          match s.syncWrites env hvacDualOnAreaId (some temp) values with
          | .error f => .fault f
          | .ok ws => .synchronized ws

/-- The route for the dual mode, which copies the temperature of the first area. -/
def dualRoute : Route :=
  match s.readValuesForProperty env hvacTemperatureSetId with
  | .error _ => s.plainRoute env v []
  | .ok values =>
      match s.syncWrites env v.areaId none values with
      | .error f => .fault f
      | .ok ws => .plain ws (env.stamped (s.moments + ws.length) v)

/-- A value that is written unless a feature is not available. -/
def availableRoute (available : Except SetValueError Unit) : Route :=
  match available with
  | .error e => .refused e
  | .ok () => s.plainRoute env v []

/-- The route for a request that needs an available cruise control. It is that of the value
itself unless the type is the standard one. -/
def cruiseRoute (onStandard : Route) : Route :=
  match s.isAdasPropertyAvailable cruiseControlStateId, s.isCruiseControlTypeStandard with
  | .error e, _ => .refused e
  | .ok (), .error f => .fault f
  | .ok (), .ok (.error e) => .refused e
  | .ok (), .ok (.ok true) => onStandard
  | .ok (), .ok (.ok false) => s.plainRoute env v []

/-- A command on a standard cruise control. -/
def commandRoute : Route :=
  match v.value.int32Values with
  | [] => .fault .outOfBounds
  | command :: _ =>
      if command = 5 ∨ command = 6 then .refused .timeGapCommandOnStandard
      else s.plainRoute env v []

/-- The routes of single properties. -/
def propertyRoute : Route :=
  if v.prop = displayBrightnessId ∨ v.prop = perDisplayBrightnessId then s.plainRoute env v []
  else if v.prop = apPowerStateReportId then s.reportRoute env v
  else if v.prop = shutdownRequestId then
    match v.value.int32Values with
    | [parameter] => .single (env.stamped s.moments (createApPowerStateReq 1 parameter))
    | _ => .refused .shutdownRequestSize
  else if v.prop = vehicleMapServiceId then .done
  else if v.prop = obd2FreezeFrameClearId then .clear v.value.int64Values
  else if v.prop = vendorPropertyForErrorCodeTestingId then .refused .vendorErrorCode
  else if v.prop = hvacPowerOnId then
    match v.value.int32Values with
    | [hvacPowerOnVal] => s.plainRoute env v
        ((env.propOrder.visit s.hvacPowerDependentProps).flatMap
          (s.powerWrites env v.areaId hvacPowerOnVal))
    | _ => .refused .hvacPowerOnSize
  else if v.prop = hvacTemperatureValueSuggestionId then s.suggestionRoute env v
  else if v.prop = hvacTemperatureSetId then
    match v.value.floatValues with
    | [temp] => s.temperatureRoute env v temp
    | _ => .refused .hvacTemperatureSetSize
  else if v.prop = hvacDualOnId then
    match v.value.int32Values with
    | [1] => s.dualRoute env v
    | [_] => s.plainRoute env v []
    | _ => .refused .hvacDualOnSize
  else if v.prop = laneCenteringAssistCommandId then
    s.availableRoute env v (s.isAdasPropertyAvailable laneCenteringAssistStateId)
  else if v.prop = cruiseControlCommandId then s.cruiseRoute env v (s.commandRoute env v)
  else if v.prop = adaptiveCruiseControlTargetTimeGapId then
    s.cruiseRoute env v (.refused .timeGapOnStandard)
  else s.plainRoute env v []

/-- The states that a switch of the driver assistance writes. -/
def adasSide (dependentPropIds : List Int) : List VehiclePropValue :=
  match v.value.int32Values with
  | [1] => dependentPropIds.flatMap (s.adasWrites 1)
  | [_] => dependentPropIds.flatMap (s.adasWrites notAvailableDisabled)
  | _ => []

/-- The route for a request, chosen in the order of the checks in `setValue`. -/
def route : Route :=
  if startingVendorCodePropertiesForTest ≤ v.prop ∧ v.prop < endingVendorCodePropertiesForTest then
    .done
  else if FakeUserHal.isSupported v.prop then s.userHalRoute env v
  else if s.isHvacPropAndHvacNotAvailable env v.prop v.areaId then .refused .hvacNotAvailable
  else
    match mAdasEnabledPropToAdasPropWithErrorState.lookup v.prop with
    | some dependentPropIds => s.plainRoute env v (s.adasSide v dependentPropIds)
    | none => s.propertyRoute env v

variable {P : Route → Prop}

private theorem ite_route {p : Prop} [Decidable p] {first second : Route} (hfirst : p → P first)
    (hsecond : P second) : P (if p then first else second) := by
  split
  · rename_i hp
    exact hfirst hp
  · exact hsecond

/-- The routes of single properties, one case for each kind. -/
theorem propertyRoute_induction (plain : P (s.plainRoute env v []))
    (refused : ∀ e, P (.refused e))
    (report : v.prop = apPowerStateReportId → P (s.reportRoute env v))
    (shutdown : v.prop = shutdownRequestId → ∀ parameter,
      P (.single (env.stamped s.moments (createApPowerStateReq 1 parameter))))
    (map : v.prop = vehicleMapServiceId → P .done)
    (clear : v.prop = obd2FreezeFrameClearId → P (.clear v.value.int64Values))
    (power : v.prop = hvacPowerOnId → ∀ side, P (s.plainRoute env v side))
    (suggestion : v.prop = hvacTemperatureValueSuggestionId → P (s.suggestionRoute env v))
    (temperature : v.prop = hvacTemperatureSetId → ∀ temp, v.value.floatValues = [temp] →
      P (s.temperatureRoute env v temp))
    (dual : v.prop = hvacDualOnId → v.value.int32Values = [1] → P (s.dualRoute env v))
    (command : v.prop = cruiseControlCommandId → P (s.cruiseRoute env v (s.commandRoute env v)))
    (timeGap : v.prop = adaptiveCruiseControlTargetTimeGapId →
      P (s.cruiseRoute env v (.refused .timeGapOnStandard))) : P (s.propertyRoute env v) := by
  refine ite_route (fun _ => plain) ?_
  refine ite_route report ?_
  refine ite_route (fun h => ?_) ?_
  · split
    · exact shutdown h _
    · exact refused _
  refine ite_route map ?_
  refine ite_route clear ?_
  refine ite_route (fun _ => refused _) ?_
  refine ite_route (fun h => ?_) ?_
  · split
    · exact power h _
    · exact refused _
  refine ite_route suggestion ?_
  refine ite_route (fun h => ?_) ?_
  · split
    · rename_i temp hfloats
      exact temperature h temp hfloats
    · exact refused _
  refine ite_route (fun h => ?_) ?_
  · split
    · rename_i hints
      exact dual h hints
    · exact plain
    · exact refused _
  refine ite_route (fun _ => ?_) ?_
  · unfold availableRoute
    split
    · exact refused _
    · exact plain
  refine ite_route command ?_
  exact ite_route timeGap plain

/-- The properties that are kept for tests are global. -/
theorem isGlobalProp_of_vendorCode {p : Int} (h : startingVendorCodePropertiesForTest ≤ p ∧
    p < endingVendorCodePropertiesForTest) : isGlobalProp p = true := by
  unfold startingVendorCodePropertiesForTest endingVendorCodePropertiesForTest at h
  obtain ⟨n, hn⟩ : ∃ n : Nat, (p % 2 ^ 32).toNat = n := ⟨_, rfl⟩
  have hquot : n / 2 ^ 24 = 0x21 := by omega
  have hmasked : n &&& 0x0f000000 = 0x01000000 := by
    have hdiv : (n &&& 0x0f000000) / 2 ^ 24 = 1 := by
      rw [Nat.and_div_two_pow, hquot]
      decide
    have hmod : (n &&& 0x0f000000) % 2 ^ 24 = 0 := by
      rw [Nat.and_mod_two_pow]
      exact Nat.and_zero _
    omega
  rw [isGlobalProp, maskedBits, hn, hmasked]
  rfl

theorem isGlobalProp_of_isSupported {p : Int} (h : FakeUserHal.isSupported p = true) :
    isGlobalProp p = true := by
  simp only [FakeUserHal.isSupported, Bool.or_eq_true, beq_iff_eq] at h
  rcases h with (((rfl | rfl) | rfl) | rfl) | rfl <;> decide

variable {env s v}

theorem propertyRoute_temperature (hprop : v.prop = hvacTemperatureSetId) {temp : Binary32}
    (hfloats : v.value.floatValues = [temp]) :
    s.propertyRoute env v = s.temperatureRoute env v temp := by
  rw [propertyRoute, hprop, hfloats]
  rfl

theorem propertyRoute_dual (hprop : v.prop = hvacDualOnId) (hints : v.value.int32Values = [1]) :
    s.propertyRoute env v = s.dualRoute env v := by
  rw [propertyRoute, hprop, hints]
  rfl

end PropertyState

end VhalCore.FakeHardware
