import VhalCore.Models.FakeHardware.Interpretation.Responses
import VhalCore.Models.FakeHardware.Interpretation.SetValueRefinement

/-!
# The elements that a set accesses

Some branches of a set access elements of vectors that nobody has checked: of the request,
of stored values and of a config. The elements exist under a condition on the request and
on the state before the set.
-/

namespace VhalCore.FakeHardware

open PropertyStore VehiclePropertyStore

/-- Every target that a synchronisation reaches has a place for the temperature. A target is
reached if the store takes all earlier ones. -/
def HasPlaces (store : VehiclePropertyStore) (ws : List VehiclePropValue) : Prop :=
  ∀ before w after, ws = before ++ w :: after → (∀ x ∈ before, store.Writable x) →
    w.value.floatValues ≠ []

/-- The elements that a set accesses exist. -/
structure InBounds (env : Environment) (s : PropertyState) (v : VehiclePropValue) : Prop where
  report : v.prop = apPowerStateReportId →
    s.mServerSidePropStore.Writable (env.stamped s.moments v) → v.value.int32Values ≠ []
  suggestion : v.prop = hvacTemperatureValueSuggestionId → ∀ config,
    s.mServerSidePropStore.getPropConfig hvacTemperatureSetId = .ok config →
    ∀ a unit c d, v.value.floatValues = [a, unit, c, d] →
    unit.eq (.ofInt 0x30) = true ∨ unit.eq (.ofInt 0x31) = true → 6 ≤ config.configArray.length
  temperature : v.prop = hvacTemperatureSetId → ∀ temp, v.value.floatValues = [temp] →
    ∀ areaId, s.getSyncedAreaIdIfHvacDualOn env v.areaId = some areaId →
    ∀ values, s.readValuesForProperty env hvacTemperatureSetId = .ok values →
    HasPlaces s.mServerSidePropStore
      (env.stampFrom s.moments ((syncTargets areaId values).map (setTemp temp)))
  dual : v.prop = hvacDualOnId → v.value.int32Values = [1] →
    ∀ values, s.readValuesForProperty env hvacTemperatureSetId = .ok values →
    ∀ first targets, syncTargets v.areaId values = first :: targets →
    ∃ temp, first.value.floatValues.head? = some temp ∧ HasPlaces s.mServerSidePropStore
      (env.stampFrom s.moments (targets.map (setTemp temp)))
  cruise : v.prop = cruiseControlCommandId ∨ v.prop = adaptiveCruiseControlTargetTimeGapId →
    s.isAdasPropertyAvailable cruiseControlStateId = .ok () →
    ∀ type, s.mServerSidePropStore.readValueOf cruiseControlTypeId 0 0 = .ok type →
    type.value.int32Values ≠ []
  command : v.prop = cruiseControlCommandId →
    s.isAdasPropertyAvailable cruiseControlStateId = .ok () →
    ∀ type, s.mServerSidePropStore.readValueOf cruiseControlTypeId 0 0 = .ok type →
    type.value.int32Values.head? = some 1 → v.value.int32Values ≠ []

section Places

variable {store : VehiclePropertyStore}

theorem hasPlaces_nil (store : VehiclePropertyStore) : HasPlaces store [] := by
  intro before w after h
  cases before <;> cases h

/-- All writes have a place for a temperature if the first has, and the others where the first
succeeds. -/
theorem hasPlaces_cons (w : VehiclePropValue) (ws : List VehiclePropValue) :
    HasPlaces store (w :: ws) ↔
      w.value.floatValues ≠ [] ∧ (store.Writable w → HasPlaces store ws) := by
  constructor
  · intro h
    refine ⟨h [] w ws rfl (by simp), fun hw before x after heq hbefore => ?_⟩
    exact h (w :: before) x after (by rw [heq]; rfl) (List.forall_mem_cons.mpr ⟨hw, hbefore⟩)
  · rintro ⟨hne, hrest⟩ before x after heq hbefore
    cases before with
    | nil =>
        cases heq
        exact hne
    | cons y before =>
        cases heq
        obtain ⟨hy, hbefore⟩ := List.forall_mem_cons.mp hbefore
        exact hrest hy before x after rfl hbefore

/-- The writes of a synchronisation are defined exactly if they have their places. -/
theorem reached_ne_outOfBounds_iff (ws : List VehiclePropValue) :
    reached store ws ≠ .error .outOfBounds ↔ HasPlaces store ws := by
  induction ws with
  | nil => exact iff_of_true (by rintro ⟨⟩) (hasPlaces_nil store)
  | cons w ws ih =>
      rw [hasPlaces_cons, reached]
      split
      · rename_i hempty
        exact iff_of_false (fun h => h rfl) fun h => h.1 hempty
      · rename_i hne
        rw [and_iff_right hne]
        split
        · rename_i hw
          rw [← ih, imp_iff_right hw]
          rcases reached store ws with f | rest
          · exact Iff.rfl
          · exact iff_of_true (by rintro ⟨⟩) (by rintro ⟨⟩)
        · rename_i hw
          exact iff_of_true (by rintro ⟨⟩) fun h => absurd h hw

end Places

namespace PropertyState

variable (env : Environment) (s : PropertyState) (v : VehiclePropValue)

/-- A power report stays in bounds exactly if it has a state or is not written. -/
theorem report_inBounds_iff : s.reportRoute env v ≠ .fault .outOfBounds ↔
    (s.mServerSidePropStore.Writable (env.stamped s.moments v) → v.value.int32Values ≠ []) := by
  unfold reportRoute
  rcases v.value.int32Values with _ | ⟨state, rest⟩
  · simp only
    split
    · rename_i hw
      exact iff_of_false (fun h => h rfl) fun h => h hw rfl
    · rename_i hw
      exact iff_of_true nofun fun h => absurd h hw
  · exact iff_of_true nofun fun _ => nofun

/-- Counting the increments gives a number or fails in the conversion. -/
theorem getHvacTempNumIncrements_cases (requestedTemp minTemp maxTemp increment : Int) :
    (∃ n, getHvacTempNumIncrements requestedTemp minTemp maxTemp increment = .ok n) ∨
      getHvacTempNumIncrements requestedTemp minTemp maxTemp increment = .error .conversion := by
  unfold getHvacTempNumIncrements
  simp only
  split
  · exact Or.inl ⟨_, rfl⟩
  · exact Or.inr rfl

/-- Six elements of the config are read. -/
theorem suggestionInput_inBounds_iff (configArray : List Int) (a unit c d : Binary32) :
    updateHvacTemperatureValueSuggestionInput configArray [a, unit, c, d] ≠ .error .outOfBounds ↔
      6 ≤ configArray.length := by
  rcases configArray with _ | ⟨c0, _ | ⟨c1, _ | ⟨c2, _ | ⟨c3, _ | ⟨c4, _ | ⟨c5, rest⟩⟩⟩⟩⟩⟩
  case cons.cons.cons.cons.cons.cons =>
    refine iff_of_true ?_ (by simp)
    simp only [updateHvacTemperatureValueSuggestionInput, elementAt, List.getElem?_cons_zero,
      List.getElem?_cons_succ, bind, Except.bind]
    rcases (a.mul (.ofInt 10)).toInt (-2 ^ 31) (2 ^ 31 - 1) with _ | requestedTemp
    · exact nofun
    · simp only
      split_ifs
      · rcases getHvacTempNumIncrements_cases requestedTemp c0 c1 c2 with ⟨n, hn⟩ | hn
        · rw [hn]
          exact nofun
        · rw [hn]
          exact nofun
      · rcases getHvacTempNumIncrements_cases requestedTemp c3 c4 c5 with ⟨n, hn⟩ | hn
        · rw [hn]
          exact nofun
        · rw [hn]
          exact nofun
  all_goals exact iff_of_false (fun h => h rfl) (by simp)

/-- A suggestion stays in bounds exactly if the configuration has its six elements, where they are
read. -/
theorem suggestion_inBounds_iff : s.suggestionRoute env v ≠ .fault .outOfBounds ↔
    ∀ config, s.mServerSidePropStore.getPropConfig hvacTemperatureSetId = .ok config →
      ∀ a unit c d, v.value.floatValues = [a, unit, c, d] →
      unit.eq (.ofInt 0x30) = true ∨ unit.eq (.ofInt 0x31) = true →
      6 ≤ config.configArray.length := by
  unfold suggestionRoute
  rcases s.mServerSidePropStore.getPropConfig hvacTemperatureSetId with e | config
  · exact iff_of_true nofun fun config hconfig => by cases hconfig
  · rcases v.value.floatValues with _ | ⟨a, _ | ⟨unit, _ | ⟨c, _ | ⟨d, _ | ⟨_, _⟩⟩⟩⟩⟩
    case cons.cons.cons.cons.nil =>
      rcases hunit : !unit.eq (.ofInt 0x30) && !unit.eq (.ofInt 0x31)
      · have hallowed : unit.eq (.ofInt 0x30) = true ∨ unit.eq (.ofInt 0x31) = true := by
          simpa only [← Bool.not_or, Bool.not_eq_false', Bool.or_eq_true] using hunit
        have hinput := suggestionInput_inBounds_iff config.configArray a unit c d
        simp only [hunit, Bool.false_eq_true, ite_false]
        constructor
        · rintro h config' ⟨⟩ a' unit' c' d' ⟨⟩ _
          refine hinput.mp fun hfault => h ?_
          rw [hfault]
        · intro h
          have := hinput.mpr (h config rfl a unit c d rfl hallowed)
          rcases hupdate : updateHvacTemperatureValueSuggestionInput config.configArray
            [a, unit, c, d] with f | floatValues
          · rintro ⟨⟩
            exact this hupdate
          · exact nofun
      · have hrefused : ¬(unit.eq (.ofInt 0x30) = true ∨ unit.eq (.ofInt 0x31) = true) := by
          simpa only [← Bool.not_or, Bool.not_eq_true', ← Bool.not_eq_true, Bool.or_eq_true]
            using hunit
        simp only [hunit, ite_true]
        refine iff_of_true nofun ?_
        rintro config' ⟨⟩ a' unit' c' d' ⟨⟩ hallowed
        exact absurd hallowed hrefused
    all_goals exact iff_of_true nofun fun _ _ _ _ _ _ => nofun

/-- A temperature stays in bounds exactly if all values that it is copied to have a place for it. -/
theorem temperature_inBounds_iff (temp : Binary32) :
    s.temperatureRoute env v temp ≠ .fault .outOfBounds ↔
      ∀ areaId, s.getSyncedAreaIdIfHvacDualOn env v.areaId = some areaId →
      ∀ values, s.readValuesForProperty env hvacTemperatureSetId = .ok values →
      HasPlaces s.mServerSidePropStore
        (env.stampFrom s.moments ((syncTargets areaId values).map (setTemp temp))) := by
  unfold temperatureRoute
  rcases s.getSyncedAreaIdIfHvacDualOn env v.areaId with _ | areaId
  · exact iff_of_true (by rintro ⟨⟩) (by rintro _ ⟨⟩)
  · rcases s.readValuesForProperty env hvacTemperatureSetId with e | values
    · exact iff_of_true (by rintro ⟨⟩) (by rintro _ _ _ ⟨⟩)
    · simp only [Option.some.injEq, forall_eq', Except.ok.injEq, ← reached_ne_outOfBounds_iff,
        syncWrites]
      rcases reached s.mServerSidePropStore
        (env.stampFrom s.moments ((syncTargets areaId values).map (setTemp temp))) with f | ws
      · simp
      · exact iff_of_true (by rintro ⟨⟩) (by rintro ⟨⟩)

/-- The dual mode stays in bounds exactly if the first value has a temperature, and the others a
place for it. -/
theorem dual_inBounds_iff : s.dualRoute env v ≠ .fault .outOfBounds ↔
    ∀ values, s.readValuesForProperty env hvacTemperatureSetId = .ok values →
    ∀ first targets, syncTargets v.areaId values = first :: targets →
    ∃ temp, first.value.floatValues.head? = some temp ∧ HasPlaces s.mServerSidePropStore
      (env.stampFrom s.moments (targets.map (setTemp temp))) := by
  unfold dualRoute
  rcases s.readValuesForProperty env hvacTemperatureSetId with e | values
  · exact iff_of_true (by rintro ⟨⟩) (by rintro _ ⟨⟩)
  · simp only [Except.ok.injEq, forall_eq', ← reached_ne_outOfBounds_iff, syncWrites]
    rcases syncTargets v.areaId values with _ | ⟨first, targets⟩
    · exact iff_of_true (by rintro ⟨⟩) (by rintro _ _ ⟨⟩)
    · rcases hfloats : first.value.floatValues with _ | ⟨temp, rest⟩
      · refine iff_of_false (fun h => h ?_) fun h => ?_
        · simp only [hfloats]
          rfl
        · obtain ⟨temp, htemp, _⟩ := h first targets rfl
          rw [hfloats] at htemp
          cases htemp
      · have helement : elementAt (temp :: rest) 0 = .ok temp := rfl
        simp only [hfloats, helement, bind, Except.bind]
        constructor
        · rintro h first' targets' ⟨⟩
          refine ⟨temp, by rw [hfloats]; rfl, fun hfault => h ?_⟩
          rw [hfault]
        · intro h
          obtain ⟨temp', htemp, hplaces⟩ := h first targets rfl
          rw [hfloats] at htemp
          cases htemp
          rcases hreached : reached s.mServerSidePropStore
            (env.stampFrom s.moments (targets.map (setTemp temp))) with f | ws
          · rintro ⟨⟩
            exact hplaces hreached
          · rintro ⟨⟩

/-- The type of the cruise control is undefined only without a stored element. -/
theorem isCruiseControlTypeStandard_cases :
    (∃ type, s.mServerSidePropStore.readValueOf cruiseControlTypeId 0 0 = .ok type ∧
      type.value.int32Values = [] ∧ s.isCruiseControlTypeStandard = .error .outOfBounds) ∨
    (∀ type, s.mServerSidePropStore.readValueOf cruiseControlTypeId 0 0 = .ok type →
      type.value.int32Values ≠ []) ∧ s.isCruiseControlTypeStandard ≠ .error .outOfBounds ∧
      (s.isCruiseControlTypeStandard = .ok (.ok true) ↔
        ∃ type, s.mServerSidePropStore.readValueOf cruiseControlTypeId 0 0 = .ok type ∧
          type.value.int32Values.head? = some 1) := by
  unfold isCruiseControlTypeStandard isAdasPropertyAvailable
  rcases s.mServerSidePropStore.readValueOf cruiseControlTypeId 0 0 with e | type
  · refine Or.inr ⟨fun type htype => ?_, nofun, iff_of_false nofun (by simp)⟩
    cases htype
  · rcases hints : type.value.int32Values with _ | ⟨i, _ | ⟨j, rest⟩⟩
    · exact Or.inl ⟨type, rfl, hints, by simp only [hints]; rfl⟩
    · refine Or.inr ⟨?_, ?_, ?_⟩
      · rintro type' ⟨⟩
        simp [hints]
      · by_cases hi : i < 0
        · simp [hints, hi]
        · simp only [hints, hi, ite_false]
          exact nofun
      · by_cases hi : i < 0
        · have hne : i ≠ 1 := by omega
          simp [hints, hi, hne]
        · simp only [hints, hi, ite_false]
          change (Except.ok (Except.ok (i == 1)) : Except Fault (Except SetValueError Bool)) = _ ↔ _
          simp [hints]
    · refine Or.inr ⟨?_, ?_, ?_⟩
      · rintro type' ⟨⟩
        simp [hints]
      · simp only [hints]
        exact nofun
      · simp only [hints]
        change (Except.ok (Except.ok (i == 1)) : Except Fault (Except SetValueError Bool)) = _ ↔ _
        simp [hints]

/-- A cruise control request stays in bounds exactly if the type has an element, and the route for
the standard type stays in bounds. -/
theorem cruise_inBounds_iff (onStandard : Route) :
    s.cruiseRoute env v onStandard ≠ .fault .outOfBounds ↔
      (s.isAdasPropertyAvailable cruiseControlStateId = .ok () →
        ∀ type, s.mServerSidePropStore.readValueOf cruiseControlTypeId 0 0 = .ok type →
        type.value.int32Values ≠ [] ∧
          (type.value.int32Values.head? = some 1 → onStandard ≠ .fault .outOfBounds)) := by
  unfold cruiseRoute
  rcases s.isAdasPropertyAvailable cruiseControlStateId with e | _
  · exact iff_of_true nofun nofun
  · rw [imp_iff_right rfl]
    rcases s.isCruiseControlTypeStandard_cases with ⟨type, hread, hempty, hfault⟩ |
      ⟨hne, hdefined, htrue⟩
    · rw [hfault]
      exact iff_of_false (fun h => h rfl) fun h => (h type hread).1 hempty
    · rcases hstandard : s.isCruiseControlTypeStandard with f | e | _ | _
      · rw [hstandard] at hdefined htrue
        refine iff_of_true (fun h => ?_) fun type hread => ⟨hne type hread, fun hone => ?_⟩
        · cases h
          exact hdefined rfl
        · cases htrue.mpr ⟨type, hread, hone⟩
      · rw [hstandard] at htrue
        refine iff_of_true nofun fun type hread => ⟨hne type hread, fun hone => ?_⟩
        cases htrue.mpr ⟨type, hread, hone⟩
      · rw [hstandard] at htrue
        refine iff_of_true nofun fun type hread => ⟨hne type hread, fun hone => ?_⟩
        cases htrue.mpr ⟨type, hread, hone⟩
      · obtain ⟨type, hread, hone⟩ := htrue.mp hstandard
        constructor
        · exact fun h type hread => ⟨hne type hread, fun _ => h⟩
        · exact fun h => (h type hread).2 hone

/-- A command stays in bounds exactly if it has an element. -/
theorem command_inBounds_iff : s.commandRoute env v ≠ .fault .outOfBounds ↔
    v.value.int32Values ≠ [] := by
  unfold commandRoute
  rcases v.value.int32Values with _ | ⟨command, rest⟩
  · exact iff_of_false (fun h => h rfl) fun h => h rfl
  · refine iff_of_true ?_ nofun
    simp only
    split <;> exact nofun

/-- The properties with accesses to elements have no earlier branch. -/
theorem route_eq_propertyRoute
    (hprop : v.prop ∈ [apPowerStateReportId, hvacTemperatureValueSuggestionId,
      hvacTemperatureSetId, hvacDualOnId, cruiseControlCommandId,
      adaptiveCruiseControlTargetTimeGapId])
    (havailable : s.isHvacPropAndHvacNotAvailable env v.prop v.areaId = false) :
    s.route env v = s.propertyRoute env v := by
  have hids : ∀ p ∈ [apPowerStateReportId, hvacTemperatureValueSuggestionId,
      hvacTemperatureSetId, hvacDualOnId, cruiseControlCommandId,
      adaptiveCruiseControlTargetTimeGapId],
      ¬(startingVendorCodePropertiesForTest ≤ p ∧ p < endingVendorCodePropertiesForTest) ∧
        FakeUserHal.isSupported p = false ∧
        mAdasEnabledPropToAdasPropWithErrorState.lookup p = none := by
    decide
  obtain ⟨hvendor, huser, hadas⟩ := hids v.prop hprop
  unfold route
  rw [if_neg hvendor, huser, havailable, hadas]
  rfl

variable {env s v}

/-- The route for a request in bounds never reads outside a vector. -/
theorem propertyRoute_ne_fault (h : InBounds env s v) :
    s.propertyRoute env v ≠ .fault .outOfBounds := by
  refine propertyRoute_induction env s v (P := (· ≠ .fault .outOfBounds)) nofun
    (fun _ => nofun) ?_ (fun _ _ => nofun) (fun _ => nofun) (fun _ => nofun) (fun _ _ => nofun)
    ?_ ?_ ?_ ?_ ?_
  · exact fun hprop => (report_inBounds_iff env s v).mpr (h.report hprop)
  · exact fun hprop => (suggestion_inBounds_iff env s v).mpr (h.suggestion hprop)
  · intro hprop temp hfloats
    exact (temperature_inBounds_iff env s v temp).mpr (h.temperature hprop temp hfloats)
  · exact fun hprop hints => (dual_inBounds_iff env s v).mpr (h.dual hprop hints)
  · intro hprop
    refine (cruise_inBounds_iff env s v _).mpr fun havailable type hread => ⟨?_, fun hone => ?_⟩
    · exact h.cruise (Or.inl hprop) havailable type hread
    · exact (command_inBounds_iff env s v).mpr (h.command hprop havailable type hread hone)
  · intro hprop
    refine (cruise_inBounds_iff env s v _).mpr fun havailable type hread => ⟨?_, fun _ => nofun⟩
    exact h.cruise (Or.inr hprop) havailable type hread

theorem propertyRoute_report (hprop : v.prop = apPowerStateReportId) :
    s.propertyRoute env v = s.reportRoute env v := by
  rw [propertyRoute, hprop]
  rfl

theorem propertyRoute_suggestion (hprop : v.prop = hvacTemperatureValueSuggestionId) :
    s.propertyRoute env v = s.suggestionRoute env v := by
  rw [propertyRoute, hprop]
  rfl

theorem propertyRoute_command (hprop : v.prop = cruiseControlCommandId) :
    s.propertyRoute env v = s.cruiseRoute env v (s.commandRoute env v) := by
  rw [propertyRoute, hprop]
  rfl

theorem propertyRoute_timeGap (hprop : v.prop = adaptiveCruiseControlTargetTimeGapId) :
    s.propertyRoute env v = s.cruiseRoute env v (.refused .timeGapOnStandard) := by
  rw [propertyRoute, hprop]
  rfl

/-- A route that never reads outside a vector is for a request in bounds. -/
theorem inBounds_of_propertyRoute (h : s.propertyRoute env v ≠ .fault .outOfBounds) :
    InBounds env s v where
  report hprop := by
    rw [propertyRoute_report hprop] at h
    exact (report_inBounds_iff env s v).mp h
  suggestion hprop := by
    rw [propertyRoute_suggestion hprop] at h
    exact (suggestion_inBounds_iff env s v).mp h
  temperature hprop temp hfloats := by
    rw [propertyRoute_temperature hprop hfloats] at h
    exact (temperature_inBounds_iff env s v temp).mp h
  dual hprop hints := by
    rw [propertyRoute_dual hprop hints] at h
    exact (dual_inBounds_iff env s v).mp h
  cruise hprop havailable type hread := by
    rcases hprop with hprop | hprop
    · rw [propertyRoute_command hprop] at h
      exact ((cruise_inBounds_iff env s v _).mp h havailable type hread).1
    · rw [propertyRoute_timeGap hprop] at h
      exact ((cruise_inBounds_iff env s v _).mp h havailable type hread).1
  command hprop havailable type hread hone := by
    rw [propertyRoute_command hprop] at h
    have hcommand := ((cruise_inBounds_iff env s v _).mp h havailable type hread).2 hone
    exact (command_inBounds_iff env s v).mp hcommand

/-- The user HAL never fails in reachable states. -/
theorem userHalRoute_ne_fault (h : s.mFakeUserHal.Reachable) (f : Fault) :
    s.userHalRoute env v ≠ .fault f := by
  obtain ⟨outcome, after, hresult, _⟩ :=
    FakeUserHal.onSetProperty_regular h.wellFormed (env.clock s.moments) v
  unfold userHalRoute
  rw [hresult]
  rcases outcome with e | _ | w <;> exact nofun

/-- Only the undefined routes give a fault. -/
theorem setValue_fault_iff (hvalid : s.mServerSidePropStore.Valid) (f : Fault) :
    s.setValue env v = .error f ↔ s.route env v = .fault f := by
  have hview : view (s.setValue env v) = .error f ↔ s.setValue env v = .error f := by
    rcases s.setValue env v with g | ⟨result, after⟩
    · simp [view, Except.map]
    · simp [view, Except.map]
  rw [← hview, view_setValue env s v hvalid]
  rcases s.route env v with _ | _ | g | _ | _ | ⟨w, request⟩ | _ | timestamps
  all_goals simp only [Route.run, reduceCtorEq, Except.error.injEq, Route.fault.injEq]
  · rcases s.board.write w false .onValueChange with ⟨e | _, b⟩
    · simp
    · rcases request with _ | ⟨r, eventMode⟩ <;> simp
  · split <;> simp

end PropertyState

/-- In every state that the hardware reaches a set accesses existing elements only, exactly
if the property is refused for the state of the power or the elements exist. -/
theorem setValue_inBounds_iff (env : Environment) (s : PropertyState) (v : VehiclePropValue)
    (hreachable : Reachable s.mServerSidePropStore) (hhal : s.mFakeUserHal.Reachable) :
    s.setValue env v ≠ .error .outOfBounds ↔
      (s.isHvacPropAndHvacNotAvailable env v.prop v.areaId = false → InBounds env s v) := by
  rw [ne_eq, PropertyState.setValue_fault_iff hreachable.valid]
  constructor
  · intro h havailable
    by_cases hprop : v.prop ∈ [apPowerStateReportId, hvacTemperatureValueSuggestionId,
      hvacTemperatureSetId, hvacDualOnId, cruiseControlCommandId,
      adaptiveCruiseControlTargetTimeGapId]
    · rw [PropertyState.route_eq_propertyRoute env s v hprop havailable] at h
      exact PropertyState.inBounds_of_propertyRoute h
    · simp only [List.mem_cons, List.not_mem_nil, or_false, not_or] at hprop
      obtain ⟨h₁, h₂, h₃, h₄, h₅, h₆⟩ := hprop
      exact ⟨fun h => absurd h h₁, fun h => absurd h h₂, fun h => absurd h h₃,
        fun h => absurd h h₄, fun h => absurd h (not_or.mpr ⟨h₅, h₆⟩), fun h => absurd h h₅⟩
  · intro h
    unfold PropertyState.route
    split_ifs with _ _ havailable
    · exact nofun
    · exact PropertyState.userHalRoute_ne_fault hhal _
    · exact nofun
    · split
      · exact nofun
      · exact PropertyState.propertyRoute_ne_fault (h (Bool.not_eq_true _ ▸ havailable))

/-- A store that takes reports of the power state. -/
def reportStore : VehiclePropertyStore :=
  Operation.run [.registerProperty { prop := apPowerStateReportId } none] {}

theorem reportStore_reachable : Reachable reportStore := by
  refine .run .empty fun op hop store => ?_
  rw [List.mem_singleton.mp hop]
  exact Or.inl rfl

/-- A report with some elements. -/
def powerReport (int32Values : List Int) : VehiclePropValue :=
  { prop := apPowerStateReportId, value := { int32Values } }

/-- The state of a report without elements is read all the same. -/
theorem empty_powerReport_outOfBounds :
    Reachable reportStore ∧ ({} : FakeUserHal).Reachable ∧
      (PropertyState.mk reportStore {} ∅ [] 0).setValue .still (powerReport []) =
        .error .outOfBounds :=
  ⟨reportStore_reachable, .start, rfl⟩

/-- With the state the report is handled. -/
theorem powerReport_inBounds :
    (PropertyState.mk reportStore {} ∅ [] 0).setValue .still (powerReport [2, 0]) ≠
      .error .outOfBounds := by
  refine (setValue_inBounds_iff .still (PropertyState.mk reportStore {} ∅ [] 0)
    (powerReport [2, 0]) reportStore_reachable .start).mpr fun _ => ?_
  refine ⟨fun _ _ => nofun, ?_, ?_, ?_, ?_, ?_⟩
  · exact fun h => absurd h (by decide)
  · exact fun h => absurd h (by decide)
  · exact fun h => absurd h (by decide)
  · exact fun h => absurd h (by decide)
  · exact fun h => absurd h (by decide)

end VhalCore.FakeHardware
