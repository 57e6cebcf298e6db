import VhalCore.Models.FakeHardware.Correctness.Bounds
import VhalCore.Models.FakeHardware.Correctness.DebugCommands
import VhalCore.Models.FakeHardware.Correctness.UserResponses

/-!
# Values of the type of their property

The service checks that a value has the elements that the type of its property asks for, before
the hardware sets it. The hardware relies on that: a call with such a value accesses no element
that does not exist, also of the values that are stored. Whatever a call writes besides its own
value has the type of its property, too, so that this holds over every run.
-/

namespace VhalCore.FakeHardware

open PropertyStore VehiclePropertyStore

/-- A property of values for which only their property id and their payload matter. -/
def OfPayload (W : VehiclePropValue → Prop) : Prop :=
  ∀ v w, w.prop = v.prop → w.value = v.value → W v → W w

/-- All that is stored, and all that was told, has a property. -/
structure Board.Holds (W : VehiclePropValue → Prop) (b : Board) : Prop where
  stored : ∀ propId recId x, b.store.stored propId recId = some x → W x
  told : ∀ c ∈ b.emitted, ∀ x ∈ c.values, W x

/-- The route writes values with a property only. -/
def Route.Writes (W : VehiclePropValue → Prop) : Route → Prop
  | .single w => W w
  | .plain side w => (∀ x ∈ side, W x) ∧ W w
  | .report w request => W w ∧ ∀ r, request = some r → W r.1
  | .synchronized ws => ∀ w ∈ ws, W w
  | _ => True

section Writes

variable {W : VehiclePropValue → Prop} {b after : Board} {w : VehiclePropValue}
  {ws : List VehiclePropValue}

namespace Board.Holds

/-- A write of a value that satisfies the property keeps it on the board. -/
theorem write (h : b.Holds W) (hW : OfPayload W) (hw : W w) (updateStatus : Bool)
    (eventMode : PropertyStore.EventMode) : (b.write w updateStatus eventMode).2.Holds W := by
  by_cases hwritable : b.store.Writable w
  · have hnew : W (b.store.written updateStatus w) := hW w _ rfl rfl hw
    rw [write_of_writable hwritable]
    refine ⟨fun propId recId x hx => ?_, fun c hc x hx => ?_⟩
    · rw [stored_put hwritable.registered] at hx
      split at hx
      · cases hx
        exact hnew
      · exact h.stored propId recId x hx
    · rcases List.mem_append.mp hc with hc | hc
      · exact h.told c hc x hx
      · rw [values_of_mem_callbacksOf hc, List.mem_singleton] at hx
        rw [hx]
        exact hnew
  · obtain ⟨e, he⟩ := write_of_not_writable hwritable updateStatus eventMode
    rw [he]
    exact h

/-- Attempts to write such values keep it on the board. -/
theorem attemptAll (h : b.Holds W) (hW : OfPayload W) (hws : ∀ w ∈ ws, W w) :
    (b.attemptAll ws).Holds W := by
  induction ws generalizing b with
  | nil => exact h
  | cons w ws ih =>
      rw [List.forall_mem_cons] at hws
      exact ih (h.write hW hws.1 true .always) hws.2

/-- Attempts up to the first failure keep it on the board. -/
theorem attemptUntil (h : b.Holds W) (hW : OfPayload W) (hws : ∀ w ∈ ws, W w) :
    (b.attemptUntil ws).2.Holds W := by
  induction ws generalizing b with
  | nil => exact h
  | cons w ws ih =>
      rw [List.forall_mem_cons] at hws
      have hfirst := h.write hW hws.1 true .always
      rw [Board.attemptUntil]
      rcases hwrite : b.write w true .always with ⟨e | _, c⟩
      · rw [hwrite] at hfirst
        exact hfirst
      · rw [hwrite] at hfirst
        exact ih hfirst hws.2

/-- Losing values keeps the property on the board. -/
theorem loses (h : b.Holds W) {store : VehiclePropertyStore} (hl : Loses b.store store) :
    Board.Holds W { b with store } :=
  ⟨fun propId recId x hx => h.stored propId recId x (hl.stored propId recId x hx), h.told⟩

end Board.Holds

/-- Clearing frames stores nothing. -/
theorem stored_of_stored_clearFrames {store : VehiclePropertyStore} {timestamps : List Int}
    {propId : Int} {recId : RecordId} {x : VehiclePropValue}
    (h : (PropertyState.clearFrames timestamps store).2.stored propId recId = some x) :
    store.stored propId recId = some x := by
  induction timestamps generalizing store with
  | nil => exact h
  | cons timestamp timestamps ih =>
      rw [PropertyState.clearFrames] at h
      split at h
      · exact h
      · exact (loses_removeValue store _).stored propId recId x (ih h)

/-- A route keeps what holds of the values that it writes. -/
theorem Route.Writes.holds {route : Route} {result : Except SetValueError Unit}
    (h : route.Writes W) (hW : OfPayload W) (hb : b.Holds W)
    (hrun : route.run b = .ok (result, after)) : after.Holds W := by
  cases route with
  | done | refused error =>
      cases hrun
      exact hb
  | fault f => cases hrun
  | single w =>
      have hafter : (b.write w true .always).2 = after := congrArg Prod.snd (Except.ok.inj hrun)
      exact hafter ▸ hb.write hW h true .always
  | plain side w =>
      have hafter : ((b.attemptAll side).write w false .onValueChange).2 = after :=
        congrArg Prod.snd (Except.ok.inj hrun)
      exact hafter ▸ (hb.attemptAll hW h.1).write hW h.2 false .onValueChange
  | report w request =>
      have hfirst := hb.write hW h.1 false .onValueChange
      rcases hwrite : b.write w false .onValueChange with ⟨e | _, c⟩
      · rw [hwrite] at hfirst
        simp only [run, hwrite] at hrun
        cases hrun
        exact hfirst
      · rw [hwrite] at hfirst
        rcases request with _ | ⟨r, eventMode⟩
        · simp only [run, hwrite] at hrun
          cases hrun
          exact hfirst
        · simp only [run, hwrite] at hrun
          have hafter : (c.write r true eventMode).2 = after :=
            congrArg Prod.snd (Except.ok.inj hrun)
          exact hafter ▸ hfirst.write hW (h.2 _ rfl) true eventMode
  | synchronized ws =>
      have hafter : (b.attemptUntil ws).2 = after := congrArg Prod.snd (Except.ok.inj hrun)
      exact hafter ▸ hb.attemptUntil hW h
  | clear timestamps =>
      rw [Route.run] at hrun
      split at hrun
      · cases hrun
        exact hb.loses (loses_removeValuesForProperty b.store obd2FreezeFrameId)
      · cases hrun
        exact ⟨fun propId recId x hx => hb.stored propId recId x (stored_of_stored_clearFrames hx),
          hb.told⟩

end Writes

/-- If its property is registered, the value passes the check of its type. -/
def WellTyped (start : PropertyState) (v : VehiclePropValue) : Prop :=
  ∀ config tokenFunction, start.mServerSidePropStore.registration v.prop =
    some (config, tokenFunction) → checkPropValue v config = some (.ok ())

/-- The property is registered and the value passes the check of its type. -/
def Checked (start : PropertyState) (v : VehiclePropValue) : Prop :=
  ∃ config tokenFunction, start.mServerSidePropStore.registration v.prop =
    some (config, tokenFunction) ∧ checkPropValue v config = some (.ok ())

section Types

variable {start : PropertyState} {v w : VehiclePropValue} {config : VehiclePropConfig}

/-- The check depends on the property and the payload only. -/
theorem checkPropValue_congr (hprop : w.prop = v.prop) (hvalue : w.value = v.value) :
    checkPropValue w config = checkPropValue v config := by
  unfold checkPropValue checkVendorMixedPropValue
  rw [hprop, hvalue]

/-- Being well typed depends on the property and the payload only. -/
theorem ofPayload_wellTyped (start : PropertyState) : OfPayload (WellTyped start) := by
  intro v w hprop hvalue h config tokenFunction hregistration
  rw [hprop] at hregistration
  rw [checkPropValue_congr hprop hvalue]
  exact h config tokenFunction hregistration

/-- A stamp leaves a value well typed. -/
theorem WellTyped.stamped (h : WellTyped start v) (env : Environment) (k : Nat) :
    WellTyped start (env.stamped k v) := ofPayload_wellTyped start v _ rfl rfl h

/-- A checked value is well typed. -/
theorem Checked.wellTyped (h : Checked start v) : WellTyped start v := by
  obtain ⟨config, tokenFunction, hregistration, hcheck⟩ := h
  rintro other _ hother
  cases hregistration.symm.trans hother
  exact hcheck

/-- A Boolean has one integer. -/
theorem checkPropValue_boolean_iff (htype : getPropType v.prop = some .boolean) :
    checkPropValue v config = some (.ok ()) ↔ v.value.int32Values.length = 1 := by
  rw [checkPropValue, htype]
  simp [expectOne]

/-- An integer has one integer. -/
theorem checkPropValue_int32_iff (htype : getPropType v.prop = some .int32) :
    checkPropValue v config = some (.ok ()) ↔ v.value.int32Values.length = 1 := by
  rw [checkPropValue, htype]
  simp [expectOne]

/-- A vector of integers is not empty. -/
theorem checkPropValue_int32Vec_iff (htype : getPropType v.prop = some .int32Vec) :
    checkPropValue v config = some (.ok ()) ↔ 1 ≤ v.value.int32Values.length := by
  rw [checkPropValue, htype, Nat.succ_le_iff, List.length_pos_iff]
  simp [expectAtLeastOne]

/-- A float has one float. -/
theorem checkPropValue_float_iff (htype : getPropType v.prop = some .float) :
    checkPropValue v config = some (.ok ()) ↔ v.value.floatValues.length = 1 := by
  rw [checkPropValue, htype]
  simp [expectOne]

/-- A vector of floats is not empty. -/
theorem checkPropValue_floatVec_iff (htype : getPropType v.prop = some .floatVec) :
    checkPropValue v config = some (.ok ()) ↔ 1 ≤ v.value.floatValues.length := by
  rw [checkPropValue, htype, Nat.succ_le_iff, List.length_pos_iff]
  simp [expectAtLeastOne]

/-- A value of one integer is well typed for an integer property. -/
theorem wellTyped_int32 (htype : getPropType v.prop = some .int32)
    (hlength : v.value.int32Values.length = 1) : WellTyped start v :=
  fun _ _ _ => (checkPropValue_int32_iff htype).mpr hlength

/-- A mixed value of the system may have any payload. -/
theorem wellTyped_mixed (htype : getPropType v.prop = some .mixed)
    (hvendor : isVendorProp v.prop = false) : WellTyped start v := by
  intro config tokenFunction _
  rw [checkPropValue, htype]
  simp only [hvendor, Bool.false_eq_true, if_false]

/-- The properties of the user HAL are mixed ones of the system. -/
theorem isMixed_of_isSupported {propId : Int} (h : FakeUserHal.isSupported propId = true) :
    getPropType propId = some .mixed ∧ isVendorProp propId = false := by
  simp only [FakeUserHal.isSupported, Bool.or_eq_true, beq_iff_eq] at h
  rcases h with (((rfl | rfl) | rfl) | rfl) | rfl <;> decide

/-- The diagnostic properties are mixed ones of the system. -/
theorem isMixed_of_isDiagnostic {propId : Int} (h : IsDiagnostic propId) :
    getPropType propId = some .mixed ∧ isVendorProp propId = false := by
  rcases h with rfl | rfl | rfl | rfl <;> decide

/-- The states of the driver assistance are integers. -/
theorem isInt32_of_isAdasState {propId : Int} (h : IsAdasState propId) :
    getPropType propId = some .int32 := by
  obtain ⟨e, he, hmem⟩ := h
  have hall : ∀ e ∈ mAdasEnabledPropToAdasPropWithErrorState, ∀ p ∈ e.2,
      getPropType p = some .int32 := by decide
  exact hall e he propId hmem

/-- A request for the power state is well typed. -/
theorem wellTyped_powerRequest (state parameter : Int) :
    WellTyped start (PropertyState.createApPowerStateReq state parameter) :=
  fun _ _ _ => (checkPropValue_int32Vec_iff
    (v := PropertyState.createApPowerStateReq state parameter)
    (show getPropType apPowerStateReqId = some .int32Vec by decide)).mpr (Nat.le_add_left 1 1)

/-- A temperature that is replaced leaves the value well typed. -/
theorem WellTyped.setTemp (h : WellTyped start v) (hprop : v.prop = hvacTemperatureSetId)
    (temp : Binary32) : WellTyped start (setTemp temp v) := by
  have htype : getPropType v.prop = some .float := by
    rw [hprop]
    decide
  intro config tokenFunction hregistration
  have hlength := (checkPropValue_float_iff htype).mp (h config tokenFunction hregistration)
  refine (checkPropValue_float_iff (v := FakeHardware.setTemp temp v) htype).mpr ?_
  rw [FakeHardware.setTemp, List.length_set]
  exact hlength

/-- An assignment keeps the length. -/
theorem length_of_assignAt {α : Type} {xs ys : List α} {i : Nat} {x : α}
    (h : assignAt xs i x = .ok ys) : ys.length = xs.length := by
  rw [assignAt] at h
  split at h
  · cases h
    exact List.length_set
  · cases h

/-- Completing a suggestion keeps the number of its floats. -/
theorem length_of_suggestionInput {configArray : List Int} {input output : List Binary32}
    (h : PropertyState.updateHvacTemperatureValueSuggestionInput configArray input = .ok output) :
    output.length = input.length := by
  rw [PropertyState.updateHvacTemperatureValueSuggestionInput] at h
  simp only [bind_eq_ok_iff] at h
  obtain ⟨_, -, _, -, _, -, _, -, _, -, _, -, _, -, h⟩ := h
  split at h
  · simp only [bind_eq_ok_iff] at h
    obtain ⟨_, -, _, -, h⟩ := h
    split_ifs at h
    · simp only [bind_eq_ok_iff] at h
      obtain ⟨_, -, _, hfirst, hlast⟩ := h
      exact (length_of_assignAt hlast).trans (length_of_assignAt hfirst)
    · simp only [bind_eq_ok_iff] at h
      obtain ⟨_, -, _, hfirst, hlast⟩ := h
      exact (length_of_assignAt hlast).trans (length_of_assignAt hfirst)
  · cases h

/-- A completed suggestion is well typed. -/
theorem wellTyped_suggestion {floatValues : List Binary32} (h : WellTyped start v)
    (hprop : v.prop = hvacTemperatureValueSuggestionId)
    (hlength : floatValues.length = v.value.floatValues.length) :
    WellTyped start { v with value := { v.value with floatValues } } := by
  have htype : getPropType v.prop = some .floatVec := by
    rw [hprop]
    decide
  intro config tokenFunction hregistration
  have hold := (checkPropValue_floatVec_iff htype).mp (h config tokenFunction hregistration)
  refine (checkPropValue_floatVec_iff
    (v := { v with value := { v.value with floatValues } }) htype).mpr ?_
  rw [hlength]
  exact hold

end Types

namespace PropertyState

variable {env : Environment} {start s : PropertyState} {v : VehiclePropValue}

/-- Stamps leave values well typed. -/
theorem wellTyped_stampFrom {ws : List VehiclePropValue} (hws : ∀ w ∈ ws, WellTyped start w)
    {k : Nat} : ∀ x ∈ env.stampFrom k ws, WellTyped start x := by
  intro x hx
  obtain ⟨w, hw, i, _, _, rfl⟩ := Environment.mem_stampFrom hx
  exact (hws w hw).stamped env i

/-- The values that are read of a well typed board are well typed. -/
theorem wellTyped_of_mem_readValues (hboard : s.board.Holds (WellTyped start)) {propId : Int}
    {values : List VehiclePropValue} (hread : s.readValuesForProperty env propId = .ok values)
    {x : VehiclePropValue} (hx : x ∈ values) : WellTyped start x := by
  obtain ⟨recId, hstored⟩ := (mem_readValues_iff hread x).mp hx
  exact hboard.stored propId recId x hstored

/-- A plain route writes well typed values. -/
theorem writes_plain (hv : WellTyped start v) {side : List VehiclePropValue}
    (hside : ∀ w ∈ side, WellTyped start w) :
    (s.plainRoute env v side).Writes (WellTyped start) :=
  ⟨wellTyped_stampFrom hside, hv.stamped env _⟩

/-- The values that depend on the power are well typed. -/
theorem wellTyped_powerWrites (hboard : s.board.Holds (WellTyped start))
    {areaId hvacPowerOnVal propId : Int} {w : VehiclePropValue}
    (hw : w ∈ s.powerWrites env areaId hvacPowerOnVal propId) : WellTyped start w := by
  unfold powerWrites at hw
  split at hw
  · cases hw
  · rename_i values hread
    obtain ⟨x, hx, rfl⟩ := List.mem_map.mp hw
    have hmem := (List.mem_filter.mp hx).1
    exact ofPayload_wellTyped start x _ rfl rfl (wellTyped_of_mem_readValues hboard hread hmem)

/-- A switch of the driver assistance writes one integer for each state that it shows. -/
theorem wellTyped_adasSide {ids : List Int}
    (hids : mAdasEnabledPropToAdasPropWithErrorState.lookup v.prop = some ids)
    {w : VehiclePropValue} (hw : w ∈ s.adasSide v ids) : WellTyped start w := by
  obtain ⟨l₁, l₂, hl, _⟩ := List.lookup_eq_some_iff.mp hids
  have hstate : IsAdasState w.prop :=
    ⟨(v.prop, ids), by rw [hl]; simp, prop_mem_of_mem_adasSide hw⟩
  have hone (state : Int) (hmem : w ∈ ids.flatMap (s.adasWrites state)) :
      w.value.int32Values.length = 1 := by
    obtain ⟨p, _, hwp⟩ := List.mem_flatMap.mp hmem
    unfold adasWrites at hwp
    split at hwp
    · cases hwp
    · obtain ⟨areaConfig, _, rfl⟩ := List.mem_map.mp hwp
      rfl
  refine wellTyped_int32 (isInt32_of_isAdasState hstate) ?_
  unfold adasSide at hw
  split at hw
  · exact hone 1 hw
  · exact hone notAvailableDisabled hw
  · cases hw

/-- The temperatures that are copied are well typed. -/
theorem wellTyped_syncWrites (hvalid : s.mServerSidePropStore.Valid)
    (hboard : s.board.Holds (WellTyped start)) {values ws : List VehiclePropValue}
    {areaId : Int} {newTempC : Option Binary32}
    (hread : s.readValuesForProperty env hvacTemperatureSetId = .ok values)
    (hws : s.syncWrites env areaId newTempC values = .ok ws) :
    ∀ w ∈ ws, WellTyped start w := by
  have hstamped {temp : Binary32} {targets : List VehiclePropValue}
      (hsub : ∀ y ∈ targets, y ∈ syncTargets areaId values)
      (hreached : reached s.mServerSidePropStore
        (env.stampFrom s.moments (targets.map (setTemp temp))) = .ok ws) :
      ∀ w ∈ ws, WellTyped start w := by
    intro w hw
    refine wellTyped_stampFrom ?_ w ((isPrefix_of_reached hreached).subset hw)
    intro x hx
    obtain ⟨y, hy, rfl⟩ := List.mem_map.mp hx
    have hmem := (List.mem_filter.mp (hsub y hy)).1
    exact (wellTyped_of_mem_readValues hboard hread hmem).setTemp
      (prop_of_mem_readValues hvalid hread hmem) temp
  unfold syncWrites at hws
  split at hws
  · exact hstamped (fun y hy => hy) hws
  · cases hws
    exact List.forall_mem_nil _
  · rename_i first targets htargets
    obtain ⟨temp, _, hreached⟩ := bind_eq_ok_iff.mp hws
    refine hstamped (fun y hy => ?_) hreached
    rw [htargets]
    exact List.mem_cons_of_mem first hy

/-- The route for the user HAL writes well typed values. -/
theorem writes_userHal (hhal : s.mFakeUserHal.Reachable)
    (hsupported : FakeUserHal.isSupported v.prop = true) :
    (s.userHalRoute env v).Writes (WellTyped start) := by
  obtain ⟨outcome, after, hresult, _, hout⟩ :=
    FakeUserHal.onSetProperty_regular hhal.wellFormed (env.clock s.moments) v
  unfold userHalRoute
  rw [hresult]
  rcases outcome with e | _ | w
  · trivial
  · trivial
  · obtain ⟨htype, hvendor⟩ := isMixed_of_isSupported hsupported
    have hprop := (hout w rfl).1
    exact wellTyped_mixed ((congrArg getPropType hprop).trans htype)
      ((congrArg isVendorProp hprop).trans hvendor)

/-- The route for a power report writes well typed values. -/
theorem writes_report (hv : WellTyped start v) :
    (s.reportRoute env v).Writes (WellTyped start) := by
  have hstamped := hv.stamped env s.moments
  unfold reportRoute
  rcases v.value.int32Values with _ | ⟨state, rest⟩
  · simp only
    split
    · trivial
    · exact ⟨hstamped, fun r hr => by cases hr⟩
  · refine ⟨hstamped, fun r hr => ?_⟩
    obtain ⟨⟨w, eventMode⟩, hrequest, rfl⟩ := Option.map_eq_some_iff.mp hr
    have hw : WellTyped start w := by
      unfold powerRequest at hrequest
      split_ifs at hrequest
      · cases hrequest
        exact wellTyped_powerRequest 0 0
      · cases hrequest
        exact wellTyped_powerRequest 3 0
    exact hw.stamped env _

/-- The route for a suggestion writes well typed values. -/
theorem writes_suggestion (hv : WellTyped start v)
    (hprop : v.prop = hvacTemperatureValueSuggestionId) :
    (s.suggestionRoute env v).Writes (WellTyped start) := by
  unfold suggestionRoute
  split
  · trivial
  · split
    · split
      · trivial
      · split
        · trivial
        · rename_i floatValues hinput
          exact (wellTyped_suggestion hv hprop (length_of_suggestionInput hinput)).stamped env _
    · trivial

/-- The route for the cruise control writes well typed values if the route for the standard type
does. -/
theorem writes_cruise (hv : WellTyped start v) {onStandard : Route}
    (h : onStandard.Writes (WellTyped start)) :
    (s.cruiseRoute env v onStandard).Writes (WellTyped start) := by
  unfold cruiseRoute
  split
  · trivial
  · trivial
  · trivial
  · exact h
  · exact writes_plain hv (List.forall_mem_nil _)

/-- The route for the power of an area. -/
theorem propertyRoute_power_eq (hprop : v.prop = hvacPowerOnId) :
    s.propertyRoute env v = match v.value.int32Values with
      | [hvacPowerOnVal] => s.plainRoute env v
          ((env.propOrder.visit s.hvacPowerDependentProps).flatMap
            (s.powerWrites env v.areaId hvacPowerOnVal))
      | _ => .refused .hvacPowerOnSize := by
  rw [propertyRoute, hprop]
  rfl

/-- Whatever a set writes has the type of its property if the value of the request has. -/
theorem writes_route (hvalid : s.mServerSidePropStore.Valid) (hhal : s.mFakeUserHal.Reachable)
    (hboard : s.board.Holds (WellTyped start)) (hv : WellTyped start v) :
    (s.route env v).Writes (WellTyped start) := by
  have hplain : (s.plainRoute env v []).Writes (WellTyped start) :=
    writes_plain hv (List.forall_mem_nil _)
  unfold route
  split_ifs with _ hsupported
  · trivial
  · exact writes_userHal hhal hsupported
  · trivial
  split
  · rename_i ids hids
    exact writes_plain hv fun w hw => wellTyped_adasSide hids hw
  by_cases hpower : v.prop = hvacPowerOnId
  · rw [propertyRoute_power_eq hpower]
    split
    · refine writes_plain hv fun w hw => ?_
      obtain ⟨p, _, hwp⟩ := List.mem_flatMap.mp hw
      exact wellTyped_powerWrites hboard hwp
    · trivial
  refine propertyRoute_induction env s v hplain (fun _ => trivial) (fun _ => writes_report hv)
    (fun _ parameter => ?_) (fun _ => trivial) (fun _ => trivial) (fun h => absurd h hpower)
    (fun h => writes_suggestion hv h) (fun _ temp _ => ?_) (fun _ _ => ?_)
    (fun _ => writes_cruise hv ?_) (fun _ => writes_cruise hv trivial)
  · exact (wellTyped_powerRequest 1 parameter).stamped env _
  · unfold temperatureRoute
    split
    · exact hplain
    · split
      · trivial
      · rename_i values hread
        split
        · trivial
        · rename_i ws hws
          exact wellTyped_syncWrites hvalid hboard hread hws
  · unfold dualRoute
    split
    · exact hplain
    · rename_i values hread
      split
      · trivial
      · rename_i ws hws
        exact ⟨wellTyped_syncWrites hvalid hboard hread hws, hv.stamped env _⟩
  · unfold commandRoute
    split
    · trivial
    · split
      · trivial
      · exact hplain

end PropertyState

/-- What holds of the properties in a run: everything has the type of its property. -/
structure Typed (start s : PropertyState) : Prop where
  zoned : Zoned s.mServerSidePropStore
  userHal : s.mFakeUserHal.Reachable
  configs : SameConfigs start s
  board : s.board.Holds (WellTyped start)

section Elements

variable {env : Environment} {start s : PropertyState} {v x : VehiclePropValue}
  {propId : Int} {recId : RecordId}

/-- A stored value passes the check of its property. -/
theorem Typed.checked_of_stored (h : Typed start s)
    (hstored : s.mServerSidePropStore.stored propId recId = some x) : Checked start x := by
  have hprop := (h.zoned.valid.keyed propId recId x hstored).1
  obtain ⟨record, hrecord⟩ := Option.isSome_iff_exists.mp (Zoned.isRegistered_of_stored hstored)
  have hregistration : start.mServerSidePropStore.registration x.prop =
      some (record.propConfig, record.tokenFunction) := by
    rw [← h.configs, hprop, registration, hrecord, Option.map_some]
  exact ⟨_, _, hregistration, h.board.stored propId recId x hstored _ _ hregistration⟩

/-- A checked value of an integer property has an integer. -/
theorem Checked.int32Values_ne (h : Checked start v) (htype : getPropType v.prop = some .int32) :
    v.value.int32Values ≠ [] := by
  obtain ⟨config, _, _, hcheck⟩ := h
  have hlength := (checkPropValue_int32_iff htype).mp hcheck
  rintro hempty
  rw [hempty] at hlength
  cases hlength

/-- A checked temperature has a float. -/
theorem Checked.floatValues_ne (h : Checked start v) (hprop : v.prop = hvacTemperatureSetId) :
    v.value.floatValues ≠ [] := by
  have htype : getPropType v.prop = some .float := by
    rw [hprop]
    decide
  obtain ⟨config, _, _, hcheck⟩ := h
  have hlength := (checkPropValue_float_iff htype).mp hcheck
  rintro hempty
  rw [hempty] at hlength
  cases hlength

/-- The temperatures that are read have a float. -/
theorem Typed.floatValues_ne (h : Typed start s) {values : List VehiclePropValue}
    (hread : s.readValuesForProperty env hvacTemperatureSetId = .ok values) (hx : x ∈ values) :
    x.value.floatValues ≠ [] := by
  obtain ⟨recId, hstored⟩ := (mem_readValues_iff hread x).mp hx
  exact (h.checked_of_stored hstored).floatValues_ne
    (PropertyState.prop_of_mem_readValues h.zoned.valid hread hx)

/-- A stored temperature has a place for another one. -/
theorem Typed.hasPlaces (h : Typed start s) {values targets : List VehiclePropValue}
    (hread : s.readValuesForProperty env hvacTemperatureSetId = .ok values)
    (hsub : ∀ y ∈ targets, y ∈ values) (store : VehiclePropertyStore) (temp : Binary32) (k : Nat) :
    HasPlaces store (env.stampFrom k (targets.map (setTemp temp))) := by
  intro before w after heq _
  have hw : w ∈ env.stampFrom k (targets.map (setTemp temp)) := by
    rw [heq]
    simp
  obtain ⟨y, hy, i, _, _, rfl⟩ := Environment.mem_stampFrom hw
  obtain ⟨x, hx, rfl⟩ := List.mem_map.mp hy
  exact mt (List.set_eq_nil_iff 0 temp).mp (h.floatValues_ne hread (hsub x hx))

/-- With values of the types of their properties, a set finds the elements that it accesses. -/
theorem Typed.inBounds (h : Typed start s)
    (htemperature : ∀ config tokenFunction,
      start.mServerSidePropStore.registration hvacTemperatureSetId = some (config, tokenFunction) →
      6 ≤ config.configArray.length)
    (hv : Checked start v) : InBounds env s v where
  report hprop _ := by
    obtain ⟨config, _, _, hcheck⟩ := hv
    have htype : getPropType v.prop = some .int32Vec := by
      rw [hprop]
      decide
    exact List.length_pos_iff.mp ((checkPropValue_int32Vec_iff htype).mp hcheck)
  suggestion _ config hconfig _ _ _ _ _ _ := by
    rw [getPropConfig] at hconfig
    rcases hrecord : s.mServerSidePropStore.getRecordLocked hvacTemperatureSetId with _ | record
    · rw [hrecord] at hconfig
      cases hconfig
    · rw [hrecord] at hconfig
      cases hconfig
      refine htemperature record.propConfig record.tokenFunction ?_
      rw [← h.configs, registration, hrecord, Option.map_some]
  temperature _ _ _ _ _ values hread :=
    h.hasPlaces hread (fun _ hy => (List.mem_filter.mp hy).1) _ _ _
  dual _ _ values hread first targets htargets := by
    have hsub : ∀ y ∈ first :: targets, y ∈ values := fun y hy =>
      (List.mem_filter.mp (htargets ▸ hy : y ∈ syncTargets v.areaId values)).1
    obtain ⟨temp, rest, hfloats⟩ := List.exists_cons_of_ne_nil
      (h.floatValues_ne hread (hsub first (List.mem_cons_self ..)))
    exact ⟨temp, by rw [hfloats]; rfl,
      h.hasPlaces hread (fun y hy => hsub y (List.mem_cons_of_mem first hy)) _ _ _⟩
  cruise _ _ type hread := by
    have hstored := stored_of_readValueOf hread
    have htype : getPropType type.prop = some .int32 := by
      rw [(h.zoned.valid.keyed _ _ type hstored).1]
      decide
    exact (h.checked_of_stored hstored).int32Values_ne htype
  command hprop _ _ _ _ := by
    have htype : getPropType v.prop = some .int32 := by
      rw [hprop]
      decide
    exact hv.int32Values_ne htype

/-- A set of a checked value accesses existing elements only. -/
theorem Typed.setValue_ne_outOfBounds (h : Typed start s)
    (htemperature : ∀ config tokenFunction,
      start.mServerSidePropStore.registration hvacTemperatureSetId = some (config, tokenFunction) →
      6 ≤ config.configArray.length)
    (hv : Checked start v) (env : Environment) : s.setValue env v ≠ .error .outOfBounds := by
  rw [ne_eq, PropertyState.setValue_fault_iff h.zoned.valid]
  unfold PropertyState.route
  split_ifs
  · rintro ⟨⟩
  · exact PropertyState.userHalRoute_ne_fault h.userHal _
  · rintro ⟨⟩
  · split
    · rintro ⟨⟩
    · exact PropertyState.propertyRoute_ne_fault (h.inBounds htemperature hv)

end Elements

section Gets

variable {context : GetContext} {start s : PropertyState} {v x : VehiclePropValue} {propId : Int}

/-- The properties that are kept for tests are integers. -/
theorem isInt32_of_vendorCode (h : startingVendorCodePropertiesForTest ≤ propId ∧
    propId < endingVendorCodePropertiesForTest) : getPropType propId = some .int32 := by
  unfold startingVendorCodePropertiesForTest endingVendorCodePropertiesForTest at h
  obtain ⟨n, hn⟩ : ∃ n : Nat, (propId % 2 ^ 32).toNat = n := ⟨_, rfl⟩
  have hlow : n / 2 ^ 16 = 0x2140 := by omega
  have hmasked : n &&& 0x00ff0000 = 0x00400000 := by
    have hdiv : (n &&& 0x00ff0000) / 2 ^ 16 = 0x40 := by
      rw [Nat.and_div_two_pow, hlow]
      decide
    have hmod : (n &&& 0x00ff0000) % 2 ^ 16 = 0 := by
      rw [Nat.and_mod_two_pow]
      exact Nat.and_zero _
    omega
  rw [getPropType, maskedBits, hn, hmasked]
  rfl

/-- The user HAL answers with the associations only. -/
theorem prop_of_onGetProperty {hal : FakeUserHal} (h : hal.WellFormed)
    (hget : hal.onGetProperty v = .ok (.ok x)) : x.prop = userIdentificationAssociationId := by
  rw [FakeUserHal.onGetProperty] at hget
  split_ifs at hget
  · cases hget
  · unfold FakeUserHal.onGetUserIdentificationAssociation at hget
    split at hget
    · cases hget
    · rename_i response hslot
      split at hget
      · cases hget
      · obtain ⟨int32Values, _, hx⟩ := bind_eq_ok_iff.mp hget
        cases hx
        exact (h.association response hslot).1
  · cases hget

/-- What a get gives in place of the value of the store has the type of its property, too. -/
def SpecialTyped (start : PropertyState) (result : Except Fault SpecialValue) : Prop :=
  result ≠ .error .outOfBounds ∧ ∀ x, result = .ok (some (.ok x)) → WellTyped start x

/-- A special value is typed if what is read is well typed. -/
theorem specialTyped_ok {result : SpecialValue}
    (h : ∀ x, result = some (.ok x) → WellTyped start x) : SpecialTyped start (.ok result) :=
  ⟨by rintro ⟨⟩, fun x hx => h x (Except.ok.inj hx)⟩

/-- A refused read is typed. -/
theorem specialTyped_refused {e : GetValueError} : SpecialTyped start (.ok (some (.error e))) :=
  specialTyped_ok (by rintro _ ⟨⟩)

/-- A read that is left to the store is typed. -/
theorem specialTyped_none : SpecialTyped start (.ok none) := specialTyped_ok (by rintro _ ⟨⟩)

/-- What is read from the user HAL is well typed. -/
theorem Typed.getUserHalProp (h : Typed start s) :
    SpecialTyped start ((s.getUserHalProp context v).map some) := by
  obtain ⟨outcome, hget⟩ := onGetProperty_defined h.userHal.wellFormed v
  rw [PropertyState.getUserHalProp, hget]
  rcases outcome with e | x
  · exact specialTyped_refused
  · refine specialTyped_ok ?_
    rintro _ ⟨⟩
    have hprop := prop_of_onGetProperty h.userHal.wellFormed hget
    have hmixed := isMixed_of_isSupported
      (show FakeUserHal.isSupported userIdentificationAssociationId = true by decide)
    exact wellTyped_mixed ((congrArg getPropType hprop).trans hmixed.1)
      ((congrArg isVendorProp hprop).trans hmixed.2)

/-- Reading the type of the cruise control stays in bounds. -/
theorem Typed.isCruiseControlTypeStandard_ne (h : Typed start s) :
    s.isCruiseControlTypeStandard ≠ .error .outOfBounds := by
  rcases s.isCruiseControlTypeStandard_cases with ⟨type, hread, hempty, -⟩ | ⟨-, hne, -⟩
  · have hstored := stored_of_readValueOf hread
    have htype : getPropType type.prop = some .int32 := by
      rw [(h.zoned.valid.keyed _ _ type hstored).1]
      decide
    exact absurd hempty ((h.checked_of_stored hstored).int32Values_ne htype)
  · exact hne

/-- What is read of the cruise control is well typed. -/
theorem Typed.getCruiseDistance (h : Typed start s) : SpecialTyped start s.getCruiseDistance := by
  rw [PropertyState.getCruiseDistance]
  split
  · exact specialTyped_refused
  · have hne := h.isCruiseControlTypeStandard_ne
    rcases hstandard : s.isCruiseControlTypeStandard with f | e | _ | _
    · refine ⟨fun hfault => hne ?_, by rintro _ ⟨⟩⟩
      rw [hstandard]
      exact congrArg Except.error (Except.error.inj hfault)
    · exact specialTyped_refused
    · exact specialTyped_none
    · exact specialTyped_refused

/-- A value that is read passes the check of its property. -/
theorem Typed.checked_of_readValue (h : Typed start s)
    (hread : s.mServerSidePropStore.readValue v = .ok x) : Checked start x := by
  obtain ⟨recId, _, hstored⟩ := stored_of_readValue hread
  exact h.checked_of_stored hstored

/-- A new timestamp leaves a frame well typed. -/
theorem specialTyped_withCurrentTime {result : Except FrameError VehiclePropValue}
    (h : ∀ x, result = .ok x → WellTyped start x) :
    SpecialTyped start (.ok (some (PropertyState.withCurrentTime context result))) := by
  unfold PropertyState.withCurrentTime
  rcases result with e | x
  · exact specialTyped_refused
  · refine specialTyped_ok ?_
    rintro _ ⟨⟩
    exact ofPayload_wellTyped start x _ rfl rfl (h x rfl)

/-- A freeze frame that is read is well typed. -/
theorem Typed.getObd2FreezeFrame (h : Typed start s) {order : Traversal RecordId}
    (hget : s.getObd2FreezeFrame order v = .ok x) : WellTyped start x := by
  rw [PropertyState.getObd2FreezeFrame] at hget
  split at hget
  · split at hget
    · cases hget
    · cases hget
    · split at hget
      · cases hget
      · rename_i hread
        cases hget
        exact (h.checked_of_stored (stored_of_readValueOf hread)).wellTyped
  · cases hget

/-- The property whose bytes are reversed has no type: nothing of it is ever stored. -/
theorem Typed.getEchoReverseBytes (h : Typed start s) (hprop : v.prop = echoReverseBytesId) :
    SpecialTyped start (.ok (some (s.getEchoReverseBytes context v))) := by
  rw [PropertyState.getEchoReverseBytes]
  rcases hread : s.mServerSidePropStore.readValue v with e | x
  · exact specialTyped_refused
  · obtain ⟨recId, _, hstored⟩ := stored_of_readValue hread
    obtain ⟨config, _, _, hcheck⟩ := h.checked_of_stored hstored
    have htype : getPropType x.prop = none := by
      rw [(h.zoned.valid.keyed _ _ x hstored).1, hprop]
      decide
    rw [checkPropValue, htype] at hcheck
    cases hcheck

/-- What is read of a special property is well typed. -/
theorem Typed.getSpecialProperty (h : Typed start s) :
    SpecialTyped start (s.getSpecialProperty context v) := by
  rw [PropertyState.getSpecialProperty]
  split_ifs with _ _ hecho
  · exact specialTyped_withCurrentTime fun x hx => h.getObd2FreezeFrame hx
  · refine specialTyped_withCurrentTime fun x hx => ?_
    rw [PropertyState.getObd2DtcInfo] at hx
    split at hx
    · cases hx
    · cases hx
      exact wellTyped_mixed (show getPropType obd2FreezeFrameInfoId = some .mixed by decide)
        (show isVendorProp obd2FreezeFrameInfoId = false by decide)
  · exact h.getEchoReverseBytes hecho
  · exact specialTyped_refused
  · split
    · exact specialTyped_refused
    · exact specialTyped_none
  · exact h.getCruiseDistance
  · exact specialTyped_none

/-- What the power controller answers is well typed. -/
theorem wellTyped_powerProp
    (hget : PropertyState.getPowerPropFromExternalService context v = some (.ok x)) :
    WellTyped start x := by
  rw [PropertyState.getPowerPropFromExternalService] at hget
  split at hget
  · cases hget
  split_ifs at hget
  · have hget := Option.some.inj hget
    rw [PropertyState.getVehicleInUse] at hget
    split at hget
    · cases hget
    · cases hget
      intro config tokenFunction _
      exact (checkPropValue_boolean_iff
        (show getPropType vehicleInUseId = some .boolean by decide)).mpr rfl
  · have hget := Option.some.inj hget
    rw [PropertyState.getApPowerBootupReason] at hget
    split at hget
    · cases hget
    · cases hget
      exact wellTyped_int32 (show getPropType apPowerBootupReasonId = some .int32 by decide) rfl

/-- What is read instead of a stored value is well typed. -/
theorem Typed.maybeGetSpecialValue (h : Typed start s) :
    SpecialTyped start (s.maybeGetSpecialValue context v) := by
  rw [PropertyState.maybeGetSpecialValue]
  split
  · rename_i result hpower
    refine specialTyped_ok fun x hx => ?_
    rw [Option.some.inj hx] at hpower
    exact wellTyped_powerProp hpower
  · split_ifs with hvendor
    · refine specialTyped_ok ?_
      rintro _ ⟨⟩
      exact wellTyped_int32 (isInt32_of_vendorCode hvendor) rfl
    · exact h.getUserHalProp
    · exact specialTyped_refused
    · exact h.getSpecialProperty

/-- A get accesses existing elements only, and what it gives has the type of its property. -/
theorem Typed.getValue (h : Typed start s) (context : GetContext) (v : VehiclePropValue) :
    s.getValue context v ≠ .error .outOfBounds ∧
      ∀ x, s.getValue context v = .ok (.ok x) → WellTyped start x := by
  obtain ⟨hne, htyped⟩ : SpecialTyped start (s.maybeGetSpecialValue context v) :=
    h.maybeGetSpecialValue
  rw [PropertyState.getValue]
  rcases hspecial : s.maybeGetSpecialValue context v with f | _ | result
  · refine ⟨fun hfault => hne ?_, by rintro _ ⟨⟩⟩
    rw [hspecial]
    exact congrArg Except.error (Except.error.inj hfault)
  · rcases hread : s.mServerSidePropStore.readValue v with e | y
    · refine ⟨by rintro ⟨⟩, ?_⟩
      rintro x ⟨⟩
    · refine ⟨by rintro ⟨⟩, ?_⟩
      rintro x ⟨⟩
      exact (h.checked_of_readValue hread).wellTyped
  · refine ⟨by rintro ⟨⟩, ?_⟩
    rintro x ⟨⟩
    exact htyped x hspecial

end Gets

/-- The value that a call brings. -/
def broughtBy (readers : OptionReaders) : HardwareCall → Option VehiclePropValue
  | .set value _ => some value
  | .dump _ (.set value _) => some value
  | call => eventOf readers call

/-- What holds in every state of a run: the saved values have the types of their properties, too. -/
structure TypedRun (start s : DebugState) : Prop where
  properties : Typed start.properties s.properties
  saved : ∀ p x, s.mSavedProps.lookup p = some x → WellTyped start.properties x

section Runs

variable {readers : OptionReaders} {clock : Nat → Int} {env : Environment}
  {start s t : DebugState} {properties : PropertyState} {v : VehiclePropValue}
  {result : Except SetValueError Unit} {call : HardwareCall} {calls : List HardwareCall}

/-- What a set keeps, whatever it writes. -/
def Regular (s : PropertyState) : Prop := Zoned s.mServerSidePropStore ∧ s.mFakeUserHal.Reachable

/-- No change of the store makes it irregular. -/
theorem regular_keptByChanges (env : Environment) : KeptByChanges env Regular where
  write {s} v updateStatus eventMode h :=
    ⟨Board.zoned_write (b := s.board) h.1 updateStatus eventMode (env.stamped s.moments v), h.2⟩
  userHal h hcall := ⟨h.1, .call h.2 hcall⟩
  removeValue {s} value h := ⟨h.1.loses (loses_removeValue s.mServerSidePropStore value), h.2⟩
  removeValues {s} propId h :=
    ⟨h.1.loses (loses_removeValuesForProperty s.mServerSidePropStore propId), h.2⟩

/-- A request keeps a typed state. -/
theorem Typed.setValue {start s t : PropertyState} (h : Typed start s) (hv : WellTyped start v)
    (hset : s.setValue env v = .ok (result, t)) : Typed start t := by
  obtain ⟨hzoned, huserHal⟩ := PropertyState.leaves_setValue (regular_keptByChanges env) v
    ⟨h.zoned, h.userHal⟩ result t hset
  have hrun := PropertyState.view_setValue env s v h.zoned.valid
  rw [hset] at hrun
  have hwrites : (s.route env v).Writes (WellTyped start) :=
    PropertyState.writes_route h.zoned.valid h.userHal h.board hv
  exact ⟨hzoned, huserHal, h.configs.setValue hset,
    hwrites.holds (ofPayload_wellTyped start) h.board hrun.symm⟩

/-- A write keeps a typed state. -/
theorem Typed.writeNow {start s t : PropertyState} (h : Typed start s) (hv : WellTyped start v)
    (hwrite : s.writeNow env v false .onValueChange = (result, t)) : Typed start t := by
  have hconfigs := h.configs.writeNow hwrite
  rw [PropertyState.writeNow_eq] at hwrite
  cases hwrite
  exact ⟨Board.zoned_write h.zoned false .onValueChange _, h.userHal, hconfigs,
    h.board.write (ofPayload_wellTyped start) (hv.stamped env s.moments) false .onValueChange⟩

/-- An event of the vehicle bus keeps a typed state. -/
theorem Typed.event {start s : PropertyState} (h : Typed start s) (hv : WellTyped start v) :
    Typed start (s.eventFromVehicleBus env v) := by
  have hconfigs : SameConfigs start (s.eventFromVehicleBus env v) := h.configs.event
  rw [eventFromVehicleBus_eq] at hconfigs ⊢
  exact ⟨Board.zoned_write h.zoned false .onValueChange v, h.userHal, hconfigs,
    h.board.write (ofPayload_wellTyped start) hv false .onValueChange⟩

/-- The values of an input have the types of their properties. -/
theorem wellTyped_of_input {start : PropertyState} (input : FakeInput) (clock : Nat → Int)
    (k : Nat) : ∀ x ∈ input.values clock k, WellTyped start x := by
  cases input with
  | keyPress keyCode display =>
      have hint32 (timestamp action : Int) : WellTyped start
          { timestamp, prop := hwKeyInputId,
            value := { int32Values := [action, keyCode, display] } } := fun _ _ _ =>
        (checkPropValue_int32Vec_iff
          (show getPropType hwKeyInputId = some .int32Vec by decide)).mpr (Nat.le_add_left 1 2)
      exact List.forall_mem_cons.mpr ⟨hint32 _ 0, List.forall_mem_singleton.mpr (hint32 _ 1)⟩
  | keyInputV2 area display keyCode action repeatCount =>
      exact List.forall_mem_singleton.mpr
        (wellTyped_mixed (show getPropType hwKeyInputV2Id = some .mixed by decide)
          (show isVendorProp hwKeyInputV2Id = false by decide))
  | motionInput area display inputType action buttonState pointers =>
      exact List.forall_mem_singleton.mpr
        (wellTyped_mixed (show getPropType hwMotionInputId = some .mixed by decide)
          (show isVendorProp hwMotionInputId = false by decide))

/-- A generated input keeps a typed state. -/
theorem Typed.generate {start s : PropertyState} (h : Typed start s) (input : FakeInput) :
    Typed start (s.generate env input) := by
  have hconfigs : SameConfigs start (s.generate env input) := h.configs.generate input
  rw [generate_eq] at hconfigs ⊢
  refine ⟨h.zoned, h.userHal, hconfigs, h.board.stored, fun c hc => ?_⟩
  rcases List.mem_append.mp hc with hc | hc
  · exact h.board.told c hc
  · obtain ⟨w, hw, rfl⟩ := List.mem_map.mp hc
    exact List.forall_mem_singleton.mpr (wellTyped_of_input input env.clock s.moments w hw)

/-- A call that brings a value of the type of its property keeps the types. -/
theorem TypedRun.step (h : TypedRun start s) (hstep : HardwareStep readers clock s call t)
    (hcall : ∀ v, broughtBy readers call = some v → WellTyped start.properties v) :
    TypedRun start t := by
  cases hstep with
  | set _ hset => exact ⟨h.properties.setValue (hcall _ rfl) hset, h.saved⟩
  | event _ => exact ⟨h.properties.event (hcall _ rfl), h.saved⟩
  | dump _ hdump =>
      cases dumpStep_of_dump hdump with
      | quiet _ | nothingSaved _ => exact h
      | vendorConfigs _ => exact ⟨h.properties, h.saved⟩
      | set hset => exact ⟨h.properties.setValue (hcall _ rfl) hset, h.saved⟩
      | save hread =>
          refine ⟨h.properties, fun p x hx => ?_⟩
          rw [UnorderedMap.lookup_insert_eq] at hx
          split at hx
          · cases hx
            exact (h.properties.checked_of_readValue hread).wellTyped
          · exact h.saved p x hx
      | restore hlookup hwrite | notRestored hlookup hwrite =>
          refine ⟨h.properties.writeNow (h.saved _ _ hlookup) hwrite, fun p x hx => ?_⟩
          rw [UnorderedMap.lookup_erase_eq] at hx
          split at hx
          · cases hx
          · exact h.saved p x hx
      | inject hparse => exact ⟨h.properties.event (hcall _ hparse), h.saved⟩
      | generate _ _ => exact ⟨h.properties.generate _, h.saved⟩
      | minMaxValue _ | supportedValues _ =>
          rw [DebugState.triggerSupportedValueChange]
          split <;> exact ⟨h.properties, h.saved⟩

/-- Every run keeps a typed state, if all that is brought is well typed. -/
theorem TypedRun.run (h : TypedRun start s) (hrun : Path (HardwareStep readers clock) s calls t)
    (hcalls : ∀ call ∈ calls, ∀ v, broughtBy readers call = some v →
      WellTyped start.properties v) : TypedRun start t :=
  hrun.invariant_of_mem h fun _ call _ hmem hs hstep => hs.step hstep (hcalls call hmem)

end Runs

/-- The declared values have the types of their properties, and the temperature is declared with
its ranges in both units. -/
structure ConfigDeclarations.Typed (declarations : ConfigDeclarations) : Prop where
  values : ∀ propId d, declarations.byPropId.lookup propId = some d → ¬IsDiagnostic propId →
    ∀ areaId, d.DeclaresArea areaId → ∀ value, d.declaredPayload areaId = some value →
      checkPropValue { prop := propId, value } d.config = some (.ok ())
  temperature : ∀ d, declarations.byPropId.lookup hvacTemperatureSetId = some d →
    6 ≤ d.config.configArray.length

/-- Everything has the type of its property, and with such values all accessed elements exist. -/
structure Sound (start s : DebugState) : Prop where
  stored : ∀ propId recId x,
    s.properties.mServerSidePropStore.stored propId recId = some x → Checked start.properties x
  told : ∀ c ∈ s.properties.emitted, ∀ x ∈ c.values, WellTyped start.properties x
  saved : ∀ p x, s.mSavedProps.lookup p = some x → WellTyped start.properties x
  set : ∀ env v, Checked start.properties v → s.properties.setValue env v ≠ .error .outOfBounds
  get : ∀ context v, s.properties.getValue context v ≠ .error .outOfBounds ∧
    ∀ x, s.properties.getValue context v = .ok (.ok x) → WellTyped start.properties x

section SinceInit

variable {readers : OptionReaders} {env : Environment} {order : Traversal Int} {s2rS2dConfig : Int}
  {declarations : ConfigDeclarations} {hardware : HardwareState} {s : DebugState}
  {d : ConfigDeclaration} {config : VehiclePropConfig} {v x : VehiclePropValue}
  {propId : Int} {recId : RecordId} {calls : List HardwareCall}

/-- Only the first entry of the config array may be another one, and the values of that property
are checked without it. -/
theorem checkPropValue_declaredConfig (hprop : v.prop = d.config.prop) :
    checkPropValue v (d.declaredConfig s2rS2dConfig) = checkPropValue v d.config := by
  rw [ConfigDeclaration.declaredConfig]
  split
  · next hpower =>
      have htype : getPropType v.prop = some .int32Vec := by
        rw [hprop, hpower]
        decide
      rw [checkPropValue, checkPropValue, htype]
  · rfl

/-- The initial value of a declared property is well typed. -/
theorem wellTyped_of_declared
    (hinit : HardwareState.init env order s2rS2dConfig declarations = .ok hardware)
    (hdeclarations : declarations.Typed) (hp : ¬IsDiagnostic propId)
    (hd : declarations.byPropId.lookup propId = some d)
    (hstored : hardware.properties.mServerSidePropStore.stored propId recId = some x) :
    WellTyped hardware.properties x := by
  obtain ⟨hzoned, hprop, hid⟩ : Zoned hardware.properties.mServerSidePropStore ∧
      x.prop = propId ∧ hardware.properties.mServerSidePropStore.recordIdOf x = some recId :=
    have hrunning := (init_spec hinit).2.1
    ⟨hrunning.zoned, hrunning.zoned.valid.keyed propId recId x hstored⟩
  have hdeclares := declares_of_declared hinit hp hd
  have hregistration := hdeclares.registration
  have hdprop : d.config.prop = propId := declarations.keyed propId d hd
  have htoken : recId.token = 0 := by
    obtain ⟨record, hrecord, hpair⟩ := Option.map_eq_some_iff.mp hregistration
    rw [recordIdOf, hprop, hrecord, Option.map_some, Option.some.injEq] at hid
    rw [← hid, getRecordIdLocked, Record.tokenOf, (Prod.mk.inj hpair).2]
  obtain ⟨areaId, token⟩ := recId
  subst htoken
  have hvalue : some (VehiclePropValue.untimed x) = d.declaredValue areaId := by
    rw [← hdeclares.stored areaId]
    exact congrArg (Option.map VehiclePropValue.untimed) hstored.symm
  rw [ConfigDeclaration.declaredValue] at hvalue
  split at hvalue
  · next hmem =>
      obtain ⟨value, hdeclared, hx⟩ := Option.map_eq_some_iff.mp hvalue.symm
      have hpayload : x.value = value := (congrArg VehiclePropValue.value hx).symm
      intro config tokenFunction hconfig
      rw [hprop] at hconfig
      cases hregistration.symm.trans hconfig
      rw [checkPropValue_declaredConfig (hprop.trans hdprop.symm),
        ← hdeclarations.values propId d hd hp areaId hmem value hdeclared]
      exact checkPropValue_congr hprop hpayload
  · cases hvalue

/-- After the initialisation the temperature has an array of six elements. -/
theorem temperature_of_init
    (hinit : HardwareState.init env order s2rS2dConfig declarations = .ok hardware)
    (hdeclarations : declarations.Typed) (config : VehiclePropConfig)
    (tokenFunction : Option TokenFunction)
    (hregistration : hardware.properties.mServerSidePropStore.registration hvacTemperatureSetId =
      some (config, tokenFunction)) : 6 ≤ config.configArray.length := by
  have hp : ¬IsDiagnostic hvacTemperatureSetId := by decide
  rcases hd : declarations.byPropId.lookup hvacTemperatureSetId with _ | d
  · have hnone := congrArg PropertyView.registration (view_of_undeclared hinit hp hd)
    cases hregistration.symm.trans hnone
  · have hview := (declares_of_declared hinit hp hd).registration
    cases hregistration.symm.trans hview
    have hdprop : d.config.prop = hvacTemperatureSetId := declarations.keyed _ d hd
    rw [ConfigDeclaration.declaredConfig, hdprop, if_neg (by decide)]
    exact hdeclarations.temperature d hd

/-- The initialised state is typed. -/
theorem typedRun_of_init
    (hinit : HardwareState.init env order s2rS2dConfig declarations = .ok hardware)
    (hdeclarations : declarations.Typed) :
    TypedRun (.ofHardware hardware) (.ofHardware hardware) := by
  obtain ⟨-, hrunning, hemitted⟩ := init_spec hinit
  refine ⟨⟨hrunning.zoned, hrunning.userHal, fun _ => rfl, fun propId recId x hx => ?_, ?_⟩, ?_⟩
  · change hardware.properties.mServerSidePropStore.stored propId recId = some x at hx
    have hprop := (hrunning.zoned.valid.keyed propId recId x hx).1
    by_cases hp : IsDiagnostic propId
    · obtain ⟨htype, hvendor⟩ := isMixed_of_isDiagnostic hp
      exact wellTyped_mixed (hprop ▸ htype) (hprop ▸ hvendor)
    · rcases hd : declarations.byPropId.lookup propId with _ | d
      · have hnone := congrArg PropertyView.stored (view_of_undeclared hinit hp hd)
        cases hx.symm.trans (congrFun hnone recId)
      · exact wellTyped_of_declared hinit hdeclarations hp hd hx
  · intro c hc
    change c ∈ hardware.properties.emitted at hc
    rw [hemitted] at hc
    cases hc
  · intro p x hx
    cases hx

/-- In every run of sets, events and debug commands since the construction, in which each call
brings a value of the type of its property, everything has the type of its property and no access
is out of bounds: what the calls write besides their own values never breaks the types. -/
theorem sound_since_init
    (hinit : HardwareState.init env order s2rS2dConfig declarations = .ok hardware)
    (hdeclarations : declarations.Typed)
    (hrun : Path (HardwareStep readers env.clock) (.ofHardware hardware) calls s)
    (hcalls : ∀ call ∈ calls, ∀ v, broughtBy readers call = some v →
      WellTyped hardware.properties v) : Sound (.ofHardware hardware) s := by
  obtain ⟨htyped, hsaved⟩ := (typedRun_of_init hinit hdeclarations).run hrun hcalls
  exact ⟨fun _ _ _ hx => htyped.checked_of_stored hx, htyped.board.told, hsaved,
    fun _ _ hv => htyped.setValue_ne_outOfBounds (temperature_of_init hinit hdeclarations) hv _,
    htyped.getValue⟩

/-- The declarations of the fan speed are typed. -/
theorem fanDeclarations_typed : fanDeclarations.Typed where
  values propId d hd _ areaId hmem value hvalue := by
    have hprop : propId = hvacFanSpeedId := by
      by_contra hne
      have hnone : fanDeclarations.byPropId.lookup propId = none :=
        Finmap.lookup_eq_none.mpr fun hmem => hne (Finmap.mem_singleton .. |>.mp hmem)
      cases hnone.symm.trans hd
    subst hprop
    have hfan : fanDeclarations.byPropId.lookup hvacFanSpeedId = some fanSpeeds := rfl
    cases hfan.symm.trans hd
    have hareas : fanSpeeds.initialAreas = [1, 4] := rfl
    have hrow : fanSpeeds.declaredPayload 1 = some { int32Values := [3] } := rfl
    have hother : fanSpeeds.declaredPayload 4 = none := rfl
    rw [← mem_initialAreas_iff, hareas] at hmem
    rcases List.mem_pair.mp hmem with rfl | rfl
    · cases hrow.symm.trans hvalue
      rfl
    · cases hother.symm.trans hvalue
  temperature d hd := by cases hd

/-- The speed of a row is saved, set and restored, and a key is pressed. -/
def fanAndKeyCalls : List HardwareCall :=
  fanCalls ++ [.dump ["--genfakedata", "--keypress", "3", "0"] (.generated (.keyPress 3 0))]

/-- The invariant holds after a run that sets the fan speed and presses a key. -/
theorem fan_sound : ∃ hardware, ∃ s : DebugState,
    HardwareState.init .still (.ascending Int) 0 fanDeclarations = .ok hardware ∧
    Path (HardwareStep fanReaders Environment.still.clock) (.ofHardware hardware) fanAndKeyCalls
      s ∧
    Sound (.ofHardware hardware) s := by
  obtain ⟨hardware, s, hinit, hrun⟩ := path_fanCalls
  have hpress : s.dump fanReaders fanContext ["--genfakedata", "--keypress", "3", "0"] =
      .ok (.generated (.keyPress 3 0),
        { s with properties := s.properties.generate .still (.keyPress 3 0) }) := rfl
  have hrun := (hrun.mono fun _ _ _ hcall => hcall.1).snoc (.dump rfl hpress)
  refine ⟨hardware, _, hinit, hrun, sound_since_init hinit fanDeclarations_typed hrun ?_⟩
  intro call hcall v hv
  have hfan : v = fanSpeed 1 6 := by
    simp only [fanCalls, List.mem_append, List.mem_cons, List.not_mem_nil, or_false] at hcall
    rcases hcall with (rfl | rfl | rfl) | rfl
    · cases hv
    · exact (Option.some.inj hv).symm
    · cases hv
    · cases hv
  rw [hfan]
  exact wellTyped_int32 (show getPropType hvacFanSpeedId = some .int32 by decide) rfl

end SinceInit

end VhalCore.FakeHardware
