import VhalCore.Models.FakeHardware.Interpretation.Responses
import VhalCore.Models.FakeHardware.Interpretation.SetValueRefinement

/-!
# The properties that a set spares

A set writes to its own property and to those that depend on it. Every other property keeps
its values, and nothing of it is told. A property with areas depends on few others: the
switch of the power writes to it, the dual mode if it is the temperature, and a switch of the
driver assistance if it shows the state of the feature.
-/

namespace VhalCore.FakeHardware

open PropertyStore VehiclePropertyStore

/-- The property shows the state of a feature of the driver assistance. -/
def IsAdasState (propId : Int) : Prop :=
  ∃ e ∈ mAdasEnabledPropToAdasPropWithErrorState, propId ∈ e.2

instance (propId : Int) : Decidable (IsAdasState propId) :=
  inferInstanceAs (Decidable (∃ e ∈ mAdasEnabledPropToAdasPropWithErrorState, propId ∈ e.2))

namespace Board

/-- Nothing of a property is changed or told. -/
structure Spares (propId : Int) (a b : Board) : Prop where
  stored : ∀ recId, b.store.stored propId recId = a.store.stored propId recId
  emitted : ∃ cs, b.emitted = a.emitted ++ cs ∧ ∀ c ∈ cs, ∀ x ∈ c.values, x.prop ≠ propId

variable {propId : Int} {a b c : Board} {w : VehiclePropValue} {ws : List VehiclePropValue}

theorem Spares.refl (propId : Int) (a : Board) : Spares propId a a :=
  ⟨fun _ => rfl, [], by simp, by simp⟩

/-- Two steps that spare a property spare it together. -/
theorem Spares.trans (h₁ : Spares propId a b) (h₂ : Spares propId b c) : Spares propId a c := by
  obtain ⟨cs₁, he₁, hcs₁⟩ := h₁.emitted
  obtain ⟨cs₂, he₂, hcs₂⟩ := h₂.emitted
  refine ⟨fun recId => (h₂.stored recId).trans (h₁.stored recId), cs₁ ++ cs₂, ?_, ?_⟩
  · rw [he₂, he₁, List.append_assoc]
  · intro d hd
    rcases List.mem_append.mp hd with hd | hd
    · exact hcs₁ d hd
    · exact hcs₂ d hd

/-- A callback is told of the written value. -/
theorem values_of_mem_invokeCallbacks {one several : Bool} {d : ChangeCallback}
    (h : d ∈ invokeCallbacks one several [w]) : d.values = [w] := by
  rcases several with _ | _
  · rcases one with _ | _
    · cases h
    · rw [List.mem_singleton.mp h]
      rfl
  · rw [List.mem_singleton.mp h]
    rfl

/-- A write tells of the value that it stores. -/
theorem values_of_mem_callbacksOf {store : VehiclePropertyStore} {updateStatus : Bool}
    {eventMode : PropertyStore.EventMode} {d : ChangeCallback}
    (h : d ∈ store.callbacksOf updateStatus eventMode w) :
    d.values = [store.written updateStatus w] := by
  unfold callbacksOf at h
  split at h
  · exact values_of_mem_invokeCallbacks h
  · cases h

/-- A write to another property. -/
theorem spares_write (h : w.prop ≠ propId) (updateStatus : Bool)
    (eventMode : PropertyStore.EventMode) (b : Board) :
    Spares propId b (b.write w updateStatus eventMode).2 := by
  by_cases hw : b.store.Writable w
  · rw [write_of_writable hw]
    refine ⟨fun recId => ?_, _, rfl, fun d hd x hx => ?_⟩
    · rw [stored_put hw.registered, if_neg fun hkey => h hkey.1.symm]
    · rw [values_of_mem_callbacksOf hd, List.mem_singleton] at hx
      rw [hx]
      exact h
  · obtain ⟨e, he⟩ := write_of_not_writable hw updateStatus eventMode
    rw [he]
    exact .refl propId b

/-- Attempts to write other properties spare a property. -/
theorem spares_attemptAll (h : ∀ w ∈ ws, w.prop ≠ propId)
    (b : Board) : Spares propId b (b.attemptAll ws) := by
  induction ws generalizing b with
  | nil => exact .refl propId b
  | cons w ws ih =>
      exact (spares_write (h w (List.mem_cons_self ..)) true .always b).trans
        (ih (fun x hx => h x (List.mem_cons_of_mem _ hx)) _)

/-- Attempts up to the first failure to write other properties spare a property. -/
theorem spares_attemptUntil (h : ∀ w ∈ ws, w.prop ≠ propId) (b : Board) :
    Spares propId b (b.attemptUntil ws).2 := by
  induction ws generalizing b with
  | nil => exact .refl propId b
  | cons w ws ih =>
      have hfirst := spares_write (h w (List.mem_cons_self ..)) true .always b
      rw [attemptUntil]
      rcases hwrite : b.write w true .always with ⟨e | _, c⟩
      · rw [hwrite] at hfirst
        exact hfirst
      · rw [hwrite] at hfirst
        exact hfirst.trans (ih (fun x hx => h x (List.mem_cons_of_mem _ hx)) c)

end Board

/-- Clearing frames leaves the values of other properties. -/
theorem stored_clearFrames {store : VehiclePropertyStore} {propId : Int}
    (hne : propId ≠ obd2FreezeFrameId) (hvalid : store.Valid) (timestamps : List Int)
    (recId : RecordId) :
    (PropertyState.clearFrames timestamps store).2.stored propId recId =
      store.stored propId recId := by
  induction timestamps generalizing store with
  | nil => rfl
  | cons t ts ih =>
      rcases hread : store.readValueOf obd2FreezeFrameId 0 t with e | value
      · simp only [PropertyState.clearFrames, hread]
      · simp only [PropertyState.clearFrames, hread]
        rw [ih (hvalid.removeValue value), stored_removeValue hvalid (stored_of_readValueOf hread),
          if_neg fun h => hne h.1]

/-- Removing the values of a property leaves those of others. -/
theorem stored_removeValuesForProperty {store : VehiclePropertyStore} {propId p : Int}
    (hne : propId ≠ p) (recId : RecordId) :
    (store.removeValuesForProperty p).stored propId recId = store.stored propId recId := by
  unfold removeValuesForProperty
  split
  · rfl
  · rw [stored_withRecord, if_neg hne]

/-- The removal of freeze frames. -/
theorem Board.spares_clear {propId : Int} {b after : Board} {timestamps : List Int}
    {result : Except SetValueError Unit} (hne : propId ≠ obd2FreezeFrameId)
    (hvalid : b.store.Valid) (hrun : (Route.clear timestamps).run b = .ok (result, after)) :
    b.Spares propId after := by
  rw [Route.run] at hrun
  split at hrun
  · cases hrun
    exact ⟨stored_removeValuesForProperty hne, [], (List.append_nil _).symm, by simp⟩
  · cases hrun
    exact ⟨stored_clearFrames hne hvalid timestamps, [], (List.append_nil _).symm, by simp⟩

namespace Route

/-- The route has no write of a property. -/
def Avoids (propId : Int) : Route → Prop
  | .single w => w.prop ≠ propId
  | .plain side w => (∀ x ∈ side, x.prop ≠ propId) ∧ w.prop ≠ propId
  | .report w request => w.prop ≠ propId ∧ ∀ r, request = some r → r.1.prop ≠ propId
  | .synchronized ws => ∀ w ∈ ws, w.prop ≠ propId
  | .clear _ => propId ≠ obd2FreezeFrameId
  | _ => True

/-- A route spares what it avoids, whether it ends well or not. -/
theorem Avoids.spares {propId : Int} {route : Route} {b after : Board}
    {result : Except SetValueError Unit} (h : route.Avoids propId) (hvalid : b.store.Valid)
    (hrun : route.run b = .ok (result, after)) : b.Spares propId after := by
  cases route with
  | done | refused error =>
      cases hrun
      exact .refl propId b
  | fault f => cases hrun
  | single w =>
      have hafter : (b.write w true .always).2 = after := congrArg Prod.snd (Except.ok.inj hrun)
      exact hafter ▸ Board.spares_write h true .always b
  | plain side w =>
      have hafter : ((b.attemptAll side).write w false .onValueChange).2 = after :=
        congrArg Prod.snd (Except.ok.inj hrun)
      exact hafter ▸ (Board.spares_attemptAll h.1 b).trans
        (Board.spares_write h.2 false .onValueChange _)
  | report w request =>
      have hfirst := Board.spares_write h.1 false .onValueChange b
      rcases hwrite : b.write w false .onValueChange with ⟨e | _, c⟩
      · rw [hwrite] at hfirst
        simp only [run, hwrite] at hrun
        cases hrun
        exact hfirst
      · rw [hwrite] at hfirst
        rcases request with _ | ⟨r, eventMode⟩
        · simp only [run, hwrite] at hrun
          cases hrun
          exact hfirst
        · simp only [run, hwrite] at hrun
          have hafter : (c.write r true eventMode).2 = after :=
            congrArg Prod.snd (Except.ok.inj hrun)
          exact hafter ▸ hfirst.trans (Board.spares_write (h.2 _ rfl) true eventMode c)
  | synchronized ws =>
      have hafter : (b.attemptUntil ws).2 = after := congrArg Prod.snd (Except.ok.inj hrun)
      exact hafter ▸ Board.spares_attemptUntil h b
  | clear timestamps => exact Board.spares_clear h hvalid hrun

end Route

/-- What is reached of some writes are the first of them. -/
theorem isPrefix_of_reached {store : VehiclePropertyStore} {ws rs : List VehiclePropValue}
    (h : reached store ws = .ok rs) : rs <+: ws := by
  induction ws generalizing rs with
  | nil =>
      cases h
      exact List.prefix_rfl
  | cons w ws ih =>
      rw [reached] at h
      split at h
      · cases h
      · split at h
        · rcases hrest : reached store ws with f | rest
          · rw [hrest] at h
            cases h
          · rw [hrest] at h
            cases h
            exact (List.prefix_cons_inj w).mpr (ih hrest)
        · cases h
          exact ⟨ws, rfl⟩

namespace PropertyState

variable {env : Environment} {s : PropertyState} {v x : VehiclePropValue} {propId : Int}

/-- A power report is answered by a request for the power state. -/
theorem prop_of_powerRequest {state : Int} {w : VehiclePropValue}
    {eventMode : PropertyStore.EventMode} (h : powerRequest state = some (w, eventMode)) :
    w.prop = apPowerStateReqId := by
  unfold powerRequest at h
  split_ifs at h
  · cases h
    rfl
  · cases h
    rfl

/-- A switch of the driver assistance writes the properties that show its state. -/
theorem prop_mem_of_mem_adasSide {ids : List Int} (hx : x ∈ s.adasSide v ids) : x.prop ∈ ids := by
  have hwrites (state : Int) (hmem : x ∈ ids.flatMap (s.adasWrites state)) : x.prop ∈ ids := by
    obtain ⟨p, hp, hxp⟩ := List.mem_flatMap.mp hmem
    unfold adasWrites at hxp
    split at hxp
    · cases hxp
    · obtain ⟨areaConfig, _, rfl⟩ := List.mem_map.mp hxp
      exact hp
  unfold adasSide at hx
  split at hx
  · exact hwrites 1 hx
  · exact hwrites notAvailableDisabled hx
  · cases hx

/-- A synchronisation writes temperatures. -/
theorem prop_of_mem_syncWrites (hvalid : s.mServerSidePropStore.Valid)
    {values ws : List VehiclePropValue} {areaId : Int} {newTempC : Option Binary32}
    (hread : s.readValuesForProperty env hvacTemperatureSetId = .ok values)
    (hws : s.syncWrites env areaId newTempC values = .ok ws) (hx : x ∈ ws) :
    x.prop = hvacTemperatureSetId := by
  have hstamped {temp : Binary32} {targets : List VehiclePropValue}
      (hsub : ∀ y ∈ targets, y ∈ syncTargets areaId values)
      (hreached : reached s.mServerSidePropStore
        (env.stampFrom s.moments (targets.map (setTemp temp))) = .ok ws) :
      x.prop = hvacTemperatureSetId := by
    obtain ⟨w, hw, i, _, _, rfl⟩ :=
      Environment.mem_stampFrom ((isPrefix_of_reached hreached).subset hx)
    obtain ⟨y, hy, rfl⟩ := List.mem_map.mp hw
    exact (prop_of_mem_readValues hvalid hread (List.mem_filter.mp (hsub y hy)).1 :
      y.prop = hvacTemperatureSetId)
  unfold syncWrites at hws
  split at hws
  · exact hstamped (fun y hy => hy) hws
  · cases hws
    cases hx
  · rename_i first targets htargets
    rcases helement : elementAt first.value.floatValues 0 with f | temp
    · rw [helement] at hws
      cases hws
    · rw [helement] at hws
      refine hstamped (fun y hy => ?_) hws
      rw [htargets]
      exact List.mem_cons_of_mem first hy

section Routes

variable (hne : v.prop ≠ propId)

include hne

theorem avoids_plain : (s.plainRoute env v []).Avoids propId := ⟨nofun, hne⟩

/-- The route for the user HAL avoids other properties. -/
theorem avoids_userHal (h : s.mFakeUserHal.Reachable) :
    (s.userHalRoute env v).Avoids propId := by
  obtain ⟨outcome, after, hresult, _, hout⟩ :=
    FakeUserHal.onSetProperty_regular h.wellFormed (env.clock s.moments) v
  unfold userHalRoute
  rw [hresult]
  rcases outcome with e | _ | w
  · trivial
  · trivial
  · exact fun hprop => hne ((hout w rfl).1.symm.trans hprop)

/-- The route for a power report avoids other properties than that of the power request. -/
theorem avoids_report (hreq : propId ≠ apPowerStateReqId) :
    (s.reportRoute env v).Avoids propId := by
  unfold reportRoute
  rcases v.value.int32Values with _ | ⟨state, rest⟩
  · simp only
    split
    · trivial
    · exact ⟨hne, nofun⟩
  · refine ⟨hne, fun r hr => ?_⟩
    obtain ⟨⟨w, eventMode⟩, hrequest, rfl⟩ := Option.map_eq_some_iff.mp hr
    change w.prop ≠ propId
    rw [prop_of_powerRequest hrequest]
    exact hreq.symm

/-- The route for a suggestion avoids other properties. -/
theorem avoids_suggestion : (s.suggestionRoute env v).Avoids propId := by
  unfold suggestionRoute
  split
  · trivial
  · split
    · split
      · trivial
      · split
        · trivial
        · exact hne
    · trivial

/-- The route for a temperature avoids other properties. -/
theorem avoids_temperature (hvalid : s.mServerSidePropStore.Valid)
    (hprop : v.prop = hvacTemperatureSetId) (temp : Binary32) :
    (s.temperatureRoute env v temp).Avoids propId := by
  unfold temperatureRoute
  split
  · exact avoids_plain hne
  · split
    · trivial
    · rename_i values hread
      split
      · trivial
      · rename_i ws hws
        intro w hw
        rw [prop_of_mem_syncWrites hvalid hread hws hw, ← hprop]
        exact hne

/-- The route for the dual mode avoids other properties than that of the temperature. -/
theorem avoids_dual (hvalid : s.mServerSidePropStore.Valid)
    (htemp : propId ≠ hvacTemperatureSetId) : (s.dualRoute env v).Avoids propId := by
  unfold dualRoute
  split
  · exact avoids_plain hne
  · rename_i values hread
    split
    · trivial
    · rename_i ws hws
      refine ⟨fun w hw => ?_, hne⟩
      rw [prop_of_mem_syncWrites hvalid hread hws hw]
      exact htemp.symm

/-- The route for the cruise control avoids what the route for the standard type avoids. -/
theorem avoids_cruise {onStandard : Route} (h : onStandard.Avoids propId) :
    (s.cruiseRoute env v onStandard).Avoids propId := by
  unfold cruiseRoute
  split
  · trivial
  · trivial
  · trivial
  · exact h
  · exact avoids_plain hne

/-- The route for a command avoids other properties. -/
theorem avoids_command : (s.commandRoute env v).Avoids propId := by
  unfold commandRoute
  split
  · trivial
  · split
    · trivial
    · exact avoids_plain hne

end Routes

/-- The route of another property, but for the switch of the power. -/
theorem avoids_route (hvalid : s.mServerSidePropStore.Valid) (hhal : s.mFakeUserHal.Reachable)
    (hzone : isGlobalProp propId = false) (hadas : ¬IsAdasState propId) (hne : v.prop ≠ propId)
    (hpower : v.prop ≠ hvacPowerOnId)
    (hdual : v.prop = hvacDualOnId → propId ≠ hvacTemperatureSetId) :
    (s.route env v).Avoids propId := by
  have hother {p : Int} (hp : isGlobalProp p = true) : propId ≠ p := by
    rintro rfl
    cases hp.symm.trans hzone
  unfold route
  split_ifs
  · trivial
  · exact avoids_userHal hne hhal
  · trivial
  · split
    · rename_i ids hids
      refine ⟨fun x hx hprop => ?_, hne⟩
      obtain ⟨w, hw, i, _, _, rfl⟩ := Environment.mem_stampFrom hx
      obtain ⟨l₁, l₂, hl, _⟩ := List.lookup_eq_some_iff.mp hids
      have hmem : w.prop ∈ ids := prop_mem_of_mem_adasSide hw
      exact hadas ⟨(v.prop, ids), by rw [hl]; simp, hprop ▸ hmem⟩
    · refine propertyRoute_induction env s v (P := Route.Avoids propId) (avoids_plain hne)
        (fun _ => trivial) (fun _ => avoids_report hne (hother (by decide))) ?_
        (fun _ => trivial) (fun _ => hother (by decide)) (fun h => absurd h hpower)
        (fun _ => avoids_suggestion hne) (fun h temp _ => avoids_temperature hne hvalid h temp)
        (fun h _ => avoids_dual hne hvalid (hdual h))
        (fun _ => avoids_cruise hne (avoids_command hne)) fun _ => avoids_cruise hne trivial
      intro _ parameter
      exact (hother (show isGlobalProp apPowerStateReqId = true by decide)).symm

/-- A set of another property, but for the switch of the power. -/
theorem spares_of_setValue {t : PropertyState} {result : Except SetValueError Unit}
    (hvalid : s.mServerSidePropStore.Valid) (hhal : s.mFakeUserHal.Reachable)
    (hzone : isGlobalProp propId = false) (hadas : ¬IsAdasState propId) (hne : v.prop ≠ propId)
    (hpower : v.prop ≠ hvacPowerOnId)
    (hdual : v.prop = hvacDualOnId → propId ≠ hvacTemperatureSetId)
    (hset : s.setValue env v = .ok (result, t)) : s.board.Spares propId t.board := by
  have hrun := view_setValue env s v hvalid
  rw [hset] at hrun
  exact (avoids_route hvalid hhal hzone hadas hne hpower hdual).spares hvalid hrun.symm

end PropertyState

end VhalCore.FakeHardware
