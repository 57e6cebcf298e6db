import VhalCore.Core.Execution
import VhalCore.Models.FakeHardware.Interpretation.Refresh
import VhalCore.Models.FakeHardware.Native.RefreshRegistry

/-!
# The invariant of the registered callbacks

An interval with an action has at least one pair, and its action holds the one object that the
timer has for the interval. Both operations on a pair preserve this, and so do all calls.
-/

namespace VhalCore.FakeHardware

namespace FakeVehicleHardware

variable {hardware : FakeVehicleHardware} {p : PropIdAreaId}

/-- Taking a pair from its interval changes the action of the interval only. -/
theorem action_unregisterRefreshLocked {refreshInfo : RefreshInfo} {action : ActionForInterval}
    (hp : hardware.mRefreshInfoByPropIdAreaId.lookup p = some refreshInfo)
    (haction : hardware.mActionByIntervalInNanos.lookup refreshInfo.intervalInNanos = some action)
    (interval : Int) :
    (hardware.unregisterRefreshLocked p).mActionByIntervalInNanos.lookup interval =
      if interval = refreshInfo.intervalInNanos then
        if action.propIdAreaIdsToRefresh.erase p = ∅ then none
        else some { action with
          propIdAreaIdsToRefresh := action.propIdAreaIdsToRefresh.erase p }
      else hardware.mActionByIntervalInNanos.lookup interval := by
  rw [unregisterRefreshLocked, hp]
  simp only [UnorderedMap.valueAt, haction, Option.getD_some]
  by_cases hleft : action.propIdAreaIdsToRefresh.erase p = ∅
  · rw [if_pos hleft, if_pos hleft]
    exact UnorderedMap.lookup_erase_eq ..
  · rw [if_neg hleft, if_neg hleft]
    exact UnorderedMap.lookup_insert_eq ..

/-- A pair is added to the action of its interval. -/
theorem action_addToInterval (p : PropIdAreaId) (refreshInfo : RefreshInfo)
    (hardware : FakeVehicleHardware) :
    ∃ action : ActionForInterval, p ∈ action.propIdAreaIdsToRefresh ∧ ∀ interval,
      (hardware.addToInterval p refreshInfo).mActionByIntervalInNanos.lookup interval =
        if interval = refreshInfo.intervalInNanos then some action
        else hardware.mActionByIntervalInNanos.lookup interval := by
  rw [addToInterval]
  simp only
  split
  · exact ⟨_, Finset.mem_insert_self _ _, fun _ => UnorderedMap.lookup_insert_eq ..⟩
  · exact ⟨_, Finset.mem_singleton_self _, fun _ => UnorderedMap.lookup_insert_eq ..⟩

end FakeVehicleHardware

namespace RefreshRegistry

open FakeVehicleHardware

/-- Every interval with an action has a pair and one object at the timer. -/
structure Consistent (registry : RefreshRegistry) : Prop where
  scheduled : Scheduled registry.hardware
  nonempty : ∀ interval action,
    registry.hardware.mActionByIntervalInNanos.lookup interval = some action →
    action.propIdAreaIdsToRefresh.Nonempty
  acting : ∀ interval, (∃ callback, registry.recurrentActions.lookup interval = some callback) ↔
    ∃ action, registry.hardware.mActionByIntervalInNanos.lookup interval = some action
  registered : ∀ callback interval, registry.timerCallbacks.lookup callback = some interval ↔
    registry.recurrentActions.lookup interval = some callback
  older : ∀ callback interval, registry.timerCallbacks.lookup callback = some interval →
    callback < registry.made

variable {registry : RefreshRegistry}

/-- An empty registry is consistent. -/
theorem consistent_start : Consistent {} where
  scheduled := scheduled_start
  nonempty _ _ h := absurd (h.symm.trans (Finmap.lookup_empty _)) nofun
  acting _ := iff_of_false (fun ⟨_, h⟩ => absurd (h.symm.trans (Finmap.lookup_empty _)) nofun)
    fun ⟨_, h⟩ => absurd (h.symm.trans (Finmap.lookup_empty _)) nofun
  registered _ _ := iff_of_false (fun h => absurd (h.symm.trans (Finmap.lookup_empty _)) nofun)
    fun h => absurd (h.symm.trans (Finmap.lookup_empty _)) nofun
  older _ _ h := absurd (h.symm.trans (Finmap.lookup_empty _)) nofun

/-- The hardware of the registry takes the pair away as the hardware alone does. -/
theorem hardware_unregisterRefreshLocked (p : PropIdAreaId) (registry : RefreshRegistry) :
    (registry.unregisterRefreshLocked p).hardware =
      registry.hardware.unregisterRefreshLocked p := by
  rw [unregisterRefreshLocked]
  cases hp : registry.hardware.mRefreshInfoByPropIdAreaId.lookup p with
  | none =>
      rw [FakeVehicleHardware.unregisterRefreshLocked, hp]
  | some refreshInfo =>
      simp only
      split
      · rfl
      · rfl

/-- Adding a pair to the registry adds it at the hardware. -/
theorem hardware_addToInterval (p : PropIdAreaId) (refreshInfo : RefreshInfo)
    (registry : RefreshRegistry) :
    (registry.addToInterval p refreshInfo).hardware =
      registry.hardware.addToInterval p refreshInfo := by
  rw [addToInterval]
  split
  · rfl
  · rfl

/-- With the last pair of an interval its object leaves the timer. -/
theorem Consistent.unregisterRefreshLocked (h : Consistent registry) (p : PropIdAreaId) :
    Consistent (registry.unregisterRefreshLocked p) := by
  have hscheduled := h.scheduled.unregisterRefreshLocked p
  rw [← hardware_unregisterRefreshLocked] at hscheduled
  rw [RefreshRegistry.unregisterRefreshLocked] at hscheduled ⊢
  cases hp : registry.hardware.mRefreshInfoByPropIdAreaId.lookup p with
  | none => exact h
  | some refreshInfo =>
      obtain ⟨action, haction, -⟩ := h.scheduled.listed p refreshInfo hp
      obtain ⟨callback, hcallback⟩ := (h.acting _).mpr ⟨action, haction⟩
      have hactions := action_unregisterRefreshLocked hp haction
      rw [hp] at hscheduled
      simp only [UnorderedMap.valueAt, haction, Option.getD_some, hcallback,
        unregisterTimerCallback] at hscheduled ⊢
      by_cases hleft : action.propIdAreaIdsToRefresh.erase p = ∅
      · simp only [if_pos hleft] at hscheduled hactions ⊢
        refine ⟨hscheduled, fun interval left hinterval => ?_, fun interval => ?_,
          fun object interval => ?_, fun object interval hobject => ?_⟩
        · simp only [hactions] at hinterval
          split at hinterval
          · cases hinterval
          · exact h.nonempty interval left hinterval
        · simp only [hactions, UnorderedMap.lookup_erase_eq]
          split
          · exact iff_of_false (by rintro ⟨_, ⟨⟩⟩) (by rintro ⟨_, ⟨⟩⟩)
          · exact h.acting interval
        · simp only [UnorderedMap.lookup_erase_eq]
          by_cases hobject : object = callback
          · rw [if_pos hobject, hobject]
            split
            · exact iff_of_false (by rintro ⟨⟩) (by rintro ⟨⟩)
            · next hne =>
              refine iff_of_false (by rintro ⟨⟩) fun hother => hne ?_
              have hboth := (h.registered callback interval).mpr hother
              rw [(h.registered callback _).mpr hcallback] at hboth
              exact (Option.some.inj hboth).symm
          · rw [if_neg hobject, h.registered]
            split
            · next heq =>
              rw [heq, hcallback, Option.some.injEq]
              exact iff_of_false (Ne.symm hobject) (by rintro ⟨⟩)
            · exact Iff.rfl
        · simp only [UnorderedMap.lookup_erase_eq] at hobject
          split at hobject
          · cases hobject
          · exact h.older object interval hobject
      · simp only [if_neg hleft] at hscheduled hactions ⊢
        refine ⟨hscheduled, fun interval left hinterval => ?_, fun interval => ?_,
          h.registered, h.older⟩
        · simp only [hactions] at hinterval
          split at hinterval
          · cases hinterval
            exact Finset.nonempty_iff_ne_empty.mpr hleft
          · exact h.nonempty interval left hinterval
        · simp only [hactions]
          split
          · next heq =>
            rw [heq]
            exact iff_of_true ⟨callback, hcallback⟩ ⟨_, rfl⟩
          · exact h.acting interval

/-- A pair without an interval makes a new object for an interval without an action. -/
theorem Consistent.addToInterval (h : Consistent registry) {p : PropIdAreaId}
    (hfree : registry.hardware.mRefreshInfoByPropIdAreaId.lookup p = none)
    (refreshInfo : RefreshInfo) : Consistent (registry.addToInterval p refreshInfo) := by
  have hscheduled := h.scheduled.addToInterval hfree refreshInfo
  obtain ⟨action, hin, hactions⟩ := action_addToInterval p refreshInfo registry.hardware
  have hnonempty : ∀ interval action',
      (registry.hardware.addToInterval p refreshInfo).mActionByIntervalInNanos.lookup interval =
        some action' → action'.propIdAreaIdsToRefresh.Nonempty := by
    intro interval action' hinterval
    rw [hactions] at hinterval
    split at hinterval
    · cases hinterval
      exact ⟨p, hin⟩
    · exact h.nonempty interval action' hinterval
  rw [RefreshRegistry.addToInterval]
  cases hold : registry.hardware.mActionByIntervalInNanos.lookup refreshInfo.intervalInNanos with
  | some old =>
      refine ⟨hscheduled, hnonempty, fun interval => ?_, h.registered, h.older⟩
      simp only [hactions]
      split
      · next heq =>
        rw [heq]
        exact iff_of_true ((h.acting _).mpr ⟨old, hold⟩) ⟨action, rfl⟩
      · exact h.acting interval
  | none =>
      have hunheld (callback : Nat) :
          registry.recurrentActions.lookup refreshInfo.intervalInNanos ≠ some callback := by
        intro hheld
        obtain ⟨old, hsome⟩ := (h.acting _).mp ⟨callback, hheld⟩
        cases hold.symm.trans hsome
      refine ⟨hscheduled, hnonempty, fun interval => ?_, fun callback interval => ?_,
        fun callback interval hcallback => ?_⟩
      · simp only [hactions, UnorderedMap.lookup_insert_eq]
        split
        · exact iff_of_true ⟨_, rfl⟩ ⟨_, rfl⟩
        · exact h.acting interval
      · simp only [UnorderedMap.lookup_insert_eq]
        by_cases hnew : callback = registry.made
        · rw [if_pos hnew, hnew, Option.some.injEq]
          split
          · next heq => exact iff_of_true heq.symm rfl
          · next hne =>
            refine iff_of_false (Ne.symm hne) fun hheld => ?_
            exact lt_irrefl _ (h.older _ _ ((h.registered _ _).mpr hheld))
        · rw [if_neg hnew, h.registered]
          split
          · next heq =>
            rw [heq]
            exact iff_of_false (hunheld callback) fun hmade => hnew (Option.some.inj hmade).symm
          · exact Iff.rfl
      · simp only [UnorderedMap.lookup_insert_eq] at hcallback
        split at hcallback
        · next heq =>
          rw [heq]
          exact Nat.lt_succ_self _
        · exact Nat.lt_succ_of_lt (h.older callback interval hcallback)

section Calls

variable {undefinedCast : Binary32 → Int}

/-- Registering a pair in the registry registers it at the hardware. -/
theorem hardware_registerRefreshLocked (p : PropIdAreaId) (eventMode : EventMode)
    (sampleRateHz : Binary32) (registry : RefreshRegistry) :
    (registry.registerRefreshLocked undefinedCast p eventMode sampleRateHz).hardware =
      (registry.hardware.unregisterRefreshLocked p).addToInterval p
        ⟨eventMode, refreshInterval undefinedCast sampleRateHz⟩ := by
  rw [registerRefreshLocked, hardware_addToInterval, hardware_unregisterRefreshLocked]

theorem Consistent.registerRefreshLocked (h : Consistent registry) (p : PropIdAreaId)
    (eventMode : EventMode) (sampleRateHz : Binary32) :
    Consistent (registry.registerRefreshLocked undefinedCast p eventMode sampleRateHz) := by
  refine (h.unregisterRefreshLocked p).addToInterval ?_ _
  rw [hardware_unregisterRefreshLocked, lookup_unregisterRefreshLocked, if_pos rfl]

/-- The set of on-change pairs plays no part. -/
theorem Consistent.withOnChange (h : Consistent registry) (pairs : Finset PropIdAreaId) :
    Consistent { registry with
      hardware := { registry.hardware with mSubOnChangePropIdAreaIds := pairs } } where
  scheduled := ⟨h.scheduled.listed, h.scheduled.owned, h.scheduled.timed⟩
  nonempty := h.nonempty
  acting := h.acting
  registered := h.registered
  older := h.older

/-- Subscribing a pair keeps the registry consistent. -/
theorem Consistent.subscribePropIdAreaIdLocked (h : Consistent registry)
    (undefinedCast : Binary32 → Int) (propId areaId : Int)
    (sampleRateHz : Binary32) (enableVariableUpdateRate : Bool) (config : VehiclePropConfig) :
    Consistent (registry.subscribePropIdAreaIdLocked undefinedCast propId areaId sampleRateHz
      enableVariableUpdateRate config).2 := by
  rw [RefreshRegistry.subscribePropIdAreaIdLocked]
  cases config.changeMode with
  | static => exact h
  | onChange => exact h.withOnChange _
  | continuous =>
      simp only
      split
      · exact h
      · exact h.registerRefreshLocked _ _ _

/-- Subscribing some areas keeps the registry consistent. -/
theorem Consistent.subscribeAreas {options : SubscribeOptions} {config : VehiclePropConfig}
    (areaIds : List Int) (h : Consistent registry) :
    Consistent (registry.subscribeAreas undefinedCast options config areaIds).2 := by
  induction areaIds generalizing registry with
  | nil => exact h
  | cons areaId areaIds ih =>
      have hnext := h.subscribePropIdAreaIdLocked undefinedCast options.propId
        areaId options.sampleRate options.enableVariableUpdateRate config
      rw [RefreshRegistry.subscribeAreas]
      split
      · next heq =>
        rw [heq] at hnext
        exact ih hnext
      · next heq =>
        rw [heq] at hnext
        exact hnext

variable {getPropConfig : Int → Option VehiclePropConfig}

/-- Every call preserves the invariant. -/
theorem Consistent.apply (h : Consistent registry) (call : RegistryCall) :
    Consistent (call.apply undefinedCast getPropConfig registry) := by
  cases call with
  | subscribe options =>
      rw [RegistryCall.apply, RefreshRegistry.subscribe]
      cases getPropConfig options.propId with
      | none => exact h
      | some config => exact h.subscribeAreas options.areaIds
  | unsubscribe propId areaId => exact (h.unregisterRefreshLocked _).withOnChange _

/-- The registry is consistent after all calls. -/
theorem consistent_run (calls : List RegistryCall) :
    Consistent (RefreshRegistry.run undefinedCast getPropConfig calls) := by
  rw [RefreshRegistry.run]
  induction calls using List.reverseRecOn with
  | nil => exact consistent_start
  | append_singleton calls call ih =>
      rw [List.foldl_append]
      exact ih.apply call

end Calls

section Entries

variable (undefinedCast : Binary32 → Int)

/-- A pair that is registered is refreshed at the interval of its rate. -/
theorem lookup_registerRefreshLocked (p q : PropIdAreaId) (eventMode : EventMode)
    (sampleRateHz : Binary32) (registry : RefreshRegistry) :
    (registry.registerRefreshLocked undefinedCast p eventMode
      sampleRateHz).hardware.mRefreshInfoByPropIdAreaId.lookup q =
      if q = p then some ⟨eventMode, refreshInterval undefinedCast sampleRateHz⟩
      else registry.hardware.mRefreshInfoByPropIdAreaId.lookup q := by
  rw [hardware_registerRefreshLocked, lookup_addToInterval, lookup_unregisterRefreshLocked]
  split
  · rfl
  · rfl

/-- Unregistering a pair divides nothing. -/
theorem dividedByZero_unregisterRefreshLocked (p : PropIdAreaId) (registry : RefreshRegistry) :
    (registry.unregisterRefreshLocked p).dividedByZero = registry.dividedByZero := by
  rw [unregisterRefreshLocked]
  cases registry.hardware.mRefreshInfoByPropIdAreaId.lookup p with
  | none => rfl
  | some refreshInfo =>
      simp only
      split
      · cases registry.recurrentActions.lookup refreshInfo.intervalInNanos with
        | none => rfl
        | some callback => rfl
      · rfl

/-- Nothing is divided by an interval that is not 0. -/
theorem dividedByZero_registerRefreshLocked {sampleRateHz : Binary32}
    (hne : refreshInterval undefinedCast sampleRateHz ≠ 0) (p : PropIdAreaId)
    (eventMode : EventMode) (registry : RefreshRegistry) :
    (registry.registerRefreshLocked undefinedCast p eventMode sampleRateHz).dividedByZero =
      registry.dividedByZero := by
  rw [registerRefreshLocked, addToInterval]
  split
  · exact dividedByZero_unregisterRefreshLocked p registry
  · simp only [beq_false_of_ne hne, Bool.or_false]
    exact dividedByZero_unregisterRefreshLocked p registry

/-- A subscription at an interval that is not 0 has no fault. -/
theorem dividedByZero_subscribeAreas {options : SubscribeOptions}
    (hne : refreshInterval undefinedCast options.sampleRate ≠ 0) (config : VehiclePropConfig)
    (areaIds : List Int) (registry : RefreshRegistry) :
    (registry.subscribeAreas undefinedCast options config areaIds).2.dividedByZero =
      registry.dividedByZero := by
  induction areaIds generalizing registry with
  | nil => rfl
  | cons areaId areaIds ih =>
      rw [subscribeAreas, subscribePropIdAreaIdLocked]
      cases config.changeMode with
      | static => exact ih registry
      | onChange => exact ih _
      | continuous =>
          simp only
          by_cases hzero : options.sampleRate.eq .zero = true
          · rw [if_pos hzero]
          · rw [if_neg hzero]
            simp only
            rw [ih, dividedByZero_registerRefreshLocked undefinedCast hne]

/-- Where the conversions are defined, a subscription does to the hardware of the registry what
it does to the hardware alone. -/
theorem hardware_subscribeAreas {options : SubscribeOptions} {config : VehiclePropConfig}
    {status : StatusCode} {hardware' : FakeVehicleHardware} (areaIds : List Int)
    (registry : RefreshRegistry)
    (h : registry.hardware.subscribeAreas options config areaIds = some (status, hardware')) :
    ∃ registry', registry.subscribeAreas undefinedCast options config areaIds =
      (status, registry') ∧ registry'.hardware = hardware' := by
  induction areaIds generalizing registry with
  | nil =>
      cases h
      exact ⟨registry, rfl, rfl⟩
  | cons areaId areaIds ih =>
      rw [FakeVehicleHardware.subscribeAreas,
        FakeVehicleHardware.subscribePropIdAreaIdLocked] at h
      rw [subscribeAreas, subscribePropIdAreaIdLocked]
      cases hmode : config.changeMode with
      | static =>
          rw [hmode] at h
          exact ih registry h
      | onChange =>
          rw [hmode] at h
          exact ih { registry with
            hardware := { registry.hardware with mSubOnChangePropIdAreaIds := _ } } h
      | continuous =>
          rw [hmode] at h
          simp only at h ⊢
          by_cases hzero : options.sampleRate.eq .zero = true
          · rw [if_pos hzero] at h ⊢
            cases h
            exact ⟨registry, rfl, rfl⟩
          · rw [if_neg hzero, FakeVehicleHardware.registerRefreshLocked] at h
            rw [if_neg hzero]
            cases hinterval : intervalInNanos options.sampleRate with
            | none =>
                rw [hinterval] at h
                cases h
            | some interval =>
                rw [hinterval] at h
                simp only at h
                by_cases hne : interval = 0
                · rw [if_pos hne] at h
                  cases h
                rw [if_neg hne] at h
                refine ih _ ?_
                rw [hardware_registerRefreshLocked, refreshInterval, hinterval]
                exact h

/-- A subscription in the registry is one at the hardware. -/
theorem hardware_subscribe {getPropConfig : Int → Option VehiclePropConfig}
    {options : SubscribeOptions} {status : StatusCode} {hardware' : FakeVehicleHardware}
    (registry : RefreshRegistry)
    (h : registry.hardware.subscribe getPropConfig options = some (status, hardware')) :
    ∃ registry', registry.subscribe undefinedCast getPropConfig options = (status, registry') ∧
      registry'.hardware = hardware' := by
  rw [FakeVehicleHardware.subscribe] at h
  rw [subscribe]
  cases hconfig : getPropConfig options.propId with
  | none =>
      rw [hconfig] at h
      cases h
      exact ⟨registry, rfl, rfl⟩
  | some config =>
      rw [hconfig] at h
      exact hardware_subscribeAreas undefinedCast options.areaIds registry h

/-- The entry that a subscription gives to one of its pairs. -/
def requestedInfo (options : SubscribeOptions) (config : VehiclePropConfig) (areaId : Int) :
    RefreshInfo :=
  ⟨refreshEventMode config areaId options.enableVariableUpdateRate,
    refreshInterval undefinedCast options.sampleRate⟩

/-- Only the pairs of a continuous property get an interval, unless the rate is zero. -/
theorem lookup_subscribeAreas (options : SubscribeOptions) (config : VehiclePropConfig)
    (areaIds : List Int) (registry : RefreshRegistry) (q : PropIdAreaId) :
    (registry.subscribeAreas undefinedCast options config
      areaIds).2.hardware.mRefreshInfoByPropIdAreaId.lookup q =
      if (q.propId = options.propId ∧ q.areaId ∈ areaIds) ∧ config.changeMode = .continuous ∧
          options.sampleRate.eq .zero = false then
        some (requestedInfo undefinedCast options config q.areaId)
      else registry.hardware.mRefreshInfoByPropIdAreaId.lookup q := by
  induction areaIds generalizing registry with
  | nil =>
      rw [if_neg fun h => List.not_mem_nil h.1.2]
      rfl
  | cons areaId areaIds ih =>
      rw [subscribeAreas, subscribePropIdAreaIdLocked]
      cases hmode : config.changeMode with
      | static =>
          simp only [ih, hmode, reduceCtorEq, false_and, and_false, if_false]
      | onChange =>
          simp only [ih, hmode, reduceCtorEq, false_and, and_false, if_false]
      | continuous =>
          simp only
          by_cases hzero : options.sampleRate.eq .zero = true
          · rw [if_pos hzero, if_neg fun h => nomatch h.2.2.symm.trans hzero]
          · simp only [if_neg hzero]
            rw [ih, hmode, lookup_registerRefreshLocked]
            simp only [true_and, Bool.not_eq_true] at hzero ⊢
            simp only [hzero, and_true, List.mem_cons]
            by_cases hrest : q.propId = options.propId ∧ q.areaId ∈ areaIds
            · rw [if_pos hrest, if_pos ⟨hrest.1, Or.inr hrest.2⟩]
            · rw [if_neg hrest]
              by_cases hfirst : q = ⟨options.propId, areaId⟩
              · rw [if_pos hfirst, hfirst, if_pos ⟨rfl, Or.inl rfl⟩]
                rfl
              · rw [if_neg hfirst, if_neg]
                rintro ⟨hprop, harea | harea⟩
                · rcases q with ⟨propId, area⟩
                  exact hfirst (congrArg₂ PropIdAreaId.mk hprop harea)
                · exact hrest ⟨hprop, harea⟩

end Entries

end RefreshRegistry

end VhalCore.FakeHardware
