import VhalCore.Models.FakeHardware.Native.Subscriptions

/-!
# What the operations do to the entries of the hardware

Every operation is described by the entries it leaves. Along all of them a pair that has an
interval is one of those that are refreshed at the interval, and the interval has a callback
at the timer.
-/

namespace VhalCore.FakeHardware

variable {hardware hardware' : FakeVehicleHardware} {p q : PropIdAreaId}

/-- Every pair with an interval is refreshed at it and at no other, by a callback that the
timer has. -/
structure Scheduled (hardware : FakeVehicleHardware) : Prop where
  listed : ∀ p refreshInfo, hardware.mRefreshInfoByPropIdAreaId.lookup p = some refreshInfo →
    ∃ action, hardware.mActionByIntervalInNanos.lookup refreshInfo.intervalInNanos = some action ∧
      p ∈ action.propIdAreaIdsToRefresh
  owned : ∀ interval action, hardware.mActionByIntervalInNanos.lookup interval = some action →
    ∀ p ∈ action.propIdAreaIdsToRefresh, ∃ refreshInfo,
      hardware.mRefreshInfoByPropIdAreaId.lookup p = some refreshInfo ∧
        refreshInfo.intervalInNanos = interval
  timed : ∀ interval action, hardware.mActionByIntervalInNanos.lookup interval = some action →
    action.recurrentAction = some interval ∧ interval ∈ hardware.timerCallbacks

theorem scheduled_start : Scheduled {} :=
  ⟨fun _ _ h => absurd (h.symm.trans (Finmap.lookup_empty _)) nofun,
    fun _ _ h => absurd (h.symm.trans (Finmap.lookup_empty _)) nofun,
    fun _ _ h => absurd (h.symm.trans (Finmap.lookup_empty _)) nofun⟩

namespace FakeVehicleHardware

/-- A pair that is unregistered is no longer refreshed, and the others still are. -/
theorem lookup_unregisterRefreshLocked (p q : PropIdAreaId) (hardware : FakeVehicleHardware) :
    (hardware.unregisterRefreshLocked p).mRefreshInfoByPropIdAreaId.lookup q =
      if q = p then none else hardware.mRefreshInfoByPropIdAreaId.lookup q := by
  rw [unregisterRefreshLocked]
  cases h : hardware.mRefreshInfoByPropIdAreaId.lookup p with
  | none =>
      by_cases hq : q = p
      · rw [if_pos hq, hq]
        exact h
      · rw [if_neg hq]
  | some refreshInfo =>
      simp only
      rw [← UnorderedMap.lookup_erase_eq]
      split
      · rfl
      · rfl

theorem onChange_unregisterTimerCallback (callback : Option Int) (hardware : FakeVehicleHardware) :
    (hardware.unregisterTimerCallback callback).mSubOnChangePropIdAreaIds =
      hardware.mSubOnChangePropIdAreaIds := by
  cases callback <;> rfl

/-- Unregistering a pair leaves the on-change ones. -/
theorem onChange_unregisterRefreshLocked (p : PropIdAreaId) (hardware : FakeVehicleHardware) :
    (hardware.unregisterRefreshLocked p).mSubOnChangePropIdAreaIds =
      hardware.mSubOnChangePropIdAreaIds := by
  rw [unregisterRefreshLocked]
  cases hardware.mRefreshInfoByPropIdAreaId.lookup p with
  | none => rfl
  | some refreshInfo =>
      simp only
      split
      · exact onChange_unregisterTimerCallback _ hardware
      · rfl

/-- A pair that is added is refreshed as asked for. -/
theorem lookup_addToInterval (p q : PropIdAreaId) (refreshInfo : RefreshInfo)
    (hardware : FakeVehicleHardware) :
    (hardware.addToInterval p refreshInfo).mRefreshInfoByPropIdAreaId.lookup q =
      if q = p then some refreshInfo else hardware.mRefreshInfoByPropIdAreaId.lookup q := by
  rw [addToInterval]
  simp only
  split
  · exact UnorderedMap.lookup_insert_eq ..
  · exact UnorderedMap.lookup_insert_eq ..

/-- Adding a pair leaves the on-change ones. -/
theorem onChange_addToInterval (p : PropIdAreaId) (refreshInfo : RefreshInfo)
    (hardware : FakeVehicleHardware) :
    (hardware.addToInterval p refreshInfo).mSubOnChangePropIdAreaIds =
      hardware.mSubOnChangePropIdAreaIds := by
  rw [addToInterval]
  simp only
  split
  · rfl
  · rfl

end FakeVehicleHardware

open FakeVehicleHardware

/-- A pair loses its interval: the action of the interval, if it is left, refreshes the other
pairs that it refreshed before. -/
theorem Scheduled.withoutPair (h : Scheduled hardware) {refreshInfo : RefreshInfo}
    (hp : hardware.mRefreshInfoByPropIdAreaId.lookup p = some refreshInfo)
    {action : ActionForInterval}
    (haction : hardware.mActionByIntervalInNanos.lookup refreshInfo.intervalInNanos = some action)
    {left : Option ActionForInterval} {actions : UnorderedMap Int ActionForInterval}
    {callbacks : Finset Int}
    (hactions : ∀ interval, actions.lookup interval = if interval = refreshInfo.intervalInNanos
      then left else hardware.mActionByIntervalInNanos.lookup interval)
    (hpairs : ∀ q, (∃ action', left = some action' ∧ q ∈ action'.propIdAreaIdsToRefresh) ↔
      q ≠ p ∧ q ∈ action.propIdAreaIdsToRefresh)
    (htimed : ∀ action', left = some action' →
      action'.recurrentAction = some refreshInfo.intervalInNanos ∧
        refreshInfo.intervalInNanos ∈ callbacks)
    (hcallbacks : ∀ interval ∈ hardware.timerCallbacks,
      interval ≠ refreshInfo.intervalInNanos → interval ∈ callbacks) :
    Scheduled { hardware with
      mRefreshInfoByPropIdAreaId := hardware.mRefreshInfoByPropIdAreaId.erase p
      mActionByIntervalInNanos := actions
      timerCallbacks := callbacks } := by
  have hkept {q : PropIdAreaId} {interval : Int} (hne : q ≠ p)
      (hq : ∃ info, hardware.mRefreshInfoByPropIdAreaId.lookup q = some info ∧
        info.intervalInNanos = interval) :
      ∃ info, (hardware.mRefreshInfoByPropIdAreaId.erase p).lookup q = some info ∧
        info.intervalInNanos = interval := by
    rwa [UnorderedMap.lookup_erase_eq, if_neg hne]
  refine ⟨fun q info hq => ?_, fun interval action' haction' q hq => ?_,
    fun interval action' haction' => ?_⟩
  · simp only [UnorderedMap.lookup_erase_eq, hactions] at hq ⊢
    split at hq
    · cases hq
    · next hne =>
      obtain ⟨old, hold, hmem⟩ := h.listed q info hq
      split
      · next heq =>
        rw [heq] at hold
        cases haction.symm.trans hold
        exact (hpairs q).mpr ⟨hne, hmem⟩
      · exact ⟨old, hold, hmem⟩
  · simp only [hactions] at haction'
    split at haction'
    · next heq =>
      obtain ⟨hne, hmem⟩ := (hpairs q).mp ⟨action', haction', hq⟩
      rw [heq]
      exact hkept hne (h.owned _ action haction q hmem)
    · next hne =>
      have hinfo := h.owned interval action' haction' q hq
      refine hkept ?_ hinfo
      rintro rfl
      obtain ⟨info, hlookup, hinterval⟩ := hinfo
      cases hp.symm.trans hlookup
      exact hne hinterval.symm
  · simp only [hactions] at haction'
    split at haction'
    · next heq =>
      rw [heq]
      exact htimed action' haction'
    · next hne =>
      obtain ⟨hcallback, htimer⟩ := h.timed interval action' haction'
      exact ⟨hcallback, hcallbacks interval htimer hne⟩

/-- Taking a pair from its interval leaves the others scheduled. -/
theorem Scheduled.unregisterRefreshLocked (h : Scheduled hardware) (p : PropIdAreaId) :
    Scheduled (hardware.unregisterRefreshLocked p) := by
  rw [FakeVehicleHardware.unregisterRefreshLocked]
  cases hp : hardware.mRefreshInfoByPropIdAreaId.lookup p with
  | none => exact h
  | some refreshInfo =>
      obtain ⟨action, haction, hlisted⟩ := h.listed p refreshInfo hp
      obtain ⟨hcallback, htimer⟩ := h.timed _ action haction
      simp only [UnorderedMap.valueAt, haction, Option.getD_some, hcallback]
      split
      · next hempty =>
        refine h.withoutPair hp haction
          (fun interval => UnorderedMap.lookup_erase_eq ..) (fun q => ?_) (fun _ hnone => ?_)
          fun interval hin hne => Finset.mem_erase.mpr ⟨hne, hin⟩
        · rw [← Finset.mem_erase, hempty]
          exact iff_of_false (by rintro ⟨_, ⟨⟩, _⟩) (Finset.notMem_empty q)
        · cases hnone
      · refine h.withoutPair hp haction (fun interval => UnorderedMap.lookup_insert_eq ..)
          (fun q => ?_) (fun action' hleft => ?_) fun interval hin _ => hin
        · rw [← Finset.mem_erase]
          constructor
          · rintro ⟨_, ⟨⟩, hmem⟩
            exact hmem
          · exact fun hmem => ⟨_, rfl, hmem⟩
        · cases hleft
          exact ⟨rfl, htimer⟩

/-- A pair without an interval gets one: the action of the interval refreshes it besides the
pairs that it refreshed before. -/
theorem Scheduled.withPair (h : Scheduled hardware)
    (hfree : hardware.mRefreshInfoByPropIdAreaId.lookup p = none) (refreshInfo : RefreshInfo)
    {action : ActionForInterval} {callbacks : Finset Int}
    (hcallbacks : hardware.timerCallbacks ⊆ callbacks)
    (htimed : action.recurrentAction = some refreshInfo.intervalInNanos ∧
      refreshInfo.intervalInNanos ∈ callbacks)
    (hpairs : ∀ q, q ∈ action.propIdAreaIdsToRefresh ↔ q = p ∨ ∃ old,
      hardware.mActionByIntervalInNanos.lookup refreshInfo.intervalInNanos = some old ∧
        q ∈ old.propIdAreaIdsToRefresh) :
    Scheduled { hardware with
      mRefreshInfoByPropIdAreaId := hardware.mRefreshInfoByPropIdAreaId.insert p refreshInfo
      mActionByIntervalInNanos :=
        hardware.mActionByIntervalInNanos.insert refreshInfo.intervalInNanos action
      timerCallbacks := callbacks } := by
  have hkept {q : PropIdAreaId} {interval : Int} {old : ActionForInterval}
      (hold : hardware.mActionByIntervalInNanos.lookup interval = some old)
      (hq : q ∈ old.propIdAreaIdsToRefresh) :
      ∃ info, (hardware.mRefreshInfoByPropIdAreaId.insert p refreshInfo).lookup q = some info ∧
        info.intervalInNanos = interval := by
    have hinfo := h.owned interval old hold q hq
    rw [UnorderedMap.lookup_insert_eq, if_neg]
    · exact hinfo
    · rintro rfl
      obtain ⟨info, hlookup, _⟩ := hinfo
      cases hfree.symm.trans hlookup
  refine ⟨fun q info hq => ?_, fun interval action' haction' q hq => ?_,
    fun interval action' haction' => ?_⟩
  · simp only [UnorderedMap.lookup_insert_eq] at hq ⊢
    split at hq
    · next heq =>
      cases hq
      rw [if_pos rfl]
      exact ⟨action, rfl, (hpairs q).mpr (Or.inl heq)⟩
    · obtain ⟨old, hold, hmem⟩ := h.listed q info hq
      split
      · next heq =>
        rw [heq] at hold
        exact ⟨action, rfl, (hpairs q).mpr (Or.inr ⟨old, hold, hmem⟩)⟩
      · exact ⟨old, hold, hmem⟩
  · simp only [UnorderedMap.lookup_insert_eq] at haction'
    split at haction'
    · next heq =>
      cases haction'
      rw [heq]
      rcases (hpairs q).mp hq with rfl | ⟨old, hold, hmem⟩
      · exact ⟨refreshInfo, Finmap.lookup_insert _, rfl⟩
      · exact hkept hold hmem
    · exact hkept haction' hq
  · simp only [UnorderedMap.lookup_insert_eq] at haction'
    split at haction'
    · next heq =>
      cases haction'
      rw [heq]
      exact htimed
    · obtain ⟨hcallback, htimer⟩ := h.timed interval action' haction'
      exact ⟨hcallback, hcallbacks htimer⟩

/-- A pair that has no interval is scheduled when it gets one. -/
theorem Scheduled.addToInterval (h : Scheduled hardware)
    (hfree : hardware.mRefreshInfoByPropIdAreaId.lookup p = none) (refreshInfo : RefreshInfo) :
    Scheduled (hardware.addToInterval p refreshInfo) := by
  rw [FakeVehicleHardware.addToInterval]
  simp only
  split
  · next action haction =>
    refine h.withPair hfree refreshInfo (Finset.Subset.refl _) (h.timed _ action haction)
      fun q => ?_
    simp only [Finset.mem_insert, haction, Option.some.injEq, exists_eq_left']
  · next hnone =>
    refine h.withPair hfree refreshInfo (Finset.subset_insert _ _)
      ⟨rfl, Finset.mem_insert_self _ _⟩ fun q => ?_
    simp only [Finset.mem_singleton, hnone, reduceCtorEq, false_and, exists_false, or_false]

/-- The pair is one of a subscription. -/
def Covers (options : SubscribeOptions) (areaIds : List Int) (p : PropIdAreaId) : Prop :=
  p.propId = options.propId ∧ p.areaId ∈ areaIds

/-- Subscribing to areas of a static property does nothing. -/
theorem subscribeAreas_static {options : SubscribeOptions} {config : VehiclePropConfig}
    (hmode : config.changeMode = .static) (areaIds : List Int) (hardware : FakeVehicleHardware) :
    subscribeAreas options config areaIds hardware = some (.ok, hardware) := by
  induction areaIds with
  | nil => rfl
  | cons areaId areaIds ih =>
      rw [subscribeAreas, subscribePropIdAreaIdLocked, hmode]
      exact ih

/-- Subscribing to areas of an on-change property adds their pairs to the set. -/
theorem subscribeAreas_onChange {options : SubscribeOptions} {config : VehiclePropConfig}
    (hmode : config.changeMode = .onChange) (areaIds : List Int) (hardware : FakeVehicleHardware) :
    ∃ pairs, subscribeAreas options config areaIds hardware =
        some (.ok, { hardware with mSubOnChangePropIdAreaIds := pairs }) ∧
      ∀ p, p ∈ pairs ↔ p ∈ hardware.mSubOnChangePropIdAreaIds ∨ Covers options areaIds p := by
  induction areaIds generalizing hardware with
  | nil => exact ⟨_, rfl, fun p => by simp [Covers]⟩
  | cons areaId areaIds ih =>
      let added := insert ⟨options.propId, areaId⟩ hardware.mSubOnChangePropIdAreaIds
      obtain ⟨pairs, heq, hpairs⟩ := ih { hardware with mSubOnChangePropIdAreaIds := added }
      refine ⟨pairs, ?_, fun p => ?_⟩
      · rw [subscribeAreas, subscribePropIdAreaIdLocked, hmode]
        exact heq
      · rw [hpairs, Finset.mem_insert, Covers, Covers, List.mem_cons]
        rcases p with ⟨propId, area⟩
        simp only [PropIdAreaId.mk.injEq]
        tauto

/-- Subscribing to areas of a continuous property gives their pairs the interval of the rate. -/
theorem subscribeAreas_continuous {options : SubscribeOptions} {config : VehiclePropConfig}
    (hmode : config.changeMode = .continuous) {interval : Int}
    (hinterval : intervalInNanos options.sampleRate = some interval) (hne : interval ≠ 0)
    (areaIds : List Int) (hs : Scheduled hardware) :
    ∃ hardware', subscribeAreas options config areaIds hardware = some (.ok, hardware') ∧
      Scheduled hardware' ∧
      hardware'.mSubOnChangePropIdAreaIds = hardware.mSubOnChangePropIdAreaIds ∧
      (∀ p, Covers options areaIds p → ∃ refreshInfo,
        hardware'.mRefreshInfoByPropIdAreaId.lookup p = some refreshInfo ∧
          refreshInfo.intervalInNanos = interval) ∧
      ∀ p, ¬Covers options areaIds p → hardware'.mRefreshInfoByPropIdAreaId.lookup p =
        hardware.mRefreshInfoByPropIdAreaId.lookup p := by
  have hrate : ¬options.sampleRate.eq .zero = true := by
    intro hzero
    rw [(Binary32.eq_iff.mp hzero).1] at hinterval
    cases hinterval
  induction areaIds generalizing hardware with
  | nil => exact ⟨hardware, rfl, hs, rfl, fun p hp => absurd hp.2 List.not_mem_nil, fun p _ => rfl⟩
  | cons areaId areaIds ih =>
      let p₀ : PropIdAreaId := ⟨options.propId, areaId⟩
      let refreshInfo : RefreshInfo :=
        ⟨if isVariableUpdateRateSupported config areaId && options.enableVariableUpdateRate then
          .onValueChange else .always, interval⟩
      let added := (hardware.unregisterRefreshLocked p₀).addToInterval p₀ refreshInfo
      have hlookup (q : PropIdAreaId) : added.mRefreshInfoByPropIdAreaId.lookup q =
          if q = p₀ then some refreshInfo else hardware.mRefreshInfoByPropIdAreaId.lookup q := by
        rw [lookup_addToInterval, lookup_unregisterRefreshLocked]
        split <;> rfl
      obtain ⟨hardware', heq, hs', honChange, hcovered, hother⟩ :=
        ih ((hs.unregisterRefreshLocked p₀).addToInterval
          ((lookup_unregisterRefreshLocked p₀ p₀ hardware).trans (if_pos rfl)) refreshInfo)
      refine ⟨hardware', ?_, hs', ?_, fun p hp => ?_, fun p hp => ?_⟩
      · rw [subscribeAreas, subscribePropIdAreaIdLocked, hmode]
        simp only
        rw [if_neg hrate, registerRefreshLocked, hinterval]
        simp only
        rw [if_neg hne]
        exact heq
      · rw [honChange, onChange_addToInterval, onChange_unregisterRefreshLocked]
      · by_cases hrest : Covers options areaIds p
        · exact hcovered p hrest
        · have hp₀ : p = p₀ := by
            rcases p with ⟨propId, area⟩
            obtain ⟨rfl, harea⟩ := hp
            rcases List.mem_cons.mp harea with rfl | hmem
            · rfl
            · exact absurd ⟨rfl, hmem⟩ hrest
          refine ⟨refreshInfo, ?_, rfl⟩
          rw [hother p hrest]
          exact (hlookup p).trans (if_pos hp₀)
      · have hrest : ¬Covers options areaIds p := fun h => hp ⟨h.1, List.mem_cons_of_mem _ h.2⟩
        have hp₀ : p ≠ p₀ := by
          rintro rfl
          exact hp ⟨rfl, List.mem_cons_self ..⟩
        rw [hother p hrest]
        exact (hlookup p).trans (if_neg hp₀)

/-- What a subscription does: nothing, or it adds on-change pairs, or it gives continuous pairs
the interval of its rate. -/
theorem subscribe_cases {getPropConfig : Int → Option VehiclePropConfig}
    {options : SubscribeOptions} {status : StatusCode} (hs : Scheduled hardware)
    (h : hardware.subscribe getPropConfig options = some (status, hardware')) :
    (hardware' = hardware ∧
      (status = .ok → options.areaIds = [] ∨
        ∃ config, getPropConfig options.propId = some config ∧ config.changeMode = .static) ∧
      ∀ config interval, getPropConfig options.propId = some config →
        config.changeMode = .continuous →
          options.areaIds = [] ∨ intervalInNanos options.sampleRate ≠ some interval) ∨
    (∃ config pairs, getPropConfig options.propId = some config ∧ config.changeMode = .onChange ∧
      status = .ok ∧ hardware' = { hardware with mSubOnChangePropIdAreaIds := pairs } ∧
      ∀ p, p ∈ pairs ↔ p ∈ hardware.mSubOnChangePropIdAreaIds ∨ Covers options options.areaIds p) ∨
    ∃ config interval, getPropConfig options.propId = some config ∧
      config.changeMode = .continuous ∧ status = .ok ∧
      intervalInNanos options.sampleRate = some interval ∧ interval ≠ 0 ∧ Scheduled hardware' ∧
      hardware'.mSubOnChangePropIdAreaIds = hardware.mSubOnChangePropIdAreaIds ∧
      (∀ p, Covers options options.areaIds p → ∃ refreshInfo,
        hardware'.mRefreshInfoByPropIdAreaId.lookup p = some refreshInfo ∧
          refreshInfo.intervalInNanos = interval) ∧
      ∀ p, ¬Covers options options.areaIds p → hardware'.mRefreshInfoByPropIdAreaId.lookup p =
        hardware.mRefreshInfoByPropIdAreaId.lookup p := by
  rw [FakeVehicleHardware.subscribe] at h
  cases hconfig : getPropConfig options.propId with
  | none =>
      rw [hconfig] at h
      cases h
      exact Or.inl ⟨rfl, fun h => absurd h (by decide),
        fun config _ h => absurd h (Option.some_ne_none config).symm⟩
  | some config =>
      rw [hconfig] at h
      simp only at h
      cases hmode : config.changeMode with
      | static =>
          cases (subscribeAreas_static hmode _ _).symm.trans h
          refine Or.inl ⟨rfl, fun _ => Or.inr ⟨config, rfl, hmode⟩, fun config' _ hconfig' hc => ?_⟩
          cases hconfig'
          rw [hmode] at hc
          cases hc
      | onChange =>
          obtain ⟨pairs, heq, hpairs⟩ := subscribeAreas_onChange hmode options.areaIds hardware
          cases heq.symm.trans h
          exact Or.inr (Or.inl ⟨config, pairs, rfl, hmode, rfl, rfl, hpairs⟩)
      | continuous =>
          cases hareas : options.areaIds with
          | nil =>
              rw [hareas] at h
              cases h
              exact Or.inl ⟨rfl, fun _ => Or.inl rfl, fun _ _ _ _ => Or.inl rfl⟩
          | cons areaId areaIds =>
              rw [hareas] at h
              have hfirst := h
              rw [subscribeAreas, subscribePropIdAreaIdLocked, hmode] at hfirst
              simp only at hfirst
              by_cases hzero : options.sampleRate.eq .zero = true
              · rw [if_pos hzero] at hfirst
                cases hfirst
                refine Or.inl ⟨rfl, fun h => absurd h (by decide), fun _ i _ _ => Or.inr ?_⟩
                rw [(Binary32.eq_iff.mp hzero).1]
                exact (Option.some_ne_none i).symm
              rw [if_neg hzero, registerRefreshLocked] at hfirst
              cases hinterval : intervalInNanos options.sampleRate with
              | none =>
                  rw [hinterval] at hfirst
                  cases hfirst
              | some interval =>
                  rw [hinterval] at hfirst
                  by_cases hne : interval = 0
                  · simp only [if_pos hne] at hfirst
                    cases hfirst
                  obtain ⟨hardware'', heq, hspec⟩ :=
                    subscribeAreas_continuous hmode hinterval hne (areaId :: areaIds) hs
                  cases heq.symm.trans h
                  exact Or.inr (Or.inr ⟨config, interval, rfl, hmode, rfl, rfl, hne, hspec⟩)

end VhalCore.FakeHardware
