import VhalCore.Models.FakeHardware.Interpretation.RegistryInvariant

/-!
# The registry follows the subscriptions

After any calls, a pair is in the action of its own interval and in no other, every action has
pairs and one callback at the timer, and the interval and the event mode of a pair are those of
the last call that was about it.
-/

namespace VhalCore.FakeHardware

namespace RefreshRegistry

open FakeVehicleHardware

section Calls

variable (undefinedCast : Binary32 → Int)

variable (getPropConfig : Int → Option VehiclePropConfig)

/-- The interval of a rate: a second in nanoseconds divided by the rate in double precision,
without its fraction. Where the conversion is undefined it is some number. -/
def intervalOfRate (sampleRateHz : Binary32) : Int :=
  (sampleRateHz.quotientToInt64 1000000000).getD (undefinedCast sampleRateHz)

/-- A variable update rate is asked for, and the config of the area supports it. -/
def VariesRate (options : SubscribeOptions) (config : VehiclePropConfig) (areaId : Int) : Prop :=
  options.enableVariableUpdateRate = true ∧
    (config.areaConfigs.find? fun areaConfig => areaConfig.areaId = areaId).any
      (·.supportVariableUpdateRate) = true

instance (options : SubscribeOptions) (config : VehiclePropConfig) (areaId : Int) :
    Decidable (VariesRate options config areaId) := inferInstanceAs (Decidable (_ ∧ _))

/-- What a call says about a pair: nothing, or the entry that the pair has from now on. A
subscription that is refused, or of a property that is not continuous, says nothing. -/
def infoFrom (q : PropIdAreaId) : RegistryCall → Option (Option RefreshInfo)
  | .subscribe options =>
      match getPropConfig options.propId with
      | none => none
      | some config =>
          if (q.propId = options.propId ∧ q.areaId ∈ options.areaIds) ∧
              config.changeMode = .continuous ∧ options.sampleRate.eq .zero = false then
            some (some
              { eventMode := if VariesRate options config q.areaId then .onValueChange else .always
                intervalInNanos := intervalOfRate undefinedCast options.sampleRate })
          else none
  | .unsubscribe propId areaId => if q = ⟨propId, areaId⟩ then some none else none

/-- The entry of the last call that said something about a pair. -/
def latestInfo (calls : List RegistryCall) (q : PropIdAreaId) : Option RefreshInfo :=
  ((calls.filterMap (infoFrom undefinedCast getPropConfig q)).getLast?).getD none

/-- The code requests the interval of the rate, and the mode of a rate that varies where it
varies. -/
theorem requestedInfo_eq (options : SubscribeOptions) (config : VehiclePropConfig)
    (areaId : Int) : requestedInfo undefinedCast options config areaId =
      { eventMode := if VariesRate options config areaId then .onValueChange else .always
        intervalInNanos := intervalOfRate undefinedCast options.sampleRate } := by
  have hmode : refreshEventMode config areaId options.enableVariableUpdateRate =
      if VariesRate options config areaId then .onValueChange else .always := by
    rw [refreshEventMode, isVariableUpdateRateSupported]
    cases hfound : config.areaConfigs.find? fun areaConfig => areaConfig.areaId = areaId <;>
      simp [VariesRate, hfound, and_comm]
  rw [requestedInfo, hmode]
  rfl

/-- A call gives a pair the entry that it says. -/
theorem lookup_apply (q : PropIdAreaId) (call : RegistryCall) (registry : RefreshRegistry) :
    (call.apply undefinedCast getPropConfig registry).hardware.mRefreshInfoByPropIdAreaId.lookup q =
      (infoFrom undefinedCast getPropConfig q call).getD
        (registry.hardware.mRefreshInfoByPropIdAreaId.lookup q) := by
  cases call with
  | subscribe options =>
      rw [RegistryCall.apply, subscribe, infoFrom]
      cases getPropConfig options.propId with
      | none => rfl
      | some config =>
          simp only
          rw [lookup_subscribeAreas, requestedInfo_eq]
          split
          · rfl
          · rfl
  | unsubscribe propId areaId =>
      refine (congrArg (fun h => h.mRefreshInfoByPropIdAreaId.lookup q)
        (hardware_unregisterRefreshLocked _ registry)).trans ?_
      rw [lookup_unregisterRefreshLocked, infoFrom]
      split
      · rfl
      · rfl

/-- The table holds the latest information of each pair. -/
theorem lookup_run (calls : List RegistryCall) (q : PropIdAreaId) :
    (run undefinedCast getPropConfig calls).hardware.mRefreshInfoByPropIdAreaId.lookup q =
      latestInfo undefinedCast getPropConfig calls q :=
  foldl_lastWord
    (O := fun registry => registry.hardware.mRefreshInfoByPropIdAreaId.lookup q)
    (fun s call => lookup_apply undefinedCast getPropConfig q call s) {} calls

end Calls

/-- After any calls the entries of the pairs, the actions of the intervals and the callbacks at
the timer belong together, and every pair has the entry of its latest subscription. -/
theorem refreshRegistry_consistent (undefinedCast : Binary32 → Int)
    (getPropConfig : Int → Option VehiclePropConfig) (calls : List RegistryCall) :
    let registry := run undefinedCast getPropConfig calls
    (∀ p interval,
      (∃ refreshInfo, registry.hardware.mRefreshInfoByPropIdAreaId.lookup p = some refreshInfo ∧
        refreshInfo.intervalInNanos = interval) ↔
      (∃ action, registry.hardware.mActionByIntervalInNanos.lookup interval = some action ∧
        p ∈ action.propIdAreaIdsToRefresh) ∧
      ∀ other action, registry.hardware.mActionByIntervalInNanos.lookup other = some action →
        p ∈ action.propIdAreaIdsToRefresh → other = interval) ∧
    (∀ interval action,
      registry.hardware.mActionByIntervalInNanos.lookup interval = some action →
        action.propIdAreaIdsToRefresh ≠ ∅) ∧
    (∀ interval action,
      registry.hardware.mActionByIntervalInNanos.lookup interval = some action →
        ∃! callback, registry.timerCallbacks.lookup callback = some interval) ∧
    (∀ callback interval, registry.timerCallbacks.lookup callback = some interval →
      ∃ action, registry.hardware.mActionByIntervalInNanos.lookup interval = some action) ∧
    ∀ p, registry.hardware.mRefreshInfoByPropIdAreaId.lookup p =
      latestInfo undefinedCast getPropConfig calls p := by
  intro registry
  have h : Consistent registry := consistent_run calls
  refine ⟨fun p interval => ⟨?_, ?_⟩, ?_, ?_, ?_, ?_⟩
  · rintro ⟨refreshInfo, hp, rfl⟩
    refine ⟨h.scheduled.listed p refreshInfo hp, fun other action hother hin => ?_⟩
    obtain ⟨info, hinfo, hinterval⟩ := h.scheduled.owned other action hother p hin
    cases hp.symm.trans hinfo
    exact hinterval.symm
  · rintro ⟨⟨action, haction, hin⟩, -⟩
    exact h.scheduled.owned interval action haction p hin
  · intro interval action haction
    exact (h.nonempty interval action haction).ne_empty
  · intro interval action haction
    obtain ⟨callback, hheld⟩ := (h.acting interval).mpr ⟨action, haction⟩
    refine ⟨callback, (h.registered callback interval).mpr hheld, fun other hother => ?_⟩
    have hboth := (h.registered other interval).mp hother
    rw [hheld] at hboth
    exact (Option.some.inj hboth).symm
  · intro callback interval hcallback
    exact (h.acting interval).mp ⟨callback, (h.registered callback interval).mp hcallback⟩
  · exact lookup_run undefinedCast getPropConfig calls

/-- The speed, whose update rate may vary. -/
def variableSpeed : VehiclePropConfig where
  prop := 0x11600207
  changeMode := .continuous
  areaConfigs := [{ areaId := 0, supportVariableUpdateRate := true }]

/-- A subscription to the speed ten times a second. -/
def tenTimes : SubscribeOptions where
  propId := 0x11600207
  areaIds := [0]
  sampleRate := .ofInt 10

/-- A subscription to the speed twice a second, with a variable update rate. -/
def twiceVarying : SubscribeOptions where
  propId := 0x11600207
  areaIds := [0]
  sampleRate := .ofInt 2
  enableVariableUpdateRate := true

/-- The latest entry of the speed after both subscriptions is that of the second one. -/
theorem latestInfo_twiceVarying :
    latestInfo (fun _ => 0) (fun _ => some variableSpeed)
      [.subscribe tenTimes, .subscribe twiceVarying] ⟨0x11600207, 0⟩ =
        some ⟨.onValueChange, 500000000⟩ := by
  have hrate : (Binary32.ofInt 2).eq .zero = false := by decide +kernel
  have hinterval : (Binary32.ofInt 2).quotientToInt64 1000000000 = some 500000000 := by
    decide +kernel
  have hinfo : infoFrom (fun _ => 0) (fun _ => some variableSpeed) ⟨0x11600207, 0⟩
      (.subscribe twiceVarying) = some (some ⟨.onValueChange, 500000000⟩) := by
    rw [infoFrom]
    refine (if_pos ⟨⟨rfl, List.mem_singleton_self _⟩, rfl, hrate⟩).trans ?_
    rw [intervalOfRate, twiceVarying, hinterval]
    rfl
  rw [latestInfo, List.filterMap_cons, List.filterMap_cons_some hinfo]
  split <;> rfl

/-- Of the subscription at ten times a second nothing is left once the speed is subscribed again
at another rate. -/
theorem consistent_of_resubscription :
    let registry := run (fun _ => 0) (fun _ => some variableSpeed)
      [.subscribe tenTimes, .subscribe twiceVarying]
    registry.hardware.mRefreshInfoByPropIdAreaId.lookup ⟨0x11600207, 0⟩ =
        some ⟨.onValueChange, 500000000⟩ ∧
      (∃ action, registry.hardware.mActionByIntervalInNanos.lookup 500000000 = some action ∧
        ⟨0x11600207, 0⟩ ∈ action.propIdAreaIdsToRefresh) ∧
      (∀ action, registry.hardware.mActionByIntervalInNanos.lookup 100000000 = some action →
        ⟨0x11600207, 0⟩ ∉ action.propIdAreaIdsToRefresh) ∧
      ∃! callback, registry.timerCallbacks.lookup callback = some 500000000 := by
  have hconsistent := refreshRegistry_consistent (fun _ => 0) (fun _ => some variableSpeed)
    [.subscribe tenTimes, .subscribe twiceVarying]
  generalize run (fun _ => 0) (fun _ => some variableSpeed)
    [.subscribe tenTimes, .subscribe twiceVarying] = registry at hconsistent ⊢
  obtain ⟨hpairs, -, hone, -, hlatest⟩ := hconsistent
  have hentry := (hlatest ⟨0x11600207, 0⟩).trans latestInfo_twiceVarying
  obtain ⟨⟨action, haction, hin⟩, honly⟩ :=
    (hpairs ⟨0x11600207, 0⟩ 500000000).mp ⟨⟨.onValueChange, 500000000⟩, hentry, rfl⟩
  refine ⟨hentry, ⟨action, haction, hin⟩, fun old hold hmem => ?_, hone _ action haction⟩
  exact absurd (honly 100000000 old hold hmem) (by decide)

end RefreshRegistry

end VhalCore.FakeHardware
