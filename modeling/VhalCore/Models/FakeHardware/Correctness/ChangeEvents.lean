import VhalCore.Models.FakeHardware.Interpretation.RegistryInvariant
import VhalCore.Models.Grpc.Native.EventStreams

/-!
# The changed values that are passed on

The callback of the hardware is called with the changed values that are subscribed, in their
order. It is called for every batch, also if none of the values is subscribed; the server then
pushes a message without values.
-/

namespace VhalCore.FakeHardware

open FakeVehicleHardware

namespace RefreshRegistry

section Calls

variable (undefinedCast : Binary32 → Int)

/-- Only the pairs of an on-change property get into the set. -/
theorem mem_onChange_subscribeAreas (options : SubscribeOptions) (config : VehiclePropConfig)
    (areaIds : List Int) (registry : RefreshRegistry) (q : PropIdAreaId) :
    q ∈ (registry.subscribeAreas undefinedCast options config
      areaIds).2.hardware.mSubOnChangePropIdAreaIds ↔
      q ∈ registry.hardware.mSubOnChangePropIdAreaIds ∨
        (q.propId = options.propId ∧ q.areaId ∈ areaIds) ∧ config.changeMode = .onChange := by
  induction areaIds generalizing registry with
  | nil => exact ⟨Or.inl, fun h => h.resolve_right fun h => List.not_mem_nil h.1.2⟩
  | cons areaId areaIds ih =>
      rw [subscribeAreas, subscribePropIdAreaIdLocked]
      cases hmode : config.changeMode with
      | static => simp only [ih, hmode, reduceCtorEq, and_false]
      | onChange =>
          simp only [ih, hmode, and_true, Finset.mem_insert, List.mem_cons]
          rcases q with ⟨propId, area⟩
          simp only [PropIdAreaId.mk.injEq]
          tauto
      | continuous =>
          simp only [reduceCtorEq, and_false, or_false]
          by_cases hzero : options.sampleRate.eq .zero = true
          · simp only [if_pos hzero]
          · simp only [if_neg hzero]
            rw [ih, hmode, hardware_registerRefreshLocked, onChange_addToInterval,
              onChange_unregisterRefreshLocked]
            exact ⟨fun h => h.resolve_right (by rintro ⟨_, ⟨⟩⟩), Or.inl⟩

variable (getPropConfig : Int → Option VehiclePropConfig)

/-- What a call says about a pair: nothing, that it is subscribed, or that it is not. A
subscription that is refused, or of a static property, says nothing. -/
def subscriptionFrom (q : PropIdAreaId) : RegistryCall → Option Bool
  | .subscribe options =>
      match getPropConfig options.propId with
      | none => none
      | some config =>
          if (q.propId = options.propId ∧ q.areaId ∈ options.areaIds) ∧
              (config.changeMode = .onChange ∨
                config.changeMode = .continuous ∧ options.sampleRate.eq .zero = false) then
            some true
          else none
  | .unsubscribe propId areaId => if q = ⟨propId, areaId⟩ then some false else none

/-- The pair is subscribed after some calls. -/
def currentlySubscribed (calls : List RegistryCall) (q : PropIdAreaId) : Bool :=
  ((calls.filterMap (subscriptionFrom getPropConfig q)).getLast?).getD false

/-- A call changes the subscription of the pairs it is about, and of no others. -/
theorem isSubscribed_apply (q : PropIdAreaId) (call : RegistryCall) (registry : RefreshRegistry) :
    (call.apply undefinedCast getPropConfig registry).hardware.isSubscribed q =
      (subscriptionFrom getPropConfig q call).getD (registry.hardware.isSubscribed q) := by
  cases call with
  | subscribe options =>
      rw [RegistryCall.apply, subscribe, subscriptionFrom]
      cases getPropConfig options.propId with
      | none => rfl
      | some config =>
          simp only [isSubscribed, lookup_subscribeAreas, mem_onChange_subscribeAreas]
          by_cases hcovered : q.propId = options.propId ∧ q.areaId ∈ options.areaIds
          · by_cases honChange : config.changeMode = .onChange
            · simp [hcovered, honChange]
            · by_cases hcontinuous : config.changeMode = .continuous ∧
                options.sampleRate.eq .zero = false
              · simp [hcovered, hcontinuous]
              · simp only [hcovered, honChange, hcontinuous, and_false, or_false, if_false,
                  Option.getD_none]
          · simp only [hcovered, false_and, or_false, if_false, Option.getD_none]
  | unsubscribe propId areaId =>
      have hlookup := congrArg (fun h => h.mRefreshInfoByPropIdAreaId.lookup q)
        (hardware_unregisterRefreshLocked ⟨propId, areaId⟩ registry)
      have honChange := congrArg mSubOnChangePropIdAreaIds
        (hardware_unregisterRefreshLocked ⟨propId, areaId⟩ registry)
      rw [onChange_unregisterRefreshLocked] at honChange
      simp only [lookup_unregisterRefreshLocked] at hlookup
      simp only [RegistryCall.apply, unsubscribe, isSubscribed, subscriptionFrom, hlookup,
        honChange, Finset.mem_erase]
      by_cases hq : q = ⟨propId, areaId⟩
      · simp [hq]
      · simp [hq]

/-- The hardware has an entry for exactly the pairs that are subscribed. -/
theorem isSubscribed_run (calls : List RegistryCall) (q : PropIdAreaId) :
    (run undefinedCast getPropConfig calls).hardware.isSubscribed q =
      currentlySubscribed getPropConfig calls q :=
  foldl_lastWord (O := fun registry => registry.hardware.isSubscribed q)
    (fun s call => isSubscribed_apply undefinedCast getPropConfig q call s) {} calls

end Calls

/-- The server pushes a message without values only if it is called without values. -/
theorem pushed_eq_nil {values : List ProtoMsgConverter.Aidl.VehiclePropValue}
    (h : ProxyServer.onVehiclePropChange values = .push .value []) : values = [] := by
  rw [ProxyServer.onVehiclePropChange] at h
  injection h with _ h
  rw [addAll_eq_append, List.nil_append] at h
  exact List.map_eq_nil_iff.mp h

/-- The callback is called as it should be, and no message without values is pushed, exactly if
one of the changed values is subscribed. -/
theorem onPropertyChange_filtered_iff {Effect : Type} (callback : List VehiclePropValue → Effect)
    (asAidl : VehiclePropValue → ProtoMsgConverter.Aidl.VehiclePropValue)
    (undefinedCast : Binary32 → Int) (getPropConfig : Int → Option VehiclePropConfig)
    (calls : List RegistryCall) (values : List VehiclePropValue) :
    let hardware := (run undefinedCast getPropConfig calls).hardware
    let subscribed := values.filter fun value =>
      currentlySubscribed getPropConfig calls value.propIdAreaId
    (hardware.callOnPropertyChange (some callback) values =
        (if subscribed = [] then none else some (callback subscribed)) ∧
      hardware.callOnPropertyChange
          (some fun values => ProxyServer.onVehiclePropChange (values.map asAidl)) values ≠
        some (.push .value [])) ↔
    ∃ value ∈ values, currentlySubscribed getPropConfig calls value.propIdAreaId = true := by
  intro hardware subscribed
  have hpassed : hardware.onValuesChangeCallback values = subscribed :=
    List.filter_congr fun value _ => isSubscribed_run undefinedCast getPropConfig calls _
  have hsome : (∃ value ∈ values,
      currentlySubscribed getPropConfig calls value.propIdAreaId = true) ↔ subscribed ≠ [] := by
    rw [ne_eq, List.filter_eq_nil_iff]
    push Not
    exact Iff.rfl
  rw [hsome]
  simp only [callOnPropertyChange, hpassed]
  constructor
  · rintro ⟨hcalled, -⟩ hnone
    rw [if_pos hnone] at hcalled
    cases hcalled
  · intro hne
    refine ⟨(if_neg hne).symm, fun hpush => hne ?_⟩
    have hmessage := pushed_eq_nil (Option.some.inj hpush)
    exact List.map_eq_nil_iff.mp hmessage

/-- Nothing is subscribed and one value has changed: the callback is called without values, and
the server pushes a message without values. -/
theorem onPropertyChange_called_in_vain :
    let hardware := (run (fun _ => 0) (fun _ => none) []).hardware
    (currentlySubscribed (fun _ => none) [] ⟨0x11600207, 0⟩ = false ∧
      hardware.callOnPropertyChange (some id) [{ prop := 0x11600207 }] = some []) ∧
    hardware.callOnPropertyChange
        (some fun values => ProxyServer.onVehiclePropChange (values.map fun _ => {}))
        [{ prop := 0x11600207 }] =
      some (.push .value []) :=
  ⟨⟨rfl, rfl⟩, rfl⟩

end RefreshRegistry

end VhalCore.FakeHardware
