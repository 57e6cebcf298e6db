import VhalCore.Models.PropertyStore.Interpretation.Writes

/-!
# The law of a write

When a write to the property store fails, what it stores and what it leaves alone when it
succeeds, and which callback it invokes.
-/

namespace VhalCore.PropertyStore.VehiclePropertyStore

/-- A write of the stored value would be announced: the record is new, or its value or its
status changes. -/
def Announced (eventMode : EventMode) (before : Option VehiclePropValue)
    (after : VehiclePropValue) : Prop :=
  eventMode = .always ∨ eventMode = .onValueChange ∧
    (before = none ∨ ∃ old, before = some old ∧
      (old.value.eq after.value = false ∨ old.status ≠ after.status))

/-- A write fails exactly if the value is not writable. -/
theorem writeValue_fails_iff (store : VehiclePropertyStore) (now : Int)
    (propValue : VehiclePropValue) (updateStatus : Bool) (eventMode : EventMode)
    (useCurrentTimestamp : Bool) :
    (∃ e, (store.writeValue now propValue updateStatus eventMode useCurrentTimestamp).1 =
      .error e) ↔ ¬store.Writable (stamp now useCurrentTimestamp propValue) := by
  constructor
  · rintro ⟨e, he⟩ h
    rw [writeValue_of_writable h] at he
    cases he
  · intro h
    obtain ⟨e, he⟩ := writeValue_of_not_writable h updateStatus eventMode
    exact ⟨e, by rw [he]⟩

/-- The area and the token under which a value is stored. -/
theorem getRecordIdLocked_eq (v : VehiclePropValue) (record : Record) :
    getRecordIdLocked v record = ⟨if isGlobalProp v.prop then 0 else v.areaId,
      record.tokenFunction.elim 0 fun tokenFunction => tokenFunction v⟩ := by
  rw [getRecordIdLocked, recordArea, Record.tokenOf]
  cases record.tokenFunction with
  | none => rfl
  | some tokenFunction => rfl

/-- A value that has areas lacks a config exactly if none is for its area. -/
theorem getAreaConfig_eq_none_iff {propId areaId : Int} {config : VehiclePropConfig}
    (h : isGlobalProp propId = false) :
    getAreaConfig propId areaId config = none ↔ ∀ c ∈ config.areaConfigs, c.areaId ≠ areaId := by
  rw [getAreaConfig, h]
  simp

/-- What stands against a write: the property has no record, the area has no config, or the
value under the record id is newer. -/
theorem not_writable_iff (store : VehiclePropertyStore) (v : VehiclePropValue) :
    ¬store.Writable v ↔ store.getRecordLocked v.prop = none ∨
      ∃ record, store.getRecordLocked v.prop = some record ∧
        ((isGlobalProp v.prop = false ∧
            ∀ areaConfig ∈ record.propConfig.areaConfigs, areaConfig.areaId ≠ v.areaId) ∨
          ∃ old, record.values.lookup ⟨if isGlobalProp v.prop then 0 else v.areaId,
              record.tokenFunction.elim 0 fun tokenFunction => tokenFunction v⟩ = some old ∧
            v.timestamp < old.timestamp) := by
  cases hr : store.getRecordLocked v.prop with
  | none =>
      refine iff_of_true (fun h => ?_) (Or.inl rfl)
      have hregistered := h.registered
      rw [IsRegistered, hr] at hregistered
      cases hregistered
  | some record =>
      have hregistered : store.IsRegistered v.prop := by
        rw [IsRegistered, hr]
        rfl
      have harea : store.LacksAreaConfig v ↔ isGlobalProp v.prop = false ∧
          ∀ areaConfig ∈ record.propConfig.areaConfigs, areaConfig.areaId ≠ v.areaId := by
        rw [LacksAreaConfig, hr]
        simp only [Option.some.injEq, exists_eq_left']
        exact and_congr_right fun hareas => getAreaConfig_eq_none_iff hareas
      have hcurrent : store.IsOutdated v ↔
          ∃ old, record.values.lookup ⟨if isGlobalProp v.prop then 0 else v.areaId,
              record.tokenFunction.elim 0 fun tokenFunction => tokenFunction v⟩ = some old ∧
            v.timestamp < old.timestamp := by
        rw [IsOutdated, storedFor_of_record hr, getRecordIdLocked_eq]
      constructor
      · intro h
        by_contra hnot
        exact h ⟨hregistered,
          fun hlacks => hnot (Or.inr ⟨record, rfl, Or.inl (harea.mp hlacks)⟩),
          fun hout => hnot (Or.inr ⟨record, rfl, Or.inr (hcurrent.mp hout)⟩)⟩
      · rintro (hnone | ⟨_, hsome, hlacks | hout⟩) hw
        · cases hnone
        · cases hsome
          exact hw.area (harea.mpr hlacks)
        · cases hsome
          exact hw.current (hcurrent.mpr hout)

/-- A value that was put is read under its record id. -/
theorem readValueOf_put {store : VehiclePropertyStore} {v : VehiclePropValue} {recId : RecordId}
    (h : store.recordIdOf v = some recId) (w : VehiclePropValue) :
    (store.put v w).readValueOf v.prop v.areaId recId.token = .ok w := by
  obtain ⟨record, hr, rfl⟩ := Option.map_eq_some_iff.mp h
  rw [put_of_record hr, readValueOf, getRecordLocked_withRecord, if_pos rfl]
  simp only [readValueLocked, getRecordIdLocked, Finmap.lookup_insert]

/-- A write fails exactly if its property is not registered, its area has no config or a newer
value is stored under its record id, and then it has no effect. Otherwise its value is read
back under its record id, with its own status or the previous one as the caller asks, no
other record changes, and one callback carries the stored value exactly if the event mode
asks for it. -/
theorem writeValue_law (store : VehiclePropertyStore) (now : Int) (propValue : VehiclePropValue)
    (updateStatus : Bool) (eventMode : EventMode) (useCurrentTimestamp : Bool) :
    let v := if useCurrentTimestamp then { propValue with timestamp := now } else propValue
    let (result, callbacks, after) :=
      store.writeValue now propValue updateStatus eventMode useCurrentTimestamp
    ((∃ e, result = .error e) ↔ store.getRecordLocked v.prop = none ∨
      ∃ record, store.getRecordLocked v.prop = some record ∧
        ((isGlobalProp v.prop = false ∧
            ∀ areaConfig ∈ record.propConfig.areaConfigs, areaConfig.areaId ≠ v.areaId) ∨
          ∃ old, record.values.lookup ⟨if isGlobalProp v.prop then 0 else v.areaId,
              record.tokenFunction.elim 0 fun tokenFunction => tokenFunction v⟩ = some old ∧
            v.timestamp < old.timestamp)) ∧
    ((∃ e, result = .error e) → after = store ∧ callbacks = []) ∧
    (result = .ok () → ∃ record recId stored, store.getRecordLocked v.prop = some record ∧
      recId = ⟨if isGlobalProp v.prop then 0 else v.areaId,
        record.tokenFunction.elim 0 fun tokenFunction => tokenFunction v⟩ ∧
      stored = { v with status := if updateStatus then v.status
        else ((store.stored v.prop recId).map (·.status)).getD .available } ∧
      after.readValueOf v.prop v.areaId recId.token = .ok stored ∧
      after.stored v.prop recId = some stored ∧
      (∀ propId id, (propId, id) ≠ (v.prop, recId) →
        after.stored propId id = store.stored propId id) ∧
      (∀ propId, (after.getRecordLocked propId).map (fun r => (r.propConfig, r.tokenFunction)) =
        (store.getRecordLocked propId).map fun r => (r.propConfig, r.tokenFunction)) ∧
      (store.mOnValueChangeCallback = true ∨ store.mOnValuesChangeCallback = true →
        ((∃ c, callbacks = [c] ∧ c.values = [stored]) ↔
          Announced eventMode (store.stored v.prop recId) stored) ∧
        (callbacks = [] ↔ ¬Announced eventMode (store.stored v.prop recId) stored))) := by
  have hstamp : (if useCurrentTimestamp then { propValue with timestamp := now } else propValue) =
      stamp now useCurrentTimestamp propValue := rfl
  dsimp only
  rw [writeValue_fails_iff]
  simp only [hstamp]
  refine ⟨not_writable_iff _ _, fun h => ?_, fun h => ?_⟩
  · obtain ⟨e, he⟩ := writeValue_of_not_writable h updateStatus eventMode
    rw [he]
    exact ⟨rfl, rfl⟩
  · have hw : store.Writable (stamp now useCurrentTimestamp propValue) := by
      by_contra hnot
      obtain ⟨e, he⟩ := writeValue_of_not_writable hnot updateStatus eventMode
      rw [he] at h
      cases h
    rw [writeValue_of_writable hw]
    generalize stamp now useCurrentTimestamp propValue = v at hw
    obtain ⟨record, hr⟩ := Option.isSome_iff_exists.mp hw.registered
    have hid := recordIdOf_of_record hr
    have hrecord := getRecordIdLocked_eq v record
    generalize getRecordIdLocked v record = recId at hid hrecord
    have hbefore : store.storedFor v = store.stored v.prop recId := by
      rw [storedFor, hid, Option.bind_some]
    refine ⟨record, recId, store.written updateStatus v, hr, hrecord, ?_, readValueOf_put hid _,
      ?_, fun propId id hne => ?_, registration_put store v _, fun hcallback => ?_⟩
    · unfold written writtenStatus
      rw [hbefore]
      rcases store.stored v.prop recId with _ | old <;> rfl
    · rw [stored_put hw.registered, if_pos ⟨rfl, hid⟩]
    · rw [stored_put hw.registered, if_neg]
      rintro ⟨rfl, hsame⟩
      cases hid.symm.trans hsame
      exact hne rfl
    · obtain ⟨c, hc, hvalues⟩ := invokeCallbacks_singleton hcallback (store.written updateStatus v)
      have hann : Announced eventMode (store.stored v.prop recId) (store.written updateStatus v) ↔
          eventMode = .always ∨ eventMode = .onValueChange ∧ store.changes updateStatus v := by
        rw [Announced, changes, isUpdated_iff, hbefore]
      rw [callbacksOf, hann]
      split
      · rename_i hdue
        exact ⟨⟨fun _ => hdue, fun _ => ⟨c, hc, hvalues⟩⟩,
          ⟨fun hnil => absurd (hc.symm.trans hnil) (by simp), fun hnot => absurd hdue hnot⟩⟩
      · rename_i hdue
        refine ⟨⟨?_, fun h => absurd h hdue⟩, ⟨fun _ => hdue, fun _ => rfl⟩⟩
        rintro ⟨_, hnil, _⟩
        cases hnil

end VhalCore.PropertyStore.VehiclePropertyStore
