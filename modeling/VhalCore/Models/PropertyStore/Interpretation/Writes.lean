import VhalCore.Models.PropertyStore.Native.Store

/-!
# What a write does to the records

A store is read through `stored`, the value under a property and a record id. A value is
`Writable` if its property is registered, its area is configured and no newer value is
stored under its record id. A write of a writable value changes one record to `written`,
and any other write fails and changes nothing.
-/

namespace VhalCore.PropertyStore

namespace VehiclePropertyStore

/-- The value under a property and a record id. -/
def stored (store : VehiclePropertyStore) (propId : Int) (recId : RecordId) :
    Option VehiclePropValue :=
  (store.getRecordLocked propId).bind fun record => record.values.lookup recId

/-- The config and the token function of a property. -/
def registration (store : VehiclePropertyStore) (propId : Int) :
    Option (VehiclePropConfig × Option TokenFunction) :=
  (store.getRecordLocked propId).map fun r => (r.propConfig, r.tokenFunction)

/-- The record id of a value, if its property is registered. -/
def recordIdOf (store : VehiclePropertyStore) (v : VehiclePropValue) : Option RecordId :=
  (store.getRecordLocked v.prop).map (getRecordIdLocked v)

/-- The value stored under the record id of a value. -/
def storedFor (store : VehiclePropertyStore) (v : VehiclePropValue) : Option VehiclePropValue :=
  (store.recordIdOf v).bind (store.stored v.prop)

/-- The property is registered. -/
def IsRegistered (store : VehiclePropertyStore) (propId : Int) : Prop :=
  (store.getRecordLocked propId).isSome

/-- The value is of a property that has areas, and of an area without a config. -/
def LacksAreaConfig (store : VehiclePropertyStore) (v : VehiclePropValue) : Prop :=
  isGlobalProp v.prop = false ∧
    ∃ record, store.getRecordLocked v.prop = some record ∧
      getAreaConfig v.prop v.areaId record.propConfig = none

/-- A newer value is stored under the record id of the value. -/
def IsOutdated (store : VehiclePropertyStore) (v : VehiclePropValue) : Prop :=
  ∃ old, store.storedFor v = some old ∧ v.timestamp < old.timestamp

/-- Nothing stands against a write of the value. -/
structure Writable (store : VehiclePropertyStore) (v : VehiclePropValue) : Prop where
  registered : store.IsRegistered v.prop
  area : ¬store.LacksAreaConfig v
  current : ¬store.IsOutdated v

/-- The value that a write stores. -/
def written (store : VehiclePropertyStore) (updateStatus : Bool) (v : VehiclePropValue) :
    VehiclePropValue :=
  { v with status := writtenStatus updateStatus v (store.storedFor v) }

/-- The store with a value under its record id. -/
def put (store : VehiclePropertyStore) (v stored : VehiclePropValue) : VehiclePropertyStore :=
  match store.getRecordLocked v.prop with
  | none => store
  | some record => store.withRecord v.prop
      { record with values := record.values.insert (getRecordIdLocked v record) stored }

/-- The write of the value changes its record. -/
def changes (store : VehiclePropertyStore) (updateStatus : Bool) (v : VehiclePropValue) : Bool :=
  isUpdated (store.written updateStatus v) (store.storedFor v)

/-- The callbacks of a write that succeeds. -/
def callbacksOf (store : VehiclePropertyStore) (updateStatus : Bool) (eventMode : EventMode)
    (v : VehiclePropValue) : List ChangeCallback :=
  if eventMode = .always ∨ eventMode = .onValueChange ∧ store.changes updateStatus v then
    invokeCallbacks store.mOnValueChangeCallback store.mOnValuesChangeCallback
      [store.written updateStatus v]
  else []

/-- The rest of a write, when its value is writable. -/
def notificationOf (store : VehiclePropertyStore) (updateStatus : Bool) (eventMode : EventMode)
    (v : VehiclePropValue) : Option Notification :=
  if eventMode = .never then none
  else some ⟨store.written updateStatus v, store.changes updateStatus v,
    store.mOnValueChangeCallback, store.mOnValuesChangeCallback⟩

section Views

variable {store : VehiclePropertyStore} {propId p : Int} {record : Record} {v : VehiclePropValue}

theorem getRecordLocked_withRecord (store : VehiclePropertyStore) (propId p : Int)
    (record : Record) :
    (store.withRecord propId record).getRecordLocked p =
      if p = propId then some record else store.getRecordLocked p :=
  UnorderedMap.lookup_insert_eq ..

theorem stored_of_record (h : store.getRecordLocked propId = some record) (recId : RecordId) :
    store.stored propId recId = record.values.lookup recId := by
  rw [stored, h, Option.bind_some]

theorem recordIdOf_of_record (h : store.getRecordLocked v.prop = some record) :
    store.recordIdOf v = some (getRecordIdLocked v record) := by
  rw [recordIdOf, h, Option.map_some]

theorem storedFor_of_record (h : store.getRecordLocked v.prop = some record) :
    store.storedFor v = record.values.lookup (getRecordIdLocked v record) := by
  rw [storedFor, recordIdOf_of_record h, Option.bind_some, stored_of_record h]

/-- A replaced record holds the values of its property. -/
theorem stored_withRecord (store : VehiclePropertyStore) (propId p : Int) (record : Record)
    (recId : RecordId) :
    (store.withRecord propId record).stored p recId =
      if p = propId then record.values.lookup recId else store.stored p recId := by
  rw [stored, getRecordLocked_withRecord]
  split <;> rfl

theorem put_of_record (h : store.getRecordLocked v.prop = some record) (w : VehiclePropValue) :
    store.put v w = store.withRecord v.prop
      { record with values := record.values.insert (getRecordIdLocked v record) w } := by
  simp only [put, h]

/-- A put leaves the configs and the token functions as they are. -/
theorem registration_put (store : VehiclePropertyStore) (v w : VehiclePropValue) (propId : Int) :
    (store.put v w).registration propId = store.registration propId := by
  rcases hv : store.getRecordLocked v.prop with _ | record
  · simp only [put, hv]
  · rw [registration, registration, put_of_record hv, getRecordLocked_withRecord]
    by_cases hp : propId = v.prop
    · rw [if_pos hp, hp, hv]
      rfl
    · rw [if_neg hp]

/-- The record id of a value depends on the registration of its property only. -/
theorem recordIdOf_congr {a b : VehiclePropertyStore} {x : VehiclePropValue}
    (h : b.registration x.prop = a.registration x.prop) : b.recordIdOf x = a.recordIdOf x := by
  have hid (store : VehiclePropertyStore) : store.recordIdOf x =
      (store.registration x.prop).map fun r => getRecordIdLocked x ⟨r.1, r.2, ∅⟩ := by
    rw [recordIdOf, registration, Option.map_map]
    rfl
  rw [hid, hid, h]

/-- Whether an area has a config depends on the registration of the property only. -/
theorem lacksAreaConfig_congr {a b : VehiclePropertyStore} {x y : VehiclePropValue}
    (h : b.registration x.prop = a.registration x.prop) (hprop : y.prop = x.prop)
    (harea : y.areaId = x.areaId) : b.LacksAreaConfig y ↔ a.LacksAreaConfig x := by
  have hconfig (store : VehiclePropertyStore) (z : VehiclePropValue) :
      store.LacksAreaConfig z ↔ isGlobalProp z.prop = false ∧
        ∃ r, store.registration z.prop = some r ∧ getAreaConfig z.prop z.areaId r.1 = none := by
    simp only [LacksAreaConfig, VehiclePropertyStore.registration, Option.map_eq_some_iff]
    grind
  rw [hconfig, hconfig, hprop, harea, h]

/-- A property is registered exactly if it has a registration. -/
theorem isRegistered_congr {a b : VehiclePropertyStore} {propId : Int}
    (h : b.registration propId = a.registration propId) :
    b.IsRegistered propId ↔ a.IsRegistered propId := by
  have hsome (store : VehiclePropertyStore) :
      store.IsRegistered propId ↔ (store.registration propId).isSome = true := by
    rw [IsRegistered, VehiclePropertyStore.registration, Option.isSome_map]
  rw [hsome, hsome, h]

/-- The record ids of all values stay the same. -/
theorem recordIdOf_put (store : VehiclePropertyStore) (v w x : VehiclePropValue) :
    (store.put v w).recordIdOf x = store.recordIdOf x :=
  recordIdOf_congr (registration_put store v w x.prop)

/-- One record changes, the one of the record id of the value. -/
theorem stored_put (hv : store.IsRegistered v.prop) (w : VehiclePropValue) (propId : Int)
    (recId : RecordId) :
    (store.put v w).stored propId recId =
      if propId = v.prop ∧ store.recordIdOf v = some recId then some w
      else store.stored propId recId := by
  obtain ⟨record, hr⟩ := Option.isSome_iff_exists.mp hv
  rw [put_of_record hr, stored_withRecord, UnorderedMap.lookup_insert_eq, recordIdOf_of_record hr]
  by_cases hp : propId = v.prop
  · subst hp
    simp only [ite_true, true_and, Option.some.injEq, stored_of_record hr, eq_comm]
  · simp only [hp, ite_false, false_and]

end Views

/-- A write is an update exactly if there was no value, or another payload or status. -/
theorem isUpdated_iff (written : VehiclePropValue) (previous : Option VehiclePropValue) :
    isUpdated written previous = true ↔ previous = none ∨ ∃ old, previous = some old ∧
      (old.value.eq written.value = false ∨ old.status ≠ written.status) := by
  cases previous with
  | none => simp [isUpdated]
  | some old => simp [isUpdated]

/-- One value gives one invocation of the callback that is set. -/
theorem invokeCallbacks_singleton {one several : Bool} (h : one = true ∨ several = true)
    (v : VehiclePropValue) : ∃ c, invokeCallbacks one several [v] = [c] ∧ c.values = [v] := by
  cases several with
  | true => exact ⟨.onValuesChange [v], rfl, rfl⟩
  | false =>
      obtain rfl : one = true := by simpa using h
      exact ⟨.onValueChange v, rfl, rfl⟩

section Calls

variable {store : VehiclePropertyStore} {v : VehiclePropValue} {record : Record}

/-- The test of the area in a write. -/
theorem lacksAreaConfig_iff (h : store.getRecordLocked v.prop = some record) :
    store.LacksAreaConfig v ↔ (!isGlobalProp v.prop &&
      (getAreaConfig v.prop v.areaId record.propConfig).isNone) = true := by
  simp only [LacksAreaConfig, h, Option.some.injEq, Bool.and_eq_true, Bool.not_eq_true',
    Option.isNone_iff_eq_none, exists_eq_left']

/-- The test of the timestamp in a write. -/
theorem isOutdated_iff (h : store.getRecordLocked v.prop = some record) :
    store.IsOutdated v ↔ ((record.values.lookup (getRecordIdLocked v record)).any
      fun old => decide (v.timestamp < old.timestamp)) = true := by
  simp only [IsOutdated, storedFor_of_record h, Option.any_eq_true, decide_eq_true_eq]

/-- The tests of a write. -/
def isWritable (store : VehiclePropertyStore) (v : VehiclePropValue) : Bool :=
  match store.getRecordLocked v.prop with
  | none => false
  | some record =>
      !(!isGlobalProp v.prop && (getAreaConfig v.prop v.areaId record.propConfig).isNone) &&
        !((record.values.lookup (getRecordIdLocked v record)).any
          fun old => decide (v.timestamp < old.timestamp))

/-- The decision is that of the predicate. -/
theorem isWritable_iff (store : VehiclePropertyStore) (v : VehiclePropValue) :
    store.isWritable v = true ↔ store.Writable v := by
  unfold isWritable
  rcases hr : store.getRecordLocked v.prop with _ | record
  · refine iff_of_false (by simp) fun h => ?_
    have := h.registered
    rw [IsRegistered, hr] at this
    cases this
  · rw [Bool.and_eq_true, Bool.not_eq_true', Bool.not_eq_true', ← Bool.not_eq_true,
      ← Bool.not_eq_true, ← lacksAreaConfig_iff hr, ← isOutdated_iff hr]
    exact ⟨fun h => ⟨by rw [IsRegistered, hr]; rfl, h.1, h.2⟩, fun h => ⟨h.area, h.current⟩⟩

instance (store : VehiclePropertyStore) (v : VehiclePropValue) : Decidable (store.Writable v) :=
  decidable_of_iff _ (isWritable_iff store v)

/-- A write of a writable value stores it and leaves its notification. -/
theorem writeValueLocked_of_writable {now : Int} {propValue : VehiclePropValue}
    {useCurrentTimestamp : Bool} (h : store.Writable (stamp now useCurrentTimestamp propValue))
    (updateStatus : Bool) (eventMode : EventMode) :
    store.writeValueLocked now propValue updateStatus eventMode useCurrentTimestamp =
      .ok (store.notificationOf updateStatus eventMode (stamp now useCurrentTimestamp propValue),
        store.put (stamp now useCurrentTimestamp propValue)
          (store.written updateStatus (stamp now useCurrentTimestamp propValue))) := by
  generalize hv : stamp now useCurrentTimestamp propValue = v at h
  obtain ⟨record, hr⟩ := Option.isSome_iff_exists.mp h.registered
  have harea := mt (lacksAreaConfig_iff hr).mpr h.area
  have hcurrent := mt (isOutdated_iff hr).mpr h.current
  unfold writeValueLocked
  rw [hv]
  simp only [hr, notificationOf, changes, written, storedFor_of_record hr, put_of_record hr]
  rw [if_neg harea, if_neg hcurrent]
  split <;> rfl

/-- A write of any other value fails. -/
theorem writeValueLocked_of_not_writable {now : Int} {propValue : VehiclePropValue}
    {useCurrentTimestamp : Bool} (h : ¬store.Writable (stamp now useCurrentTimestamp propValue))
    (updateStatus : Bool) (eventMode : EventMode) :
    ∃ e, store.writeValueLocked now propValue updateStatus eventMode useCurrentTimestamp =
      .error e := by
  generalize hv : stamp now useCurrentTimestamp propValue = v at h
  rcases hr : store.getRecordLocked v.prop with _ | record
  · exact ⟨.notRegistered v.prop, by simp only [writeValueLocked, hv, hr]⟩
  · by_cases harea : store.LacksAreaConfig v
    · rw [lacksAreaConfig_iff hr] at harea
      exact ⟨.noAreaConfig v.prop v.areaId, by
        simp only [writeValueLocked, hv, hr, harea, ite_true]⟩
    · have hout : store.IsOutdated v := by
        by_contra hcurrent
        exact h ⟨by rw [IsRegistered, hr]; rfl, harea, hcurrent⟩
      rw [lacksAreaConfig_iff hr] at harea
      rw [isOutdated_iff hr] at hout
      unfold writeValueLocked
      rw [hv]
      simp only [hr]
      rw [if_neg harea, if_pos hout]
      exact ⟨_, rfl⟩

/-- What the locked section of a write that succeeds did. -/
theorem of_writeValueLocked_ok {now : Int} {propValue : VehiclePropValue} {updateStatus : Bool}
    {eventMode : EventMode} {useCurrentTimestamp : Bool} {n : Option Notification}
    {after : VehiclePropertyStore}
    (h : store.writeValueLocked now propValue updateStatus eventMode useCurrentTimestamp =
      .ok (n, after)) :
    store.Writable (stamp now useCurrentTimestamp propValue) ∧
      n = store.notificationOf updateStatus eventMode (stamp now useCurrentTimestamp propValue) ∧
      after = store.put (stamp now useCurrentTimestamp propValue)
        (store.written updateStatus (stamp now useCurrentTimestamp propValue)) := by
  by_cases hw : store.Writable (stamp now useCurrentTimestamp propValue)
  · rw [writeValueLocked_of_writable hw] at h
    cases h
    exact ⟨hw, rfl, rfl⟩
  · obtain ⟨e, he⟩ := writeValueLocked_of_not_writable hw updateStatus eventMode
    cases he.symm.trans h

/-- A write succeeds exactly for a writable value. -/
theorem writeValue_of_writable {now : Int} {propValue : VehiclePropValue}
    {useCurrentTimestamp : Bool} (h : store.Writable (stamp now useCurrentTimestamp propValue))
    (updateStatus : Bool) (eventMode : EventMode) :
    store.writeValue now propValue updateStatus eventMode useCurrentTimestamp =
      (.ok (), store.callbacksOf updateStatus eventMode (stamp now useCurrentTimestamp propValue),
        store.put (stamp now useCurrentTimestamp propValue)
          (store.written updateStatus (stamp now useCurrentTimestamp propValue))) := by
  rw [writeValue, writeValueLocked_of_writable h]
  cases eventMode <;> simp [notificationOf, callbacksOf, Notification.invoke]

/-- A write that fails changes nothing and invokes no callback. -/
theorem writeValue_of_not_writable {now : Int} {propValue : VehiclePropValue}
    {useCurrentTimestamp : Bool} (h : ¬store.Writable (stamp now useCurrentTimestamp propValue))
    (updateStatus : Bool) (eventMode : EventMode) :
    ∃ e, store.writeValue now propValue updateStatus eventMode useCurrentTimestamp =
      (.error e, [], store) := by
  obtain ⟨e, he⟩ := writeValueLocked_of_not_writable h updateStatus eventMode
  exact ⟨e, by rw [writeValue, he]⟩

end Calls

end VehiclePropertyStore

end VhalCore.PropertyStore
