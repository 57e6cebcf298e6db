import VhalCore.Models.PropertyStore.Interpretation.Refreshes

/-!
# The stores that the hardware reaches

The hardware registers its properties without a token function, or with the one that takes
the timestamp of a value, and refreshes only properties without one. In every store that is
reached so a value stands under its own property and its own record id.
-/

namespace VhalCore.PropertyStore

open VehiclePropertyStore

/-- The token functions that the hardware registers. -/
def IsTokenFunction (tokenFunc : Option TokenFunction) : Prop :=
  tokenFunc = none ∨ tokenFunc = some VehiclePropValue.timestamp

/-- The calls that the hardware makes. -/
def Operation.Regular (store : VehiclePropertyStore) : Operation → Prop
  | .registerProperty _ tokenFunc => IsTokenFunction tokenFunc
  | .refreshTimestamps _ _ eventModes => ∀ pair ∈ eventModes.keys, ∀ record,
      store.getRecordLocked pair.propId = some record → record.tokenFunction = none
  | _ => True

/-- The stores that the hardware reaches from an empty one, with its callback set at some
time. -/
inductive Reachable : VehiclePropertyStore → Prop
  | empty : Reachable {}
  | setOnValuesChangeCallback {store : VehiclePropertyStore} :
      Reachable store → Reachable { store with mOnValuesChangeCallback := true }
  | call {store : VehiclePropertyStore} {op : Operation} :
      Reachable store → op.Regular store → Reachable (op.apply store)

namespace VehiclePropertyStore

/-- Every value stands under its own property and its own record id. -/
structure Valid (store : VehiclePropertyStore) : Prop where
  tokens : ∀ propId config tokenFunc, store.registration propId = some (config, tokenFunc) →
    IsTokenFunction tokenFunc
  keyed : ∀ propId recId value, store.stored propId recId = some value →
    value.prop = propId ∧ store.recordIdOf value = some recId

variable {store : VehiclePropertyStore}

/-- A record id depends on the area and, with a token function, on the time of a value. -/
theorem Valid.recordIdOf_eq (h : store.Valid) {a b : VehiclePropValue} (hprop : a.prop = b.prop)
    (harea : a.areaId = b.areaId) (htime : a.timestamp = b.timestamp) :
    store.recordIdOf a = store.recordIdOf b := by
  rcases hr : store.getRecordLocked b.prop with _ | record
  · rw [recordIdOf, recordIdOf, hprop, hr]
    rfl
  · have htoken := h.tokens b.prop record.propConfig record.tokenFunction (by
      rw [registration, hr, Option.map_some])
    rw [recordIdOf_of_record hr, recordIdOf_of_record (hprop ▸ hr), getRecordIdLocked,
      getRecordIdLocked, hprop, harea]
    congr 2
    rcases htoken with htoken | htoken
    · simp only [Record.tokenOf, htoken]
    · simp only [Record.tokenOf, htoken, htime]

/-- A store is valid if it keeps its values or stores valid ones. -/
theorem Valid.of_stored {after : VehiclePropertyStore} (h : store.Valid)
    (hreg : ∀ propId, after.registration propId = store.registration propId)
    (hstored : ∀ propId recId value, after.stored propId recId = some value →
      store.stored propId recId = some value ∨
        value.prop = propId ∧ store.recordIdOf value = some recId) : after.Valid := by
  refine ⟨fun propId config tokenFunc hr => ?_, fun propId recId value hv => ?_⟩
  · rw [hreg] at hr
    exact h.tokens propId config tokenFunc hr
  · rw [recordIdOf_congr (hreg value.prop)]
    rcases hstored propId recId value hv with hold | hnew
    · exact h.keyed propId recId value hold
    · exact hnew

/-- A put of a value that differs from the key in its payload and its status. -/
theorem Valid.put {v w : VehiclePropValue} (h : store.Valid) (hv : store.IsRegistered v.prop)
    (hprop : w.prop = v.prop) (harea : w.areaId = v.areaId) (htime : w.timestamp = v.timestamp) :
    (store.put v w).Valid := by
  refine h.of_stored (registration_put store v w) fun propId recId value hstored => ?_
  rw [stored_put hv] at hstored
  split at hstored
  · rename_i hkey
    cases hstored
    exact Or.inr ⟨hprop.trans hkey.1.symm, (h.recordIdOf_eq hprop harea htime).trans hkey.2⟩
  · exact Or.inl hstored

/-- A replaced record is the registration of its property. -/
theorem registration_withRecord (store : VehiclePropertyStore) (propId p : Int) (record : Record) :
    (store.withRecord propId record).registration p =
      if p = propId then some (record.propConfig, record.tokenFunction)
      else store.registration p := by
  rw [registration, getRecordLocked_withRecord]
  split <;> rfl

/-- Stored values are lost, and nothing else changes. -/
structure Loses (store after : VehiclePropertyStore) : Prop where
  registration : ∀ propId, after.registration propId = store.registration propId
  callback : after.mOnValuesChangeCallback = store.mOnValuesChangeCallback
  stored : ∀ propId recId value, after.stored propId recId = some value →
    store.stored propId recId = some value

theorem Loses.refl (store : VehiclePropertyStore) : Loses store store :=
  ⟨fun _ => rfl, rfl, fun _ _ _ h => h⟩

/-- Another record with the same registration and some of the values. -/
theorem loses_withRecord {propId : Int} {record : Record}
    {values : UnorderedMap RecordId VehiclePropValue}
    (hr : store.getRecordLocked propId = some record)
    (hvalues : ∀ recId value, values.lookup recId = some value →
      record.values.lookup recId = some value) :
    Loses store (store.withRecord propId { record with values }) := by
  refine ⟨fun p => ?_, rfl, fun p recId value hstored => ?_⟩
  · rw [registration_withRecord]
    split
    · rename_i hp
      rw [hp, registration, hr, Option.map_some]
    · rfl
  · rw [stored_withRecord] at hstored
    split at hstored
    · rename_i hp
      rw [hp, stored_of_record hr]
      exact hvalues recId value hstored
    · exact hstored

/-- A removal only loses values. -/
theorem loses_removeValue (store : VehiclePropertyStore) (value : VehiclePropValue) :
    Loses store (store.removeValue value) := by
  rw [removeValue]
  split
  · exact .refl store
  · rename_i record hr
    refine loses_withRecord hr fun recId x hx => ?_
    rw [UnorderedMap.lookup_erase_eq] at hx
    split at hx
    · cases hx
    · exact hx

/-- Removing the values of a property only loses values. -/
theorem loses_removeValuesForProperty (store : VehiclePropertyStore) (propId : Int) :
    Loses store (store.removeValuesForProperty propId) := by
  rw [removeValuesForProperty]
  split
  · exact .refl store
  · rename_i record hr
    refine loses_withRecord hr fun recId x hx => ?_
    rw [Finmap.lookup_empty] at hx
    cases hx

theorem Valid.loses {after : VehiclePropertyStore} (h : store.Valid) (hl : Loses store after) :
    after.Valid :=
  h.of_stored hl.registration fun propId recId value hv => Or.inl (hl.stored propId recId value hv)

/-- A write changes no registration. -/
theorem registration_writeValue (store : VehiclePropertyStore) (now : Int)
    (propValue : VehiclePropValue) (updateStatus : Bool) (eventMode : EventMode)
    (useCurrentTimestamp : Bool) (propId : Int) :
    (store.writeValue now propValue updateStatus eventMode useCurrentTimestamp).2.2.registration
      propId = store.registration propId := by
  by_cases hw : store.Writable (stamp now useCurrentTimestamp propValue)
  · rw [writeValue_of_writable hw]
    exact registration_put store _ _ propId
  · obtain ⟨e, he⟩ := writeValue_of_not_writable hw updateStatus eventMode
    rw [he]

/-- A write keeps a valid store. -/
theorem Valid.writeValue (h : store.Valid) (now : Int) (propValue : VehiclePropValue)
    (updateStatus : Bool) (eventMode : EventMode) (useCurrentTimestamp : Bool) :
    (store.writeValue now propValue updateStatus eventMode useCurrentTimestamp).2.2.Valid := by
  by_cases hw : store.Writable (stamp now useCurrentTimestamp propValue)
  · rw [writeValue_of_writable hw]
    exact h.put hw.registered rfl rfl rfl
  · obtain ⟨e, he⟩ := writeValue_of_not_writable hw updateStatus eventMode
    rw [he]
    exact h

/-- A value is refreshed only if a pair of its property is. -/
theorem mem_of_refreshReading {now : PropIdAreaId → Int} {propId : Int} {recId : RecordId}
    {pairs : List PropIdAreaId} {reading : Int}
    (h : store.refreshReading now propId recId pairs = some reading) :
    ∃ pair ∈ pairs, pair.propId = propId := by
  induction pairs with
  | nil => cases h
  | cons pair pairs ih =>
      rw [refreshReading, Option.or_eq_some_iff] at h
      rcases h with h | ⟨_, h⟩
      · obtain ⟨p, hp, hpid⟩ := ih h
        exact ⟨p, List.mem_cons_of_mem _ hp, hpid⟩
      · split at h
        · rename_i hr
          exact ⟨pair, List.mem_cons_self .., hr.1⟩
        · cases h

/-- Refreshes keep a valid store. -/
theorem Valid.refreshTimestamps (h : store.Valid) (now : PropIdAreaId → Int)
    (order : Traversal PropIdAreaId) (eventModes : UnorderedMap PropIdAreaId EventMode)
    (hop : (Operation.refreshTimestamps now order eventModes).Regular store) :
    (store.refreshTimestamps now order eventModes).2.Valid := by
  refine h.of_stored (registration_refreshLoop now _ store) fun propId recId value hstored => ?_
  rw [VehiclePropertyStore.refreshTimestamps, stored_refreshLoop, Option.map_eq_some_iff] at hstored
  obtain ⟨old, hold, rfl⟩ := hstored
  rcases hr : store.refreshReading now propId recId
    ((order.entries eventModes).map Prod.fst) with _ | reading
  · exact Or.inl hold
  · obtain ⟨hprop, hid⟩ := h.keyed propId recId old hold
    obtain ⟨pair, hpair, hpid⟩ := mem_of_refreshReading hr
    obtain ⟨⟨_, mode⟩, hentry, rfl⟩ := List.mem_map.mp hpair
    have hkey := (UnorderedMap.mem_keys_iff eventModes _).mpr
      ⟨mode, (order.mem_entries eventModes _ _).mp hentry⟩
    obtain ⟨record, hrecord, hrid⟩ := Option.map_eq_some_iff.mp hid
    have htoken := hop _ hkey record (by rw [hpid, ← hprop]; exact hrecord)
    refine Or.inr ⟨hprop, ?_⟩
    rw [← hid, recordIdOf, recordIdOf, hrecord, Option.map_some, Option.map_some]
    simp only [getRecordIdLocked, Record.tokenOf, htoken]

/-- Every call of the hardware keeps the store valid. -/
theorem Valid.apply (h : store.Valid) {op : Operation} (hop : op.Regular store) :
    (op.apply store).Valid := by
  cases op with
  | registerProperty config tokenFunc =>
      refine ⟨fun propId c t hr => ?_, fun propId recId value hstored => ?_⟩
      · rw [Operation.apply, registerProperty, registration_withRecord] at hr
        split at hr
        · cases hr
          exact hop
        · exact h.tokens propId c t hr
      · rw [Operation.apply, registerProperty, stored_withRecord] at hstored
        split at hstored
        · rw [Finmap.lookup_empty] at hstored
          cases hstored
        · rename_i hne
          obtain ⟨hprop, hid⟩ := h.keyed propId recId value hstored
          refine ⟨hprop, ?_⟩
          rw [← hid]
          refine recordIdOf_congr ?_
          rw [Operation.apply, registerProperty, registration_withRecord,
            if_neg (hprop ▸ hne)]
  | writeValue now propValue updateStatus eventMode useCurrentTimestamp => exact h.writeValue ..
  | refreshTimestamps now order eventModes => exact h.refreshTimestamps now order eventModes hop
  | removeValue propValue => exact h.loses (loses_removeValue store propValue)
  | removeValuesForProperty propId => exact h.loses (loses_removeValuesForProperty store propId)
  | read => exact h

theorem Valid.removeValue (h : store.Valid) (value : VehiclePropValue) :
    (store.removeValue value).Valid :=
  h.apply (show Operation.Regular store (.removeValue value) from trivial)

/-- The removal of a stored value removes its record and no other one. -/
theorem stored_removeValue (hvalid : store.Valid) {propId : Int} {recId : RecordId}
    {value : VehiclePropValue} (h : store.stored propId recId = some value) (p : Int)
    (r : RecordId) :
    (store.removeValue value).stored p r =
      if p = propId ∧ r = recId then none else store.stored p r := by
  obtain ⟨rfl, hid⟩ := hvalid.keyed propId recId value h
  rcases hr : store.getRecordLocked value.prop with _ | record
  · rw [stored, hr] at h
    cases h
  · rw [recordIdOf_of_record hr, Option.some.injEq] at hid
    simp only [VehiclePropertyStore.removeValue, hr]
    rw [stored_withRecord, UnorderedMap.lookup_erase_eq, hid]
    by_cases hp : p = value.prop
    · simp only [hp, ite_true, true_and, stored_of_record hr]
    · simp only [hp, ite_false, false_and]

/-- A value that is read is stored. -/
theorem stored_of_readValueOf {propId areaId token : Int} {value : VehiclePropValue}
    (h : store.readValueOf propId areaId token = .ok value) :
    store.stored propId ⟨recordArea propId areaId, token⟩ = some value := by
  unfold readValueOf at h
  rcases hr : store.getRecordLocked propId with _ | record
  · rw [hr] at h
    cases h
  · rw [stored_of_record hr]
    rw [hr] at h
    unfold readValueLocked at h
    rcases hlookup : record.values.lookup ⟨recordArea propId areaId, token⟩ with _ | found
    · simp only [hlookup] at h
      cases h
    · simp only [hlookup] at h
      cases h
      exact hlookup

end VehiclePropertyStore

/-- Calls that the hardware makes in any store lead to a store that it reaches. -/
theorem Reachable.run {store : VehiclePropertyStore} {ops : List Operation} (h : Reachable store)
    (hops : ∀ op ∈ ops, ∀ store, op.Regular store) : Reachable (Operation.run ops store) := by
  induction ops generalizing store with
  | nil => exact h
  | cons op ops ih =>
      exact ih (.call h (hops op (List.mem_cons_self ..) store))
        fun x hx => hops x (List.mem_cons_of_mem _ hx)

/-- Every store that the hardware reaches is valid. -/
theorem Reachable.valid {store : VehiclePropertyStore} (h : Reachable store) : store.Valid := by
  induction h with
  | empty =>
      refine ⟨fun propId config tokenFunc hr => ?_, fun propId recId value hv => ?_⟩
      · cases hr
      · cases hv
  | setOnValuesChangeCallback _ ih => exact ⟨ih.tokens, ih.keyed⟩
  | call _ hop ih => exact ih.apply hop

end VhalCore.PropertyStore
