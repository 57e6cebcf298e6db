import VhalCore.Models.FakeHardware.Interpretation.SetValueRefinement

/-!
# The records of properties with areas

The hardware gives a token function to the property of the freeze frames only, which is a
global one. A property with areas so has one record for each of them, and a value that is
stored is of a configured area: it can be written again.

A `Round` is a sequence of writes that all succeed and concern different records. After it
every record that it concerns has the value of its write, and every other record is as it
was.
-/

namespace VhalCore.FakeHardware

open PropertyStore VehiclePropertyStore

/-- The function from which the tokens of a property are derived. -/
def tokenFunctionOf (propId : Int) : Option TokenFunction :=
  if propId = obd2FreezeFrameId then some VehiclePropValue.timestamp else none

/-- A call of the store that the hardware makes. -/
structure IsStoreCall (store : VehiclePropertyStore) (op : PropertyStore.Operation) : Prop where
  regular : op.Regular store
  token : ∀ config tokenFunc, op = .registerProperty config tokenFunc →
    tokenFunc = tokenFunctionOf config.prop

/-- The stores that the hardware reaches, with its own token functions. -/
inductive StoreReached : VehiclePropertyStore → Prop
  | empty : StoreReached {}
  | setOnValuesChangeCallback {store : VehiclePropertyStore} :
      StoreReached store → StoreReached { store with mOnValuesChangeCallback := true }
  | call {store : VehiclePropertyStore} {op : PropertyStore.Operation} :
      StoreReached store → IsStoreCall store op → StoreReached (op.apply store)

/-- A valid store with the token functions of the hardware, in which every stored value is of
a configured area. -/
structure Zoned (store : VehiclePropertyStore) : Prop where
  valid : store.Valid
  token : ∀ propId config tokenFunc, store.registration propId = some (config, tokenFunc) →
    tokenFunc = tokenFunctionOf propId
  configured : ∀ propId recId value, store.stored propId recId = some value →
    ¬store.LacksAreaConfig value

/-- Writes that all succeed and concern different records. -/
structure Round (store : VehiclePropertyStore) (ws : List VehiclePropValue) : Prop where
  zoned : ∀ w ∈ ws, isGlobalProp w.prop = false
  writable : ∀ w ∈ ws, store.Writable w
  sorted : ws.Pairwise fun a b => a.timestamp ≤ b.timestamp
  distinct : (ws.map VehiclePropValue.propIdAreaId).Nodup

/-- A store that calls have reached is reachable. -/
theorem StoreReached.reachable {store : VehiclePropertyStore} (h : StoreReached store) :
    Reachable store := by
  induction h with
  | empty => exact .empty
  | setOnValuesChangeCallback _ ih => exact .setOnValuesChangeCallback ih
  | call _ hop ih => exact .call ih hop.regular

namespace Zoned

variable {store after : VehiclePropertyStore} {v w x : VehiclePropValue} {propId : Int}
variable {recId : RecordId}

/-- A store is zoned if all of its values have an area configuration. -/
theorem of_stored (h : Zoned store) (hvalid : after.Valid)
    (hreg : ∀ propId, after.registration propId = store.registration propId)
    (hstored : ∀ propId recId value, after.stored propId recId = some value →
      ¬store.LacksAreaConfig value) : Zoned after := by
  refine ⟨hvalid, fun propId config tokenFunc hr => ?_, fun propId recId value hv => ?_⟩
  · rw [hreg] at hr
    exact h.token propId config tokenFunc hr
  · rw [lacksAreaConfig_congr (hreg value.prop) rfl rfl]
    exact hstored propId recId value hv

/-- A write of a writable value. -/
theorem put (h : Zoned store) (hv : store.Writable v) (hprop : w.prop = v.prop)
    (harea : w.areaId = v.areaId) (htime : w.timestamp = v.timestamp) :
    Zoned (store.put v w) := by
  refine h.of_stored (h.valid.put hv.registered hprop harea htime) (registration_put store v w)
    fun propId recId value hstored => ?_
  rw [stored_put hv.registered] at hstored
  split at hstored
  · cases hstored
    rw [lacksAreaConfig_congr rfl hprop harea]
    exact hv.area
  · exact h.configured propId recId value hstored

theorem loses (h : Zoned store) (hl : Loses store after) : Zoned after :=
  h.of_stored (h.valid.loses hl) hl.registration fun p r x hstored =>
    h.configured p r x (hl.stored p r x hstored)

/-- Every call of the hardware keeps the values in configured areas. -/
theorem apply (h : Zoned store) {op : PropertyStore.Operation} (hop : IsStoreCall store op) :
    Zoned (op.apply store) := by
  have hvalid := h.valid.apply hop.regular
  cases op with
  | registerProperty config tokenFunc =>
      have hreg (p : Int) : (store.registerProperty config tokenFunc).registration p =
          if p = config.prop then some (config, tokenFunc) else store.registration p := by
        rw [VehiclePropertyStore.registerProperty, registration_withRecord]
      refine ⟨hvalid, fun propId c t hr => ?_, fun propId recId value hstored => ?_⟩
      · rw [PropertyStore.Operation.apply, hreg] at hr
        split at hr
        · rename_i hp
          cases hr
          rw [hp]
          exact hop.token config tokenFunc rfl
        · exact h.token propId c t hr
      · rw [PropertyStore.Operation.apply, VehiclePropertyStore.registerProperty,
          stored_withRecord] at hstored
        split at hstored
        · rw [Finmap.lookup_empty] at hstored
          cases hstored
        · rename_i hne
          have hprop := (h.valid.keyed propId recId value hstored).1
          rw [PropertyStore.Operation.apply,
            lacksAreaConfig_congr (a := store) (by rw [hreg, if_neg (hprop ▸ hne)]) rfl rfl]
          exact h.configured propId recId value hstored
  | writeValue now propValue updateStatus eventMode useCurrentTimestamp =>
      rw [PropertyStore.Operation.apply]
      by_cases hw : store.Writable (stamp now useCurrentTimestamp propValue)
      · rw [writeValue_of_writable hw]
        exact h.put hw rfl rfl rfl
      · obtain ⟨e, he⟩ := writeValue_of_not_writable hw updateStatus eventMode
        rw [he]
        exact h
  | refreshTimestamps now order eventModes =>
      refine h.of_stored hvalid (registration_refreshLoop now _ store) ?_
      intro propId recId value hstored
      rw [PropertyStore.Operation.apply, VehiclePropertyStore.refreshTimestamps,
        stored_refreshLoop, Option.map_eq_some_iff] at hstored
      obtain ⟨old, hold, rfl⟩ := hstored
      exact mt (lacksAreaConfig_congr rfl rfl rfl).mp (h.configured propId recId old hold)
  | removeValue propValue => exact h.loses (loses_removeValue store propValue)
  | removeValuesForProperty propId => exact h.loses (loses_removeValuesForProperty store propId)
  | read => exact h

/-- A property with areas has no token function. -/
theorem recordIdOf_eq (h : Zoned store) (hreg : store.IsRegistered v.prop)
    (hzone : isGlobalProp v.prop = false) : store.recordIdOf v = some ⟨v.areaId, 0⟩ := by
  obtain ⟨record, hr⟩ := Option.isSome_iff_exists.mp hreg
  have hframe : v.prop ≠ obd2FreezeFrameId := by
    intro heq
    rw [heq] at hzone
    cases hzone
  have htoken := h.token v.prop record.propConfig record.tokenFunction (by
    rw [registration, hr, Option.map_some])
  rw [tokenFunctionOf, if_neg hframe] at htoken
  rw [recordIdOf_of_record hr, getRecordIdLocked, recordArea, hzone, Record.tokenOf, htoken]
  rfl

/-- A property with a stored value is registered. -/
theorem isRegistered_of_stored (hstored : store.stored propId recId = some x) :
    store.IsRegistered propId := by
  unfold VehiclePropertyStore.stored at hstored
  obtain ⟨record, hr, _⟩ := Option.bind_eq_some_iff.mp hstored
  rw [IsRegistered, hr]
  rfl

/-- A value of a property with areas stands under its area. -/
theorem key (h : Zoned store) (hzone : isGlobalProp propId = false)
    (hstored : store.stored propId recId = some x) : recId = ⟨x.areaId, 0⟩ := by
  obtain ⟨hprop, hid⟩ := h.valid.keyed propId recId x hstored
  have hreg : store.IsRegistered x.prop := hprop ▸ isRegistered_of_stored hstored
  rw [h.recordIdOf_eq hreg (hprop ▸ hzone)] at hid
  exact (Option.some.inj hid).symm

/-- Two values of one area are the same. -/
theorem eq_of_area (h : Zoned store) (hzone : isGlobalProp propId = false) {r : RecordId}
    {y : VehiclePropValue} (hx : store.stored propId recId = some x)
    (hy : store.stored propId r = some y) (harea : x.areaId = y.areaId) : x = y := by
  rw [h.key hzone hx, harea] at hx
  rw [h.key hzone hy, hx] at hy
  exact Option.some.inj hy

/-- A stored value can be replaced by one that is not before it. -/
theorem writable (h : Zoned store) (hzone : isGlobalProp w.prop = false)
    (hstored : store.stored w.prop ⟨w.areaId, 0⟩ = some x) (htime : x.timestamp ≤ w.timestamp) :
    store.Writable w := by
  have hreg := isRegistered_of_stored hstored
  have hkey := congrArg RecordId.area (h.key hzone hstored)
  have hprop := (h.valid.keyed w.prop _ x hstored).1
  refine ⟨hreg, ?_, ?_⟩
  · rw [lacksAreaConfig_congr rfl hprop.symm hkey]
    exact h.configured w.prop _ x hstored
  · rintro ⟨old, hold, hlt⟩
    rw [storedFor, h.recordIdOf_eq hreg hzone, Option.bind_some, hstored] at hold
    cases hold
    omega

end Zoned

/-- Every store that the hardware reaches has its values in configured areas. -/
theorem StoreReached.zoned {store : VehiclePropertyStore} (h : StoreReached store) :
    Zoned store := by
  induction h with
  | empty =>
      refine ⟨Reachable.empty.valid, fun propId config tokenFunc hr => ?_,
        fun propId recId value hv => ?_⟩
      · cases hr
      · cases hv
  | setOnValuesChangeCallback _ ih =>
      exact ⟨⟨ih.valid.tokens, ih.valid.keyed⟩, ih.token, ih.configured⟩
  | call _ hop ih => exact ih.apply hop

/-- Calls that the hardware makes in any store lead to a store that it reaches. -/
theorem StoreReached.run {store : VehiclePropertyStore} {ops : List PropertyStore.Operation}
    (h : StoreReached store) (hops : ∀ op ∈ ops, ∀ store, IsStoreCall store op) :
    StoreReached (PropertyStore.Operation.run ops store) := by
  induction ops generalizing store with
  | nil => exact h
  | cons op ops ih =>
      exact ih (.call h (hops op (List.mem_cons_self ..) store))
        fun x hx => hops x (List.mem_cons_of_mem _ hx)

section Read

variable {order : Traversal RecordId} {store : VehiclePropertyStore} {propId : Int}
variable {values : List VehiclePropValue}

/-- The values that are read are the stored ones. -/
theorem mem_readValues_iff (h : store.readValuesForProperty order propId = .ok values)
    (x : VehiclePropValue) : x ∈ values ↔ ∃ recId, store.stored propId recId = some x := by
  unfold VehiclePropertyStore.readValuesForProperty at h
  rcases hr : store.getRecordLocked propId with _ | record
  · rw [hr] at h
    cases h
  · rw [hr] at h
    cases h
    simp only [List.mem_map, Prod.exists, exists_eq_right, stored_of_record hr,
      order.mem_entries]

/-- Nothing is stored for a property that cannot be read. -/
theorem stored_of_readValues_error {e : StoreError}
    (h : store.readValuesForProperty order propId = .error e) (recId : RecordId) :
    store.stored propId recId = none := by
  unfold VehiclePropertyStore.readValuesForProperty at h
  rcases hr : store.getRecordLocked propId with _ | record
  · rw [VehiclePropertyStore.stored, hr, Option.bind_none]
  · rw [hr] at h
    cases h

/-- Every area is read once. -/
theorem nodup_readValues (hzoned : Zoned store) (hzone : isGlobalProp propId = false)
    (h : store.readValuesForProperty order propId = .ok values) :
    (values.map VehiclePropValue.areaId).Nodup := by
  unfold VehiclePropertyStore.readValuesForProperty at h
  rcases hr : store.getRecordLocked propId with _ | record
  · rw [hr] at h
    cases h
  · rw [hr] at h
    cases h
    rw [List.map_map]
    refine List.Nodup.map_on ?_ (order.nodup_entries record.values)
    rintro ⟨r, x⟩ hx ⟨r', y⟩ hy harea
    have hxs : store.stored propId r = some x := by
      rw [stored_of_record hr]
      exact (order.mem_entries record.values r x).mp hx
    have hys : store.stored propId r' = some y := by
      rw [stored_of_record hr]
      exact (order.mem_entries record.values r' y).mp hy
    have hsame : x = y := hzoned.eq_of_area hzone hxs hys harea
    rw [hzoned.key hzone hxs, hzoned.key hzone hys, hsame]

end Read

namespace Board

variable {b : Board} {w : VehiclePropValue} {ws : List VehiclePropValue}

/-- A write keeps a zoned store. -/
theorem zoned_write (h : Zoned b.store) (updateStatus : Bool)
    (eventMode : PropertyStore.EventMode) (v : VehiclePropValue) :
    Zoned (b.write v updateStatus eventMode).2.store := by
  by_cases hw : b.store.Writable v
  · rw [write_of_writable hw]
    exact h.put hw rfl rfl rfl
  · obtain ⟨e, he⟩ := write_of_not_writable hw updateStatus eventMode
    rw [he]
    exact h

theorem zoned_attemptAll (h : Zoned b.store) (ws : List VehiclePropValue) :
    Zoned (b.attemptAll ws).store := by
  induction ws generalizing b with
  | nil => exact h
  | cons w ws ih => exact ih (zoned_write h true .always w)

/-- The rest of a round is one after its first write. -/
theorem round_write (h : Round b.store (w :: ws)) :
    Round (b.write w true .always).2.store ws := by
  refine ⟨fun x hx => h.zoned x (List.mem_cons_of_mem _ hx), fun x hx => ?_,
    (List.pairwise_cons.mp h.sorted).2, (List.nodup_cons.mp h.distinct).2⟩
  rw [(write_advances true .always b w).writable_iff ((List.pairwise_cons.mp h.sorted).1 x hx)]
  exact h.writable x (List.mem_cons_of_mem _ hx)

/-- The record of the value takes it, and the other records stay. -/
theorem stored_write (hzoned : Zoned b.store) (hzone : isGlobalProp w.prop = false)
    (hw : b.store.Writable w) (updateStatus : Bool) (eventMode : PropertyStore.EventMode)
    (propId : Int) (recId : RecordId) :
    (b.write w updateStatus eventMode).2.store.stored propId recId =
      if propId = w.prop ∧ recId = ⟨w.areaId, 0⟩ then some (b.store.written updateStatus w)
      else b.store.stored propId recId := by
  rw [write_of_writable hw, stored_put hw.registered, hzoned.recordIdOf_eq hw.registered hzone]
  simp only [Option.some.injEq, eq_comm (a := recId)]

/-- A record that no write of the round concerns stays as it is. -/
theorem stored_round_of_not (hzoned : Zoned b.store) (h : Round b.store ws) {propId : Int}
    {recId : RecordId} (hnot : ∀ w ∈ ws, w.prop = propId → recId ≠ ⟨w.areaId, 0⟩) :
    (b.attemptAll ws).store.stored propId recId = b.store.stored propId recId := by
  induction ws generalizing b with
  | nil => rfl
  | cons w ws ih =>
      have hmem := List.mem_cons_self (a := w) (l := ws)
      rw [attemptAll, ih (zoned_write hzoned true .always w) (round_write h)
          fun x hx => hnot x (List.mem_cons_of_mem _ hx),
        stored_write hzoned (h.zoned w hmem) (h.writable w hmem), if_neg]
      exact fun hkey => hnot w hmem hkey.1.symm hkey.2

/-- A record that a write of the round concerns has its value. -/
theorem stored_round_of_mem (hzoned : Zoned b.store) (h : Round b.store ws) (hw : w ∈ ws) :
    (b.attemptAll ws).store.stored w.prop ⟨w.areaId, 0⟩ = some w := by
  induction ws generalizing b with
  | nil => cases hw
  | cons x ws ih =>
      have hmem := List.mem_cons_self (a := x) (l := ws)
      have hafter := zoned_write hzoned true .always x
      rw [attemptAll]
      rcases List.mem_cons.mp hw with rfl | hw
      · rw [stored_round_of_not hafter (round_write h) fun y hy hprop hkey => ?_,
          stored_write hzoned (h.zoned w hmem) (h.writable w hmem), if_pos ⟨rfl, rfl⟩]
        · rfl
        · refine (List.nodup_cons.mp h.distinct).1 (List.mem_map.mpr ⟨y, hy, ?_⟩)
          have harea : w.areaId = y.areaId := congrArg RecordId.area hkey
          rw [VehiclePropValue.propIdAreaId, VehiclePropValue.propIdAreaId, hprop, harea]
      · exact ih hafter (round_write h) hw

/-- Every write of a round is told. -/
theorem emitted_round (h : Round b.store ws)
    (hcallback : b.store.mOnValuesChangeCallback = true) :
    (b.attemptAll ws).emitted = b.emitted ++ ws.map fun w => .onValuesChange [w] := by
  induction ws generalizing b with
  | nil => simp [attemptAll]
  | cons w ws ih =>
      have hw := h.writable w (List.mem_cons_self ..)
      have hfirst : (b.write w true .always).2.emitted = b.emitted ++ [.onValuesChange [w]] := by
        rw [write_of_writable hw]
        simp only [callbacksOf, true_or, ite_true, invokeCallbacks, hcallback]
        rfl
      rw [attemptAll, ih (round_write h)
        ((write_advances true .always b w).callback.trans hcallback), hfirst, List.append_assoc,
        List.map_cons, List.singleton_append]

end Board

/-- Stamping leaves the pairs as they are. -/
theorem Environment.map_stampFrom (env : Environment) (k : Nat) (ws : List VehiclePropValue) :
    (env.stampFrom k ws).map VehiclePropValue.propIdAreaId =
      ws.map VehiclePropValue.propIdAreaId := by
  induction ws generalizing k with
  | nil => rfl
  | cons w ws ih =>
      rw [stampFrom, List.map_cons, List.map_cons, ih]
      rfl

/-- Every value is stamped at some moment. -/
theorem Environment.exists_stamped (env : Environment) (k : Nat) {ws : List VehiclePropValue}
    {w : VehiclePropValue} (hw : w ∈ ws) :
    ∃ i, k ≤ i ∧ env.stamped i w ∈ env.stampFrom k ws := by
  induction ws generalizing k with
  | nil => cases hw
  | cons x ws ih =>
      rcases List.mem_cons.mp hw with rfl | hw
      · exact ⟨k, le_rfl, List.mem_cons_self ..⟩
      · obtain ⟨i, hi, hmem⟩ := ih (k + 1) hw
        exact ⟨i, by omega, List.mem_cons_of_mem _ hmem⟩

end VhalCore.FakeHardware
