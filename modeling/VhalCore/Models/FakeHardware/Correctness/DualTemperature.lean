import VhalCore.Models.FakeHardware.Interpretation.ClimateRoutes

/-!
# Setting a temperature in dual mode

A temperature that is set in an area of the dual mode is written to every available record
around, the one of the request being only one of them. Without the dual mode the record of
the request is written alone. No other record of any property changes.
-/

namespace VhalCore.FakeHardware

open PropertyStore VehiclePropertyStore

/-- A stored temperature that is available, in an area of the dual mode. -/
structure IsTarget (store : VehiclePropertyStore) (dualAreaId : Int) (recId : RecordId)
    (x : VehiclePropValue) : Prop where
  stored : store.stored hvacTemperatureSetId recId = some x
  covered : coversArea dualAreaId x.areaId = true
  available : x.status = .available

/-- Every target has the temperature and is told once, and no other record is changed. -/
structure Synchronized (dualAreaId : Int) (temp : Binary32) (a b : Board) : Prop where
  holds : ∀ recId x, IsTarget a.store dualAreaId recId x → ∃ t,
    b.store.stored hvacTemperatureSetId recId = some { setTemp temp x with timestamp := t } ∧
      (setTemp temp x).value.floatValues.head? = some temp
  told : ∃ news : List VehiclePropValue,
    b.emitted = a.emitted ++ news.map (fun w => .onValuesChange [w]) ∧
    (news.map VehiclePropValue.areaId).Nodup ∧
    ∀ w, w ∈ news ↔ ∃ recId x, IsTarget a.store dualAreaId recId x ∧
      b.store.stored hvacTemperatureSetId recId = some w
  others : ∀ propId recId,
    (propId = hvacTemperatureSetId → ∀ x, ¬IsTarget a.store dualAreaId recId x) →
    b.store.stored propId recId = a.store.stored propId recId

/-- The record of a request has its value, with the status of the record, and no other record
is changed. -/
structure SetAlone (v : VehiclePropValue) (a b : Board) : Prop where
  holds : ∃ t, b.store.stored v.prop ⟨v.areaId, 0⟩ = some { v with
    timestamp := t
    status := writtenStatus false v (a.store.stored v.prop ⟨v.areaId, 0⟩) }
  others : ∀ propId recId, ¬(propId = v.prop ∧ recId = ⟨v.areaId, 0⟩) →
    b.store.stored propId recId = a.store.stored propId recId

/-- A round over the targets synchronises them. -/
theorem Rewrites.synchronized {env : Environment} {s : PropertyState} {b : Board}
    {values : List VehiclePropValue} {dualAreaId : Int} {temp : Binary32}
    (hzoned : Zoned s.mServerSidePropStore)
    (hread : s.readValuesForProperty env hvacTemperatureSetId = .ok values)
    (h : Rewrites (setTemp temp) (syncTargets dualAreaId values) s.board b)
    (hplaces : ∀ x ∈ syncTargets dualAreaId values, x.value.floatValues ≠ []) :
    Synchronized dualAreaId temp s.board b := by
  have htarget (recId : RecordId) (x : VehiclePropValue)
      (hx : IsTarget s.board.store dualAreaId recId x) :
      x ∈ syncTargets dualAreaId values ∧ x.prop = hvacTemperatureSetId ∧
        recId = ⟨x.areaId, 0⟩ := by
    refine ⟨(mem_syncTargets_iff x).mpr ⟨?_, hx.covered, hx.available⟩, ?_, ?_⟩
    · exact (mem_readValues_iff hread x).mpr ⟨recId, hx.stored⟩
    · exact (hzoned.valid.keyed _ recId x hx.stored).1
    · exact hzoned.key isGlobalProp_temperature hx.stored
  have hsource (x : VehiclePropValue) (hx : x ∈ syncTargets dualAreaId values) :
      IsTarget s.board.store dualAreaId ⟨x.areaId, 0⟩ x ∧ x.prop = hvacTemperatureSetId := by
    obtain ⟨_, hcovers, havailable⟩ := (mem_syncTargets_iff x).mp hx
    obtain ⟨hprop, hstored⟩ := stored_of_mem_syncTargets hzoned hread hx
    exact ⟨⟨hprop ▸ hstored, hcovers, havailable⟩, hprop⟩
  refine ⟨fun recId x hx => ?_, ?_, fun propId recId hnot => ?_⟩
  · obtain ⟨hmem, hprop, rfl⟩ := htarget recId x hx
    obtain ⟨t, ht⟩ := h.rewritten x hmem
    rw [hprop] at ht
    refine ⟨t, ht, ?_⟩
    obtain ⟨f, fs, hfloats⟩ := List.exists_cons_of_ne_nil (hplaces x hmem)
    simp only [setTemp, hfloats, List.set_cons_zero, List.head?_cons]
  · obtain ⟨news, hemitted, hpairs, hnews⟩ := h.told_iff
    refine ⟨news, hemitted, ?_, fun w => (hnews w).trans ⟨?_, ?_⟩⟩
    · have hareas := congrArg (List.map PropIdAreaId.areaId) hpairs
      rw [List.map_map, List.map_map] at hareas
      have hnodup := (nodup_readValues hzoned isGlobalProp_temperature hread).sublist
        ((List.filter_sublist (p := fun v => coversArea dualAreaId v.areaId &&
          v.status == .available)).map VehiclePropValue.areaId)
      exact hareas ▸ hnodup
    · rintro ⟨x, hx, hw, _⟩
      obtain ⟨hxt, hprop⟩ := hsource x hx
      exact ⟨_, x, hxt, hprop ▸ hw⟩
    · rintro ⟨recId, x, hx, hw⟩
      obtain ⟨hmem, hprop, rfl⟩ := htarget recId x hx
      obtain ⟨t, ht⟩ := h.rewritten x hmem
      rw [hprop] at ht
      cases ht.symm.trans hw
      exact ⟨x, hmem, hprop.symm ▸ hw, rfl⟩
  · refine h.others propId recId fun x hx hxprop hkey => ?_
    obtain ⟨hxt, hprop⟩ := hsource x hx
    rw [hprop] at hxprop
    exact hnot hxprop.symm x (hkey ▸ hxt)

/-- A write of the value alone. -/
theorem setAlone_of_write {env : Environment} {k : Nat} {b c : Board} {v : VehiclePropValue}
    (hzoned : Zoned b.store) (hzone : isGlobalProp v.prop = false)
    (h : b.write (env.stamped k v) false .onValueChange = (.ok (), c)) : SetAlone v b c := by
  have hw : b.store.Writable (env.stamped k v) := by
    by_contra hnot
    obtain ⟨e, he⟩ := Board.write_of_not_writable hnot false .onValueChange
    cases he.symm.trans h
  have hid : b.store.recordIdOf (env.stamped k v) = some ⟨v.areaId, 0⟩ :=
    hzoned.recordIdOf_eq hw.registered hzone
  have hstored := Board.stored_write (w := env.stamped k v) hzoned hzone hw false .onValueChange
  rw [h] at hstored
  refine ⟨⟨env.clock k, ?_⟩, fun propId recId hnot => ?_⟩
  · rw [hstored, if_pos ⟨rfl, rfl⟩, written, storedFor, hid]
    rfl
  · rw [hstored]
    exact if_neg hnot

/-- In every store that the hardware reaches, a temperature that is set well is written to all
available records of the one dual area around, or to the record of the request alone if there
is no such area. -/
theorem setTemperature_inDualMode {env : Environment} {s after : PropertyState}
    {v : VehiclePropValue} {temp : Binary32} (hreached : StoreReached s.mServerSidePropStore)
    (hcallback : s.mServerSidePropStore.mOnValuesChangeCallback = true)
    (hprop : v.prop = hvacTemperatureSetId) (hfloats : v.value.floatValues = [temp])
    (hset : s.setValue env v = .ok (.ok (), after)) :
    (∀ dualAreaId, DualOn s.mServerSidePropStore dualAreaId →
      coversArea dualAreaId v.areaId = true →
      (∀ other, DualOn s.mServerSidePropStore other → coversArea other v.areaId = true →
        other = dualAreaId) →
      Synchronized dualAreaId temp s.board after.board) ∧
    ((∀ dualAreaId, DualOn s.mServerSidePropStore dualAreaId →
      ¬coversArea dualAreaId v.areaId = true) → SetAlone v s.board after.board) := by
  have hzoned := hreached.zoned
  have hview := PropertyState.view_setValue env s v hzoned.valid
  rw [hset, PropertyState.route_zoned (by rw [hprop]; decide)] at hview
  split at hview
  · cases hview
  · rw [PropertyState.propertyRoute_temperature hprop hfloats] at hview
    unfold PropertyState.temperatureRoute at hview
    rcases hsynced : s.getSyncedAreaIdIfHvacDualOn env v.areaId with _ | found
    · rw [hsynced] at hview
      have hnone (d : Int) (hd : DualOn s.mServerSidePropStore d) :=
        PropertyState.not_dualOn_of_getSynced hsynced hd
      refine ⟨fun d hd hcovers _ => absurd hcovers (hnone d hd), fun _ => ?_⟩
      have hwrite : s.board.write (env.stamped s.moments v) false .onValueChange =
          (.ok (), after.board) := (Except.ok.inj hview).symm
      exact setAlone_of_write (b := s.board) hzoned (hprop ▸ isGlobalProp_temperature) hwrite
    · rw [hsynced] at hview
      obtain ⟨hdual, hcovers⟩ := PropertyState.dualOn_of_getSynced hsynced
      refine ⟨fun d _ _ honly => ?_, fun hnone => absurd hcovers (hnone found hdual)⟩
      obtain rfl := honly found hdual hcovers
      rcases hread : s.readValuesForProperty env hvacTemperatureSetId with e | values
      · rw [hread] at hview
        cases hview
      · simp only [hread] at hview
        rcases hws : s.syncWrites env found (some temp) values with f | rs
        · rw [hws] at hview
          cases hview
        · rw [hws] at hview
          have hrun : s.board.attemptUntil rs = (.ok (), after.board) :=
            (Except.ok.inj hview).symm
          obtain ⟨hall, hrewrites, hplaces⟩ := rewrites_of_reached hzoned hcallback hread
            (List.Sublist.refl _) hws (Or.inl (by rw [hrun]))
          have hboard : after.board = s.board.attemptAll rs :=
            congrArg Prod.snd (hrun.symm.trans hall)
          rw [hboard]
          exact hrewrites.synchronized hzoned hread hplaces

section Example

/-- The registration of a property with some areas. -/
def zonesOf (prop : Int) (areaIds : List Int) : PropertyStore.Operation :=
  .registerProperty { prop, areaConfigs := areaIds.map fun areaId => { areaId } } none

/-- A value as it is stored when the hardware starts. -/
def startsWith (prop areaId : Int) (value : RawPropValues) : PropertyStore.Operation :=
  .writeValue 1 { prop, areaId, value } true .onValueChange true

/-- A temperature of 20 degrees. -/
def twentyDegrees : RawPropValues := { floatValues := [.ofInt 20] }

/-- A temperature of 30 degrees. -/
def thirtyDegrees : RawPropValues := { floatValues := [.ofInt 30] }

/-- Two front seats with a temperature and a power switch of their own, and a dual mode that
couples both. -/
def cabinOps : List PropertyStore.Operation :=
  [zonesOf hvacPowerOnId [1, 4], zonesOf hvacTemperatureSetId [1, 4], zonesOf hvacDualOnId [5],
    startsWith hvacPowerOnId 1 { int32Values := [1] },
    startsWith hvacPowerOnId 4 { int32Values := [1] },
    startsWith hvacTemperatureSetId 1 twentyDegrees,
    startsWith hvacTemperatureSetId 4 twentyDegrees,
    startsWith hvacDualOnId 5 { int32Values := [1] }]

/-- A state in which the temperatures depend on the power of their areas. -/
def cabin : PropertyState where
  mServerSidePropStore := { PropertyStore.Operation.run cabinOps {} with
    mOnValuesChangeCallback := true }
  hvacPowerDependentProps := {hvacTemperatureSetId}

/-- The calls of a start: registrations, and values with the time of the start. -/
inductive IsStart : PropertyStore.Operation → Prop
  | zonesOf {prop : Int} (areaIds : List Int) :
      prop ≠ obd2FreezeFrameId → IsStart (zonesOf prop areaIds)
  | startsWith (prop areaId : Int) (value : RawPropValues) : IsStart (startsWith prop areaId value)

/-- The calls that start a state are calls of the store. -/
theorem IsStart.isStoreCall {op : PropertyStore.Operation} (h : IsStart op)
    (store : VehiclePropertyStore) : IsStoreCall store op := by
  cases h with
  | zonesOf areaIds hprop =>
      refine ⟨Or.inl rfl, ?_⟩
      rintro config tokenFunc ⟨⟩
      exact (if_neg hprop).symm
  | startsWith prop areaId value =>
      refine ⟨trivial, fun config tokenFunc h => ?_⟩
      cases h

/-- After a start no value is later than it. -/
theorem timestamp_of_start {ops : List PropertyStore.Operation} (hops : ∀ op ∈ ops, IsStart op)
    {store : VehiclePropertyStore}
    (h : ∀ propId recId x, store.stored propId recId = some x → x.timestamp ≤ 1) (propId : Int)
    (recId : RecordId) (x : VehiclePropValue)
    (hx : (PropertyStore.Operation.run ops store).stored propId recId = some x) :
    x.timestamp ≤ 1 := by
  induction ops generalizing store with
  | nil => exact h propId recId x hx
  | cons op ops ih =>
      refine ih (fun o ho => hops o (List.mem_cons_of_mem _ ho)) (fun p r y hy => ?_) hx
      cases hops op (List.mem_cons_self ..) with
      | zonesOf areaIds hprop =>
          change (VehiclePropertyStore.registerProperty _ none store).stored p r = some y at hy
          rw [VehiclePropertyStore.registerProperty, stored_withRecord] at hy
          split at hy
          · rw [Finmap.lookup_empty] at hy
            cases hy
          · exact h p r y hy
      | startsWith prop areaId value =>
          change (store.writeValue 1 _ true .onValueChange true).2.2.stored p r = some y at hy
          by_cases hw : store.Writable (stamp 1 true { prop, areaId, value })
          · rw [writeValue_of_writable hw, stored_put hw.registered] at hy
            split at hy
            · cases hy
              exact le_rfl
            · exact h p r y hy
          · obtain ⟨e, he⟩ := writeValue_of_not_writable hw true .onValueChange
            rw [he] at hy
            exact h p r y hy

/-- The store after a start is one that the hardware reaches. -/
theorem reached_of_start {ops : List PropertyStore.Operation} (hops : ∀ op ∈ ops, IsStart op) :
    StoreReached { PropertyStore.Operation.run ops {} with mOnValuesChangeCallback := true } :=
  .setOnValuesChangeCallback (.run .empty fun op hop store => (hops op hop).isStoreCall store)

/-- The calls that set the cabin up start a state. -/
theorem isStart_of_mem_cabinOps : ∀ op ∈ cabinOps, IsStart op := by
  have hpower : hvacPowerOnId ≠ obd2FreezeFrameId := by decide
  have htemp : hvacTemperatureSetId ≠ obd2FreezeFrameId := by decide
  have hdual : hvacDualOnId ≠ obd2FreezeFrameId := by decide
  simp [cabinOps, IsStart.zonesOf _ hpower, IsStart.zonesOf _ htemp, IsStart.zonesOf _ hdual,
    IsStart.startsWith]

theorem cabin_reached : StoreReached cabin.mServerSidePropStore :=
  reached_of_start isStart_of_mem_cabinOps

/-- The dual mode of the cabin is on for one area only. -/
theorem dualOn_cabin_iff (areaId : Int) :
    DualOn cabin.mServerSidePropStore areaId ↔ areaId = 5 := by
  have hread : cabin.readValuesForProperty .still hvacDualOnId = .ok
      [{ timestamp := 1, areaId := 5, prop := hvacDualOnId, value := { int32Values := [1] } }] :=
    rfl
  constructor
  · rintro ⟨recId, x, hstored, rfl, _⟩
    have hmem := (mem_readValues_iff hread x).mpr ⟨recId, hstored⟩
    rw [List.mem_singleton.mp hmem]
  · rintro rfl
    obtain ⟨recId, hstored⟩ := (mem_readValues_iff hread _).mp (List.mem_singleton_self _)
    exact ⟨recId, _, hstored, rfl, rfl⟩

theorem setTemperature_cabin_ok : ∃ after, cabin.setValue .still
    { prop := hvacTemperatureSetId, areaId := 1, value := thirtyDegrees } =
      .ok (.ok (), after) := ⟨_, rfl⟩

/-- Thirty degrees for the left seat are thirty degrees for both. -/
theorem setTemperature_inCabin : ∃ after, cabin.setValue .still
      { prop := hvacTemperatureSetId, areaId := 1, value := thirtyDegrees } =
        .ok (.ok (), after) ∧
    Synchronized 5 (.ofInt 30) cabin.board after.board := by
  obtain ⟨after, hset⟩ := setTemperature_cabin_ok
  refine ⟨after, hset, ?_⟩
  refine (setTemperature_inDualMode cabin_reached rfl rfl rfl hset).1 5 ?_ (by decide) ?_
  · exact (dualOn_cabin_iff 5).mpr rfl
  · exact fun other hother _ => (dualOn_cabin_iff other).mp hother

end Example

end VhalCore.FakeHardware
