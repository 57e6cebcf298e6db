import VhalCore.Models.FakeHardware.Interpretation.ClimateRoutes
import VhalCore.Models.FakeHardware.Interpretation.SetInvariant

/-!
# What a set of the climate leaves

For the switch of the power, the temperature and the dual mode, the board after a set is told
from the state before it. Nothing stored is after the current moment, so no write of a stored
value fails.
-/

namespace VhalCore.FakeHardware

open PropertyStore VehiclePropertyStore

/-- The board after the write of a value itself, at some moment of the call. -/
def Board.own (env : Environment) (k : Nat) (v : VehiclePropValue) (b : Board) : Board :=
  (b.write (env.stamped k v) false .onValueChange).2

/-- What a set of a temperature leaves. -/
inductive TemperatureEffect (env : Environment) (s : PropertyState) (v : VehiclePropValue) :
    Board → Prop
  | unchanged : TemperatureEffect env s v s.board
  | alone : s.isHvacPropAndHvacNotAvailable env v.prop v.areaId = false →
      (∀ dualAreaId, DualOn s.mServerSidePropStore dualAreaId →
        ¬coversArea dualAreaId v.areaId = true) →
      TemperatureEffect env s v (s.board.own env s.moments v)
  | synchronized {b : Board} {temp : Binary32} {dualAreaId : Int}
      {values : List VehiclePropValue} : DualOn s.mServerSidePropStore dualAreaId →
      coversArea dualAreaId v.areaId = true →
      s.readValuesForProperty env hvacTemperatureSetId = .ok values →
      Rewrites (setTemp temp) (syncTargets dualAreaId values) s.board b →
      (∀ x ∈ syncTargets dualAreaId values, x.value.floatValues ≠ []) →
      TemperatureEffect env s v b

/-- What a set of the dual mode leaves. -/
inductive DualEffect (env : Environment) (s : PropertyState) (v : VehiclePropValue) :
    Board → Prop
  | unchanged : DualEffect env s v s.board
  | alone : s.isHvacPropAndHvacNotAvailable env v.prop v.areaId = false →
      (v.value.int32Values = [1] → ∀ recId x,
        s.mServerSidePropStore.stored hvacTemperatureSetId recId = some x →
        coversArea v.areaId x.areaId = true → x.status ≠ .available) →
      DualEffect env s v (s.board.own env s.moments v)
  | synchronized {b : Board} {k : Nat} {temp : Binary32} {values xs : List VehiclePropValue}
      {first : VehiclePropValue} :
      s.isHvacPropAndHvacNotAvailable env v.prop v.areaId = false →
      s.readValuesForProperty env hvacTemperatureSetId = .ok values →
      syncTargets v.areaId values = first :: xs → first.value.floatValues.head? = some temp →
      Rewrites (setTemp temp) xs s.board b → (∀ x ∈ xs, x.value.floatValues ≠ []) →
      DualEffect env s v (b.own env k v)

/-- What a set of the power leaves. -/
inductive PowerEffect (env : Environment) (s : PropertyState) (v : VehiclePropValue) :
    Board → Prop
  | unchanged : (∀ hvacPowerOnVal, v.value.int32Values = [hvacPowerOnVal] →
      s.isHvacPropAndHvacNotAvailable env v.prop v.areaId = true) →
      PowerEffect env s v s.board
  | switched {hvacPowerOnVal : Int} {side : List VehiclePropValue} :
      v.value.int32Values = [hvacPowerOnVal] →
      s.isHvacPropAndHvacNotAvailable env v.prop v.areaId = false →
      side = (env.propOrder.visit s.hvacPowerDependentProps).flatMap
        (s.powerWrites env v.areaId hvacPowerOnVal) →
      PowerEffect env s v ((s.board.attemptAll (env.stampFrom s.moments side)).own env
        (s.moments + side.length) v)

section Own

variable {env : Environment} {start s : PropertyState} {v : VehiclePropValue} {b : Board}

/-- A value of a configured area can be written at any later moment. -/
theorem Running.writable (h : Running env.clock start s) (hzone : isGlobalProp v.prop = false)
    (harea : HasArea s v.prop v.areaId) {k : Nat} (hk : s.moments ≤ k) :
    s.mServerSidePropStore.Writable (env.stamped k v) := by
  refine ⟨harea.registered, harea.configured, ?_⟩
  rintro ⟨old, hold, hlt⟩
  have hid : s.mServerSidePropStore.recordIdOf (env.stamped k v) = some ⟨v.areaId, 0⟩ :=
    h.zoned.recordIdOf_eq harea.registered hzone
  rw [storedFor, hid, Option.bind_some] at hold
  have hle := (h.timely _ _ _ hold).trans (env.monotone hk)
  exact absurd hlt (not_lt.mpr hle)

/-- The own record takes the value, with the status that it had. -/
theorem stored_own (hzoned : Zoned b.store) (hzone : isGlobalProp v.prop = false) {k : Nat}
    (hw : b.store.Writable (env.stamped k v)) (propId : Int) (recId : RecordId) :
    (b.own env k v).store.stored propId recId =
      if propId = v.prop ∧ recId = ⟨v.areaId, 0⟩ then some { v with
        timestamp := env.clock k
        status := writtenStatus false v (b.store.stored v.prop ⟨v.areaId, 0⟩) }
      else b.store.stored propId recId := by
  have hid : b.store.recordIdOf (env.stamped k v) = some ⟨v.areaId, 0⟩ :=
    hzoned.recordIdOf_eq hw.registered hzone
  rw [Board.own, Board.stored_write (w := env.stamped k v) hzoned hzone hw, written, storedFor, hid]
  rfl

/-- A value that is stored after the own write was stored before, or is the own one with the
status of its record. -/
theorem stored_own_cases {k : Nat} {propId : Int} {recId : RecordId} {y : VehiclePropValue}
    (h : (b.own env k v).store.stored propId recId = some y) :
    b.store.stored propId recId = some y ∨ propId = v.prop ∧ y = { v with
      timestamp := env.clock k
      status := writtenStatus false v (b.store.stored v.prop recId) } := by
  by_cases hw : b.store.Writable (env.stamped k v)
  · rw [Board.own, Board.write_of_writable hw, stored_put hw.registered] at h
    split at h
    · rename_i hkey
      cases h
      refine Or.inr ⟨hkey.1, ?_⟩
      rw [written, storedFor, hkey.2, Option.bind_some]
      rfl
    · exact Or.inl h
  · obtain ⟨e, he⟩ := Board.write_of_not_writable hw false .onValueChange
    rw [Board.own, he] at h
    exact Or.inl h

/-- The own write leaves other properties. -/
theorem stored_own_of_ne {k : Nat} {propId : Int} (hne : v.prop ≠ propId) (recId : RecordId) :
    (b.own env k v).store.stored propId recId = b.store.stored propId recId := by
  rw [VehiclePropertyStore.stored, VehiclePropertyStore.stored, Board.own,
    Board.getRecordLocked_write_of_ne (w := env.stamped k v) hne]

/-- A value that is stored after some attempts was stored before or is one of them. -/
theorem stored_attemptAll_cases {ws : List VehiclePropValue} {propId : Int} {recId : RecordId}
    {y : VehiclePropValue} (h : (b.attemptAll ws).store.stored propId recId = some y) :
    b.store.stored propId recId = some y ∨ y ∈ ws ∧ y.prop = propId := by
  induction ws generalizing b with
  | nil => exact Or.inl h
  | cons w ws ih =>
      rcases ih h with hfirst | ⟨hmem, hprop⟩
      · by_cases hw : b.store.Writable w
        · rw [Board.write_of_writable hw, stored_put hw.registered] at hfirst
          split at hfirst
          · rename_i hkey
            cases hfirst
            exact Or.inr ⟨List.mem_cons_self .., hkey.1.symm⟩
          · exact Or.inl hfirst
        · obtain ⟨e, he⟩ := Board.write_of_not_writable hw true .always
          rw [he] at hfirst
          exact Or.inl hfirst
      · exact Or.inr ⟨List.mem_cons_of_mem _ hmem, hprop⟩

end Own

/-- A route that ends with the value itself leaves what its own write leaves. -/
theorem run_plain_board {side : List VehiclePropValue} {w : VehiclePropValue} {b c : Board}
    {result : Except SetValueError Unit}
    (h : (Route.plain side w).run b = .ok (result, c)) :
    c = ((b.attemptAll side).write w false .onValueChange).2 :=
  (congrArg Prod.snd (Except.ok.inj h)).symm

theorem run_refused_board {e : SetValueError} {b c : Board} {result : Except SetValueError Unit}
    (h : (Route.refused e).run b = .ok (result, c)) : c = b :=
  (congrArg Prod.snd (Except.ok.inj h)).symm

namespace PropertyState

variable {env : Environment} {start s t : PropertyState} {v : VehiclePropValue}
variable {result : Except SetValueError Unit}

/-- A set of a property with areas runs the route of the property, unless it is refused. -/
theorem run_of_zoned (hzoned : Zoned s.mServerSidePropStore) (hzone : isGlobalProp v.prop = false)
    (hset : s.setValue env v = .ok (result, t)) :
    (s.isHvacPropAndHvacNotAvailable env v.prop v.areaId = true ∧
      result = .error .hvacNotAvailable ∧ t.board = s.board) ∨
    s.isHvacPropAndHvacNotAvailable env v.prop v.areaId = false ∧
      (s.propertyRoute env v).run s.board = .ok (result, t.board) := by
  have hview := view_setValue env s v hzoned.valid
  rw [hset, route_zoned hzone] at hview
  rcases havailable : s.isHvacPropAndHvacNotAvailable env v.prop v.areaId
  · rw [havailable] at hview
    exact Or.inr ⟨rfl, hview.symm⟩
  · rw [havailable] at hview
    have hpair := Prod.mk.inj (Except.ok.inj hview)
    exact Or.inl ⟨rfl, hpair.1, hpair.2⟩

/-- What a request for a temperature does. -/
theorem temperatureEffect (hrunning : Running env.clock start s)
    (hprop : v.prop = hvacTemperatureSetId) (hset : s.setValue env v = .ok (result, t)) :
    TemperatureEffect env s v t.board := by
  have hzone : isGlobalProp v.prop = false := hprop ▸ isGlobalProp_temperature
  rcases run_of_zoned hrunning.zoned hzone hset with ⟨_, _, hsame⟩ | ⟨havailable, hrun⟩
  · rw [hsame]
    exact .unchanged
  · rcases hfloats : v.value.floatValues with _ | ⟨temp, _ | ⟨_, _⟩⟩
    case cons.nil =>
      rw [propertyRoute_temperature hprop hfloats] at hrun
      unfold temperatureRoute at hrun
      rcases hsynced : s.getSyncedAreaIdIfHvacDualOn env v.areaId with _ | dualAreaId
      · rw [hsynced] at hrun
        rw [run_plain_board hrun]
        exact .alone havailable fun d hd => not_dualOn_of_getSynced hsynced hd
      · rw [hsynced] at hrun
        obtain ⟨hdual, hcovers⟩ := dualOn_of_getSynced hsynced
        rcases hread : s.readValuesForProperty env hvacTemperatureSetId with e | values
        · rw [hread] at hrun
          rw [run_refused_board hrun]
          exact .unchanged
        · simp only [hread] at hrun
          rcases hws : s.syncWrites env dualAreaId (some temp) values with f | rs
          · rw [hws] at hrun
            cases hrun
          · rw [hws] at hrun
            obtain ⟨hall, hrewrites, hplaces⟩ := rewrites_of_reached hrunning.zoned
              hrunning.callback hread (List.Sublist.refl _) hws
              (Or.inr (hrunning.timely hvacTemperatureSetId))
            have hboard : t.board = s.board.attemptAll rs :=
              congrArg Prod.snd ((Except.ok.inj hrun).symm.trans hall)
            rw [hboard]
            exact .synchronized hdual hcovers hread hrewrites hplaces
    all_goals
      rw [propertyRoute, hprop, hfloats] at hrun
      rw [run_refused_board hrun]
      exact .unchanged

/-- What a request for the dual mode does. -/
theorem dualEffect (hrunning : Running env.clock start s) (hprop : v.prop = hvacDualOnId)
    (hset : s.setValue env v = .ok (result, t)) : DualEffect env s v t.board := by
  have hzone : isGlobalProp v.prop = false := hprop ▸ isGlobalProp_dual
  rcases run_of_zoned hrunning.zoned hzone hset with ⟨_, _, hsame⟩ | ⟨havailable, hrun⟩
  · rw [hsame]
    exact .unchanged
  · by_cases hone : v.value.int32Values = [1]
    · rw [propertyRoute_dual hprop hone] at hrun
      unfold dualRoute at hrun
      rcases hread : s.readValuesForProperty env hvacTemperatureSetId with e | values
      · rw [hread] at hrun
        rw [run_plain_board hrun]
        refine .alone havailable fun _ recId x hx => ?_
        cases (stored_of_readValues_error hread recId).symm.trans hx
      · simp only [hread] at hrun
        rcases htargets : syncTargets v.areaId values with _ | ⟨first, xs⟩
        · simp only [syncWrites, htargets] at hrun
          rw [run_plain_board hrun]
          refine .alone havailable fun _ recId x hx hcovers hstatus => ?_
          have hmem := (mem_syncTargets_iff x).mpr
            ⟨(mem_readValues_iff hread x).mpr ⟨recId, hx⟩, hcovers, hstatus⟩
          rw [htargets] at hmem
          cases hmem
        · rcases hfloats : first.value.floatValues with _ | ⟨temp, rest⟩
          · simp only [syncWrites, htargets, hfloats] at hrun
            cases hrun
          · have helement : elementAt (temp :: rest) 0 = .ok temp := rfl
            simp only [syncWrites, htargets, hfloats, helement, bind, Except.bind] at hrun
            rcases hreached : reached s.mServerSidePropStore
              (env.stampFrom s.moments (xs.map (setTemp temp))) with f | rs
            · rw [hreached] at hrun
              cases hrun
            · rw [hreached] at hrun
              obtain ⟨_, hrewrites, hplaces⟩ := rewrites_of_reached hrunning.zoned
                hrunning.callback hread (htargets ▸ List.sublist_cons_self first xs) hreached
                (Or.inr (hrunning.timely hvacTemperatureSetId))
              rw [run_plain_board hrun]
              exact .synchronized havailable hread htargets (by rw [hfloats]; rfl) hrewrites
                hplaces
    · rcases propertyRoute_dual_off hprop hone with hplain | hrefused
      · rw [hplain] at hrun
        rw [run_plain_board hrun]
        exact .alone havailable fun h => absurd h hone
      · rw [hrefused] at hrun
        rw [run_refused_board hrun]
        exact .unchanged

/-- What a request for the power does. -/
theorem powerEffect (hzoned : Zoned s.mServerSidePropStore) (hprop : v.prop = hvacPowerOnId)
    (hset : s.setValue env v = .ok (result, t)) : PowerEffect env s v t.board := by
  have hzone : isGlobalProp v.prop = false := hprop ▸ isGlobalProp_power
  rcases run_of_zoned hzoned hzone hset with ⟨hnot, _, hsame⟩ | ⟨havailable, hrun⟩
  · rw [hsame]
    exact .unchanged fun _ _ => hnot
  · rcases hints : v.value.int32Values with _ | ⟨i, _ | ⟨_, _⟩⟩
    case cons.nil =>
      rw [propertyRoute_power hprop hints] at hrun
      rw [run_plain_board hrun]
      exact .switched hints havailable rfl
    all_goals
      rw [propertyRoute, hprop, hints] at hrun
      rw [run_refused_board hrun]
      exact .unchanged fun i h => by cases hints.symm.trans h

end PropertyState

end VhalCore.FakeHardware
