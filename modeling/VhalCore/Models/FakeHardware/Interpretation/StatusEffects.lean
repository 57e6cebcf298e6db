import VhalCore.Models.FakeHardware.Interpretation.ClimateEffects

/-!
# The status of values in sets

Of the values with areas, only the switch of the power gives other statuses: it writes every
value that depends on it in its area once, in rounds over the properties. Every other set
keeps the status of what is stored, and a value that is new is available.
-/

namespace VhalCore.FakeHardware

open PropertyStore VehiclePropertyStore

/-- A value with the status that a switch of the power gives. -/
def switched (hvacPowerOnVal : Int) (x : VehiclePropValue) : VehiclePropValue :=
  { x with status := if hvacPowerOnVal = 0 then .unavailable else .available }

/-- A switched value is available exactly if the power is on. -/
theorem status_switched (hvacPowerOnVal : Int) (x : VehiclePropValue) :
    (switched hvacPowerOnVal x).status = .available ↔ hvacPowerOnVal ≠ 0 := by
  unfold switched
  split
  · rename_i hzero
    exact iff_of_false nofun fun h => h hzero
  · rename_i hne
    exact iff_of_true rfl hne

namespace PropertyState

variable (env : Environment) (s : PropertyState)

/-- The stored values of one property that a switch of the power concerns. -/
def powerValues (areaId propId : Int) : List VehiclePropValue :=
  match s.readValuesForProperty env propId with
  | .error _ => []
  | .ok values => values.filter fun v => coversArea areaId v.areaId

/-- The stored values that a switch of the power concerns. -/
def powerDependents (areaId : Int) : List VehiclePropValue :=
  (env.propOrder.visit s.hvacPowerDependentProps).flatMap (s.powerValues env areaId)

/-- Switching the power writes all values that depend on it. -/
theorem powerWrites_eq (areaId hvacPowerOnVal : Int) :
    (env.propOrder.visit s.hvacPowerDependentProps).flatMap
      (s.powerWrites env areaId hvacPowerOnVal) =
      (s.powerDependents env areaId).map (switched hvacPowerOnVal) := by
  rw [powerDependents, List.map_flatMap]
  refine List.flatMap_congr fun propId _ => ?_
  unfold powerWrites powerValues
  rcases s.readValuesForProperty env propId with e | values
  · rfl
  · rfl

variable {env s} {areaId propId : Int} {x : VehiclePropValue}

/-- The values of a property that an area covers. -/
theorem mem_powerValues_iff : x ∈ s.powerValues env areaId propId ↔
    (∃ recId, s.mServerSidePropStore.stored propId recId = some x) ∧
      coversArea areaId x.areaId = true := by
  unfold powerValues
  rcases hread : s.readValuesForProperty env propId with e | values
  · refine iff_of_false List.not_mem_nil ?_
    rintro ⟨⟨recId, hstored⟩, _⟩
    cases (stored_of_readValues_error hread recId).symm.trans hstored
  · rw [List.mem_filter, mem_readValues_iff hread]

/-- The values that depend on the power of an area. -/
theorem mem_powerDependents_iff : x ∈ s.powerDependents env areaId ↔
    ∃ propId ∈ s.hvacPowerDependentProps, (∃ recId,
      s.mServerSidePropStore.stored propId recId = some x) ∧
      coversArea areaId x.areaId = true := by
  rw [powerDependents, List.mem_flatMap]
  exact exists_congr fun propId => and_congr (env.propOrder.mem _ _) mem_powerValues_iff

/-- Every area of a property is concerned once. -/
theorem nodup_powerValues (hzoned : Zoned s.mServerSidePropStore)
    (hzone : isGlobalProp propId = false) (areaId : Int) :
    ((s.powerValues env areaId propId).map VehiclePropValue.propIdAreaId).Nodup := by
  unfold powerValues
  rcases hread : s.readValuesForProperty env propId with e | values
  · exact List.nodup_nil
  · have hareas := (nodup_readValues hzoned hzone hread).sublist
      ((List.filter_sublist (p := fun v => coversArea areaId v.areaId)).map
        VehiclePropValue.areaId)
    rw [show VehiclePropValue.areaId = PropIdAreaId.areaId ∘ VehiclePropValue.propIdAreaId
      from rfl, ← List.map_map] at hareas
    exact hareas.of_map

/-- No two of these values are of one pair. -/
theorem nodup_powerDependents (hzoned : Zoned s.mServerSidePropStore)
    (hzone : ∀ propId ∈ s.hvacPowerDependentProps, isGlobalProp propId = false) (areaId : Int) :
    ((s.powerDependents env areaId).map VehiclePropValue.propIdAreaId).Nodup := by
  have hprop {p : Int} {y : PropIdAreaId}
      (hy : y ∈ (s.powerValues env areaId p).map VehiclePropValue.propIdAreaId) :
      y.propId = p := by
    obtain ⟨x, hx, rfl⟩ := List.mem_map.mp hy
    obtain ⟨⟨recId, hstored⟩, _⟩ := mem_powerValues_iff.mp hx
    exact (hzoned.valid.keyed p recId x hstored).1
  rw [powerDependents, List.map_flatMap, List.nodup_flatMap]
  refine ⟨fun p hp => ?_, (env.propOrder.nodup _).imp fun {p q} hne y hy hy' => ?_⟩
  · exact nodup_powerValues hzoned (hzone p ((env.propOrder.mem _ _).mp hp)) areaId
  · exact hne ((hprop hy).symm.trans (hprop hy'))

end PropertyState

section Power

variable {env : Environment} {start s : PropertyState} {x : VehiclePropValue}

/-- The writes of a switch of the power are a round. -/
theorem Running.round_power (h : Running env.clock start s)
    (hzone : ∀ propId ∈ s.hvacPowerDependentProps, isGlobalProp propId = false)
    (areaId hvacPowerOnVal : Int) : Round s.mServerSidePropStore (env.stampFrom s.moments
      ((s.powerDependents env areaId).map (switched hvacPowerOnVal))) := by
  have hstored {y : VehiclePropValue} (hy : y ∈ s.powerDependents env areaId) :
      y.prop ∈ s.hvacPowerDependentProps ∧
        ∃ recId, s.mServerSidePropStore.stored y.prop recId = some y := by
    obtain ⟨propId, hp, ⟨recId, hrec⟩, _⟩ := PropertyState.mem_powerDependents_iff.mp hy
    rw [(h.zoned.valid.keyed propId recId y hrec).1]
    exact ⟨hp, recId, hrec⟩
  refine round_of_stored (b := s.board) h.zoned (fun _ => rfl) (fun y hy => hzone _ (hstored hy).1)
    (fun y hy => (hstored hy).2) (fun y hy => ?_)
    (PropertyState.nodup_powerDependents h.zoned hzone areaId)
  obtain ⟨recId, hrec⟩ := (hstored hy).2
  exact h.timely _ recId y hrec

/-- A switch of the power gives its status to all values that depend on it in its area. -/
theorem Running.rewrites_power (h : Running env.clock start s)
    (hzone : ∀ propId ∈ s.hvacPowerDependentProps, isGlobalProp propId = false)
    (areaId hvacPowerOnVal : Int) :
    Rewrites (switched hvacPowerOnVal) (s.powerDependents env areaId) s.board
      (s.board.attemptAll (env.stampFrom s.moments
        ((s.powerDependents env areaId).map (switched hvacPowerOnVal)))) :=
  rewrites_attemptAll h.zoned h.callback (fun _ => rfl) (h.round_power hzone areaId hvacPowerOnVal)

end Power

/-- A set leaves the statuses of a property: what is stored has the status that it had, or is
new, available and of the request. -/
def KeepsStatus (env : Environment) (s : PropertyState) (v : VehiclePropValue) (propId : Int)
    (after : VehiclePropertyStore) : Prop :=
  ∀ recId y, after.stored propId recId = some y →
    (∃ x, s.mServerSidePropStore.stored propId recId = some x ∧ y.status = x.status) ∨
    v.prop = propId ∧ y.areaId = v.areaId ∧ y.status = .available ∧
      s.isHvacPropAndHvacNotAvailable env v.prop v.areaId = false

section Status

variable {env : Environment} {start s t : PropertyState} {v : VehiclePropValue} {b : Board}
variable {propId : Int}

theorem keepsStatus_of_stored {after : VehiclePropertyStore}
    (h : ∀ recId, after.stored propId recId = s.mServerSidePropStore.stored propId recId) :
    KeepsStatus env s v propId after :=
  fun recId y hy => Or.inl ⟨y, (h recId).symm.trans hy, rfl⟩

/-- The write of the value itself leaves the statuses. -/
theorem keepsStatus_own {k : Nat}
    (havailable : s.isHvacPropAndHvacNotAvailable env v.prop v.areaId = false)
    (h : ∀ recId, b.store.stored propId recId = s.mServerSidePropStore.stored propId recId) :
    KeepsStatus env s v propId (b.own env k v).store := by
  intro recId y hy
  rcases stored_own_cases hy with hold | ⟨rfl, rfl⟩
  · exact Or.inl ⟨y, (h recId).symm.trans hold, rfl⟩
  · rw [h]
    rcases hx : s.mServerSidePropStore.stored v.prop recId with _ | x
    · exact Or.inr ⟨rfl, rfl, rfl, havailable⟩
    · exact Or.inl ⟨x, rfl, rfl⟩

/-- New temperatures have the status of the old ones. -/
theorem keepsStatus_rewrites {temp : Binary32} {xs : List VehiclePropValue}
    (h : Rewrites (setTemp temp) xs s.board b)
    (hstored : ∀ x ∈ xs, s.mServerSidePropStore.stored x.prop ⟨x.areaId, 0⟩ = some x) :
    KeepsStatus env s v propId b.store := by
  intro recId y hy
  by_cases hkey : ∃ x ∈ xs, x.prop = propId ∧ recId = ⟨x.areaId, 0⟩
  · obtain ⟨x, hx, rfl, rfl⟩ := hkey
    obtain ⟨time, hnew⟩ := h.rewritten x hx
    cases hnew.symm.trans hy
    exact Or.inl ⟨x, hstored x hx, rfl⟩
  · have hold := h.others propId recId fun x hx hprop hr => hkey ⟨x, hx, hprop, hr⟩
    exact Or.inl ⟨y, hold.symm.trans hy, rfl⟩

/-- A request for a temperature keeps the status of all values. -/
theorem TemperatureEffect.keepsStatus (h : TemperatureEffect env s v b)
    (hzoned : Zoned s.mServerSidePropStore) : KeepsStatus env s v propId b.store := by
  cases h with
  | unchanged => exact keepsStatus_of_stored fun _ => rfl
  | alone havailable _ => exact keepsStatus_own havailable fun _ => rfl
  | synchronized _ _ hread hrewrites _ =>
      exact keepsStatus_rewrites hrewrites fun x hx => (stored_of_mem_syncTargets hzoned hread hx).2

/-- A request for the dual mode keeps the status of all values. -/
theorem DualEffect.keepsStatus (h : DualEffect env s v b) (hprop : v.prop = hvacDualOnId)
    (hzoned : Zoned s.mServerSidePropStore) : KeepsStatus env s v propId b.store := by
  cases h with
  | unchanged => exact keepsStatus_of_stored fun _ => rfl
  | alone havailable _ => exact keepsStatus_own havailable fun _ => rfl
  | @synchronized c k temp values xs first havailable hread htargets _ hrewrites _ =>
      have hxs (x : VehiclePropValue) (hx : x ∈ xs) :=
        stored_of_mem_syncTargets hzoned hread (htargets ▸ List.mem_cons_of_mem first hx)
      by_cases hown : v.prop = propId
      · refine keepsStatus_own havailable fun recId => ?_
        exact hrewrites.other_prop (fun x hx => (hxs x hx).1) (by rw [← hown, hprop]; decide) recId
      · intro recId y hy
        rw [stored_own_of_ne hown] at hy
        exact keepsStatus_rewrites hrewrites (fun x hx => (hxs x hx).2) recId y hy

/-- A set that is not one of the power keeps the statuses of a property with areas. -/
theorem keepsStatus_of_setValue {result : Except SetValueError Unit}
    (hrunning : Running env.clock start s) (hzone : isGlobalProp propId = false)
    (hadas : ¬IsAdasState propId) (hpower : v.prop ≠ hvacPowerOnId)
    (hset : s.setValue env v = .ok (result, t)) :
    KeepsStatus env s v propId t.mServerSidePropStore := by
  by_cases hdual : v.prop = hvacDualOnId
  · exact (PropertyState.dualEffect hrunning hdual hset).keepsStatus hdual hrunning.zoned
  · by_cases hown : v.prop = propId
    · by_cases htemp : v.prop = hvacTemperatureSetId
      · exact (PropertyState.temperatureEffect hrunning htemp hset).keepsStatus hrunning.zoned
      · rcases PropertyState.run_of_zoned hrunning.zoned (hown ▸ hzone) hset with
          ⟨_, _, hsame⟩ | ⟨havailable, hrun⟩
        · exact keepsStatus_of_stored fun _ => congrArg (fun b : Board => b.store.stored _ _) hsame
        · rw [PropertyState.propertyRoute_zoned (hown ▸ hzone) hpower htemp hdual] at hrun
          have hboard : t.board = s.board.own env s.moments v := run_plain_board hrun
          have hstore := congrArg Board.store hboard
          change KeepsStatus env s v propId t.board.store
          rw [hstore]
          exact keepsStatus_own havailable fun _ => rfl
    · have hspares := PropertyState.spares_of_setValue hrunning.zoned.valid hrunning.userHal hzone
        hadas hown hpower (fun h => absurd h hdual) hset
      exact keepsStatus_of_stored hspares.stored

end Status

end VhalCore.FakeHardware
