import VhalCore.Models.FakeHardware.Interpretation.StatusEffects

/-!
# Switches of the power

A switch of the power decides on the values that depend on it in its area, if they lie in no
other area of the power and nothing else writes their status. A switch in another area, and
every other set, leaves them as the last switch did.
-/

namespace VhalCore.FakeHardware

open PropertyStore VehiclePropertyStore

/-- The switch of the power has a value for an area, and says which of the values that depend on
it are available there. -/
structure Governs (dependents : Finset Int) (store : VehiclePropertyStore)
    (powerAreaId hvacPowerOnVal : Int) : Prop where
  power : PowerIs store powerAreaId hvacPowerOnVal
  status : ∀ propId ∈ dependents, ∀ recId x, store.stored propId recId = some x →
    coversArea powerAreaId x.areaId = true → (x.status = .available ↔ hvacPowerOnVal ≠ 0)

/-- A switch tells every value that depends on it in its area once, unchanged but for the status
and the time, and after these only the switch itself. -/
def TellsDependents (env : Environment) (s : PropertyState) (v : VehiclePropValue)
    (hvacPowerOnVal : Int) (t : PropertyState) : Prop :=
  ∃ (olds : List VehiclePropValue) (own : List ChangeCallback),
    (olds.map VehiclePropValue.propIdAreaId).Nodup ∧
    (∀ x, x ∈ olds ↔ ∃ propId ∈ s.hvacPowerDependentProps, (∃ recId,
      s.mServerSidePropStore.stored propId recId = some x) ∧
      coversArea v.areaId x.areaId = true) ∧
    t.emitted = s.emitted ++ (env.stampFrom s.moments (olds.map (switched hvacPowerOnVal))).map
      (fun w => .onValuesChange [w]) ++ own ∧
    ∀ c ∈ own, ∃ w, c.values = [w] ∧ w.prop = hvacPowerOnId ∧ w.areaId = v.areaId

/-- The properties that depend on the power have areas, each around which there is at most one
area of the power, and no other property writes their status. -/
structure WellPowered (s : PropertyState) : Prop where
  zoned : ∀ propId ∈ s.hvacPowerDependentProps, isGlobalProp propId = false
  power : hvacPowerOnId ∉ s.hvacPowerDependentProps
  adas : ∀ propId ∈ s.hvacPowerDependentProps, ¬IsAdasState propId
  separate : ∀ propId ∈ s.hvacPowerDependentProps, ∀ areaId a b, HasArea s propId areaId →
    HasArea s hvacPowerOnId a → HasArea s hvacPowerOnId b → coversArea a areaId = true →
    coversArea b areaId = true → a = b

/-- Disjoint areas of the power are enough for the areas that have a bit. -/
theorem wellPowered_of_disjoint {s : PropertyState}
    (hzoned : ∀ propId ∈ s.hvacPowerDependentProps, isGlobalProp propId = false)
    (hpower : hvacPowerOnId ∉ s.hvacPowerDependentProps)
    (hadas : ∀ propId ∈ s.hvacPowerDependentProps, ¬IsAdasState propId)
    (hdisjoint : ∀ a b, HasArea s hvacPowerOnId a → HasArea s hvacPowerOnId b → a ≠ b →
      areaBits a &&& areaBits b = 0)
    (hbits : ∀ propId ∈ s.hvacPowerDependentProps, ∀ areaId, HasArea s propId areaId →
      areaBits areaId ≠ 0) : WellPowered s := by
  refine ⟨hzoned, hpower, hadas, fun propId hp areaId a b harea ha hb hcovers hcovers' => ?_⟩
  by_contra hne
  exact hbits propId hp areaId harea
    (areaBits_eq_zero_of_covers hcovers hcovers' (hdisjoint a b ha hb hne))

section Switch

variable {clock : Nat → Int} {env : Environment} {start s t : PropertyState} {v : VehiclePropValue}
variable {hvacPowerOnVal : Int}

/-- The board after a switch of the power. -/
def switchBoard (env : Environment) (s : PropertyState) (v : VehiclePropValue)
    (hvacPowerOnVal : Int) : Board :=
  (s.board.attemptAll (env.stampFrom s.moments
    ((s.powerDependents env v.areaId).map (switched hvacPowerOnVal)))).own env
      (s.moments + (s.powerDependents env v.areaId).length) v

/-- After the writes of a switch its own value can be written. -/
theorem Running.writable_after (h : Running env.clock start s)
    (hzone : isGlobalProp v.prop = false) (harea : HasArea s v.prop v.areaId)
    (us : List VehiclePropValue) :
    (s.board.attemptAll (env.stampFrom s.moments us)).store.Writable
      (env.stamped (s.moments + us.length) v) := by
  have hadv : Advances (env.clock (s.moments + us.length)) s.board.store
      (s.board.attemptAll (env.stampFrom s.moments us)).store := by
    refine Board.attemptAll_advances s.board fun w hw => ?_
    obtain ⟨u, _, i, _, hi, rfl⟩ := Environment.mem_stampFrom hw
    exact env.monotone hi.le
  rw [hadv.writable_iff le_rfl]
  exact h.writable hzone harea (Nat.le_add_right _ _)

/-- The switch is not refused if it does not depend on itself. -/
theorem available_of_not_mem (h : v.prop ∉ s.hvacPowerDependentProps) :
    s.isHvacPropAndHvacNotAvailable env v.prop v.areaId = false := by
  unfold PropertyState.isHvacPropAndHvacNotAvailable
  rw [if_neg h]

/-- A switch of the power in a configured area succeeds. -/
theorem exists_switch (h : Running env.clock start s) (hself : hvacPowerOnId ∉
    s.hvacPowerDependentProps) (hprop : v.prop = hvacPowerOnId)
    (harea : HasArea s v.prop v.areaId) (hints : v.value.int32Values = [hvacPowerOnVal]) :
    ∃ t, s.setValue env v = .ok (.ok (), t) ∧ t.board = switchBoard env s v hvacPowerOnVal := by
  have hzone : isGlobalProp v.prop = false := hprop ▸ isGlobalProp_power
  have havailable : s.isHvacPropAndHvacNotAvailable env v.prop v.areaId = false :=
    available_of_not_mem (hprop ▸ hself)
  have hview := PropertyState.view_setValue env s v h.zoned.valid
  rw [PropertyState.route_zoned hzone, havailable, if_neg Bool.false_ne_true,
    PropertyState.propertyRoute_power hprop hints, PropertyState.powerWrites_eq] at hview
  have hw := h.writable_after hzone harea
    ((s.powerDependents env v.areaId).map (switched hvacPowerOnVal))
  have hrun := Board.write_of_writable hw false .onValueChange
  rcases hset : s.setValue env v with f | ⟨result, t⟩
  · rw [hset] at hview
    cases hview
  · rw [hset] at hview
    have hboth : (result, t.board) = _ := Except.ok.inj hview
    have hresult : result = .ok () := (congrArg Prod.fst hboth).trans (congrArg Prod.fst hrun)
    refine ⟨t, by rw [hresult], (congrArg Prod.snd hboth).trans ?_⟩
    rw [switchBoard, Board.own, List.length_map]

/-- A set of the power that succeeds has one number. -/
theorem ints_of_setValue_ok (hzoned : Zoned s.mServerSidePropStore)
    (hprop : v.prop = hvacPowerOnId) (hset : s.setValue env v = .ok (.ok (), t)) :
    ∃ hvacPowerOnVal, v.value.int32Values = [hvacPowerOnVal] := by
  have hzone : isGlobalProp v.prop = false := hprop ▸ isGlobalProp_power
  rcases PropertyState.run_of_zoned hzoned hzone hset with ⟨_, herror, _⟩ | ⟨_, hrun⟩
  · cases herror
  · rcases hints : v.value.int32Values with _ | ⟨i, _ | ⟨_, _⟩⟩
    case cons.nil => exact ⟨i, rfl⟩
    all_goals
      rw [PropertyState.propertyRoute, hprop, hints] at hrun
      cases hrun

/-- A set of the power is a switch or changes nothing. -/
theorem board_of_setPower (h : Running env.clock start s) (hprop : v.prop = hvacPowerOnId)
    {result : Except SetValueError Unit} (hset : s.setValue env v = .ok (result, t)) :
    t.board = s.board ∨ ∃ hvacPowerOnVal, v.value.int32Values = [hvacPowerOnVal] ∧
      t.board = switchBoard env s v hvacPowerOnVal := by
  generalize hb : t.board = b
  cases hb ▸ PropertyState.powerEffect h.zoned hprop hset with
  | unchanged _ => exact Or.inl rfl
  | @switched i side hints _ hside =>
      refine Or.inr ⟨i, hints, ?_⟩
      rw [switchBoard, hside, PropertyState.powerWrites_eq, List.length_map]

/-- An area whose power is known has a configuration. -/
theorem Running.hasArea_of_powerIs (h : Running clock start s) {powerAreaId : Int}
    (hpower : PowerIs s.mServerSidePropStore powerAreaId hvacPowerOnVal) :
    HasArea start hvacPowerOnId powerAreaId := by
  obtain ⟨x, hx, _⟩ := hpower
  have hkey : powerAreaId = x.areaId := congrArg RecordId.area (h.zoned.key (by decide) hx)
  exact hkey ▸ h.hasArea_of_stored hx

/-- What the write of the value itself tells is of its property and area. -/
theorem exists_own_emitted {b : Board} {k : Nat} (hw : b.store.Writable (env.stamped k v)) :
    ∃ own, (b.own env k v).emitted = b.emitted ++ own ∧
      ∀ c ∈ own, ∃ w, c.values = [w] ∧ w.prop = v.prop ∧ w.areaId = v.areaId := by
  refine ⟨b.store.callbacksOf false .onValueChange (env.stamped k v), ?_, fun c hc => ?_⟩
  · rw [Board.own, Board.write_of_writable hw]
  · exact ⟨_, Board.values_of_mem_callbacksOf hc, rfl, rfl⟩

/-- A switch tells what depends on it. -/
theorem tellsDependents_of_switch (h : Running env.clock start s)
    (hzone : ∀ propId ∈ s.hvacPowerDependentProps, isGlobalProp propId = false)
    (hprop : v.prop = hvacPowerOnId) (harea : HasArea s v.prop v.areaId)
    (hboard : t.board = switchBoard env s v hvacPowerOnVal) :
    TellsDependents env s v hvacPowerOnVal t := by
  have hvzone : isGlobalProp v.prop = false := hprop ▸ isGlobalProp_power
  have hround := h.round_power hzone v.areaId hvacPowerOnVal
  have hw := h.writable_after hvzone harea
    ((s.powerDependents env v.areaId).map (switched hvacPowerOnVal))
  rw [List.length_map] at hw
  obtain ⟨own, hown, htells⟩ := exists_own_emitted hw
  have hemitted := Board.emitted_round (b := s.board) hround h.callback
  have hall : t.emitted = (switchBoard env s v hvacPowerOnVal).emitted :=
    congrArg Board.emitted hboard
  refine ⟨s.powerDependents env v.areaId, own,
    PropertyState.nodup_powerDependents h.zoned hzone v.areaId,
    fun x => PropertyState.mem_powerDependents_iff, ?_, fun c hc => ?_⟩
  · rw [hall, switchBoard, hown, hemitted]
    rfl
  · obtain ⟨w, hvalues, hwprop, hwarea⟩ := htells c hc
    exact ⟨w, hvalues, hwprop.trans hprop, hwarea⟩

variable (hwell : WellPowered start)

include hwell

theorem Running.zone_of_mem (h : Running clock start s) {propId : Int}
    (hp : propId ∈ s.hvacPowerDependentProps) : isGlobalProp propId = false :=
  hwell.zoned propId (h.dependents ▸ hp)

/-- The values of the switch after one of it. -/
theorem stored_power_switch (h : Running env.clock start s) (hprop : v.prop = hvacPowerOnId)
    (harea : HasArea s v.prop v.areaId) (recId : RecordId) :
    (recId = ⟨v.areaId, 0⟩ → ∃ x, (switchBoard env s v hvacPowerOnVal).store.stored hvacPowerOnId
      recId = some x ∧ x.value = v.value) ∧
    (recId ≠ ⟨v.areaId, 0⟩ → (switchBoard env s v hvacPowerOnVal).store.stored hvacPowerOnId
      recId = s.mServerSidePropStore.stored hvacPowerOnId recId) := by
  have hzone : isGlobalProp v.prop = false := hprop ▸ isGlobalProp_power
  have hrewrites := h.rewrites_power (fun p hp => h.zone_of_mem hwell hp) v.areaId hvacPowerOnVal
  have hzoned : Zoned (s.board.attemptAll (env.stampFrom s.moments
      ((s.powerDependents env v.areaId).map (switched hvacPowerOnVal)))).store :=
    Board.zoned_attemptAll h.zoned _
  have hown := stored_own hzoned hzone (h.writable_after hzone harea _) hvacPowerOnId recId
  rw [List.length_map] at hown
  rw [switchBoard, hown, hprop]
  constructor
  · intro hkey
    rw [if_pos ⟨rfl, hkey⟩]
    exact ⟨_, rfl, rfl⟩
  · intro hkey
    rw [if_neg fun hboth => hkey hboth.2]
    refine hrewrites.others hvacPowerOnId recId fun x hx hxprop => ?_
    obtain ⟨p, hp, ⟨r, hstored⟩, _⟩ := PropertyState.mem_powerDependents_iff.mp hx
    obtain rfl := (h.zoned.valid.keyed p r x hstored).1
    rw [hxprop] at hp
    exact absurd (h.dependents ▸ hp) hwell.power

/-- A value of a property that depends on the power, after a switch. -/
theorem stored_switch_cases (h : Running env.clock start s) (hprop : v.prop = hvacPowerOnId)
    {propId : Int} (hp : propId ∈ s.hvacPowerDependentProps) {recId : RecordId}
    {y : VehiclePropValue}
    (hy : (switchBoard env s v hvacPowerOnVal).store.stored propId recId = some y) :
    HasArea start propId y.areaId ∧ coversArea v.areaId y.areaId = true ∧
      (y.status = .available ↔ hvacPowerOnVal ≠ 0) ∨
    s.mServerSidePropStore.stored propId recId = some y ∧
      coversArea v.areaId y.areaId = false := by
  have hne : v.prop ≠ propId := by
    rintro rfl
    exact hwell.power (h.dependents ▸ hprop ▸ hp)
  have hrewrites := h.rewrites_power (fun p hp => h.zone_of_mem hwell hp) v.areaId hvacPowerOnVal
  rw [switchBoard, stored_own_of_ne hne] at hy
  by_cases hkey : ∃ x ∈ s.powerDependents env v.areaId, x.prop = propId ∧ recId = ⟨x.areaId, 0⟩
  · obtain ⟨x, hx, rfl, rfl⟩ := hkey
    obtain ⟨time, hnew⟩ := hrewrites.rewritten x hx
    cases hnew.symm.trans hy
    obtain ⟨p, _, ⟨r, hstored⟩, hcovers⟩ := PropertyState.mem_powerDependents_iff.mp hx
    obtain rfl := (h.zoned.valid.keyed p r x hstored).1
    have harea : HasArea start x.prop x.areaId := h.hasArea_of_stored hstored
    exact Or.inl ⟨harea, hcovers, status_switched hvacPowerOnVal x⟩
  · have hold := hrewrites.others propId recId fun x hx hxprop hr => hkey ⟨x, hx, hxprop, hr⟩
    have hstored : s.mServerSidePropStore.stored propId recId = some y := hold.symm.trans hy
    refine Or.inr ⟨hstored, Bool.eq_false_iff.mpr fun hcovers => hkey ⟨y, ?_, ?_, ?_⟩⟩
    · exact PropertyState.mem_powerDependents_iff.mpr ⟨propId, hp, ⟨recId, hstored⟩, hcovers⟩
    · exact (h.zoned.valid.keyed propId recId y hstored).1
    · exact h.zoned.key (h.zone_of_mem hwell hp) hstored

/-- A switch governs its own area. -/
theorem governs_switch (h : Running env.clock start s) (hprop : v.prop = hvacPowerOnId)
    (harea : HasArea s v.prop v.areaId) (hints : v.value.int32Values = [hvacPowerOnVal]) :
    Governs s.hvacPowerDependentProps (switchBoard env s v hvacPowerOnVal).store v.areaId
      hvacPowerOnVal := by
  refine ⟨?_, fun propId hp recId y hy hcovers => ?_⟩
  · have hown : ∃ x, (switchBoard env s v hvacPowerOnVal).store.stored hvacPowerOnId
        ⟨v.areaId, 0⟩ = some x ∧ x.value = v.value :=
      (stored_power_switch hwell h hprop harea ⟨v.areaId, 0⟩).1 rfl
    obtain ⟨x, hx, hvalue⟩ := hown
    exact ⟨x, hx, by rw [hvalue, hints]⟩
  · rcases stored_switch_cases hwell h hprop hp hy with ⟨_, _, hstatus⟩ | ⟨_, hnot⟩
    · exact hstatus
    · cases hcovers.symm.trans hnot

/-- A switch in another area leaves the area governed as it was. -/
theorem Governs.switch {powerAreaId i : Int}
    (hgoverns : Governs s.hvacPowerDependentProps s.mServerSidePropStore powerAreaId i)
    (h : Running env.clock start s) (hprop : v.prop = hvacPowerOnId)
    (harea : HasArea s v.prop v.areaId) (hother : v.areaId ≠ powerAreaId) :
    Governs s.hvacPowerDependentProps (switchBoard env s v hvacPowerOnVal).store powerAreaId i := by
  have hpower := h.hasArea_of_powerIs hgoverns.power
  obtain ⟨x, hx, hints⟩ := hgoverns.power
  refine ⟨⟨x, ?_, hints⟩, fun propId hp recId y hy hcovers => ?_⟩
  · rw [(stored_power_switch hwell h hprop harea _).2 fun hkey => hother
      (congrArg RecordId.area hkey).symm]
    exact hx
  · rcases stored_switch_cases hwell h hprop hp hy with ⟨hyarea, hvcovers, _⟩ | ⟨hstored, _⟩
    · have hvarea := (h.hasArea_iff _ _).mp harea
      rw [hprop] at hvarea
      exact absurd (hwell.separate propId (h.dependents ▸ hp) y.areaId v.areaId powerAreaId hyarea
        hvarea hpower hvcovers hcovers) hother
    · exact hgoverns.status propId hp recId y hstored hcovers

/-- The power decides on the requests of what depends on it. -/
theorem Running.notAvailable_iff (h : Running clock start s) {propId areaId powerAreaId : Int}
    (hp : propId ∈ s.hvacPowerDependentProps) (harea : HasArea start propId areaId)
    (hpower : PowerIs s.mServerSidePropStore powerAreaId hvacPowerOnVal)
    (hcovers : coversArea powerAreaId areaId = true) (env : Environment) :
    s.isHvacPropAndHvacNotAvailable env propId areaId = true ↔ hvacPowerOnVal = 0 := by
  refine PropertyState.notAvailable_iff hp hpower h.zoned hcovers fun recId x hx hxcovers => ?_
  exact hwell.separate propId (h.dependents ▸ hp) areaId x.areaId powerAreaId harea
    (h.hasArea_of_stored hx) (h.hasArea_of_powerIs hpower) hxcovers hcovers

/-- Another set leaves the area governed as it was. -/
theorem Governs.other {powerAreaId i : Int} {result : Except SetValueError Unit}
    (hgoverns : Governs s.hvacPowerDependentProps s.mServerSidePropStore powerAreaId i)
    (h : Running env.clock start s) (ht : Running env.clock start t)
    (hprop : v.prop ≠ hvacPowerOnId) (hset : s.setValue env v = .ok (result, t)) :
    Governs s.hvacPowerDependentProps t.mServerSidePropStore powerAreaId i := by
  refine ⟨?_, fun propId hp recId y hy hcovers => ?_⟩
  · obtain ⟨x, hx, hints⟩ := hgoverns.power
    have hspares : s.board.Spares hvacPowerOnId t.board :=
      PropertyState.spares_of_setValue h.zoned.valid h.userHal (by decide) (by decide) hprop hprop
        (fun _ => by decide) hset
    exact ⟨x, (hspares.stored _).trans hx, hints⟩
  · have hzone := h.zone_of_mem hwell hp
    have hadas := hwell.adas propId (h.dependents ▸ hp)
    rcases keepsStatus_of_setValue h hzone hadas hprop hset recId y hy with
      ⟨x, hx, hstatus⟩ | ⟨rfl, harea, havailable, hnot⟩
    · have hsame : y.areaId = x.areaId :=
        congrArg RecordId.area ((ht.zoned.key hzone hy).symm.trans (h.zoned.key hzone hx))
      rw [hstatus]
      exact hgoverns.status propId hp recId x hx (hsame ▸ hcovers)
    · have hiff := h.notAvailable_iff hwell hp (harea ▸ ht.hasArea_of_stored hy) hgoverns.power
        (harea ▸ hcovers) env
      rw [hnot] at hiff
      exact iff_of_true havailable fun hzero => Bool.false_ne_true (hiff.mpr hzero)

/-- Every set in a configured area leaves the area governed, by a new value of the switch at
most. -/
theorem Governs.step {powerAreaId i : Int} {result : Except SetValueError Unit}
    (hgoverns : Governs s.hvacPowerDependentProps s.mServerSidePropStore powerAreaId i)
    (h : Running env.clock start s) (ht : Running env.clock start t)
    (harea : HasArea s v.prop v.areaId) (hset : s.setValue env v = .ok (result, t)) :
    ∃ j, Governs s.hvacPowerDependentProps t.mServerSidePropStore powerAreaId j := by
  by_cases hprop : v.prop = hvacPowerOnId
  · rcases board_of_setPower h hprop hset with hsame | ⟨j, hints, hboard⟩
    · have hstore : t.mServerSidePropStore = s.mServerSidePropStore := congrArg Board.store hsame
      exact ⟨i, hstore ▸ hgoverns⟩
    · have hstore : t.mServerSidePropStore = (switchBoard env s v j).store :=
        congrArg Board.store hboard
      rw [hstore]
      by_cases hown : v.areaId = powerAreaId
      · exact ⟨j, hown ▸ governs_switch hwell h hprop harea hints⟩
      · exact ⟨i, hgoverns.switch hwell h hprop harea hown⟩
  · exact ⟨i, hgoverns.other hwell h ht hprop hset⟩

end Switch

end VhalCore.FakeHardware
