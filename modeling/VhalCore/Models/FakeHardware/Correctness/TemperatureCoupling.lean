import VhalCore.Core.Execution
import VhalCore.Models.FakeHardware.Correctness.DualTemperature
import VhalCore.Models.FakeHardware.Interpretation.StatusEffects

/-!
# Temperatures in dual mode

While the dual mode is on, the available temperatures of its area should be equal. They are
made equal when the mode is switched on and when a temperature is set, and unavailable ones
are left out at both occasions. A switch of the power makes a temperature available again as
it was left: the temperatures stay equal in every run in which it agrees then with those
around it.
-/

namespace VhalCore.FakeHardware

open PropertyStore VehiclePropertyStore

/-- Where the dual mode is on, all available temperatures are equal. -/
def Coupled (store : VehiclePropertyStore) : Prop :=
  ∀ dualAreaId, DualOn store dualAreaId → ∀ r x r' y, IsTarget store dualAreaId r x →
    IsTarget store dualAreaId r' y → x.value.floatValues.head? = y.value.floatValues.head?

/-- A temperature in an area of the dual mode that is available, or will be after the power is
switched on in some area. -/
structure Joins (s : PropertyState) (powerAreaId dualAreaId : Int) (x : VehiclePropValue) :
    Prop where
  stored : ∃ recId, s.mServerSidePropStore.stored hvacTemperatureSetId recId = some x
  covered : coversArea dualAreaId x.areaId = true
  available : x.status = .available ∨ hvacTemperatureSetId ∈ s.hvacPowerDependentProps ∧
    coversArea powerAreaId x.areaId = true

/-- If the set switches the power on, the temperatures that are then available are equal where
the dual mode is on. -/
def RejoinsEqual (env : Environment) (s : PropertyState) (v : VehiclePropValue) : Prop :=
  v.prop = hvacPowerOnId → s.isHvacPropAndHvacNotAvailable env v.prop v.areaId = false →
    ∀ hvacPowerOnVal, v.value.int32Values = [hvacPowerOnVal] → hvacPowerOnVal ≠ 0 →
    ∀ dualAreaId, DualOn s.mServerSidePropStore dualAreaId → ∀ x y,
      Joins s v.areaId dualAreaId x → Joins s v.areaId dualAreaId y →
      x.value.floatValues.head? = y.value.floatValues.head?

/-- No area with a temperature lies in two dual areas. -/
def Separate (s : PropertyState) : Prop :=
  ∀ areaId a b, HasArea s hvacTemperatureSetId areaId → HasArea s hvacDualOnId a →
    HasArea s hvacDualOnId b → coversArea a areaId = true → coversArea b areaId = true → a = b

/-- A set of the power, of the dual mode or of a temperature. -/
structure ClimateStep (env : Environment) (s : PropertyState) (v : VehiclePropValue)
    (t : PropertyState) : Prop extends SetStep env s v t where
  prop : v.prop = hvacPowerOnId ∨ v.prop = hvacDualOnId ∨ v.prop = hvacTemperatureSetId

/-- Disjoint dual areas have no area with a bit in common. -/
theorem separate_of_disjoint {s : PropertyState}
    (hdisjoint : ∀ a b, HasArea s hvacDualOnId a → HasArea s hvacDualOnId b → a ≠ b →
      areaBits a &&& areaBits b = 0)
    (hbits : ∀ areaId, HasArea s hvacTemperatureSetId areaId → areaBits areaId ≠ 0) :
    Separate s := by
  intro areaId a b harea ha hb hcovers hcovers'
  by_contra hne
  exact hbits areaId harea (areaBits_eq_zero_of_covers hcovers hcovers' (hdisjoint a b ha hb hne))

section Synchronisation

variable {env : Environment} {start s : PropertyState} {b : Board} {dualAreaId : Int}
variable {temp : Binary32} {values xs : List VehiclePropValue}

/-- The values that a synchronisation concerns are temperatures of its area. -/
theorem covered_of_mem_syncTargets (hrunning : Running env.clock start s)
    (hread : s.readValuesForProperty env hvacTemperatureSetId = .ok values)
    {x : VehiclePropValue} (hx : x ∈ syncTargets dualAreaId values) :
    x.prop = hvacTemperatureSetId ∧ coversArea dualAreaId x.areaId = true ∧
      HasArea start hvacTemperatureSetId x.areaId := by
  obtain ⟨hprop, hstored⟩ := stored_of_mem_syncTargets hrunning.zoned hread hx
  rw [hprop] at hstored
  exact ⟨hprop, ((mem_syncTargets_iff x).mp hx).2.1, hrunning.hasArea_of_stored hstored⟩

/-- After a synchronisation all available temperatures of the area are the one. -/
theorem head_of_rewrites (hrunning : Running env.clock start s)
    (hread : s.readValuesForProperty env hvacTemperatureSetId = .ok values)
    (hrewrites : Rewrites (setTemp temp) xs s.board b)
    (hplaces : ∀ x ∈ xs, x.value.floatValues ≠ [])
    (hsub : ∀ x ∈ xs, x ∈ syncTargets dualAreaId values)
    (hrest : ∀ x ∈ syncTargets dualAreaId values, x ∈ xs ∨ x.value.floatValues.head? = some temp)
    {r : RecordId} {y : VehiclePropValue} (hy : IsTarget b.store dualAreaId r y) :
    y.value.floatValues.head? = some temp := by
  by_cases hkey : ∃ x ∈ xs, r = ⟨x.areaId, 0⟩
  · obtain ⟨x, hx, rfl⟩ := hkey
    obtain ⟨t, ht⟩ := hrewrites.rewritten x hx
    rw [(covered_of_mem_syncTargets hrunning hread (hsub x hx)).1] at ht
    cases ht.symm.trans hy.stored
    obtain ⟨f, fs, hfloats⟩ := List.exists_cons_of_ne_nil (hplaces x hx)
    simp only [setTemp, hfloats, List.set_cons_zero, List.head?_cons]
  · have hold := hrewrites.others hvacTemperatureSetId r fun x hx _ hr => hkey ⟨x, hx, hr⟩
    have hstored : s.mServerSidePropStore.stored hvacTemperatureSetId r = some y :=
      hold.symm.trans hy.stored
    have hmem := (mem_syncTargets_iff y).mpr
      ⟨(mem_readValues_iff hread y).mpr ⟨r, hstored⟩, hy.covered, hy.available⟩
    rcases hrest y hmem with hx | hhead
    · exact absurd ⟨y, hx, hrunning.zoned.key (by decide) hstored⟩ hkey
    · exact hhead

/-- A synchronisation leaves the temperatures of other dual areas. -/
theorem isTarget_of_rewrites (hrunning : Running env.clock start s) (hseparate : Separate start)
    (hread : s.readValuesForProperty env hvacTemperatureSetId = .ok values)
    (hrewrites : Rewrites (setTemp temp) xs s.board b)
    (hsub : ∀ x ∈ xs, x ∈ syncTargets dualAreaId values)
    (harea : HasArea start hvacDualOnId dualAreaId) {other : Int}
    (hother : HasArea start hvacDualOnId other) (hne : other ≠ dualAreaId) {r : RecordId}
    {y : VehiclePropValue} (hy : IsTarget b.store other r y) :
    IsTarget s.mServerSidePropStore other r y := by
  by_cases hkey : ∃ x ∈ xs, r = ⟨x.areaId, 0⟩
  · obtain ⟨x, hx, rfl⟩ := hkey
    obtain ⟨hprop, hcovers, htemp⟩ := covered_of_mem_syncTargets hrunning hread (hsub x hx)
    obtain ⟨t, ht⟩ := hrewrites.rewritten x hx
    rw [hprop] at ht
    cases ht.symm.trans hy.stored
    exact absurd (hseparate x.areaId other dualAreaId htemp hother harea hy.covered hcovers) hne
  · have hold := hrewrites.others hvacTemperatureSetId r fun x hx _ hr => hkey ⟨x, hx, hr⟩
    exact ⟨hold.symm.trans hy.stored, hy.covered, hy.available⟩

/-- A synchronisation of an area keeps all areas coupled, also if the dual mode is switched on
for it. -/
theorem coupled_of_rewrites (hrunning : Running env.clock start s) (hseparate : Separate start)
    (hcoupled : Coupled s.mServerSidePropStore)
    (hread : s.readValuesForProperty env hvacTemperatureSetId = .ok values)
    (hrewrites : Rewrites (setTemp temp) xs s.board b)
    (hplaces : ∀ x ∈ xs, x.value.floatValues ≠ [])
    (hsub : ∀ x ∈ xs, x ∈ syncTargets dualAreaId values)
    (hrest : ∀ x ∈ syncTargets dualAreaId values, x ∈ xs ∨ x.value.floatValues.head? = some temp)
    (harea : HasArea start hvacDualOnId dualAreaId) {after : VehiclePropertyStore}
    (htemp : ∀ r, after.stored hvacTemperatureSetId r = b.store.stored hvacTemperatureSetId r)
    (hdual : ∀ d, DualOn after d → d = dualAreaId ∨ DualOn s.mServerSidePropStore d) :
    Coupled after := by
  have htarget {d : Int} {r : RecordId} {y : VehiclePropValue} (hy : IsTarget after d r y) :
      IsTarget b.store d r y := ⟨(htemp r).symm.trans hy.stored, hy.covered, hy.available⟩
  intro d hd r x r' y hx hy
  by_cases hsame : d = dualAreaId
  · subst hsame
    have hhead {r : RecordId} {z : VehiclePropValue} (hz : IsTarget after d r z) :=
      head_of_rewrites hrunning hread hrewrites hplaces hsub hrest (htarget hz)
    rw [hhead hx, hhead hy]
  · have hon := (hdual d hd).resolve_left hsame
    obtain ⟨recId, z, hz, rfl, hone⟩ := hon
    have hother := hrunning.hasArea_of_stored hz
    have hold {r : RecordId} {y : VehiclePropValue} (hy : IsTarget after z.areaId r y) :=
      isTarget_of_rewrites hrunning hseparate hread hrewrites hsub harea hother hsame (htarget hy)
    exact hcoupled z.areaId ⟨recId, z, hz, rfl, hone⟩ r x r' y (hold hx) (hold hy)

end Synchronisation

section Steps

variable {env : Environment} {start s t : PropertyState} {v : VehiclePropValue} {b : Board}

/-- A set of a temperature. -/
theorem TemperatureEffect.coupled (h : TemperatureEffect env s v b)
    (hrunning : Running env.clock start s) (hseparate : Separate start)
    (hcoupled : Coupled s.mServerSidePropStore) (hprop : v.prop = hvacTemperatureSetId) :
    Coupled b.store := by
  cases h with
  | unchanged => exact hcoupled
  | alone havailable hnone =>
      intro d hd r x r' y hx hy
      obtain ⟨recId, z, hz, rfl, hone⟩ := hd
      rw [stored_own_of_ne (by rw [hprop]; decide)] at hz
      have hon : DualOn s.mServerSidePropStore z.areaId := ⟨recId, z, hz, rfl, hone⟩
      have hold {r : RecordId} {y : VehiclePropValue}
          (hy : IsTarget (s.board.own env s.moments v).store z.areaId r y) :
          IsTarget s.mServerSidePropStore z.areaId r y := by
        rcases stored_own_cases hy.stored with hold | ⟨_, rfl⟩
        · exact ⟨hold, hy.covered, hy.available⟩
        · exact absurd hy.covered (hnone z.areaId hon)
      exact hcoupled z.areaId hon r x r' y (hold hx) (hold hy)
  | @synchronized b temp dualAreaId values hon hcovers hread hrewrites hplaces =>
      obtain ⟨recId, z, hz, rfl, _⟩ := hon
      refine coupled_of_rewrites hrunning hseparate hcoupled hread hrewrites hplaces
        (fun x hx => hx) (fun x hx => Or.inl hx) (hrunning.hasArea_of_stored hz) (fun _ => rfl)
        fun d hd => Or.inr ?_
      obtain ⟨recId, y, hy, rfl, hone⟩ := hd
      have hold := hrewrites.other_prop (q := hvacDualOnId)
        (fun x hx => (covered_of_mem_syncTargets hrunning hread hx).1) (by decide) recId
      exact ⟨recId, y, hold.symm.trans hy, rfl, hone⟩

/-- A set of the dual mode. -/
theorem DualEffect.coupled (h : DualEffect env s v b) (hrunning : Running env.clock start s)
    (hseparate : Separate start) (hcoupled : Coupled s.mServerSidePropStore)
    (hprop : v.prop = hvacDualOnId) (harea : HasArea start v.prop v.areaId) :
    Coupled b.store := by
  have htemp (c : Board) (k : Nat) (r : RecordId) :
      (c.own env k v).store.stored hvacTemperatureSetId r =
        c.store.stored hvacTemperatureSetId r := stored_own_of_ne (by rw [hprop]; decide) r
  have hdual (c : Board) (k : Nat) (d : Int) (hd : DualOn (c.own env k v).store d) :
      d = v.areaId ∧ v.value.int32Values = [1] ∨ DualOn c.store d := by
    obtain ⟨recId, y, hy, rfl, hone⟩ := hd
    rcases stored_own_cases hy with hold | ⟨_, rfl⟩
    · exact Or.inr ⟨recId, y, hold, rfl, hone⟩
    · exact Or.inl ⟨rfl, hone⟩
  cases h with
  | unchanged => exact hcoupled
  | alone havailable hnone =>
      intro d hd r x r' y hx hy
      have hold {r : RecordId} {y : VehiclePropValue}
          (hy : IsTarget (s.board.own env s.moments v).store d r y) :
          IsTarget s.mServerSidePropStore d r y :=
        ⟨(htemp s.board s.moments r).symm.trans hy.stored, hy.covered, hy.available⟩
      rcases hdual s.board s.moments d hd with ⟨rfl, hone⟩ | hon
      · exact absurd (hold hx).available (hnone hone r x (hold hx).stored hx.covered)
      · exact hcoupled d hon r x r' y (hold hx) (hold hy)
  | @synchronized c k temp values xs first havailable hread htargets hhead hrewrites hplaces =>
      have hsub : ∀ x ∈ xs, x ∈ syncTargets v.areaId values := by
        intro x hx
        rw [htargets]
        exact List.mem_cons_of_mem first hx
      refine coupled_of_rewrites hrunning hseparate hcoupled hread hrewrites hplaces hsub ?_
        (hprop ▸ harea) (htemp c k) fun d hd => ?_
      · intro x hx
        rw [htargets] at hx
        rcases List.mem_cons.mp hx with rfl | hx
        · exact Or.inr hhead
        · exact Or.inl hx
      · rcases hdual c k d hd with ⟨rfl, _⟩ | ⟨recId, y, hy, rfl, hone⟩
        · exact Or.inl rfl
        · have hold := hrewrites.other_prop (q := hvacDualOnId)
            (fun x hx => (covered_of_mem_syncTargets hrunning hread (hsub x hx)).1) (by decide)
            recId
          exact Or.inr ⟨recId, y, hold.symm.trans hy, rfl, hone⟩

/-- A value that is stored after the power is switched was stored before, with another status
at most. -/
theorem stored_switched {hvacPowerOnVal : Int} {side : List VehiclePropValue}
    (hzoned : Zoned s.mServerSidePropStore)
    (hside : side = (env.propOrder.visit s.hvacPowerDependentProps).flatMap
      (s.powerWrites env v.areaId hvacPowerOnVal)) {propId : Int} (hne : v.prop ≠ propId)
    {recId : RecordId} {y : VehiclePropValue} {k : Nat}
    (h : ((s.board.attemptAll (env.stampFrom s.moments side)).own env k v).store.stored propId
      recId = some y) :
    ∃ r x, s.mServerSidePropStore.stored propId r = some x ∧ y.areaId = x.areaId ∧
      y.value = x.value ∧ (y.status = x.status ∨ propId ∈ s.hvacPowerDependentProps ∧
        coversArea v.areaId x.areaId = true ∧
        y.status = if hvacPowerOnVal = 0 then .unavailable else .available) := by
  rw [stored_own_of_ne hne] at h
  rcases stored_attemptAll_cases h with hold | ⟨hmem, hprop⟩
  · exact ⟨recId, y, hold, rfl, rfl, Or.inl rfl⟩
  · obtain ⟨w, hw, i, _, _, rfl⟩ := Environment.mem_stampFrom hmem
    rw [hside, PropertyState.powerWrites_eq] at hw
    obtain ⟨x, hx, rfl⟩ := List.mem_map.mp hw
    obtain ⟨p, hp, ⟨r, hr⟩, hcovers⟩ := PropertyState.mem_powerDependents_iff.mp hx
    obtain rfl : p = propId := (hzoned.valid.keyed p r x hr).1.symm.trans hprop
    exact ⟨r, x, hr, rfl, rfl, Or.inr ⟨hp, hcovers, rfl⟩⟩

/-- A set of the power, if what joins is equal. -/
theorem PowerEffect.coupled (h : PowerEffect env s v b) (hzoned : Zoned s.mServerSidePropStore)
    (hcoupled : Coupled s.mServerSidePropStore) (hprop : v.prop = hvacPowerOnId)
    (hequal : RejoinsEqual env s v) : Coupled b.store := by
  cases h with
  | unchanged _ => exact hcoupled
  | @switched i side hints havailable hside =>
      intro d hd r x r' y hx hy
      have hon : DualOn s.mServerSidePropStore d := by
        obtain ⟨recId, z, hz, rfl, hone⟩ := hd
        obtain ⟨r, z', hz', harea, hvalue, _⟩ :=
          stored_switched hzoned hside (by rw [hprop]; decide) hz
        exact ⟨r, z', hz', harea.symm, hvalue ▸ hone⟩
      have hbefore {r : RecordId} {y : VehiclePropValue}
          (hy : IsTarget ((s.board.attemptAll (env.stampFrom s.moments side)).own env
            (s.moments + side.length) v).store d r y) :
          ∃ q z, s.mServerSidePropStore.stored hvacTemperatureSetId q = some z ∧
            y.value = z.value ∧ coversArea d z.areaId = true ∧
            (z.status = .available ∨ i ≠ 0 ∧ hvacTemperatureSetId ∈ s.hvacPowerDependentProps ∧
              coversArea v.areaId z.areaId = true) := by
        obtain ⟨q, z, hz, harea, hvalue, hstatus⟩ :=
          stored_switched hzoned hside (by rw [hprop]; decide) hy.stored
        refine ⟨q, z, hz, hvalue, harea ▸ hy.covered, ?_⟩
        rcases hstatus with hsame | ⟨hmem, hcovers, hnew⟩
        · exact Or.inl (hsame ▸ hy.available)
        · refine Or.inr ⟨fun hzero => ?_, hmem, hcovers⟩
          rw [if_pos hzero, hy.available] at hnew
          cases hnew
      obtain ⟨q, x', hx', hxvalue, hxcovers, hxstatus⟩ := hbefore hx
      obtain ⟨q', y', hy', hyvalue, hycovers, hystatus⟩ := hbefore hy
      rw [hxvalue, hyvalue]
      by_cases hi : i = 0
      · have hxa := hxstatus.resolve_right fun h => h.1 hi
        have hya := hystatus.resolve_right fun h => h.1 hi
        exact hcoupled d hon q x' q' y' ⟨hx', hxcovers, hxa⟩ ⟨hy', hycovers, hya⟩
      · exact hequal hprop havailable i hints hi d hon x' y'
          ⟨⟨q, hx'⟩, hxcovers, hxstatus.imp_right And.right⟩
          ⟨⟨q', hy'⟩, hycovers, hystatus.imp_right And.right⟩

/-- A step whose power joins equal temperatures keeps the temperatures coupled. -/
theorem ClimateStep.coupled (h : ClimateStep env s v t) (hrunning : Running env.clock start s)
    (hseparate : Separate start) (hcoupled : Coupled s.mServerSidePropStore)
    (hequal : RejoinsEqual env s v) : Coupled t.mServerSidePropStore := by
  obtain ⟨result, hset⟩ := h.set
  rcases h.prop with hprop | hprop | hprop
  · exact (PropertyState.powerEffect hrunning.zoned hprop hset).coupled hrunning.zoned hcoupled
      hprop hequal
  · exact (PropertyState.dualEffect hrunning hprop hset).coupled hrunning hseparate hcoupled
      hprop ((hrunning.hasArea_iff _ _).mp h.area)
  · exact (PropertyState.temperatureEffect hrunning hprop hset).coupled hrunning hseparate
      hcoupled hprop

end Steps

/-- In every run of sets of the power, the dual mode and the temperatures, the available
temperatures are equal where the dual mode is on, if they are so at the start, no temperature
lies in two dual areas, and each switch of the power makes equal temperatures available. -/
theorem temperatures_coupled {clock : Nat → Int} {s t : PropertyState}
    {vs : List VehiclePropValue} (hreached : StoreReached s.mServerSidePropStore)
    (htimely : ∀ propId recId x, s.mServerSidePropStore.stored propId recId = some x →
      x.timestamp ≤ clock s.moments)
    (hcallback : s.mServerSidePropStore.mOnValuesChangeCallback = true)
    (huserHal : s.mFakeUserHal.Reachable) (hseparate : Separate s)
    (hcoupled : Coupled s.mServerSidePropStore)
    (hrun : Path (fun s v t => ∃ env : Environment, env.clock = clock ∧
      ClimateStep env s v t ∧ RejoinsEqual env s v) s vs t) :
    Coupled t.mServerSidePropStore := by
  have hinv : Running clock s t ∧ Coupled t.mServerSidePropStore := by
    refine hrun.invariant (P := fun t => Running clock s t ∧ Coupled t.mServerSidePropStore)
      ⟨running_start hreached htimely hcallback huserHal, hcoupled⟩ ?_
    rintro u v w ⟨hrunning, hu⟩ ⟨env, rfl, hstep, hequal⟩
    exact ⟨hstep.running hrunning, hstep.coupled hrunning hseparate hu hequal⟩
  exact hinv.2

section Example

/-- A value for one switch of the power. -/
def switchPower (areaId hvacPowerOnVal : Int) : VehiclePropValue :=
  { prop := hvacPowerOnId, areaId, value := { int32Values := [hvacPowerOnVal] } }

/-- A request to set the temperature of an area. -/
def setTemperature (areaId : Int) (value : RawPropValues) : VehiclePropValue :=
  { prop := hvacTemperatureSetId, areaId, value }

/-- The hardware after a start. -/
def started (ops : List PropertyStore.Operation) (dependents : Finset Int) : PropertyState where
  mServerSidePropStore := { PropertyStore.Operation.run ops {} with
    mOnValuesChangeCallback := true }
  hvacPowerDependentProps := dependents

/-- A state that has been set up is a running one. -/
theorem started_running {ops : List PropertyStore.Operation} (hops : ∀ op ∈ ops, IsStart op)
    (dependents : Finset Int) :
    Running (fun _ => 5) (started ops dependents) (started ops dependents) := by
  refine running_start (reached_of_start hops) (fun propId recId x hx => ?_) rfl .start
  have hle := timestamp_of_start hops (fun _ _ _ h => by cases h) propId recId x hx
  exact hle.trans (by decide)

theorem cabin_running : Running (fun _ => 5) cabin cabin :=
  started_running isStart_of_mem_cabinOps {hvacTemperatureSetId}

/-- The areas of a property that is registered at a start. -/
theorem hasArea_zonesOf_iff {s : PropertyState} {propId areaId : Int} {areaIds : List Int}
    (hreg : s.mServerSidePropStore.registration propId =
      some ({ prop := propId, areaConfigs := areaIds.map fun areaId => { areaId } }, none))
    (hzone : isGlobalProp propId = false) : HasArea s propId areaId ↔ areaId ∈ areaIds := by
  simp [hasArea_iff hreg, hzone]

theorem hasArea_cabin_dual_iff {areaId : Int} : HasArea cabin hvacDualOnId areaId ↔ areaId ∈ [5] :=
  hasArea_zonesOf_iff rfl rfl

theorem hasArea_cabin_power_iff {areaId : Int} :
    HasArea cabin hvacPowerOnId areaId ↔ areaId ∈ [1, 4] := hasArea_zonesOf_iff rfl rfl

theorem hasArea_cabin_temperature_iff {areaId : Int} :
    HasArea cabin hvacTemperatureSetId areaId ↔ areaId ∈ [1, 4] := hasArea_zonesOf_iff rfl rfl

/-- The power and the temperature of the cabin have both areas. -/
theorem hasArea_cabin {propId areaId : Int}
    (hprop : propId = hvacPowerOnId ∨ propId = hvacTemperatureSetId)
    (harea : areaId ∈ [1, 4]) : HasArea cabin propId areaId := by
  rcases hprop with rfl | rfl
  · exact hasArea_cabin_power_iff.mpr harea
  · exact hasArea_cabin_temperature_iff.mpr harea

theorem cabin_dual_disjoint (a b : Int) (ha : HasArea cabin hvacDualOnId a)
    (hb : HasArea cabin hvacDualOnId b) (hne : a ≠ b) : areaBits a &&& areaBits b = 0 := by
  have hfive := List.mem_singleton.mp (hasArea_cabin_dual_iff.mp ha)
  exact absurd (hfive.trans (List.mem_singleton.mp (hasArea_cabin_dual_iff.mp hb)).symm) hne

theorem cabin_separate : Separate cabin := by
  refine separate_of_disjoint cabin_dual_disjoint fun areaId harea => ?_
  have hbits : ∀ a ∈ [1, 4], areaBits a ≠ 0 := by decide
  exact hbits areaId (hasArea_cabin_temperature_iff.mp harea)

/-- The temperatures that are stored are those that are read. -/
theorem cabin_coupled : Coupled cabin.mServerSidePropStore := by
  have htwenty (r : RecordId) (x : VehiclePropValue)
      (hx : cabin.mServerSidePropStore.stored hvacTemperatureSetId r = some x) :
      x.value = twentyDegrees := by
    have hread : cabin.readValuesForProperty .still hvacTemperatureSetId = .ok
        [{ timestamp := 1, areaId := 1, prop := hvacTemperatureSetId, value := twentyDegrees },
          { timestamp := 1, areaId := 4, prop := hvacTemperatureSetId, value := twentyDegrees }] :=
      rfl
    have hmem := (mem_readValues_iff hread x).mpr ⟨r, hx⟩
    simp only [List.mem_cons, List.not_mem_nil, or_false] at hmem
    rcases hmem with rfl | rfl <;> rfl
  intro d _ r x r' y hx hy
  rw [htwenty r x hx.stored, htwenty r' y hy.stored]

/-- The right seat is switched off, the left one is set to thirty degrees, and the right one is
switched on again. -/
theorem exists_rejoined : ∃ t₁ t₂ t₃,
    cabin.setValue .still (switchPower 4 0) = .ok (.ok (), t₁) ∧
      t₁.setValue .still (setTemperature 1 thirtyDegrees) = .ok (.ok (), t₂) ∧
      t₂.setValue .still (switchPower 4 1) = .ok (.ok (), t₃) ∧
      t₃.mServerSidePropStore.stored hvacTemperatureSetId ⟨1, 0⟩ =
        some { setTemperature 1 thirtyDegrees with timestamp := 5 } ∧
      t₃.mServerSidePropStore.stored hvacTemperatureSetId ⟨4, 0⟩ =
        some { setTemperature 4 twentyDegrees with timestamp := 5 } ∧
      t₃.readValuesForProperty .still hvacDualOnId = .ok
        [{ timestamp := 1, areaId := 5, prop := hvacDualOnId, value := { int32Values := [1] } }] :=
  ⟨_, _, _, rfl, rfl, rfl, rfl, rfl, rfl⟩

/-- A request for the power or the temperature of the cabin is a step of its climate. -/
theorem climateStep_cabin {s t : PropertyState} {v : VehiclePropValue}
    (hrunning : Running (fun _ => 5) cabin s)
    (hprop : v.prop = hvacPowerOnId ∨ v.prop = hvacTemperatureSetId)
    (harea : v.areaId ∈ [1, 4]) (hset : s.setValue .still v = .ok (.ok (), t)) :
    ClimateStep .still s v t ∧ Running (fun _ => 5) cabin t := by
  have hstep : SetStep .still s v t :=
    ⟨(hrunning.hasArea_iff _ _).mpr (hasArea_cabin hprop harea), _, hset⟩
  have hafter : Running Environment.still.clock cabin t := hstep.running hrunning
  exact ⟨⟨hstep, hprop.imp_right Or.inr⟩, hafter⟩

/-- Both temperatures are available then and the dual mode is on, but the temperature of the
right seat is the old one. -/
theorem rejoined_temperature_differs :
    StoreReached cabin.mServerSidePropStore ∧ Running (fun _ => 5) cabin cabin ∧
      (∀ a b, HasArea cabin hvacDualOnId a → HasArea cabin hvacDualOnId b → a ≠ b →
        areaBits a &&& areaBits b = 0) ∧
      Coupled cabin.mServerSidePropStore ∧
      ∃ vs t, Path (fun s v t => ∃ env : Environment, env.clock = (fun _ => 5) ∧
        ClimateStep env s v t) cabin vs t ∧ ¬Coupled t.mServerSidePropStore := by
  refine ⟨cabin_reached, cabin_running, cabin_dual_disjoint, cabin_coupled, ?_⟩
  obtain ⟨t₁, t₂, t₃, h₁, h₂, h₃, hleft, hright, hread⟩ := exists_rejoined
  obtain ⟨hstep₁, hrunning₁⟩ := climateStep_cabin cabin_running (Or.inl rfl) (by decide) h₁
  obtain ⟨hstep₂, hrunning₂⟩ := climateStep_cabin hrunning₁ (Or.inr rfl) (by decide) h₂
  obtain ⟨hstep₃, _⟩ := climateStep_cabin hrunning₂ (Or.inl rfl) (by decide) h₃
  refine ⟨_, t₃, (((Path.nil cabin).snoc ⟨.still, rfl, hstep₁⟩).snoc ⟨.still, rfl, hstep₂⟩).snoc
    ⟨.still, rfl, hstep₃⟩, fun hcoupled => ?_⟩
  obtain ⟨r, hdual⟩ := (mem_readValues_iff hread _).mp (List.mem_singleton_self _)
  have hequal := hcoupled 5 ⟨r, _, hdual, rfl, rfl⟩ ⟨1, 0⟩ _ ⟨4, 0⟩ _
    ⟨hleft, by decide, rfl⟩ ⟨hright, by decide, rfl⟩
  exact absurd hequal (by decide)

/-- Switching the power of an area off and on again leaves its temperature behind. -/
theorem exists_restored : ∃ t₁ t₂,
    cabin.setValue .still (switchPower 4 0) = .ok (.ok (), t₁) ∧
      t₁.setValue .still (switchPower 4 1) = .ok (.ok (), t₂) ∧
      t₁.readValuesForProperty .still hvacTemperatureSetId = .ok
        [{ setTemperature 1 twentyDegrees with timestamp := 1 },
          { setTemperature 4 twentyDegrees with timestamp := 5, status := .unavailable }] :=
  ⟨_, _, rfl, rfl, rfl⟩

/-- Without a set in between the temperatures stay equal. -/
theorem restored_temperature_coupled : ∃ vs t, Path (fun s v t => ∃ env : Environment,
    env.clock = (fun _ => 5) ∧ ClimateStep env s v t ∧ RejoinsEqual env s v) cabin vs t ∧
      vs.length = 2 ∧ Coupled t.mServerSidePropStore := by
  obtain ⟨t₁, t₂, h₁, h₂, hread⟩ := exists_restored
  obtain ⟨hstep₁, hrunning₁⟩ := climateStep_cabin cabin_running (Or.inl rfl) (by decide) h₁
  obtain ⟨hstep₂, _⟩ := climateStep_cabin hrunning₁ (Or.inl rfl) (by decide) h₂
  have hequal₁ : RejoinsEqual .still cabin (switchPower 4 0) := by
    rintro _ _ i ⟨⟩ hi
    exact absurd rfl hi
  have hequal₂ : RejoinsEqual .still t₁ (switchPower 4 1) := by
    have htwenty {d : Int} {x : VehiclePropValue} (hx : Joins t₁ 4 d x) :
        x.value = twentyDegrees := by
      have hmem := (mem_readValues_iff hread x).mpr hx.stored
      simp only [List.mem_cons, List.not_mem_nil, or_false] at hmem
      rcases hmem with rfl | rfl <;> rfl
    intro _ _ i _ _ d _ x y hx hy
    rw [htwenty hx, htwenty hy]
  have hpath := ((Path.nil (R := fun s v t => ∃ env : Environment, env.clock = (fun _ => 5) ∧
    ClimateStep env s v t ∧ RejoinsEqual env s v) cabin).snoc ⟨.still, rfl, hstep₁, hequal₁⟩).snoc
    ⟨.still, rfl, hstep₂, hequal₂⟩
  refine ⟨_, t₂, hpath, rfl, ?_⟩
  exact temperatures_coupled cabin_reached cabin_running.timely rfl .start cabin_separate
    cabin_coupled hpath

end Example

end VhalCore.FakeHardware
