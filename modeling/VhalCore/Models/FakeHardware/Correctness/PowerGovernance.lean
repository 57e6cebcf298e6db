import VhalCore.Core.Execution
import VhalCore.Models.FakeHardware.Correctness.TemperatureCoupling
import VhalCore.Models.FakeHardware.Interpretation.PowerSwitch
import VhalCore.Models.FakeHardware.Interpretation.Refusals

/-!
# The power and what depends on it

Once the power of an area has been set, it governs the properties that depend on it there: their
values are available exactly while it is on, they are refused exactly while it is off, and a
switch tells each of them once. Disjoint areas of the power are not enough for this: a global
property lies in all of them, and other properties than the switch give a status to the switch
itself and to the states of the driver assistance.
-/

namespace VhalCore.FakeHardware

open PropertyStore VehiclePropertyStore

/-- A call of a run, with its result. -/
def SetCall (clock : Nat → Int) (s : PropertyState)
    (call : VehiclePropValue × Except SetValueError Unit) (t : PropertyState) : Prop :=
  ∃ env : Environment, env.clock = clock ∧ HasArea s call.1.prop call.1.areaId ∧
    s.setValue env call.1 = .ok (call.2, t)

/-- One of the calls sets the power of an area. -/
def PowerWasSet (areaId : Int) (calls : List (VehiclePropValue × Except SetValueError Unit)) :
    Prop :=
  ∃ v, (v, .ok ()) ∈ calls ∧ v.prop = hvacPowerOnId ∧ v.areaId = areaId

/-- The switch also says which requests are refused without any effect. -/
structure Governed (s : PropertyState) (powerAreaId hvacPowerOnVal : Int) : Prop extends
    Governs s.hvacPowerDependentProps s.mServerSidePropStore powerAreaId hvacPowerOnVal where
  refused : ∀ env v, v.prop ∈ s.hvacPowerDependentProps → HasArea s v.prop v.areaId →
    coversArea powerAreaId v.areaId = true →
    ((∃ e, s.setValue env v = .ok (.error e, s) ∧ e.code = some .notAvailableDisabled) ↔
      hvacPowerOnVal = 0)

section Runs

variable {clock : Nat → Int} {start s t : PropertyState}
variable {calls : List (VehiclePropValue × Except SetValueError Unit)}

theorem SetCall.running {call : VehiclePropValue × Except SetValueError Unit}
    (h : SetCall clock s call t) (hs : Running clock start s) : Running clock start t := by
  obtain ⟨env, rfl, harea, hset⟩ := h
  exact SetStep.running (v := call.1) ⟨harea, call.2, hset⟩ hs

theorem running_of_calls (hstart : Running clock start s) (hrun : Path (SetCall clock) s calls t) :
    Running clock start t :=
  hrun.invariant hstart fun _ _ _ hu hcall => hcall.running hu

/-- A set of the power that succeeds governs its area in the rest of the run. -/
theorem exists_governs (hstart : Running clock start start) (hwell : WellPowered start)
    (hrun : Path (SetCall clock) start calls t) {powerAreaId : Int}
    (hset : PowerWasSet powerAreaId calls) :
    ∃ i, Governs start.hvacPowerDependentProps t.mServerSidePropStore powerAreaId i := by
  obtain ⟨v, hmem, hprop, rfl⟩ := hset
  obtain ⟨before, after, rfl⟩ := List.append_of_mem hmem
  obtain ⟨u, w, hbefore, hcall, hafter⟩ := hrun.step_at
  have hu := running_of_calls hstart hbefore
  have hw : Running clock start w := hcall.running hu
  have hgoverns : ∃ i, Governs start.hvacPowerDependentProps w.mServerSidePropStore v.areaId i := by
    obtain ⟨env, rfl, harea, hpower⟩ := hcall
    obtain ⟨i, hints⟩ := ints_of_setValue_ok hu.zoned hprop hpower
    have hself : hvacPowerOnId ∉ u.hvacPowerDependentProps := hu.dependents ▸ hwell.power
    obtain ⟨w', hw', hboard⟩ := exists_switch hu hself hprop harea hints
    cases hw'.symm.trans hpower
    have hstore : w.mServerSidePropStore = (switchBoard env u v i).store :=
      congrArg Board.store hboard
    rw [hstore, ← hu.dependents]
    exact ⟨i, governs_switch hwell hu hprop harea hints⟩
  have hinv : Running clock start t ∧
      ∃ i, Governs start.hvacPowerDependentProps t.mServerSidePropStore v.areaId i := by
    refine hafter.invariant (P := fun t => Running clock start t ∧
      ∃ i, Governs start.hvacPowerDependentProps t.mServerSidePropStore v.areaId i)
      ⟨hw, hgoverns⟩ ?_
    rintro x call y ⟨hx, i, hi⟩ hstep
    have hy := hstep.running hx
    obtain ⟨env, rfl, harea, hcall⟩ := hstep
    rw [← hx.dependents] at hi ⊢
    exact ⟨hy, hi.step hwell hx hy harea hcall⟩
  exact hinv.2

end Runs

/-- In every run of sets in which the power of an area was set well, the power governs what
depends on it in the area; and in every state of a run a switch of the power tells what
depends on it in its area. -/
theorem power_governs {clock : Nat → Int} {s t : PropertyState}
    {calls : List (VehiclePropValue × Except SetValueError Unit)}
    (hreached : StoreReached s.mServerSidePropStore)
    (htimely : ∀ propId recId x, s.mServerSidePropStore.stored propId recId = some x →
      x.timestamp ≤ clock s.moments)
    (hcallback : s.mServerSidePropStore.mOnValuesChangeCallback = true)
    (huserHal : s.mFakeUserHal.Reachable) (hwell : WellPowered s)
    (hrun : Path (SetCall clock) s calls t) :
    (∀ powerAreaId, PowerWasSet powerAreaId calls → ∃ i, Governed t powerAreaId i) ∧
    ∀ env v i, env.clock = clock → HasArea t v.prop v.areaId → v.prop = hvacPowerOnId →
      v.value.int32Values = [i] →
      ∃ after, t.setValue env v = .ok (.ok (), after) ∧ TellsDependents env t v i after := by
  have hstart := running_start hreached htimely hcallback huserHal
  have ht := running_of_calls hstart hrun
  have hzone (propId : Int) (hp : propId ∈ t.hvacPowerDependentProps) :
      isGlobalProp propId = false := hwell.zoned propId (ht.dependents ▸ hp)
  refine ⟨fun powerAreaId hset => ?_, ?_⟩
  · obtain ⟨i, hgoverns⟩ := exists_governs hstart hwell hrun hset
    rw [← ht.dependents] at hgoverns
    refine ⟨i, hgoverns, fun env v hp harea hcovers => ?_⟩
    rw [PropertyState.refused_iff ht.zoned (hzone v.prop hp)]
    exact ht.notAvailable_iff hwell hp ((ht.hasArea_iff _ _).mp harea) hgoverns.power hcovers env
  · rintro env v i rfl harea hprop hints
    have hself : hvacPowerOnId ∉ t.hvacPowerDependentProps := ht.dependents ▸ hwell.power
    obtain ⟨after, hset, hboard⟩ := exists_switch ht hself hprop harea hints
    exact ⟨after, hset, tellsDependents_of_switch ht hzone hprop harea hboard⟩

section Example

/-- The property `HVAC_TEMPERATURE_DISPLAY_UNITS`. -/
def hvacTemperatureDisplayUnitsId : Int := 0x1140050e

/-- The property `BLIND_SPOT_WARNING_ENABLED`. -/
def blindSpotWarningEnabledId : Int := 0x11201004

/-- The property `BLIND_SPOT_WARNING_STATE`. -/
def blindSpotWarningStateId : Int := 0x14401005

/-- Two areas of the power without a common bit, in neither of which it has been set, a global
property, and a feature of the driver assistance with its state. -/
def coachOps : List PropertyStore.Operation :=
  [zonesOf hvacPowerOnId [1, 4], zonesOf hvacTemperatureDisplayUnitsId [0],
    zonesOf blindSpotWarningStateId [1], zonesOf blindSpotWarningEnabledId [0],
    startsWith hvacTemperatureDisplayUnitsId 0 { int32Values := [0x30] },
    startsWith blindSpotWarningStateId 1 { int32Values := [1] }]

/-- One property depends on the power. -/
def coach (dependent : Int) : PropertyState := started coachOps {dependent}

/-- The request to enable the blind spot warning. -/
def enableBlindSpotWarning : VehiclePropValue :=
  { prop := blindSpotWarningEnabledId, value := { int32Values := [1] } }

/-- The calls that set the coach up start a state. -/
theorem isStart_of_mem_coachOps : ∀ op ∈ coachOps, IsStart op := by
  have hpower : hvacPowerOnId ≠ obd2FreezeFrameId := by decide
  have hunits : hvacTemperatureDisplayUnitsId ≠ obd2FreezeFrameId := by decide
  have hstate : blindSpotWarningStateId ≠ obd2FreezeFrameId := by decide
  have henabled : blindSpotWarningEnabledId ≠ obd2FreezeFrameId := by decide
  simp [coachOps, IsStart.zonesOf _ hpower, IsStart.zonesOf _ hunits, IsStart.zonesOf _ hstate,
    IsStart.zonesOf _ henabled, IsStart.startsWith]

theorem hasArea_coach_power_iff (dependent : Int) {areaId : Int} :
    HasArea (coach dependent) hvacPowerOnId areaId ↔ areaId ∈ [1, 4] :=
  hasArea_zonesOf_iff rfl rfl

/-- A run from a start with disjoint areas of the power, in which the power of every area has been
set, ends in a state in which the power does not govern one of its areas. -/
structure Ungoverned (s : PropertyState) : Prop where
  reached : StoreReached s.mServerSidePropStore
  running : Running (fun _ => 5) s s
  disjoint : ∀ a b, HasArea s hvacPowerOnId a → HasArea s hvacPowerOnId b → a ≠ b →
    areaBits a &&& areaBits b = 0
  run : ∃ calls t, Path (SetCall fun _ => 5) s calls t ∧
    (∀ areaId, HasArea s hvacPowerOnId areaId → PowerWasSet areaId calls) ∧
    ∃ areaId, HasArea s hvacPowerOnId areaId ∧ ∀ i, ¬Governed t areaId i

section Coach

variable {dependent : Int} {s t : PropertyState} {v : VehiclePropValue}

/-- A request to the coach is one of a run. -/
theorem setCall_coach (hrunning : Running (fun _ => 5) (coach dependent) s)
    (harea : HasArea (coach dependent) v.prop v.areaId)
    (hset : s.setValue .still v = .ok (.ok (), t)) :
    SetCall (fun _ => 5) s (v, .ok ()) t ∧ Running (fun _ => 5) (coach dependent) t := by
  have hcall : SetCall (fun _ => 5) s (v, .ok ()) t :=
    ⟨.still, rfl, (hrunning.hasArea_iff _ _).mpr harea, hset⟩
  exact ⟨hcall, hcall.running hrunning⟩

/-- A run of the coach with two switches and some more sets, after which a value that depends on
the power has the wrong status. -/
theorem ungoverned_coach {left right : Int} {t₁ t₂ : PropertyState}
    (h₁ : (coach dependent).setValue .still (switchPower 1 left) = .ok (.ok (), t₁))
    (h₂ : t₁.setValue .still (switchPower 4 right) = .ok (.ok (), t₂))
    {calls : List (VehiclePropValue × Except SetValueError Unit)}
    (hrest : Running (fun _ => 5) (coach dependent) t₂ → Path (SetCall fun _ => 5) t₂ calls t)
    (hpower : PowerIs t.mServerSidePropStore 1 left) {recId : RecordId} {x : VehiclePropValue}
    (hmem : dependent ∈ t.hvacPowerDependentProps)
    (hstored : t.mServerSidePropStore.stored dependent recId = some x)
    (hcovers : coversArea 1 x.areaId = true) (hwrong : ¬(x.status = .available ↔ left ≠ 0)) :
    Ungoverned (coach dependent) := by
  have hrunning : Running (fun _ => 5) (coach dependent) (coach dependent) :=
    started_running isStart_of_mem_coachOps {dependent}
  have hareas (areaId : Int) : HasArea (coach dependent) hvacPowerOnId areaId ↔ areaId ∈ [1, 4] :=
    hasArea_coach_power_iff dependent
  obtain ⟨hcall₁, hrunning₁⟩ := setCall_coach hrunning ((hareas 1).mpr (by decide)) h₁
  obtain ⟨hcall₂, hrunning₂⟩ := setCall_coach hrunning₁ ((hareas 4).mpr (by decide)) h₂
  refine ⟨reached_of_start isStart_of_mem_coachOps, hrunning, fun a b ha hb hne => ?_, _, t,
    (((Path.nil _).snoc hcall₁).snoc hcall₂).trans (hrest hrunning₂), fun areaId ha => ?_, 1,
    (hareas 1).mpr (by decide), fun i hgoverned => ?_⟩
  · have hpairs : ∀ a ∈ [1, 4], ∀ b ∈ [1, 4], a ≠ b → areaBits a &&& areaBits b = 0 := by decide
    exact hpairs a ((hareas a).mp ha) b ((hareas b).mp hb) hne
  · rcases List.mem_cons.mp ((hareas areaId).mp ha) with rfl | hfour
    · exact ⟨switchPower 1 left, by simp, rfl, rfl⟩
    · rw [List.mem_singleton.mp hfour]
      exact ⟨switchPower 4 right, by simp, rfl, rfl⟩
  · obtain ⟨y, hy, hints⟩ := hpower
    obtain ⟨z, hz, hints'⟩ := hgoverned.power
    cases hy.symm.trans hz
    cases hints.symm.trans hints'
    exact hwrong (hgoverned.status dependent hmem recId x hstored hcovers)

end Coach

/-- A global property is in both areas, and has the status of the last switch. -/
theorem ungoverned_units : Ungoverned (coach hvacTemperatureDisplayUnitsId) := by
  obtain ⟨t₁, t₂, h₁, h₂, hpower, hmem, hstored⟩ : ∃ t₁ t₂,
      (coach hvacTemperatureDisplayUnitsId).setValue .still (switchPower 1 1) = .ok (.ok (), t₁) ∧
      t₁.setValue .still (switchPower 4 0) = .ok (.ok (), t₂) ∧
      t₂.mServerSidePropStore.stored hvacPowerOnId ⟨1, 0⟩ =
        some { switchPower 1 1 with timestamp := 5 } ∧
      hvacTemperatureDisplayUnitsId ∈ t₂.hvacPowerDependentProps ∧
      t₂.mServerSidePropStore.stored hvacTemperatureDisplayUnitsId ⟨0, 0⟩ = some
        { prop := hvacTemperatureDisplayUnitsId, timestamp := 5, status := .unavailable,
          value := { int32Values := [0x30] } } :=
    ⟨_, _, rfl, rfl, rfl, Finset.mem_singleton_self _, rfl⟩
  exact ungoverned_coach h₁ h₂ (fun _ => .nil _) ⟨_, hpower, rfl⟩ hmem hstored (by decide)
    (by decide)

/-- A switch that depends on itself has a new value, which is available whatever it is. -/
theorem ungoverned_power : Ungoverned (coach hvacPowerOnId) := by
  obtain ⟨t₁, t₂, h₁, h₂, hpower, hmem⟩ : ∃ t₁ t₂,
      (coach hvacPowerOnId).setValue .still (switchPower 1 0) = .ok (.ok (), t₁) ∧
      t₁.setValue .still (switchPower 4 1) = .ok (.ok (), t₂) ∧
      t₂.mServerSidePropStore.stored hvacPowerOnId ⟨1, 0⟩ =
        some { switchPower 1 0 with timestamp := 5 } ∧
      hvacPowerOnId ∈ t₂.hvacPowerDependentProps :=
    ⟨_, _, rfl, rfl, rfl, Finset.mem_singleton_self _⟩
  exact ungoverned_coach h₁ h₂ (fun _ => .nil _) ⟨_, hpower, rfl⟩ hmem hpower (by decide)
    (by decide)

/-- A state of the driver assistance is made available when its feature is switched on. -/
theorem ungoverned_state : Ungoverned (coach blindSpotWarningStateId) := by
  obtain ⟨t₁, t₂, t₃, h₁, h₂, h₃, hpower, hmem, hstored⟩ : ∃ t₁ t₂ t₃,
      (coach blindSpotWarningStateId).setValue .still (switchPower 1 0) = .ok (.ok (), t₁) ∧
      t₁.setValue .still (switchPower 4 1) = .ok (.ok (), t₂) ∧
      t₂.setValue .still enableBlindSpotWarning = .ok (.ok (), t₃) ∧
      t₃.mServerSidePropStore.stored hvacPowerOnId ⟨1, 0⟩ =
        some { switchPower 1 0 with timestamp := 5 } ∧
      blindSpotWarningStateId ∈ t₃.hvacPowerDependentProps ∧
      t₃.mServerSidePropStore.stored blindSpotWarningStateId ⟨1, 0⟩ = some
        { prop := blindSpotWarningStateId, areaId := 1, timestamp := 5,
          value := { int32Values := [1] } } :=
    ⟨_, _, _, rfl, rfl, rfl, rfl, Finset.mem_singleton_self _, rfl⟩
  have henabled : HasArea (coach blindSpotWarningStateId) blindSpotWarningEnabledId 0 :=
    ⟨rfl, fun hlacks => by cases hlacks.1⟩
  have hrest (hrunning : Running (fun _ => 5) (coach blindSpotWarningStateId) t₂) :
      Path (SetCall fun _ => 5) t₂ [(enableBlindSpotWarning, .ok ())] t₃ :=
    .single (setCall_coach hrunning henabled h₃).1
  exact ungoverned_coach h₁ h₂ hrest ⟨_, hpower, rfl⟩ hmem hstored (by decide) (by decide)

/-- Disjoint areas of the power are not enough. -/
theorem power_not_governing : Ungoverned (coach hvacTemperatureDisplayUnitsId) ∧
    Ungoverned (coach hvacPowerOnId) ∧ Ungoverned (coach blindSpotWarningStateId) :=
  ⟨ungoverned_units, ungoverned_power, ungoverned_state⟩

/-- The areas of the power of the cabin are disjoint. -/
theorem cabin_wellPowered : WellPowered cabin := by
  have hdependent {propId : Int} (hp : propId ∈ cabin.hvacPowerDependentProps) :
      propId = hvacTemperatureSetId := Finset.mem_singleton.mp hp
  refine wellPowered_of_disjoint (fun propId hp => ?_) (by decide) (fun propId hp => ?_)
    (fun a b ha hb hne => ?_) fun propId hp areaId harea => ?_
  · rw [hdependent hp]
    decide
  · rw [hdependent hp]
    decide
  · have hpairs : ∀ a ∈ [1, 4], ∀ b ∈ [1, 4], a ≠ b → areaBits a &&& areaBits b = 0 := by decide
    exact hpairs a (hasArea_cabin_power_iff.mp ha) b (hasArea_cabin_power_iff.mp hb) hne
  · rw [hdependent hp] at harea
    have hbits : ∀ a ∈ [1, 4], areaBits a ≠ 0 := by decide
    exact hbits areaId (hasArea_cabin_temperature_iff.mp harea)

/-- The power of the left seat governs its temperature after it is switched off. -/
theorem power_governs_cabin : ∃ calls t, Path (SetCall fun _ => 5) cabin calls t ∧
    Governed t 1 0 := by
  obtain ⟨t, hset, hstored⟩ : ∃ t,
      cabin.setValue .still (switchPower 1 0) = .ok (.ok (), t) ∧
      t.mServerSidePropStore.stored hvacPowerOnId ⟨1, 0⟩ =
        some { switchPower 1 0 with timestamp := 5 } := ⟨_, rfl, rfl⟩
  have hcall : SetCall (fun _ => 5) cabin (switchPower 1 0, .ok ()) t :=
    ⟨.still, rfl, hasArea_cabin_power_iff.mpr (by decide), hset⟩
  obtain ⟨i, hgoverned⟩ := (power_governs cabin_reached cabin_running.timely rfl .start
    cabin_wellPowered (.single hcall)).1 1 ⟨switchPower 1 0, List.mem_singleton_self _, rfl, rfl⟩
  obtain ⟨x, hx, hints⟩ := hgoverned.power
  cases hstored.symm.trans hx
  cases hints
  exact ⟨_, t, .single hcall, hgoverned⟩

end Example

end VhalCore.FakeHardware
