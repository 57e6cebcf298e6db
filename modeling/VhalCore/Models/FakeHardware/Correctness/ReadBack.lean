import VhalCore.Models.FakeHardware.Correctness.AllOrNothing
import VhalCore.Models.FakeHardware.Correctness.PowerGovernance
import VhalCore.Models.FakeHardware.Native.GetValue

/-!
# What was set is read back

Many sets write more than their own value, and some write other values than the request has.
Nevertheless a property with areas is a register for each of them, but for the temperature and
the states of the driver assistance: a read gives the payload of the last set of the area that
was accepted, whatever was set in between and whether it was accepted or not.
-/

namespace VhalCore.FakeHardware

open PropertyStore VehiclePropertyStore

/-- The property has areas, and no set of another property writes other payloads to it. -/
structure IsRegister (propId : Int) : Prop where
  zone : isGlobalProp propId = false
  adas : ¬IsAdasState propId
  temperature : propId ≠ hvacTemperatureSetId

/-- The payload that is stored for a property in an area. -/
def PropertyState.payloadAt (s : PropertyState) (p : PropIdAreaId) : Option RawPropValues :=
  (s.mServerSidePropStore.stored p.propId ⟨p.areaId, 0⟩).map VehiclePropValue.value

/-- The payload that a call writes to a property in an area, if it is accepted. -/
def acceptedPayload (p : PropIdAreaId)
    (call : VehiclePropValue × Except SetValueError Unit) : Option RawPropValues :=
  match call.2 with
  | .error _ => none
  | .ok () => if call.1.propIdAreaId = p then some call.1.value else none

/-- A call of a run, in any area, with its result. -/
def SetAttempt (clock : Nat → Int) (s : PropertyState)
    (call : VehiclePropValue × Except SetValueError Unit) (t : PropertyState) : Prop :=
  ∃ env : Environment, env.clock = clock ∧ s.setValue env call.1 = .ok (call.2, t)

section Step

variable {clock : Nat → Int} {env : Environment} {start s t : PropertyState}
  {v : VehiclePropValue} {result : Except SetValueError Unit} {p : PropIdAreaId}

/-- The payload of a pair depends on what is stored for it. -/
theorem payloadAt_of_stored
    (h : t.mServerSidePropStore.stored p.propId ⟨p.areaId, 0⟩ =
      s.mServerSidePropStore.stored p.propId ⟨p.areaId, 0⟩) : t.payloadAt p = s.payloadAt p := by
  rw [PropertyState.payloadAt, PropertyState.payloadAt, h]

/-- A switch of the power writes the values that depend on it with their own payloads. -/
theorem payload_rewritten {hvacPowerOnVal : Int} {xs : List VehiclePropValue} {b : Board}
    (h : Rewrites (switched hvacPowerOnVal) xs s.board b)
    (hstored : ∀ x ∈ xs, s.mServerSidePropStore.stored x.prop ⟨x.areaId, 0⟩ = some x) :
    (b.store.stored p.propId ⟨p.areaId, 0⟩).map VehiclePropValue.value = s.payloadAt p := by
  by_cases hkey : ∃ x ∈ xs, x.prop = p.propId ∧ (⟨p.areaId, 0⟩ : RecordId) = ⟨x.areaId, 0⟩
  · obtain ⟨x, hx, hprop, harea⟩ := hkey
    obtain ⟨time, hnew⟩ := h.rewritten x hx
    rw [PropertyState.payloadAt, harea, ← hprop, hnew, hstored x hx]
    rfl
  · rw [h.others p.propId _ fun x hx hprop hr => hkey ⟨x, hx, hprop, hr⟩]
    rfl

/-- The own write is the last one: it is accepted and read back, or refused and the rest of the
set is all that happened. -/
theorem payload_of_plain {side : List VehiclePropValue} {b : Board}
    (hzoned : Zoned s.mServerSidePropStore) (hzone : isGlobalProp v.prop = false)
    (hside : ((s.board.attemptAll (env.stampFrom s.moments side)).store.stored p.propId
      ⟨p.areaId, 0⟩).map VehiclePropValue.value = s.payloadAt p)
    (hrun : (s.plainRoute env v side).run s.board = .ok (result, b)) :
    (b.store.stored p.propId ⟨p.areaId, 0⟩).map VehiclePropValue.value =
      (acceptedPayload p (v, result)).or (s.payloadAt p) := by
  have hzoned' : Zoned (s.board.attemptAll (env.stampFrom s.moments side)).store :=
    Board.zoned_attemptAll hzoned _
  by_cases hw : (s.board.attemptAll (env.stampFrom s.moments side)).store.Writable
      (env.stamped (s.moments + side.length) v)
  · have hwrite := Board.write_of_writable hw false .onValueChange
    obtain ⟨rfl, rfl⟩ := Prod.mk.inj ((Except.ok.inj hrun).symm.trans hwrite)
    have hown := stored_own hzoned' hzone hw p.propId ⟨p.areaId, 0⟩
    rw [Board.own, hwrite] at hown
    rw [hown, acceptedPayload]
    by_cases hp : v.propIdAreaId = p
    · subst hp
      rw [if_pos ⟨rfl, rfl⟩]
      simp only [if_true]
      rfl
    · rw [if_neg fun hkey => hp ?_]
      · simp only [if_neg hp]
        exact hside
      · exact (congrArg₂ PropIdAreaId.mk hkey.1 (congrArg RecordId.area hkey.2)).symm
  · obtain ⟨e, hwrite⟩ := Board.write_of_not_writable hw false .onValueChange
    obtain ⟨rfl, rfl⟩ := Prod.mk.inj ((Except.ok.inj hrun).symm.trans hwrite)
    exact hside

/-- A request of another property gives the pair no payload. -/
theorem acceptedPayload_of_ne (h : v.prop ≠ p.propId) : acceptedPayload p (v, result) = none := by
  rcases result with e | _
  · rfl
  · exact if_neg fun hp => h (congrArg PropIdAreaId.propId hp)

/-- A set that is refused without an effect. -/
theorem payload_of_refused {e : SetValueError} (h : t.board = s.board) :
    t.payloadAt p = (acceptedPayload p (v, .error e)).or (s.payloadAt p) :=
  payloadAt_of_stored (congrArg (fun b : Board => b.store.stored p.propId ⟨p.areaId, 0⟩) h)

/-- A switch of the power is a register, and leaves the payloads of what depends on it. -/
theorem payload_of_setPower (h : Running env.clock start s)
    (hdependents : ∀ q ∈ s.hvacPowerDependentProps, isGlobalProp q = false)
    (hprop : v.prop = hvacPowerOnId) (hset : s.setValue env v = .ok (result, t)) :
    t.payloadAt p = (acceptedPayload p (v, result)).or (s.payloadAt p) := by
  have hzone : isGlobalProp v.prop = false := hprop ▸ isGlobalProp_power
  rcases PropertyState.run_of_zoned h.zoned hzone hset with ⟨_, rfl, hsame⟩ | ⟨_, hrun⟩
  · exact payload_of_refused hsame
  · rcases hints : v.value.int32Values with _ | ⟨hvacPowerOnVal, _ | ⟨_, _⟩⟩
    case cons.nil =>
      rw [PropertyState.propertyRoute_power hprop hints, PropertyState.powerWrites_eq] at hrun
      refine payload_of_plain h.zoned hzone (payload_rewritten
        (h.rewrites_power hdependents v.areaId hvacPowerOnVal) fun x hx => ?_) hrun
      obtain ⟨q, hq, ⟨recId, hstored⟩, _⟩ := PropertyState.mem_powerDependents_iff.mp hx
      obtain rfl := (h.zoned.valid.keyed q recId x hstored).1
      rw [← h.zoned.key (hdependents _ hq) hstored]
      exact hstored
    all_goals
      rw [PropertyState.propertyRoute, hprop, hints] at hrun
      obtain ⟨rfl, hsame⟩ := Prod.mk.inj (Except.ok.inj hrun)
      exact payload_of_refused hsame.symm

/-- The dual mode is a register: what is written before it are temperatures. -/
theorem payload_of_setDual (h : Running env.clock start s)
    (htemperature : p.propId ≠ hvacTemperatureSetId) (hprop : v.prop = hvacDualOnId)
    (hset : s.setValue env v = .ok (result, t)) :
    t.payloadAt p = (acceptedPayload p (v, result)).or (s.payloadAt p) := by
  have hzone : isGlobalProp v.prop = false := hprop ▸ isGlobalProp_dual
  rcases PropertyState.run_of_zoned h.zoned hzone hset with ⟨_, rfl, hsame⟩ | ⟨_, hrun⟩
  · exact payload_of_refused hsame
  · by_cases hone : v.value.int32Values = [1]
    · rw [PropertyState.propertyRoute_dual hprop hone, PropertyState.dualRoute] at hrun
      rcases hread : s.readValuesForProperty env hvacTemperatureSetId with e | values
      · rw [hread] at hrun
        exact payload_of_plain h.zoned hzone rfl hrun
      · simp only [hread] at hrun
        rcases hws : s.syncWrites env v.areaId none values with f | ws
        · rw [hws] at hrun
          cases hrun
        · rw [hws] at hrun
          have hspares : s.board.Spares p.propId (s.board.attemptAll ws) := by
            refine Board.spares_attemptAll (fun w hw => ?_) s.board
            rw [PropertyState.prop_of_mem_syncWrites h.zoned.valid hread hws hw]
            exact htemperature.symm
          obtain ⟨us, rfl⟩ := PropertyState.exists_stampFrom_of_syncWrites env s hws
          simp only [PropertyState.length_stampFrom] at hrun
          exact payload_of_plain h.zoned hzone (congrArg _ (hspares.stored _)) hrun
    · rcases PropertyState.propertyRoute_dual_off hprop hone with hplain | hrefused
      · rw [hplain] at hrun
        exact payload_of_plain h.zoned hzone rfl hrun
      · rw [hrefused] at hrun
        obtain ⟨rfl, hsame⟩ := Prod.mk.inj (Except.ok.inj hrun)
        exact payload_of_refused hsame.symm

/-- A set of any property writes the payload of a register if it is one of it and accepted, and
leaves the payload otherwise. -/
theorem payload_of_setValue (h : Running env.clock start s)
    (hdependents : ∀ q ∈ s.hvacPowerDependentProps, isGlobalProp q = false)
    (hp : IsRegister p.propId) (hset : s.setValue env v = .ok (result, t)) :
    t.payloadAt p = (acceptedPayload p (v, result)).or (s.payloadAt p) := by
  by_cases hpower : v.prop = hvacPowerOnId
  · exact payload_of_setPower h hdependents hpower hset
  · by_cases hdual : v.prop = hvacDualOnId
    · exact payload_of_setDual h hp.temperature hdual hset
    · by_cases hown : v.prop = p.propId
      · have hzone : isGlobalProp v.prop = false := hown ▸ hp.zone
        rcases PropertyState.run_of_zoned h.zoned hzone hset with ⟨_, rfl, hsame⟩ | ⟨_, hrun⟩
        · exact payload_of_refused hsame
        · rw [PropertyState.propertyRoute_zoned hzone hpower (hown ▸ hp.temperature) hdual] at hrun
          exact payload_of_plain h.zoned hzone rfl hrun
      · rw [acceptedPayload_of_ne hown, Option.none_or]
        exact payloadAt_of_stored ((PropertyState.spares_of_setValue h.zoned.valid h.userHal
          hp.zone hp.adas hown hpower (fun _ => hp.temperature) hset).stored _)

end Step

section Runs

variable {clock : Nat → Int} {start s t : PropertyState} {p : PropIdAreaId}
  {calls : List (VehiclePropValue × Except SetValueError Unit)}

/-- A request keeps a running state. -/
theorem SetAttempt.running {call : VehiclePropValue × Except SetValueError Unit}
    (h : SetAttempt clock s call t) (hs : Running clock start s) : Running clock start t := by
  obtain ⟨env, rfl, hset⟩ := h
  exact PropertyState.leaves_setValue (running_keptByChanges env start) call.1 hs call.2 t hset

/-- After a run a register has the payload that was accepted last. -/
theorem payload_of_run (hstart : Running clock start start)
    (hdependents : ∀ q ∈ start.hvacPowerDependentProps, isGlobalProp q = false)
    (hp : IsRegister p.propId) (hrun : Path (SetAttempt clock) start calls s) :
    Running clock start s ∧
      s.payloadAt p = ((calls.filterMap (acceptedPayload p)).getLast?).or (start.payloadAt p) := by
  have hkept : ∀ s call t, Running clock start s → SetAttempt clock s call t →
      Running clock start t := fun _ _ _ h hcall => hcall.running h
  refine ⟨hrun.invariant hstart hkept,
    hrun.lastWord (O := fun s => s.payloadAt p) hstart hkept ?_⟩
  rintro s call t hrunning ⟨env, rfl, hset⟩
  exact payload_of_setValue hrunning (hrunning.dependents ▸ hdependents) hp hset

/-- The store reads a property with areas by its area. -/
theorem readValue_of_zoned (hzoned : Zoned s.mServerSidePropStore) {v : VehiclePropValue}
    (hzone : isGlobalProp v.prop = false)
    (hregistered : s.mServerSidePropStore.IsRegistered v.prop) :
    s.mServerSidePropStore.readValue v =
      (s.mServerSidePropStore.stored v.prop ⟨v.areaId, 0⟩).elim
        (.error (.recordNotFound ⟨v.areaId, 0⟩)) .ok := by
  have hkey := hzoned.recordIdOf_eq hregistered hzone
  obtain ⟨record, hrecord⟩ := Option.isSome_iff_exists.mp hregistered
  rw [recordIdOf_of_record hrecord, Option.some.injEq] at hkey
  rw [readValue, hrecord, stored_of_record hrecord]
  simp only
  rw [hkey, readValueLocked]
  cases record.values.lookup ⟨v.areaId, 0⟩ with
  | none => rfl
  | some value => rfl

/-- Only the state of the air conditioning makes the value of such a property a special one. -/
theorem maybeGetSpecialValue_of_zoned (context : GetContext) (s : PropertyState)
    {v : VehiclePropValue} (hzone : isGlobalProp v.prop = false) :
    s.maybeGetSpecialValue context v = .ok
      (if s.isHvacPropAndHvacNotAvailable context.env v.prop v.areaId then
        some (.error .hvacNotAvailable)
      else none) := by
  have hne {q : Int} (hq : isGlobalProp q = true) : ¬v.prop = q :=
    ne_of_isGlobalProp hzone hq
  have hexternal : PropertyState.getPowerPropFromExternalService context v = none := by
    rw [PropertyState.getPowerPropFromExternalService]
    split
    · rfl
    · rw [if_neg (hne (by decide)), if_neg (hne (by decide))]
  have hspecial : s.getSpecialProperty context v = .ok none := by
    rw [PropertyState.getSpecialProperty, if_neg (hne (by decide)), if_neg (hne (by decide)),
      if_neg (hne (by decide)), if_neg (hne (by decide)), if_neg (hne (by decide)),
      if_neg (not_or.mpr ⟨hne (by decide), hne (by decide)⟩)]
  rw [PropertyState.maybeGetSpecialValue, hexternal]
  simp only
  rw [if_neg (not_vendorCode hzone), if_neg (not_isSupported hzone), hspecial]
  split <;> rfl

/-- A read of a property with areas has no other source than its record. -/
theorem getValue_of_zoned (context : GetContext) (hzoned : Zoned s.mServerSidePropStore)
    {v : VehiclePropValue} (hzone : isGlobalProp v.prop = false)
    (hregistered : s.mServerSidePropStore.IsRegistered v.prop) :
    s.getValue context v = .ok
      (if s.isHvacPropAndHvacNotAvailable context.env v.prop v.areaId then .error .hvacNotAvailable
      else (s.mServerSidePropStore.stored v.prop ⟨v.areaId, 0⟩).elim (.error .notSet) .ok) := by
  rw [PropertyState.getValue, maybeGetSpecialValue_of_zoned context s hzone]
  by_cases hhvac : s.isHvacPropAndHvacNotAvailable context.env v.prop v.areaId = true
  · rw [if_pos hhvac, if_pos hhvac]
    rfl
  · rw [if_neg hhvac, if_neg hhvac]
    dsimp only [bind, Except.bind]
    rw [readValue_of_zoned hzoned hzone hregistered]
    cases s.mServerSidePropStore.stored v.prop ⟨v.areaId, 0⟩ with
    | none => rfl
    | some value => rfl

/-- In a run, a read of a property with areas gives the payload of its record, unless the air
conditioning is off. -/
theorem getValue_of_running (hrunning : Running clock start s) (hp : IsRegister p.propId)
    (hregistered : start.mServerSidePropStore.IsRegistered p.propId) (context : GetContext)
    {request : VehiclePropValue} (hrequest : request.propIdAreaId = p) :
    (s.getValue context request).map (Except.map fun value => (value.propIdAreaId, value.value)) =
      .ok (if s.isHvacPropAndHvacNotAvailable context.env p.propId p.areaId then
        .error .hvacNotAvailable
      else (s.payloadAt p).elim (.error .notSet) fun payload => .ok (p, payload)) := by
  subst hrequest
  have hzone : isGlobalProp request.prop = false := hp.zone
  rw [getValue_of_zoned context hrunning.zoned hzone
    ((isRegistered_congr (hrunning.registration _)).mpr hregistered)]
  change Except.ok (Except.map _ (if s.isHvacPropAndHvacNotAvailable context.env request.prop
    request.areaId = true then _ else _)) = _
  congr 1
  by_cases hhvac :
      s.isHvacPropAndHvacNotAvailable context.env request.prop request.areaId = true
  · rw [if_pos hhvac]
    exact (if_pos hhvac).symm
  · rw [if_neg hhvac]
    refine Eq.trans ?_ (if_neg hhvac).symm
    rw [PropertyState.payloadAt]
    cases hstored : s.mServerSidePropStore.stored request.prop ⟨request.areaId, 0⟩ with
    | none =>
        rw [VehiclePropValue.propIdAreaId, hstored]
        rfl
    | some value =>
        have hprop := (hrunning.zoned.valid.keyed _ _ value hstored).1
        have harea : request.areaId = value.areaId :=
          congrArg RecordId.area (hrunning.zoned.key hzone hstored)
        rw [VehiclePropValue.propIdAreaId, hstored]
        change Except.ok (PropIdAreaId.mk value.prop value.areaId, value.value) = _
        rw [hprop, ← harea]
        rfl

/-- After any run of sets, a read of a property with areas gives the payload that was accepted
last for the area, or the first one if none was accepted, unless the air conditioning is off. -/
theorem getValue_of_run (hstart : Running clock start start)
    (hdependents : ∀ q ∈ start.hvacPowerDependentProps, isGlobalProp q = false)
    (hp : IsRegister p.propId) (hregistered : start.mServerSidePropStore.IsRegistered p.propId)
    (hrun : Path (SetAttempt clock) start calls s) (context : GetContext)
    (request : VehiclePropValue) (hrequest : request.propIdAreaId = p) :
    (s.getValue context request).map (Except.map fun value => (value.propIdAreaId, value.value)) =
      .ok (if s.isHvacPropAndHvacNotAvailable context.env p.propId p.areaId then
        .error .hvacNotAvailable
      else (((calls.filterMap (acceptedPayload p)).getLast?).or (start.payloadAt p)).elim
        (.error .notSet) fun payload => .ok (p, payload)) := by
  obtain ⟨hrunning, hpayload⟩ := payload_of_run hstart hdependents hp hrun
  rw [getValue_of_running hrunning hp hregistered context hrequest, hpayload]

/-- The power of the cabin is read as it was set. -/
theorem power_of_cabin_read_back : ∃ s,
    Path (SetAttempt fun _ => 5) cabin [(switchPower 1 0, .ok ())] s ∧ ∀ context,
      (s.getValue context { prop := hvacPowerOnId, areaId := 1 }).map
          (Except.map fun value => (value.propIdAreaId, value.value)) =
        .ok (if s.isHvacPropAndHvacNotAvailable context.env hvacPowerOnId 1 then
          .error .hvacNotAvailable
        else .ok (⟨hvacPowerOnId, 1⟩, { int32Values := [0] })) := by
  obtain ⟨s, hset⟩ : ∃ s, cabin.setValue .still (switchPower 1 0) = .ok (.ok (), s) := ⟨_, rfl⟩
  have hrun : Path (SetAttempt fun _ => 5) cabin [(switchPower 1 0, .ok ())] s :=
    .single ⟨.still, rfl, hset⟩
  have hp : IsRegister (⟨hvacPowerOnId, 1⟩ : PropIdAreaId).propId :=
    ⟨by decide, by decide, by decide⟩
  have hregistered : cabin.mServerSidePropStore.IsRegistered
      (⟨hvacPowerOnId, 1⟩ : PropIdAreaId).propId := rfl
  exact ⟨s, hrun, fun context => getValue_of_run cabin_running cabin_wellPowered.zoned
    hp hregistered hrun context _ rfl⟩

end Runs

end VhalCore.FakeHardware
