import VhalCore.Models.FakeHardware.Interpretation.Route

/-!
# A set runs its route

Function by function, the code of a set is followed on the board. The loops that write
dependent properties are sequences of attempts, with values that can be read before the
first of them: a write to one property does not change what is read for another one.
-/

namespace VhalCore.FakeHardware

open PropertyStore VehiclePropertyStore

namespace Board

/-- A write leaves the records of other properties as they are. -/
theorem getRecordLocked_write_of_ne {q : Int} {w : VehiclePropValue} (h : w.prop ≠ q)
    (updateStatus : Bool) (eventMode : PropertyStore.EventMode) (b : Board) :
    (b.write w updateStatus eventMode).2.store.getRecordLocked q = b.store.getRecordLocked q := by
  by_cases hw : b.store.Writable w
  · obtain ⟨record, hr⟩ := Option.isSome_iff_exists.mp hw.registered
    rw [write_of_writable hw, put_of_record hr, getRecordLocked_withRecord, if_neg h.symm]
  · obtain ⟨e, he⟩ := write_of_not_writable hw updateStatus eventMode
    rw [he]

/-- Attempts leave the records of other properties. -/
theorem getRecordLocked_attemptAll_of_ne {q : Int} {ws : List VehiclePropValue}
    (h : ∀ w ∈ ws, w.prop ≠ q) (b : Board) :
    (b.attemptAll ws).store.getRecordLocked q = b.store.getRecordLocked q := by
  induction ws generalizing b with
  | nil => rfl
  | cons w ws ih =>
      rw [attemptAll, ih (fun x hx => h x (List.mem_cons_of_mem _ hx)),
        getRecordLocked_write_of_ne (h w (List.mem_cons_self ..))]

end Board

/-- A stamped value is one of the values with one of the stamps. -/
theorem Environment.mem_stampFrom {env : Environment} {k : Nat} {ws : List VehiclePropValue}
    {x : VehiclePropValue} (h : x ∈ env.stampFrom k ws) :
    ∃ w ∈ ws, ∃ i, k ≤ i ∧ i < k + ws.length ∧ x = env.stamped i w := by
  induction ws generalizing k with
  | nil => cases h
  | cons w ws ih =>
      rcases List.mem_cons.mp h with rfl | h
      · exact ⟨w, List.mem_cons_self .., k, le_rfl, by simp, rfl⟩
      · obtain ⟨y, hy, i, hk, hi, rfl⟩ := ih h
        exact ⟨y, List.mem_cons_of_mem _ hy, i, by omega, by simp only [List.length_cons]; omega,
          rfl⟩

namespace PropertyState

/-- The state with another board, at a later moment. -/
def withBoard (s : PropertyState) (b : Board) (moments : Nat) : PropertyState :=
  { s with mServerSidePropStore := b.store, emitted := b.emitted, moments }

variable (env : Environment) (s : PropertyState) (v : VehiclePropValue)

/-- The board that is put in is there. -/
@[simp] theorem board_withBoard (b : Board) (k : Nat) : (s.withBoard b k).board = b := rfl

/-- The last board counts. -/
@[simp] theorem withBoard_withBoard (b c : Board) (k l : Nat) :
    (s.withBoard b k).withBoard c l = s.withBoard c l := rfl

/-- The time that is put in is there. -/
@[simp] theorem moments_withBoard (b : Board) (k : Nat) : (s.withBoard b k).moments = k := rfl

/-- The store is that of the board. -/
@[simp] theorem store_withBoard (b : Board) (k : Nat) :
    (s.withBoard b k).mServerSidePropStore = b.store := rfl

/-- A write at the current time is a write to the board. -/
theorem writeNow_eq (updateStatus : Bool) (eventMode : PropertyStore.EventMode) :
    writeNow env v updateStatus eventMode s =
      ((s.board.write (env.stamped s.moments v) updateStatus eventMode).1,
        s.withBoard (s.board.write (env.stamped s.moments v) updateStatus eventMode).2
          (s.moments + 1)) := rfl

/-- The state after some attempts. -/
def afterAll (ws : List VehiclePropValue) : PropertyState :=
  s.withBoard (s.board.attemptAll (env.stampFrom s.moments ws)) (s.moments + ws.length)

/-- Without writes nothing happens. -/
@[simp] theorem afterAll_nil : s.afterAll env [] = s := rfl

/-- The first of some writes comes first. -/
theorem afterAll_cons (w : VehiclePropValue) (ws : List VehiclePropValue) :
    s.afterAll env (w :: ws) = (writeNow env w true .always s).2.afterAll env ws := by
  simp only [afterAll, writeNow_eq, withBoard_withBoard, board_withBoard, moments_withBoard,
    List.length_cons, Environment.stampFrom, Board.attemptAll]
  congr 1
  omega

/-- Some writes come after others. -/
theorem afterAll_append (as bs : List VehiclePropValue) :
    s.afterAll env (as ++ bs) = (s.afterAll env as).afterAll env bs := by
  induction as generalizing s with
  | nil => rfl
  | cons a as ih => rw [List.cons_append, afterAll_cons, ih, ← afterAll_cons]

/-- Telling some values writes those that the area covers. -/
theorem sendValues_eq (areaId hvacPowerOnVal : Int) (values : List VehiclePropValue) :
    sendValues env areaId hvacPowerOnVal values s =
      s.afterAll env ((values.filter fun v => coversArea areaId v.areaId).map fun v =>
        { v with status := if hvacPowerOnVal = 0 then .unavailable else .available }) := by
  induction values generalizing s with
  | nil => rfl
  | cons value values ih =>
      rw [sendValues, List.filter_cons]
      split
      · rw [ih, List.map_cons, afterAll_cons]
      · rw [ih]

/-- The values of a property are read from its record. -/
theorem powerWrites_congr {s t : PropertyState} {q : Int}
    (h : t.mServerSidePropStore.getRecordLocked q = s.mServerSidePropStore.getRecordLocked q)
    (areaId hvacPowerOnVal : Int) :
    t.powerWrites env areaId hvacPowerOnVal q = s.powerWrites env areaId hvacPowerOnVal q := by
  rw [powerWrites, powerWrites, readValuesForProperty, readValuesForProperty,
    VehiclePropertyStore.readValuesForProperty, VehiclePropertyStore.readValuesForProperty, h]

/-- The switch of the power attempts the writes that are read before the first of them. -/
theorem sendPowerProps_eq {areaId hvacPowerOnVal : Int} {ids : List Int} (hids : ids.Nodup)
    (hkeyed : ∀ p ∈ ids, ∀ w ∈ s.powerWrites env areaId hvacPowerOnVal p, w.prop = p) :
    sendPowerProps env areaId hvacPowerOnVal ids s =
      s.afterAll env (ids.flatMap (s.powerWrites env areaId hvacPowerOnVal)) := by
  induction ids generalizing s with
  | nil => rfl
  | cons p ids ih =>
      obtain ⟨hnot, hrest⟩ := List.nodup_cons.mp hids
      have hfirst : sendPowerProps env areaId hvacPowerOnVal (p :: ids) s =
          sendPowerProps env areaId hvacPowerOnVal ids
            (s.afterAll env (s.powerWrites env areaId hvacPowerOnVal p)) := by
        rcases hr : s.readValuesForProperty env p with e | values
        · simp only [sendPowerProps, powerWrites, hr, afterAll_nil]
        · simp only [sendPowerProps, powerWrites, hr, sendValues_eq]
      have hsame (q : Int) (hq : q ∈ ids) :
          (s.afterAll env (s.powerWrites env areaId hvacPowerOnVal p)).powerWrites env areaId
            hvacPowerOnVal q = s.powerWrites env areaId hvacPowerOnVal q := by
        refine powerWrites_congr env (Board.getRecordLocked_attemptAll_of_ne ?_ s.board) _ _
        intro x hx
        obtain ⟨w, hw, i, _, _, rfl⟩ := Environment.mem_stampFrom hx
        rintro rfl
        exact hnot (hkeyed p (List.mem_cons_self ..) w hw ▸ hq)
      rw [hfirst, ih _ hrest, List.flatMap_cons, afterAll_append]
      · exact congrArg _ (List.flatMap_congr hsame)
      · intro q hq w hw
        rw [hsame q hq] at hw
        exact hkeyed q (List.mem_cons_of_mem _ hq) w hw

/-- Setting a state of the driver assistance writes it in all of its areas. -/
theorem sendAdasAreas_eq (dependentPropId state : Int) (areaConfigs : List VehicleAreaConfig) :
    sendAdasAreas env dependentPropId state areaConfigs s =
      s.afterAll env (areaConfigs.map fun areaConfig =>
        createAdasStateReq dependentPropId areaConfig.areaId
          (adasState dependentPropId state)) := by
  induction areaConfigs generalizing s with
  | nil => rfl
  | cons areaConfig areaConfigs ih => rw [sendAdasAreas, ih, List.map_cons, afterAll_cons]

/-- Attempts do not change the configs. -/
theorem getPropConfig_afterAll (ws : List VehiclePropValue) (p : Int) :
    (s.afterAll env ws).mServerSidePropStore.getPropConfig p =
      s.mServerSidePropStore.getPropConfig p := by
  have hconfig (store : VehiclePropertyStore) : store.getPropConfig p =
      match store.registration p with
      | none => .error (.notRegistered p)
      | some r => .ok r.1 := by
    rw [getPropConfig, registration]
    rcases store.getRecordLocked p with _ | record <;> rfl
  have hadv : Advances (env.clock (s.moments + ws.length)) s.board.store
      (s.board.attemptAll (env.stampFrom s.moments ws)).store :=
    Board.attemptAll_advances s.board fun x hx => by
      obtain ⟨w, _, i, _, hi, rfl⟩ := Environment.mem_stampFrom hx
      exact env.monotone hi.le
  have hreg : (s.afterAll env ws).mServerSidePropStore.registration p =
      s.mServerSidePropStore.registration p := hadv.registration p
  rw [hconfig, hconfig, hreg]

/-- The switch of a feature attempts the states that are told before the first of them. -/
theorem sendAdasProps_eq (state : Int) (ids : List Int) :
    sendAdasProps env state ids s = s.afterAll env (ids.flatMap (s.adasWrites state)) := by
  induction ids generalizing s with
  | nil => rfl
  | cons p ids ih =>
      have hfirst : sendAdasProps env state (p :: ids) s =
          sendAdasProps env state ids (s.afterAll env (s.adasWrites state p)) := by
        rcases hr : s.mServerSidePropStore.getPropConfig p with e | config
        · simp only [sendAdasProps, adasWrites, hr, afterAll_nil]
        · simp only [sendAdasProps, adasWrites, hr, sendAdasAreas_eq]
      rw [hfirst, ih, List.flatMap_cons, afterAll_append]
      refine congrArg _ (List.flatMap_congr fun q _ => ?_)
      unfold adasWrites
      rw [getPropConfig_afterAll]

/-- Later writes are reached on the store after an earlier one as they were before it. -/
theorem reached_congr {t : Int} {a b : VehiclePropertyStore} (h : Advances t a b)
    {ws : List VehiclePropValue} (hws : ∀ w ∈ ws, t ≤ w.timestamp) :
    reached b ws = reached a ws := by
  induction ws with
  | nil => rfl
  | cons w ws ih =>
      have hw := h.writable_iff (hws w (List.mem_cons_self ..))
      simp only [reached, hw, ih fun x hx => hws x (List.mem_cons_of_mem _ hx)]

/-- No stamp is before the first. -/
theorem le_stampFrom {k : Nat} {ws : List VehiclePropValue} {x : VehiclePropValue}
    (h : x ∈ env.stampFrom k ws) : env.clock k ≤ x.timestamp := by
  obtain ⟨w, _, i, hk, _, rfl⟩ := Environment.mem_stampFrom h
  exact env.monotone hk

/-- The state after the writes of a synchronisation, with the result of the last one. -/
def afterUntil (ws : List VehiclePropValue) : Except SetValueError Unit × PropertyState :=
  ((s.board.attemptUntil ws).1,
    s.withBoard (s.board.attemptUntil ws).2 (s.moments + ws.length))

/-- A writable value is written before the others. -/
theorem afterUntil_cons_of_writable {w : VehiclePropValue} (h : s.mServerSidePropStore.Writable w)
    (ws : List VehiclePropValue) :
    s.afterUntil (w :: ws) =
      (s.withBoard (s.board.write w true .always).2 (s.moments + 1)).afterUntil ws := by
  have hcons : s.board.attemptUntil (w :: ws) =
      (s.board.write w true .always).2.attemptUntil ws := Board.attemptUntil_cons_of_writable h
  simp only [afterUntil, hcons, board_withBoard, moments_withBoard, withBoard_withBoard,
    List.length_cons]
  rw [show s.moments + (ws.length + 1) = s.moments + 1 + ws.length by omega]

/-- Behind a writable value the next one is reached. -/
theorem reached_cons_of_writable {store : VehiclePropertyStore} {w : VehiclePropValue}
    (hne : w.value.floatValues ≠ []) (h : store.Writable w) (ws : List VehiclePropValue) :
    reached store (w :: ws) = (reached store ws).map (w :: ·) := by
  rw [reached, if_neg hne, if_pos h]

/-- Behind a value that cannot be written none is reached. -/
theorem reached_cons_of_not_writable {store : VehiclePropertyStore} {w : VehiclePropValue}
    (hne : w.value.floatValues ≠ []) (h : ¬store.Writable w) (ws : List VehiclePropValue) :
    reached store (w :: ws) = .ok [w] := by
  rw [reached, if_neg hne, if_neg h]

/-- Two maps are one. -/
theorem except_map_map {ε α β γ : Type} (x : Except ε α) (f : α → β) (g : β → γ) :
    (x.map f).map g = x.map fun a => g (f a) := by
  cases x <;> rfl

/-- A value is passed over exactly if it is no target. -/
theorem not_target_eq (hvacDualOnAreaId : Int) (value : VehiclePropValue) :
    (!coversArea hvacDualOnAreaId value.areaId || value.status != .available) =
      !(coversArea hvacDualOnAreaId value.areaId && value.status == .available) := by
  simp [bne]

/-- With a temperature the loop writes it to the targets that are reached. -/
theorem synchronizeLoop_some (hvacDualOnAreaId : Int) (temp : Binary32)
    (values : List VehiclePropValue) :
    synchronizeLoop env hvacDualOnAreaId (some temp) values s =
      (reached s.mServerSidePropStore (env.stampFrom s.moments
        ((syncTargets hvacDualOnAreaId values).map (setTemp temp)))).map s.afterUntil := by
  induction values generalizing s with
  | nil => rfl
  | cons value values ih =>
      rw [synchronizeLoop, syncTargets, List.filter_cons, not_target_eq]
      rcases htarget : coversArea hvacDualOnAreaId value.areaId && value.status == .available
      · simp only [Bool.not_false, ite_true, Bool.false_eq_true, ite_false]
        exact ih s
      · simp only [Bool.not_true, Bool.false_eq_true, ite_false, ite_true, List.map_cons,
          Environment.stampFrom]
        rcases hfloats : value.value.floatValues with _ | ⟨f, fs⟩
        · simp only [assignAt, reached, Environment.stamped, setTemp, hfloats, List.set_nil,
            ite_true]
          rfl
        · have hset : setTemp temp value =
              { value with value := { value.value with floatValues := temp :: fs } } := by
            simp only [setTemp, hfloats, List.set_cons_zero]
          generalize hw : ({ value with
            value := { value.value with
              floatValues := temp :: fs } } : VehiclePropValue) = w at hset
          have hne : (env.stamped s.moments w).value.floatValues ≠ [] := by
            simp [Environment.stamped, ← hw]
          have hassign : assignAt (f :: fs) 0 temp = .ok (temp :: fs) := rfl
          rw [hassign, hset]
          simp only [bind, Except.bind, hw, writeNow_eq]
          by_cases hwrite : s.mServerSidePropStore.Writable (env.stamped s.moments w)
          · have hok : (s.board.write (env.stamped s.moments w) true .always).1 = .ok () := by
              rw [Board.write_of_writable hwrite]
            simp only [hok]
            rw [ih, reached_cons_of_writable hne hwrite, except_map_map]
            simp only [store_withBoard, moments_withBoard, afterUntil_cons_of_writable s hwrite]
            rw [reached_congr (Board.write_advances true .always s.board _)
              fun x hx => (env.monotone (Nat.le_succ _)).trans (le_stampFrom env hx)]
            rfl
          · obtain ⟨e, he⟩ := Board.write_of_not_writable (b := s.board) hwrite true .always
            have hone : s.board.attemptUntil [env.stamped s.moments w] = (.error e, s.board) := by
              rw [Board.attemptUntil, he]
            simp only [he, reached_cons_of_not_writable hne hwrite, Except.map, afterUntil, hone]
            rfl

/-- Without a temperature the first target gives it. -/
theorem synchronizeLoop_eq (hvacDualOnAreaId : Int) (newTempC : Option Binary32)
    (values : List VehiclePropValue) :
    synchronizeLoop env hvacDualOnAreaId newTempC values s =
      (s.syncWrites env hvacDualOnAreaId newTempC values).map s.afterUntil := by
  cases newTempC with
  | some temp => exact synchronizeLoop_some env s hvacDualOnAreaId temp values
  | none =>
      induction values with
      | nil => rfl
      | cons value values ih =>
          rw [synchronizeLoop, not_target_eq]
          rcases htarget : coversArea hvacDualOnAreaId value.areaId && value.status == .available
          · simp only [Bool.not_false, ite_true]
            rw [ih]
            simp only [syncWrites, syncTargets, List.filter_cons, htarget, Bool.false_eq_true,
              ite_false]
          · simp only [Bool.not_true, Bool.false_eq_true, ite_false]
            simp only [syncWrites, syncTargets, List.filter_cons, htarget, ite_true]
            rcases elementAt value.value.floatValues 0 with f | temp
            · rfl
            · exact synchronizeLoop_some env s hvacDualOnAreaId temp values

/-- In the reached part every write but the last one succeeds. -/
theorem attemptUntil_snd_of_reached {b : Board} {ws rs : List VehiclePropValue}
    (hsorted : ws.Pairwise fun a b => a.timestamp ≤ b.timestamp)
    (h : reached b.store ws = .ok rs) : (b.attemptUntil rs).2 = b.attemptAll rs := by
  induction ws generalizing b rs with
  | nil =>
      cases h
      rfl
  | cons w ws ih =>
      obtain ⟨hle, hrest⟩ := List.pairwise_cons.mp hsorted
      by_cases hne : w.value.floatValues = []
      · rw [reached, if_pos hne] at h
        cases h
      · by_cases hw : b.store.Writable w
        · rw [reached_cons_of_writable hne hw,
            ← reached_congr (Board.write_advances true .always b w) hle] at h
          rcases hrs : reached (b.write w true .always).2.store ws with f | rest
          · rw [hrs] at h
            cases h
          · rw [hrs] at h
            cases h
            rw [Board.attemptUntil_cons_of_writable hw, Board.attemptAll]
            exact ih hrest hrs
        · rw [reached_cons_of_not_writable hne hw] at h
          cases h
          obtain ⟨e, he⟩ := Board.write_of_not_writable hw true .always
          simp only [Board.attemptUntil, Board.attemptAll, he]

/-- The stamps ascend. -/
theorem stampFrom_sorted (k : Nat) (ws : List VehiclePropValue) :
    (env.stampFrom k ws).Pairwise fun a b => a.timestamp ≤ b.timestamp := by
  induction ws generalizing k with
  | nil => exact .nil
  | cons w ws ih =>
      refine List.pairwise_cons.mpr ⟨fun x hx => ?_, ih (k + 1)⟩
      exact (env.monotone (Nat.le_succ k)).trans (le_stampFrom env hx)

/-- The writes of a synchronisation stop at no failure before the last. -/
theorem attemptUntil_snd_of_syncWrites {hvacDualOnAreaId : Int} {newTempC : Option Binary32}
    {values ws : List VehiclePropValue}
    (h : s.syncWrites env hvacDualOnAreaId newTempC values = .ok ws) :
    (s.board.attemptUntil ws).2 = s.board.attemptAll ws := by
  unfold syncWrites at h
  split at h
  · exact attemptUntil_snd_of_reached (stampFrom_sorted env _ _) h
  · cases h
    rfl
  · rename_i first targets _
    rcases helement : elementAt first.value.floatValues 0 with f | temp
    · rw [helement] at h
      cases h
    · rw [helement] at h
      exact attemptUntil_snd_of_reached (stampFrom_sorted env _ _) h

/-- What a call leaves, without the state of the user HAL. -/
def view (outcome : Outcome) : View := outcome.map fun (result, s) => (result, s.board)

/-- The end of a set: a value that is not special is written. -/
def finish (decision : Decision) : Outcome := do
  let ((isSpecialValue, setSpecialValueResult), s) ← decision
  if isSpecialValue then return (setSpecialValueResult, s)
  else return s.writeValue env v false .onValueChange true

/-- A refused request does what its route does. -/
@[simp] theorem view_finish_refuse (error : SetValueError) :
    view (finish env v (refuse error s)) = (Route.refused error).run s.board := rfl

/-- A special request is not written to the store. -/
@[simp] theorem view_finish_special (outcome : Outcome) :
    view (finish env v (special outcome)) = view outcome := by
  rcases outcome with f | ⟨result, t⟩ <;> rfl

/-- A value that is not special is written after the attempts. -/
theorem view_finish_plain (ws : List VehiclePropValue) :
    view (finish env v (plain (s.afterAll env ws))) = (s.plainRoute env v ws).run s.board := rfl

/-- A power report does what its route does. -/
theorem view_report :
    view (s.setApPowerStateReport env v) = (s.reportRoute env v).run s.board := by
  unfold setApPowerStateReport reportRoute
  rw [writeNow_eq]
  by_cases hw : s.mServerSidePropStore.Writable (env.stamped s.moments v)
  · obtain ⟨b, hok⟩ : ∃ b, s.board.write (env.stamped s.moments v) false .onValueChange =
        (.ok (), b) := ⟨_, Board.write_of_writable hw false .onValueChange⟩
    rcases hstates : v.value.int32Values with _ | ⟨state, rest⟩
    · simp only [hok, if_pos hw]
      rfl
    · simp only [hok, powerRequest, Route.run]
      rw [show elementAt (state :: rest) 0 = .ok state from rfl]
      simp only [bind, Except.bind]
      split_ifs <;> rfl
  · obtain ⟨e, he⟩ := Board.write_of_not_writable (b := s.board) hw false .onValueChange
    rcases v.value.int32Values with _ | ⟨state, rest⟩
    · simp only [he, if_neg hw, Route.run]
      rfl
    · simp only [he, Route.run]
      rfl

/-- A shutdown request does what its route does. -/
theorem view_shutdown :
    view (s.setApPowerStateReqShutdown env v) =
      (match v.value.int32Values with
      | [parameter] => Route.single (env.stamped s.moments (createApPowerStateReq 1 parameter))
      | _ => .refused .shutdownRequestSize).run s.board := by
  unfold setApPowerStateReqShutdown
  rcases v.value.int32Values with _ | ⟨parameter, _ | ⟨_, _⟩⟩ <;> rfl

/-- A suggestion does what its route does. -/
theorem view_suggestion :
    view (s.setHvacTemperatureValueSuggestion env v) = (s.suggestionRoute env v).run s.board := by
  unfold setHvacTemperatureValueSuggestion suggestionRoute
  rcases s.mServerSidePropStore.getPropConfig hvacTemperatureSetId with e | config
  · rfl
  · rcases v.value.floatValues with _ | ⟨a, _ | ⟨unit, _ | ⟨c, _ | ⟨d, _ | ⟨_, _⟩⟩⟩⟩⟩
    case cons.cons.cons.cons.nil =>
      simp only
      split_ifs
      · rfl
      · rcases updateHvacTemperatureValueSuggestionInput config.configArray [a, unit, c, d]
          with f | floatValues <;> rfl
    all_goals rfl

/-- A request of the user HAL does what its route does. -/
theorem view_userHal : view (s.setUserHalProp env v) = (s.userHalRoute env v).run s.board := by
  unfold setUserHalProp userHalRoute
  rcases s.mFakeUserHal.onSetProperty (env.clock s.moments) v with f | ⟨e | _ | updatedValue, hal⟩
    <;> rfl

/-- The value of the temperature is written, or its areas are synchronised. -/
theorem view_temperature (temp : Binary32) :
    view (finish env v (match s.getSyncedAreaIdIfHvacDualOn env v.areaId with
      | some hvacDualOnAreaId => special (s.synchronizeHvacTemp env hvacDualOnAreaId (some temp))
      | none => plain s)) = (s.temperatureRoute env v temp).run s.board := by
  unfold temperatureRoute
  rcases s.getSyncedAreaIdIfHvacDualOn env v.areaId with _ | hvacDualOnAreaId
  · exact view_finish_plain env s v []
  · simp only [view_finish_special, synchronizeHvacTemp]
    rcases s.readValuesForProperty env hvacTemperatureSetId with e | values
    · rfl
    · simp only [synchronizeLoop_eq]
      rcases s.syncWrites env hvacDualOnAreaId (some temp) values with f | ws <;> rfl

/-- The areas are synchronised, and the value of the switch is written in any case. -/
theorem view_dual :
    view (finish env v (do
      let (_, s) ← s.synchronizeHvacTemp env v.areaId none
      plain s)) = (s.dualRoute env v).run s.board := by
  unfold dualRoute synchronizeHvacTemp
  rcases s.readValuesForProperty env hvacTemperatureSetId with e | values
  · exact view_finish_plain env s v []
  · simp only [synchronizeLoop_eq]
    rcases hws : s.syncWrites env v.areaId none values with f | ws
    · rfl
    · have hall := attemptUntil_snd_of_syncWrites env s hws
      simp only [Route.run, ← hall]
      rfl

/-- A request that needs an available property does what its route does. -/
theorem view_available (available : Except SetValueError Unit) :
    view (finish env v (match available with
      | .error e => refuse e s
      | .ok () => plain s)) = (s.availableRoute env v available).run s.board := by
  rcases available with e | _
  · rfl
  · exact view_finish_plain env s v []

/-- A cruise control command does what its route does. -/
theorem view_command :
    view (finish env v (match s.isAdasPropertyAvailable cruiseControlStateId with
      | .error e => refuse e s
      | .ok () => do
          match ← s.isCruiseControlTypeStandard with
          | .error e => refuse e s
          | .ok false => plain s
          | .ok true =>
              let command ← elementAt v.value.int32Values 0
              if command = 5 ∨ command = 6 then refuse .timeGapCommandOnStandard s else plain s)) =
      (s.cruiseRoute env v (s.commandRoute env v)).run s.board := by
  unfold cruiseRoute commandRoute
  rcases s.isAdasPropertyAvailable cruiseControlStateId with e | _
  · rfl
  · rcases s.isCruiseControlTypeStandard with f | e | _ | _
    · rfl
    · rfl
    · exact view_finish_plain env s v []
    · rcases v.value.int32Values with _ | ⟨command, rest⟩
      · rfl
      · rw [show elementAt (command :: rest) 0 = .ok command from rfl]
        simp only [bind, Except.bind]
        split_ifs
        · rfl
        · exact view_finish_plain env s v []

/-- A request for a time gap does what its route does. -/
theorem view_timeGap :
    view (finish env v (match s.isAdasPropertyAvailable cruiseControlStateId with
      | .error e => refuse e s
      | .ok () => do
          match ← s.isCruiseControlTypeStandard with
          | .error e => refuse e s
          | .ok true => refuse .timeGapOnStandard s
          | .ok false => plain s)) =
      (s.cruiseRoute env v (.refused .timeGapOnStandard)).run s.board := by
  unfold cruiseRoute
  rcases s.isAdasPropertyAvailable cruiseControlStateId with e | _
  · rfl
  · rcases s.isCruiseControlTypeStandard with f | e | _ | _
    · rfl
    · rfl
    · exact view_finish_plain env s v []
    · rfl

/-- A request to clear frames does what its route does. -/
theorem view_clear :
    view (.ok (s.clearObd2FreezeFrames v)) = (Route.clear v.value.int64Values).run s.board := by
  simp only [clearObd2FreezeFrames, Route.run]
  split_ifs <;> rfl

/-- In a valid store the values that are read for a property have its id. -/
theorem prop_of_mem_readValues {order : Traversal RecordId} {store : VehiclePropertyStore}
    (hvalid : store.Valid) {p : Int} {values : List VehiclePropValue}
    (h : store.readValuesForProperty order p = .ok values) {x : VehiclePropValue}
    (hx : x ∈ values) : x.prop = p := by
  unfold VehiclePropertyStore.readValuesForProperty at h
  rcases hr : store.getRecordLocked p with _ | record
  · rw [hr] at h
    cases h
  · rw [hr] at h
    cases h
    obtain ⟨⟨recId, value⟩, hentry, rfl⟩ := List.mem_map.mp hx
    have hstored : store.stored p recId = some value := by
      rw [stored_of_record hr]
      exact (order.mem_entries record.values recId value).mp hentry
    exact (hvalid.keyed p recId value hstored).1

/-- The writes for a property that depends on the power are of that property. -/
theorem prop_of_mem_powerWrites (hvalid : s.mServerSidePropStore.Valid)
    {areaId hvacPowerOnVal p : Int} {w : VehiclePropValue}
    (h : w ∈ s.powerWrites env areaId hvacPowerOnVal p) : w.prop = p := by
  unfold powerWrites at h
  rcases hread : s.readValuesForProperty env p with e | values
  · rw [hread] at h
    cases h
  · rw [hread] at h
    obtain ⟨x, hx, rfl⟩ := List.mem_map.mp h
    exact (prop_of_mem_readValues hvalid hread (List.mem_filter.mp hx).1 : x.prop = p)

/-- Telling what depends on the power does what its route does. -/
theorem view_power (hvalid : s.mServerSidePropStore.Valid) (hvacPowerOnVal : Int) :
    view (finish env v (plain (s.sendHvacPropertiesCurrentValues env v.areaId hvacPowerOnVal))) =
      (s.plainRoute env v ((env.propOrder.visit s.hvacPowerDependentProps).flatMap
        (s.powerWrites env v.areaId hvacPowerOnVal))).run s.board := by
  rw [sendHvacPropertiesCurrentValues, sendPowerProps_eq env s (env.propOrder.nodup _)
    fun p _ w hw => prop_of_mem_powerWrites env s hvalid hw, view_finish_plain]

/-- A branch of the code runs its route if both sides do. -/
theorem view_finish_ite {p : Prop} [Decidable p] {first second : Decision} {r₁ r₂ : Route}
    {b : Board} (hfirst : view (finish env v first) = r₁.run b)
    (hsecond : view (finish env v second) = r₂.run b) :
    view (finish env v (if p then first else second)) = (if p then r₁ else r₂).run b := by
  split
  · exact hfirst
  · exact hsecond

/-- A request for the power does what its route does. -/
theorem view_powerSwitch (hvalid : s.mServerSidePropStore.Valid) :
    view (finish env v (match v.value.int32Values with
      | [hvacPowerOnVal] =>
          plain (s.sendHvacPropertiesCurrentValues env v.areaId hvacPowerOnVal)
      | _ => refuse .hvacPowerOnSize s)) =
    (match v.value.int32Values with
      | [hvacPowerOnVal] => s.plainRoute env v
          ((env.propOrder.visit s.hvacPowerDependentProps).flatMap
            (s.powerWrites env v.areaId hvacPowerOnVal))
      | _ => .refused .hvacPowerOnSize).run s.board := by
  rcases v.value.int32Values with _ | ⟨hvacPowerOnVal, _ | ⟨_, _⟩⟩
  · rfl
  · exact view_power env s v hvalid hvacPowerOnVal
  · rfl

/-- A request for a temperature does what its route does. -/
theorem view_temperatureSet :
    view (finish env v (match v.value.floatValues with
      | [temp] =>
          match s.getSyncedAreaIdIfHvacDualOn env v.areaId with
          | some hvacDualOnAreaId =>
              special (s.synchronizeHvacTemp env hvacDualOnAreaId (some temp))
          | none => plain s
      | _ => refuse .hvacTemperatureSetSize s)) =
    (match v.value.floatValues with
      | [temp] => s.temperatureRoute env v temp
      | _ => .refused .hvacTemperatureSetSize).run s.board := by
  rcases v.value.floatValues with _ | ⟨temp, _ | ⟨_, _⟩⟩
  · rfl
  · exact view_temperature env s v temp
  · rfl

/-- A request for the dual mode does what its route does. -/
theorem view_dualSwitch :
    view (finish env v (match v.value.int32Values with
      | [1] => do
          let (_, s) ← s.synchronizeHvacTemp env v.areaId none
          plain s
      | [_] => plain s
      | _ => refuse .hvacDualOnSize s)) =
    (match v.value.int32Values with
      | [1] => s.dualRoute env v
      | [_] => s.plainRoute env v []
      | _ => .refused .hvacDualOnSize).run s.board := by
  rcases v.value.int32Values with _ | ⟨i, _ | ⟨_, _⟩⟩
  · rfl
  · by_cases hi : i = 1
    · subst hi
      exact view_dual env s v
    · simp only
      exact view_finish_plain env s v []
  · simp only
    rfl

/-- The branches for single properties run their routes. -/
theorem view_setSpecialProperty (hvalid : s.mServerSidePropStore.Valid) :
    view (finish env v (s.setSpecialProperty env v)) = (s.propertyRoute env v).run s.board := by
  have hplain : view (finish env v (plain s)) = (s.plainRoute env v []).run s.board :=
    view_finish_plain env s v []
  refine view_finish_ite env v hplain ?_
  refine view_finish_ite env v ?_ ?_
  · rw [view_finish_special, view_report]
  refine view_finish_ite env v ?_ ?_
  · exact (view_finish_special env v _).trans (view_shutdown env s v)
  refine view_finish_ite env v rfl ?_
  refine view_finish_ite env v ?_ ?_
  · rw [view_finish_special, view_clear]
  refine view_finish_ite env v rfl ?_
  refine view_finish_ite env v (view_powerSwitch env s v hvalid) ?_
  refine view_finish_ite env v ?_ ?_
  · rw [view_finish_special, view_suggestion]
  refine view_finish_ite env v (view_temperatureSet env s v) ?_
  refine view_finish_ite env v (view_dualSwitch env s v) ?_
  refine view_finish_ite env v (view_available env s v _) ?_
  refine view_finish_ite env v (view_command env s v) ?_
  refine view_finish_ite env v (view_timeGap env s v) ?_
  exact hplain

/-- The switches of the driver assistance have no branch of their own. -/
theorem setSpecialProperty_of_adas {ids : List Int}
    (h : mAdasEnabledPropToAdasPropWithErrorState.lookup v.prop = some ids) (t : PropertyState) :
    t.setSpecialProperty env v = plain t := by
  have hmem : v.prop ∈ mAdasEnabledPropToAdasPropWithErrorState.map Prod.fst := by
    obtain ⟨l₁, l₂, hl, _⟩ := List.lookup_eq_some_iff.mp h
    rw [hl]
    simp
  have hids : ∀ p ∈ mAdasEnabledPropToAdasPropWithErrorState.map Prod.fst,
      p ∉ [displayBrightnessId, perDisplayBrightnessId, apPowerStateReportId, shutdownRequestId,
        vehicleMapServiceId, obd2FreezeFrameClearId, vendorPropertyForErrorCodeTestingId,
        hvacPowerOnId, hvacTemperatureValueSuggestionId, hvacTemperatureSetId, hvacDualOnId,
        laneCenteringAssistCommandId, cruiseControlCommandId,
        adaptiveCruiseControlTargetTimeGapId] := by
    decide
  have hother := hids v.prop hmem
  simp only [List.mem_cons, List.not_mem_nil, or_false, not_or] at hother
  obtain ⟨h1, h2, h3, h4, h5, h6, h7, h8, h9, h10, h11, h12, h13, h14⟩ := hother
  unfold setSpecialProperty
  rw [if_neg (not_or.mpr ⟨h1, h2⟩), if_neg h3, if_neg h4, if_neg h5, if_neg h6, if_neg h7,
    if_neg h8, if_neg h9, if_neg h10, if_neg h11, if_neg h12, if_neg h13, if_neg h14]

/-- Setting what depends on an enabled property writes the states of all of it. -/
theorem sendAdasDependents_eq {ids : List Int}
    (h : mAdasEnabledPropToAdasPropWithErrorState.lookup v.prop = some ids) :
    s.sendAdasDependents env v = s.afterAll env (s.adasSide v ids) := by
  unfold sendAdasDependents adasSide
  rw [h, if_pos (Option.isSome_some)]
  rcases v.value.int32Values with _ | ⟨i, _ | ⟨_, _⟩⟩
  · rfl
  · by_cases hi : i = 1
    · subst hi
      simp only [sendAdasPropertiesState, h, Option.getD_some, sendAdasProps_eq]
    · simp only [sendAdasPropertiesState, h, Option.getD_some, sendAdasProps_eq]
  · simp only [afterAll_nil]

/-- A set runs its route on the board. -/
theorem view_setValue (hvalid : s.mServerSidePropStore.Valid) :
    view (s.setValue env v) = (s.route env v).run s.board := by
  change view (finish env v (s.maybeSetSpecialValue env v)) = _
  refine view_finish_ite env v rfl ?_
  refine view_finish_ite env v ?_ ?_
  · rw [view_finish_special, view_userHal]
  refine view_finish_ite env v rfl ?_
  rcases h : mAdasEnabledPropToAdasPropWithErrorState.lookup v.prop with _ | ids
  · rw [sendAdasDependents, h, Option.isSome_none, if_neg Bool.false_ne_true]
    exact view_setSpecialProperty env s v hvalid
  · rw [sendAdasDependents_eq env s v h, setSpecialProperty_of_adas env v h]
    exact view_finish_plain env s v _

end PropertyState

end VhalCore.FakeHardware
