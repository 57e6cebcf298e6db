import VhalCore.Models.FakeHardware.Interpretation.SetValueRefinement

/-!
# Sets that fail

A set should change nothing when it fails, and should fail for an area that the config of
the property does not have. The code writes dependent properties before the value itself,
and the synchronisation of temperatures in place of it, so that both hold on some routes
only. The routes are told from the state before the set: which writes are attempted, and
which of them the store would take.
-/

namespace VhalCore.FakeHardware

open PropertyStore VehiclePropertyStore

/-- Every record and the callbacks so far are the same. -/
structure Board.Same (a b : Board) : Prop where
  stored : ∀ propId recId, b.store.stored propId recId = a.store.stored propId recId
  emitted : b.emitted = a.emitted

/-- A set that fails changes nothing, and a set for an area without a config fails. -/
structure AllOrNothing (env : Environment) (s : PropertyState) (v : VehiclePropValue) : Prop where
  unchanged : ∀ e after, s.setValue env v = .ok (.error e, after) → s.board.Same after.board
  refused : s.mServerSidePropStore.LacksAreaConfig v →
    ∃ e after, s.setValue env v = .ok (.error e, after)

/-- A report that is stored already, also with its time. -/
def IsIdle (store : VehiclePropertyStore) (w : VehiclePropValue) : Prop :=
  store.storedFor w = some (store.written false w) ∧ store.changes false w = false

/-- A frame with the timestamp is stored. -/
def HasFrame (store : VehiclePropertyStore) (timestamp : Int) : Prop :=
  (store.stored obd2FreezeFrameId ⟨0, timestamp⟩).isSome

namespace Route

/-- The writes of the route are attempted with ascending times. -/
def Ascending : Route → Prop
  | .plain side w => ∀ x ∈ side, x.timestamp ≤ w.timestamp
  | .report w (some (r, _)) => w.timestamp ≤ r.timestamp
  | .synchronized ws => ws.Pairwise fun a b => a.timestamp ≤ b.timestamp
  | _ => True

/-- Nothing is changed before the route fails: the last write succeeds or no write before it
does. -/
def Harmless (store : VehiclePropertyStore) : Route → Prop
  | .plain side w => store.Writable w ∨ ∀ x ∈ side, ¬store.Writable x
  | .report w (some (r, _)) => store.Writable w → store.Writable r ∨ IsIdle store w
  | .synchronized ws => (∀ w ∈ ws, store.Writable w) ∨ ∀ w, ws.head? = some w → ¬store.Writable w
  | .clear timestamps => (timestamps.Nodup ∧ ∀ t ∈ timestamps, HasFrame store t) ∨
      ∀ t, timestamps.head? = some t → ¬HasFrame store t
  | _ => True

/-- A synchronisation of temperatures that takes the place of the write fails. -/
def Rejects (store : VehiclePropertyStore) : Route → Prop
  | .fault _ => False
  | .synchronized ws => ∃ w ∈ ws, ¬store.Writable w
  | _ => True

end Route

namespace Board

theorem Same.refl (b : Board) : b.Same b := ⟨fun _ _ => rfl, rfl⟩

variable {b : Board}

/-- Attempts leave no trace exactly if none of them can succeed. -/
theorem same_attemptAll_iff {ws : List VehiclePropValue}
    (hcallback : b.store.mOnValuesChangeCallback = true) :
    b.Same (attemptAll ws b) ↔ ∀ w ∈ ws, ¬b.store.Writable w := by
  refine ⟨fun hsame => ?_, fun h => ?_⟩
  · induction ws with
    | nil => simp
    | cons w ws ih =>
        have hemitted := hsame.emitted
        rw [attemptAll] at hsame hemitted
        by_cases hw : b.store.Writable w
        · have hgrown := (attemptAll_emitted ws (b.write w true .always).2).length_le
          have hpos := List.length_pos_iff.mpr (emitted_ne hcallback true w)
          rw [hemitted, write_of_writable hw, List.length_append] at hgrown
          omega
        · obtain ⟨e, he⟩ := write_of_not_writable hw true .always
          rw [he] at hsame
          exact List.forall_mem_cons.mpr ⟨hw, ih hsame⟩
  · rw [(attemptAll_eq_self_iff hcallback).mpr h]
    exact .refl b

/-- The write of a report leaves no trace exactly if the report is stored already. -/
theorem same_report_iff {w : VehiclePropValue}
    (hcallback : b.store.mOnValuesChangeCallback = true) (hw : b.store.Writable w) :
    b.Same (b.write w false .onValueChange).2 ↔ IsIdle b.store w := by
  obtain ⟨record, hr⟩ := Option.isSome_iff_exists.mp hw.registered
  have hid := recordIdOf_of_record hr
  rw [write_of_writable hw]
  constructor
  · rintro ⟨hstored, hemitted⟩
    refine ⟨?_, ?_⟩
    · have hthis := hstored w.prop (getRecordIdLocked w record)
      rw [stored_put hw.registered, if_pos ⟨rfl, hid⟩] at hthis
      rw [storedFor, hid, Option.bind_some, ← hthis]
    · by_contra hchanges
      have hnone : b.store.callbacksOf false .onValueChange w = [] :=
        List.append_right_eq_self.mp hemitted
      simp [callbacksOf, invokeCallbacks, hcallback, hchanges] at hnone
  · rintro ⟨hstored, hchanges⟩
    refine ⟨fun propId recId => ?_, ?_⟩
    · rw [stored_put hw.registered]
      split
      · rename_i hkey
        rw [hkey.1, ← hstored, storedFor, hkey.2, Option.bind_some]
      · rfl
    · simp [callbacksOf, hchanges]

end Board

section Frames

variable {store : VehiclePropertyStore}

/-- A frame is read exactly if it is stored. -/
theorem readValueOf_frame (store : VehiclePropertyStore) (t : Int) :
    (∃ value, store.readValueOf obd2FreezeFrameId 0 t = .ok value ∧
      store.stored obd2FreezeFrameId ⟨0, t⟩ = some value) ∨
    ((∃ e, store.readValueOf obd2FreezeFrameId 0 t = .error e) ∧ ¬HasFrame store t) := by
  have harea : recordArea obd2FreezeFrameId 0 = 0 := by decide
  unfold readValueOf HasFrame stored
  rcases store.getRecordLocked obd2FreezeFrameId with _ | record
  · exact Or.inr ⟨⟨_, rfl⟩, by simp⟩
  · rw [harea, Option.bind_some]
    rcases hlookup : record.values.lookup ⟨0, t⟩ with _ | value
    · exact Or.inr ⟨⟨.recordNotFound ⟨0, t⟩, by simp only [readValueLocked, hlookup]⟩, by
        simp [hlookup]⟩
    · exact Or.inl ⟨value, by simp only [readValueLocked, hlookup], hlookup⟩

/-- Removing a frame removes that frame only. -/
theorem hasFrame_removeValue (hvalid : store.Valid) {t : Int} {value : VehiclePropValue}
    (h : store.stored obd2FreezeFrameId ⟨0, t⟩ = some value) (u : Int) :
    HasFrame (store.removeValue value) u ↔ u ≠ t ∧ HasFrame store u := by
  rw [HasFrame, HasFrame, stored_removeValue hvalid h]
  by_cases hu : u = t
  · simp [hu]
  · simp [hu]

/-- Frames are only removed. -/
theorem hasFrame_of_clearFrames (hvalid : store.Valid) {timestamps : List Int} {u : Int}
    (h : HasFrame (PropertyState.clearFrames timestamps store).2 u) : HasFrame store u := by
  induction timestamps generalizing store with
  | nil => exact h
  | cons t ts ih =>
      rcases readValueOf_frame store t with ⟨value, hread, hstored⟩ | ⟨⟨e, hread⟩, _⟩
      · simp only [PropertyState.clearFrames, hread] at h
        have hrest := ih (hvalid.removeValue value) h
        exact ((hasFrame_removeValue hvalid hstored u).mp hrest).2
      · simp only [PropertyState.clearFrames, hread] at h
        exact h

/-- The removal succeeds for distinct timestamps of stored frames. -/
theorem clearFrames_ok_iff (hvalid : store.Valid) (timestamps : List Int) :
    (PropertyState.clearFrames timestamps store).1 = .ok () ↔
      timestamps.Nodup ∧ ∀ t ∈ timestamps, HasFrame store t := by
  induction timestamps generalizing store with
  | nil => simp [PropertyState.clearFrames]
  | cons t ts ih =>
      rcases readValueOf_frame store t with ⟨value, hread, hstored⟩ | ⟨⟨e, hread⟩, habsent⟩
      · have hframe : HasFrame store t := by
          rw [HasFrame, hstored]
          rfl
        simp only [PropertyState.clearFrames, hread, ih (hvalid.removeValue value),
          List.nodup_cons, List.forall_mem_cons, hasFrame_removeValue hvalid hstored]
        constructor
        · rintro ⟨hnodup, hall⟩
          exact ⟨⟨fun hmem => (hall t hmem).1 rfl, hnodup⟩, hframe, fun u hu => (hall u hu).2⟩
        · rintro ⟨⟨hnot, hnodup⟩, _, hall⟩
          exact ⟨hnodup, fun u hu => ⟨fun heq => hnot (heq ▸ hu), hall u hu⟩⟩
      · simp only [PropertyState.clearFrames, hread, reduceCtorEq, List.forall_mem_cons, habsent,
          false_and, and_false]

end Frames

namespace Route

/-- A failure of the run leaves the board as it was. -/
def FailsUnchanged (route : Route) (b : Board) : Prop :=
  ∀ e after, route.run b = .ok (.error e, after) → b.Same after

variable {b : Board}

/-- A route that succeeds never fails with a changed state. -/
theorem failsUnchanged_of_ok {route : Route} (h : ∃ after, route.run b = .ok (.ok (), after)) :
    route.FailsUnchanged b := by
  obtain ⟨after, h⟩ := h
  intro e c hrun
  rw [h] at hrun
  cases hrun

/-- A route that fails leaves the state unchanged exactly if the two boards are the same. -/
theorem failsUnchanged_of_error {route : Route} {e : SetValueError} {after : Board}
    (h : route.run b = .ok (.error e, after)) : route.FailsUnchanged b ↔ b.Same after := by
  refine ⟨fun hfails => hfails e after h, fun hsame e' c hrun => ?_⟩
  rw [h] at hrun
  cases hrun
  exact hsame

/-- A plain route fails without a change exactly if it is harmless. -/
theorem plain_failsUnchanged_iff {side : List VehiclePropValue} {w : VehiclePropValue}
    (hascending : (plain side w).Ascending) (hcallback : b.store.mOnValuesChangeCallback = true) :
    (plain side w).FailsUnchanged b ↔ (plain side w).Harmless b.store := by
  have hadv := Board.attemptAll_advances b hascending
  by_cases hw : b.store.Writable w
  · have hafter := (hadv.writable_iff le_rfl).mpr hw
    refine iff_of_true (failsUnchanged_of_ok ?_) (Or.inl hw)
    exact ⟨_, by rw [run, Board.write_of_writable hafter]⟩
  · have hafter := mt (hadv.writable_iff le_rfl).mp hw
    obtain ⟨e, he⟩ := Board.write_of_not_writable hafter false .onValueChange
    have hrun : (plain side w).run b = .ok (.error e, b.attemptAll side) := by rw [run, he]
    rw [failsUnchanged_of_error hrun, Board.same_attemptAll_iff hcallback, Harmless,
      or_iff_right hw]

/-- The route of a power report fails without a change exactly if it is harmless. -/
theorem report_failsUnchanged_iff {w : VehiclePropValue}
    {request : Option (VehiclePropValue × PropertyStore.EventMode)}
    (hascending : (report w request).Ascending)
    (hcallback : b.store.mOnValuesChangeCallback = true) :
    (report w request).FailsUnchanged b ↔ (report w request).Harmless b.store := by
  by_cases hw : b.store.Writable w
  · rcases request with _ | ⟨r, eventMode⟩
    · refine iff_of_true (failsUnchanged_of_ok ?_) trivial
      exact ⟨_, by simp only [run, Board.write_of_writable hw]; rfl⟩
    · have hadv := Board.write_advances false .onValueChange b w
      have hreport := Board.same_report_iff hcallback hw
      have hok : (b.write w false .onValueChange).1 = .ok () := by rw [Board.write_of_writable hw]
      rcases hwrite : b.write w false .onValueChange with ⟨result, c⟩
      rw [hwrite] at hadv hreport hok
      subst hok
      rw [Harmless, ← hreport]
      by_cases hr : b.store.Writable r
      · have hafter := (hadv.writable_iff hascending).mpr hr
        refine iff_of_true (failsUnchanged_of_ok ?_) fun _ => Or.inl hr
        exact ⟨_, by simp only [run, hwrite, Board.write_of_writable hafter]; rfl⟩
      · have hafter := mt (hadv.writable_iff hascending).mp hr
        obtain ⟨e, he⟩ := Board.write_of_not_writable hafter true eventMode
        have hrun : (report w (some (r, eventMode))).run b = .ok (.error e, c) := by
          simp only [run, hwrite, he]
        rw [failsUnchanged_of_error hrun, or_iff_right hr]
        exact (imp_iff_right hw).symm
  · obtain ⟨e, he⟩ := Board.write_of_not_writable hw false .onValueChange
    have hrun : (report w request).run b = .ok (.error e, b) := by simp only [run, he]
    refine iff_of_true ((failsUnchanged_of_error hrun).mpr (.refl b)) ?_
    rcases request with _ | ⟨r, eventMode⟩
    · trivial
    · exact fun hwritable => absurd hwritable hw

/-- A route that synchronises fails without a change exactly if it is harmless. -/
theorem synchronized_failsUnchanged_iff {ws : List VehiclePropValue}
    (hascending : (synchronized ws).Ascending)
    (hcallback : b.store.mOnValuesChangeCallback = true) :
    (synchronized ws).FailsUnchanged b ↔ (synchronized ws).Harmless b.store := by
  by_cases hall : ∀ w ∈ ws, b.store.Writable w
  · refine iff_of_true (failsUnchanged_of_ok ?_) (Or.inl hall)
    exact ⟨_, by rw [run, Board.attemptUntil_of_forall_writable hascending hall]⟩
  · rw [Harmless, or_iff_right hall]
    obtain ⟨before, x, rest, e, rfl, hbefore, hx, he⟩ :=
      Board.attemptUntil_of_not_forall hascending hall
    have hrun : (synchronized (before ++ x :: rest)).run b =
        .ok (.error e, b.attemptAll before) := by rw [run, he]
    rw [failsUnchanged_of_error hrun, Board.same_attemptAll_iff hcallback]
    rcases before with _ | ⟨w, before⟩
    · simp [hx]
    · have hw := hbefore w (List.mem_cons_self ..)
      refine iff_of_false (fun h => h w (List.mem_cons_self ..) hw) fun h => ?_
      exact h w rfl hw

/-- The route that clears frames fails without a change exactly if it is harmless. -/
theorem clear_failsUnchanged_iff {timestamps : List Int} (hvalid : b.store.Valid) :
    (clear timestamps).FailsUnchanged b ↔ (clear timestamps).Harmless b.store := by
  rcases timestamps with _ | ⟨t, ts⟩
  · refine iff_of_true (failsUnchanged_of_ok ?_) (Or.inl (by simp))
    exact ⟨_, by rw [run, if_pos rfl]⟩
  · have hok := clearFrames_ok_iff hvalid (t :: ts)
    rcases hresult : PropertyState.clearFrames (t :: ts) b.store with ⟨e | _, store⟩
    · have hnot : ¬((t :: ts).Nodup ∧ ∀ u ∈ t :: ts, HasFrame b.store u) := by
        rw [← hok, hresult]
        simp
      have hrun : (clear (t :: ts)).run b = .ok (.error e, { b with store }) := by
        simp only [run, hresult, reduceCtorEq, ite_false]
      rw [failsUnchanged_of_error hrun, Harmless, or_iff_right hnot]
      simp only [List.head?_cons, Option.some.injEq, forall_eq']
      rcases readValueOf_frame b.store t with ⟨value, hread, hstored⟩ | ⟨⟨e, hread⟩, habsent⟩
      · have hframe : HasFrame b.store t := by
          rw [HasFrame, hstored]
          rfl
        refine iff_of_false (fun hsame => ?_) (not_not_intro hframe)
        have hkept : HasFrame store t := by
          rw [HasFrame, hsame.stored]
          exact hframe
        simp only [PropertyState.clearFrames, hread] at hresult
        have hgone : HasFrame (b.store.removeValue value) t :=
          hasFrame_of_clearFrames (hvalid.removeValue value) (by rwa [hresult])
        exact ((hasFrame_removeValue hvalid hstored t).mp hgone).1 rfl
      · refine iff_of_true ?_ habsent
        simp only [PropertyState.clearFrames, hread, Prod.mk.injEq] at hresult
        obtain ⟨_, rfl⟩ := hresult
        exact .refl b
    · refine iff_of_true (failsUnchanged_of_ok ?_) (Or.inl (hok.mp (by rw [hresult])))
      exact ⟨_, by simp only [run, hresult, reduceCtorEq, ite_false]; rfl⟩

/-- A route leaves no trace when it fails exactly if it is harmless. -/
theorem failsUnchanged_iff (route : Route) (hascending : route.Ascending)
    (hcallback : b.store.mOnValuesChangeCallback = true) (hvalid : b.store.Valid) :
    route.FailsUnchanged b ↔ route.Harmless b.store := by
  cases route with
  | done => exact iff_of_true (failsUnchanged_of_ok ⟨b, rfl⟩) trivial
  | refused error => exact iff_of_true ((failsUnchanged_of_error rfl).mpr (.refl b)) trivial
  | fault f =>
      refine iff_of_true (fun e after h => ?_) trivial
      cases h
  | single w =>
      refine iff_of_true (fun e after h => ?_) trivial
      by_cases hw : b.store.Writable w
      · rw [run, Board.write_of_writable hw] at h
        cases h
      · obtain ⟨e', he⟩ := Board.write_of_not_writable hw true .always
        rw [run, he] at h
        cases h
        exact .refl b
  | plain side w => exact plain_failsUnchanged_iff hascending hcallback
  | report w request => exact report_failsUnchanged_iff hascending hcallback
  | synchronized ws => exact synchronized_failsUnchanged_iff hascending hcallback
  | clear timestamps => exact clear_failsUnchanged_iff hvalid

end Route

namespace PropertyState

variable (env : Environment) (s : PropertyState) (v : VehiclePropValue)

/-- What the routes of a value look like. A route without a write of the value itself is of a
global property, but for the synchronisation. -/
inductive Shape : Route → Prop
  | done : isGlobalProp v.prop = true → Shape .done
  | refused (error : SetValueError) : Shape (.refused error)
  | fault (fault : Fault) : Shape (.fault fault)
  | single (w : VehiclePropValue) : isGlobalProp v.prop = true → Shape (.single w)
  | plain (side : List VehiclePropValue) : Shape (s.plainRoute env v side)
  | report (request : Option (VehiclePropValue × PropertyStore.EventMode)) :
      isGlobalProp v.prop = true → Shape (.report (env.stamped s.moments v)
        (request.map fun (r, eventMode) => (env.stamped (s.moments + 1) r, eventMode)))
  | synchronized (ws : List VehiclePropValue) :
      Shape (.synchronized (env.stampFrom s.moments ws))
  | clear (timestamps : List Int) : isGlobalProp v.prop = true → Shape (.clear timestamps)

/-- What a route reaches of stamped values is stamped as well. -/
theorem exists_stampFrom_of_reached {store : VehiclePropertyStore} {k : Nat}
    {us ws : List VehiclePropValue} (h : reached store (env.stampFrom k us) = .ok ws) :
    ∃ us', ws = env.stampFrom k us' := by
  induction us generalizing k ws with
  | nil =>
      cases h
      exact ⟨[], rfl⟩
  | cons u us ih =>
      rw [Environment.stampFrom, reached] at h
      split at h
      · cases h
      · split at h
        · rcases hrest : reached store (env.stampFrom (k + 1) us) with f | rest
          · rw [hrest] at h
            cases h
          · rw [hrest] at h
            cases h
            obtain ⟨us', rfl⟩ := ih hrest
            exact ⟨u :: us', rfl⟩
        · cases h
          exact ⟨[u], rfl⟩

/-- The writes of a synchronisation are stamped one after the other. -/
theorem exists_stampFrom_of_syncWrites {hvacDualOnAreaId : Int} {newTempC : Option Binary32}
    {values ws : List VehiclePropValue}
    (h : s.syncWrites env hvacDualOnAreaId newTempC values = .ok ws) :
    ∃ us, ws = env.stampFrom s.moments us := by
  unfold syncWrites at h
  split at h
  · exact exists_stampFrom_of_reached env h
  · cases h
    exact ⟨[], rfl⟩
  · rename_i first targets _
    rcases helement : elementAt first.value.floatValues 0 with f | temp
    · rw [helement] at h
      cases h
    · rw [helement] at h
      exact exists_stampFrom_of_reached env h

theorem length_stampFrom (k : Nat) (us : List VehiclePropValue) :
    (env.stampFrom k us).length = us.length := by
  induction us generalizing k with
  | nil => rfl
  | cons u us ih => rw [Environment.stampFrom, List.length_cons, ih, List.length_cons]

/-- The route for the user HAL is of one of the shapes. -/
theorem shape_userHal (h : isGlobalProp v.prop = true) :
    s.Shape env v (s.userHalRoute env v) := by
  unfold userHalRoute
  rcases s.mFakeUserHal.onSetProperty (env.clock s.moments) v with f | ⟨e | _ | updatedValue, hal⟩
  · exact .fault f
  · exact .refused _
  · exact .done h
  · exact .single _ h

/-- The route for a power report is of one of the shapes. -/
theorem shape_report (h : isGlobalProp v.prop = true) : s.Shape env v (s.reportRoute env v) := by
  unfold reportRoute
  rcases v.value.int32Values with _ | ⟨state, rest⟩
  · simp only
    split
    · exact .fault _
    · exact .report none h
  · exact .report _ h

/-- The route for a suggestion is of one of the shapes. -/
theorem shape_suggestion (h : isGlobalProp v.prop = true) :
    s.Shape env v (s.suggestionRoute env v) := by
  unfold suggestionRoute
  split
  · exact .refused _
  · split
    · split
      · exact .refused _
      · split
        · exact .fault _
        · exact .single _ h
    · exact .refused _

/-- The route for a temperature is of one of the shapes. -/
theorem shape_temperature (temp : Binary32) : s.Shape env v (s.temperatureRoute env v temp) := by
  unfold temperatureRoute
  split
  · exact .plain []
  · split
    · exact .refused _
    · split
      · exact .fault _
      · rename_i hws
        obtain ⟨us, rfl⟩ := exists_stampFrom_of_syncWrites env s hws
        exact .synchronized us

/-- The route for the dual mode is of one of the shapes. -/
theorem shape_dual : s.Shape env v (s.dualRoute env v) := by
  unfold dualRoute
  split
  · exact .plain []
  · split
    · exact .fault _
    · rename_i hws
      obtain ⟨us, rfl⟩ := exists_stampFrom_of_syncWrites env s hws
      rw [length_stampFrom]
      exact .plain us

/-- The route for the cruise control is of one of the shapes if the route for the standard type
is. -/
theorem shape_cruise {onStandard : Route} (h : s.Shape env v onStandard) :
    s.Shape env v (s.cruiseRoute env v onStandard) := by
  unfold cruiseRoute
  split
  · exact .refused _
  · exact .fault _
  · exact .refused _
  · exact h
  · exact .plain []

/-- The route for a command is of one of the shapes. -/
theorem shape_command : s.Shape env v (s.commandRoute env v) := by
  unfold commandRoute
  split
  · exact .fault _
  · split
    · exact .refused _
    · exact .plain []

/-- The routes of single properties. -/
theorem shape_property : s.Shape env v (s.propertyRoute env v) := by
  refine propertyRoute_induction env s v (.plain []) .refused ?_ ?_ ?_ ?_ (fun _ => .plain) ?_ ?_
    ?_ ?_ ?_
  · exact fun h => shape_report env s v (by rw [h]; decide)
  · exact fun h _ => .single _ (by rw [h]; decide)
  · exact fun h => .done (by rw [h]; decide)
  · exact fun h => .clear _ (by rw [h]; decide)
  · exact fun h => shape_suggestion env s v (by rw [h]; decide)
  · exact fun _ temp _ => shape_temperature env s v temp
  · exact fun _ _ => shape_dual env s v
  · exact fun _ => shape_cruise env s v (shape_command env s v)
  · exact fun _ => shape_cruise env s v (.refused _)

/-- The chosen route is of one of the shapes. -/
theorem shape_route : s.Shape env v (s.route env v) := by
  unfold route
  split_ifs with hvendor huser
  · exact .done (isGlobalProp_of_vendorCode hvendor)
  · exact shape_userHal env s v (isGlobalProp_of_isSupported huser)
  · exact .refused _
  · split
    · exact .plain _
    · exact shape_property env s v

variable {env s v}

/-- The writes of a route have ascending timestamps. -/
theorem Shape.ascending {r : Route} (h : s.Shape env v r) : r.Ascending := by
  cases h with
  | plain side =>
      intro x hx
      obtain ⟨w, _, i, _, hi, rfl⟩ := Environment.mem_stampFrom hx
      exact env.monotone hi.le
  | report request h =>
      rcases request with _ | ⟨r, eventMode⟩
      · trivial
      · exact env.monotone (Nat.le_succ _)
  | synchronized ws => exact stampFrom_sorted env _ _
  | _ => trivial

/-- The route fails for an area without a config, unless a synchronisation takes the place
of the write. -/
theorem Shape.fails_iff {r : Route} {b : Board} (h : s.Shape env v r)
    (hlacks : b.store.LacksAreaConfig v) :
    (∃ e after, r.run b = .ok (.error e, after)) ↔ r.Rejects b.store := by
  have hglobal : ¬isGlobalProp v.prop = true := by simp [hlacks.1]
  have hascending := h.ascending
  cases h with
  | done h => exact absurd h hglobal
  | refused error => exact iff_of_true ⟨error, b, rfl⟩ trivial
  | fault f =>
      refine iff_of_false ?_ id
      rintro ⟨e, after, h⟩
      cases h
  | single w h => exact absurd h hglobal
  | plain side =>
      refine iff_of_true ?_ trivial
      have hadv := Board.attemptAll_advances b hascending
      have hw : ¬b.store.Writable (env.stamped (s.moments + side.length) v) :=
        fun hw => hw.area hlacks
      obtain ⟨e, he⟩ := Board.write_of_not_writable (mt (hadv.writable_iff le_rfl).mp hw) false
        .onValueChange
      exact ⟨e, _, by rw [plainRoute, Route.run, he]⟩
  | report request h => exact absurd h hglobal
  | synchronized ws =>
      by_cases hall : ∀ w ∈ env.stampFrom s.moments ws, b.store.Writable w
      · refine iff_of_false ?_ ?_
        · rintro ⟨e, after, hrun⟩
          rw [Route.run, Board.attemptUntil_of_forall_writable hascending hall] at hrun
          cases hrun
        · rintro ⟨w, hw, hnot⟩
          exact hnot (hall w hw)
      · refine iff_of_true ?_ ?_
        · obtain ⟨_, _, _, e, _, _, _, he⟩ := Board.attemptUntil_of_not_forall hascending hall
          exact ⟨e, _, by rw [Route.run, he]⟩
        · simpa only [Route.Rejects, not_forall, exists_prop] using hall
  | clear timestamps h => exact absurd h hglobal

/-- The errors of a set are those of its route. -/
theorem setValue_error_iff (hvalid : s.mServerSidePropStore.Valid) (e : SetValueError)
    (b : Board) : (∃ after, s.setValue env v = .ok (.error e, after) ∧ after.board = b) ↔
      (s.route env v).run s.board = .ok (.error e, b) := by
  rw [← view_setValue env s v hvalid]
  rcases s.setValue env v with f | ⟨result, after⟩
  · simp [view, Except.map]
  · simp only [view, Except.map, Except.ok.injEq, Prod.mk.injEq]
    constructor
    · rintro ⟨after', ⟨rfl, rfl⟩, rfl⟩
      exact ⟨rfl, rfl⟩
    · rintro ⟨rfl, rfl⟩
      exact ⟨after, ⟨rfl, rfl⟩, rfl⟩

/-- A failing request leaves the state unchanged exactly if its route does. -/
theorem unchanged_iff (hvalid : s.mServerSidePropStore.Valid) :
    (∀ e after, s.setValue env v = .ok (.error e, after) → s.board.Same after.board) ↔
      (s.route env v).FailsUnchanged s.board := by
  constructor
  · intro h e b hrun
    obtain ⟨after, hset, rfl⟩ := (setValue_error_iff hvalid e b).mpr hrun
    exact h e after hset
  · intro h e after hset
    exact h e _ ((setValue_error_iff hvalid e _).mp ⟨after, hset, rfl⟩)

/-- A request fails exactly if its route does. -/
theorem fails_iff (hvalid : s.mServerSidePropStore.Valid) :
    (∃ e after, s.setValue env v = .ok (.error e, after)) ↔
      ∃ e b, (s.route env v).run s.board = .ok (.error e, b) := by
  refine exists_congr fun e => ?_
  constructor
  · rintro ⟨after, hset⟩
    exact ⟨after.board, (setValue_error_iff hvalid e _).mp ⟨after, hset, rfl⟩⟩
  · rintro ⟨b, hrun⟩
    obtain ⟨after, hset, _⟩ := (setValue_error_iff hvalid e b).mpr hrun
    exact ⟨after, hset⟩

end PropertyState

/-- In every store that the hardware reaches a set is all-or-nothing exactly if nothing is
changed before its route fails, and if a synchronisation of temperatures fails for an area
without a config. -/
theorem setValue_allOrNothing_iff (env : Environment) (s : PropertyState) (v : VehiclePropValue)
    (hreachable : Reachable s.mServerSidePropStore)
    (hcallback : s.mServerSidePropStore.mOnValuesChangeCallback = true) :
    AllOrNothing env s v ↔ (s.route env v).Harmless s.mServerSidePropStore ∧
      (s.mServerSidePropStore.LacksAreaConfig v →
        (s.route env v).Rejects s.mServerSidePropStore) := by
  have hvalid := hreachable.valid
  have hshape := PropertyState.shape_route env s v
  have hunchanged : _ ↔ (s.route env v).Harmless s.mServerSidePropStore :=
    (PropertyState.unchanged_iff hvalid).trans
      ((s.route env v).failsUnchanged_iff hshape.ascending hcallback hvalid)
  have hrefused (hlacks : s.mServerSidePropStore.LacksAreaConfig v) :
      _ ↔ (s.route env v).Rejects s.mServerSidePropStore :=
    (PropertyState.fails_iff hvalid).trans (hshape.fails_iff (b := s.board) hlacks)
  constructor
  · rintro ⟨h₁, h₂⟩
    exact ⟨hunchanged.mp h₁, fun hlacks => (hrefused hlacks).mp (h₂ hlacks)⟩
  · rintro ⟨h₁, h₂⟩
    exact ⟨hunchanged.mpr h₁, fun hlacks => (hrefused hlacks).mpr (h₂ hlacks)⟩

section Example

/-- The property `HVAC_FAN_SPEED`. -/
def hvacFanSpeedId : Int := 0x15400500

/-- The power switch and the speed of the fan, both for one area. -/
def climateStore : VehiclePropertyStore :=
  { Operation.run [
      .registerProperty { prop := hvacPowerOnId, areaConfigs := [{ areaId := 0x31 }] } none,
      .registerProperty { prop := hvacFanSpeedId, areaConfigs := [{ areaId := 0x31 }] } none,
      .writeValue 1 { prop := hvacFanSpeedId, areaId := 0x31, value := { int32Values := [3] } } true
        .never true] {} with mOnValuesChangeCallback := true }

/-- The store of the climate is reached by calls. -/
theorem climateStore_reachable : Reachable climateStore := by
  refine .setOnValuesChangeCallback (.run .empty fun op hop store => ?_)
  simp only [List.mem_cons, List.not_mem_nil, or_false] at hop
  rcases hop with rfl | rfl | rfl
  · exact Or.inl rfl
  · exact Or.inl rfl
  · trivial

/-- A state in which the fan speed depends on the power of its area. -/
def climate : PropertyState :=
  { mServerSidePropStore := climateStore, hvacPowerDependentProps := {hvacFanSpeedId} }

/-- The power is switched off for some area. -/
def powerOff (areaId : Int) : VehiclePropValue :=
  { prop := hvacPowerOnId, areaId, value := { int32Values := [0] } }

/-- The fan is reported as unavailable, although the set fails. -/
theorem powerOff_for_other_area_fails_with_trace :
    Reachable climate.mServerSidePropStore ∧
      climate.mServerSidePropStore.mOnValuesChangeCallback = true ∧
      ¬AllOrNothing .still climate (powerOff 0x75) := by
  refine ⟨climateStore_reachable, rfl, fun h => ?_⟩
  have hfails : ∃ e after, climate.setValue .still (powerOff 0x75) =
      .ok (.error e, after) ∧ after.emitted.length = 1 := ⟨_, _, rfl, rfl⟩
  obtain ⟨e, after, hset, hlength⟩ := hfails
  have hemitted := (h.unchanged e after hset).emitted
  have hnone : after.emitted = [] := hemitted
  rw [hnone] at hlength
  cases hlength

/-- With its own area the power is switched off. -/
theorem powerOff_allOrNothing : AllOrNothing .still climate (powerOff 0x31) := by
  refine (setValue_allOrNothing_iff .still climate (powerOff 0x31)
    climateStore_reachable rfl).mpr ⟨Or.inl (by decide), fun h => ?_⟩
  trivial

end Example

end VhalCore.FakeHardware
