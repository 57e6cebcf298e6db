import VhalCore.Models.FakeHardware.Correctness.ChangeEvents
import VhalCore.Models.FakeHardware.Correctness.TimerRegistrations
import VhalCore.Models.FakeHardware.Native.RefreshTurn
import VhalCore.Models.PropertyStore.Correctness.LastEvent
import VhalCore.Models.PropertyStore.Interpretation.Validity

/-!
# The events of continuous properties

A turn of the timer passes on the stored values of the pairs that were subscribed at its interval,
always and not only on a change, when it began, and that are subscribed when they are passed on.
So a pair that stays subscribed gets one value in each turn of its interval and none in any other
turn, whatever other threads do between the parts of the turns.
-/

namespace VhalCore

namespace PropertyStore.VehiclePropertyStore

variable {store after : VehiclePropertyStore}

/-- The value that a refresh of the pair finds. -/
def storedAt (store : VehiclePropertyStore) (propIdAreaId : PropIdAreaId) :
    Option VehiclePropValue :=
  store.storedFor { areaId := propIdAreaId.areaId, prop := propIdAreaId.propId }

/-- The value of a pair with the time of its turn. -/
def refreshed (store : VehiclePropertyStore) (now : PropIdAreaId → Int)
    (propIdAreaId : PropIdAreaId) : Option VehiclePropValue :=
  (store.storedAt propIdAreaId).map fun value => { value with timestamp := now propIdAreaId }

/-- A refresh passes on the stored value with a new timestamp. -/
theorem refreshLocked_fst (store : VehiclePropertyStore) (now : PropIdAreaId → Int)
    (pair : PropIdAreaId) :
    (store.refreshLocked (now pair) pair).1 = store.refreshed now pair := by
  rw [refreshLocked, refreshed, storedAt]
  rcases hr : store.getRecordLocked pair.propId with _ | record
  · rw [storedFor, recordIdOf, hr]
    rfl
  · let v : VehiclePropValue := { areaId := pair.areaId, prop := pair.propId }
    have hv : store.getRecordLocked v.prop = some record := hr
    rw [storedFor_of_record hv]
    rcases hl : record.values.lookup (getRecordIdLocked v record) with _ | value
    · simp only [v, hl, Option.map_none]
    · simp only [v, hl, Option.map_some]

/-- The turn of one pair does not change what a later turn gives another pair. -/
theorem refreshed_refreshLocked (store : VehiclePropertyStore) (now : PropIdAreaId → Int)
    (pair q : PropIdAreaId) :
    (store.refreshLocked (now pair) pair).2.refreshed now q = store.refreshed now q := by
  simp only [refreshed, storedAt, storedFor]
  rw [recordIdOf_congr (registration_refreshLocked store (now pair) pair q.propId)]
  cases store.recordIdOf { areaId := q.areaId, prop := q.propId } with
  | none => rfl
  | some recId =>
      simp only [Option.bind_some, stored_refreshLocked, Option.map_map]
      congr 1
      ext value : 1
      rw [Function.comp_apply]
      split
      · rfl
      · rfl

/-- The pairs of some entries that are always notified. -/
def alwaysPairs (entries : List (PropIdAreaId × EventMode)) : List PropIdAreaId :=
  (entries.filter fun entry => entry.2 = .always).map Prod.fst

/-- A pair in front counts exactly if it is always refreshed. -/
theorem alwaysPairs_cons (pair : PropIdAreaId) (eventMode : EventMode)
    (entries : List (PropIdAreaId × EventMode)) :
    alwaysPairs ((pair, eventMode) :: entries) =
      if eventMode = .always then pair :: alwaysPairs entries else alwaysPairs entries := by
  rw [alwaysPairs, List.filter_cons]
  simp only [decide_eq_true_eq]
  split
  · rfl
  · rfl

/-- The pairs that are always refreshed are those of the table. -/
theorem mem_alwaysPairs_entries (order : Traversal PropIdAreaId)
    (eventModes : UnorderedMap PropIdAreaId EventMode) (q : PropIdAreaId) :
    q ∈ alwaysPairs (order.entries eventModes) ↔ eventModes.lookup q = some .always := by
  simp only [alwaysPairs, List.mem_map, List.mem_filter, decide_eq_true_eq, Prod.exists,
    order.mem_entries]
  constructor
  · rintro ⟨_, _, ⟨hmode, rfl⟩, rfl⟩
    exact hmode
  · exact fun hmode => ⟨q, .always, ⟨hmode, rfl⟩, rfl⟩

/-- No pair is refreshed twice in a turn. -/
theorem nodup_alwaysPairs_entries (order : Traversal PropIdAreaId)
    (eventModes : UnorderedMap PropIdAreaId EventMode) :
    (alwaysPairs (order.entries eventModes)).Nodup := by
  refine ((order.nodup_entries eventModes).filter _).map_on fun a ha b hb hkey => ?_
  have hmode {entry : PropIdAreaId × EventMode}
      (h : entry ∈ (order.entries eventModes).filter fun entry => entry.2 = .always) :
      entry.2 = .always := of_decide_eq_true (List.mem_filter.mp h).2
  exact Prod.ext hkey ((hmode ha).trans (hmode hb).symm)

/-- A refresh gives the values of the pairs that are always notified. -/
theorem refreshLoop_fst (now : PropIdAreaId → Int) (entries : List (PropIdAreaId × EventMode))
    (store : VehiclePropertyStore) :
    (store.refreshLoop now entries).1 = (alwaysPairs entries).filterMap (store.refreshed now) := by
  induction entries generalizing store with
  | nil => rfl
  | cons entry entries ih =>
      obtain ⟨pair, eventMode⟩ := entry
      have hrest : (store.refreshLocked (now pair) pair).2.refreshed now = store.refreshed now :=
        funext fun q => refreshed_refreshLocked store now pair q
      rw [refreshLoop]
      simp only [ih, hrest, refreshLocked_fst, alwaysPairs_cons]
      by_cases halways : eventMode = .always
      · rw [if_pos halways, if_pos halways, List.filterMap_cons]
        cases store.refreshed now pair with
        | none => rfl
        | some value => rfl
      · rw [if_neg halways, if_neg halways]

/-- A turn leaves the callback as it is. -/
theorem callbacks_refreshLoop (now : PropIdAreaId → Int)
    (entries : List (PropIdAreaId × EventMode)) (store : VehiclePropertyStore) :
    (store.refreshLoop now entries).2.mOnValuesChangeCallback =
      store.mOnValuesChangeCallback := by
  induction entries generalizing store with
  | nil => rfl
  | cons entry entries ih =>
      rw [refreshLoop]
      refine (ih _).trans ?_
      rw [refreshLocked_snd]
      split
      · rfl
      · exact (callbacks_put ..).2

/-- A refresh keeps the value of every pair, up to its time. -/
theorem storedAt_refreshTimestamps (now : PropIdAreaId → Int) (order : Traversal PropIdAreaId)
    (eventModes : UnorderedMap PropIdAreaId EventMode) {p : PropIdAreaId}
    {value : VehiclePropValue} (h : store.storedAt p = some value) :
    ∃ timestamp, (store.refreshTimestamps now order eventModes).2.storedAt p =
      some { value with timestamp } := by
  rw [storedAt, storedFor] at h ⊢
  rw [refreshTimestamps]
  rw [recordIdOf_congr (registration_refreshLoop now _ store p.propId)]
  obtain ⟨recId, hid, hstored⟩ := Option.bind_eq_some_iff.mp h
  rw [hid, Option.bind_some, stored_refreshLoop, hstored]
  exact ⟨_, rfl⟩

end PropertyStore.VehiclePropertyStore

namespace FakeHardware

open PropertyStore (ChangeCallback VehiclePropertyStore)

open PropertyStore.VehiclePropertyStore (alwaysPairs)

/-- The calls of other threads keep the registrations and the callback of the store, and are
among those that keep it valid. -/
theorem StoreCall.kept {op : PropertyStore.Operation} (h : StoreCall op)
    (store : VehiclePropertyStore) :
    (∀ propId, (op.apply store).registration propId = store.registration propId) ∧
      (op.apply store).mOnValuesChangeCallback = store.mOnValuesChangeCallback ∧
      op.Regular store := by
  cases op with
  | registerProperty _ _ => cases h
  | refreshTimestamps _ _ _ => cases h
  | writeValue now propValue updateStatus eventMode useCurrentTimestamp =>
      refine ⟨fun propId => store.registration_writeValue .., ?_, trivial⟩
      rw [PropertyStore.Operation.apply]
      by_cases hw : store.Writable (PropertyStore.stamp now useCurrentTimestamp propValue)
      · rw [PropertyStore.VehiclePropertyStore.writeValue_of_writable hw]
        exact (PropertyStore.callbacks_put ..).2
      · obtain ⟨e, he⟩ := PropertyStore.VehiclePropertyStore.writeValue_of_not_writable hw
          updateStatus eventMode
        rw [he]
  | removeValue propValue =>
      have hloses := store.loses_removeValue propValue
      exact ⟨hloses.registration, hloses.callback, trivial⟩
  | removeValuesForProperty propId =>
      have hloses := store.loses_removeValuesForProperty propId
      exact ⟨hloses.registration, hloses.callback, trivial⟩
  | read => exact ⟨fun _ => rfl, rfl, trivial⟩

namespace FakeVehicleHardware

variable {hardware hardware' : FakeVehicleHardware}

/-- The loop copies the modes and changes nothing, as all pairs have an interval. -/
theorem copyEventModes_of_bound {pairs : List PropIdAreaId}
    (hbound : ∀ q ∈ pairs, ∃ refreshInfo,
      hardware.mRefreshInfoByPropIdAreaId.lookup q = some refreshInfo) (eventModes : EventModes) :
    ∃ eventModes', hardware.copyEventModes eventModes pairs = (eventModes', hardware) ∧
      ∀ q, eventModes'.lookup q =
        if q ∈ pairs then (hardware.mRefreshInfoByPropIdAreaId.lookup q).map fun refreshInfo =>
          refreshInfo.eventMode.ofStore
        else eventModes.lookup q := by
  induction pairs generalizing eventModes with
  | nil => exact ⟨eventModes, rfl, fun q => (if_neg List.not_mem_nil).symm⟩
  | cons p pairs ih =>
      obtain ⟨refreshInfo, hp⟩ := hbound p (List.mem_cons_self ..)
      have htouch : hardware.mRefreshInfoByPropIdAreaId.touch p .zero =
          hardware.mRefreshInfoByPropIdAreaId :=
        if_pos (Finmap.mem_iff.mpr ⟨refreshInfo, hp⟩)
      obtain ⟨eventModes', heq, hlookup⟩ := ih (fun q hq => hbound q (List.mem_cons_of_mem _ hq))
        (eventModes.insert p refreshInfo.eventMode.ofStore)
      refine ⟨eventModes', ?_, fun q => ?_⟩
      · rw [copyEventModes]
        simp only [htouch, UnorderedMap.valueAt_of_lookup hp]
        exact heq
      · rw [hlookup, UnorderedMap.lookup_insert_eq]
        by_cases hq : q ∈ pairs
        · rw [if_pos hq, if_pos (List.mem_cons_of_mem _ hq)]
        · rw [if_neg hq]
          by_cases heq : q = p
          · subst heq
            rw [if_pos rfl, if_pos (List.mem_cons_self ..), hp, Option.map_some]
          · rw [if_neg heq, if_neg fun h => (List.mem_cons.mp h).elim heq hq]

/-- The copy has the pairs of the interval, each with its mode. -/
theorem eventModesForInterval_of_scheduled (h : Scheduled hardware)
    {order : Traversal PropIdAreaId} {intervalInNanos : Int} {copied : Option EventModes}
    (hcopy : hardware.eventModesForInterval order intervalInNanos = (copied, hardware')) :
    hardware' = hardware ∧ ∀ eventModes, copied = some eventModes → ∀ q mode,
      eventModes.lookup q = some mode ↔ ∃ refreshInfo,
        hardware.mRefreshInfoByPropIdAreaId.lookup q = some refreshInfo ∧
          refreshInfo.intervalInNanos = intervalInNanos ∧ refreshInfo.eventMode.ofStore = mode := by
  rw [eventModesForInterval] at hcopy
  cases haction : hardware.mActionByIntervalInNanos.lookup intervalInNanos with
  | none =>
      rw [haction] at hcopy
      cases hcopy
      exact ⟨rfl, nofun⟩
  | some action =>
      have hbound : ∀ q ∈ order.visit action.propIdAreaIdsToRefresh, ∃ refreshInfo,
          hardware.mRefreshInfoByPropIdAreaId.lookup q = some refreshInfo := by
        intro q hq
        obtain ⟨refreshInfo, hinfo, -⟩ := h.owned _ action haction q ((order.mem _ _).mp hq)
        exact ⟨refreshInfo, hinfo⟩
      obtain ⟨eventModes', heq, hlookup⟩ := copyEventModes_of_bound hbound ∅
      rw [haction] at hcopy
      simp only [heq] at hcopy
      cases hcopy
      refine ⟨rfl, ?_⟩
      rintro _ ⟨⟩ q mode
      rw [hlookup]
      constructor
      · intro hmode
        split at hmode
        · next hvisited =>
          have hin := (order.mem _ _).mp hvisited
          obtain ⟨refreshInfo, hinfo, rfl⟩ := Option.map_eq_some_iff.mp hmode
          obtain ⟨_, hother, hinterval⟩ := h.owned _ action haction q hin
          cases hinfo.symm.trans hother
          exact ⟨refreshInfo, hinfo, hinterval, rfl⟩
        · rw [Finmap.lookup_empty] at hmode
          cases hmode
      · rintro ⟨refreshInfo, hinfo, rfl, rfl⟩
        obtain ⟨_, haction', hin⟩ := h.listed q refreshInfo hinfo
        cases haction.symm.trans haction'
        rw [if_pos ((order.mem _ _).mpr hin), hinfo, Option.map_some]

end FakeVehicleHardware

open RefreshEvent

/-- A hardware that is not used yet, with its properties registered in the store. -/
def RefreshSystem.start (store : VehiclePropertyStore) : RefreshSystem := { store }

section Run

open RefreshRegistry (currentlySubscribed latestInfo consistent_run lookup_run isSubscribed_run)

variable {undefinedCast : Binary32 → Int} {store : VehiclePropertyStore} {s t : RefreshSystem}
  {e : RefreshEvent} {events before after : List RefreshEvent} {interval : Int}

/-- What is passed on by a turn of the interval before it is filtered: the values of the pairs
that were subscribed at the interval when the turn began, as they were refreshed later in the
turn. -/
def TurnValues (undefinedCast : Binary32 → Int) (store : VehiclePropertyStore) (interval : Int)
    (events : List RefreshEvent) (values : List VehiclePropValue) : Prop :=
  ∃ beforeTurn copied now refreshed s,
    events = beforeTurn ++ .timer interval :: (copied ++ .refresh now :: refreshed) ∧
    (∀ e ∈ copied ++ refreshed, e.ofTimer = false) ∧
    Path (RefreshStep undefinedCast) (.start store) (beforeTurn ++ .timer interval :: copied) s ∧
    ∃ pairs : List PropIdAreaId, pairs.Nodup ∧
      (∀ q, q ∈ pairs ↔ latestInfo undefinedCast (RefreshSystem.start store).getPropConfig
        (registryCalls beforeTurn) q = some ⟨.always, interval⟩) ∧
      values = pairs.filterMap (s.store.refreshed now)

/-- What the thread of the timer has in its stage comes from the turn that it is in. -/
def TurnStage.Grounded (undefinedCast : Binary32 → Int) (store : VehiclePropertyStore)
    (events : List RefreshEvent) : TurnStage → Prop
  | .idle => True
  | .copied interval eventModes => ∃ beforeTurn copied,
      events = beforeTurn ++ .timer interval :: copied ∧ (∀ e ∈ copied, e.ofTimer = false) ∧
      ∀ q mode, eventModes.lookup q = some mode ↔ ∃ refreshInfo,
        latestInfo undefinedCast (RefreshSystem.start store).getPropConfig
          (registryCalls beforeTurn) q = some refreshInfo ∧
        refreshInfo.intervalInNanos = interval ∧ refreshInfo.eventMode.ofStore = mode
  | .refreshed interval callbacks => ∀ callback callbacks', callbacks = callback :: callbacks' →
      callbacks' = [] ∧ TurnValues undefinedCast store interval events callback.values

/-- The state follows the events: the registry is that of the calls so far, and the store has
its first registrations and its callback. -/
structure Followed (undefinedCast : Binary32 → Int) (store : VehiclePropertyStore)
    (events : List RefreshEvent) (s : RefreshSystem) : Prop where
  registry : s.registry = .run undefinedCast (RefreshSystem.start store).getPropConfig
    (registryCalls events)
  registration : ∀ propId, s.store.registration propId = store.registration propId
  several : s.store.mOnValuesChangeCallback = true
  callback : s.mOnPropertyChangeCallback = true ↔ .registerOnPropertyChangeEvent ∈ events
  grounded : s.stage.Grounded undefinedCast store events

/-- The steps of the timer add no call. -/
theorem registryCalls_snoc_of_ofTimer (h : e.ofTimer = true) :
    registryCalls (events ++ [e]) = registryCalls events := by
  rw [registryCalls, List.filterMap_append]
  cases e with
  | call _ => cases h
  | registerOnPropertyChangeEvent => cases h
  | store _ => cases h
  | timer _ => exact List.append_nil _
  | refresh _ => exact List.append_nil _
  | passOn _ _ => exact List.append_nil _
  | finish _ => exact List.append_nil _

/-- The values of a turn are not changed by what the other threads do. -/
theorem TurnValues.snoc {values : List VehiclePropValue}
    (h : TurnValues undefinedCast store interval events values) (he : e.ofTimer = false) :
    TurnValues undefinedCast store interval (events ++ [e]) values := by
  obtain ⟨beforeTurn, copied, now, refreshed, s, rfl, hother, hrest⟩ := h
  refine ⟨beforeTurn, copied, now, refreshed ++ [e], s, by simp, fun e' he' => ?_, hrest⟩
  rw [← List.append_assoc, List.mem_append, List.mem_singleton] at he'
  rcases he' with he' | rfl
  · exact hother e' he'
  · exact he

/-- The events of other threads change nothing in a turn. -/
theorem TurnStage.Grounded.snoc {stage : TurnStage}
    (h : stage.Grounded undefinedCast store events) (he : e.ofTimer = false) :
    stage.Grounded undefinedCast store (events ++ [e]) := by
  cases stage with
  | idle => trivial
  | copied interval eventModes =>
      obtain ⟨beforeTurn, copied, rfl, hother, hmodes⟩ := h
      refine ⟨beforeTurn, copied ++ [e], by simp, fun e' he' => ?_, hmodes⟩
      rcases List.mem_append.mp he' with he' | he'
      · exact hother e' he'
      · rw [List.mem_singleton.mp he']
        exact he
  | refreshed interval callbacks =>
      intro callback callbacks' heq
      obtain ⟨hnil, hvalues⟩ := h callback callbacks' heq
      exact ⟨hnil, hvalues.snoc he⟩

/-- The configurations depend on the registrations only. -/
theorem getPropConfig_of_registration {a b : RefreshSystem}
    (h : ∀ propId, b.store.registration propId = a.store.registration propId) :
    b.getPropConfig = a.getPropConfig := by
  funext propId
  have hpropId := h propId
  rw [VehiclePropertyStore.registration, VehiclePropertyStore.registration] at hpropId
  rw [RefreshSystem.getPropConfig, RefreshSystem.getPropConfig,
    VehiclePropertyStore.getPropConfig, VehiclePropertyStore.getPropConfig]
  cases ha : a.store.getRecordLocked propId with
  | none =>
      rw [ha, Option.map_none, Option.map_eq_none_iff] at hpropId
      rw [hpropId]
  | some record =>
      rw [ha, Option.map_some, Option.map_eq_some_iff] at hpropId
      obtain ⟨record', hb, heq⟩ := hpropId
      rw [hb]
      exact congrArg some (Prod.mk.inj heq).1

/-- A refresh calls back once or not at all, with the values of the pairs that are always
notified. -/
theorem refreshTimestamps_fst (hseveral : store.mOnValuesChangeCallback = true)
    (now : PropIdAreaId → Int) (order : Traversal PropIdAreaId) (eventModes : EventModes) :
    (store.refreshTimestamps now order eventModes).1 =
      let values := (alwaysPairs (order.entries eventModes)).filterMap (store.refreshed now)
      if values = [] then [] else [.onValuesChange values] := by
  rw [VehiclePropertyStore.refreshTimestamps]
  simp only [VehiclePropertyStore.refreshLoop_fst, PropertyStore.invokeCallbacks, hseveral,
    if_true]

/-- Every step keeps the account of the turns. -/
theorem Followed.step (h : Followed undefinedCast store events s)
    (hpath : Path (RefreshStep undefinedCast) (.start store) events s)
    (hstep : RefreshStep undefinedCast s e t) :
    Followed undefinedCast store (events ++ [e]) t := by
  have hscheduled : Scheduled s.registry.hardware := by
    rw [h.registry]
    exact (consistent_run _).scheduled
  have hcallback (hne : .registerOnPropertyChangeEvent ≠ e) :
      s.mOnPropertyChangeCallback = true ↔ .registerOnPropertyChangeEvent ∈ events ++ [e] := by
    rw [h.callback, List.mem_append, List.mem_singleton, or_iff_left hne]
  have hregistry (he : e.ofTimer = true) :
      s.registry = .run undefinedCast (RefreshSystem.start store).getPropConfig
        (registryCalls (events ++ [e])) := by
    rw [registryCalls_snoc_of_ofTimer he, h.registry]
  cases hstep with
  | call registryCall =>
      refine ⟨?_, h.registration, h.several, hcallback (by simp), h.grounded.snoc rfl⟩
      rw [registryCalls, List.filterMap_append, RefreshRegistry.run, List.foldl_append,
        getPropConfig_of_registration (a := .start store) h.registration, h.registry]
      rfl
  | registerOnPropertyChangeEvent =>
      refine ⟨?_, h.registration, h.several, iff_of_true rfl (by simp), h.grounded.snoc rfl⟩
      rw [registryCalls, List.filterMap_append, h.registry]
      exact congrArg _ (List.append_nil _).symm
  | @store op hop =>
      obtain ⟨hregistration, hseveral, -⟩ := hop.kept s.store
      refine ⟨?_, fun propId => (hregistration propId).trans (h.registration propId),
        hseveral.trans h.several, hcallback (by simp), h.grounded.snoc rfl⟩
      rw [registryCalls, List.filterMap_append, h.registry]
      exact congrArg _ (List.append_nil _).symm
  | timer order hidle hcopy =>
      obtain ⟨rfl, hmodes⟩ :=
        FakeVehicleHardware.eventModesForInterval_of_scheduled hscheduled hcopy
      refine ⟨hregistry rfl, h.registration, h.several, hcallback (by simp), events, [], rfl,
        List.forall_mem_nil _,
        fun q mode => ?_⟩
      rw [hmodes _ rfl, h.registry, lookup_run]
  | ignore order hidle hcopy =>
      obtain ⟨rfl, -⟩ := FakeVehicleHardware.eventModesForInterval_of_scheduled hscheduled hcopy
      refine ⟨hregistry rfl, h.registration, h.several, hcallback (by simp), ?_⟩
      change s.stage.Grounded _ _ _
      rw [hidle]
      trivial
  | @refresh now order interval eventModes hstage =>
      have hgrounded := h.grounded
      rw [hstage] at hgrounded
      obtain ⟨beforeTurn, copied, rfl, hother, hmodes⟩ := hgrounded
      refine ⟨hregistry rfl, fun propId => ?_, ?_, hcallback (by simp), ?_⟩
      · exact (s.store.registration_refreshLoop now _ propId).trans (h.registration propId)
      · exact (s.store.callbacks_refreshLoop now _).trans h.several
      · change ∀ callback callbacks', _ → _
        rw [refreshTimestamps_fst h.several]
        intro callback callbacks' heq
        simp only at heq
        split at heq
        · cases heq
        · cases heq
          refine ⟨rfl, beforeTurn, copied, now, [], s, by simp, by simpa using hother, hpath, _,
            VehiclePropertyStore.nodup_alwaysPairs_entries order eventModes, fun q => ?_, rfl⟩
          rw [VehiclePropertyStore.mem_alwaysPairs_entries, hmodes]
          constructor
          · rintro ⟨⟨mode, interval⟩, hinfo, rfl, hmode⟩
            cases mode with
            | onValueChange => cases hmode
            | always => exact hinfo
          · exact fun hinfo => ⟨_, hinfo, rfl, rfl⟩
  | passOn hstage =>
      have hgrounded := h.grounded
      rw [hstage] at hgrounded
      obtain ⟨rfl, -⟩ := hgrounded _ _ rfl
      exact ⟨hregistry rfl, h.registration, h.several, hcallback (by simp),
        fun _ _ h => by cases h⟩
  | finish hstage =>
      exact ⟨hregistry rfl, h.registration, h.several, hcallback (by simp), trivial⟩

/-- A new system has taken no turn. -/
theorem followed_start (hseveral : store.mOnValuesChangeCallback = true) :
    Followed undefinedCast store [] (.start store) :=
  ⟨rfl, fun _ => rfl, hseveral, iff_of_false nofun List.not_mem_nil, trivial⟩

/-- The account of the turns holds in every run. -/
theorem followed_of_run (hseveral : store.mOnValuesChangeCallback = true)
    (h : Path (RefreshStep undefinedCast) (.start store) events s) :
    Followed undefinedCast store events s := by
  generalize hstart : RefreshSystem.start store = start at h
  induction h with
  | nil => exact hstart ▸ followed_start hseveral
  | snoc hpath hstep ih =>
      subst hstart
      exact ih.step hpath hstep

/-- In every run, a turn of an interval passes on the stored values of the pairs that had the
interval when it began and that are notified always, with the times of their turns, as far as
the pairs of the values are subscribed when they are passed on. -/
theorem passedOn_of_run {passed : Option (List VehiclePropValue)}
    (hseveral : store.mOnValuesChangeCallback = true)
    (h : Path (RefreshStep undefinedCast) (.start store)
      (before ++ .passOn interval passed :: after) s) :
    ∃ values, TurnValues undefinedCast store interval before values ∧
      (.registerOnPropertyChangeEvent ∈ before → passed = some (values.filter fun value =>
        currentlySubscribed (RefreshSystem.start store).getPropConfig (registryCalls before)
          value.propIdAreaId)) ∧
      (.registerOnPropertyChangeEvent ∉ before → passed = none) := by
  obtain ⟨t, u, hbefore, hstep, -⟩ := h.step_at
  have hfollowed := followed_of_run hseveral hbefore
  cases hstep with
  | @passOn _ callback callbacks hstage =>
      have hgrounded := hfollowed.grounded
      rw [hstage] at hgrounded
      refine ⟨callback.values, (hgrounded _ _ rfl).2, fun hregistered => ?_, fun hnot => ?_⟩
      · rw [if_pos (hfollowed.callback.mpr hregistered)]
        refine congrArg some (List.filter_congr fun value _ => ?_)
        rw [hfollowed.registry, isSubscribed_run]
      · rw [if_neg fun hset => hnot (hfollowed.callback.mp hset)]
        rfl

/-- A subscription of a global property is one to area 0. -/
def RefreshEvent.Regular : RefreshEvent → Prop
  | .call (.subscribe options) =>
      isGlobalProp options.propId = true → ∀ areaId ∈ options.areaIds, areaId = 0
  | _ => True

/-- The registered properties that have a token function are not continuous. -/
def ContinuousUntokened (store : VehiclePropertyStore) : Prop :=
  ∀ propId config tokenFunction, store.registration propId = some (config, tokenFunction) →
    config.changeMode = .continuous → tokenFunction = none

/-- The pair is subscribed at the interval, to be notified always, and has a value. -/
structure Steady (p : PropIdAreaId) (interval : Int) (s : RefreshSystem) : Prop where
  subscribed : s.registry.hardware.mRefreshInfoByPropIdAreaId.lookup p = some ⟨.always, interval⟩
  stored : ∃ value, s.store.storedAt p = some value ∧ value.propIdAreaId = p
  callback : s.mOnPropertyChangeCallback = true

/-- The event ends a turn of the interval. -/
def RefreshEvent.ends (interval : Int) : RefreshEvent → Bool
  | .finish interval' => interval' = interval
  | _ => false

/-- A pair with an interval got it from a subscription to a continuous property. -/
theorem subscribed_of_latestInfo {getPropConfig : Int → Option VehiclePropConfig}
    {calls : List RegistryCall} {q : PropIdAreaId} {refreshInfo : RefreshInfo}
    (h : latestInfo undefinedCast getPropConfig calls q = some refreshInfo) :
    ∃ options config, .subscribe options ∈ calls ∧ getPropConfig q.propId = some config ∧
      config.changeMode = .continuous ∧ q.propId = options.propId ∧
      q.areaId ∈ options.areaIds := by
  rw [latestInfo] at h
  cases hlast : (calls.filterMap
      (RefreshRegistry.infoFrom undefinedCast getPropConfig q)).getLast? with
  | none =>
      rw [hlast] at h
      cases h
  | some said =>
      rw [hlast, Option.getD_some] at h
      obtain ⟨call, hcall, hsaid⟩ := List.mem_filterMap.mp (List.mem_of_getLast? hlast)
      rw [h] at hsaid
      cases call with
      | unsubscribe propId areaId =>
          rw [RefreshRegistry.infoFrom] at hsaid
          split at hsaid
          · cases hsaid
          · cases hsaid
      | subscribe options =>
          rw [RefreshRegistry.infoFrom] at hsaid
          cases hconfig : getPropConfig options.propId with
          | none =>
              rw [hconfig] at hsaid
              cases hsaid
          | some config =>
              rw [hconfig] at hsaid
              simp only at hsaid
              split at hsaid
              · next hcovered =>
                exact ⟨options, config, hcall, hcovered.1.1 ▸ hconfig, hcovered.2.1,
                  hcovered.1.1, hcovered.1.2⟩
              · cases hsaid

/-- The pair is one of area 0 if its property is global. -/
def RegularPair (q : PropIdAreaId) : Prop := isGlobalProp q.propId = true → q.areaId = 0

/-- In regular runs only regular pairs are refreshed. -/
theorem regularPair_of_latestInfo {getPropConfig : Int → Option VehiclePropConfig}
    (hregular : ∀ e ∈ events, e.Regular) {q : PropIdAreaId} {refreshInfo : RefreshInfo}
    (h : latestInfo undefinedCast getPropConfig (registryCalls events) q = some refreshInfo) :
    RegularPair q := by
  obtain ⟨options, config, hcall, -, -, hprop, harea⟩ := subscribed_of_latestInfo h
  obtain ⟨e, he, hsome⟩ := List.mem_filterMap.mp hcall
  intro hglobal
  cases e with
  | call registryCall =>
      cases hsome
      exact hregular _ he (hprop ▸ hglobal) q.areaId harea
  | registerOnPropertyChangeEvent => cases hsome
  | store _ => cases hsome
  | timer _ => cases hsome
  | refresh _ => cases hsome
  | passOn _ _ => cases hsome
  | finish _ => cases hsome

/-- A refreshed value is of its pair, up to the area of a global property. -/
theorem eq_of_refreshed (hvalid : store.Valid) {now : PropIdAreaId → Int} {p q : PropIdAreaId}
    {value : VehiclePropValue} (hp : RegularPair p) (hq : RegularPair q)
    (hvalue : store.refreshed now q = some value) (heq : value.propIdAreaId = p) : q = p := by
  obtain ⟨old, hold, rfl⟩ := Option.map_eq_some_iff.mp hvalue
  rw [VehiclePropertyStore.storedAt, VehiclePropertyStore.storedFor] at hold
  obtain ⟨recId, hid, hstored⟩ := Option.bind_eq_some_iff.mp hold
  obtain ⟨hprop, hkey⟩ := hvalid.keyed _ _ _ hstored
  obtain ⟨record, hrecord, rfl⟩ := Option.map_eq_some_iff.mp hid
  obtain ⟨record', hrecord', hsame⟩ := Option.map_eq_some_iff.mp hkey
  have harea := congrArg PropertyStore.RecordId.area hsame
  subst heq
  change old.prop = q.propId at hprop
  change PropertyStore.recordArea old.prop old.areaId =
    PropertyStore.recordArea q.propId q.areaId at harea
  rcases q with ⟨propId, areaId⟩
  change (⟨propId, areaId⟩ : PropIdAreaId) = ⟨old.prop, old.areaId⟩
  rw [PropertyStore.recordArea, PropertyStore.recordArea, hprop] at harea
  rw [PropIdAreaId.mk.injEq]
  refine ⟨hprop.symm, ?_⟩
  by_cases hglobal : isGlobalProp propId = true
  · have hpzero : old.areaId = 0 := hp (hprop ▸ hglobal)
    have hqzero : areaId = 0 := hq hglobal
    rw [hpzero, hqzero]
  · rw [if_neg hglobal, if_neg hglobal] at harea
    exact harea.symm

/-- A pair with a value gives one value if it is refreshed, and other pairs give it none. -/
theorem countP_refreshed (hvalid : store.Valid) (now : PropIdAreaId → Int) {p : PropIdAreaId}
    {pairs : List PropIdAreaId} (hnodup : pairs.Nodup) (hp : RegularPair p)
    (hpairs : ∀ q ∈ pairs, RegularPair q)
    (hstored : ∃ value, store.storedAt p = some value ∧ value.propIdAreaId = p) :
    (pairs.filterMap (store.refreshed now)).countP (fun value => value.propIdAreaId = p) =
      if p ∈ pairs then 1 else 0 := by
  rw [← hnodup.count, List.count, List.countP_filterMap]
  refine List.countP_congr fun q hq => ?_
  rw [beq_iff_eq]
  constructor
  · intro hvalue
    cases hrefreshed : store.refreshed now q with
    | none =>
        rw [hrefreshed] at hvalue
        cases hvalue
    | some value =>
        rw [hrefreshed] at hvalue
        exact eq_of_refreshed hvalid hp (hpairs q hq) hrefreshed (of_decide_eq_true hvalue)
  · rintro rfl
    obtain ⟨value, hvalue, heq⟩ := hstored
    rw [VehiclePropertyStore.refreshed, hvalue]
    exact decide_eq_true heq

/-- A property with a configuration is registered. -/
theorem registration_of_getPropConfig {propId : Int} {config : VehiclePropConfig}
    (h : (RefreshSystem.start store).getPropConfig propId = some config) :
    ∃ tokenFunction, store.registration propId = some (config, tokenFunction) := by
  have hstore : (RefreshSystem.start store).store = store := rfl
  rw [RefreshSystem.getPropConfig, VehiclePropertyStore.getPropConfig, hstore] at h
  rw [VehiclePropertyStore.registration]
  cases hrecord : store.getRecordLocked propId with
  | none =>
      rw [hrecord] at h
      cases h
  | some record =>
      rw [hrecord] at h
      cases h
      exact ⟨record.tokenFunction, rfl⟩

/-- The store of a run is valid, as only pairs without a token function are refreshed. -/
theorem valid_of_run (hseveral : store.mOnValuesChangeCallback = true) (hvalid : store.Valid)
    (hcontinuous : ContinuousUntokened store)
    (h : Path (RefreshStep undefinedCast) (.start store) events s) : s.store.Valid := by
  generalize hstart : RefreshSystem.start store = start at h
  induction h with
  | nil => exact hstart ▸ hvalid
  | @snoc t u events e hpath hstep ih =>
      subst hstart
      have hfollowed := followed_of_run hseveral hpath
      cases hstep with
      | call _ => exact ih
      | registerOnPropertyChangeEvent => exact ih
      | store hop => exact ih.apply (hop.kept t.store).2.2
      | timer _ _ _ => exact ih
      | ignore _ _ _ => exact ih
      | @refresh now order interval eventModes hstage =>
          have hgrounded := hfollowed.grounded
          rw [hstage] at hgrounded
          obtain ⟨beforeTurn, _, _, _, hmodes⟩ := hgrounded
          refine ih.refreshTimestamps now order eventModes fun pair hpair record hrecord => ?_
          obtain ⟨mode, hmode⟩ := (UnorderedMap.mem_keys_iff eventModes pair).mp hpair
          obtain ⟨_, hinfo, -⟩ := (hmodes pair mode).mp hmode
          obtain ⟨_, config, _, hconfig, hchange, -⟩ := subscribed_of_latestInfo hinfo
          obtain ⟨tokenFunction, hregistered⟩ := registration_of_getPropConfig hconfig
          have hnone := hcontinuous _ _ _ hregistered hchange
          rw [← hfollowed.registration, VehiclePropertyStore.registration, hrecord,
            Option.map_some, Option.some.injEq] at hregistered
          exact (Prod.mk.inj hregistered).2.trans hnone
      | passOn _ => exact ih
      | finish _ => exact ih

/-- The values of a pair that have been passed on, together with those that the thread of the
timer still has, are as many as the turns of its interval. -/
def Owed (p : PropIdAreaId) (interval : Int) (passed turns : Nat) : TurnStage → Prop
  | .idle => passed = turns
  | .copied interval' eventModes =>
      passed = turns ∧ (eventModes.lookup p = some .always ↔ interval' = interval)
  | .refreshed interval' callbacks =>
      passed + (callbacks.flatMap ChangeCallback.values).countP (fun v => v.propIdAreaId = p) =
        turns + if interval' = interval then 1 else 0

/-- The values of a pair that some events pass on. -/
def passedFor (p : PropIdAreaId) (events : List RefreshEvent) : Nat :=
  (passedOn events).countP fun value => value.propIdAreaId = p

/-- What one more step passes on comes last. -/
theorem passedFor_snoc (p : PropIdAreaId) (events : List RefreshEvent) (e : RefreshEvent) :
    passedFor p (events ++ [e]) = passedFor p events + passedFor p [e] := by
  rw [passedFor, passedOn, List.flatMap_append, List.countP_append]
  rfl

/-- Each step of a steady system passes on what a turn owes. -/
theorem Owed.step {p : PropIdAreaId} {s' : RefreshSystem} {window : List RefreshEvent}
    (hseveral : store.mOnValuesChangeCallback = true) (hvalid : store.Valid)
    (hcontinuous : ContinuousUntokened store) (hregular : ∀ e ∈ events, e.Regular)
    (hpath : Path (RefreshStep undefinedCast) (.start store) events s)
    (hsteady : Steady p interval s) (hstep : RefreshStep undefinedCast s e s')
    (h : Owed p interval (passedFor p window) (window.countP (·.ends interval)) s.stage) :
    Owed p interval (passedFor p (window ++ [e])) ((window ++ [e]).countP (·.ends interval))
      s'.stage := by
  have hfollowed := followed_of_run hseveral hpath
  have hlatest := hsteady.subscribed
  rw [hfollowed.registry, lookup_run] at hlatest
  have hscheduled : Scheduled s.registry.hardware := by
    rw [hfollowed.registry]
    exact (consistent_run _).scheduled
  rw [passedFor_snoc, List.countP_append]
  cases hstep with
  | call _ => exact h
  | registerOnPropertyChangeEvent => exact h
  | store _ => exact h
  | @timer order interval' eventModes hardware hidle hcopy =>
      rw [hidle] at h
      obtain ⟨-, hmodes⟩ :=
        FakeVehicleHardware.eventModesForInterval_of_scheduled hscheduled hcopy
      refine ⟨h, (hmodes _ rfl p .always).trans ⟨?_, ?_⟩⟩
      · rintro ⟨refreshInfo, hinfo, rfl, -⟩
        cases hsteady.subscribed.symm.trans hinfo
        rfl
      · rintro rfl
        exact ⟨_, hsteady.subscribed, rfl, rfl⟩
  | ignore _ hidle _ => exact h
  | @refresh now order interval' eventModes hstage =>
      have hgrounded := hfollowed.grounded
      rw [hstage] at h hgrounded
      obtain ⟨hpassed, halways⟩ := h
      obtain ⟨beforeTurn, copied, rfl, -, hmodes⟩ := hgrounded
      have hpairs : ∀ q ∈ alwaysPairs (order.entries eventModes), RegularPair q := by
        intro q hq
        obtain ⟨_, hinfo, -⟩ := (hmodes q .always).mp
          ((VehiclePropertyStore.mem_alwaysPairs_entries order eventModes q).mp hq)
        exact regularPair_of_latestInfo
          (fun e he => hregular e (List.mem_append_left _ he)) hinfo
      have hcount := countP_refreshed (valid_of_run hseveral hvalid hcontinuous hpath) now
        (VehiclePropertyStore.nodup_alwaysPairs_entries order eventModes)
        (regularPair_of_latestInfo hregular hlatest) hpairs hsteady.stored
      simp only [VehiclePropertyStore.mem_alwaysPairs_entries, halways] at hcount
      change passedFor p window + 0 + _ = _ + 0 + _
      rw [refreshTimestamps_fst hfollowed.several, ← hcount, hpassed]
      simp only
      split
      · next hnil =>
        rw [hnil]
        rfl
      · rw [List.flatMap_singleton]
        rfl
  | @passOn interval' callback callbacks hstage =>
      rw [hstage] at h
      have hkept : passedFor p [.passOn interval' (s.registry.hardware.callOnPropertyChange
          (if s.mOnPropertyChangeCallback then some id else none) callback.values)] =
          callback.values.countP fun value => value.propIdAreaId = p := by
        rw [if_pos hsteady.callback, passedFor, passedOn, List.flatMap_singleton]
        change ((callback.values.filter _).countP _) = _
        rw [List.countP_filter]
        refine List.countP_congr fun value _ => ?_
        rw [Bool.and_eq_true]
        refine ⟨fun hboth => hboth.1, fun heq => ⟨heq, ?_⟩⟩
        rw [of_decide_eq_true heq, FakeVehicleHardware.isSubscribed, hsteady.subscribed]
        rfl
      rw [hkept]
      change _ = _ + 0 + _
      rw [Owed, List.flatMap_cons, List.countP_append] at h
      rw [Nat.add_assoc, h]
      rfl
  | @finish interval' hstage =>
      rw [hstage] at h
      change passedFor p window + 0 = _
      rw [List.countP_singleton]
      simp only [RefreshEvent.ends, decide_eq_true_eq]
      exact h

/-- A pair that stays subscribed at an interval, to be notified always, and that keeps having a
value gets one value in each turn of the interval and none in the other turns: in every run
between two moments without a turn, as many values as turns of the interval ended. -/
theorem one_value_per_turn {p : PropIdAreaId} (hseveral : store.mOnValuesChangeCallback = true)
    (hvalid : store.Valid) (hcontinuous : ContinuousUntokened store)
    (hregular : ∀ e ∈ before ++ events, e.Regular)
    (hbefore : Path (RefreshStep undefinedCast) (.start store) before s) (hidle : s.stage = .idle)
    (hrun : Path (fun s e t => RefreshStep undefinedCast s e t ∧ Steady p interval s) s events t)
    (hend : t.stage = .idle) :
    ((passedOn events).countP fun value => value.propIdAreaId = p) =
      events.countP (·.ends interval) := by
  have howed : Owed p interval (passedFor p events) (events.countP (·.ends interval)) t.stage := by
    clear hend
    induction hrun with
    | nil =>
        rw [hidle]
        rfl
    | @snoc u v events e hpath hstep ih =>
        have hregular' : ∀ e ∈ before ++ events, e.Regular := fun e he =>
          hregular e (by rw [← List.append_assoc]; exact List.mem_append_left _ he)
        exact Owed.step hseveral hvalid hcontinuous hregular'
          (hbefore.trans (hpath.mono fun _ _ _ hr => hr.1)) hstep.2 hstep.1 (ih hregular')
  rw [hend] at howed
  exact howed

variable (undefinedCast) in
/-- From a state without a turn, the timer can make a whole turn for a steady pair. -/
theorem exists_turn_of_steady {p : PropIdAreaId} (hscheduled : Scheduled s.registry.hardware)
    (hseveral : s.store.mOnValuesChangeCallback = true) (hidle : s.stage = .idle)
    (h : Steady p interval s) (now : PropIdAreaId → Int) : ∃ passed t,
    Path (fun s e t => RefreshStep undefinedCast s e t ∧ Steady p interval s) s
      [.timer interval, .refresh now, .passOn interval (some passed), .finish interval] t ∧
    t.stage = .idle := by
  let order : Traversal PropIdAreaId := .ascending PropIdAreaId
  obtain ⟨value, hvalue, hpair⟩ := h.stored
  obtain ⟨⟨copied, hardware⟩, hcopy⟩ :
      ∃ copy, s.registry.hardware.eventModesForInterval order interval = copy := ⟨_, rfl⟩
  obtain ⟨rfl, hmodes⟩ :=
    FakeVehicleHardware.eventModesForInterval_of_scheduled hscheduled hcopy
  obtain ⟨action, haction, -⟩ := hscheduled.listed p _ h.subscribed
  cases copied with
  | none =>
      rw [FakeVehicleHardware.eventModesForInterval, haction] at hcopy
      cases hcopy
  | some eventModes =>
      have halways : eventModes.lookup p = some .always :=
        (hmodes _ rfl p .always).mpr ⟨_, h.subscribed, rfl, rfl⟩
      let values := (alwaysPairs (order.entries eventModes)).filterMap (s.store.refreshed now)
      have hvalues : values ≠ [] := by
        refine List.ne_nil_of_mem (a := { value with timestamp := now p })
          (List.mem_filterMap.mpr ⟨p, ?_, by rw [VehiclePropertyStore.refreshed, hvalue]; rfl⟩)
        exact (VehiclePropertyStore.mem_alwaysPairs_entries order eventModes p).mpr halways
      have hcallbacks : (s.store.refreshTimestamps now order eventModes).1 =
          [.onValuesChange values] := by
        rw [refreshTimestamps_fst hseveral]
        exact if_neg hvalues
      obtain ⟨timestamp, hrefreshed⟩ :=
        VehiclePropertyStore.storedAt_refreshTimestamps now order eventModes hvalue
      have hlater (stage : TurnStage) : Steady p interval { s with
          store := (s.store.refreshTimestamps now order eventModes).2, stage } :=
        ⟨h.subscribed, ⟨_, hrefreshed, hpair⟩, h.callback⟩
      have hpassed := @RefreshStep.passOn undefinedCast { s with
          store := (s.store.refreshTimestamps now order eventModes).2
          stage := .refreshed interval (s.store.refreshTimestamps now order eventModes).1 } _ _ _
        (congrArg (TurnStage.refreshed interval) hcallbacks)
      rw [show (if s.mOnPropertyChangeCallback then some id else none) = some id from
        if_pos h.callback] at hpassed
      refine ⟨_, _, (((Path.single ⟨.timer s order hidle hcopy, h⟩).snoc
        ⟨.refresh _ now order rfl, ⟨h.subscribed, h.stored, h.callback⟩⟩).snoc
          ⟨hpassed, hlater _⟩).snoc ⟨.finish _ rfl, hlater _⟩, rfl⟩

/-- The speed in the store. -/
def sampledStore : VehiclePropertyStore :=
  (PropertyStore.Operation.writeValue 0 { prop := 0x11600207 } true .onValueChange false).apply
    (VehiclePropertyStore.registerProperty { prop := 0x11600207, changeMode := .continuous } none
      { mOnValuesChangeCallback := true })

/-- A subscription to the speed, ten times a second. -/
def sampledOptions : SubscribeOptions :=
  { propId := 0x11600207, areaIds := [0], sampleRate := .ofInt 10 }

private theorem exists_sampled_turn : ∃ s passed t,
    Path (RefreshStep fun _ => 0) (.start sampledStore)
      [.registerOnPropertyChangeEvent, .call (.subscribe sampledOptions)] s ∧
    s.stage = .idle ∧
    Path (fun s e t => RefreshStep (fun _ => 0) s e t ∧ Steady ⟨0x11600207, 0⟩ 100000000 s) s
      [.timer 100000000, .refresh fun _ => 7, .passOn 100000000 (some passed),
        .finish 100000000] t ∧
    t.stage = .idle := by
  have hrate : (Binary32.ofInt 10).eq .zero = false := by decide +kernel
  have hinterval : intervalInNanos (.ofInt 10) = some 100000000 := by decide +kernel
  have hne : refreshInterval (fun _ => 0) sampledOptions.sampleRate ≠ 0 := by
    rw [refreshInterval, sampledOptions, hinterval]
    decide
  have hfault : ((RegistryCall.subscribe sampledOptions).apply (fun _ => 0)
      (RefreshSystem.start sampledStore).getPropConfig {}).dividedByZero = false :=
    RefreshRegistry.dividedByZero_subscribeAreas _ hne
      { prop := 0x11600207, changeMode := .continuous } [0] {}
  have hrun : Path (RefreshStep fun _ => 0) (.start sampledStore)
      ([.registerOnPropertyChangeEvent] ++ [.call (.subscribe sampledOptions)]) _ :=
    (Path.single (.registerOnPropertyChangeEvent _)).snoc
      (.call { RefreshSystem.start sampledStore with mOnPropertyChangeCallback := true } _ hfault)
  have hfollowed := followed_of_run rfl hrun
  have hlatest : latestInfo (fun _ => 0) (RefreshSystem.start sampledStore).getPropConfig
      [.subscribe sampledOptions] ⟨0x11600207, 0⟩ = some ⟨.always, 100000000⟩ := by
    have hconfig : (RefreshSystem.start sampledStore).getPropConfig 0x11600207 =
        some { prop := 0x11600207, changeMode := .continuous } := rfl
    have hinfo : RefreshRegistry.infoFrom (fun _ => 0)
        (RefreshSystem.start sampledStore).getPropConfig ⟨0x11600207, 0⟩
        (.subscribe sampledOptions) = some (some ⟨.always, 100000000⟩) := by
      rw [RefreshRegistry.infoFrom, sampledOptions, hconfig]
      refine (if_pos ⟨⟨rfl, List.mem_singleton_self _⟩, rfl, hrate⟩).trans ?_
      rw [RefreshRegistry.intervalOfRate,
        show (Binary32.ofInt 10).quotientToInt64 1000000000 = some 100000000 from hinterval]
      rfl
    rw [latestInfo, List.filterMap_cons_some hinfo]
    rfl
  rw [← lookup_run] at hlatest
  obtain ⟨passed, t, hturn, hidle⟩ := exists_turn_of_steady (fun _ => 0)
    (by rw [hfollowed.registry]; exact (consistent_run _).scheduled) rfl rfl
    ⟨hlatest, ⟨{ prop := 0x11600207 }, by decide, rfl⟩, rfl⟩ fun _ => 7
  exact ⟨_, passed, t, hrun, rfl, hturn, hidle⟩

/-- A turn for one sampled property passes on its values. -/
theorem passedOn_of_sampled : ∃ before passed s,
    Path (RefreshStep fun _ => 0) (.start sampledStore)
      (before ++ .passOn 100000000 (some passed) :: [.finish 100000000]) s ∧
    ∃ values, TurnValues (fun _ => 0) sampledStore 100000000 before values ∧
      (.registerOnPropertyChangeEvent ∈ before → some passed = some (values.filter fun value =>
        currentlySubscribed (RefreshSystem.start sampledStore).getPropConfig
          (registryCalls before) value.propIdAreaId)) ∧
      (.registerOnPropertyChangeEvent ∉ before → some passed = none) := by
  obtain ⟨s, passed, t, hbefore, -, hturn, -⟩ := exists_sampled_turn
  have hrun : Path (RefreshStep fun _ => 0) (.start sampledStore)
      (([.registerOnPropertyChangeEvent, .call (.subscribe sampledOptions)] ++
        [.timer 100000000, .refresh fun _ => 7]) ++
        .passOn 100000000 (some passed) :: [.finish 100000000]) t := by
    rw [List.append_assoc]
    exact hbefore.trans (hturn.mono fun _ _ _ hr => hr.1)
  exact ⟨_, passed, t, hrun, passedOn_of_run rfl hrun⟩

/-- A turn for one sampled property passes on one value of it. -/
theorem one_value_of_sampled : ∃ s passed t,
    Path (fun s e t => RefreshStep (fun _ => 0) s e t ∧ Steady ⟨0x11600207, 0⟩ 100000000 s) s
      [.timer 100000000, .refresh fun _ => 7, .passOn 100000000 (some passed),
        .finish 100000000] t ∧
    ((passedOn [.timer 100000000, .refresh fun _ => 7, .passOn 100000000 (some passed),
      .finish 100000000]).countP fun value => value.propIdAreaId = ⟨0x11600207, 0⟩) = 1 := by
  obtain ⟨s, passed, t, hbefore, hidle, hturn, hend⟩ := exists_sampled_turn
  have hvalid : sampledStore.Valid :=
    PropertyStore.Reachable.valid (.call
      (@PropertyStore.Reachable.call _
        (.registerProperty { prop := 0x11600207, changeMode := .continuous } none)
        (.setOnValuesChangeCallback .empty) (Or.inl rfl)) trivial)
  have hcontinuous : ContinuousUntokened sampledStore := by
    intro propId config tokenFunction hregistered _
    rw [sampledStore, PropertyStore.Operation.apply,
      VehiclePropertyStore.registration_writeValue, VehiclePropertyStore.registerProperty,
      VehiclePropertyStore.registration_withRecord] at hregistered
    split at hregistered
    · cases hregistered
      rfl
    · cases hregistered
  refine ⟨s, passed, t, hturn,
    one_value_per_turn rfl hvalid hcontinuous ?_ hbefore hidle hturn hend⟩
  simp only [List.cons_append, List.nil_append, List.forall_mem_cons, List.not_mem_nil,
    false_implies, implies_true, RefreshEvent.Regular, sampledOptions, and_true]

end Run

end FakeHardware

end VhalCore
