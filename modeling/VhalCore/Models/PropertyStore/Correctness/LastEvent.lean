import Mathlib.Data.List.Perm.Basic
import VhalCore.Core.Execution
import VhalCore.Models.PropertyStore.Interpretation.Writes
import VhalCore.Models.Vehicle.Order

/-!
# Concurrent writes and their callbacks

Several threads write to the store. The locked section of a write and the callback after it
are two steps, and the steps of other threads may come between them. So callbacks need not
run in the order in which their values were stored. The value and the status that are
stored are always those of the last locked section that announced a value.
-/

namespace VhalCore.PropertyStore

/-- The arguments of a write. -/
structure WriteCall where
  propValue : VehiclePropValue
  updateStatus : Bool := false
  eventMode : EventMode := .onValueChange
  useCurrentTimestamp : Bool := false

/-- A thread takes the lock for a write at a time of the clock, or runs the callbacks of its
write. -/
inductive WriterEvent where
  | commit (thread : Nat) (now : Int) (call : WriteCall)
  | notify (thread : Nat)

/-- The store, the callbacks that threads are about to run, and as a history the callbacks in
the order of the locked sections and in the order in which they ran. -/
structure Writers where
  store : VehiclePropertyStore
  pending : List (Nat × List ChangeCallback) := []
  committed : List ChangeCallback := []
  delivered : List ChangeCallback := []

/-- The callbacks that have not run yet. -/
def Writers.outstanding (s : Writers) : List ChangeCallback := s.pending.flatMap Prod.snd

/-- The locked section of a call. -/
def WriteCall.locked (call : WriteCall) (now : Int) (store : VehiclePropertyStore) :
    Except StoreError (Option Notification × VehiclePropertyStore) :=
  store.writeValueLocked now call.propValue call.updateStatus call.eventMode
    call.useCurrentTimestamp

/-- The value of a call at a time. -/
def WriteCall.valueAt (call : WriteCall) (now : Int) : VehiclePropValue :=
  stamp now call.useCurrentTimestamp call.propValue

/-- The steps of the threads. A thread runs one call at a time. -/
inductive WriterStep : Writers → WriterEvent → Writers → Prop
  | refused {s : Writers} {thread : Nat} {now : Int} {call : WriteCall} {e : StoreError} :
      (∀ entry ∈ s.pending, entry.1 ≠ thread) → call.locked now s.store = .error e →
      WriterStep s (.commit thread now call) s
  | silent {s : Writers} {thread : Nat} {now : Int} {call : WriteCall}
      {store : VehiclePropertyStore} :
      (∀ entry ∈ s.pending, entry.1 ≠ thread) → call.locked now s.store = .ok (none, store) →
      WriterStep s (.commit thread now call) { s with store }
  | committed {s : Writers} {thread : Nat} {now : Int} {call : WriteCall} {n : Notification}
      {store : VehiclePropertyStore} :
      (∀ entry ∈ s.pending, entry.1 ≠ thread) → call.locked now s.store = .ok (some n, store) →
      WriterStep s (.commit thread now call)
        { s with
          store
          pending := s.pending ++ [(thread, n.invoke call.eventMode)]
          committed := s.committed ++ n.invoke call.eventMode }
  | notified {s : Writers} {thread : Nat} {callbacks : List ChangeCallback}
      {before after : List (Nat × List ChangeCallback)} :
      s.pending = before ++ (thread, callbacks) :: after →
      WriterStep s (.notify thread)
        { s with pending := before ++ after, delivered := s.delivered ++ callbacks }

/-- The call of an event writes to the record and may announce its value. -/
def WriterEvent.OnRecord (store : VehiclePropertyStore) (propId : Int) (recId : RecordId) :
    WriterEvent → Prop
  | .commit _ now call => call.eventMode ≠ .never ∧ call.propValue.prop = propId ∧
      store.recordIdOf (call.valueAt now) = some recId
  | .notify _ => True

/-- A callback carries the value and the status that are stored. -/
def Tells (c : ChangeCallback) (stored : Option VehiclePropValue) : Prop :=
  ∃ told v, c.values = [told] ∧ stored = some v ∧ told.value = v.value ∧ told.status = v.status

/-- A thread does not take the lock while a callback has still to run. -/
def InTurn (s : Writers) : WriterEvent → Prop
  | .commit _ _ _ => s.outstanding = []
  | .notify _ => True

/-- What a value says apart from its time. -/
def content (v : VehiclePropValue) : RawPropValues × VehiclePropertyStatus := (v.value, v.status)

/-- A write that is not announced leaves the content of its record as it is. -/
theorem content_of_not_changes {store : VehiclePropertyStore} {updateStatus : Bool}
    {v : VehiclePropValue} (h : store.changes updateStatus v = false) :
    ∃ old, store.storedFor v = some old ∧ content old = content (store.written updateStatus v) := by
  unfold VehiclePropertyStore.changes at h
  rcases hs : store.storedFor v with _ | old
  · rw [hs] at h
    cases h
  · rw [hs] at h
    simp only [isUpdated, Bool.or_eq_false_iff, Bool.not_eq_false', bne_eq_false_iff_eq] at h
    exact ⟨old, rfl, Prod.ext (RawPropValues.eq_of_eq h.1) h.2⟩

/-- A write that succeeds under the lock stores its value and gives its notification. -/
theorem WriteCall.of_locked_ok {store after : VehiclePropertyStore} {now : Int}
    {call : WriteCall} {n : Option Notification} (h : call.locked now store = .ok (n, after)) :
    store.Writable (call.valueAt now) ∧
      n = store.notificationOf call.updateStatus call.eventMode (call.valueAt now) ∧
      after = store.put (call.valueAt now) (store.written call.updateStatus (call.valueAt now)) :=
  VehiclePropertyStore.of_writeValueLocked_ok h

/-- The locked section of a call that announces its value leaves one callback, which tells what
is stored; the locked section of any other call keeps the content of the record. -/
theorem WriteCall.locked_ok {store after : VehiclePropertyStore} {now : Int} {call : WriteCall}
    {propId : Int} {recId : RecordId} {n : Notification}
    (hcallback : store.mOnValueChangeCallback = true ∨ store.mOnValuesChangeCallback = true)
    (hid : store.recordIdOf (call.valueAt now) = some recId)
    (hprop : (call.valueAt now).prop = propId)
    (h : call.locked now store = .ok (some n, after)) :
    (∃ c, n.invoke call.eventMode = [c] ∧ Tells c (after.stored propId recId)) ∨
      n.invoke call.eventMode = [] ∧
        (after.stored propId recId).map content = (store.stored propId recId).map content := by
  obtain ⟨hw, hn, rfl⟩ := WriteCall.of_locked_ok h
  generalize call.valueAt now = v at *
  subst hprop
  have hstored (w : VehiclePropValue) : (store.put v w).stored v.prop recId = some w := by
    rw [VehiclePropertyStore.stored_put hw.registered, if_pos ⟨rfl, hid⟩]
  have hbefore : store.storedFor v = store.stored v.prop recId := by
    rw [VehiclePropertyStore.storedFor, hid, Option.bind_some]
  unfold VehiclePropertyStore.notificationOf at hn
  split at hn
  · cases hn
  · cases hn
    by_cases hdue : (call.eventMode = .always || store.changes call.updateStatus v) = true
    · obtain ⟨c, hc, hvalues⟩ := VehiclePropertyStore.invokeCallbacks_singleton hcallback
        (store.written call.updateStatus v)
      refine Or.inl ⟨c, ?_, _, _, hvalues, hstored _, rfl, rfl⟩
      rw [Notification.invoke, if_pos hdue]
      exact hc
    · refine Or.inr ⟨by rw [Notification.invoke, if_neg hdue], ?_⟩
      rw [Bool.not_eq_true, Bool.or_eq_false_iff] at hdue
      obtain ⟨old, hold, hcontent⟩ := content_of_not_changes hdue.2
      rw [hstored, ← hbefore, hold, Option.map_some, Option.map_some, hcontent]

/-- What holds after every step of the writers to a record. -/
structure Accounted (start : VehiclePropertyStore) (propId : Int) (recId : RecordId)
    (s : Writers) : Prop where
  ids : ∀ v, s.store.recordIdOf v = start.recordIdOf v
  callback : s.store.mOnValueChangeCallback = true ∨ s.store.mOnValuesChangeCallback = true
  accounted : s.committed.Perm (s.delivered ++ s.outstanding)
  told : ∀ c, s.committed.getLast? = some c → Tells c (s.store.stored propId recId)
  untold : s.committed = [] →
    (s.store.stored propId recId).map content = (start.stored propId recId).map content

/-- The callbacks of a store do not change with its records. -/
theorem callbacks_put (store : VehiclePropertyStore) (v w : VehiclePropValue) :
    (store.put v w).mOnValueChangeCallback = store.mOnValueChangeCallback ∧
      (store.put v w).mOnValuesChangeCallback = store.mOnValuesChangeCallback := by
  unfold VehiclePropertyStore.put
  split
  · exact ⟨rfl, rfl⟩
  · exact ⟨rfl, rfl⟩

/-- A callback tells all values of the same content. -/
theorem Tells.of_content {c : ChangeCallback} {a b : Option VehiclePropValue} (h : Tells c a)
    (hab : b.map content = a.map content) : Tells c b := by
  obtain ⟨told, v, hc, rfl, hvalue, hstatus⟩ := h
  obtain ⟨w, rfl, hw⟩ := Option.map_eq_some_iff.mp hab
  have hw := Prod.mk.inj hw
  exact ⟨told, w, hc, rfl, hvalue.trans hw.1.symm, hstatus.trans hw.2.symm⟩

/-- Every step keeps the account of the callbacks. -/
theorem Accounted.step {start : VehiclePropertyStore} {propId : Int} {recId : RecordId}
    {s t : Writers} {event : WriterEvent} (hs : Accounted start propId recId s)
    (hevent : event.OnRecord start propId recId) (h : WriterStep s event t) :
    Accounted start propId recId t := by
  cases h with
  | refused _ _ => exact hs
  | silent _ hlocked =>
      obtain ⟨_, hn, _⟩ := WriteCall.of_locked_ok hlocked
      rw [VehiclePropertyStore.notificationOf, if_neg hevent.1] at hn
      cases hn
  | @committed thread now call n after _ hlocked =>
      have hid := (hs.ids _).trans hevent.2.2
      have hprop : (call.valueAt now).prop = propId := by
        rw [← hevent.2.1, WriteCall.valueAt, stamp]
        split <;> rfl
      have hlocal := WriteCall.locked_ok hs.callback hid hprop hlocked
      obtain ⟨_, _, hafter⟩ := WriteCall.of_locked_ok hlocked
      refine ⟨fun v => ?_, ?_, ?_, ?_, ?_⟩
      · rw [hafter, VehiclePropertyStore.recordIdOf_put, hs.ids]
      · rw [hafter, (callbacks_put ..).1, (callbacks_put ..).2]
        exact hs.callback
      · simp only [Writers.outstanding, List.flatMap_append, List.flatMap_cons, List.flatMap_nil,
          List.append_nil, ← List.append_assoc]
        exact hs.accounted.append_right _
      · intro c hc
        rcases hlocal with ⟨c', hone, htells⟩ | ⟨hnone, hcontent⟩
        · simp only [hone, List.getLast?_append, List.getLast?_singleton, Option.some_or,
            Option.some.injEq] at hc
          exact hc ▸ htells
        · simp only [hnone, List.append_nil] at hc
          exact (hs.told c hc).of_content hcontent
      · intro hnil
        obtain ⟨hold, hnew⟩ := List.append_eq_nil_iff.mp hnil
        rcases hlocal with ⟨c', hone, _⟩ | ⟨_, hcontent⟩
        · rw [hone] at hnew
          cases hnew
        · exact hcontent.trans (hs.untold hold)
  | @notified thread callbacks before after hpending =>
      refine ⟨hs.ids, hs.callback, ?_, hs.told, hs.untold⟩
      have hacc := hs.accounted
      simp only [Writers.outstanding, hpending, List.flatMap_append, List.flatMap_cons] at hacc ⊢
      refine hacc.trans ?_
      rw [List.append_assoc]
      refine List.Perm.append_left _ ?_
      rw [← List.append_assoc, ← List.append_assoc]
      exact List.perm_append_comm.append_right _

/-- The state before the first call. -/
def Writers.start (store : VehiclePropertyStore) : Writers := { store }

/-- The account of the callbacks holds in every run. -/
theorem Accounted.run {store : VehiclePropertyStore} {propId : Int} {recId : RecordId}
    {events : List WriterEvent} {s : Writers}
    (hcallback : store.mOnValueChangeCallback = true ∨ store.mOnValuesChangeCallback = true)
    (hevents : ∀ event ∈ events, event.OnRecord store propId recId)
    (h : Path WriterStep (.start store) events s) : Accounted store propId recId s := by
  refine h.invariant_of_mem ⟨fun _ => rfl, hcallback, .refl _, ?_, fun _ => rfl⟩
    fun t event u hmem ht hstep => ht.step (hevents event hmem) hstep
  intro c hc
  cases hc

/-- Where calls take turns the callbacks run in the order of the locked sections. -/
theorem committed_of_inTurn {store : VehiclePropertyStore} {events : List WriterEvent}
    {s : Writers}
    (h : Path (fun t event u => WriterStep t event u ∧ InTurn t event) (.start store) events s) :
    s.committed = s.delivered ++ s.outstanding := by
  suffices hboth : s.committed = s.delivered ++ s.outstanding ∧
      s.pending.Pairwise (fun a b => a.2 = [] ∨ b.2 = []) from hboth.1
  refine Path.invariant (P := fun s => s.committed = s.delivered ++ s.outstanding ∧
      s.pending.Pairwise (fun a b => a.2 = [] ∨ b.2 = [])) h ⟨rfl, .nil⟩ ?_
  rintro t event u ⟨hcommitted, hpair⟩ ⟨hstep, hturn⟩
  cases hstep with
  | refused _ _ => exact ⟨hcommitted, hpair⟩
  | silent _ _ => exact ⟨hcommitted, hpair⟩
  | committed _ _ =>
      have hempty : t.outstanding = [] := hturn
      refine ⟨?_, ?_⟩
      · simp only [Writers.outstanding, List.flatMap_append, List.flatMap_cons, List.flatMap_nil,
          List.append_nil, ← List.append_assoc]
        rw [hcommitted]
        rfl
      · rw [List.pairwise_append]
        refine ⟨hpair, List.pairwise_singleton _ _, fun entry hentry _ _ => Or.inl ?_⟩
        exact List.flatMap_eq_nil_iff.mp hempty entry hentry
  | @notified thread callbacks before after hpending =>
      rw [hpending] at hpair
      obtain ⟨hbefore, hrest, hcross⟩ := List.pairwise_append.mp hpair
      refine ⟨?_, ?_⟩
      · simp only [Writers.outstanding, hpending, List.flatMap_append, List.flatMap_cons]
          at hcommitted ⊢
        rw [hcommitted, List.append_assoc]
        congr 1
        by_cases hnone : callbacks = []
        · simp only [hnone, List.nil_append]
        · have hfirst : before.flatMap Prod.snd = [] :=
            List.flatMap_eq_nil_iff.mpr fun entry hentry =>
              (hcross entry hentry _ (List.mem_cons_self ..)).resolve_right hnone
          rw [hfirst, List.nil_append, List.nil_append]
      · rw [List.pairwise_append]
        exact ⟨hbefore, hrest.of_cons, fun a ha b hb => hcross a ha b (List.mem_cons_of_mem _ hb)⟩

/-- Once all calls on a record have returned, each callback of a locked section was delivered
once, and the one of the last locked section that had one tells what is stored; without
any the content of the record is the old one. Where no thread takes the lock while a
callback has still to run, the last callback that was delivered tells what is stored. -/
theorem last_committed_callback_tells_stored {store : VehiclePropertyStore} {propId : Int}
    {recId : RecordId} {events : List WriterEvent} {s : Writers}
    (hcallback : store.mOnValueChangeCallback = true ∨ store.mOnValuesChangeCallback = true)
    (hevents : ∀ event ∈ events, event.OnRecord store propId recId)
    (h : Path WriterStep (.start store) events s) (hreturned : s.pending = []) :
    s.delivered.Perm s.committed ∧
    (∀ c, s.committed.getLast? = some c → Tells c (s.store.stored propId recId)) ∧
    (s.committed = [] →
      (s.store.stored propId recId).map content = (store.stored propId recId).map content) ∧
    (Path (fun t event u => WriterStep t event u ∧ InTurn t event) (.start store) events s →
      ∀ c, s.delivered.getLast? = some c → Tells c (s.store.stored propId recId)) := by
  have hinv := Accounted.run hcallback hevents h
  have hout : s.outstanding = [] := by rw [Writers.outstanding, hreturned, List.flatMap_nil]
  have hperm := hinv.accounted
  rw [hout, List.append_nil] at hperm
  refine ⟨hperm.symm, hinv.told, hinv.untold, fun hturn c hc => hinv.told c ?_⟩
  rw [committed_of_inTurn hturn, hout, List.append_nil, hc]

/-- The selected gear. -/
def gearId : Int := 0x11400400

/-- A store with the gear registered and a callback set. -/
def gearStore : VehiclePropertyStore :=
  { ({} : VehiclePropertyStore).registerProperty { prop := gearId } none with
    mOnValuesChangeCallback := true }

/-- A call that sets the gear. -/
def setGear (gear : Int) : WriteCall :=
  { propValue := { prop := gearId, value := { int32Values := [gear] } } }

/-- The callback that announces a gear. -/
def gearCallback (gear : Int) : ChangeCallback := .onValuesChange [(setGear gear).propValue]

/-- The store with a gear in it. -/
def storeWithGear (gear : Int) : VehiclePropertyStore :=
  gearStore.put (setGear gear).propValue (setGear gear).propValue

/-- A write of the gear is on its record. -/
theorem setGear_onRecord (thread : Nat) (now gear : Int) :
    (WriterEvent.commit thread now (setGear gear)).OnRecord gearStore gearId ⟨0, 0⟩ := by
  refine ⟨by simp [setGear], rfl, ?_⟩
  have hrecord : gearStore.getRecordLocked gearId = some { propConfig := { prop := gearId } } := by
    rfl
  have harea : recordArea gearId 0 = 0 := by decide
  exact (VehiclePropertyStore.recordIdOf_of_record hrecord).trans (by
    rw [getRecordIdLocked]
    exact congrArg (fun area => some (RecordId.mk area 0)) harea)

/-- Two threads set the gear, and the callback of the first one runs last. -/
def twoThreads : List WriterEvent :=
  [.commit 0 1 (setGear 4), .commit 1 2 (setGear 8), .notify 1, .notify 0]

/-- The two threads take turns. -/
def threadsInTurn : List WriterEvent :=
  [.commit 0 1 (setGear 4), .notify 0, .commit 1 2 (setGear 8), .notify 1]

/-- Both threads are done. -/
def gearsSet (delivered : List ChangeCallback) : Writers where
  store := (storeWithGear 4).put (setGear 8).propValue (setGear 8).propValue
  committed := [gearCallback 4, gearCallback 8]
  delivered := delivered

/-- All events of the two threads are on the record of the gear. -/
theorem gear_onRecord {events : List WriterEvent} (h : events ⊆ twoThreads) :
    ∀ event ∈ events, event.OnRecord gearStore gearId ⟨0, 0⟩ := by
  intro event hevent
  have hmem := h hevent
  simp only [twoThreads, List.mem_cons, List.not_mem_nil, or_false] at hmem
  rcases hmem with rfl | rfl | rfl | rfl
  · exact setGear_onRecord 0 1 4
  · exact setGear_onRecord 1 2 8
  · trivial
  · trivial

/-- Two threads whose callbacks come in the other order than their writes. -/
theorem twoThreads_run :
    Path WriterStep (.start gearStore) twoThreads (gearsSet [gearCallback 8, gearCallback 4]) :=
  .snoc (.snoc (.snoc (.snoc (.nil _) (.committed (by simp [Writers.start]) rfl))
    (.committed (by simp [Writers.start]) rfl))
    (.notified (show _ = [(0, [gearCallback 4])] ++ (1, [gearCallback 8]) :: [] from rfl)))
    (.notified (show _ = [] ++ (0, [gearCallback 4]) :: [] from rfl))

/-- Two threads that take turns. -/
theorem threadsInTurn_run :
    Path (fun t event u => WriterStep t event u ∧ InTurn t event) (.start gearStore) threadsInTurn
      (gearsSet [gearCallback 4, gearCallback 8]) :=
  .snoc (.snoc (.snoc (.snoc (.nil _) ⟨.committed (by simp [Writers.start]) rfl, rfl⟩)
    ⟨.notified (show _ = [] ++ (0, [gearCallback 4]) :: [] from rfl), trivial⟩)
    ⟨.committed (by simp) rfl, rfl⟩)
    ⟨.notified (show _ = [] ++ (1, [gearCallback 8]) :: [] from rfl), trivial⟩

/-- Where the threads take turns the last callback tells the gear; where they do not, both
callbacks have run, and the one of the last locked section tells the gear. -/
theorem gear_told_of_two_threads :
    Tells (gearCallback 8) ((gearsSet [gearCallback 4, gearCallback 8]).store.stored gearId
      ⟨0, 0⟩) ∧
    [gearCallback 8, gearCallback 4].Perm [gearCallback 4, gearCallback 8] ∧
    Tells (gearCallback 8) ((gearsSet [gearCallback 8, gearCallback 4]).store.stored gearId
      ⟨0, 0⟩) := by
  have hsame : threadsInTurn ⊆ twoThreads := by simp [threadsInTurn, twoThreads]
  obtain ⟨-, -, -, hturn⟩ := last_committed_callback_tells_stored (Or.inr rfl)
    (gear_onRecord hsame) (threadsInTurn_run.mono fun _ _ _ h => h.1) rfl
  obtain ⟨hperm, hlast, -, -⟩ := last_committed_callback_tells_stored (Or.inr rfl)
    (gear_onRecord (List.Subset.refl _)) twoThreads_run rfl
  exact ⟨hturn threadsInTurn_run _ rfl, hperm, hlast _ rfl⟩

/-- The last callback need not tell what is stored. -/
theorem last_callback_is_stale :
    ¬∀ (store : VehiclePropertyStore) (propId : Int) (recId : RecordId)
      (events : List WriterEvent) (s : Writers),
      (store.mOnValueChangeCallback = true ∨ store.mOnValuesChangeCallback = true) →
      (∀ event ∈ events, event.OnRecord store propId recId) →
      Path WriterStep (.start store) events s → s.pending = [] →
      ∀ c, s.delivered.getLast? = some c → Tells c (s.store.stored propId recId) := by
  intro h
  obtain ⟨told, v, htold, hstored, hvalue, _⟩ :=
    h gearStore gearId ⟨0, 0⟩ twoThreads _ (Or.inr rfl) (gear_onRecord (List.Subset.refl _))
      twoThreads_run rfl (gearCallback 4) rfl
  have hgear : ((storeWithGear 4).put (setGear 8).propValue (setGear 8).propValue).stored gearId
      ⟨0, 0⟩ = some (setGear 8).propValue := by decide
  cases hgear.symm.trans hstored
  cases htold
  exact absurd hvalue (by decide)

end VhalCore.PropertyStore
