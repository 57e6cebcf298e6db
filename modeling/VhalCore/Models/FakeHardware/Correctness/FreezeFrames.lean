import VhalCore.Models.FakeHardware.Native.FakeObd2Frame
import VhalCore.Models.FakeHardware.Correctness.AllOrNothing

/-!
# Freeze frames over a run

The record of the freeze frames keeps every frame under its own timestamp. So what is listed is
what can be read, and a frame that is read is the one that was written. A removal goes through
its list one by one: where it succeeds it has removed the listed frames, and where it fails it
has removed those before the failure.
-/

namespace VhalCore.FakeHardware

open PropertyStore VehiclePropertyStore

/-- The frame that a write leaves in the store where there was none with its timestamp. -/
def FrameWrite.stored (w : FrameWrite) : VehiclePropValue :=
  { stamp w.now w.useCurrentTimestamp w.propValue with
    status := writtenStatus w.updateStatus w.propValue none }

/-- The frames that are written in a run. -/
def writtenFrames (ops : List FrameOperation) : List VehiclePropValue :=
  ops.filterMap fun op =>
    match op with
    | .write w => some w.stored
    | _ => none

/-- The timestamp is in the list of the freeze frames. -/
def PropertyState.Lists (order : Traversal RecordId) (t : Int) (s : PropertyState) : Prop :=
  ∃ info, s.getObd2DtcInfo order = .ok info ∧ t ∈ info.value.int64Values

/-- What holds of the freeze frames, in whatever order the records are visited. -/
structure FramesConsistent (written : List VehiclePropValue) (s : PropertyState) : Prop where
  /-- A listed timestamp is that of a written frame, which is read with it. -/
  listed : ∀ order t, s.Lists order t → ∃ frame ∈ written, frame.timestamp = t ∧
    ∀ order' request, request.value.int64Values = [t] →
      s.getObd2FreezeFrame order' request = .ok frame
  /-- What is read is listed. -/
  read : ∀ order order' request frame, s.getObd2FreezeFrame order request = .ok frame →
    request.value.int64Values = [frame.timestamp] ∧ s.Lists order' frame.timestamp
  /-- A removal that succeeds removes what it lists, and everything if it lists nothing. -/
  removed : ∀ request after, s.clearObd2FreezeFrames request = (.ok (), after) →
    ∀ order order' t, after.Lists order t ↔
      s.Lists order' t ∧ request.value.int64Values ≠ [] ∧ t ∉ request.value.int64Values
  /-- A removal that fails removes what it lists before the first timestamp that is not stored,
  or no longer. -/
  refused : ∀ request e after, s.clearObd2FreezeFrames request = (.error e, after) →
    ∃ done t rest, request.value.int64Values = done ++ t :: rest ∧ done.Nodup ∧
      (∀ order, (∀ u ∈ done, s.Lists order u) ∧ (s.Lists order t → t ∈ done)) ∧
      ∀ order order' u, after.Lists order u ↔ s.Lists order' u ∧ u ∉ done

/-- Every frame is stored under its own timestamp, and has been written. -/
structure KeepsFrames (written : List VehiclePropValue) (store : VehiclePropertyStore) :
    Prop where
  record : ∃ record, store.getRecordLocked obd2FreezeFrameId = some record ∧
    record.tokenFunction = some VehiclePropValue.timestamp
  keyed : ∀ recId frame, store.stored obd2FreezeFrameId recId = some frame →
    recId = ⟨0, frame.timestamp⟩ ∧ frame.prop = obd2FreezeFrameId ∧ frame ∈ written

section Store

variable {written : List VehiclePropValue} {store : VehiclePropertyStore}

theorem isGlobalProp_freezeFrame : isGlobalProp obd2FreezeFrameId = true := by decide

/-- The record id of a frame. -/
theorem KeepsFrames.recordIdOf (h : KeepsFrames written store) {frame : VehiclePropValue}
    (hprop : frame.prop = obd2FreezeFrameId) :
    store.recordIdOf frame = some ⟨0, frame.timestamp⟩ := by
  obtain ⟨record, hrecord, htoken⟩ := h.record
  rw [recordIdOf_of_record (hprop.symm ▸ hrecord), getRecordIdLocked, recordArea, hprop,
    isGlobalProp_freezeFrame, if_pos rfl, Record.tokenOf, htoken]

theorem KeepsFrames.storedFor (h : KeepsFrames written store) {frame : VehiclePropValue}
    (hprop : frame.prop = obd2FreezeFrameId) :
    store.storedFor frame = store.stored obd2FreezeFrameId ⟨0, frame.timestamp⟩ := by
  rw [VehiclePropertyStore.storedFor, h.recordIdOf hprop, Option.bind_some, hprop]

/-- A property without values keeps its frames. -/
theorem keepsFrames_registerProperty (config : VehiclePropConfig)
    (store : VehiclePropertyStore) :
    KeepsFrames [] (store.registerProperty { config with prop := obd2FreezeFrameId }
      (some VehiclePropValue.timestamp)) := by
  refine ⟨⟨_, by rw [registerProperty, getRecordLocked_withRecord, if_pos rfl], rfl⟩,
    fun recId frame h => ?_⟩
  rw [registerProperty, stored_withRecord, if_pos rfl, Finmap.lookup_empty] at h
  cases h

/-- A removal keeps the frames that remain. -/
theorem KeepsFrames.loses {after : VehiclePropertyStore} (h : KeepsFrames written store)
    (hl : Loses store after) : KeepsFrames written after := by
  obtain ⟨record, hrecord, htoken⟩ := h.record
  have hreg := hl.registration obd2FreezeFrameId
  rw [registration, registration, hrecord, Option.map_some, Option.map_eq_some_iff] at hreg
  obtain ⟨r, hr, heq⟩ := hreg
  refine ⟨⟨r, hr, (congrArg Prod.snd heq).trans htoken⟩, fun recId frame hstored => ?_⟩
  exact h.keyed recId frame (hl.stored _ _ _ hstored)

/-- The removal of a frame leaves the other ones. -/
theorem KeepsFrames.stored_removeValue (h : KeepsFrames written store) {t : Int}
    {frame : VehiclePropValue} (hframe : store.stored obd2FreezeFrameId ⟨0, t⟩ = some frame)
    (u : Int) :
    (store.removeValue frame).stored obd2FreezeFrameId ⟨0, u⟩ =
      if u = t then none else store.stored obd2FreezeFrameId ⟨0, u⟩ := by
  obtain ⟨hid, hprop, _⟩ := h.keyed _ _ hframe
  obtain ⟨record, hrecord, _⟩ := h.record
  have hrecId : getRecordIdLocked frame record = ⟨0, t⟩ := by
    have := h.recordIdOf hprop
    rw [recordIdOf_of_record (hprop.symm ▸ hrecord), ← hid] at this
    exact Option.some.inj this
  have hrecord' : store.getRecordLocked frame.prop = some record := hprop.symm ▸ hrecord
  simp only [removeValue, hrecord', hrecId]
  rw [stored_withRecord, if_pos hprop.symm, UnorderedMap.lookup_erase_eq,
    stored_of_record hrecord]
  simp only [RecordId.mk.injEq, true_and]

/-- A write with a new timestamp stores its frame. -/
theorem KeepsFrames.writeValue (h : KeepsFrames written store) (w : FrameWrite)
    (hnew : w.stored.timestamp ∉ written.map VehiclePropValue.timestamp) :
    KeepsFrames (written ++ [w.stored]) (store.writeValue w.now w.propValue w.updateStatus
      w.eventMode w.useCurrentTimestamp).2.2 := by
  have hprop : (stamp w.now w.useCurrentTimestamp w.propValue).prop = obd2FreezeFrameId := by
    rw [stamp]
    split <;> rfl
  have hnone : store.storedFor (stamp w.now w.useCurrentTimestamp w.propValue) = none := by
    rw [h.storedFor hprop]
    by_contra hsome
    obtain ⟨frame, hframe⟩ := Option.ne_none_iff_exists'.mp hsome
    obtain ⟨hid, _, hmem⟩ := h.keyed _ _ hframe
    refine hnew (List.mem_map.mpr ⟨frame, hmem, ?_⟩)
    exact (congrArg RecordId.token hid).symm
  obtain ⟨record, hrecord, htoken⟩ := h.record
  have hregistered : store.IsRegistered
      (stamp w.now w.useCurrentTimestamp w.propValue).prop := by
    rw [IsRegistered, hprop, hrecord]
    rfl
  have hwritable : store.Writable (stamp w.now w.useCurrentTimestamp w.propValue) := by
    refine ⟨hregistered, ?_, ?_⟩
    · rintro ⟨hglobal, _⟩
      rw [hprop, isGlobalProp_freezeFrame] at hglobal
      cases hglobal
    · rintro ⟨old, hold, _⟩
      rw [hnone] at hold
      cases hold
  have hwritten : store.written w.updateStatus
      (stamp w.now w.useCurrentTimestamp w.propValue) = w.stored := by
    rw [VehiclePropertyStore.written, hnone]
    unfold FrameWrite.stored stamp writtenStatus
    split <;> rfl
  rw [writeValue_of_writable hwritable, hwritten]
  refine ⟨?_, fun recId frame hstored => ?_⟩
  · rw [put_of_record (hprop.symm ▸ hrecord), hprop, getRecordLocked_withRecord, if_pos rfl]
    exact ⟨_, rfl, htoken⟩
  · rw [stored_put hregistered, h.recordIdOf hprop] at hstored
    split at hstored
    · rename_i hkey
      cases hstored
      exact ⟨(Option.some.inj hkey.2).symm, hprop, List.mem_append_right _ (by simp)⟩
    · obtain ⟨hid, hframe, hmem⟩ := h.keyed _ _ hstored
      exact ⟨hid, hframe, List.mem_append_left _ hmem⟩

/-- The removal of a frame, in terms of the timestamps. -/
theorem KeepsFrames.hasFrame_removeValue (h : KeepsFrames written store) {t : Int}
    {frame : VehiclePropValue} (hframe : store.stored obd2FreezeFrameId ⟨0, t⟩ = some frame)
    (u : Int) : HasFrame (store.removeValue frame) u ↔ HasFrame store u ∧ u ≠ t := by
  rw [HasFrame, HasFrame, h.stored_removeValue hframe]
  by_cases hu : u = t
  · simp [hu]
  · simp [hu]

/-- Clearing frames keeps the others as they were written. -/
theorem KeepsFrames.clearFrames (h : KeepsFrames written store) (timestamps : List Int) :
    KeepsFrames written (PropertyState.clearFrames timestamps store).2 := by
  induction timestamps generalizing store with
  | nil => exact h
  | cons t ts ih =>
      rw [PropertyState.clearFrames]
      split
      · exact h
      · exact ih (h.loses (loses_removeValue store _))

/-- A removal that succeeds has removed its whole list. -/
theorem KeepsFrames.clearFrames_ok (h : KeepsFrames written store) {timestamps : List Int}
    {after : VehiclePropertyStore}
    (hok : PropertyState.clearFrames timestamps store = (.ok (), after)) (u : Int) :
    HasFrame after u ↔ HasFrame store u ∧ u ∉ timestamps := by
  induction timestamps generalizing store with
  | nil =>
      obtain rfl : store = after := congrArg Prod.snd hok
      simp only [List.not_mem_nil, not_false_eq_true, and_true]
  | cons t ts ih =>
      rcases readValueOf_frame store t with ⟨frame, hread, hframe⟩ | ⟨⟨e, hread⟩, _⟩
      · simp only [PropertyState.clearFrames, hread] at hok
        rw [ih (h.loses (loses_removeValue store frame)) hok, h.hasFrame_removeValue hframe,
          List.mem_cons, not_or, and_assoc]
      · simp only [PropertyState.clearFrames, hread, Prod.mk.injEq, reduceCtorEq,
          false_and] at hok

/-- A removal that fails has removed what it lists before the first timestamp that is not
stored, or no longer. -/
theorem KeepsFrames.clearFrames_error (h : KeepsFrames written store) {timestamps : List Int}
    {e : SetValueError} {after : VehiclePropertyStore}
    (herror : PropertyState.clearFrames timestamps store = (.error e, after)) :
    ∃ done t rest, timestamps = done ++ t :: rest ∧ done.Nodup ∧
      (∀ u ∈ done, HasFrame store u) ∧ (HasFrame store t → t ∈ done) ∧
      ∀ u, HasFrame after u ↔ HasFrame store u ∧ u ∉ done := by
  induction timestamps generalizing store with
  | nil =>
      simp only [PropertyState.clearFrames, Prod.mk.injEq, reduceCtorEq, false_and] at herror
  | cons t ts ih =>
      rcases readValueOf_frame store t with ⟨frame, hread, hframe⟩ | ⟨⟨e, hread⟩, habsent⟩
      · simp only [PropertyState.clearFrames, hread] at herror
        have hremoved := h.hasFrame_removeValue hframe
        obtain ⟨done, v, rest, rfl, hnodup, hdone, hv, hafter⟩ :=
          ih (h.loses (loses_removeValue store frame)) herror
        have hstored : HasFrame store t := by
          rw [HasFrame, hframe]
          rfl
        refine ⟨t :: done, v, rest, rfl, List.nodup_cons.mpr ⟨fun hmem => ?_, hnodup⟩,
          fun u hu => ?_, fun hframe => ?_, fun u => ?_⟩
        · exact ((hremoved t).mp (hdone t hmem)).2 rfl
        · rcases List.mem_cons.mp hu with rfl | hu
          · exact hstored
          · exact ((hremoved u).mp (hdone u hu)).1
        · by_cases hvt : v = t
          · exact hvt ▸ List.mem_cons_self
          · exact List.mem_cons_of_mem _ (hv ((hremoved v).mpr ⟨hframe, hvt⟩))
        · rw [hafter u, hremoved u, List.mem_cons, not_or, and_assoc]
      · simp only [PropertyState.clearFrames, hread, Prod.mk.injEq] at herror
        obtain ⟨_, rfl⟩ := herror
        exact ⟨[], t, ts, rfl, List.nodup_nil, by simp, fun hframe => absurd hframe habsent,
          by simp⟩

end Store

section Reads

variable {written : List VehiclePropValue} {s : PropertyState}

/-- What is listed is what is stored. -/
theorem KeepsFrames.lists_iff (h : KeepsFrames written s.mServerSidePropStore)
    (order : Traversal RecordId) (t : Int) :
    s.Lists order t ↔ HasFrame s.mServerSidePropStore t := by
  obtain ⟨record, hrecord, _⟩ := h.record
  have hinfo : s.getObd2DtcInfo order = .ok {
      prop := obd2FreezeFrameInfoId
      value := { int64Values :=
        ((order.entries record.values).map Prod.snd).map VehiclePropValue.timestamp } } := by
    simp only [PropertyState.getObd2DtcInfo, readValuesForProperty, hrecord]
  rw [PropertyState.Lists, HasFrame, Option.isSome_iff_exists]
  constructor
  · rintro ⟨info, hok, hmem⟩
    rw [hinfo] at hok
    cases hok
    rw [List.map_map, List.mem_map] at hmem
    obtain ⟨⟨recId, frame⟩, hentry, rfl⟩ := hmem
    have hstored := (order.mem_entries _ _ _).mp hentry
    rw [← stored_of_record hrecord] at hstored
    exact ⟨frame, (h.keyed _ _ hstored).1 ▸ hstored⟩
  · rintro ⟨frame, hstored⟩
    have htime := congrArg RecordId.token (h.keyed _ _ hstored).1
    refine ⟨_, hinfo, ?_⟩
    rw [List.map_map]
    refine List.mem_map.mpr ⟨(⟨0, t⟩, frame), ?_, htime.symm⟩
    rwa [order.mem_entries, ← stored_of_record hrecord]

/-- A read yields a stored frame with the timestamp that is asked for. -/
theorem KeepsFrames.getObd2FreezeFrame_ok_iff (h : KeepsFrames written s.mServerSidePropStore)
    (order : Traversal RecordId) (request frame : VehiclePropValue) :
    s.getObd2FreezeFrame order request = .ok frame ↔
      request.value.int64Values = [frame.timestamp] ∧
        s.mServerSidePropStore.stored obd2FreezeFrameId ⟨0, frame.timestamp⟩ = some frame := by
  obtain ⟨record, hrecord, _⟩ := h.record
  constructor
  · intro hread
    unfold PropertyState.getObd2FreezeFrame at hread
    split at hread
    · rename_i t ht
      split at hread
      · cases hread
      · cases hread
      · split at hread
        · cases hread
        · rename_i found hfound
          cases hread
          have hstored := stored_of_readValueOf hfound
          have hid := (h.keyed _ _ hstored).1
          obtain rfl : t = frame.timestamp := congrArg RecordId.token hid
          exact ⟨ht, hid ▸ hstored⟩
    · cases hread
  · rintro ⟨hrequest, hstored⟩
    have hread : s.mServerSidePropStore.readValueOf obd2FreezeFrameId 0 frame.timestamp =
        .ok frame := by
      rcases readValueOf_frame s.mServerSidePropStore frame.timestamp with
        ⟨found, hread, hfound⟩ | ⟨_, habsent⟩
      · rw [hfound, Option.some.injEq] at hstored
        rw [hread, hstored]
      · exact absurd (by rw [HasFrame, hstored]; rfl) habsent
    have hlisted : s.mServerSidePropStore.readValuesForProperty order obd2FreezeFrameId =
        .ok ((order.entries record.values).map Prod.snd) := by
      simp only [readValuesForProperty, hrecord]
    have hmem : frame ∈ (order.entries record.values).map Prod.snd := by
      rw [stored_of_record hrecord] at hstored
      exact List.mem_map.mpr ⟨(⟨0, frame.timestamp⟩, frame),
        (order.mem_entries _ _ _).mpr hstored, rfl⟩
    rcases hframes : (order.entries record.values).map Prod.snd with _ | ⟨first, others⟩
    · rw [hframes] at hmem
      cases hmem
    · unfold PropertyState.getObd2FreezeFrame
      simp only [hrequest, hlisted, hframes, hread]

/-- Frames that are kept as they were written are read consistently. -/
theorem KeepsFrames.framesConsistent (h : KeepsFrames written s.mServerSidePropStore) :
    FramesConsistent written s := by
  constructor
  · intro order t hlists
    rw [h.lists_iff, HasFrame, Option.isSome_iff_exists] at hlists
    obtain ⟨frame, hstored⟩ := hlists
    obtain ⟨hid, _, hmem⟩ := h.keyed _ _ hstored
    obtain rfl : t = frame.timestamp := congrArg RecordId.token hid
    exact ⟨frame, hmem, rfl, fun order' request hrequest =>
      (h.getObd2FreezeFrame_ok_iff order' request frame).mpr ⟨hrequest, hstored⟩⟩
  · intro order order' request frame hread
    obtain ⟨hrequest, hstored⟩ := (h.getObd2FreezeFrame_ok_iff order request frame).mp hread
    refine ⟨hrequest, (h.lists_iff order' frame.timestamp).mpr ?_⟩
    rw [HasFrame, hstored]
    rfl
  · intro request after hclear order order' t
    unfold PropertyState.clearObd2FreezeFrames at hclear
    split at hclear
    · rename_i hnil
      cases hclear
      have hafter := h.loses (loses_removeValuesForProperty _ obd2FreezeFrameId)
      obtain ⟨record, hrecord, _⟩ := h.record
      rw [KeepsFrames.lists_iff hafter, HasFrame, removeValuesForProperty, hrecord]
      simp [stored_withRecord, hnil]
    · rename_i hlist
      obtain ⟨hresult, rfl⟩ := Prod.mk.inj hclear
      have hafter := h.clearFrames request.value.int64Values
      rw [KeepsFrames.lists_iff hafter, h.lists_iff, h.clearFrames_ok (Prod.ext hresult rfl) t]
      simp only [hlist, ne_eq, not_false_eq_true, true_and]
  · intro request e after hclear
    unfold PropertyState.clearObd2FreezeFrames at hclear
    split at hclear
    · cases hclear
    · obtain ⟨hresult, rfl⟩ := Prod.mk.inj hclear
      have hafter := h.clearFrames request.value.int64Values
      obtain ⟨done, t, rest, hlist, hnodup, hdone, hstop, hrest⟩ :=
        h.clearFrames_error (Prod.ext hresult rfl)
      refine ⟨done, t, rest, hlist, hnodup, fun order => ⟨fun u hu => ?_, fun hlists => ?_⟩,
        fun order order' u => ?_⟩
      · exact (h.lists_iff order u).mpr (hdone u hu)
      · exact hstop ((h.lists_iff order t).mp hlists)
      · rw [KeepsFrames.lists_iff hafter, h.lists_iff, hrest u]

/-- A request to clear frames keeps the others as they were written. -/
theorem KeepsFrames.clearObd2FreezeFrames (h : KeepsFrames written s.mServerSidePropStore)
    (request : VehiclePropValue) :
    KeepsFrames written (s.clearObd2FreezeFrames request).2.mServerSidePropStore := by
  rw [PropertyState.clearObd2FreezeFrames]
  split
  · exact h.loses (loses_removeValuesForProperty _ obd2FreezeFrameId)
  · exact h.clearFrames _

/-- A call adds its frame, if it is a write. -/
theorem KeepsFrames.apply (h : KeepsFrames written s.mServerSidePropStore) (op : FrameOperation)
    (hnodup : ((written ++ writtenFrames [op]).map VehiclePropValue.timestamp).Nodup) :
    KeepsFrames (written ++ writtenFrames [op]) (op.apply s).mServerSidePropStore := by
  cases op with
  | write w =>
      refine h.writeValue w fun hmem => ?_
      rw [List.map_append] at hnodup
      exact (List.nodup_append.mp hnodup).2.2 _ hmem _ (by simp [writtenFrames]) rfl
  | getObd2FreezeFrame request => exact (List.append_nil written).symm ▸ h
  | getObd2DtcInfo => exact (List.append_nil written).symm ▸ h
  | clearObd2FreezeFrames request =>
      exact (List.append_nil written).symm ▸ h.clearObd2FreezeFrames request

/-- All calls keep the frames as they were written. -/
theorem KeepsFrames.run (h : KeepsFrames written s.mServerSidePropStore)
    (ops : List FrameOperation)
    (hnodup : ((written ++ writtenFrames ops).map VehiclePropValue.timestamp).Nodup) :
    KeepsFrames (written ++ writtenFrames ops)
      (FrameOperation.run ops s).mServerSidePropStore := by
  induction ops generalizing written s with
  | nil => exact (List.append_nil written).symm ▸ h
  | cons op ops ih =>
      have hsplit : writtenFrames (op :: ops) = writtenFrames [op] ++ writtenFrames ops :=
        List.filterMap_append (l := [op])
      rw [hsplit, ← List.append_assoc] at hnodup ⊢
      refine ih (h.apply op ?_) hnodup
      rw [List.map_append] at hnodup
      exact (List.nodup_append.mp hnodup).1

end Reads

/-- In every run of frame writes with distinct timestamps, reads and removals, what is listed is
what can be read, with the frame that was written. -/
theorem freezeFrames_consistent (config : VehiclePropConfig) (s : PropertyState)
    (ops : List FrameOperation)
    (hdistinct : ((writtenFrames ops).map VehiclePropValue.timestamp).Nodup) :
    FramesConsistent (writtenFrames ops)
      (FrameOperation.run ops (s.registerFreezeFrames config)) := by
  have hregistered : KeepsFrames [] (s.registerFreezeFrames config).mServerSidePropStore :=
    keepsFrames_registerProperty config s.mServerSidePropStore
  exact (hregistered.run ops hdistinct).framesConsistent

section Example

/-- The write of a frame without values. -/
def frameWrite (timestamp : Int) : FrameWrite where
  now := 0
  frame := { prop := obd2FreezeFrameId, timestamp := timestamp }
  updateStatus := false
  eventMode := .onValueChange
  useCurrentTimestamp := false

/-- The removal of the frames with some timestamps. -/
def clearRequest (timestamps : List Int) : VehiclePropValue :=
  { prop := 0, value := { int64Values := timestamps } }

/-- A hardware with the property of the freeze frames. -/
def frameHardware : PropertyState :=
  PropertyState.registerFreezeFrames { prop := obd2FreezeFrameId }
    { mServerSidePropStore := { mRecordsByPropId := ∅ } }

/-- A run with two frames, one of which is removed. -/
theorem two_frames_consistent :
    FramesConsistent [(frameWrite 1).stored, (frameWrite 2).stored]
      (FrameOperation.run [.write (frameWrite 1), .getObd2DtcInfo, .write (frameWrite 2),
        .clearObd2FreezeFrames (clearRequest [1])] frameHardware) :=
  freezeFrames_consistent _ _ [.write (frameWrite 1), .getObd2DtcInfo, .write (frameWrite 2),
    .clearObd2FreezeFrames (clearRequest [1])] (by decide)

/-- A removal that fails at the second of two timestamps has removed the frame of the first. -/
theorem failed_removal_removes :
    ∃ e after, (FrameOperation.run [.write (frameWrite 1)] frameHardware).clearObd2FreezeFrames
        (clearRequest [1, 2]) = (.error e, after) ∧
      ∀ order, (FrameOperation.run [.write (frameWrite 1)] frameHardware).Lists order 1 ∧
        ¬after.Lists order 1 := by
  have hbefore := KeepsFrames.run (s := frameHardware)
    (keepsFrames_registerProperty _ _) [.write (frameWrite 1)] (by decide)
  rcases hclear : (FrameOperation.run [.write (frameWrite 1)]
    frameHardware).clearObd2FreezeFrames (clearRequest [1, 2]) with ⟨result, after⟩
  have herror : result = .error (.freezeFrameTimestamp (.recordNotFound ⟨0, 2⟩)) :=
    (congrArg Prod.fst hclear).symm.trans (by rfl)
  subst herror
  have hlost : after.mServerSidePropStore.stored obd2FreezeFrameId ⟨0, 1⟩ = none :=
    (congrArg (fun p => p.2.mServerSidePropStore.stored obd2FreezeFrameId ⟨0, 1⟩)
      hclear).symm.trans (by rfl)
  have hafter := hbefore.clearObd2FreezeFrames (clearRequest [1, 2])
  rw [hclear] at hafter
  refine ⟨_, after, rfl, fun order => ⟨(hbefore.lists_iff order 1).mpr (by rfl), fun h => ?_⟩⟩
  rw [hafter.lists_iff, HasFrame, hlost] at h
  cases h

end Example

end VhalCore.FakeHardware
