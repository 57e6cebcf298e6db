import VhalCore.Models.FakeHardware.Correctness.FreezeFrames
import VhalCore.Models.ValuePool.Interpretation.Reuse

/-!
# The list of freeze frames and the pool

The list of the freeze frames is filled into a value of the pool without assigning its area,
its status and its timestamp. These depend on the last holder of the value, unless the list is
of a size that the pool never keeps.
-/

namespace VhalCore.FakeHardware

open ValuePool PropertyStore VehiclePropertyStore VehiclePropValuePool

/-- The type of the list. -/
def infoType : TypeEnumerator := .valueType .int64Vec

theorem infoType_effectiveSize (vectorSize : Nat) :
    effectiveSize infoType.toInt vectorSize = vectorSize := rfl

/-- The list after a history of the pool. -/
def dtcInfoAfter (maxRecyclableVectorSize : Nat) (maxPoolObjectsSize : UInt64)
    (order : Traversal RecordId) (s : PropertyState) (memory : UInt64)
    (history : List PoolOperation) : Except FrameError VehiclePropValue :=
  (s.getObd2DtcInfoPooled order memory
    (PoolState.after maxRecyclableVectorSize maxPoolObjectsSize history).pool).1.map
      RecyclableType.value

/-- Two runs with the same frames return equal lists, whatever the pool was used for. -/
def InfoDetermined (maxRecyclableVectorSize : Nat) (maxPoolObjectsSize : UInt64)
    (order : Traversal RecordId) (s : PropertyState) : Prop :=
  ∀ memory memory' history history',
    dtcInfoAfter maxRecyclableVectorSize maxPoolObjectsSize order s memory history =
      dtcInfoAfter maxRecyclableVectorSize maxPoolObjectsSize order s memory' history'

/-- The frames are as many as the pool never keeps a value for. -/
def NeverPooled (maxRecyclableVectorSize : Nat) (maxPoolObjectsSize : UInt64)
    (frames : List VehiclePropValue) : Prop :=
  frames.length = 0 ∨ maxRecyclableVectorSize < frames.length ∨
    maxPoolObjectsSize.toNat < 20 + 8 * frames.length

section Limits

variable {maxRecyclableVectorSize : Nat} {maxPoolObjectsSize : UInt64}
  {order : Traversal RecordId} {s : PropertyState} {frames : List VehiclePropValue}

/-- The list in terms of the value that the pool hands out. -/
theorem dtcInfoAfter_of_frames
    (hframes : s.mServerSidePropStore.readValuesForProperty order obd2FreezeFrameId = .ok frames)
    (memory : UInt64) {history : List PoolOperation} {v : VehiclePropValue}
    (hv : ((PoolState.after maxRecyclableVectorSize maxPoolObjectsSize history).pool.obtain memory
      infoType.toInt frames.length).1.value = v) :
    dtcInfoAfter maxRecyclableVectorSize maxPoolObjectsSize order s memory history = .ok { v with
      prop := obd2FreezeFrameInfoId
      value := { v.value with int64Values := frames.map VehiclePropValue.timestamp } } := by
  rw [← hv]
  simp only [dtcInfoAfter, PropertyState.getObd2DtcInfoPooled, hframes, List.length_map]
  rfl

/-- A value with the shape of the list has the size of twenty bytes and eight for each number. -/
theorem getVehiclePropValueSize_toNat {v : VehiclePropValue} {vectorSize : Nat}
    (hsize : vectorSize < 2 ^ 16)
    (hshape : shapeOf v.value = infoType.documentedShape vectorSize) :
    (getVehiclePropValueSize v).toNat = 20 + 8 * vectorSize := by
  simp only [shapeOf, infoType, TypeEnumerator.documentedShape, ValueShape.mk.injEq] at hshape
  obtain ⟨hint32, hfloat, hint64, hbyte, hstring⟩ := hshape
  rw [getVehiclePropValueSize, hint32, hfloat, hint64, hbyte, hstring,
    UInt64.toNat_ofNat_of_lt' (by rw [UInt64.size]; omega)]
  omega

/-- A list that is never pooled is filled into a new value. -/
theorem dtcInfoAfter_new (hsmall : maxRecyclableVectorSize < 2 ^ 16)
    (hframes : s.mServerSidePropStore.readValuesForProperty order obd2FreezeFrameId = .ok frames)
    (hnever : NeverPooled maxRecyclableVectorSize maxPoolObjectsSize frames) (memory : UInt64)
    (history : List PoolOperation) :
    dtcInfoAfter maxRecyclableVectorSize maxPoolObjectsSize order s memory history =
      s.getObd2DtcInfo order := by
  have hexact := PoolState.exact_after hsmall maxPoolObjectsSize history
  obtain ⟨hmax, hlimit⟩ := Prod.mk.inj
    (PoolState.limits_after maxRecyclableVectorSize maxPoolObjectsSize history)
  have hnew := hexact.obtain_new memory infoType (infoType_effectiveSize frames.length) ?_
  · rw [dtcInfoAfter_of_frames hframes memory hnew, PropertyState.getObd2DtcInfo, hframes]
    rfl
  · rw [hmax, hlimit]
    rcases hnever with hzero | hmany | hlarge
    · exact Or.inl hzero
    · exact Or.inr (Or.inl hmany)
    · by_cases hmany : maxRecyclableVectorSize < frames.length
      · exact Or.inr (Or.inl hmany)
      · refine Or.inr (Or.inr fun v hshape => ?_)
        rw [UInt64.lt_iff_toNat_lt, getVehiclePropValueSize_toNat (by omega) hshape]
        exact hlarge

/-- What the last holder leaves in a value for so many numbers. -/
def leftover (areaId : Int) (vectorSize : Nat) : VehiclePropValue where
  areaId := areaId
  value := { int64Values := List.replicate vectorSize 0 }

theorem shapeOf_leftover (areaId : Int) (vectorSize : Nat) :
    shapeOf (leftover areaId vectorSize).value = infoType.documentedShape vectorSize := by
  simp [shapeOf, leftover, infoType, TypeEnumerator.documentedShape]

/-- A list that can be pooled keeps the area of the last holder. -/
theorem dtcInfoAfter_useOnce (hsmall : maxRecyclableVectorSize < 2 ^ 16)
    (hframes : s.mServerSidePropStore.readValuesForProperty order obd2FreezeFrameId = .ok frames)
    (hpooled : ¬NeverPooled maxRecyclableVectorSize maxPoolObjectsSize frames) (memory : UInt64)
    (areaId : Int) :
    dtcInfoAfter maxRecyclableVectorSize maxPoolObjectsSize order s memory
        (useOnce infoType frames.length (leftover areaId frames.length)) =
      .ok { leftover areaId frames.length with
        prop := obd2FreezeFrameInfoId
        value := { int64Values := frames.map VehiclePropValue.timestamp } } := by
  simp only [NeverPooled, not_or, not_lt] at hpooled
  obtain ⟨hzero, hmax, hlimit⟩ := hpooled
  have hshape := shapeOf_leftover areaId frames.length
  refine dtcInfoAfter_of_frames hframes memory
    (obtain_after_useOnce memory hzero hmax rfl rfl hshape ?_)
  rw [UInt64.le_iff_toNat_le, getVehiclePropValueSize_toNat (by omega) hshape]
  exact hlimit

/-- The list is the same in all runs exactly if the pool never keeps a value of its size. -/
theorem infoDetermined_iff (hsmall : maxRecyclableVectorSize < 2 ^ 16)
    (maxPoolObjectsSize : UInt64) (order : Traversal RecordId) (s : PropertyState) :
    InfoDetermined maxRecyclableVectorSize maxPoolObjectsSize order s ↔
      ∀ frames, s.mServerSidePropStore.readValuesForProperty order obd2FreezeFrameId =
          .ok frames → NeverPooled maxRecyclableVectorSize maxPoolObjectsSize frames := by
  constructor
  · intro h frames hframes
    by_contra hpooled
    have hsame := h 0 0 (useOnce infoType frames.length (leftover 0 frames.length))
      (useOnce infoType frames.length (leftover 1 frames.length))
    rw [dtcInfoAfter_useOnce hsmall hframes hpooled, dtcInfoAfter_useOnce hsmall hframes hpooled]
      at hsame
    simp [leftover] at hsame
  · intro h memory memory' history history'
    cases hframes : s.mServerSidePropStore.readValuesForProperty order obd2FreezeFrameId with
    | error e =>
        simp only [dtcInfoAfter, PropertyState.getObd2DtcInfoPooled, hframes]
    | ok frames =>
        have hnever := h frames hframes
        rw [dtcInfoAfter_new hsmall hframes hnever, dtcInfoAfter_new hsmall hframes hnever]

end Limits

section Example

/-- The hardware with one freeze frame. -/
def oneFrameHardware : PropertyState :=
  FrameOperation.run [.write (frameWrite 7)] frameHardware

/-- The hardware has a single frame. -/
theorem oneFrameHardware_frames (order : Traversal RecordId) :
    oneFrameHardware.mServerSidePropStore.readValuesForProperty order obd2FreezeFrameId =
      .ok [(frameWrite 7).stored] := by
  have hrecord : ∃ record, oneFrameHardware.mServerSidePropStore.getRecordLocked
      obd2FreezeFrameId = some record ∧
        record.values.keys = {⟨0, 7⟩} ∧ record.values.lookup ⟨0, 7⟩ =
          some (frameWrite 7).stored := ⟨_, rfl, rfl, rfl⟩
  obtain ⟨record, hlookup, hkeys, hvalue⟩ := hrecord
  simp only [readValuesForProperty, hlookup, Traversal.entries, hkeys, Traversal.visit_singleton]
  simp [hvalue]

/-- With the default limits, the list of one frame has the area that the last holder of its
value wrote. -/
theorem info_of_one_frame_not_determined :
    ¬ ∀ order s, InfoDetermined 4 10240 order s := by
  intro h
  let order : Traversal RecordId :=
    ⟨Finset.toList, Finset.nodup_toList, fun _ _ => Finset.mem_toList⟩
  have hpooled : ¬NeverPooled 4 10240 [(frameWrite 7).stored] := by
    unfold NeverPooled
    decide
  have hsame := h order oneFrameHardware 0 0 (useOnce infoType 1 (leftover 0 1))
    (useOnce infoType 1 (leftover 5 1))
  have hleft (areaId : Int) := dtcInfoAfter_useOnce (by decide) (oneFrameHardware_frames order)
    hpooled 0 areaId
  exact absurd ((hleft 0).symm.trans (hsame.trans (hleft 5))) (by simp [leftover])

/-- A pool that recycles no vectors makes the list of one frame the same in all runs. -/
theorem info_of_one_frame_determined :
    ∃ order, InfoDetermined 0 10240 order oneFrameHardware := by
  let order : Traversal RecordId :=
    ⟨Finset.toList, Finset.nodup_toList, fun _ _ => Finset.mem_toList⟩
  refine ⟨order, (infoDetermined_iff (by decide) 10240 order oneFrameHardware).mpr ?_⟩
  intro frames hframes
  cases (oneFrameHardware_frames order).symm.trans hframes
  exact Or.inr (Or.inl (by decide))

end Example

end VhalCore.FakeHardware
