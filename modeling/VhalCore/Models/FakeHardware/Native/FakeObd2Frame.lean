import VhalCore.Models.FakeHardware.Native.SetValue
import VhalCore.Models.ValuePool.Native.VehicleObjectPool

/-!
# Freeze frames of the diagnosis

The freeze frames are the values of one property, which are told apart by their timestamps: the
hardware registers the property with the timestamp as the token of a value. Frames are read one
by one or listed, and removed by their timestamps. The list of them is filled into a value of
the pool, which may have been used before; the copies of the frames themselves are of a complex
type, so reading them leaves the pool alone.
-/

namespace VhalCore.FakeHardware

open PropertyStore VehiclePropertyStore

/-- The property `OBD2_FREEZE_FRAME_INFO`. -/
def obd2FreezeFrameInfoId : Int := 0x11e00d02

/-- The errors of the reads. -/
inductive FrameError where
  /-- `asked for OBD2_FREEZE_FRAME without valid timestamp` -/
  | withoutTimestamp
  /-- `failed to read OBD2_FREEZE_FRAME property: {}` -/
  | notReadable (error : StoreError)
  /-- There are no freeze frames. -/
  | noFrames
  /-- `asked for OBD2_FREEZE_FRAME at invalid timestamp` -/
  | invalidTimestamp
  deriving DecidableEq, Repr

namespace PropertyState

/-- Reads the freeze frame with a given timestamp. -/
def getObd2FreezeFrame (order : Traversal RecordId) (requestedPropValue : VehiclePropValue)
    (s : PropertyState) : Except FrameError VehiclePropValue :=
  match requestedPropValue.value.int64Values with
  | [timestamp] =>
      match s.mServerSidePropStore.readValuesForProperty order obd2FreezeFrameId with
      | .error e => .error (.notReadable e)
      | .ok [] => .error .noFrames
      | .ok _ =>
          match s.mServerSidePropStore.readValueOf obd2FreezeFrameId 0 timestamp with
          | .error _ => .error .invalidTimestamp
          | .ok frame => .ok frame
  | _ => .error .withoutTimestamp

/-- Lists the timestamps of all freeze frames. -/
def getObd2DtcInfo (order : Traversal RecordId) (s : PropertyState) :
    Except FrameError VehiclePropValue :=
  match s.mServerSidePropStore.readValuesForProperty order obd2FreezeFrameId with
  | .error e => .error (.notReadable e)
  | .ok frames => .ok {
      prop := obd2FreezeFrameInfoId
      value := { int64Values := frames.map VehiclePropValue.timestamp } }

/-- The same with the value that the pool hands out: only its property and its values are
assigned. -/
def getObd2DtcInfoPooled (order : Traversal RecordId) (memory : UInt64) (s : PropertyState)
    (valuePool : ValuePool.VehiclePropValuePool) :
    Except FrameError ValuePool.RecyclableType × ValuePool.VehiclePropValuePool :=
  match s.mServerSidePropStore.readValuesForProperty order obd2FreezeFrameId with
  | .error e => (.error (.notReadable e), valuePool)
  | .ok frames =>
      let timestamps := frames.map VehiclePropValue.timestamp
      let (outValue, valuePool) :=
        valuePool.obtain memory VehiclePropertyType.int64Vec.toInt timestamps.length
      (.ok { outValue with value := { outValue.value with
          prop := obd2FreezeFrameInfoId
          value := { outValue.value.value with int64Values := timestamps } } }, valuePool)

/-- The registration of the property in `init`. -/
def registerFreezeFrames (config : VehiclePropConfig) (s : PropertyState) : PropertyState :=
  { s with
    mServerSidePropStore := s.mServerSidePropStore.registerProperty
      { config with prop := obd2FreezeFrameId } (some VehiclePropValue.timestamp) }

end PropertyState

/-- A write of a frame to the store, with the arguments of the write. -/
structure FrameWrite where
  now : Int
  frame : VehiclePropValue
  updateStatus : Bool
  eventMode : PropertyStore.EventMode
  useCurrentTimestamp : Bool

/-- The calls that concern freeze frames. -/
inductive FrameOperation where
  | write (write : FrameWrite)
  | getObd2FreezeFrame (requestedPropValue : VehiclePropValue)
  | getObd2DtcInfo
  | clearObd2FreezeFrames (propValue : VehiclePropValue)

/-- The frame as it is handed to the store. -/
def FrameWrite.propValue (w : FrameWrite) : VehiclePropValue :=
  { w.frame with prop := obd2FreezeFrameId }

namespace FrameOperation

/-- One call changes the state. -/
def apply : FrameOperation → PropertyState → PropertyState
  | .write w, s =>
      { s with
        mServerSidePropStore := (s.mServerSidePropStore.writeValue w.now w.propValue
          w.updateStatus w.eventMode w.useCurrentTimestamp).2.2 }
  | .getObd2FreezeFrame _, s => s
  | .getObd2DtcInfo, s => s
  | .clearObd2FreezeFrames propValue, s => (s.clearObd2FreezeFrames propValue).2

/-- The state after some calls. -/
def run (ops : List FrameOperation) (s : PropertyState) : PropertyState :=
  ops.foldl (fun s op => op.apply s) s

end FrameOperation

end VhalCore.FakeHardware
