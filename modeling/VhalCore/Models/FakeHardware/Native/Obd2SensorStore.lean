import VhalCore.Core.Bytes
import VhalCore.Models.Vehicle.Types

/-!
# The sensors of a diagnosis frame

The system sensors and, after them, the vendor sensors are kept in a vector of integers and a
vector of floats. A mask tells which sensors have been set: the bits of the integer sensors come
first, those of the float sensors after all of them.
-/

namespace VhalCore.FakeHardware

/-- The value of `ENGINE_PERCENT_TORQUE_DATA_POINT4`, the last of the integer sensors. -/
def lastIntegerSensorIndex : Nat := 31

/-- The value of `ENGINE_FUEL_RATE`, the last of the float sensors. -/
def lastFloatSensorIndex : Nat := 70

/-- The bits of a mask, in bytes. -/
structure BitmaskInVector where
  mStorage : List UInt8
  mNumBits : Nat
  deriving DecidableEq

namespace BitmaskInVector

/-- A mask without any bit set. -/
def resize (numBits : Nat) : BitmaskInVector where
  mStorage := List.replicate ((numBits + 7) / 8) 0
  mNumBits := numBits

/-- An index past the bits is an error. -/
def set (index : Nat) (value : Bool) (mask : BitmaskInVector) : Option BitmaskInVector :=
  if index ≥ mask.mNumBits then none
  else if value then some { mask with mStorage := withBit mask.mStorage index }
  else some { mask with
    mStorage := mask.mStorage.modify (index / 8) fun byte =>
      byte &&& ~~~(1 <<< UInt8.ofNat (index % 8)) }

end BitmaskInVector

/-- The values of the sensors, and the mask of those that have been set. -/
structure Obd2SensorStore where
  mIntegerSensors : List Int
  mFloatSensors : List Binary32
  mSensorsBitmask : BitmaskInVector
  deriving DecidableEq

namespace Obd2SensorStore

/-- The store with some numbers of vendor sensors, before any is set. -/
def create (numVendorIntegerSensors numVendorFloatSensors : Nat) : Obd2SensorStore :=
  let numIntegerSensors := lastIntegerSensorIndex + 1 + numVendorIntegerSensors
  let numFloatSensors := lastFloatSensorIndex + 1 + numVendorFloatSensors
  { mIntegerSensors := List.replicate numIntegerSensors 0
    mFloatSensors := List.replicate numFloatSensors .zero
    mSensorsBitmask := .resize (numIntegerSensors + numFloatSensors) }

/-- The number of sensors of a kind, a sum of the type `size_t`. -/
def numSensors (lastIndex : Nat) (numVendorSensors : UInt64) : Nat :=
  (UInt64.ofNat (lastIndex + 1) + numVendorSensors).toNat

/-- The constructor, with the numbers of vendor sensors as they are passed. -/
def construct (numVendorIntegerSensors numVendorFloatSensors : UInt64) : Obd2SensorStore :=
  let numIntegerSensors := numSensors lastIntegerSensorIndex numVendorIntegerSensors
  let numFloatSensors := numSensors lastFloatSensorIndex numVendorFloatSensors
  { mIntegerSensors := List.replicate numIntegerSensors 0
    mFloatSensors := List.replicate numFloatSensors .zero
    mSensorsBitmask := .resize (numIntegerSensors + numFloatSensors) }

/-- The mark of a sensor in the mask. -/
def mark (index : Nat) (store : Obd2SensorStore) : StatusCode × Obd2SensorStore :=
  match store.mSensorsBitmask.set index true with
  | none => (.invalidArg, store)
  | some mask => (.ok, { store with mSensorsBitmask := mask })

/-- Sets an integer sensor and its bit. -/
def setIntegerSensor (index : Nat) (value : Int) (store : Obd2SensorStore) :
    StatusCode × Obd2SensorStore :=
  if index ≥ store.mIntegerSensors.length then (.invalidArg, store)
  else
    { store with mIntegerSensors := store.mIntegerSensors.set index value }.mark index

/-- Sets a float sensor and its bit, which comes after those of the integer sensors. -/
def setFloatSensor (index : Nat) (value : Binary32) (store : Obd2SensorStore) :
    StatusCode × Obd2SensorStore :=
  if index ≥ store.mFloatSensors.length then (.invalidArg, store)
  else
    { store with mFloatSensors := store.mFloatSensors.set index value }.mark
      (index + store.mIntegerSensors.length)

/-- The bytes of the mask. -/
def getSensorsBitmask (store : Obd2SensorStore) : List UInt8 := store.mSensorsBitmask.mStorage

/-- The payload of the property that is made from the sensors. -/
def getSensorProperty (dtc : String) (store : Obd2SensorStore) : RawPropValues where
  int32Values := store.mIntegerSensors
  floatValues := store.mFloatSensors
  byteValues := store.getSensorsBitmask
  stringValue := dtc

end Obd2SensorStore

/-- A call that sets a sensor. -/
inductive SensorCall where
  | integer (index : Nat) (value : Int)
  | float (index : Nat) (value : Binary32)

/-- One call changes the store. -/
def SensorCall.apply : SensorCall → Obd2SensorStore → Obd2SensorStore
  | .integer index value, store => (store.setIntegerSensor index value).2
  | .float index value, store => (store.setFloatSensor index value).2

/-- The answer to a call. -/
def SensorCall.result : SensorCall → Obd2SensorStore → StatusCode
  | .integer index value, store => (store.setIntegerSensor index value).1
  | .float index value, store => (store.setFloatSensor index value).1

/-- The store after some calls. -/
def Obd2SensorStore.run (calls : List SensorCall) (store : Obd2SensorStore) : Obd2SensorStore :=
  calls.foldl (fun store call => call.apply store) store

end VhalCore.FakeHardware
