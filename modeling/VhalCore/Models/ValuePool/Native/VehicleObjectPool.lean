import VhalCore.Core.UnorderedMap
import VhalCore.Models.ValuePool.Native.ObjectPool
import VhalCore.Models.Vehicle.Configs

/-!
# The pool of property values

Values are recycled by property type and vector size: each combination has an internal pool,
which is created at its first use. A value is checked against the type and the size of its
pool when it is given back. Values of a complex type, empty ones and large ones are not
recycled at all.

A property type is its 32-bit number, since the type of a property id need not be one of the
enumerators. Memory is the contents that a pool created by a call finds where its running
total will be.
-/

namespace VhalCore

/-- The number of a property type. -/
def VehiclePropertyType.toInt : VehiclePropertyType → Nat
  | string => 0x00100000
  | boolean => 0x00200000
  | int32 => 0x00400000
  | int32Vec => 0x00410000
  | int64 => 0x00500000
  | int64Vec => 0x00510000
  | float => 0x00600000
  | floatVec => 0x00610000
  | bytes => 0x00700000
  | mixed => 0x00e00000

/-- The number that the enumeration gives to the bits of a property id which hold the type. -/
def VehiclePropertyType.mask : Nat := 0x00ff0000

namespace ValuePool

open VehiclePropertyType

/-- A value whose vector for a type has a given size. -/
def createVehiclePropValueVec (type vecSize : Nat) : VehiclePropValue :=
  if type = int32.toInt ∨ type = boolean.toInt then
    { value := { int32Values := List.replicate 1 0 } }
  else if type = int32Vec.toInt then
    { value := { int32Values := List.replicate vecSize 0 } }
  else if type = float.toInt then
    { value := { floatValues := List.replicate 1 .zero } }
  else if type = floatVec.toInt then
    { value := { floatValues := List.replicate vecSize .zero } }
  else if type = int64.toInt then
    { value := { int64Values := List.replicate 1 0 } }
  else if type = int64Vec.toInt then
    { value := { int64Values := List.replicate vecSize 0 } }
  else if type = bytes.toInt then
    { value := { byteValues := List.replicate vecSize 0 } }
  else {}

/-- The size of the vector for a type. A type of a single value counts at most one. -/
def getVehicleRawValueVectorSize (value : RawPropValues) (type : Nat) : Nat :=
  if type = int32.toInt ∨ type = boolean.toInt then min value.int32Values.length 1
  else if type = float.toInt then min value.floatValues.length 1
  else if type = int64.toInt then min value.int64Values.length 1
  else if type = int32Vec.toInt then value.int32Values.length
  else if type = floatVec.toInt then value.floatValues.length
  else if type = int64Vec.toInt then value.int64Values.length
  else if type = bytes.toInt then value.byteValues.length
  else 0

/-- The copy into a value that holds anything. -/
def copyVehicleRawValue (dest src : RawPropValues) : RawPropValues :=
  { dest with
    int32Values := src.int32Values
    floatValues := src.floatValues
    int64Values := src.int64Values
    byteValues := src.byteValues
    stringValue := src.stringValue }

/-- The approximate memory of a value: the sizes of its four numbers and of its vectors. -/
def getVehiclePropValueSize (prop : VehiclePropValue) : UInt64 :=
  UInt64.ofNat (8 + 4 + 4 + 4 + prop.value.int32Values.length * 4 +
    prop.value.int64Values.length * 8 + prop.value.floatValues.length * 4 +
    prop.value.byteValues.length + prop.value.stringValue.utf8ByteSize)

/-- The pool of one property type and vector size. -/
structure InternalPool where
  mPropType : Nat
  mVectorSize : Nat
  pool : ObjectPool VehiclePropValue

namespace InternalPool

/-- A pool of the values of one type and size. -/
def construct (type vectorSize : Nat) (maxPoolObjectsSize memory : UInt64) : InternalPool where
  mPropType := type
  mVectorSize := vectorSize
  pool := .construct maxPoolObjectsSize getVehiclePropValueSize memory

/-- A vector has the size of the pool where it is the one for the type, and is empty elsewhere. -/
def checkVector {α : Type} (p : InternalPool) (vec : List α) (isVectorType : Bool) : Bool :=
  vec.length == if isVectorType then p.mVectorSize else 0

/-- All vectors of a payload are as the pool hands them out. -/
def check (p : InternalPool) (v : RawPropValues) : Bool :=
  p.checkVector v.int32Values
      (p.mPropType = int32.toInt ∨ p.mPropType = int32Vec.toInt ∨ p.mPropType = boolean.toInt) &&
    p.checkVector v.floatValues (p.mPropType = float.toInt ∨ p.mPropType = floatVec.toInt) &&
    p.checkVector v.int64Values (p.mPropType = int64.toInt ∨ p.mPropType = int64Vec.toInt) &&
    p.checkVector v.byteValues (p.mPropType = bytes.toInt) &&
    v.stringValue.utf8ByteSize == 0

/-- A new value of the type and size of the pool. -/
def createObject (p : InternalPool) : VehiclePropValue :=
  createVehiclePropValueVec p.mPropType p.mVectorSize

/-- A value of the pool, or a new one. -/
def obtain (p : InternalPool) : VehiclePropValue × InternalPool :=
  let (o, pool) := p.pool.obtain p.createObject
  (o, { p with pool })

/-- A value that does not fit its pool is deleted. -/
def recycle (o : VehiclePropValue) (p : InternalPool) : InternalPool :=
  if p.check o.value then { p with pool := p.pool.recycle o } else p

end InternalPool

/-- A value in the hands of a holder, with the key of the internal pool that takes it back;
without one the value is deleted in the end. -/
structure RecyclableType where
  pool : Option Nat
  value : VehiclePropValue

/-- The internal pools by their keys. -/
structure VehiclePropValuePool where
  mMaxRecyclableVectorSize : Nat
  mMaxPoolObjectsSize : UInt64
  mValueTypePools : UnorderedMap Nat InternalPool

namespace VehiclePropValuePool

/-- The pool of all types, without any value. -/
def construct (maxRecyclableVectorSize : Nat) (maxPoolObjectsSize : UInt64) :
    VehiclePropValuePool where
  mMaxRecyclableVectorSize := maxRecyclableVectorSize
  mMaxPoolObjectsSize := maxPoolObjectsSize
  mValueTypePools := ∅

/-- The type has a single value. -/
def isSingleValueType (type : Nat) : Bool :=
  type = boolean.toInt ∨ type = int32.toInt ∨ type = int64.toInt ∨ type = float.toInt

/-- Mixed values and strings, which the pool does not keep. -/
def isComplexType (type : Nat) : Bool := type = mixed.toInt ∨ type = string.toInt

/-- The pool does not keep values of the type and size. -/
def isDisposable (type vectorSize : Nat) (p : VehiclePropValuePool) : Bool :=
  vectorSize = 0 ∨ vectorSize > p.mMaxRecyclableVectorSize ∨ isComplexType type

/-- A value that will not come back to the pool. -/
def obtainDisposable (valueType vectorSize : Nat) : RecyclableType :=
  ⟨none, createVehiclePropValueVec valueType vectorSize⟩

/-- The key of the internal pool: the type and the size share one number of 32 bits. -/
def key (type vectorSize : Nat) : Nat := type ||| vectorSize % 2 ^ 32

/-- A value that comes back to the pool of its type and size. -/
def obtainRecyclable (memory : UInt64) (type vectorSize : Nat) (p : VehiclePropValuePool) :
    RecyclableType × VehiclePropValuePool :=
  let it := (p.mValueTypePools.lookup (key type vectorSize)).getD
    (.construct type vectorSize p.mMaxPoolObjectsSize memory)
  let (o, it) := it.obtain
  (⟨some (key type vectorSize), o⟩,
    { p with mValueTypePools := p.mValueTypePools.insert (key type vectorSize) it })

/-- The vector size that is in effect for a type. -/
def effectiveSize (type vectorSize : Nat) : Nat :=
  if isSingleValueType type then 1 else if isComplexType type then 0 else vectorSize

/-- A value of a type and size. -/
def obtain (memory : UInt64) (type vectorSize : Nat) (p : VehiclePropValuePool) :
    RecyclableType × VehiclePropValuePool :=
  let vectorSize := effectiveSize type vectorSize
  if p.isDisposable type vectorSize then (obtainDisposable type vectorSize, p)
  else p.obtainRecyclable memory type vectorSize

/-- A value of a type with a single element. -/
def obtainOne (memory : UInt64) (type : Nat) (p : VehiclePropValuePool) :
    RecyclableType × VehiclePropValuePool :=
  p.obtain memory type (if isComplexType type then 0 else 1)

/-- A copy of a value. -/
def obtainCopy (memory : UInt64) (src : VehiclePropValue) (p : VehiclePropValuePool) :
    RecyclableType × VehiclePropValuePool :=
  let type := maskedBits src.prop VehiclePropertyType.mask
  let (dest, p) := p.obtain memory type (getVehicleRawValueVectorSize src.value type)
  ({ dest with value := { dest.value with
      prop := src.prop
      areaId := src.areaId
      status := src.status
      timestamp := src.timestamp
      value := copyVehicleRawValue dest.value.value src.value } }, p)

/-- The holder is done with a value. -/
def release (r : RecyclableType) (p : VehiclePropValuePool) : VehiclePropValuePool :=
  match r.pool with
  | none => p
  | some k =>
      match p.mValueTypePools.lookup k with
      | none => p
      | some pool => { p with
          mValueTypePools := p.mValueTypePools.insert k (pool.recycle r.value) }

end VehiclePropValuePool

/-- The pool together with the values that are in use. -/
structure PoolState where
  pool : VehiclePropValuePool
  held : List RecyclableType

/-- The enumerators that a caller names: the types of values and the mask. -/
inductive TypeEnumerator where
  | valueType (type : VehiclePropertyType)
  | mask
  deriving DecidableEq, Repr

/-- The value of the enumerator. -/
def TypeEnumerator.toInt : TypeEnumerator → Nat
  | valueType type => type.toInt
  | mask => VehiclePropertyType.mask

/-- What the users of the pool do: a holder writes to its value as it likes before it gives the
value back. The calls that obtain a single number or string are an `obtainOne` with a write. -/
inductive PoolOperation where
  | obtain (memory : UInt64) (type : TypeEnumerator) (vectorSize : Nat)
  | obtainOne (memory : UInt64) (type : TypeEnumerator)
  | obtainCopy (memory : UInt64) (src : VehiclePropValue)
  | write (holder : Nat) (value : VehiclePropValue)
  | release (holder : Nat)

namespace PoolState

/-- The holder of a new value comes last. -/
def hold (s : PoolState) (obtained : RecyclableType × VehiclePropValuePool) : PoolState where
  pool := obtained.2
  held := s.held ++ [obtained.1]

/-- One operation changes the pool and what is held of it. -/
def apply (s : PoolState) : PoolOperation → PoolState
  | .obtain memory type vectorSize => s.hold (s.pool.obtain memory type.toInt vectorSize)
  | .obtainOne memory type => s.hold (s.pool.obtainOne memory type.toInt)
  | .obtainCopy memory src => s.hold (s.pool.obtainCopy memory src)
  | .write holder value => { s with held := s.held.modify holder fun r => { r with value } }
  | .release holder =>
      match s.held[holder]? with
      | none => s
      | some r => { pool := s.pool.release r, held := s.held.eraseIdx holder }

/-- A history of a new pool. -/
def after (maxRecyclableVectorSize : Nat) (maxPoolObjectsSize : UInt64)
    (history : List PoolOperation) : PoolState :=
  history.foldl apply ⟨.construct maxRecyclableVectorSize maxPoolObjectsSize, []⟩

end PoolState

end ValuePool

end VhalCore
