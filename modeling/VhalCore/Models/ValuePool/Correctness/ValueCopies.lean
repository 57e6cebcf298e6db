import VhalCore.Models.ValuePool.Interpretation.PoolShapes

/-!
# Obtained values and copies

After any history of a pool a copy is equal to its source and a new value has the documented
shape. What the internal pools keep has the shape of the pool it is kept in.
-/

namespace VhalCore.ValuePool

/-- A copy is filled with every field of its source, so it keeps nothing of its last use. -/
theorem obtainCopy_value (memory : UInt64) (src : VehiclePropValue) (p : VehiclePropValuePool) :
    (p.obtainCopy memory src).1.value = src := rfl

/-- What a user of the pool relies on in a state of it. -/
structure CopiesExactly (p : VehiclePropValuePool) : Prop where
  copies : ∀ memory src, (p.obtainCopy memory src).1.value = src
  obtains : ∀ memory (type : TypeEnumerator) vectorSize,
    shapeOf (p.obtain memory type.toInt vectorSize).1.value.value =
      type.documentedShape vectorSize
  keeps : ∀ k pool, p.mValueTypePools.lookup k = some pool →
    ∃ type : TypeEnumerator, pool.mPropType = type.toInt ∧
      ∀ o ∈ pool.pool.mObjects, shapeOf o.value = type.documentedShape pool.mVectorSize

/-- A pool for small vectors copies exactly after every history, whatever the holders wrote to
their values. -/
theorem copiesExactly_after {maxRecyclableVectorSize : Nat}
    (hsmall : maxRecyclableVectorSize < 2 ^ 16) (maxPoolObjectsSize : UInt64)
    (history : List PoolOperation) :
    CopiesExactly (PoolState.after maxRecyclableVectorSize maxPoolObjectsSize history).pool := by
  have hexact := PoolState.exact_after hsmall maxPoolObjectsSize history
  exact {
    copies := fun memory src => obtainCopy_value memory src _
    obtains := fun memory type vectorSize => (hexact.obtain memory type vectorSize).2
    keeps := fun k pool hpool => (hexact.pools k pool hpool).shaped }

section Example

/-- The pool with the default limits, after a value of two integers was used and given back. -/
theorem defaultPool_copiesExactly :
    CopiesExactly (PoolState.after 4 10240
      [.obtain 0 (.valueType .int32Vec) 2, .write 0 { areaId := 3, value.int32Values := [7, 8] },
        .release 0]).pool :=
  copiesExactly_after (by decide) 10240 _

end Example

end VhalCore.ValuePool
