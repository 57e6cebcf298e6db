import VhalCore.Models.ValuePool.Interpretation.PoolShapes

/-!
# Values that are used again

A value that fits its internal pool is handed out again with everything its last holder left
in it. A value is certainly new only if nothing of its shape is ever kept.
-/

namespace VhalCore.ValuePool

open VehiclePropertyType VehiclePropValuePool

/-- A pooled value is obtained, written to and given back. -/
def useOnce (type : TypeEnumerator) (vectorSize : Nat) (value : VehiclePropValue) :
    List PoolOperation :=
  [.obtain 0 type vectorSize, .write 0 value, .release 0]

section Reuse

variable {limit : UInt64} {type : TypeEnumerator} {vectorSize maxSize : Nat}

/-- An internal pool keeps a first value that fits it. -/
theorem recycle_construct {v : VehiclePropValue}
    (heffective : effectiveSize type.toInt vectorSize = vectorSize)
    (hshape : shapeOf v.value = type.documentedShape vectorSize)
    (hsize : getVehiclePropValueSize v ≤ limit) :
    ((InternalPool.construct type.toInt vectorSize limit 0).recycle v).pool.mObjects = [v] := by
  have hcheck : (InternalPool.construct type.toInt vectorSize limit 0).check v.value = true :=
    (check_iff rfl heffective v.value).mpr hshape
  rw [InternalPool.recycle, if_pos hcheck]
  rcases ObjectPool.recycle_cases v
    (ObjectPool.construct limit getVehiclePropValueSize 0) with ⟨hfull, _⟩ | ⟨_, _, hkept⟩
  · rcases hfull with hlarge | hroom
    · exact absurd hsize (UInt64.not_le.mpr hlarge)
    · exact absurd hroom (UInt64.not_lt.mpr (UInt64.zero_le ..))
  · exact congrArg ObjectPool.mObjects hkept

/-- A value of a simple type and a small size is not disposable. -/
theorem not_disposable {p : VehiclePropValuePool} (hzero : vectorSize ≠ 0)
    (hmax : vectorSize ≤ p.mMaxRecyclableVectorSize) (hcomplex : isComplexType type.toInt = false)
    (heffective : effectiveSize type.toInt vectorSize = vectorSize) :
    ¬p.isDisposable type.toInt (effectiveSize type.toInt vectorSize) = true := by
  rw [heffective, isDisposable, hcomplex]
  simp only [decide_eq_true_eq, not_or]
  exact ⟨hzero, by omega, by simp⟩

/-- A value that fits its pool comes back as its last holder left it. -/
theorem obtain_after_useOnce (memory : UInt64) {v : VehiclePropValue} (hzero : vectorSize ≠ 0)
    (hmax : vectorSize ≤ maxSize) (hcomplex : isComplexType type.toInt = false)
    (heffective : effectiveSize type.toInt vectorSize = vectorSize)
    (hshape : shapeOf v.value = type.documentedShape vectorSize)
    (hsize : getVehiclePropValueSize v ≤ limit) :
    ((PoolState.after maxSize limit (useOnce type vectorSize v)).pool.obtain memory type.toInt
      vectorSize).1.value = v := by
  have hkept := recycle_construct heffective hshape hsize
  have hpool : (PoolState.after maxSize limit (useOnce type vectorSize v)).pool =
      { construct maxSize limit with
        mValueTypePools := (Finmap.insert (key type.toInt vectorSize)
          ((InternalPool.construct type.toInt vectorSize limit 0).recycle v) ∅) } := by
    simp only [PoolState.after, useOnce, List.foldl_cons, List.foldl_nil, PoolState.apply,
      PoolState.hold]
    rw [obtain_of_recyclable _ (not_disposable hzero hmax hcomplex heffective), heffective]
    simp [obtainRecyclable, construct, release, InternalPool.obtain, ObjectPool.obtain,
      InternalPool.construct, ObjectPool.construct]
  rw [hpool, obtain_of_recyclable _ (not_disposable hzero hmax hcomplex heffective), heffective]
  simp only [obtainRecyclable, Finmap.lookup_insert, Option.getD_some, InternalPool.obtain,
    ObjectPool.obtain, hkept]

end Reuse

/-- A value is new if nothing of its shape is kept: it is empty, or too large to be recycled,
or larger than the whole pool. -/
theorem VehiclePropValuePool.Exact.obtain_new {p : VehiclePropValuePool} (h : p.Exact)
    (memory : UInt64) (type : TypeEnumerator) {vectorSize : Nat}
    (heffective : effectiveSize type.toInt vectorSize = vectorSize)
    (hnew : vectorSize = 0 ∨ p.mMaxRecyclableVectorSize < vectorSize ∨
      ∀ v : VehiclePropValue, shapeOf v.value = type.documentedShape vectorSize →
        p.mMaxPoolObjectsSize < getVehiclePropValueSize v) :
    (p.obtain memory type.toInt vectorSize).1.value =
      createVehiclePropValueVec type.toInt vectorSize := by
  by_cases hdisposable :
      p.isDisposable type.toInt (effectiveSize type.toInt vectorSize) = true
  · rw [obtain_of_disposable memory hdisposable, heffective]
    rfl
  · have hrecyclable := hdisposable
    simp only [heffective, isDisposable, decide_eq_true_eq, not_or] at hrecyclable
    obtain ⟨hzero, hmax, _⟩ := hrecyclable
    rcases hnew with hz | hm | hlarge
    · exact absurd hz hzero
    · exact absurd hm hmax
    · rw [obtain_of_recyclable memory hdisposable, heffective]
      obtain ⟨it, hit, hexact, htype, hsize⟩ := h.serving memory (by omega) heffective
      obtain ⟨type', htype', hshaped⟩ := hexact.shaped
      have hsame : type' = type := TypeEnumerator.toInt_injective (htype'.symm.trans htype)
      have hnone : it.pool.mObjects = [] := by
        refine List.eq_nil_iff_forall_not_mem.mpr fun o ho => ?_
        have hshape := hshaped o ho
        rw [hsame, hsize] at hshape
        exact absurd (hexact.fits o ho) (UInt64.not_le.mpr (hlarge o hshape))
      simp only [VehiclePropValuePool.obtainRecyclable, hit, InternalPool.obtain,
        ObjectPool.obtain, hnone, InternalPool.createObject, htype, hsize]

end VhalCore.ValuePool
