import VhalCore.Models.ValuePool.Native.VehicleObjectPool

/-!
# The shapes of pooled values

The key of an internal pool is the bitwise or of a type and a size. The numbers of the types
leave the low sixteen bits to the size, so small sizes make the keys of different pools
different. Hence an obtained value comes from the pool of its own type and size, where only
values of exactly that shape are kept.
-/

namespace VhalCore.ValuePool

open VehiclePropertyType VehiclePropValuePool

/-- The lengths of the five vectors of a value. -/
structure ValueShape where
  int32Values : Nat := 0
  floatValues : Nat := 0
  int64Values : Nat := 0
  byteValues : Nat := 0
  stringValue : Nat := 0
  deriving DecidableEq

/-- The lengths that a value has. -/
def shapeOf (v : RawPropValues) : ValueShape where
  int32Values := v.int32Values.length
  floatValues := v.floatValues.length
  int64Values := v.int64Values.length
  byteValues := v.byteValues.length
  stringValue := v.stringValue.utf8ByteSize

/-- The documented lengths: the vector of a vector type has the given size, that of a single
value the size one, and a value of a complex type is empty. -/
def TypeEnumerator.documentedShape (vectorSize : Nat) : TypeEnumerator → ValueShape
  | valueType .int32 | valueType .boolean => { int32Values := 1 }
  | valueType .int32Vec => { int32Values := vectorSize }
  | valueType .float => { floatValues := 1 }
  | valueType .floatVec => { floatValues := vectorSize }
  | valueType .int64 => { int64Values := 1 }
  | valueType .int64Vec => { int64Values := vectorSize }
  | valueType .bytes => { byteValues := vectorSize }
  | valueType .string | valueType .mixed | mask => {}

theorem TypeEnumerator.toInt_mod (type : TypeEnumerator) : type.toInt % 2 ^ 16 = 0 := by
  rcases type with ⟨_ | _⟩ | _ <;> rfl

/-- No two enumerators have one value. -/
theorem TypeEnumerator.toInt_injective : Function.Injective TypeEnumerator.toInt := by
  intro a b h
  rcases a with ⟨_ | _⟩ | _ <;> rcases b with ⟨_ | _⟩ | _ <;>
    first
      | rfl
      | exact absurd h (by decide)

/-- The two parts of a key do not overlap. -/
theorem key_eq_add {type vectorSize : Nat} (ht : type % 2 ^ 16 = 0) (hn : vectorSize < 2 ^ 16) :
    key type vectorSize = type + vectorSize := by
  obtain ⟨k, rfl⟩ := Nat.dvd_of_mod_eq_zero ht
  rw [key, Nat.mod_eq_of_lt (by omega), ← Nat.two_pow_add_eq_or_of_lt hn]

/-- No two types and sizes share a key. -/
theorem key_injective {t t' : TypeEnumerator} {n n' : Nat} (hn : n < 2 ^ 16) (hn' : n' < 2 ^ 16)
    (h : key t.toInt n = key t'.toInt n') : t = t' ∧ n = n' := by
  have ht := t.toInt_mod
  have ht' := t'.toInt_mod
  rw [key_eq_add ht hn, key_eq_add ht' hn'] at h
  exact ⟨TypeEnumerator.toInt_injective (by omega), by omega⟩

/-- A new value has the documented shape. -/
theorem shapeOf_createVehiclePropValueVec (type : TypeEnumerator) (vectorSize : Nat) :
    shapeOf (createVehiclePropValueVec type.toInt vectorSize).value =
      type.documentedShape vectorSize := by
  rcases type with ⟨_ | _⟩ | _ <;>
    simp [shapeOf, createVehiclePropValueVec, TypeEnumerator.documentedShape, TypeEnumerator.toInt,
      VehiclePropertyType.toInt, VehiclePropertyType.mask]

/-- The size in effect has the same shape. -/
theorem documentedShape_effectiveSize (type : TypeEnumerator) (vectorSize : Nat) :
    type.documentedShape (effectiveSize type.toInt vectorSize) =
      type.documentedShape vectorSize := by
  rcases type with ⟨_ | _⟩ | _ <;> rfl

/-- An effective size is its own. -/
theorem effectiveSize_idem (type vectorSize : Nat) :
    effectiveSize type (effectiveSize type vectorSize) = effectiveSize type vectorSize := by
  simp only [effectiveSize]
  split
  · rfl
  · split <;> rfl

/-- The check of a value against its pool asks for the documented shape. -/
theorem check_iff {p : InternalPool} {type : TypeEnumerator} (htype : p.mPropType = type.toInt)
    (heffective : effectiveSize p.mPropType p.mVectorSize = p.mVectorSize) (v : RawPropValues) :
    p.check v = true ↔ shapeOf v = type.documentedShape p.mVectorSize := by
  rw [htype] at heffective
  have hone (h : isSingleValueType type.toInt = true) : p.mVectorSize = 1 := by
    rw [← heffective, effectiveSize, if_pos h]
  simp only [InternalPool.check, InternalPool.checkVector, htype, shapeOf, Bool.and_eq_true,
    beq_iff_eq, and_assoc]
  rcases type with ⟨_ | _⟩ | _
  case valueType.boolean | valueType.int32 | valueType.int64 | valueType.float =>
    simp [TypeEnumerator.documentedShape, TypeEnumerator.toInt, VehiclePropertyType.toInt, hone rfl]
  all_goals
    simp [TypeEnumerator.documentedShape, TypeEnumerator.toInt, VehiclePropertyType.toInt,
      VehiclePropertyType.mask]

/-- What an internal pool of a key maintains: it is of one type and of a size in effect for
that type, and keeps only values of its shape that fit it. -/
structure InternalPool.Exact (limit : UInt64) (k : Nat) (p : InternalPool) : Prop where
  isKey : key p.mPropType p.mVectorSize = k
  small : p.mVectorSize < 2 ^ 16
  effective : effectiveSize p.mPropType p.mVectorSize = p.mVectorSize
  measured : p.pool.mGetSizeFunc = getVehiclePropValueSize
  limited : p.pool.mMaxPoolObjectsSize = limit
  fits : ∀ o ∈ p.pool.mObjects, getVehiclePropValueSize o ≤ limit
  shaped : ∃ type : TypeEnumerator, p.mPropType = type.toInt ∧
    ∀ o ∈ p.pool.mObjects, shapeOf o.value = type.documentedShape p.mVectorSize

/-- A new pool of a type and size is exact. -/
theorem InternalPool.Exact.construct (limit memory : UInt64) {type : TypeEnumerator}
    {vectorSize : Nat} (hsmall : vectorSize < 2 ^ 16)
    (heffective : effectiveSize type.toInt vectorSize = vectorSize) :
    (InternalPool.construct type.toInt vectorSize limit memory).Exact limit
      (key type.toInt vectorSize) where
  isKey := rfl
  small := hsmall
  effective := heffective
  measured := rfl
  limited := rfl
  fits _ ho := absurd ho (List.not_mem_nil)
  shaped := ⟨type, rfl, fun _ ho => absurd ho (List.not_mem_nil)⟩

/-- A value leaves the pool with the shape of the pool. -/
theorem InternalPool.Exact.obtain {limit : UInt64} {k : Nat} {p : InternalPool}
    (h : p.Exact limit k) :
    p.obtain.2.Exact limit k ∧ ∃ type : TypeEnumerator, p.mPropType = type.toInt ∧
      shapeOf p.obtain.1.value = type.documentedShape p.mVectorSize := by
  obtain ⟨type, htype, hshaped⟩ := h.shaped
  refine ⟨⟨h.isKey, h.small, h.effective, ?_, ?_, fun o ho => ?_, type, htype, fun o ho => ?_⟩,
    type, htype, ?_⟩
  · exact (ObjectPool.obtain_mGetSizeFunc ..).trans h.measured
  · exact (ObjectPool.obtain_mMaxPoolObjectsSize ..).trans h.limited
  · exact h.fits o (ObjectPool.mem_of_mem_obtain ho)
  · exact hshaped o (ObjectPool.mem_of_mem_obtain ho)
  · rcases List.mem_cons.mp (ObjectPool.obtain_mem p.createObject p.pool) with hnew | hold
    · have hvalue : p.obtain.1 = createVehiclePropValueVec type.toInt p.mVectorSize := by
        rw [← htype]
        exact hnew
      rw [hvalue, shapeOf_createVehiclePropValueVec]
    · exact hshaped _ hold

/-- A value enters the pool with the shape of the pool, whatever its holder did to it. -/
theorem InternalPool.Exact.recycle {limit : UInt64} {k : Nat} {p : InternalPool}
    (h : p.Exact limit k) (o : VehiclePropValue) : (p.recycle o).Exact limit k := by
  obtain ⟨type, htype, hshaped⟩ := h.shaped
  unfold InternalPool.recycle
  split
  · rename_i hcheck
    have hshape := (check_iff htype h.effective o.value).mp hcheck
    refine ⟨h.isKey, h.small, h.effective, ?_, ?_, fun x hx => ?_, type, htype, fun x hx => ?_⟩
    · exact (ObjectPool.recycle_mGetSizeFunc ..).trans h.measured
    · exact (ObjectPool.recycle_mMaxPoolObjectsSize ..).trans h.limited
    · rcases ObjectPool.mem_recycle hx with hold | ⟨rfl, hsize⟩
      · exact h.fits x hold
      · rwa [h.measured, h.limited] at hsize
    · rcases ObjectPool.mem_recycle hx with hold | ⟨rfl, _⟩
      · exact hshaped x hold
      · exact hshape
  · exact h

/-- What the pool of values maintains. -/
structure VehiclePropValuePool.Exact (p : VehiclePropValuePool) : Prop where
  small : p.mMaxRecyclableVectorSize < 2 ^ 16
  pools : ∀ k pool, p.mValueTypePools.lookup k = some pool → pool.Exact p.mMaxPoolObjectsSize k

/-- A new pool is exact. -/
theorem VehiclePropValuePool.Exact.construct {maxRecyclableVectorSize : Nat}
    (h : maxRecyclableVectorSize < 2 ^ 16) (maxPoolObjectsSize : UInt64) :
    (construct maxRecyclableVectorSize maxPoolObjectsSize).Exact where
  small := h
  pools k pool hk := by
    rw [VehiclePropValuePool.construct, Finmap.lookup_empty] at hk
    exact absurd hk (by simp)

/-- An exact pool of a type and size may be put in. -/
theorem VehiclePropValuePool.Exact.insert {p : VehiclePropValuePool} (h : p.Exact) {k : Nat}
    {pool : InternalPool} (hpool : pool.Exact p.mMaxPoolObjectsSize k) :
    { p with mValueTypePools := p.mValueTypePools.insert k pool : VehiclePropValuePool }.Exact where
  small := h.small
  pools k' pool' hk := by
    rw [UnorderedMap.lookup_insert_eq] at hk
    split at hk
    · rename_i hkey
      cases hk
      rwa [hkey]
    · exact h.pools k' pool' hk

/-- The internal pool that serves a type and a size is of that type and size. -/
theorem VehiclePropValuePool.Exact.serving {p : VehiclePropValuePool} (h : p.Exact)
    (memory : UInt64) {type : TypeEnumerator} {vectorSize : Nat}
    (hsmall : vectorSize ≤ p.mMaxRecyclableVectorSize)
    (heffective : effectiveSize type.toInt vectorSize = vectorSize) :
    ∃ it, (p.mValueTypePools.lookup (key type.toInt vectorSize)).getD
        (.construct type.toInt vectorSize p.mMaxPoolObjectsSize memory) = it ∧
      it.Exact p.mMaxPoolObjectsSize (key type.toInt vectorSize) ∧
      it.mPropType = type.toInt ∧ it.mVectorSize = vectorSize := by
  have hsize : vectorSize < 2 ^ 16 := hsmall.trans_lt h.small
  cases hit : p.mValueTypePools.lookup (key type.toInt vectorSize) with
  | none => exact ⟨_, rfl, InternalPool.Exact.construct _ memory hsize heffective, rfl, rfl⟩
  | some it =>
      have hexact := h.pools _ it hit
      obtain ⟨type', htype, _⟩ := hexact.shaped
      have hkey := hexact.isKey
      rw [htype] at hkey
      obtain ⟨rfl, hn⟩ := key_injective hexact.small hsize hkey
      exact ⟨it, rfl, hexact, htype, hn⟩

section Obtain

variable {p : VehiclePropValuePool} (memory : UInt64)

/-- A recyclable value is shaped as the pool that serves it. -/
theorem VehiclePropValuePool.Exact.obtainRecyclable (h : p.Exact) {type : TypeEnumerator}
    {vectorSize : Nat} (hsmall : vectorSize ≤ p.mMaxRecyclableVectorSize)
    (heffective : effectiveSize type.toInt vectorSize = vectorSize) :
    (p.obtainRecyclable memory type.toInt vectorSize).2.Exact ∧
      shapeOf (p.obtainRecyclable memory type.toInt vectorSize).1.value.value =
        type.documentedShape vectorSize := by
  obtain ⟨it, hit, hexact, htype, hsize⟩ := h.serving memory hsmall heffective
  obtain ⟨hnext, type', htype', hshape⟩ := hexact.obtain
  have hsame : type' = type := TypeEnumerator.toInt_injective (htype'.symm.trans htype)
  rw [hsame, hsize] at hshape
  simp only [VehiclePropValuePool.obtainRecyclable, hit]
  exact ⟨h.insert hnext, hshape⟩

/-- A disposable value leaves the pool alone. -/
theorem obtain_of_disposable {type vectorSize : Nat}
    (h : p.isDisposable type (effectiveSize type vectorSize) = true) :
    p.obtain memory type vectorSize =
      (obtainDisposable type (effectiveSize type vectorSize), p) := if_pos h

theorem obtain_of_recyclable {type vectorSize : Nat}
    (h : ¬p.isDisposable type (effectiveSize type vectorSize) = true) :
    p.obtain memory type vectorSize =
      p.obtainRecyclable memory type (effectiveSize type vectorSize) := if_neg h

/-- An obtained value has the documented shape. -/
theorem VehiclePropValuePool.Exact.obtain (h : p.Exact) (type : TypeEnumerator)
    (vectorSize : Nat) :
    (p.obtain memory type.toInt vectorSize).2.Exact ∧
      shapeOf (p.obtain memory type.toInt vectorSize).1.value.value =
        type.documentedShape vectorSize := by
  by_cases hdisposable :
      p.isDisposable type.toInt (effectiveSize type.toInt vectorSize) = true
  · rw [obtain_of_disposable memory hdisposable]
    refine ⟨h, ?_⟩
    rw [obtainDisposable, shapeOf_createVehiclePropValueVec, documentedShape_effectiveSize]
  · have hsmall : effectiveSize type.toInt vectorSize ≤ p.mMaxRecyclableVectorSize := by
      simp only [isDisposable, decide_eq_true_eq, not_or] at hdisposable
      omega
    have hobtained := h.obtainRecyclable memory hsmall (effectiveSize_idem ..)
    rw [documentedShape_effectiveSize] at hobtained
    rwa [obtain_of_recyclable memory hdisposable]

theorem VehiclePropValuePool.Exact.obtainOne (h : p.Exact) (type : TypeEnumerator) :
    (p.obtainOne memory type.toInt).2.Exact :=
  (h.obtain memory type _).1

/-- A copy of a value of unknown type is disposable, since its size counts as zero. -/
theorem VehiclePropValuePool.Exact.obtainCopy (h : p.Exact) (src : VehiclePropValue) :
    (p.obtainCopy memory src).2.Exact := by
  simp only [VehiclePropValuePool.obtainCopy]
  by_cases hknown : ∃ type : VehiclePropertyType,
      maskedBits src.prop VehiclePropertyType.mask = type.toInt
  · obtain ⟨type, htype⟩ := hknown
    rw [htype]
    exact (h.obtain memory (.valueType type) _).1
  · have hne (type : VehiclePropertyType) :
        maskedBits src.prop VehiclePropertyType.mask ≠ type.toInt := fun he => hknown ⟨type, he⟩
    have hempty : getVehicleRawValueVectorSize src.value
        (maskedBits src.prop VehiclePropertyType.mask) = 0 := by
      simp only [getVehicleRawValueVectorSize, hne, or_self, if_false]
    rw [hempty, obtain_of_disposable]
    · exact h
    · simp [isDisposable, effectiveSize, isSingleValueType, hne]

/-- Releasing a value keeps the pool exact. -/
theorem VehiclePropValuePool.Exact.release (h : p.Exact) (r : RecyclableType) :
    (p.release r).Exact := by
  unfold VehiclePropValuePool.release
  split
  · exact h
  · split
    · exact h
    · rename_i pool hpool
      exact h.insert ((h.pools _ pool hpool).recycle r.value)

end Obtain

/-- Every operation keeps the internal pools exact. -/
theorem PoolState.exact_apply {s : PoolState} (h : s.pool.Exact) (op : PoolOperation) :
    (s.apply op).pool.Exact := by
  cases op with
  | obtain memory type vectorSize => exact (h.obtain memory type vectorSize).1
  | obtainOne memory type => exact h.obtainOne memory type
  | obtainCopy memory src => exact h.obtainCopy memory src
  | write holder value => exact h
  | release holder =>
      simp only [PoolState.apply]
      split
      · exact h
      · exact h.release _

/-- The pool is exact after every history. -/
theorem PoolState.exact_after {maxRecyclableVectorSize : Nat}
    (h : maxRecyclableVectorSize < 2 ^ 16) (maxPoolObjectsSize : UInt64)
    (history : List PoolOperation) :
    (after maxRecyclableVectorSize maxPoolObjectsSize history).pool.Exact :=
  List.foldlRecOn (motive := fun s : PoolState => s.pool.Exact) history _
    (VehiclePropValuePool.Exact.construct h maxPoolObjectsSize)
    fun _ hs op _ => PoolState.exact_apply hs op

/-- The limits that a pool was constructed with. -/
def limits (p : VehiclePropValuePool) : Nat × UInt64 :=
  (p.mMaxRecyclableVectorSize, p.mMaxPoolObjectsSize)

/-- Obtaining a value changes no limit. -/
theorem limits_obtain (memory : UInt64) (type vectorSize : Nat) (p : VehiclePropValuePool) :
    limits (p.obtain memory type vectorSize).2 = limits p := by
  by_cases h : p.isDisposable type (effectiveSize type vectorSize) = true
  · rw [obtain_of_disposable memory h]
  · rw [obtain_of_recyclable memory h]
    rfl

/-- Releasing a value changes no limit. -/
theorem limits_release (r : RecyclableType) (p : VehiclePropValuePool) :
    limits (p.release r) = limits p := by
  unfold VehiclePropValuePool.release
  split
  · rfl
  · split <;> rfl

/-- No operation changes a limit. -/
theorem PoolState.limits_apply (s : PoolState) (op : PoolOperation) :
    limits (s.apply op).pool = limits s.pool := by
  cases op with
  | obtain memory type vectorSize => exact limits_obtain ..
  | obtainOne memory type => exact limits_obtain ..
  | obtainCopy memory src => exact limits_obtain ..
  | write holder value => rfl
  | release holder =>
      simp only [PoolState.apply]
      split
      · rfl
      · exact limits_release ..

/-- The limits are those of the construction. -/
theorem PoolState.limits_after (maxRecyclableVectorSize : Nat) (maxPoolObjectsSize : UInt64)
    (history : List PoolOperation) :
    limits (after maxRecyclableVectorSize maxPoolObjectsSize history).pool =
      (maxRecyclableVectorSize, maxPoolObjectsSize) :=
  List.foldlRecOn (motive := fun s : PoolState =>
      limits s.pool = (maxRecyclableVectorSize, maxPoolObjectsSize)) history _ rfl
    fun s hs op _ => (s.limits_apply op).trans hs

end VhalCore.ValuePool
