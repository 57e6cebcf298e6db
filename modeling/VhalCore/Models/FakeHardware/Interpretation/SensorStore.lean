import VhalCore.Models.FakeHardware.Native.Obd2SensorStore

/-!
# What a call does to the sensor store

A store has some numbers of sensors and the mask for them. A call for one of the sensors sets its
value and its bit, and any other call fails.
-/

namespace VhalCore.FakeHardware

variable {n m : Nat} {store : Obd2SensorStore}

theorem Obd2SensorStore.run_append (store : Obd2SensorStore) (calls more : List SensorCall) :
    store.run (calls ++ more) = (store.run calls).run more :=
  List.foldl_append

/-- The store has some numbers of sensors, and the mask for them. -/
structure Sized (n m : Nat) (store : Obd2SensorStore) : Prop where
  integers : store.mIntegerSensors.length = n
  floats : store.mFloatSensors.length = m
  bits : store.mSensorsBitmask.mNumBits = n + m
  bytes : store.mSensorsBitmask.mStorage.length = (n + m + 7) / 8

/-- Marking a bit of the mask succeeds. -/
theorem mark_eq {index : Nat} (h : Sized n m store) (hindex : index < n + m) :
    store.mark index = (.ok, { store with
      mSensorsBitmask :=
        { store.mSensorsBitmask with
          mStorage := withBit store.mSensorsBitmask.mStorage index } }) := by
  have hbits : ¬index ≥ store.mSensorsBitmask.mNumBits := by
    rw [h.bits]
    omega
  simp only [Obd2SensorStore.mark, BitmaskInVector.set, if_neg hbits, if_true]

/-- Setting an integer sensor of the store succeeds. -/
theorem setIntegerSensor_eq {k : Nat} (h : Sized n m store) (hk : k < n) (v : Int) :
    store.setIntegerSensor k v = (.ok, { store with
      mIntegerSensors := store.mIntegerSensors.set k v
      mSensorsBitmask :=
        { store.mSensorsBitmask with
          mStorage := withBit store.mSensorsBitmask.mStorage k } }) := by
  have hindex : ¬k ≥ store.mIntegerSensors.length := by
    rw [h.integers]
    omega
  rw [Obd2SensorStore.setIntegerSensor, if_neg hindex]
  refine mark_eq (n := n) (m := m) ⟨?_, h.floats, h.bits, h.bytes⟩ (by omega)
  rw [List.length_set, h.integers]

/-- Setting a float sensor of the store succeeds. -/
theorem setFloatSensor_eq {k : Nat} (h : Sized n m store) (hk : k < m) (v : Binary32) :
    store.setFloatSensor k v = (.ok, { store with
      mFloatSensors := store.mFloatSensors.set k v
      mSensorsBitmask :=
        { store.mSensorsBitmask with
          mStorage := withBit store.mSensorsBitmask.mStorage (k + n) } }) := by
  have hindex : ¬k ≥ store.mFloatSensors.length := by
    rw [h.floats]
    omega
  rw [Obd2SensorStore.setFloatSensor, if_neg hindex, h.integers]
  refine mark_eq (n := n) (m := m) ⟨h.integers, ?_, h.bits, h.bytes⟩ (by omega)
  rw [List.length_set, h.floats]

theorem sized_create (numVendorIntegerSensors numVendorFloatSensors : Nat) :
    Sized (lastIntegerSensorIndex + 1 + numVendorIntegerSensors)
      (lastFloatSensorIndex + 1 + numVendorFloatSensors)
      (.create numVendorIntegerSensors numVendorFloatSensors) :=
  ⟨List.length_replicate .., List.length_replicate .., rfl, List.length_replicate ..⟩

/-- The number of sensors of a kind is the sum in the type `size_t`. -/
theorem numSensors_eq {lastIndex : Nat} (h : lastIndex + 1 < 2 ^ 64) (numVendorSensors : UInt64) :
    Obd2SensorStore.numSensors lastIndex numVendorSensors =
      (lastIndex + 1 + numVendorSensors.toNat) % 2 ^ 64 := by
  rw [Obd2SensorStore.numSensors, UInt64.toNat_add, UInt64.toNat_ofNat_of_lt' (by
    rw [UInt64.size]; omega)]

/-- The sums are exact for all vectors that fit the memory. -/
theorem construct_eq_create {numVendorIntegerSensors numVendorFloatSensors : UInt64}
    (hintegers : lastIntegerSensorIndex + 1 + numVendorIntegerSensors.toNat < 2 ^ 64)
    (hfloats : lastFloatSensorIndex + 1 + numVendorFloatSensors.toNat < 2 ^ 64) :
    Obd2SensorStore.construct numVendorIntegerSensors numVendorFloatSensors =
      .create numVendorIntegerSensors.toNat numVendorFloatSensors.toNat := by
  have hinteger : Obd2SensorStore.numSensors lastIntegerSensorIndex numVendorIntegerSensors = _ :=
    numSensors_eq (by decide) _
  have hfloat : Obd2SensorStore.numSensors lastFloatSensorIndex numVendorFloatSensors = _ :=
    numSensors_eq (by decide) _
  rw [Nat.mod_eq_of_lt hintegers] at hinteger
  rw [Nat.mod_eq_of_lt hfloats] at hfloat
  simp only [Obd2SensorStore.construct, Obd2SensorStore.create, hinteger, hfloat]

theorem sized_construct (numVendorIntegerSensors numVendorFloatSensors : UInt64) :
    Sized (Obd2SensorStore.numSensors lastIntegerSensorIndex numVendorIntegerSensors)
      (Obd2SensorStore.numSensors lastFloatSensorIndex numVendorFloatSensors)
      (.construct numVendorIntegerSensors numVendorFloatSensors) :=
  ⟨List.length_replicate .., List.length_replicate .., rfl, List.length_replicate ..⟩

/-- The outcome of a call for an integer sensor. -/
theorem setIntegerSensor_cases (h : Sized n m store) (k : Nat) (v : Int) :
    n ≤ k ∧ store.setIntegerSensor k v = (.invalidArg, store) ∨
      k < n ∧ store.setIntegerSensor k v = (.ok, { store with
        mIntegerSensors := store.mIntegerSensors.set k v
        mSensorsBitmask :=
          { store.mSensorsBitmask with
            mStorage := withBit store.mSensorsBitmask.mStorage k } }) := by
  by_cases hk : k < n
  · exact Or.inr ⟨hk, setIntegerSensor_eq h hk v⟩
  · have hindex : k ≥ store.mIntegerSensors.length := by
      rw [h.integers]
      omega
    exact Or.inl ⟨by omega, if_pos hindex⟩

/-- The outcome of a call for a float sensor. -/
theorem setFloatSensor_cases (h : Sized n m store) (k : Nat) (v : Binary32) :
    m ≤ k ∧ store.setFloatSensor k v = (.invalidArg, store) ∨
      k < m ∧ store.setFloatSensor k v = (.ok, { store with
        mFloatSensors := store.mFloatSensors.set k v
        mSensorsBitmask :=
          { store.mSensorsBitmask with
            mStorage := withBit store.mSensorsBitmask.mStorage (k + n) } }) := by
  by_cases hk : k < m
  · exact Or.inr ⟨hk, setFloatSensor_eq h hk v⟩
  · have hindex : k ≥ store.mFloatSensors.length := by
      rw [h.floats]
      omega
    exact Or.inl ⟨by omega, if_pos hindex⟩

end VhalCore.FakeHardware
