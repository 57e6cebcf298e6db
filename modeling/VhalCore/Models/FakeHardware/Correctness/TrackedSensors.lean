import VhalCore.Models.FakeHardware.Interpretation.SensorStore

/-!
# The sensors that have been set

The two vectors and the mask stay in step over any sequence of calls: a bit of the mask is set
exactly if a call for its sensor succeeded, and the value of a sensor is the one of the last
call for it.
-/

namespace VhalCore.FakeHardware

/-- The value that a call gives to an integer sensor. -/
def SensorCall.integerValue (i : Nat) : SensorCall → Option Int
  | .integer index value => if index = i then some value else none
  | .float _ _ => none

/-- The value that a call gives to a float sensor. -/
def SensorCall.floatValue (j : Nat) : SensorCall → Option Binary32
  | .integer _ _ => none
  | .float index value => if index = j then some value else none

/-- Some call for the sensor, one with a value for it, succeeded in the state it was made in. -/
def Succeeded {α : Type} (valueOf : SensorCall → Option α) (calls : List SensorCall)
    (store : Obd2SensorStore) : Prop :=
  ∃ before call after v, calls = before ++ call :: after ∧ valueOf call = some v ∧
    call.result (store.run before) = .ok

/-- The value of the last call for a sensor. -/
def lastValue {α : Type} (valueOf : SensorCall → Option α) (calls : List SensorCall) : Option α :=
  (calls.filterMap valueOf).getLast?

/-- The store with some numbers of sensors tells after some calls what has been set. -/
structure Tracked (n m : Nat) (created : Obd2SensorStore) (calls : List SensorCall) (dtc : String) :
    Prop where
  integerBit : ∀ i < n,
    (bitAt ((created.run calls).getSensorProperty dtc).byteValues i = true ↔
      Succeeded (SensorCall.integerValue i) calls created)
  floatBit : ∀ j < m,
    (bitAt ((created.run calls).getSensorProperty dtc).byteValues (n + j) = true ↔
      Succeeded (SensorCall.floatValue j) calls created)
  integers : ((created.run calls).getSensorProperty dtc).int32Values =
    (List.range n).map fun i => (lastValue (SensorCall.integerValue i) calls).getD 0
  floats : ((created.run calls).getSensorProperty dtc).floatValues =
    (List.range m).map fun j => (lastValue (SensorCall.floatValue j) calls).getD .zero
  integerCall : ∀ index value,
    (SensorCall.integer index value).result (created.run calls) = .ok ↔ index < n
  floatCall : ∀ index value,
    (SensorCall.float index value).result (created.run calls) = .ok ↔ index < m
  failedCall : ∀ call : SensorCall, call.result (created.run calls) ≠ .ok →
    call.apply (created.run calls) = created.run calls

variable {n m : Nat} {store : Obd2SensorStore}

/-- The bit that a call sets, if it is for one of the sensors. -/
def SensorCall.bit (n m : Nat) : SensorCall → Option Nat
  | .integer index _ => if index < n then some index else none
  | .float index _ => if index < m then some (index + n) else none

/-- The step of the store. -/
structure StepOf (n m : Nat) (call : SensorCall) (store next : Obd2SensorStore) : Prop where
  sized : Sized n m next
  bits : ∀ c, bitAt next.getSensorsBitmask c = (bitAt store.getSensorsBitmask c ||
    decide (call.bit n m = some c))
  integers : ∀ i < n, next.mIntegerSensors[i]? =
    (call.integerValue i).or store.mIntegerSensors[i]?
  floats : ∀ j < m, next.mFloatSensors[j]? =
    (call.floatValue j).or store.mFloatSensors[j]?

/-- A call for an integer sensor sets that sensor and its bit, or changes nothing. -/
theorem stepOf_integer (h : Sized n m store) (index : Nat) (value : Int) :
    StepOf n m (.integer index value) store ((SensorCall.integer index value).apply store) := by
  rw [SensorCall.apply]
  rcases setIntegerSensor_cases h index value with ⟨hk, hcall⟩ | ⟨hk, hcall⟩
  · have hne (i : Nat) (hi : i < n) : index ≠ i := by omega
    rw [hcall]
    refine ⟨h, fun c => ?_, fun i hi => ?_, fun j _ => rfl⟩
    · simp [SensorCall.bit, Nat.not_lt.mpr hk]
    · simp [SensorCall.integerValue, hne i hi]
  · have hbyte : index / 8 < store.mSensorsBitmask.mStorage.length := by
      rw [h.bytes]
      omega
    rw [hcall]
    refine ⟨⟨?_, h.floats, h.bits, ?_⟩, fun c => ?_, fun i hi => ?_, fun j _ => rfl⟩
    · exact (List.length_set ..).trans h.integers
    · exact (length_withBit ..).trans h.bytes
    · simp only [Obd2SensorStore.getSensorsBitmask, bitAt_withBit hbyte, SensorCall.bit, hk,
        if_true, Option.some.injEq, eq_comm]
    · rw [List.getElem?_set, h.integers]
      by_cases hi' : index = i <;> simp [SensorCall.integerValue, hi', hi]

/-- A call for a float sensor sets that sensor and its bit, or changes nothing. -/
theorem stepOf_float (h : Sized n m store) (index : Nat) (value : Binary32) :
    StepOf n m (.float index value) store ((SensorCall.float index value).apply store) := by
  rw [SensorCall.apply]
  rcases setFloatSensor_cases h index value with ⟨hk, hcall⟩ | ⟨hk, hcall⟩
  · have hne (j : Nat) (hj : j < m) : index ≠ j := by omega
    rw [hcall]
    refine ⟨h, fun c => ?_, fun i _ => rfl, fun j hj => ?_⟩
    · simp [SensorCall.bit, Nat.not_lt.mpr hk]
    · simp [SensorCall.floatValue, hne j hj]
  · have hbyte : (index + n) / 8 < store.mSensorsBitmask.mStorage.length := by
      rw [h.bytes]
      omega
    rw [hcall]
    refine ⟨⟨h.integers, ?_, h.bits, ?_⟩, fun c => ?_, fun i _ => rfl, fun j hj => ?_⟩
    · exact (List.length_set ..).trans h.floats
    · exact (length_withBit ..).trans h.bytes
    · simp only [Obd2SensorStore.getSensorsBitmask, bitAt_withBit hbyte, SensorCall.bit, hk,
        if_true, Option.some.injEq, eq_comm]
    · rw [List.getElem?_set, h.floats]
      by_cases hj' : index = j <;> simp [SensorCall.floatValue, hj', hj]

/-- Each call is a step. -/
theorem stepOf_apply (h : Sized n m store) (call : SensorCall) :
    StepOf n m call store (call.apply store) := by
  cases call with
  | integer index value => exact stepOf_integer h index value
  | float index value => exact stepOf_float h index value

/-- The last value of a list is that of its rest, if the rest has one. -/
theorem lastValue_cons {α : Type} (valueOf : SensorCall → Option α) (call : SensorCall)
    (calls : List SensorCall) :
    lastValue valueOf (call :: calls) = (lastValue valueOf calls).or (valueOf call) := by
  simp only [lastValue]
  cases hvalue : valueOf call with
  | none => rw [List.filterMap_cons_none hvalue, Option.or_none]
  | some v =>
      rw [List.filterMap_cons_some hvalue, List.getLast?_cons]
      cases (calls.filterMap valueOf).getLast? <;> rfl

/-- The run of the store. -/
structure RunOf (n m : Nat) (calls : List SensorCall) (store last : Obd2SensorStore) : Prop where
  sized : Sized n m last
  bits : ∀ c, bitAt last.getSensorsBitmask c = true ↔ bitAt store.getSensorsBitmask c = true ∨
    ∃ call ∈ calls, call.bit n m = some c
  integers : ∀ i < n, last.mIntegerSensors[i]? =
    (lastValue (SensorCall.integerValue i) calls).or store.mIntegerSensors[i]?
  floats : ∀ j < m, last.mFloatSensors[j]? =
    (lastValue (SensorCall.floatValue j) calls).or store.mFloatSensors[j]?

/-- All calls set their sensors and bits, and nothing else. -/
theorem runOf_run (h : Sized n m store) (calls : List SensorCall) :
    RunOf n m calls store (store.run calls) := by
  induction calls generalizing store with
  | nil => exact ⟨h, fun c => by simp [Obd2SensorStore.run], fun i _ => rfl, fun j _ => rfl⟩
  | cons call calls ih =>
      have hstep := stepOf_apply h call
      have hrest := ih hstep.sized
      refine ⟨hrest.sized, fun c => ?_, fun i hi => ?_, fun j hj => ?_⟩
      · refine (hrest.bits c).trans ?_
        rw [hstep.bits c, Bool.or_eq_true, decide_eq_true_eq, or_assoc, List.exists_mem_cons_iff]
      · refine (hrest.integers i hi).trans ?_
        rw [hstep.integers i hi, lastValue_cons, Option.or_assoc]
      · refine (hrest.floats j hj).trans ?_
        rw [hstep.floats j hj, lastValue_cons, Option.or_assoc]

theorem result_integer_iff (h : Sized n m store) (index : Nat) (value : Int) :
    (SensorCall.integer index value).result store = .ok ↔ index < n := by
  rw [SensorCall.result]
  rcases setIntegerSensor_cases h index value with ⟨hk, hcall⟩ | ⟨hk, hcall⟩ <;>
    simp [hcall] <;> omega

theorem result_float_iff (h : Sized n m store) (index : Nat) (value : Binary32) :
    (SensorCall.float index value).result store = .ok ↔ index < m := by
  rw [SensorCall.result]
  rcases setFloatSensor_cases h index value with ⟨hk, hcall⟩ | ⟨hk, hcall⟩ <;>
    simp [hcall] <;> omega

/-- A failed call changes nothing. -/
theorem apply_of_failed (h : Sized n m store) {call : SensorCall}
    (hfailed : call.result store ≠ .ok) : call.apply store = store := by
  cases call with
  | integer index value =>
      rcases setIntegerSensor_cases h index value with ⟨_, hcall⟩ | ⟨_, hcall⟩
      · rw [SensorCall.apply, hcall]
      · exact absurd (by rw [SensorCall.result, hcall]) hfailed
  | float index value =>
      rcases setFloatSensor_cases h index value with ⟨_, hcall⟩ | ⟨_, hcall⟩
      · rw [SensorCall.apply, hcall]
      · exact absurd (by rw [SensorCall.result, hcall]) hfailed

/-- A call for an integer sensor succeeded exactly if one was made that sets its bit. -/
theorem succeeded_integer_iff (h : Sized n m store) {i : Nat} (hi : i < n)
    (calls : List SensorCall) :
    Succeeded (SensorCall.integerValue i) calls store ↔ ∃ call ∈ calls, call.bit n m = some i := by
  constructor
  · rintro ⟨before, call, after, v, rfl, hvalue, _⟩
    refine ⟨call, List.mem_append_right _ (List.mem_cons_self ..), ?_⟩
    cases call with
    | integer index value =>
        obtain ⟨rfl, _⟩ := (Option.ite_none_right_eq_some ..).mp hvalue
        exact if_pos hi
    | float index value => cases hvalue
  · rintro ⟨call, hmem, hbit⟩
    obtain ⟨before, after, rfl⟩ := List.append_of_mem hmem
    cases call with
    | integer index value =>
        obtain ⟨_, rfl⟩ : index < n ∧ index = i := by simpa [SensorCall.bit] using hbit
        exact ⟨before, _, after, value, rfl, if_pos rfl,
          (result_integer_iff (runOf_run h before).sized index value).mpr hi⟩
    | float index value =>
        obtain ⟨_, hindex⟩ : index < m ∧ index + n = i := by simpa [SensorCall.bit] using hbit
        omega

/-- A call for a float sensor succeeded exactly if one was made that sets its bit. -/
theorem succeeded_float_iff (h : Sized n m store) {j : Nat} (hj : j < m)
    (calls : List SensorCall) :
    Succeeded (SensorCall.floatValue j) calls store ↔
      ∃ call ∈ calls, call.bit n m = some (n + j) := by
  constructor
  · rintro ⟨before, call, after, v, rfl, hvalue, _⟩
    refine ⟨call, List.mem_append_right _ (List.mem_cons_self ..), ?_⟩
    cases call with
    | integer index value => cases hvalue
    | float index value =>
        obtain ⟨rfl, _⟩ := (Option.ite_none_right_eq_some ..).mp hvalue
        rw [SensorCall.bit, if_pos hj, Nat.add_comm]
  · rintro ⟨call, hmem, hbit⟩
    obtain ⟨before, after, rfl⟩ := List.append_of_mem hmem
    cases call with
    | integer index value =>
        obtain ⟨_, hindex⟩ : index < n ∧ index = n + j := by simpa [SensorCall.bit] using hbit
        omega
    | float index value =>
        obtain ⟨_, hindex⟩ : index < m ∧ index + n = n + j := by
          simpa [SensorCall.bit] using hbit
        obtain rfl : index = j := by omega
        exact ⟨before, _, after, value, rfl, if_pos rfl,
          (result_float_iff (runOf_run h before).sized index value).mpr hj⟩

/-- A vector that starts with zeros holds the last values. -/
theorem eq_map_lastValue {α : Type} {zero : α} {count : Nat} {sensors : List α}
    {last : Nat → Option α} (hlength : sensors.length = count)
    (h : ∀ i < count, sensors[i]? = (last i).or (List.replicate count zero)[i]?) :
    sensors = (List.range count).map fun i => (last i).getD zero := by
  refine List.ext_getElem? fun i => ?_
  by_cases hi : i < count
  · rw [h i hi, List.getElem?_map, List.getElem?_range hi, List.getElem?_replicate, if_pos hi]
    cases hlast : last i <;> simp [hlast]
  · rw [List.getElem?_eq_none (by omega), List.getElem?_eq_none (by simp; omega)]

/-- The store tells what has been set for any numbers of vendor sensors and any calls. It has 32
integer and 71 float sensors of its own beside them, in sums of the type `size_t`. -/
theorem construct_tracked (numVendorIntegerSensors numVendorFloatSensors : UInt64)
    (calls : List SensorCall) (dtc : String) :
    Tracked ((31 + 1 + numVendorIntegerSensors.toNat) % 2 ^ 64)
      ((70 + 1 + numVendorFloatSensors.toNat) % 2 ^ 64)
      (.construct numVendorIntegerSensors numVendorFloatSensors) calls dtc := by
  have hintegers : (31 + 1 + numVendorIntegerSensors.toNat) % 2 ^ 64 =
      Obd2SensorStore.numSensors lastIntegerSensorIndex numVendorIntegerSensors :=
    (numSensors_eq (by decide) _).symm
  have hfloats : (70 + 1 + numVendorFloatSensors.toNat) % 2 ^ 64 =
      Obd2SensorStore.numSensors lastFloatSensorIndex numVendorFloatSensors :=
    (numSensors_eq (by decide) _).symm
  rw [hintegers, hfloats]
  have hcreated := sized_construct numVendorIntegerSensors numVendorFloatSensors
  have hrun := runOf_run hcreated calls
  have hclear (c : Nat) : bitAt (Obd2SensorStore.construct numVendorIntegerSensors
      numVendorFloatSensors).getSensorsBitmask c = false := bitAt_replicate _ c
  refine ⟨fun i hi => ?_, fun j hj => ?_, ?_, ?_, fun index value => ?_, fun index value => ?_,
    fun call hfailed => ?_⟩
  · rw [succeeded_integer_iff hcreated hi]
    exact (hrun.bits i).trans (by simp [hclear])
  · rw [succeeded_float_iff hcreated hj]
    exact (hrun.bits _).trans (by simp [hclear])
  · exact eq_map_lastValue hrun.sized.integers hrun.integers
  · exact eq_map_lastValue hrun.sized.floats hrun.floats
  · exact result_integer_iff hrun.sized index value
  · exact result_float_iff hrun.sized index value
  · exact apply_of_failed hrun.sized hfailed

end VhalCore.FakeHardware
