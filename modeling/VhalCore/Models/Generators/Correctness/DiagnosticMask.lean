import VhalCore.Models.FakeHardware.Interpretation.SensorStore
import VhalCore.Models.Generators.Native.JsonFakeValueGenerator

/-!
# The two masks of a diagnosis event

The sensor store marks a sensor when it is set; the generator that replays a file marks the
values that are not zero. The layout of the store depends on the number of integer sensors, with
those of the vendor. The layout of the generator counts the sensors of the system only.
-/

namespace VhalCore.Generators

open FakeHardware

section Marks

variable {α : Type} [DecidableEq α] {zero : α} {bitOf : Nat → Nat}

/-- The bit is that of a value that is not zero. -/
def Marks (zero : α) (bitOf : Nat → Nat) : Nat → List α → Nat → Prop
  | _, [], _ => False
  | i, value :: values, c => value ≠ zero ∧ c = bitOf i ∨ Marks zero bitOf (i + 1) values c

omit [DecidableEq α] in

/-- The marked bits are those of the values other than zero. -/
theorem marks_iff (zero : α) (bitOf : Nat → Nat) (i : Nat) (values : List α) (c : Nat) :
    Marks zero bitOf i values c ↔ ∃ k v, values[k]? = some v ∧ v ≠ zero ∧ c = bitOf (i + k) := by
  induction values generalizing i with
  | nil => simp [Marks]
  | cons value values ih =>
      rw [Marks, ih]
      constructor
      · rintro (⟨hne, hc⟩ | ⟨k, v, hv, hne, hc⟩)
        · exact ⟨0, value, rfl, hne, hc⟩
        · exact ⟨k + 1, v, hv, hne, by rw [hc, Nat.add_right_comm, Nat.add_assoc]⟩
      · rintro ⟨k, v, hv, hne, hc⟩
        cases k with
        | zero =>
            obtain rfl : value = v := Option.some.inj hv
            exact Or.inl ⟨hne, hc⟩
        | succ k => exact Or.inr ⟨k, v, hv, hne, by rw [hc, Nat.add_right_comm, Nat.add_assoc]⟩

omit [DecidableEq α] in
theorem exists_of_marks {values : List α} {c : Nat} (h : Marks zero bitOf 0 values c) :
    ∃ k < values.length, c = bitOf k := by
  obtain ⟨k, v, hv, _, hc⟩ := (marks_iff ..).mp h
  exact ⟨k, (List.getElem?_eq_some_iff.mp hv).1, by rwa [Nat.zero_add] at hc⟩

omit [DecidableEq α] in
/-- The bit of a value is marked if the value is not zero. -/
theorem marks_bitOf_iff {values : List α} {k : Nat} {v : α} (hinj : Function.Injective bitOf)
    (hv : values[k]? = some v) : Marks zero bitOf 0 values (bitOf k) ↔ v ≠ zero := by
  rw [marks_iff]
  constructor
  · rintro ⟨i, w, hw, hne, hbit⟩
    obtain rfl : k = i := by simpa using hinj hbit
    rw [hv, Option.some.injEq] at hw
    rwa [hw]
  · intro hne
    exact ⟨k, v, hv, hne, by rw [Nat.zero_add]⟩

/-- The loop goes through if its bits are inside the bytes, and adds them. -/
theorem exists_setBits (zero : α) (bitOf : Nat → Nat) (i : Nat) (values : List α)
    (bytes : List UInt8) (hinside : ∀ c, Marks zero bitOf i values c → c / 8 < bytes.length) :
    ∃ after, setBits zero bitOf i values bytes = some after ∧ after.length = bytes.length ∧
      ∀ c, bitAt after c = true ↔ bitAt bytes c = true ∨ Marks zero bitOf i values c := by
  induction values generalizing i bytes with
  | nil => exact ⟨bytes, rfl, rfl, fun c => by simp [Marks]⟩
  | cons value values ih =>
      by_cases hzero : value = zero
      · obtain ⟨after, hrun, hlength, hbits⟩ := ih (i + 1) bytes fun c hc => hinside c (Or.inr hc)
        refine ⟨after, ?_, hlength, fun c => ?_⟩
        · rwa [setBits, if_neg (not_not_intro hzero)]
        · rw [hbits c, Marks]
          simp only [hzero, ne_eq, not_true_eq_false, false_and, false_or]
      · have hbit : bitOf i / 8 < bytes.length := hinside _ (Or.inl ⟨hzero, rfl⟩)
        obtain ⟨after, hrun, hlength, hbits⟩ := ih (i + 1) (withBit bytes (bitOf i))
          fun c hc => by rw [length_withBit]; exact hinside c (Or.inr hc)
        refine ⟨after, ?_, hlength.trans (length_withBit ..), fun c => ?_⟩
        · rwa [setBits, if_pos hzero, setBit, if_pos hbit, Option.bind_some]
        · rw [hbits c, bitAt_withBit hbit, Bool.or_eq_true, decide_eq_true_eq, Marks, or_assoc]
          simp only [ne_eq, hzero, not_false_eq_true, true_and]

/-- The loop keeps the number of bytes. -/
theorem length_of_setBits {i : Nat} {values : List α} {bytes after : List UInt8}
    (h : setBits zero bitOf i values bytes = some after) : after.length = bytes.length := by
  induction values generalizing i bytes with
  | nil => exact congrArg List.length (Option.some.inj h).symm
  | cons value values ih =>
      rw [setBits] at h
      split at h
      · obtain ⟨next, hnext, hrest⟩ := Option.bind_eq_some_iff.mp h
        rw [setBit] at hnext
        split at hnext
        · rw [ih hrest, ← Option.some.inj hnext, length_withBit]
        · cases hnext
      · exact ih h

end Marks

section Sensors

variable {n m : Nat} {store : Obd2SensorStore}

/-- The calls that set the sensors with a value, from an index on. -/
def sensorCalls {α : Type} [DecidableEq α] (zero : α) (call : Nat → α → SensorCall) :
    Nat → List α → List SensorCall
  | _, [] => []
  | i, value :: values =>
      if value ≠ zero then call i value :: sensorCalls zero call (i + 1) values
      else sensorCalls zero call (i + 1) values

/-- The store with vendor sensors in which the sensors with a value are set. -/
def sensorStore (numVendorIntegerSensors numVendorFloatSensors : Nat) (value : RawPropValues) :
    Obd2SensorStore :=
  (Obd2SensorStore.create numVendorIntegerSensors numVendorFloatSensors).run
    (sensorCalls 0 .integer 0 value.int32Values ++ sensorCalls .zero .float 0 value.floatValues)

/-- The calls for some values, when a call sets its sensor and its bit and keeps what is known of
the store. -/
theorem run_sensorCalls {α : Type} [DecidableEq α] {zero : α} {call : Nat → α → SensorCall}
    (sensors : Obd2SensorStore → List α) {bitOf : Nat → Nat} (known : Obd2SensorStore → Prop)
    (hcall : ∀ store k v, known store → k < (sensors store).length →
      known ((call k v).apply store) ∧
        sensors ((call k v).apply store) = (sensors store).set k v ∧
        ∀ c, bitAt ((call k v).apply store).getSensorsBitmask c = true ↔
          bitAt store.getSensorsBitmask c = true ∨ c = bitOf k)
    (values before : List α) (hknown : known store)
    (hsensors : sensors store = before ++ List.replicate values.length zero) :
    known (store.run (sensorCalls zero call before.length values)) ∧
      sensors (store.run (sensorCalls zero call before.length values)) = before ++ values ∧
      ∀ c, bitAt (store.run (sensorCalls zero call before.length values)).getSensorsBitmask c =
          true ↔
        bitAt store.getSensorsBitmask c = true ∨ Marks zero bitOf before.length values c := by
  induction values generalizing store before with
  | nil => exact ⟨hknown, hsensors, fun c => by simp [sensorCalls, Obd2SensorStore.run, Marks]⟩
  | cons v values ih =>
      have hnext : (before ++ [v]).length = before.length + 1 := by simp
      by_cases hzero : v = zero
      · have hrest := ih (before ++ [v]) hknown (by
          simpa [hzero, List.replicate_succ] using hsensors)
        rw [hnext] at hrest
        simpa [sensorCalls, hzero, Marks] using hrest
      · have hlength : before.length < (sensors store).length := by simp [hsensors]
        obtain ⟨hkept, hset, hbit⟩ := hcall store before.length v hknown hlength
        have hrest := ih (before ++ [v]) hkept (by
          simp [hset, hsensors, List.replicate_succ])
        rw [hnext] at hrest
        refine ⟨?_, ?_, fun c => ?_⟩
        · simpa [sensorCalls, hzero, Obd2SensorStore.run] using hrest.1
        · simpa [sensorCalls, hzero, Obd2SensorStore.run] using hrest.2.1
        · have hbits := hrest.2.2 c
          rw [hbit c, or_assoc] at hbits
          simpa [sensorCalls, hzero, Obd2SensorStore.run, Marks] using hbits

/-- Calls for all integer sensors set their values and mark those other than zero. -/
theorem run_integerCalls {floats : List Binary32} (values : List Int) (h : Sized n m store)
    (hfloats : store.mFloatSensors = floats)
    (hzero : store.mIntegerSensors = List.replicate values.length 0) :
    (Sized n m (store.run (sensorCalls 0 .integer 0 values)) ∧
        (store.run (sensorCalls 0 .integer 0 values)).mFloatSensors = floats) ∧
      (store.run (sensorCalls 0 .integer 0 values)).mIntegerSensors = values ∧
      ∀ c, bitAt (store.run (sensorCalls 0 .integer 0 values)).getSensorsBitmask c = true ↔
        bitAt store.getSensorsBitmask c = true ∨ Marks 0 id 0 values c := by
  refine run_sensorCalls Obd2SensorStore.mIntegerSensors
    (fun s => Sized n m s ∧ s.mFloatSensors = floats) (fun s k v hs hk => ?_) values []
    ⟨h, hfloats⟩ hzero
  have hindex : k < n := hs.1.integers ▸ hk
  have hbyte : k / 8 < s.mSensorsBitmask.mStorage.length := by
    rw [hs.1.bytes]
    omega
  rw [SensorCall.apply, setIntegerSensor_eq hs.1 hindex]
  refine ⟨⟨⟨?_, hs.1.floats, hs.1.bits, ?_⟩, hs.2⟩, rfl, fun c => ?_⟩
  · exact (List.length_set ..).trans hs.1.integers
  · exact (length_withBit ..).trans hs.1.bytes
  · simp only [Obd2SensorStore.getSensorsBitmask, bitAt_withBit hbyte, Bool.or_eq_true,
      decide_eq_true_eq, id_eq]

/-- Calls for all float sensors set their values and mark those other than zero. -/
theorem run_floatCalls {integers : List Int} (values : List Binary32) (h : Sized n m store)
    (hintegers : store.mIntegerSensors = integers)
    (hzero : store.mFloatSensors = List.replicate values.length .zero) :
    (Sized n m (store.run (sensorCalls .zero .float 0 values)) ∧
        (store.run (sensorCalls .zero .float 0 values)).mIntegerSensors = integers) ∧
      (store.run (sensorCalls .zero .float 0 values)).mFloatSensors = values ∧
      ∀ c, bitAt (store.run (sensorCalls .zero .float 0 values)).getSensorsBitmask c = true ↔
        bitAt store.getSensorsBitmask c = true ∨ Marks .zero (· + n) 0 values c := by
  refine run_sensorCalls Obd2SensorStore.mFloatSensors
    (fun s => Sized n m s ∧ s.mIntegerSensors = integers) (fun s k v hs hk => ?_) values []
    ⟨h, hintegers⟩ hzero
  have hindex : k < m := hs.1.floats ▸ hk
  have hbyte : (k + n) / 8 < s.mSensorsBitmask.mStorage.length := by
    rw [hs.1.bytes]
    omega
  rw [SensorCall.apply, setFloatSensor_eq hs.1 hindex]
  refine ⟨⟨⟨hs.1.integers, ?_, hs.1.bits, ?_⟩, hs.2⟩, rfl, fun c => ?_⟩
  · exact (List.length_set ..).trans hs.1.floats
  · exact (length_withBit ..).trans hs.1.bytes
  · simp only [Obd2SensorStore.getSensorsBitmask, bitAt_withBit hbyte, Bool.or_eq_true,
      decide_eq_true_eq]

end Sensors

/-- A value for each of the sensors. -/
structure Assigns (numVendorIntegerSensors numVendorFloatSensors : Nat) (value : RawPropValues) :
    Prop where
  integers : value.int32Values.length = lastIntegerSensorIndex + 1 + numVendorIntegerSensors
  floats : value.floatValues.length = lastFloatSensorIndex + 1 + numVendorFloatSensors

section Masks

variable {vendorIntegers vendorFloats : Nat} {value : RawPropValues}

/-- The store has the values of the event, and marks those that are not zero. -/
theorem sensorStore_spec (h : Assigns vendorIntegers vendorFloats value) :
    Sized value.int32Values.length value.floatValues.length
        (sensorStore vendorIntegers vendorFloats value) ∧
      (sensorStore vendorIntegers vendorFloats value).mIntegerSensors = value.int32Values ∧
      (sensorStore vendorIntegers vendorFloats value).mFloatSensors = value.floatValues ∧
      ∀ c, bitAt (sensorStore vendorIntegers vendorFloats value).getSensorsBitmask c = true ↔
        Marks 0 id 0 value.int32Values c ∨
          Marks .zero (· + value.int32Values.length) 0 value.floatValues c := by
  have hcreate := sized_create vendorIntegers vendorFloats
  rw [← h.integers, ← h.floats] at hcreate
  obtain ⟨⟨hsized, hfloats⟩, hintegers, hbits⟩ := run_integerCalls value.int32Values hcreate rfl
    (by rw [h.integers]; rfl)
  obtain ⟨⟨hsized', hintegers'⟩, hfloats', hbits'⟩ := run_floatCalls value.floatValues hsized
    hintegers (by rw [hfloats, h.floats]; rfl)
  rw [← Obd2SensorStore.run_append] at hsized' hintegers' hfloats'
  refine ⟨hsized', hintegers', hfloats', fun c => ?_⟩
  have hnone : bitAt (Obd2SensorStore.create vendorIntegers vendorFloats).getSensorsBitmask c =
      false := bitAt_replicate _ c
  have hboth := hbits' c
  rw [hbits c, hnone, ← Obd2SensorStore.run_append] at hboth
  simpa only [sensorStore, Bool.false_eq_true, false_or] using hboth

theorem length_generateDiagnosticBytes {mask : List UInt8}
    (h : generateDiagnosticBytes value = some mask) : mask.length = 13 := by
  obtain ⟨bytes, hintegers, hfloats⟩ := Option.bind_eq_some_iff.mp h
  rw [length_of_setBits hfloats, length_of_setBits hintegers]
  decide

/-- The generator marks the values that are not zero, if their bits are inside the bytes. -/
theorem generateDiagnosticBytes_spec
    (hinside : ∀ c, Marks 0 integerBit 0 value.int32Values c ∨
      Marks .zero floatBit 0 value.floatValues c → c / 8 < 13) :
    ∃ mask, generateDiagnosticBytes value = some mask ∧
      ∀ c, bitAt mask c = true ↔ Marks 0 integerBit 0 value.int32Values c ∨
        Marks .zero floatBit 0 value.floatValues c := by
  obtain ⟨bytes, hintegers, hlength, hbits⟩ := exists_setBits 0 integerBit 0 value.int32Values
    (List.replicate 13 0)
    fun c hc => by simpa using hinside c (Or.inl hc)
  obtain ⟨mask, hfloats, _, hmask⟩ := exists_setBits .zero floatBit 0 value.floatValues bytes
    fun c hc => by simpa [hlength] using hinside c (Or.inr hc)
  refine ⟨mask, Option.bind_eq_some_iff.mpr ⟨bytes, hintegers, hfloats⟩, fun c => ?_⟩
  rw [hmask c, hbits c, bitAt_replicate]
  simp only [Bool.false_eq_true, false_or]

end Masks

/-- The bits of all sensors of an event, in the generator. -/
def sensorBits (value : RawPropValues) : List Nat :=
  (List.range value.int32Values.length).map integerBit ++
    (List.range value.floatValues.length).map floatBit

section SystemSensors

variable {vendorFloats : Nat} {value : RawPropValues}

/-- Without vendor integer sensors the bits of the float sensors follow those of the integer
sensors. -/
theorem floatBit_eq (h : Assigns 0 vendorFloats value) (j : Nat) :
    floatBit j = value.int32Values.length + j := by
  rw [h.integers, floatBit, lastIntegerSensorIndex]
  omega

/-- At most one vendor float sensor has its bit inside the bytes too. -/
theorem marks_inside (h : Assigns 0 vendorFloats value) (hone : vendorFloats ≤ 1) {c : Nat}
    (hmarks : Marks 0 integerBit 0 value.int32Values c ∨
      Marks .zero floatBit 0 value.floatValues c) : c / 8 < 13 := by
  have hintegers := h.integers
  have hfloats := h.floats
  rw [lastIntegerSensorIndex] at hintegers
  rw [lastFloatSensorIndex] at hfloats
  rcases hmarks with hc | hc
  · obtain ⟨k, hk, hbit⟩ := exists_of_marks hc
    rw [hbit, integerBit]
    omega
  · obtain ⟨k, hk, rfl⟩ := exists_of_marks hc
    rw [floatBit_eq h]
    omega

/-- No two sensors share a bit of the store. -/
theorem nodup_sensorBits (h : Assigns 0 vendorFloats value) : (sensorBits value).Nodup := by
  refine List.nodup_append.mpr ⟨?_, ?_, fun a ha b hb => ?_⟩
  · exact List.nodup_range.map fun a b h => h
  · refine List.nodup_range.map fun a b hbits => ?_
    rw [floatBit_eq h, floatBit_eq h] at hbits
    exact Nat.add_left_cancel hbits
  · obtain ⟨i, hi, rfl⟩ := List.mem_map.mp ha
    obtain ⟨j, _, rfl⟩ := List.mem_map.mp hb
    rw [List.mem_range] at hi
    rw [floatBit_eq h, integerBit]
    omega

end SystemSensors

/-- The layout of the generator is that of the store. -/
structure SameLayout (numVendorIntegerSensors numVendorFloatSensors : Nat)
    (value : RawPropValues) : Prop where
  /-- No write is outside the mask, and the mask is the one of the store. -/
  mask : generateDiagnosticBytes value =
    some (sensorStore numVendorIntegerSensors numVendorFloatSensors value).getSensorsBitmask
  integer : ∀ mask i v, generateDiagnosticBytes value = some mask →
    value.int32Values[i]? = some v → integerBit i = i ∧ (bitAt mask i = true ↔ v ≠ 0)
  float : ∀ mask j v, generateDiagnosticBytes value = some mask →
    value.floatValues[j]? = some v → floatBit j = value.int32Values.length + j ∧
      (bitAt mask (value.int32Values.length + j) = true ↔ v ≠ .zero)
  distinct : (sensorBits value).Nodup

/-- The generator has the layout of the store without vendor integer sensors and with at most one
vendor float sensor, for which there is a bit left in the last byte. -/
theorem sameLayout_iff (numVendorIntegerSensors numVendorFloatSensors : Nat)
    (value : RawPropValues)
    (hassigns : Assigns numVendorIntegerSensors numVendorFloatSensors value) :
    SameLayout numVendorIntegerSensors numVendorFloatSensors value ↔
      numVendorIntegerSensors = 0 ∧ numVendorFloatSensors ≤ 1 := by
  obtain ⟨hsized, _, _, hstore⟩ := sensorStore_spec hassigns
  have hintegers := hassigns.integers
  have hfloats := hassigns.floats
  rw [lastIntegerSensorIndex] at hintegers
  rw [lastFloatSensorIndex] at hfloats
  constructor
  · rintro ⟨hmask, _, hfloat, _⟩
    have hbytes := length_generateDiagnosticBytes hmask
    rw [Obd2SensorStore.getSensorsBitmask, hsized.bytes] at hbytes
    have hfirst : 0 < value.floatValues.length := by omega
    have hbit := (hfloat _ 0 _ hmask (List.getElem?_eq_getElem hfirst)).1
    rw [floatBit, lastIntegerSensorIndex] at hbit
    omega
  · rintro ⟨rfl, hone⟩
    have hoffset : (· + value.int32Values.length) = floatBit := by
      funext i
      rw [floatBit_eq hassigns, Nat.add_comm]
    rw [hoffset] at hstore
    obtain ⟨mask, hmask, hbits⟩ :=
      generateDiagnosticBytes_spec fun c hc => marks_inside hassigns hone hc
    have hsame : mask = (sensorStore 0 numVendorFloatSensors value).getSensorsBitmask := by
      refine bytes_ext ?_ fun b => Bool.eq_iff_iff.mpr ((hbits b).trans (hstore b).symm)
      rw [length_generateDiagnosticBytes hmask, Obd2SensorStore.getSensorsBitmask, hsized.bytes]
      omega
    refine ⟨hsame ▸ hmask, fun mask' i v hmask' hv => ⟨rfl, ?_⟩,
      fun mask' j v hmask' hv => ⟨floatBit_eq hassigns j, ?_⟩, nodup_sensorBits hassigns⟩
    · obtain rfl : mask = mask' := Option.some.inj (hmask.symm.trans hmask')
      have hi := (List.getElem?_eq_some_iff.mp hv).1
      rw [hbits i, or_iff_left fun hc => ?_]
      · exact marks_bitOf_iff (Function.injective_id : Function.Injective integerBit) hv
      · obtain ⟨k, _, hk⟩ := exists_of_marks hc
        rw [floatBit_eq hassigns] at hk
        omega
    · obtain rfl : mask = mask' := Option.some.inj (hmask.symm.trans hmask')
      rw [← floatBit_eq hassigns, hbits, or_iff_right fun hc => ?_]
      · refine marks_bitOf_iff (fun a b h => ?_) hv
        rw [floatBit_eq hassigns, floatBit_eq hassigns] at h
        exact Nat.add_left_cancel h
      · obtain ⟨k, hk, hbit⟩ := exists_of_marks hc
        rw [floatBit_eq hassigns] at hbit
        unfold integerBit at hbit
        omega

section Example

/-- An event without vendor sensors in which each sensor has a value. -/
def systemEvent : RawPropValues where
  int32Values := List.replicate 32 1
  floatValues := List.replicate 71 (.ofInt 1)

theorem system_sensors_sameLayout : SameLayout 0 0 systemEvent :=
  (sameLayout_iff 0 0 systemEvent ⟨rfl, rfl⟩).mpr ⟨rfl, by decide⟩

/-- An event in which a vendor integer sensor and the first float sensor have a value. -/
def vendorEvent : RawPropValues where
  int32Values := List.replicate 32 0 ++ [1]
  floatValues := .ofInt 1 :: List.replicate 70 .zero

/-- The generator marks the two sensors with one bit, the store with two. -/
theorem vendor_sensors_collide : ¬SameLayout 1 0 vendorEvent := by
  intro h
  have hmask := h.mask
  revert hmask
  decide

end Example

end VhalCore.Generators
