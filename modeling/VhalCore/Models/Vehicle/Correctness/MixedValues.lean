import VhalCore.Models.Vehicle.Configs

/-!
# Mixed values of the vendor against their config array

The documentation of the check gives the number of elements of each kind as a sum of entries
of the config array. The check reads nine entries without asking how many there are, and a
count of zero bytes is no demand to it. The check meets its documentation on exactly the
inputs that do not get to either.
-/

namespace VhalCore

/-- A config array in the documented format: nine entries, no negative one, and flags that are
zero or one. -/
structure DocumentedArray (configArray : List Int) : Prop where
  nine_le : 9 ≤ configArray.length
  nonneg : ∀ n ∈ configArray, 0 ≤ n
  flags : ∀ i ∈ [1, 2, 4, 6], configArray.getD i 0 = 0 ∨ configArray.getD i 0 = 1

/-- The numbers of elements of a value are the documented sums. -/
structure HasDocumentedCounts (configArray : List Int) (value : RawPropValues) : Prop where
  int32 : (value.int32Values.length : Int) =
    configArray.getD 1 0 + configArray.getD 2 0 + configArray.getD 3 0
  int64 : (value.int64Values.length : Int) = configArray.getD 4 0 + configArray.getD 5 0
  float : (value.floatValues.length : Int) = configArray.getD 6 0 + configArray.getD 7 0
  bytes : (value.byteValues.length : Int) = configArray.getD 8 0

/-- The check has a result, and for an array in the documented format it is the documented
one. -/
structure ChecksAsDocumented (config : VehiclePropConfig) (value : VehiclePropValue) : Prop where
  inBounds : (checkPropValue value config).isSome
  exact : DocumentedArray config.configArray →
    (checkPropValue value config = some (.ok ()) ↔
      HasDocumentedCounts config.configArray value.value)

/-- The number of elements that flags and a size ask for. -/
def expectedCount (flags : List Int) (size : Int) : Nat :=
  (flags.countP (· = 1) + countOfConfig size) % 2 ^ 64

/-- The array has the entries that the comparisons get to: each comparison that succeeds needs
the entries of the next one. -/
def HasReadEntries (configArray : List Int) (value : RawPropValues) : Prop :=
  4 ≤ configArray.length ∧
    (value.int32Values.length =
        expectedCount [configArray.getD 1 0, configArray.getD 2 0] (configArray.getD 3 0) →
      6 ≤ configArray.length ∧
        (value.int64Values.length =
            expectedCount [configArray.getD 4 0] (configArray.getD 5 0) →
          8 ≤ configArray.length ∧
            (value.floatValues.length =
                expectedCount [configArray.getD 6 0] (configArray.getD 7 0) →
              9 ≤ configArray.length)))

/-- Where a documented array asks for no bytes and the other numbers of elements are the
documented ones, the value has no bytes. -/
def HasNoExtraBytes (configArray : List Int) (value : RawPropValues) : Prop :=
  DocumentedArray configArray →
    (value.int32Values.length : Int) =
      configArray.getD 1 0 + configArray.getD 2 0 + configArray.getD 3 0 →
    (value.int64Values.length : Int) = configArray.getD 4 0 + configArray.getD 5 0 →
    (value.floatValues.length : Int) = configArray.getD 6 0 + configArray.getD 7 0 →
    configArray.getD 8 0 = 0 → value.byteValues = []

section Counts

theorem countOfConfig_of_nonneg {n : Int} (h : 0 ≤ n) (hint : n < 2 ^ 31) :
    (countOfConfig n : Int) = n := by
  rw [countOfConfig, Int.emod_eq_of_lt h (by omega), Int.toNat_of_nonneg h]

/-- Flags that are zero or one count as they are. -/
theorem countP_flags {flags : List Int} (h : ∀ n ∈ flags, n = 0 ∨ n = 1) :
    (flags.countP (· = 1) : Int) = flags.sum := by
  induction flags with
  | nil => rfl
  | cons n flags ih =>
      have hrest := ih fun m hm => h m (List.mem_cons_of_mem _ hm)
      rw [List.countP_cons, List.sum_cons]
      rcases h n (List.mem_cons_self ..) with rfl | rfl
      · simpa using hrest
      · simp only [decide_true, if_true]
        push_cast
        omega

/-- In a documented array the expected count is the documented sum. -/
theorem expectedCount_of_documented {flags : List Int} {size : Int}
    (hflags : ∀ n ∈ flags, n = 0 ∨ n = 1) (hlength : flags.length ≤ 2) (hsize : 0 ≤ size)
    (hint : size < 2 ^ 31) : (expectedCount flags size : Int) = flags.sum + size := by
  have hcount := countP_flags hflags
  have hle := List.countP_le_length (l := flags) (p := fun n : Int => decide (n = 1))
  have hnat := countOfConfig_of_nonneg hsize hint
  rw [expectedCount, Nat.mod_eq_of_lt (by omega)]
  push_cast
  omega

theorem checkMixedCount_eq (flags : List Int) (size : Int) (got : Nat) :
    checkMixedCount flags size got =
      if got = expectedCount flags size then .ok ()
      else .error (.invalidMixedProperty got (expectedCount flags size)) := rfl

/-- Without a flag the expected count is that of the array. -/
theorem expectedCount_nil (size : Int) : expectedCount [] size = countOfConfig size := by
  rw [expectedCount, List.countP_nil, Nat.zero_add]
  refine Nat.mod_eq_of_lt ?_
  have := Int.emod_lt_of_pos size (show (0 : Int) < 2 ^ 64 by decide)
  unfold countOfConfig
  omega

end Counts

section Check

variable {configArray : List Int} {value : VehiclePropValue} {config : VehiclePropConfig}

theorem checkPropValue_of_mixed (config : VehiclePropConfig)
    (htype : getPropType value.prop = some .mixed) (hvendor : isVendorProp value.prop) :
    checkPropValue value config = checkVendorMixedPropValue value config := by
  rw [checkPropValue, htype]
  exact if_pos hvendor

/-- The check has a result if and only if it reads no entry beyond the end. -/
theorem checkVendorMixedPropValue_isSome_iff :
    (checkVendorMixedPropValue value config).isSome ↔
      HasReadEntries config.configArray value.value := by
  rw [checkVendorMixedPropValue, HasReadEntries]
  generalize config.configArray = configArray
  rcases configArray with _ | ⟨a0, _ | ⟨a1, _ | ⟨a2, _ | ⟨a3, rest⟩⟩⟩⟩
  iterate 4 simp
  rcases eq_or_ne value.value.int32Values.length (expectedCount [a1, a2] a3) with h32 | h32
  swap
  · simp [checkMixedCount_eq, h32]
  rcases rest with _ | ⟨a4, _ | ⟨a5, rest⟩⟩
  iterate 2 simp [checkMixedCount_eq, h32]
  rcases eq_or_ne value.value.int64Values.length (expectedCount [a4] a5) with h64 | h64
  swap
  · simp [checkMixedCount_eq, h32, h64]
  rcases rest with _ | ⟨a6, _ | ⟨a7, rest⟩⟩
  iterate 2 simp [checkMixedCount_eq, h32, h64]
  rcases eq_or_ne value.value.floatValues.length (expectedCount [a6] a7) with hf | hf
  swap
  · simp [checkMixedCount_eq, h32, h64, hf]
  rcases rest with _ | ⟨a8, rest⟩
  · simp [checkMixedCount_eq, h32, h64, hf]
  · by_cases h8 : countOfConfig a8 = 0 <;> simp [checkMixedCount_eq, h32, h64, hf, h8]

/-- With nine entries the check accepts the expected counts, but for the bytes if none are
expected. -/
theorem checkVendorMixedPropValue_ok_iff (hnine : 9 ≤ config.configArray.length) :
    checkVendorMixedPropValue value config = some (.ok ()) ↔
      value.value.int32Values.length = expectedCount
          [config.configArray.getD 1 0, config.configArray.getD 2 0]
          (config.configArray.getD 3 0) ∧
        value.value.int64Values.length = expectedCount [config.configArray.getD 4 0]
          (config.configArray.getD 5 0) ∧
        value.value.floatValues.length = expectedCount [config.configArray.getD 6 0]
          (config.configArray.getD 7 0) ∧
        (countOfConfig (config.configArray.getD 8 0) = 0 ∨
          value.value.byteValues.length = countOfConfig (config.configArray.getD 8 0)) := by
  rw [checkVendorMixedPropValue]
  generalize config.configArray = configArray at hnine ⊢
  match configArray, hnine with
  | _ :: a1 :: a2 :: a3 :: a4 :: a5 :: a6 :: a7 :: a8 :: _, _ =>
      simp only [List.getElem?_cons_succ, List.getElem?_cons_zero, List.getD_cons_succ,
        List.getD_cons_zero, checkMixedCount_eq, expectedCount_nil, Option.bind_eq_bind,
        Option.bind_some]
      split_ifs with h32 h64 hf h8 hb <;> simp_all

end Check

section Documented

variable {configArray : List Int}

namespace DocumentedArray

theorem getD_bounds (h : DocumentedArray configArray) (hint32 : ∀ n ∈ configArray, n < 2 ^ 31)
    {i : Nat} (hi : i < 9) : 0 ≤ configArray.getD i 0 ∧ configArray.getD i 0 < 2 ^ 31 := by
  have hlt : i < configArray.length := lt_of_lt_of_le hi h.nine_le
  rw [List.getD_eq_getElem?_getD, List.getElem?_eq_getElem hlt, Option.getD_some]
  exact ⟨h.nonneg _ (List.getElem_mem hlt), hint32 _ (List.getElem_mem hlt)⟩

/-- The number of integers is the documented sum. -/
theorem int32Count (h : DocumentedArray configArray) (hint32 : ∀ n ∈ configArray, n < 2 ^ 31)
    (length : Nat) :
    length = expectedCount [configArray.getD 1 0, configArray.getD 2 0]
        (configArray.getD 3 0) ↔
      (length : Int) = configArray.getD 1 0 + configArray.getD 2 0 + configArray.getD 3 0 := by
  obtain ⟨hnonneg, hlt⟩ := h.getD_bounds hint32 (show 3 < 9 by decide)
  have hflags : ∀ n ∈ [configArray.getD 1 0, configArray.getD 2 0], n = 0 ∨ n = 1 := by
    intro n hn
    rcases List.mem_pair.mp hn with rfl | rfl
    · exact h.flags 1 (by decide)
    · exact h.flags 2 (by decide)
  have hcount := expectedCount_of_documented hflags (le_refl 2) hnonneg hlt
  rw [List.sum_cons, List.sum_singleton] at hcount
  rw [← hcount]
  exact Int.ofNat_inj.symm

/-- The number of elements of any other kind is the documented sum. -/
theorem flaggedCount (h : DocumentedArray configArray)
    (hint32 : ∀ n ∈ configArray, n < 2 ^ 31) {i j : Nat} (hi : i ∈ [1, 2, 4, 6]) (hj : j < 9)
    (length : Nat) :
    length = expectedCount [configArray.getD i 0] (configArray.getD j 0) ↔
      (length : Int) = configArray.getD i 0 + configArray.getD j 0 := by
  obtain ⟨hnonneg, hlt⟩ := h.getD_bounds hint32 hj
  have hflags : ∀ n ∈ [configArray.getD i 0], n = 0 ∨ n = 1 := by
    intro n hn
    rw [List.mem_singleton.mp hn]
    exact h.flags i hi
  have hcount := expectedCount_of_documented hflags (Nat.le_succ 1) hnonneg hlt
  rw [List.sum_singleton] at hcount
  rw [← hcount]
  exact Int.ofNat_inj.symm

theorem byteCount (h : DocumentedArray configArray) (hint32 : ∀ n ∈ configArray, n < 2 ^ 31) :
    (countOfConfig (configArray.getD 8 0) : Int) = configArray.getD 8 0 := by
  obtain ⟨hnonneg, hlt⟩ := h.getD_bounds hint32 (show 8 < 9 by decide)
  exact countOfConfig_of_nonneg hnonneg hlt

/-- With a documented array the check accepts the documented counts, but for the bytes if the
array asks for none. -/
theorem accepts_iff {value : VehiclePropValue} {config : VehiclePropConfig}
    (h : DocumentedArray config.configArray) (hint32 : ∀ n ∈ config.configArray, n < 2 ^ 31) :
    checkVendorMixedPropValue value config = some (.ok ()) ↔
      (value.value.int32Values.length : Int) = config.configArray.getD 1 0 +
          config.configArray.getD 2 0 + config.configArray.getD 3 0 ∧
        (value.value.int64Values.length : Int) =
          config.configArray.getD 4 0 + config.configArray.getD 5 0 ∧
        (value.value.floatValues.length : Int) =
          config.configArray.getD 6 0 + config.configArray.getD 7 0 ∧
        (config.configArray.getD 8 0 = 0 ∨
          (value.value.byteValues.length : Int) = config.configArray.getD 8 0) := by
  have hbyte := h.byteCount hint32
  rw [checkVendorMixedPropValue_ok_iff h.nine_le, h.int32Count hint32,
    h.flaggedCount hint32 (by decide) (by decide), h.flaggedCount hint32 (by decide) (by decide)]
  have hzero : countOfConfig (config.configArray.getD 8 0) = 0 ↔
      config.configArray.getD 8 0 = 0 := by omega
  have hlength : value.value.byteValues.length = countOfConfig (config.configArray.getD 8 0) ↔
      (value.value.byteValues.length : Int) = config.configArray.getD 8 0 := by omega
  rw [hzero, hlength]

end DocumentedArray

end Documented

/-- The check of a mixed value of the vendor stays within the config array and is as documented
if and only if the array has the entries that the comparisons get to, and the value has no
bytes where a documented array asks for none. -/
theorem checksAsDocumented_iff (value : VehiclePropValue) (config : VehiclePropConfig)
    (htype : getPropType value.prop = some .mixed) (hvendor : isVendorProp value.prop)
    (hint32 : ∀ n ∈ config.configArray, n < 2 ^ 31) :
    ChecksAsDocumented config value ↔
      HasReadEntries config.configArray value.value ∧
        HasNoExtraBytes config.configArray value.value := by
  have heq := checkPropValue_of_mixed config htype hvendor
  constructor
  · intro h
    have hin := h.inBounds
    rw [heq, checkVendorMixedPropValue_isSome_iff] at hin
    refine ⟨hin, fun hdocumented h32 h64 hf h8 => ?_⟩
    have haccept := (hdocumented.accepts_iff hint32).mpr ⟨h32, h64, hf, Or.inl h8⟩
    have hcounts := (h.exact hdocumented).mp (heq.trans haccept)
    have hlength := hcounts.bytes
    rw [h8] at hlength
    exact List.length_eq_zero_iff.mp (Int.ofNat_eq_zero.mp hlength)
  · rintro ⟨hin, hextra⟩
    refine ⟨?_, fun hdocumented => ?_⟩
    · rw [heq]
      exact checkVendorMixedPropValue_isSome_iff.mpr hin
    · rw [heq, hdocumented.accepts_iff hint32]
      constructor
      · rintro ⟨h32, h64, hf, h8 | hb⟩
        · have hnil := hextra hdocumented h32 h64 hf h8
          refine ⟨h32, h64, hf, ?_⟩
          rw [hnil, h8]
          rfl
        · exact ⟨h32, h64, hf, hb⟩
      · intro hcounts
        exact ⟨hcounts.int32, hcounts.int64, hcounts.float, Or.inr hcounts.bytes⟩

section Example

/-- A mixed property of the vendor. -/
def mixedProp : Int := 0x21e01111

/-- A configuration of the mixed property. -/
def mixedConfig (configArray : List Int) : VehiclePropConfig :=
  { prop := mixedProp, configArray := configArray }

/-- A value of the mixed property. -/
def mixedValue (value : RawPropValues) : VehiclePropValue := { prop := mixedProp, value := value }

/-- An integer and two bytes, which the array asks for. -/
theorem intAndBytes_checked_asDocumented :
    ChecksAsDocumented (mixedConfig [0, 0, 1, 0, 0, 0, 0, 0, 2])
      (mixedValue { int32Values := [7], byteValues := [1, 2] }) := by
  refine (checksAsDocumented_iff _ _ (by decide) (by decide) (by decide)).mpr ⟨?_, ?_⟩
  · exact ⟨by decide, fun _ => ⟨by decide, fun _ => ⟨by decide, fun _ => by decide⟩⟩⟩
  · intro _ _ _ _ h8
    exact absurd h8 (by decide)

/-- No config array at all, and an array that asks for no bytes with a value that has one. -/
theorem not_checked_asDocumented :
    checkPropValue (mixedValue { int32Values := [7] }) (mixedConfig []) = none ∧
      checkPropValue (mixedValue { int32Values := [7], byteValues := [1] })
        (mixedConfig [0, 0, 1, 0, 0, 0, 0, 0, 0]) = some (.ok ()) ∧
      ¬ ChecksAsDocumented (mixedConfig []) (mixedValue { int32Values := [7] }) ∧
      ¬ ChecksAsDocumented (mixedConfig [0, 0, 1, 0, 0, 0, 0, 0, 0])
        (mixedValue { int32Values := [7], byteValues := [1] }) := by
  have hnone : checkPropValue (mixedValue { int32Values := [7] }) (mixedConfig []) = none := by
    decide
  have hok : checkPropValue (mixedValue { int32Values := [7], byteValues := [1] })
      (mixedConfig [0, 0, 1, 0, 0, 0, 0, 0, 0]) = some (.ok ()) := by decide
  refine ⟨hnone, hok, fun h => ?_, fun h => ?_⟩
  · have hin := h.inBounds
    rw [hnone] at hin
    exact absurd hin (by decide)
  · have hbytes := ((h.exact ⟨by decide, by decide, by decide⟩).mp hok).bytes
    exact absurd hbytes (by decide)

end Example

end VhalCore
