import VhalCore.Core.RoundedQuotient
import VhalCore.Models.FakeHardware.Abstract.HvacSuggestion
import VhalCore.Models.FakeHardware.Native.SetValue

/-!
# Suggested temperatures

In exact arithmetic the two suggestions are at the same step of the two scales. The one in the
unit of the request is a temperature of the scale that is nearest to the clamped request, and a
suggestion that is requested in its unit leads to the same two suggestions.

The code computes the number of increments in single precision. For scales that are not
astronomically long the quotient is rounded to the same step as in exact arithmetic, and the
suggestions of the exact arithmetic are written as tenths.
-/

namespace VhalCore.FakeHardware

/-- A scale with some number of steps from the lowest to the highest temperature. -/
structure TemperatureScale.Divided (scale : TemperatureScale) (steps : Nat) : Prop where
  increment : 0 < scale.increment
  range : scale.maxTemp = scale.temperatureAt steps

/-- Two scales with the same number of steps. -/
def TemperatureScales.Divided (scales : TemperatureScales) (steps : Nat) : Prop :=
  ∀ unit, (scales.scale unit).Divided steps

/-- What is expected of the suggestions for a request. -/
structure SuggestionFor (configArray : List Int) (scales : TemperatureScales) (steps : Nat)
    (requestedTemp : Int) (unit : TemperatureUnit) (suggested : TemperatureUnit → Int) :
    Prop where
  inRange : ∀ u, (scales.scale u).minTemp ≤ suggested u ∧ suggested u ≤ (scales.scale u).maxTemp
  sameStep : ∃ step : Nat, step ≤ steps ∧ ∀ u, suggested u = (scales.scale u).temperatureAt step
  nearest : ∀ step : Nat, step ≤ steps →
    |(scales.scale unit).clamp requestedTemp - suggested unit| ≤
      |(scales.scale unit).clamp requestedTemp - (scales.scale unit).temperatureAt step|
  again : ∀ u, exactSuggestion configArray (suggested u) u = .ok suggested

namespace TemperatureScale

variable {scale : TemperatureScale} {steps : Nat}

theorem temperatureAt_mono (h : scale.Divided steps) {m n : Int} (hmn : m ≤ n) :
    scale.temperatureAt m ≤ scale.temperatureAt n := by
  have hmul := Int.mul_le_mul_of_nonneg_left hmn h.increment.le
  unfold temperatureAt
  omega

theorem minTemp_eq (scale : TemperatureScale) : scale.minTemp = scale.temperatureAt 0 := by
  rw [temperatureAt, Int.mul_zero, Int.add_zero]

/-- The clamped temperature is on the scale. -/
theorem clamp_bounds (h : scale.Divided steps) (requestedTemp : Int) :
    scale.minTemp ≤ scale.clamp requestedTemp ∧ scale.clamp requestedTemp ≤ scale.maxTemp := by
  have hrange : scale.minTemp ≤ scale.maxTemp := by
    rw [h.range]
    conv_lhs => rw [minTemp_eq]
    exact temperatureAt_mono h (Int.natCast_nonneg steps)
  unfold clamp
  omega

theorem clamp_of_bounds {temp : Int} (hmin : scale.minTemp ≤ temp) (hmax : temp ≤ scale.maxTemp) :
    scale.clamp temp = temp := by
  unfold clamp
  omega

/-- The rounded step is one of the steps. -/
theorem numIncrements_bounds (h : scale.Divided steps) (requestedTemp : Int) :
    0 ≤ scale.numIncrements requestedTemp ∧ scale.numIncrements requestedTemp ≤ steps := by
  obtain ⟨hmin, hmax⟩ := clamp_bounds h requestedTemp
  obtain ⟨hle, hlt⟩ := roundHalfAway_bounds
    (a := scale.clamp requestedTemp - scale.minTemp) (by omega) h.increment
  have hrange := h.range
  have hpos := h.increment
  rw [temperatureAt] at hrange
  rw [← numIncrements] at hle hlt
  constructor
  · by_contra hneg
    have hmul : scale.increment * scale.numIncrements requestedTemp ≤ scale.increment * (-1) :=
      Int.mul_le_mul_of_nonneg_left (by omega) hpos.le
    omega
  · by_contra hbig
    have hmul : scale.increment * (steps + 1) ≤
        scale.increment * scale.numIncrements requestedTemp :=
      Int.mul_le_mul_of_nonneg_left (by omega) hpos.le
    rw [Int.mul_add] at hmul
    omega

/-- No temperature of the scale is nearer to the clamped one than the suggested one. -/
theorem nearest (h : scale.Divided steps) (requestedTemp step : Int) :
    |scale.clamp requestedTemp - scale.temperatureAt (scale.numIncrements requestedTemp)| ≤
      |scale.clamp requestedTemp - scale.temperatureAt step| := by
  obtain ⟨hmin, _⟩ := clamp_bounds h requestedTemp
  obtain ⟨hle, hlt⟩ := roundHalfAway_bounds
    (a := scale.clamp requestedTemp - scale.minTemp) (by omega) h.increment
  have hpos := h.increment
  rw [← numIncrements] at hle hlt
  simp only [temperatureAt]
  rcases lt_trichotomy step (scale.numIncrements requestedTemp) with hless | heq | hmore
  · have hmul : scale.increment * (step + 1) ≤
        scale.increment * scale.numIncrements requestedTemp :=
      Int.mul_le_mul_of_nonneg_left (by omega) hpos.le
    rw [Int.mul_add] at hmul
    refine le_trans ?_ (le_abs_self _)
    rw [abs_le]
    omega
  · rw [heq]
  · have hmul : scale.increment * (scale.numIncrements requestedTemp + 1) ≤
        scale.increment * step :=
      Int.mul_le_mul_of_nonneg_left (by omega) hpos.le
    rw [Int.mul_add] at hmul
    refine le_trans ?_ (neg_le_abs _)
    rw [abs_le]
    omega

/-- A temperature of the scale is at its own step. -/
theorem numIncrements_temperatureAt (h : scale.Divided steps) {step : Int} (hstep : 0 ≤ step)
    (hsteps : step ≤ steps) : scale.numIncrements (scale.temperatureAt step) = step := by
  have hmin := temperatureAt_mono h hstep
  have hmax := temperatureAt_mono h hsteps
  rw [← minTemp_eq] at hmin
  rw [← h.range] at hmax
  rw [numIncrements, clamp_of_bounds hmin hmax, temperatureAt, add_sub_cancel_left]
  exact roundHalfAway_mul hstep h.increment

end TemperatureScale

/-- Every request leads to the suggestions that are expected for it. -/
theorem exactSuggestion_for {configArray : List Int} {scales : TemperatureScales} {steps : Nat}
    (hconfig : TemperatureScales.ofConfigArray configArray = .ok scales)
    (h : scales.Divided steps) (requestedTemp : Int) (unit : TemperatureUnit) :
    ∃ suggested, exactSuggestion configArray requestedTemp unit = .ok suggested ∧
      SuggestionFor configArray scales steps requestedTemp unit suggested := by
  have hexact (temp : Int) (u : TemperatureUnit) :
      exactSuggestion configArray temp u = .ok (scales.suggestion temp u) := by
    rw [exactSuggestion, hconfig]
    rfl
  obtain ⟨hzero, hsteps⟩ := TemperatureScale.numIncrements_bounds (h unit) requestedTemp
  refine ⟨_, hexact requestedTemp unit, ?_⟩
  constructor
  · intro u
    have hmin := TemperatureScale.temperatureAt_mono (h u) hzero
    have hmax := TemperatureScale.temperatureAt_mono (h u) hsteps
    rw [← TemperatureScale.minTemp_eq] at hmin
    rw [← (h u).range] at hmax
    exact ⟨hmin, hmax⟩
  · refine ⟨((scales.scale unit).numIncrements requestedTemp).toNat, by omega, fun u => ?_⟩
    rw [Int.toNat_of_nonneg hzero]
    rfl
  · intro step _
    exact TemperatureScale.nearest (h unit) requestedTemp step
  · intro u
    have hsame := TemperatureScale.numIncrements_temperatureAt (h u) hzero hsteps
    rw [hexact]
    congr 1
    funext v
    simp only [TemperatureScales.suggestion, hsame]

section Example

/-- Sixteen to twenty-eight degrees by halves in Celsius, and sixty to eighty-four degrees in
Fahrenheit. -/
def sampleArray : List Int := [160, 280, 5, 600, 840, 10]

/-- Degrees from 16 to 28 by halves, and from 60 to 84 by ones. -/
def sampleScales : TemperatureScales := ⟨⟨160, 280, 5⟩, ⟨600, 840, 10⟩⟩

theorem sample_suggestion :
    ∃ suggested, exactSuggestion sampleArray 213 .celsius = .ok suggested ∧
      SuggestionFor sampleArray sampleScales 24 213 .celsius suggested :=
  exactSuggestion_for rfl (fun u => by cases u <;> exact ⟨by decide, by decide⟩) 213 .celsius

end Example

section SinglePrecision

open PropertyState

/-- A scale on which single precision is enough. -/
structure TemperatureScale.Small (scale : TemperatureScale) : Prop where
  increment : 0 < scale.increment
  increment_lt : scale.increment < 2 ^ 24
  range : scale.minTemp ≤ scale.maxTemp
  range_lt : scale.maxTemp - scale.minTemp < 2 ^ 23

/-- The number of increments is that of the exact arithmetic. -/
theorem getHvacTempNumIncrements_eq {scale : TemperatureScale} (h : scale.Small)
    (requestedTemp : Int) :
    getHvacTempNumIncrements requestedTemp scale.minTemp scale.maxTemp scale.increment =
      .ok (scale.numIncrements requestedTemp) := by
  obtain ⟨hpos, hinc, hrange, hlt⟩ := h
  have hclamp : 0 ≤ scale.clamp requestedTemp - scale.minTemp ∧
      scale.clamp requestedTemp - scale.minTemp < 2 ^ 23 := by
    unfold TemperatureScale.clamp
    omega
  obtain ⟨a, ha⟩ := Int.eq_ofNat_of_zero_le hclamp.1
  obtain ⟨d, hd⟩ := Int.eq_ofNat_of_zero_le hpos.le
  have hround : scale.numIncrements requestedTemp = ((2 * a + d) / (2 * d) : Nat) := by
    rw [TemperatureScale.numIncrements, roundHalfAway_div hclamp.1 hpos, ha, hd]
    push_cast
    rfl
  have hsmall : (2 * a + d) / (2 * d) < 2 ^ 24 := by
    rw [Nat.div_lt_iff_lt_mul (by omega)]
    omega
  rw [getHvacTempNumIncrements, ← TemperatureScale.clamp, ha, hd]
  simp only [Binary32.round_div_ofInt (a := a) (d := d) (by omega) (by omega) (by omega)]
  have hnonneg : (-2 ^ 31 : Int) ≤ ((2 * a + d) / (2 * d) : Nat) :=
    le_trans (by decide) (Int.natCast_nonneg _)
  rw [Binary32.toInt_ofInt hsmall hnonneg (by omega), hround]

/-- The number that stands for a unit in the request. -/
def TemperatureUnit.toFloat : TemperatureUnit → Binary32
  | .celsius => .ofInt 0x30
  | .fahrenheit => .ofInt 0x31

theorem TemperatureUnit.toFloat_eq_celsius (unit : TemperatureUnit) :
    unit.toFloat.eq (.ofInt 0x30) = decide (unit = .celsius) := by
  cases unit <;> decide

/-- The config array starts with the two scales. -/
theorem TemperatureScales.ofConfigArray_eq {configArray : List Int} {scales : TemperatureScales}
    (h : TemperatureScales.ofConfigArray configArray = .ok scales) :
    ∃ rest, configArray = scales.celsius.minTemp :: scales.celsius.maxTemp ::
      scales.celsius.increment :: scales.fahrenheit.minTemp :: scales.fahrenheit.maxTemp ::
        scales.fahrenheit.increment :: rest := by
  match configArray, h with
  | _ :: _ :: _ :: _ :: _ :: _ :: rest, h =>
      cases h
      exact ⟨rest, rfl⟩

/-- The suggestions replace the last two elements of the request. -/
theorem updateHvacTemperatureValueSuggestionInput_eq {configArray : List Int}
    {scales : TemperatureScales}
    (hconfig : TemperatureScales.ofConfigArray configArray = .ok scales)
    (hsmall : ∀ unit, (scales.scale unit).Small) {requested x y : Binary32} {requestedTemp : Int}
    (hrequest : (requested.mul (.ofInt 10)).toInt (-2 ^ 31) (2 ^ 31 - 1) = some requestedTemp)
    (unit : TemperatureUnit) :
    updateHvacTemperatureValueSuggestionInput configArray [requested, unit.toFloat, x, y] =
      .ok [requested, unit.toFloat,
        (Binary32.ofInt (scales.suggestion requestedTemp unit .celsius)).div (.ofInt 10),
        (Binary32.ofInt (scales.suggestion requestedTemp unit .fahrenheit)).div (.ofInt 10)] := by
  obtain ⟨rest, rfl⟩ := TemperatureScales.ofConfigArray_eq hconfig
  have hcelsius := getHvacTempNumIncrements_eq (hsmall .celsius) requestedTemp
  have hfahrenheit := getHvacTempNumIncrements_eq (hsmall .fahrenheit) requestedTemp
  simp only [TemperatureScales.scale] at hcelsius hfahrenheit
  have hunit := unit.toFloat_eq_celsius
  cases unit with
  | celsius =>
      simp only [updateHvacTemperatureValueSuggestionInput, elementAt, bind, Except.bind,
        List.getElem?_cons_zero, List.getElem?_cons_succ, hrequest, hunit, decide_true, if_true,
        hcelsius]
      rfl
  | fahrenheit =>
      simp only [updateHvacTemperatureValueSuggestionInput, elementAt, bind, Except.bind,
        List.getElem?_cons_zero, List.getElem?_cons_succ, hrequest, hunit, hfahrenheit]
      rfl

end SinglePrecision

end VhalCore.FakeHardware
