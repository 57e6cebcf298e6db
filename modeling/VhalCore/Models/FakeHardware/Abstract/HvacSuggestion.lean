import Mathlib.Data.Rat.Floor
import Mathlib.Tactic.FieldSimp
import VhalCore.Models.FakeHardware.Native.FakeUserHal

/-!
# Suggested temperatures in exact arithmetic

A temperature is a number of tenths of a degree. The config of the temperature has a scale for
each of the two units: a lowest and a highest temperature and an increment. A request is
clamped to the scale of its unit and rounded to an increment, and the same number of increments
is suggested in both units.
-/

namespace VhalCore.FakeHardware

/-- The nearest integer, halves away from zero. -/
def roundHalfAway (q : ℚ) : Int := if 0 ≤ q then ⌊q + 1 / 2⌋ else ⌈q - 1 / 2⌉

/-- The rounded quotient of a number by an increment, in integers. -/
theorem roundHalfAway_div {a d : Int} (ha : 0 ≤ a) (hd : 0 < d) :
    roundHalfAway ((a : ℚ) / d) = (2 * a + d) / (2 * d) := by
  lift d to ℕ using hd.le
  have hpos : (0 : ℚ) < d := by exact_mod_cast hd
  have hquotient : (0 : ℚ) ≤ a / ((d : Int) : ℚ) :=
    div_nonneg (by exact_mod_cast ha) (by exact_mod_cast hd.le)
  have hsum : (a : ℚ) / ((d : Int) : ℚ) + 1 / 2 = ((2 * a + d : Int) : ℚ) / ((2 * d : ℕ) : ℚ) := by
    push_cast
    field_simp
  rw [roundHalfAway, if_pos hquotient, hsum, Rat.floor_intCast_div_natCast]
  push_cast
  rfl

/-- The step to which a number is rounded is off by at most half an increment. -/
theorem roundHalfAway_bounds {a d : Int} (ha : 0 ≤ a) (hd : 0 < d) :
    2 * (d * roundHalfAway ((a : ℚ) / d)) ≤ 2 * a + d ∧
      2 * a < 2 * (d * roundHalfAway ((a : ℚ) / d)) + d := by
  rw [roundHalfAway_div ha hd]
  have hmod := Int.mul_ediv_add_emod (2 * a + d) (2 * d)
  have hnonneg := Int.emod_nonneg (2 * a + d) (by omega : 2 * d ≠ 0)
  have hlt := Int.emod_lt_of_pos (2 * a + d) (by omega : 0 < 2 * d)
  rw [Int.mul_assoc] at hmod
  omega

/-- A multiple of the increment is rounded to itself. -/
theorem roundHalfAway_mul {n d : Int} (hn : 0 ≤ n) (hd : 0 < d) :
    roundHalfAway (((d * n : Int) : ℚ) / d) = n := by
  rw [roundHalfAway_div (Int.mul_nonneg hd.le hn) hd]
  have hsum : 2 * (d * n) + d = d + 2 * d * n := by ring
  rw [hsum, Int.add_mul_ediv_left _ _ (by omega), Int.ediv_eq_zero_of_lt hd.le (by omega),
    Int.zero_add]

/-- The two units of a temperature. -/
inductive TemperatureUnit where
  | celsius
  | fahrenheit
  deriving DecidableEq, Repr

/-- The temperatures of a unit. -/
structure TemperatureScale where
  minTemp : Int
  maxTemp : Int
  increment : Int
  deriving DecidableEq, Repr

namespace TemperatureScale

/-- The requested temperature within the scale. -/
def clamp (scale : TemperatureScale) (requestedTemp : Int) : Int :=
  min (max requestedTemp scale.minTemp) scale.maxTemp

/-- The number of increments from the lowest temperature to the requested one. -/
def numIncrements (scale : TemperatureScale) (requestedTemp : Int) : Int :=
  roundHalfAway (((scale.clamp requestedTemp - scale.minTemp : Int) : ℚ) / scale.increment)

/-- The temperature at a step of the scale. -/
def temperatureAt (scale : TemperatureScale) (step : Int) : Int :=
  scale.minTemp + scale.increment * step

end TemperatureScale

/-- The scales of both units. -/
structure TemperatureScales where
  celsius : TemperatureScale
  fahrenheit : TemperatureScale
  deriving DecidableEq, Repr

namespace TemperatureScales

/-- The scales as the config array lists them. -/
def ofConfigArray (configArray : List Int) : Except Fault TemperatureScales := do
  let minTempInCelsius ← elementAt configArray 0
  let maxTempInCelsius ← elementAt configArray 1
  let incrementInCelsius ← elementAt configArray 2
  let minTempInFahrenheit ← elementAt configArray 3
  let maxTempInFahrenheit ← elementAt configArray 4
  let incrementInFahrenheit ← elementAt configArray 5
  return {
    celsius := ⟨minTempInCelsius, maxTempInCelsius, incrementInCelsius⟩
    fahrenheit := ⟨minTempInFahrenheit, maxTempInFahrenheit, incrementInFahrenheit⟩ }

/-- The scale of a unit. -/
def scale (scales : TemperatureScales) : TemperatureUnit → TemperatureScale
  | .celsius => scales.celsius
  | .fahrenheit => scales.fahrenheit

/-- The suggested temperature in each unit. -/
def suggestion (scales : TemperatureScales) (requestedTemp : Int) (unit : TemperatureUnit) :
    TemperatureUnit → Int :=
  let numIncrements := (scales.scale unit).numIncrements requestedTemp
  fun unit => (scales.scale unit).temperatureAt numIncrements

end TemperatureScales

/-- The suggestion for a config array. -/
def exactSuggestion (configArray : List Int) (requestedTemp : Int) (unit : TemperatureUnit) :
    Except Fault (TemperatureUnit → Int) := do
  let scales ← TemperatureScales.ofConfigArray configArray
  return scales.suggestion requestedTemp unit

end VhalCore.FakeHardware
