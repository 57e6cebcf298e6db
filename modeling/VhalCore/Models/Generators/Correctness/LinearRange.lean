import Mathlib.Algebra.Order.Archimedean.Basic
import Mathlib.Tactic.Linarith
import VhalCore.Core.Outcomes
import VhalCore.Models.Generators.Native.LinearFakeValueGenerator

/-!
# The range of the linear generator

A value that reaches the end of the range is set back once, by the width of the range. This keeps
it in the range for an increment between zero and the width. A value that falls is never set
back, and a value that grows by more than the width is not set back enough.
-/

namespace VhalCore.Generators

namespace GeneratorCfg

/-- The value after one in the current one's place. -/
def valueAfter (cfg : GeneratorCfg) (value : ℚ) : ℚ :=
  { cfg with currentValue := value }.advanceValue

/-- The value that event `n` is made from. -/
def valueAt (cfg : GeneratorCfg) (n : Nat) : ℚ := cfg.valueAfter^[n] cfg.currentValue

/-- A value lies in the range of the configuration. -/
def InRange (cfg : GeneratorCfg) (value : ℚ) : Prop :=
  cfg.middleValue - cfg.dispersion ≤ value ∧ value < cfg.middleValue + cfg.dispersion

/-- Event `n` of successive calls has the payload for value `n`. -/
def Produces (cfg : GeneratorCfg) : Prop :=
  ∀ times events, cfg.nextEvents times = .ok events → ∀ n event, events[n]? = some event →
    { cfg with currentValue := cfg.valueAt n }.eventValue = .ok event.value

/-- All values are in the range, and consecutive ones differ by the increment modulo its width. -/
structure StaysInRange (cfg : GeneratorCfg) : Prop where
  inRange : ∀ n, cfg.InRange (cfg.valueAt n)
  consecutive : ∀ n, ∃ k : ℤ,
    cfg.valueAt (n + 1) - cfg.valueAt n = cfg.increment + k * (2 * cfg.dispersion)

variable {cfg : GeneratorCfg}

theorem valueAt_succ (cfg : GeneratorCfg) (n : Nat) :
    cfg.valueAt (n + 1) = cfg.valueAfter (cfg.valueAt n) :=
  Function.iterate_succ_apply' ..

theorem valueAfter_eq (cfg : GeneratorCfg) (value : ℚ) :
    cfg.valueAfter value =
      if value + cfg.increment ≥ cfg.middleValue + cfg.dispersion then
        value + cfg.increment - 2 * cfg.dispersion
      else value + cfg.increment := rfl

/-- A generator produces events, each of the current value. -/
theorem produces (cfg : GeneratorCfg) : cfg.Produces := by
  intro times
  induction times generalizing cfg with
  | nil =>
      intro events h n event hn
      cases h
      cases hn
  | cons now times ih =>
      intro events h n event hn
      obtain ⟨⟨first, next⟩, hfirst, hrest⟩ := bind_eq_ok_iff.mp h
      obtain ⟨rest, hevents, hcons⟩ := bind_eq_ok_iff.mp hrest
      obtain ⟨value, hvalue, htime⟩ := bind_eq_ok_iff.mp hfirst
      obtain ⟨timestamp, _, hmade⟩ := bind_eq_ok_iff.mp htime
      cases hmade
      cases hcons
      cases n with
      | zero =>
          cases hn
          exact hvalue
      | succ n => exact ih _ rest hevents n event hn

/-- A step adds the increment, and takes the width of the range away at most once. -/
theorem consecutive_valueAt (cfg : GeneratorCfg) (n : Nat) : ∃ k : ℤ,
    cfg.valueAt (n + 1) - cfg.valueAt n = cfg.increment + k * (2 * cfg.dispersion) := by
  rw [valueAt_succ, valueAfter_eq]
  split
  · exact ⟨-1, by push_cast; ring⟩
  · exact ⟨0, by push_cast; ring⟩

/-- A value in the range is followed by one in the range. -/
theorem InRange.valueAfter (h0 : 0 ≤ cfg.increment) (h1 : cfg.increment ≤ 2 * cfg.dispersion)
    {value : ℚ} (h : cfg.InRange value) : cfg.InRange (cfg.valueAfter value) := by
  obtain ⟨hlow, hhigh⟩ := h
  rw [InRange, valueAfter_eq]
  split
  · exact ⟨by linarith, by linarith⟩
  · exact ⟨by linarith, by linarith⟩

/-- All values are in the range, if the increment fits it. -/
theorem inRange_valueAt (h0 : 0 ≤ cfg.increment) (h1 : cfg.increment ≤ 2 * cfg.dispersion)
    (h : cfg.InRange cfg.currentValue) (n : Nat) : cfg.InRange (cfg.valueAt n) := by
  induction n with
  | zero => exact h
  | succ n ih =>
      rw [valueAt_succ]
      exact ih.valueAfter h0 h1

/-- Values that all are in the range do not grow by a constant step. -/
theorem not_drifting (h : ∀ n, cfg.InRange (cfg.valueAt n)) (step : ℚ) (hstep : step ≠ 0)
    (hgrows : ∀ n, cfg.valueAt (n + 1) = cfg.valueAt n + step) : False := by
  have hline (n : Nat) : cfg.valueAt n = cfg.valueAt 0 + n * step := by
    induction n with
    | zero => simp
    | succ n ih =>
        rw [hgrows n, ih]
        push_cast
        ring
  obtain ⟨n, hn⟩ := exists_nat_gt (2 * cfg.dispersion / |step|)
  rw [div_lt_iff₀ (abs_pos.mpr hstep)] at hn
  have hfirst := h 0
  have hlast := h n
  rw [hline n] at hlast
  have hfar : (n : ℚ) * |step| = |n * step| := by rw [abs_mul, Nat.abs_cast]
  have hnear : |(n : ℚ) * step| < 2 * cfg.dispersion := by
    rw [abs_lt]
    exact ⟨by linarith [hfirst.2, hlast.1], by linarith [hfirst.1, hlast.2]⟩
  linarith

/-- The increment fits the range, if all values are in it. -/
theorem increment_of_inRange (h : ∀ n, cfg.InRange (cfg.valueAt n)) :
    0 ≤ cfg.increment ∧ cfg.increment ≤ 2 * cfg.dispersion := by
  constructor
  · by_contra hneg
    refine not_drifting h _ (ne_of_lt (not_le.mp hneg)) fun n => ?_
    rw [valueAt_succ, valueAfter_eq, if_neg (by linarith [(h n).2, not_le.mp hneg])]
  · by_contra hlarge
    refine not_drifting h (cfg.increment - 2 * cfg.dispersion)
      (by linarith [not_le.mp hlarge]) fun n => ?_
    rw [valueAt_succ, valueAfter_eq, if_pos (by linarith [(h n).1, not_le.mp hlarge])]
    ring

/-- The first value is in the range. -/
theorem inRange_initGenCfg (propId : Int) (middleValue initValue : ℚ) {dispersion : ℚ}
    (hd : 0 < dispersion) (increment : ℚ) (interval : Int) :
    (initGenCfg propId middleValue initValue dispersion increment interval).InRange
      (initGenCfg propId middleValue initValue dispersion increment interval).currentValue := by
  rw [InRange, initGenCfg]
  split
  · exact ⟨by linarith, by linarith⟩
  · rename_i hin
    rw [not_or, not_lt, not_le] at hin
    exact hin

end GeneratorCfg

/-- The values stay in the range for the increments between zero and the width of the range. -/
theorem linear_staysInRange_iff (propId : Int) (middleValue initValue dispersion increment : ℚ)
    (interval : Int) (hd : 0 < dispersion) :
    (GeneratorCfg.initGenCfg propId middleValue initValue dispersion increment
        interval).Produces ∧
      ((GeneratorCfg.initGenCfg propId middleValue initValue dispersion increment
        interval).StaysInRange ↔ 0 ≤ increment ∧ increment ≤ 2 * dispersion) := by
  refine ⟨GeneratorCfg.produces _, fun h => GeneratorCfg.increment_of_inRange h.inRange,
    fun ⟨h0, h1⟩ => ⟨?_, GeneratorCfg.consecutive_valueAt _⟩⟩
  exact GeneratorCfg.inRange_valueAt h0 h1
    (GeneratorCfg.inRange_initGenCfg propId middleValue initValue hd increment interval)

section Example

/-- A generator of the speed, from 50 by steps of 10 in the range from 0 to 100. -/
theorem rising_speed_inRange :
    (GeneratorCfg.initGenCfg 0x11600207 50 50 50 10 1000000).Produces ∧
      ((GeneratorCfg.initGenCfg 0x11600207 50 50 50 10 1000000).StaysInRange ↔
        (0 : ℚ) ≤ 10 ∧ (10 : ℚ) ≤ 2 * 50) :=
  linear_staysInRange_iff 0x11600207 50 50 50 10 1000000 (by norm_num)

/-- Falling by steps of 10, the sixth step leaves the range. -/
theorem falling_speed_leaves_range :
    ¬(GeneratorCfg.initGenCfg 0x11600207 50 50 50 (-10) 1000000).InRange
      ((GeneratorCfg.initGenCfg 0x11600207 50 50 50 (-10) 1000000).valueAt 6) := by
  unfold GeneratorCfg.InRange
  decide +kernel

end Example

end VhalCore.Generators
