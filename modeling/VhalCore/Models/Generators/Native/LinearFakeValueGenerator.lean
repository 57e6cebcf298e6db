import Mathlib.Data.Rat.Floor
import VhalCore.Models.Generators.Native.FakeValueGenerator
import VhalCore.Models.Vehicle.Configs

/-!
# The linear generator

The generator makes events with a value that grows by an increment and is set back by the width
of a range when it reaches the end of the range. Values are exact here, where the code rounds to
`float`. Its first assertion names types that there are not, so that it is built without
assertions only.
-/

namespace VhalCore.Generators

/-- The configuration of a generator, and where it stands. -/
structure GeneratorCfg where
  propId : Int
  middleValue : ℚ
  currentValue : ℚ
  dispersion : ℚ
  increment : ℚ
  interval : Int
  lastEventTimestamp : Int := 0
  deriving DecidableEq

/-- The payload of an event, in the field for the type of its property. -/
inductive GeneratedValue where
  | int32Values (value : Int)
  | int64Values (value : Int)
  | floatValues (value : ℚ)
  /-- `unsupported property type for {}` -/
  | empty
  deriving DecidableEq

/-- An event of the generator. -/
structure LinearEvent where
  timestamp : Int
  prop : Int
  value : GeneratedValue
  deriving DecidableEq

/-- The conversion to an integer of some bits, towards zero. -/
def truncateTo (bits : Nat) (value : ℚ) : Except EventFault Int :=
  let truncated := value.num.tdiv value.den
  if -2 ^ (bits - 1) ≤ truncated ∧ truncated < 2 ^ (bits - 1) then .ok truncated
  else .error .conversion

namespace GeneratorCfg

/-- An initial value outside the range is replaced by the middle of the range. -/
def initGenCfg (propId : Int) (middleValue initValue dispersion increment : ℚ)
    (interval : Int) : GeneratorCfg where
  propId := propId
  middleValue := middleValue
  currentValue :=
    if initValue < middleValue - dispersion ∨ initValue ≥ middleValue + dispersion then middleValue
    else initValue
  dispersion := dispersion
  increment := increment
  interval := interval

/-- The current value, truncated as the type of the property asks for. -/
def eventValue (cfg : GeneratorCfg) : Except EventFault GeneratedValue :=
  match getPropType cfg.propId with
  | some .int32 => (truncateTo 32 cfg.currentValue).map .int32Values
  | some .int64 => (truncateTo 64 cfg.currentValue).map .int64Values
  | some .float => .ok (.floatValues cfg.currentValue)
  | _ => .ok .empty

/-- The value for the event after the next one. -/
def advanceValue (cfg : GeneratorCfg) : ℚ :=
  let currentValue := cfg.currentValue + cfg.increment
  if currentValue ≥ cfg.middleValue + cfg.dispersion then currentValue - 2 * cfg.dispersion
  else currentValue

/-- The next event, after which the value has advanced. -/
def nextEvent (now : Int) (cfg : GeneratorCfg) :
    Except EventFault (LinearEvent × GeneratorCfg) := do
  let value ← cfg.eventValue
  let timestamp ← nextEventTimestamp false now (.ok cfg.interval) cfg.lastEventTimestamp
  return (⟨timestamp, cfg.propId, value⟩,
    { cfg with lastEventTimestamp := timestamp, currentValue := cfg.advanceValue })

/-- The events of successive calls, with the time of the clock at each of them. -/
def nextEvents : List Int → GeneratorCfg → Except EventFault (List LinearEvent)
  | [], _ => .ok []
  | now :: times, cfg => do
      let (event, cfg) ← cfg.nextEvent now
      return event :: (← nextEvents times cfg)

end GeneratorCfg

end VhalCore.Generators
