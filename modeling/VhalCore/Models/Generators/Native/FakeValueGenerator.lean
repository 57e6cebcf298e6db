import Mathlib.Algebra.Group.Int.Defs

/-!
# Timestamps of generated events

The generators count their events on from the one before. A last timestamp of zero stands for a
generator that has made no event: it starts with the time of the clock. The assertion that time
goes on is checked in a build with assertions only.
-/

namespace VhalCore.Generators

/-- What ends a call without a result. -/
inductive EventFault where
  /-- A sum or a difference does not fit `int64_t`, which is undefined. -/
  | overflow
  /-- `assert(nextEventTime > mLastEventTimestamp)` -/
  | assertion
  /-- An access past the end of the events. -/
  | outOfBounds
  /-- A value does not fit the type that it is converted to, which is undefined. -/
  | conversion
  deriving DecidableEq, Repr

/-- The value fits `int64_t`. -/
def FitsInt64 (x : Int) : Prop := -2 ^ 63 ≤ x ∧ x < 2 ^ 63

instance (x : Int) : Decidable (FitsInt64 x) := inferInstanceAs (Decidable (_ ∧ _))

/-- The result of an operation of `int64_t`. -/
def int64Result (x : Int) : Except EventFault Int :=
  if FitsInt64 x then .ok x else .error .overflow

/-- The timestamp of an event, from that of the last one; `now` is the time of the clock. -/
def nextEventTimestamp (assertions : Bool) (now : Int) (delay : Except EventFault Int)
    (lastEventTimestamp : Int) : Except EventFault Int :=
  if lastEventTimestamp = 0 then .ok now
  else do
    let nextEventTime ← int64Result (lastEventTimestamp + (← delay))
    if assertions && decide (nextEventTime ≤ lastEventTimestamp) then .error .assertion
    else .ok nextEventTime

end VhalCore.Generators
