import VhalCore.Models.FakeHardware.Native.Obd2SensorStore
import VhalCore.Models.Generators.Native.FakeValueGenerator

/-!
# The generator that replays a file

The generator has the events of a file and makes them over and over. The timestamps of the file
count only in their differences. The mask of a diagnosis event is not in the file, it is computed
from its values: a value of zero counts as that of a sensor that is not set.
-/

namespace VhalCore.Generators

open FakeHardware (lastIntegerSensorIndex lastFloatSensorIndex)

/-- A write outside the bytes is undefined. -/
def setBit (bytes : List UInt8) (idx : Nat) : Option (List UInt8) :=
  if idx / 8 < bytes.length then some (withBit bytes idx) else none

/-- The bit of an integer sensor. -/
def integerBit (i : Nat) : Nat := i

/-- The bit of a float sensor. -/
def floatBit (i : Nat) : Nat := i + lastIntegerSensorIndex + 1

/-- The loop over the values of some sensors, from an index on. -/
def setBits {α : Type} [DecidableEq α] (zero : α) (bitOf : Nat → Nat) :
    Nat → List α → List UInt8 → Option (List UInt8)
  | _, [], bytes => some bytes
  | i, value :: values, bytes =>
      if value ≠ zero then (setBit bytes (bitOf i)).bind (setBits zero bitOf (i + 1) values)
      else setBits zero bitOf (i + 1) values bytes

/-- The mask of the sensors with a value other than zero, or nothing where a bit lies outside it. -/
def generateDiagnosticBytes (diagnosticValue : RawPropValues) : Option (List UInt8) :=
  let byteSize := lastIntegerSensorIndex + lastFloatSensorIndex + 2
  let bytes := List.replicate ((byteSize + 7) / 8) 0
  (setBits 0 integerBit 0 diagnosticValue.int32Values bytes).bind
    (setBits .zero floatBit 0 diagnosticValue.floatValues)

/-- The state of a generator. -/
structure JsonFakeValueGenerator where
  mEventIndex : Nat := 0
  mEvents : List VehiclePropValue
  mLastEventTimestamp : Int := 0
  mNumOfIterations : Int
  deriving DecidableEq

namespace JsonFakeValueGenerator

/-- The generator of some events, before it makes any. -/
def create (events : List VehiclePropValue) (iteration : Int) : JsonFakeValueGenerator where
  mEvents := events
  mNumOfIterations := iteration

/-- The event at an index, if there is one. -/
def eventAt (index : Nat) (g : JsonFakeValueGenerator) : Except EventFault VehiclePropValue :=
  match g.mEvents[index]? with
  | some event => .ok event
  | none => .error .outOfBounds

/-- The time from the last event to the next one: that between the two in the file, and 1ms when
another iteration begins. -/
def delay (g : JsonFakeValueGenerator) : Except EventFault Int :=
  if g.mEventIndex > 0 then do
    let current ← g.eventAt g.mEventIndex
    let previous ← g.eventAt (g.mEventIndex - 1)
    int64Result (current.timestamp - previous.timestamp)
  else .ok 1000000

/-- The generator after an event. -/
def advance (timestamp : Int) (g : JsonFakeValueGenerator) : JsonFakeValueGenerator :=
  if g.mEventIndex + 1 = g.mEvents.length then
    { g with
      mEventIndex := 0
      mLastEventTimestamp := timestamp
      mNumOfIterations :=
        if g.mNumOfIterations > 0 then g.mNumOfIterations - 1 else g.mNumOfIterations }
  else { g with mEventIndex := g.mEventIndex + 1, mLastEventTimestamp := timestamp }

/-- The next event, with its timestamp moved to the current iteration. -/
def nextEvent (assertions : Bool) (now : Int) (g : JsonFakeValueGenerator) :
    Except EventFault (Option VehiclePropValue × JsonFakeValueGenerator) :=
  if g.mNumOfIterations = 0 ∨ g.mEvents.length = 0 then .ok (none, g)
  else do
    let generatedValue ← g.eventAt g.mEventIndex
    let timestamp ← nextEventTimestamp assertions now g.delay g.mLastEventTimestamp
    .ok (some { generatedValue with timestamp }, g.advance timestamp)

/-- There are events left to give. -/
def hasNext (g : JsonFakeValueGenerator) : Bool :=
  g.mNumOfIterations ≠ 0 && g.mEvents.length > 0

/-- The results of successive calls, with the time of the clock at each of them. -/
def nextEvents (assertions : Bool) :
    List Int → JsonFakeValueGenerator → Except EventFault (List (Option VehiclePropValue))
  | [], _ => .ok []
  | now :: times, g => do
      let (event, g) ← g.nextEvent assertions now
      return event :: (← nextEvents assertions times g)

end JsonFakeValueGenerator

end VhalCore.Generators
