import VhalCore.Core.Execution
import VhalCore.Core.PriorityQueue
import VhalCore.Core.UnorderedMap
import VhalCore.Models.Vehicle.Types

/-!
# The hub of the value generators

The hub has generators by id and one queue with their next events, ordered by timestamp. Its
thread delivers the soonest event, pops it and asks the generator of the same id for the next
one. An event in the queue is tagged with the id of its generator only. The events of a
generator that was unregistered are popped when they come to the top.

The lock makes a call atomic, and so is taken an iteration of the thread. An iteration that
waits is left without a delivery when something happens meanwhile.
-/

namespace VhalCore.Generators

/-- A generator is known by the results of its successive calls. -/
abbrev FakeValueGenerator := Nat → Option VehiclePropValue

/-- An entry of the queue. The number of the registration that it comes from is for the reader,
the code keeps the id only. -/
structure VhalEvent where
  generatorId : Int
  val : VehiclePropValue
  registration : Nat
  deriving DecidableEq

/-- A registered generator with the number of calls made to it, and the number of its
registration. -/
structure Registered where
  generator : FakeValueGenerator
  calls : Nat
  registration : Nat

/-- What happens to the generators, as the log has it. -/
inductive Action where
  /-- A generator is accepted. -/
  | registered (id : Int) (generator : FakeValueGenerator) (registration : Nat)
  | unregistered (id : Int)
  /-- The callback is given an event. -/
  | delivered (event : VhalEvent)

/-- The state of the hub. -/
structure GeneratorHub where
  mEventQueue : Multiset VhalEvent := 0
  mGenerators : UnorderedMap Int Registered := ∅
  /-- The number of generators accepted so far. -/
  registrations : Nat := 0
  log : List Action := []

namespace GeneratorHub

/-- The first event of a generator that is new to its id is pushed. A generator without an event
is discarded. -/
def registerGenerator (id : Int) (generator : FakeValueGenerator) (s : GeneratorHub) :
    GeneratorHub :=
  match generator 0 with
  | none => s
  | some maybeNextEvent =>
      { s with
        mEventQueue :=
          if s.mGenerators.lookup id = none then
            ⟨id, maybeNextEvent, s.registrations⟩ ::ₘ s.mEventQueue
          else s.mEventQueue
        mGenerators := s.mGenerators.insert id ⟨generator, 1, s.registrations⟩
        registrations := s.registrations + 1
        log := s.log ++ [.registered id generator s.registrations] }

section Registration

variable {generator : FakeValueGenerator} {v : VehiclePropValue}

theorem mEventQueue_registerGenerator (hv : generator 0 = some v) (id : Int) (s : GeneratorHub) :
    (s.registerGenerator id generator).mEventQueue =
      if s.mGenerators.lookup id = none then ⟨id, v, s.registrations⟩ ::ₘ s.mEventQueue
      else s.mEventQueue := by
  simp only [registerGenerator, hv]

/-- A registration replaces the generator of its identity, and no other. -/
theorem lookup_registerGenerator (hv : generator 0 = some v) (id other : Int)
    (s : GeneratorHub) :
    (s.registerGenerator id generator).mGenerators.lookup other =
      if other = id then some ⟨generator, 1, s.registrations⟩
      else s.mGenerators.lookup other := by
  simp only [registerGenerator, hv]
  exact UnorderedMap.lookup_insert_eq ..

theorem log_registerGenerator (hv : generator 0 = some v) (id : Int) (s : GeneratorHub) :
    (s.registerGenerator id generator).log =
      s.log ++ [.registered id generator s.registrations] := by
  simp only [registerGenerator, hv]

end Registration

/-- The call says whether there was a generator. -/
def unregisterGenerator (id : Int) (s : GeneratorHub) : Bool × GeneratorHub :=
  ((s.mGenerators.lookup id).isSome,
    { s with mGenerators := s.mGenerators.erase id, log := s.log ++ [.unregistered id] })

/-- The generator of an event does not exist. -/
def IsStale (s : GeneratorHub) (event : VhalEvent) : Prop :=
  s.mGenerators.lookup event.generatorId = none

/-- The current event is handled and popped, and the next one of the same id is pushed. A
generator that has ended is unregistered. -/
def handleEvent (curEvent : VhalEvent) (s : GeneratorHub) : GeneratorHub :=
  let id := curEvent.generatorId
  let s : GeneratorHub := { s with
    mEventQueue := s.mEventQueue.erase curEvent
    log := s.log ++ [.delivered curEvent] }
  match s.mGenerators.lookup id with
  | none => { s with mGenerators := s.mGenerators.erase id }
  | some registered =>
      match registered.generator registered.calls with
      | none => { s with mGenerators := s.mGenerators.erase id }
      | some maybeNextEvent =>
          { s with
            mEventQueue := ⟨id, maybeNextEvent, registered.registration⟩ ::ₘ s.mEventQueue
            mGenerators := s.mGenerators.insert id
              { registered with calls := registered.calls + 1 } }

end GeneratorHub

/-- The calls and the iterations of the thread. -/
inductive HubEvent where
  | registerGenerator (id : Int) (generator : FakeValueGenerator)
  | unregisterGenerator (id : Int)
  /-- An iteration that is left while it waits. -/
  | wait
  /-- An iteration that handles the soonest event. -/
  | handle

/-- The order of the queue. -/
def timeOf (event : VhalEvent) : Int := event.val.timestamp

/-- One call of the hub, or one step of its thread. -/
inductive HubStep : GeneratorHub → HubEvent → GeneratorHub → Prop
  | registerGenerator {s : GeneratorHub} (id : Int) (generator : FakeValueGenerator) :
      HubStep s (.registerGenerator id generator) (s.registerGenerator id generator)
  | unregisterGenerator {s : GeneratorHub} (id : Int) :
      HubStep s (.unregisterGenerator id) (s.unregisterGenerator id).2
  | wait {s : GeneratorHub} {q : Multiset VhalEvent} {top : Option VhalEvent} :
      PopWhile timeOf s.IsStale s.mEventQueue q top →
      HubStep s .wait { s with mEventQueue := q }
  | handle {s : GeneratorHub} {q : Multiset VhalEvent} {curEvent : VhalEvent} :
      PopWhile timeOf s.IsStale s.mEventQueue q (some curEvent) →
      HubStep s .handle (GeneratorHub.handleEvent curEvent { s with mEventQueue := q })

end VhalCore.Generators
