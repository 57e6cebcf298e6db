import VhalCore.Models.Generators.Native.GeneratorHub

/-!
# The thread of the hub between its locks

The thread pops the events without a generator, waits until the queue has an event, and keeps a
reference to the soonest one. If its time has not come the thread waits for it, without the lock.
A wait that times out goes on with the reference, whatever has happened meanwhile; any other one
starts again. The reference is one to the first slot of the vector behind the queue. A sooner
event takes this slot, and a vector that grows leaves the reference behind.

What happens under the lock is one step, except that the step before an event is handled is left
apart.
-/

namespace VhalCore.Generators

/-- The event in the first slot of the queue. -/
def IsFront (q : Multiset VhalEvent) : Option VhalEvent → Prop
  | none => q = 0
  | some event => IsQueueTop timeOf q event

/-- The loop that pops events without a generator, with the first slot before and after. -/
inductive PopStale (stale : VhalEvent → Prop) :
    Multiset VhalEvent → Option VhalEvent → Multiset VhalEvent → Option VhalEvent → Prop
  | empty : PopStale stale 0 none 0 none
  | stop {q : Multiset VhalEvent} {event : VhalEvent} (h : ¬stale event) :
      PopStale stale q (some event) q (some event)
  | pop {q q' : Multiset VhalEvent} {event : VhalEvent} {front front' : Option VhalEvent}
      (h : stale event) (hfront : IsFront (q.erase event) front)
      (hrest : PopStale stale (q.erase event) front q' front') :
      PopStale stale q (some event) q' front'

/-- A push changes the first slot only if the event is sooner. -/
def pushedFront (event : VhalEvent) : Option VhalEvent → VhalEvent
  | none => event
  | some front => if timeOf event < timeOf front then event else front

/-- Where the thread stands. A reference is known by the number of the vector it points to. -/
inductive SchedulerThread where
  /-- At the head of its loop. -/
  | unlocked
  /-- In the wait for an event. -/
  | waiting
  /-- In the wait for the time of the event. -/
  | timedWait (curEvent : Nat) (deadline : Int)
  /-- With the lock, before the event is handled. -/
  | handling (curEvent : Nat)
  | ended
  /-- After a read through a reference that was left behind. -/
  | undefined
  deriving DecidableEq

/-- The hub with its thread and the memory of its queue. -/
structure Scheduler where
  hub : GeneratorHub := {}
  /-- The first slot of the queue. -/
  front : Option VhalEvent := none
  capacity : Nat := 0
  /-- The number of the vector behind the queue; a vector that grows gets a new one. -/
  vector : Nat := 0
  clock : Int := 0
  mShuttingDownFlag : Bool := false
  thread : SchedulerThread := .unlocked
  /-- The length that the log had when events without a generator were popped. -/
  evaluated : Nat := 0

namespace GeneratorHub

/-- The next event of the generator of an id. -/
def nextEvent (id : Int) (s : GeneratorHub) : Option VhalEvent :=
  match s.mGenerators.lookup id with
  | none => none
  | some registered =>
      (registered.generator registered.calls).map fun val => ⟨id, val, registered.registration⟩

/-- An event is handled, whatever event is popped. -/
def handlePopped (curEvent popped : VhalEvent) (s : GeneratorHub) : GeneratorHub :=
  { s.handleEvent curEvent with
    mEventQueue :=
      match s.nextEvent curEvent.generatorId with
      | none => s.mEventQueue.erase popped
      | some next => next ::ₘ s.mEventQueue.erase popped }

end GeneratorHub

namespace Scheduler

section Growth

variable (grow : Nat → Nat)

/-- The vector takes one more event. -/
def push (size : Nat) (event : VhalEvent) (s : Scheduler) : Scheduler :=
  let s := { s with front := some (pushedFront event s.front) }
  if size < s.capacity then s
  else { s with capacity := grow s.capacity, vector := s.vector + 1 }

/-- Registers a generator. The queue takes its first event only for a new identity. -/
def registerGenerator (id : Int) (generator : FakeValueGenerator) (s : Scheduler) : Scheduler :=
  match generator 0 with
  | none => s
  | some maybeNextEvent =>
      let pushed :=
        if s.hub.mGenerators.lookup id = none then
          s.push grow s.hub.mEventQueue.card ⟨id, maybeNextEvent, s.hub.registrations⟩
        else s
      { pushed with hub := s.hub.registerGenerator id generator }

/-- The event is handled, the first slot is popped and the next event is pushed. -/
def handle (curEvent popped : VhalEvent) (front : Option VhalEvent) (s : Scheduler) : Scheduler :=
  let rest := s.hub.mEventQueue.erase popped
  let popped' := { s with front := front }
  let pushed :=
    match s.hub.nextEvent curEvent.generatorId with
    | none => popped'
    | some next => popped'.push grow rest.card next
  { pushed with hub := s.hub.handlePopped curEvent popped, thread := .unlocked }

end Growth

/-- Unregisters a generator, whose event stays in the queue. -/
def unregisterGenerator (id : Int) (s : Scheduler) : Scheduler :=
  { s with hub := (s.hub.unregisterGenerator id).2 }

/-- The thread waits for an event, waits for the time of the soonest one, or handles it. -/
def awaitFront (s : Scheduler) : Scheduler :=
  match s.front with
  | none => { s with thread := .waiting }
  | some event =>
      if timeOf event > s.clock then
        { s with thread := .timedWait s.vector (timeOf event) }
      else { s with thread := .handling s.vector }

/-- What is read through a reference to the first slot, if it is still valid. -/
def read (curEvent : Nat) (s : Scheduler) : Option VhalEvent :=
  if curEvent = s.vector then s.front else none

/-- The thread does not hold the lock. -/
def LockFree (s : Scheduler) : Prop := ∀ curEvent, s.thread ≠ .handling curEvent

end Scheduler

/-- The passing of time, the calls of other threads and the steps of the scheduler thread. -/
inductive SchedulerEvent where
  | tick (now : Int)
  | registerGenerator (id : Int) (generator : FakeValueGenerator)
  | unregisterGenerator (id : Int)
  | shutDown
  | thread

/-- One call of the hub, a tick of the clock, or one step of the thread. -/
inductive SchedulerStep (grow : Nat → Nat) : Scheduler → SchedulerEvent → Scheduler → Prop
  | tick {s : Scheduler} {now : Int} (h : s.clock ≤ now) :
      SchedulerStep grow s (.tick now) { s with clock := now }
  | registerGenerator {s : Scheduler} {id : Int} {generator : FakeValueGenerator}
      (hlock : s.LockFree) :
      SchedulerStep grow s (.registerGenerator id generator) (s.registerGenerator grow id generator)
  | unregisterGenerator {s : Scheduler} {id : Int} (hlock : s.LockFree) :
      SchedulerStep grow s (.unregisterGenerator id) (s.unregisterGenerator id)
  | shutDown {s : Scheduler} (hlock : s.LockFree) :
      SchedulerStep grow s .shutDown { s with mShuttingDownFlag := true }
  | evaluate {s : Scheduler} {q : Multiset VhalEvent} {front : Option VhalEvent}
      (hthread : s.thread = .unlocked) (hflag : s.mShuttingDownFlag = false)
      (hpop : PopStale s.hub.IsStale s.hub.mEventQueue s.front q front) :
      SchedulerStep grow s .thread (Scheduler.awaitFront { s with
        hub := { s.hub with mEventQueue := q }
        front := front
        evaluated := s.hub.log.length })
  | awake {s : Scheduler} (hthread : s.thread = .waiting) (hflag : s.mShuttingDownFlag = false)
      (hfront : s.front ≠ none) : SchedulerStep grow s .thread s.awaitFront
  | notified {s : Scheduler} {curEvent : Nat} {deadline : Int}
      (hthread : s.thread = .timedWait curEvent deadline) :
      SchedulerStep grow s .thread { s with thread := .unlocked }
  | timeout {s : Scheduler} {curEvent : Nat} {deadline : Int}
      (hthread : s.thread = .timedWait curEvent deadline) (hclock : deadline ≤ s.clock) :
      SchedulerStep grow s .thread { s with thread := .handling curEvent }
  | handle {s : Scheduler} {curEvent : Nat} {event popped : VhalEvent} {front : Option VhalEvent}
      (hthread : s.thread = .handling curEvent) (hread : s.read curEvent = some event)
      (hpop : s.front = some popped) (hfront : IsFront (s.hub.mEventQueue.erase popped) front) :
      SchedulerStep grow s .thread (s.handle grow event popped front)
  | readInvalid {s : Scheduler} {curEvent : Nat} (hthread : s.thread = .handling curEvent)
      (hread : s.read curEvent = none) :
      SchedulerStep grow s .thread { s with thread := .undefined }
  | quit {s : Scheduler} (hthread : s.thread = .unlocked ∨ s.thread = .waiting)
      (hflag : s.mShuttingDownFlag = true) :
      SchedulerStep grow s .thread { s with thread := .ended }

end VhalCore.Generators
