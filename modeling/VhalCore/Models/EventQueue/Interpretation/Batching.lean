import VhalCore.Core.Execution
import VhalCore.Models.EventQueue.Native.ConcurrentQueue

/-!
# Runs of the queue with its consumer

The threads that push items, deactivate the queue or request the stop of the consumer take their
steps in any order between the steps of the worker thread. What has been accepted and what has
been delivered are read off the events of a run.
-/

namespace VhalCore.EventQueue

universe u

variable {T : Type u}

/-- A step of any thread. -/
inductive BatchingStep : BatchingSystem T → QueueEvent T → BatchingSystem T → Prop where
  | push {s} (item : T) :
      BatchingStep s (.push item s.queue.mIsActive) { s with queue := s.queue.push item }
  | pushVector {s} (items : List T) :
      BatchingStep s (.pushVector items s.queue.mIsActive)
        { s with queue := s.queue.pushVector items }
  | deactivate {s} : BatchingStep s .deactivate { s with queue := s.queue.deactivate }
  | requestStop {s} : BatchingStep s .requestStop { s with mState := .stopRequested }
  | run {s} (hworker : s.worker = .notStarted) :
      BatchingStep s .run { s with worker := .exchanging }
  | runInternal {s t} {event : QueueEvent T} (hworker : s.runInternal = some (event, t)) :
      BatchingStep s event t

namespace QueueEvent

/-- The items that an event puts into the queue. -/
@[simp] def accepted : QueueEvent T → List T
  | .push item true => [item]
  | .pushVector items true => items
  | _ => []

/-- The batch that an event hands to the handler, if it hands one. -/
@[simp] def batches : QueueEvent T → List (List T)
  | .onBatchReceived batch => [batch]
  | _ => []

/-- The worker has read that it is to stop. -/
@[simp] def ObservesStop (event : QueueEvent T) : Prop :=
  event = .loopCondition .stopRequested ∨ event = .checkStop .stopRequested

end QueueEvent

/-- The items that have been accepted, in the order in which the lock was taken. -/
def accepted (events : List (QueueEvent T)) : List T :=
  events.flatMap QueueEvent.accepted

/-- The batches that have been delivered. -/
def batches (events : List (QueueEvent T)) : List (List T) :=
  events.flatMap QueueEvent.batches

/-- The events since the worker has looked at the condition of its loop. -/
def currentIteration (events : List (QueueEvent T)) : List (QueueEvent T) :=
  events.foldl (fun iteration event =>
    match event with
    | .loopCondition _ => [event]
    | _ => iteration ++ [event]) []

/-- The items that the worker has taken from the queue and not delivered yet. -/
@[simp] def Worker.inHand : Worker T → List T
  | .received items => items
  | _ => []

theorem accepted_append (before after : List (QueueEvent T)) :
    accepted (before ++ after) = accepted before ++ accepted after :=
  List.flatMap_append ..

theorem batches_append (before after : List (QueueEvent T)) :
    batches (before ++ after) = batches before ++ batches after :=
  List.flatMap_append ..

@[simp] theorem accepted_concat (events : List (QueueEvent T)) (event : QueueEvent T) :
    accepted (events ++ [event]) = accepted events ++ event.accepted := by
  rw [accepted_append]
  exact congrArg _ (List.append_nil _)

@[simp] theorem batches_concat (events : List (QueueEvent T)) (event : QueueEvent T) :
    batches (events ++ [event]) = batches events ++ event.batches := by
  rw [batches_append]
  exact congrArg _ (List.append_nil _)

theorem currentIteration_loopCondition (events : List (QueueEvent T)) (seen : ConsumerState) :
    currentIteration (events ++ [.loopCondition seen]) = [.loopCondition seen] := by
  rw [currentIteration, List.foldl_append]
  rfl

/-- An iteration without a delivery goes on, or the next one begins. -/
theorem batches_currentIteration_concat {events : List (QueueEvent T)} {event : QueueEvent T}
    (h : batches (currentIteration events) = []) (hevent : event.batches = []) :
    batches (currentIteration (events ++ [event])) = [] := by
  rw [currentIteration, List.foldl_append]
  cases event with
  | loopCondition seen => rfl
  | _ => exact (batches_concat _ _).trans (by rw [← currentIteration, h, hevent]; rfl)

end VhalCore.EventQueue
