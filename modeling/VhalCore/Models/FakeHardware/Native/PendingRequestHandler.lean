import VhalCore.Core.Execution
import VhalCore.Core.UnorderedMap

/-!
# The handler of pending requests

Callers push requests to a queue, each with its callback. The thread of the handler waits for
items, flushes the queue, handles the requests one after the other and collects the results by
their callbacks; then it calls each callback with its results. Stopping the handler deactivates
the queue, which ends the wait. Each critical section of the queue is one step.
-/

namespace VhalCore.FakeHardware

/-- A request, and the callback that its result goes to. -/
structure RequestWithCallback (Callback Request : Type) where
  request : Request
  callback : Callback

/-- Where the thread of the handler stands. -/
inductive HandlerThread (Callback Request Result : Type) where
  /-- In `waitForItems`. -/
  | waitingForItems
  /-- Before the flush of `handleRequestsOnce`. -/
  | flushing
  | handling (items : List (RequestWithCallback Callback Request))
      (callbackToResults : UnorderedMap Callback (List Result))
  /-- Before the calls of the callbacks that are left. -/
  | calling (todo : List (Callback × List Result))
  | ended

/-- The handler with its queue. Recorded are the requests that the queue took, the requests that
were handled with their results, and the calls of callbacks. -/
structure PendingRequestHandler (Callback Request Result : Type) where
  mQueue : List (RequestWithCallback Callback Request) := []
  mIsActive : Bool := true
  mThread : HandlerThread Callback Request Result := .waitingForItems
  accepted : List (RequestWithCallback Callback Request) := []
  handled : List (RequestWithCallback Callback Request × Result) := []
  calls : List (Callback × List Result) := []

/-- The steps of the callers, of the stop and of the thread. -/
inductive HandlerEvent (Callback Request : Type) where
  | idle
  | push (item : RequestWithCallback Callback Request)
  | deactivate
  | thread

variable {Callback Request Result : Type}

/-- `ConcurrentQueue::push`: a deactivated queue takes nothing. -/
def PendingRequestHandler.push (item : RequestWithCallback Callback Request)
    (s : PendingRequestHandler Callback Request Result) :
    PendingRequestHandler Callback Request Result :=
  if s.mIsActive = false then s
  else { s with mQueue := s.mQueue ++ [item], accepted := s.accepted ++ [item] }

variable [DecidableEq Callback]

/-- One step. The hardware gives the `n`-th handled request its result. -/
inductive HandlerStep (answer : Nat → Request → Result) :
    PendingRequestHandler Callback Request Result → HandlerEvent Callback Request →
      PendingRequestHandler Callback Request Result → Prop
  | idle {s : PendingRequestHandler Callback Request Result} : HandlerStep answer s .idle s
  | push {s : PendingRequestHandler Callback Request Result}
      {item : RequestWithCallback Callback Request} :
      HandlerStep answer s (.push item) (s.push item)
  | deactivate {s : PendingRequestHandler Callback Request Result} :
      HandlerStep answer s .deactivate { s with mIsActive := false }
  | waitForItems {s : PendingRequestHandler Callback Request Result}
      (hthread : s.mThread = .waitingForItems) (hwake : s.mQueue ≠ [] ∨ s.mIsActive = false) :
      HandlerStep answer s .thread
        { s with mThread := if s.mIsActive then .flushing else .ended }
  | flush {s : PendingRequestHandler Callback Request Result} (hthread : s.mThread = .flushing) :
      HandlerStep answer s .thread { s with mQueue := [], mThread := .handling s.mQueue ∅ }
  | handle {s : PendingRequestHandler Callback Request Result}
      {item : RequestWithCallback Callback Request}
      {items : List (RequestWithCallback Callback Request)}
      {callbackToResults : UnorderedMap Callback (List Result)}
      (hthread : s.mThread = .handling (item :: items) callbackToResults) :
      HandlerStep answer s .thread
        { s with
          mThread := .handling items (callbackToResults.insert item.callback
            (callbackToResults.valueAt item.callback [] ++
              [answer s.handled.length item.request]))
          handled := s.handled ++ [(item, answer s.handled.length item.request)] }
  | collected {s : PendingRequestHandler Callback Request Result}
      {callbackToResults : UnorderedMap Callback (List Result)} {order : Traversal Callback}
      (hthread : s.mThread = .handling [] callbackToResults) :
      HandlerStep answer s .thread { s with mThread := .calling (order.entries callbackToResults) }
  | call {s : PendingRequestHandler Callback Request Result} {callback : Callback}
      {results : List Result} {todo : List (Callback × List Result)}
      (hthread : s.mThread = .calling ((callback, results) :: todo)) :
      HandlerStep answer s .thread
        { s with mThread := .calling todo, calls := s.calls ++ [(callback, results)] }
  | batchDone {s : PendingRequestHandler Callback Request Result}
      (hthread : s.mThread = .calling []) :
      HandlerStep answer s .thread { s with mThread := .waitingForItems }

end VhalCore.FakeHardware
