import Mathlib.Data.List.Basic

/-!
# The queue and its batching consumer

The functions of the queue are their parts that run with its lock held. The consumer runs
`runInternal` in a thread of its own. Between two of its steps other threads may push items,
deactivate the queue or request the stop of the consumer.
-/

namespace VhalCore.EventQueue

universe u

/-- The fields of the queue: whether it takes items, and the items. -/
structure ConcurrentQueue (T : Type u) where
  mIsActive : Bool := true
  mQueue : List T := []
  deriving DecidableEq, Repr

namespace ConcurrentQueue

variable {T : Type u}

/-- `waitForItems` returns whether the queue is active, unless it has to wait. -/
def waitForItems (queue : ConcurrentQueue T) : Option Bool :=
  if queue.mQueue.isEmpty && queue.mIsActive then none else some queue.mIsActive

/-- The loop of `flush`. -/
def moveItems (items : List T) : List T → List T
  | [] => items
  | front :: rest => moveItems (items ++ [front]) rest

/-- Takes all items out of the queue. -/
def flush (queue : ConcurrentQueue T) : List T × ConcurrentQueue T :=
  if queue.mQueue.isEmpty then ([], queue)
  else (moveItems [] queue.mQueue, { queue with mQueue := [] })

/-- Appends an item, unless the queue has been deactivated. -/
def push (item : T) (queue : ConcurrentQueue T) : ConcurrentQueue T :=
  if !queue.mIsActive then queue
  else { queue with mQueue := queue.mQueue ++ [item] }

/-- `push` of a vector. -/
def pushVector (items : List T) (queue : ConcurrentQueue T) : ConcurrentQueue T :=
  if !queue.mIsActive then queue
  else { queue with
    mQueue := items.foldl (fun mQueue item => mQueue ++ [item]) queue.mQueue }

/-- The queue takes no more items. -/
def deactivate (queue : ConcurrentQueue T) : ConcurrentQueue T :=
  { queue with mIsActive := false }

@[simp] theorem moveItems_eq (items rest : List T) : moveItems items rest = items ++ rest := by
  induction rest generalizing items with
  | nil => rw [moveItems, List.append_nil]
  | cons front rest ih => rw [moveItems, ih, List.append_assoc, List.singleton_append]

/-- A flush takes all items and leaves none. -/
theorem flush_eq (queue : ConcurrentQueue T) :
    queue.flush = (queue.mQueue, { queue with mQueue := [] }) := by
  obtain ⟨mIsActive, mQueue⟩ := queue
  cases mQueue with
  | nil => rfl
  | cons front rest =>
      rw [flush, if_neg (by simp), moveItems_eq, List.nil_append]

/-- Pushing a vector appends it while the queue is active. -/
theorem pushVector_eq (items : List T) (queue : ConcurrentQueue T) :
    queue.pushVector items =
      { queue with mQueue := queue.mQueue ++ if queue.mIsActive then items else [] } := by
  have hloop (mQueue : List T) :
      items.foldl (fun mQueue item => mQueue ++ [item]) mQueue = mQueue ++ items := by
    induction items generalizing mQueue with
    | nil => rw [List.foldl_nil, List.append_nil]
    | cons item items ih =>
        rw [List.foldl_cons, ih, List.append_assoc, List.singleton_append]
  obtain ⟨mIsActive, mQueue⟩ := queue
  cases mIsActive <;> simp [pushVector, hloop]

theorem push_eq_pushVector (item : T) (queue : ConcurrentQueue T) :
    queue.push item = queue.pushVector [item] := rfl

end ConcurrentQueue

/-- The state of a consumer. -/
inductive ConsumerState where
  | init
  | running
  | stopRequested
  | stopped
  deriving DecidableEq, Repr

/-- Where the worker thread is in `runInternal`. -/
inductive Worker (T : Type u) where
  | notStarted
  | exchanging
  | loopCondition
  | waitForItems
  | waiting
  | checkingAfterWait
  | sleeping
  | checkingAfterSleep
  | flushing
  | received (items : List T)
  | leaving
  | finished
  deriving DecidableEq, Repr

/-- What a step does that others can see. The reads of the state of the consumer show what has
been read, and a push shows whether its items are accepted. -/
inductive QueueEvent (T : Type u) where
  | push (item : T) (accepted : Bool)
  | pushVector (items : List T) (accepted : Bool)
  | deactivate
  | requestStop
  | run
  | exchange (seen : ConsumerState)
  | loopCondition (seen : ConsumerState)
  | wait
  | wakeUp
  | waited
  | checkStop (seen : ConsumerState)
  | sleep
  | flush
  | onBatchReceived (batch : List T)
  | nothingReceived
  | finish
  deriving DecidableEq, Repr

/-- The queue, the consumer and its worker thread. -/
structure BatchingSystem (T : Type u) where
  queue : ConcurrentQueue T := {}
  mState : ConsumerState := .init
  worker : Worker T := .notStarted
  deriving DecidableEq, Repr

/-- The next step of `runInternal`; nothing before the thread is started and after it has ended.
A thread that waits may wake up at any time, and then looks at the queue again. -/
def BatchingSystem.runInternal {T : Type u} (s : BatchingSystem T) :
    Option (QueueEvent T × BatchingSystem T) :=
  match s.worker with
  | .notStarted => none
  | .exchanging =>
      some (.exchange s.mState, { s with
        mState := .running
        worker := if s.mState = .init then .loopCondition else .leaving })
  | .loopCondition =>
      some (.loopCondition s.mState, { s with
        worker := if .running = s.mState then .waitForItems else .leaving })
  | .waitForItems =>
      match s.queue.waitForItems with
      | none => some (.wait, { s with worker := .waiting })
      | some _ => some (.waited, { s with worker := .checkingAfterWait })
  | .waiting => some (.wakeUp, { s with worker := .waitForItems })
  | .checkingAfterWait =>
      some (.checkStop s.mState, { s with
        worker := if .stopRequested = s.mState then .leaving else .sleeping })
  | .sleeping => some (.sleep, { s with worker := .checkingAfterSleep })
  | .checkingAfterSleep =>
      some (.checkStop s.mState, { s with
        worker := if .stopRequested = s.mState then .leaving else .flushing })
  | .flushing =>
      let (items, queue) := s.queue.flush
      some (.flush, { s with queue, worker := .received items })
  | .received items =>
      if 0 < items.length then
        some (.onBatchReceived items, { s with worker := .loopCondition })
      else some (.nothingReceived, { s with worker := .loopCondition })
  | .leaving => some (.finish, { s with mState := .stopped, worker := .finished })
  | .finished => none

end VhalCore.EventQueue
