import VhalCore.Models.EventQueue.Interpretation.Batching

/-!
# Batches deliver the accepted items in order

Every item that has been accepted is in a batch that has been delivered, in the hands of the
worker, or still in the queue, in this order. A queue that has been deactivated accepts nothing,
and a worker that has read the request to stop delivers nothing anymore.
-/

namespace VhalCore.EventQueue

universe u

variable {T : Type u}

/-- The worker is behind the condition of its loop, and has not called `onBatchReceived` since. -/
@[simp] def Worker.InIteration : Worker T → Prop
  | .waitForItems | .waiting | .checkingAfterWait | .sleeping | .checkingAfterSleep | .flushing
  | .received _ => True
  | _ => False

/-- The worker has left its loop. -/
@[simp] def Worker.HasLeft (worker : Worker T) : Prop :=
  worker = .leaving ∨ worker = .finished

/-- What a step of the worker thread does to the items and to the position of the worker. -/
structure WorkerStep (s : BatchingSystem T) (event : QueueEvent T) (t : BatchingSystem T) :
    Prop where
  keeps : event ≠ .deactivate
  active : t.queue.mIsActive = s.queue.mIsActive
  accepts : event.accepted = []
  conserves : s.worker.inHand ++ s.queue.mQueue =
    event.batches.flatten ++ (t.worker.inHand ++ t.queue.mQueue)
  nonempty : [] ∉ event.batches
  iterates : t.worker.InIteration → (∃ seen, event = .loopCondition seen) ∨
    s.worker.InIteration ∧ event.batches = []
  observes : event.ObservesStop →
    t.worker.HasLeft ∧ ((∃ seen, event = .loopCondition seen) ∨ s.worker.InIteration)
  leaves : s.worker.HasLeft → t.worker.HasLeft ∧ event.batches = []

/-- The loop of the worker takes the steps of the worker. -/
theorem workerStep_of_runInternal {s t : BatchingSystem T} {event : QueueEvent T}
    (h : s.runInternal = some (event, t)) : WorkerStep s event t := by
  obtain ⟨queue, mState, worker⟩ := s
  cases worker with
  | notStarted | finished => cases h
  | waiting | sleeping | leaving =>
      cases h
      constructor <;> simp
  | exchanging | loopCondition | checkingAfterWait | checkingAfterSleep | waitForItems =>
      simp only [BatchingSystem.runInternal] at h
      split at h <;>
      · cases h
        constructor <;> simp_all [eq_comm]
  | flushing =>
      simp only [BatchingSystem.runInternal, ConcurrentQueue.flush_eq] at h
      cases h
      constructor <;> simp
  | received items =>
      simp only [BatchingSystem.runInternal] at h
      split at h
      · rename_i hitems
        cases h
        constructor <;> simp [List.ne_nil_of_length_pos hitems]
      · rename_i hitems
        obtain rfl := List.eq_nil_of_length_eq_zero (Nat.eq_zero_of_not_pos hitems)
        cases h
        constructor <;> simp

/-- What has been delivered in a run, and where the remaining items are. -/
structure Tracked (events : List (QueueEvent T)) (s : BatchingSystem T) : Prop where
  conserved : accepted events =
    (batches events).flatten ++ (s.worker.inHand ++ s.queue.mQueue)
  nonempty : [] ∉ batches events
  iteration : s.worker.InIteration → batches (currentIteration events) = []

section Steps

variable {events : List (QueueEvent T)} {s t : BatchingSystem T} {event : QueueEvent T}

/-- An event of another thread puts the items that are accepted behind those of the queue. -/
theorem Tracked.other (h : Tracked events s) (hnone : event.batches = [])
    (hitems : t.queue.mQueue = s.queue.mQueue ++ event.accepted)
    (hhand : t.worker.inHand = s.worker.inHand)
    (hworker : t.worker.InIteration → s.worker.InIteration) : Tracked (events ++ [event]) t where
  conserved := by
    rw [accepted_concat, batches_concat, h.conserved, hnone, hitems, hhand, List.append_nil]
    simp only [List.append_assoc]
  nonempty := by
    rw [batches_concat, hnone, List.append_nil]
    exact h.nonempty
  iteration ht := batches_currentIteration_concat (h.iteration (hworker ht)) hnone

/-- A step of the worker keeps the account of the items. -/
theorem Tracked.runInternal (h : Tracked events s) (hstep : WorkerStep s event t) :
    Tracked (events ++ [event]) t where
  conserved := by
    rw [accepted_concat, batches_concat, h.conserved, hstep.accepts, List.append_nil,
      List.flatten_append, hstep.conserves, List.append_assoc]
  nonempty := by
    rw [batches_concat, List.mem_append, not_or]
    exact ⟨h.nonempty, hstep.nonempty⟩
  iteration ht := by
    rcases hstep.iterates ht with ⟨seen, rfl⟩ | ⟨hs, hnone⟩
    · rw [currentIteration_loopCondition]
      rfl
    · exact batches_currentIteration_concat (h.iteration hs) hnone

/-- Every step keeps the account of the items. -/
theorem Tracked.step (h : Tracked events s) (hstep : BatchingStep s event t) :
    Tracked (events ++ [event]) t := by
  cases hstep with
  | push item =>
      refine h.other rfl ?_ rfl id
      rw [ConcurrentQueue.push_eq_pushVector, ConcurrentQueue.pushVector_eq]
      cases s.queue.mIsActive <;> rfl
  | pushVector items =>
      refine h.other rfl ?_ rfl id
      rw [ConcurrentQueue.pushVector_eq]
      cases s.queue.mIsActive <;> rfl
  | deactivate => exact h.other rfl (List.append_nil _).symm rfl id
  | requestStop => exact h.other rfl (List.append_nil _).symm rfl id
  | run hworker => exact h.other rfl (List.append_nil _).symm (by rw [hworker]; rfl) False.elim
  | runInternal hworker => exact h.runInternal (workerStep_of_runInternal hworker)

/-- A queue that is not active accepts nothing and stays so. -/
theorem step_inactive (hactive : s.queue.mIsActive = false) (hstep : BatchingStep s event t) :
    t.queue.mIsActive = false ∧ event.accepted = [] := by
  cases hstep with
  | push item => simp [ConcurrentQueue.push, hactive]
  | pushVector items => simp [ConcurrentQueue.pushVector, hactive]
  | deactivate => exact ⟨rfl, rfl⟩
  | requestStop => exact ⟨hactive, rfl⟩
  | run _ => exact ⟨hactive, rfl⟩
  | runInternal hworker =>
      have hstep := workerStep_of_runInternal hworker
      exact ⟨hstep.active.trans hactive, hstep.accepts⟩

/-- A worker that has left its loop delivers nothing and does not come back. -/
theorem step_hasLeft (hleft : s.worker.HasLeft) (hstep : BatchingStep s event t) :
    t.worker.HasLeft ∧ event.batches = [] := by
  cases hstep with
  | push item => exact ⟨hleft, rfl⟩
  | pushVector items => exact ⟨hleft, rfl⟩
  | deactivate => exact ⟨hleft, rfl⟩
  | requestStop => exact ⟨hleft, rfl⟩
  | run hworker => simp [hworker] at hleft
  | runInternal hworker => exact (workerStep_of_runInternal hworker).leaves hleft

theorem step_deactivate (hstep : BatchingStep s .deactivate t) : t.queue.mIsActive = false := by
  cases hstep with
  | deactivate => rfl
  | runInternal hworker => exact absurd rfl (workerStep_of_runInternal hworker).keeps

/-- Only the worker reads the state of the consumer. -/
theorem step_observesStop (hstep : BatchingStep s event t) (hstop : event.ObservesStop) :
    WorkerStep s event t := by
  cases hstep with
  | runInternal hworker => exact workerStep_of_runInternal hworker
  | _ => rcases hstop with ⟨⟨⟩⟩ | ⟨⟨⟩⟩

end Steps

section Runs

variable {events : List (QueueEvent T)} {s t : BatchingSystem T}

theorem tracked_of_path (h : Path BatchingStep {} events s) : Tracked events s := by
  induction h with
  | nil => exact ⟨rfl, List.not_mem_nil, False.elim⟩
  | snoc _ hstep ih => exact ih.step hstep

/-- A queue that has been deactivated takes nothing more. -/
theorem accepted_of_inactive (h : Path BatchingStep s events t)
    (hactive : s.queue.mIsActive = false) :
    t.queue.mIsActive = false ∧ accepted events = [] := by
  induction h with
  | nil => exact ⟨hactive, rfl⟩
  | snoc _ hstep ih =>
      obtain ⟨hactive', hnone⟩ := step_inactive ih.1 hstep
      exact ⟨hactive', by rw [accepted_concat, ih.2, hnone, List.append_nil]⟩

/-- A worker that has left its loop hands out nothing more. -/
theorem batches_of_hasLeft (h : Path BatchingStep s events t) (hleft : s.worker.HasLeft) :
    t.worker.HasLeft ∧ batches events = [] := by
  induction h with
  | nil => exact ⟨hleft, rfl⟩
  | snoc _ hstep ih =>
      obtain ⟨hleft', hnone⟩ := step_hasLeft ih.1 hstep
      exact ⟨hleft', by rw [batches_concat, ih.2, hnone, List.append_nil]⟩

end Runs

/-- What the batches of a run are. -/
structure DeliversInOrder (events : List (QueueEvent T)) : Prop where
  inOrder : (batches events).flatten <+: accepted events
  nonempty : [] ∉ batches events
  closed : ∀ before after, events = before ++ .deactivate :: after →
    (batches events).flatten <+: accepted before
  stops : ∀ before event after, events = before ++ event :: after → event.ObservesStop →
    batches (currentIteration (before ++ [event]) ++ after) = []

/-- In every run the batches are the items that have been accepted, in their order and up to some
item. No batch is empty, no item of a batch has been pushed after the queue was deactivated, and an
iteration that observes the request to stop delivers nothing, and neither does anything later. -/
theorem batches_deliver {events : List (QueueEvent T)} {s : BatchingSystem T}
    (h : Path BatchingStep {} events s) : DeliversInOrder events := by
  have htracked := tracked_of_path h
  have hdelivered : (batches events).flatten <+: accepted events :=
    ⟨_, htracked.conserved.symm⟩
  refine ⟨hdelivered, htracked.nonempty, ?_, ?_⟩
  · rintro before after rfl
    obtain ⟨t, u, _, hstep, hafter⟩ := h.step_at
    have hnone := (accepted_of_inactive hafter (step_deactivate hstep)).2
    have htail : accepted (.deactivate :: after) = [] :=
      (accepted_append [.deactivate] after).trans (congrArg _ hnone)
    rwa [accepted_append, htail, List.append_nil] at hdelivered
  · rintro before event after rfl hstop
    obtain ⟨t, u, hbefore, hstep, hafter⟩ := h.step_at
    have hworker := step_observesStop hstep hstop
    obtain ⟨hleft, hiteration⟩ := hworker.observes hstop
    rw [batches_append, (batches_of_hasLeft hafter hleft).2, List.append_nil]
    rcases hiteration with ⟨seen, rfl⟩ | ht
    · rw [currentIteration_loopCondition]
      rfl
    · refine batches_currentIteration_concat ((tracked_of_path hbefore).iteration ht) ?_
      rcases hstop with rfl | rfl <;> rfl

section Example

/-- Two items are delivered, and a third one is pushed too late. -/
def sampleEvents : List (QueueEvent Nat) :=
  [.push 1 true, .run, .exchange .init, .loopCondition .running, .waited, .checkStop .running,
    .pushVector [2] true, .sleep, .checkStop .running, .flush, .onBatchReceived [1, 2],
    .deactivate, .push 3 false, .loopCondition .running, .waited, .requestStop,
    .checkStop .stopRequested, .finish]

/-- An execution in which all accepted items are handed out before the worker ends. -/
theorem path_sampleEvents :
    Path BatchingStep {} sampleEvents ⟨⟨false, []⟩, .stopped, .finished⟩ := by
  have hstarts : Path BatchingStep {}
      [.push 1 true, .run, .exchange .init, .loopCondition .running]
      ⟨⟨true, [1]⟩, .running, .waitForItems⟩ :=
    ((((Path.nil _).snoc (.push 1)).snoc (.run rfl)).snoc (.runInternal rfl)).snoc
      (.runInternal rfl)
  have hflushes : Path BatchingStep ⟨⟨true, [1]⟩, .running, .waitForItems⟩
      [.waited, .checkStop .running, .pushVector [2] true, .sleep, .checkStop .running]
      ⟨⟨true, [1, 2]⟩, .running, .flushing⟩ :=
    (((((Path.nil _).snoc (.runInternal rfl)).snoc (.runInternal rfl)).snoc
      (.pushVector [2])).snoc (.runInternal rfl)).snoc (.runInternal rfl)
  have hdelivers : Path BatchingStep ⟨⟨true, [1, 2]⟩, .running, .flushing⟩
      [.flush, .onBatchReceived [1, 2], .deactivate, .push 3 false, .loopCondition .running]
      ⟨⟨false, []⟩, .running, .waitForItems⟩ :=
    (((((Path.nil _).snoc (.runInternal rfl)).snoc (.runInternal rfl)).snoc
      .deactivate).snoc (.push 3)).snoc (.runInternal rfl)
  have hstops : Path BatchingStep ⟨⟨false, ([] : List Nat)⟩, .running, .waitForItems⟩
      [.waited, .requestStop, .checkStop .stopRequested, .finish]
      ⟨⟨false, []⟩, .stopped, .finished⟩ :=
    ((((Path.nil _).snoc (.runInternal rfl)).snoc .requestStop).snoc
      (.runInternal rfl)).snoc (.runInternal rfl)
  exact ((hstarts.trans hflushes).trans hdelivers).trans hstops

theorem sampleEvents_delivers : DeliversInOrder sampleEvents :=
  batches_deliver path_sampleEvents

end Example

end VhalCore.EventQueue
