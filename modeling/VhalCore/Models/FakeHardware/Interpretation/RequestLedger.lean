import VhalCore.Models.EventQueue.Native.ConcurrentQueue
import VhalCore.Models.FakeHardware.Native.PendingRequestHandler

/-!
# Where the accepted requests are

An accepted request is handled, in progress or in the queue, in this order. The results of a
callback have been passed to it or wait for its call. Every step preserves both.
-/

namespace VhalCore.FakeHardware

variable {Callback Request Result : Type} {answer : Nat → Request → Result}

/-- The requests that were flushed and not handled yet. -/
def HandlerThread.inProgress :
    HandlerThread Callback Request Result → List (RequestWithCallback Callback Request)
  | .handling items _ => items
  | _ => []

/-- The accepted requests with the results they have or will have. -/
def answered (answer : Nat → Request → Result)
    (accepted : List (RequestWithCallback Callback Request)) :
    List (RequestWithCallback Callback Request × Result) :=
  accepted.mapIdx fun i item => (item, answer i item.request)

theorem answered_append (accepted later : List (RequestWithCallback Callback Request)) :
    answered answer accepted <+: answered answer (accepted ++ later) := by
  rw [answered, answered, List.mapIdx_append]
  exact List.prefix_append _ _

theorem length_answered (accepted : List (RequestWithCallback Callback Request)) :
    (answered answer accepted).length = accepted.length := List.length_mapIdx

variable [DecidableEq Callback]

/-- The results in the calls of a callback. -/
def resultsFor (callback : Callback) (calls : List (Callback × List Result)) : List Result :=
  (calls.filter fun call => call.1 = callback).flatMap Prod.snd

/-- The results of the handled requests of a callback. -/
def answersFor (callback : Callback)
    (handled : List (RequestWithCallback Callback Request × Result)) : List Result :=
  (handled.filter fun request => request.1.callback = callback).map Prod.snd

theorem resultsFor_append (callback : Callback) (calls later : List (Callback × List Result)) :
    resultsFor callback (calls ++ later) =
      resultsFor callback calls ++ resultsFor callback later := by
  rw [resultsFor, List.filter_append, List.flatMap_append]
  rfl

/-- The answers to a callback are those of both parts. -/
theorem answersFor_append (callback : Callback)
    (handled later : List (RequestWithCallback Callback Request × Result)) :
    answersFor callback (handled ++ later) =
      answersFor callback handled ++ answersFor callback later := by
  rw [answersFor, List.filter_append, List.map_append]
  rfl

/-- The results that wait for the call of a callback. -/
def HandlerThread.pendingResults (callback : Callback) :
    HandlerThread Callback Request Result → List Result
  | .handling _ callbackToResults => callbackToResults.valueAt callback []
  | .calling todo => resultsFor callback todo
  | _ => []

/-- A result is collected for the callback of its request. -/
theorem valueAt_collect (callbackToResults : UnorderedMap Callback (List Result))
    (item : RequestWithCallback Callback Request) (result : Result) (callback : Callback) :
    UnorderedMap.valueAt (callbackToResults.insert item.callback
        (callbackToResults.valueAt item.callback [] ++ [result])) callback [] =
      callbackToResults.valueAt callback [] ++ answersFor callback [(item, result)] := by
  rw [UnorderedMap.valueAt, UnorderedMap.lookup_insert_eq, answersFor]
  by_cases hsame : callback = item.callback
  · rw [if_pos hsame, hsame, List.filter_cons_of_pos (by simp)]
    rfl
  · rw [if_neg hsame, List.filter_cons_of_neg (by simpa using Ne.symm hsame)]
    exact (List.append_nil _).symm

/-- A visit of the map calls each callback with its results. -/
theorem resultsFor_entries (order : Traversal Callback)
    (callbackToResults : UnorderedMap Callback (List Result)) (callback : Callback) :
    resultsFor callback (order.entries callbackToResults) =
      callbackToResults.valueAt callback [] := by
  have hnodup := (order.nodup_entries callbackToResults).filter
    fun call => decide (call.1 = callback)
  cases hlookup : callbackToResults.lookup callback with
  | none =>
      have hnone : (order.entries callbackToResults).filter
          (fun call => decide (call.1 = callback)) = [] := by
        rw [List.filter_eq_nil_iff]
        rintro ⟨other, results⟩ hin hsame
        have hsame : other = callback := of_decide_eq_true hsame
        rw [order.mem_entries, hsame, hlookup] at hin
        cases hin
      rw [resultsFor, hnone, UnorderedMap.valueAt, hlookup]
      rfl
  | some results =>
      have hone : (order.entries callbackToResults).filter
          (fun call => decide (call.1 = callback)) = [(callback, results)] := by
        refine List.perm_singleton.mp
          ((List.perm_ext_iff_of_nodup hnodup (List.nodup_singleton _)).mpr ?_)
        rintro ⟨other, others⟩
        rw [List.mem_filter, order.mem_entries, List.mem_singleton, Prod.mk.injEq]
        simp only [decide_eq_true_eq]
        constructor
        · rintro ⟨hother, rfl⟩
          rw [hlookup, Option.some.injEq] at hother
          exact ⟨rfl, hother.symm⟩
        · rintro ⟨rfl, rfl⟩
          exact ⟨hlookup, rfl⟩
      rw [resultsFor, hone, UnorderedMap.valueAt, hlookup]
      exact List.append_nil results

/-- Every accepted request and every result is in its place. -/
structure Accounted (answer : Nat → Request → Result)
    (s : PendingRequestHandler Callback Request Result) : Prop where
  requests : s.accepted = s.handled.map Prod.fst ++ s.mThread.inProgress ++ s.mQueue
  answers : s.handled = answered answer (s.handled.map Prod.fst)
  results : ∀ callback, resultsFor callback s.calls ++ s.mThread.pendingResults callback =
    answersFor callback s.handled

theorem accounted_start : Accounted answer ({} : PendingRequestHandler Callback Request Result) :=
  ⟨rfl, rfl, fun _ => rfl⟩

/-- Every step keeps the requests and the results in their places. -/
theorem HandlerStep.accounted {s t : PendingRequestHandler Callback Request Result}
    {event : HandlerEvent Callback Request} (hstep : HandlerStep answer s event t)
    (h : Accounted answer s) : Accounted answer t := by
  cases hstep with
  | idle => exact h
  | @push item =>
      rw [PendingRequestHandler.push]
      split
      · exact h
      · refine ⟨?_, h.answers, h.results⟩
        simp only [h.requests, List.append_assoc]
  | deactivate => exact ⟨h.requests, h.answers, h.results⟩
  | waitForItems hthread =>
      have hrequests := h.requests
      have hresults := h.results
      rw [hthread] at hrequests hresults
      split
      · exact ⟨hrequests, h.answers, hresults⟩
      · exact ⟨hrequests, h.answers, hresults⟩
  | flush hthread =>
      have hrequests := h.requests
      have hresults := h.results
      rw [hthread] at hrequests hresults
      refine ⟨?_, h.answers, fun callback => ?_⟩
      · rw [hrequests]
        simp only [HandlerThread.inProgress, List.append_nil]
      · exact hresults callback
  | @handle item items callbackToResults hthread =>
      have hrequests := h.requests
      have hresults := h.results
      rw [hthread] at hrequests hresults
      refine ⟨?_, ?_, fun callback => ?_⟩
      · simp only [hrequests, HandlerThread.inProgress, List.map_append, List.map_cons,
          List.map_nil, List.append_assoc, List.cons_append, List.nil_append]
      · have hanswers := h.answers
        rw [answered] at hanswers ⊢
        simp only [List.map_append, List.map_cons, List.map_nil, List.mapIdx_append,
          ← hanswers, List.length_map, List.mapIdx_cons, List.mapIdx_nil, Nat.zero_add]
      · have hold := hresults callback
        rw [HandlerThread.pendingResults] at hold
        simp only [HandlerThread.pendingResults, answersFor_append, ← hold, List.append_assoc,
          valueAt_collect]
  | @collected callbackToResults order hthread =>
      have hrequests := h.requests
      have hresults := h.results
      rw [hthread] at hrequests hresults
      refine ⟨hrequests, h.answers, fun callback => ?_⟩
      simp only [HandlerThread.pendingResults, resultsFor_entries]
      exact hresults callback
  | @call callback results todo hthread =>
      have hrequests := h.requests
      have hresults := h.results
      rw [hthread] at hrequests hresults
      refine ⟨hrequests, h.answers, fun other => ?_⟩
      rw [← hresults other, resultsFor_append, HandlerThread.pendingResults,
        HandlerThread.pendingResults, List.append_assoc, ← resultsFor_append]
      rfl
  | batchDone hthread =>
      have hrequests := h.requests
      have hresults := h.results
      rw [hthread] at hrequests hresults
      exact ⟨hrequests, h.answers, hresults⟩

/-- The queue of the handler. -/
def PendingRequestHandler.queue (s : PendingRequestHandler Callback Request Result) :
    EventQueue.ConcurrentQueue (RequestWithCallback Callback Request) :=
  ⟨s.mIsActive, s.mQueue⟩

/-- A step leaves the queue of the handler as it is, or is one call of the queue. -/
theorem HandlerStep.queue_cases {s t : PendingRequestHandler Callback Request Result}
    {event : HandlerEvent Callback Request} (h : HandlerStep answer s event t) :
    t.queue = s.queue ∨ (∃ item, event = .push item ∧ t.queue = s.queue.push item) ∨
      (event = .deactivate ∧ t.queue = s.queue.deactivate) ∨
      (event = .thread ∧ t.queue = s.queue.flush.2) := by
  cases h with
  | push =>
      refine Or.inr (Or.inl ⟨_, rfl, ?_⟩)
      cases hactive : s.mIsActive <;>
        simp [PendingRequestHandler.queue, PendingRequestHandler.push,
          EventQueue.ConcurrentQueue.push, hactive]
  | deactivate => exact Or.inr (Or.inr (Or.inl ⟨rfl, rfl⟩))
  | flush _ =>
      refine Or.inr (Or.inr (Or.inr ⟨rfl, ?_⟩))
      rw [EventQueue.ConcurrentQueue.flush_eq]
      rfl
  | idle | waitForItems _ _ | handle _ | collected _ | call _ | batchDone _ => exact Or.inl rfl

end VhalCore.FakeHardware
