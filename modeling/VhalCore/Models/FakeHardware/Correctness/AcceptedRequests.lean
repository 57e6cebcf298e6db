import VhalCore.Core.Fairness
import VhalCore.Models.FakeHardware.Interpretation.RequestLedger
import Mathlib.Data.Prod.Lex
import Mathlib.Order.WellFounded

/-!
# Every accepted request is answered

The requests are handled in the order in which they were accepted, and the results of a callback
are passed to it in this order, none twice. All of them are answered if every stop finds the
queue empty or the thread between its wait and its flush. A stop that finds requests in the queue
at any other time leaves them without an answer.
-/

namespace VhalCore.FakeHardware

variable {Callback Request Result : Type} [DecidableEq Callback]
  {answer : Nat → Request → Result} {s t : PendingRequestHandler Callback Request Result}
  {event : HandlerEvent Callback Request}

/-- The handled requests are the first accepted ones in their order, and the results passed to a
callback are the first of those of its handled requests. -/
def InOrder (answer : Nat → Request → Result)
    (s : PendingRequestHandler Callback Request Result) : Prop :=
  s.handled <+: answered answer s.accepted ∧
    ∀ callback, resultsFor callback s.calls <+: answersFor callback s.handled

/-- All requests accepted in a state are handled in a later one, and their results are passed. -/
def Answers (answer : Nat → Request → Result)
    (s t : PendingRequestHandler Callback Request Result) : Prop :=
  answered answer s.accepted <+: t.handled ∧
    ∀ callback, answersFor callback (answered answer s.accepted) <+: resultsFor callback t.calls

/-- A stop leaves no request in the queue, or the thread is about to flush it. -/
def StopsInTime (x : Execution (HandlerStep answer)
    ({} : PendingRequestHandler Callback Request Result)) : Prop :=
  ∀ i, x.event i = .deactivate → (x.state i).mIsActive = true →
    (x.state i).mQueue = [] ∨ (x.state i).mThread = .flushing

/-- Accounted requests are answered in the order in which they were accepted. -/
theorem Accounted.inOrder (h : Accounted answer s) : InOrder answer s := by
  constructor
  · have hinitial : answered answer (s.handled.map Prod.fst) <+: answered answer
        (s.handled.map Prod.fst ++ (s.mThread.inProgress ++ s.mQueue)) := answered_append _ _
    rw [← h.answers, ← List.append_assoc, ← h.requests] at hinitial
    exact hinitial
  · intro callback
    exact ⟨_, h.results callback⟩

/-- Handled requests whose results do not wait for a call are answered. -/
theorem Accounted.answers_of_handled (h : Accounted answer t)
    (hhandled : s.accepted.length ≤ t.handled.length)
    (hpending : ∀ callback, t.mThread.pendingResults callback = [])
    (haccepted : s.accepted <+: t.accepted) : Answers answer s t := by
  obtain ⟨later, hlater⟩ := haccepted
  have hinitial : answered answer s.accepted <+: t.handled := by
    refine List.prefix_of_prefix_length_le ?_ h.inOrder.1 ?_
    · rw [← hlater]
      exact answered_append _ _
    · rw [length_answered]
      exact hhandled
  refine ⟨hinitial, fun callback => ?_⟩
  have hresults := h.results callback
  rw [hpending, List.append_nil] at hresults
  obtain ⟨others, hothers⟩ := hinitial
  rw [hresults, ← hothers, answersFor_append]
  exact List.prefix_append _ _

/-- In a state without work everything accepted before is answered. -/
theorem Accounted.answers_of_idle (h : Accounted answer t) (hqueue : t.mQueue = [])
    (hprogress : t.mThread.inProgress = [])
    (hpending : ∀ callback, t.mThread.pendingResults callback = [])
    (haccepted : s.accepted <+: t.accepted) : Answers answer s t := by
  refine h.answers_of_handled ?_ hpending haccepted
  have hrequests := congrArg List.length h.requests
  rw [hqueue, hprogress, List.append_nil, List.append_nil, List.length_map] at hrequests
  rw [← hrequests]
  exact haccepted.length_le

/-- A deactivated queue is empty or about to be flushed, and only then the thread has ended. -/
structure Flushable (s : PendingRequestHandler Callback Request Result) : Prop where
  flushed : s.mIsActive = false → s.mQueue = [] ∨ s.mThread = .flushing
  ended : s.mThread = .ended → s.mIsActive = false

omit [DecidableEq Callback] in
theorem flushable_start : Flushable ({} : PendingRequestHandler Callback Request Result) :=
  ⟨nofun, nofun⟩

/-- A step that is no late stop keeps the queue flushable. -/
theorem HandlerStep.flushable (hstep : HandlerStep answer s event t)
    (hstop : event = .deactivate → s.mIsActive = true → s.mQueue = [] ∨ s.mThread = .flushing)
    (h : Flushable s) : Flushable t := by
  cases hstep with
  | idle => exact h
  | push =>
      rw [PendingRequestHandler.push]
      split
      · exact h
      · next hactive =>
        exact ⟨fun hinactive => absurd hinactive hactive, h.ended⟩
  | deactivate =>
      refine ⟨fun _ => ?_, fun _ => rfl⟩
      cases hactive : s.mIsActive with
      | true => exact hstop rfl hactive
      | false => exact h.flushed hactive
  | waitForItems hthread =>
      cases hactive : s.mIsActive with
      | true => exact ⟨by rintro ⟨⟩, by rintro ⟨⟩⟩
      | false =>
          refine ⟨fun _ => Or.inl ?_, fun _ => rfl⟩
          refine (h.flushed hactive).resolve_right ?_
          rw [hthread]
          rintro ⟨⟩
  | flush hthread => exact ⟨fun _ => Or.inl rfl, by rintro ⟨⟩⟩
  | handle hthread | collected hthread | call hthread | batchDone hthread =>
      refine ⟨fun hinactive => Or.inl ((h.flushed hinactive).resolve_right ?_), by rintro ⟨⟩⟩
      rw [hthread]
      rintro ⟨⟩

/-- Accepted requests stay accepted. -/
theorem HandlerStep.accepted_kept (hstep : HandlerStep answer s event t) :
    s.accepted <+: t.accepted := by
  cases hstep with
  | push =>
      rw [PendingRequestHandler.push]
      split
      · exact List.prefix_rfl
      · exact List.prefix_append _ _
  | idle => exact List.prefix_rfl
  | deactivate => exact List.prefix_rfl
  | waitForItems => exact List.prefix_rfl
  | flush => exact List.prefix_rfl
  | handle => exact List.prefix_rfl
  | collected => exact List.prefix_rfl
  | call => exact List.prefix_rfl
  | batchDone => exact List.prefix_rfl

section Progress

/-- The number of steps that the thread takes at most until it is to flush again. -/
def HandlerThread.stepsToFlush : HandlerThread Callback Request Result → Nat
  | .ended => 0
  | .flushing => 1
  | .waitingForItems => 2
  | .calling todo => todo.length + 3
  | .handling items callbackToResults => 2 * items.length + callbackToResults.keys.card + 4

/-- Some of the first `n` accepted requests wait for a flush. -/
def waits (n : Nat) (s : PendingRequestHandler Callback Request Result) : Nat :=
  if n ≤ s.handled.length + s.mThread.inProgress.length then 0 else 1

/-- What is left to be done until the first `n` accepted requests are answered. -/
def remaining (n : Nat) (s : PendingRequestHandler Callback Request Result) : Nat ×ₗ Nat :=
  toLex (waits n s, s.mThread.stepsToFlush)

/-- The visit of a map is as long as the map. -/
theorem length_entries_le (order : Traversal Callback)
    (callbackToResults : UnorderedMap Callback (List Result)) :
    (order.entries callbackToResults).length ≤ callbackToResults.keys.card := by
  have hlength : (order.visit callbackToResults.keys).length = callbackToResults.keys.card := by
    rw [← List.toFinset_card_of_nodup (order.nodup _)]
    congr 1
    ext callback
    rw [List.mem_toFinset, order.mem]
  rw [← hlength]
  exact List.length_filterMap_le _ _

/-- An insertion adds at most one key. -/
theorem card_keys_insert_le (callbackToResults : UnorderedMap Callback (List Result))
    (callback : Callback) (results : List Result) :
    (callbackToResults.insert callback results).keys.card ≤ callbackToResults.keys.card + 1 := by
  refine (Finset.card_le_card ?_).trans (Finset.card_insert_le callback callbackToResults.keys)
  intro other hother
  obtain ⟨value, hvalue⟩ := (UnorderedMap.mem_keys_iff _ _).mp hother
  rw [UnorderedMap.lookup_insert_eq] at hvalue
  rw [Finset.mem_insert, UnorderedMap.mem_keys_iff]
  split at hvalue
  · next heq => exact Or.inl heq
  · exact Or.inr ⟨value, hvalue⟩

/-- Only the thread makes progress. -/
theorem HandlerStep.remaining_eq (hstep : HandlerStep answer s event t)
    (hevent : event ≠ .thread) (n : Nat) : remaining n t = remaining n s := by
  cases hstep with
  | idle => rfl
  | push =>
      rw [PendingRequestHandler.push]
      split
      · rfl
      · rfl
  | deactivate => rfl
  | waitForItems => exact absurd rfl hevent
  | flush => exact absurd rfl hevent
  | handle => exact absurd rfl hevent
  | collected => exact absurd rfl hevent
  | call => exact absurd rfl hevent
  | batchDone => exact absurd rfl hevent

/-- The thread goes on with the requests of its batch, or starts a batch with those that wait. -/
theorem HandlerStep.remaining_lt (hstep : HandlerStep answer s .thread t) {n : Nat}
    (haccounted : Accounted answer s) (hn : n ≤ s.accepted.length)
    (hwaiting : s.mThread = .waitingForItems → s.mIsActive = true)
    (hflushing : s.mThread = .flushing → s.handled.length < n) :
    remaining n t < remaining n s := by
  have hsame {thread : HandlerThread Callback Request Result} (hthread : s.mThread = thread)
      (hflushed : t.handled.length + t.mThread.inProgress.length =
        s.handled.length + thread.inProgress.length)
      (hsteps : t.mThread.stepsToFlush < thread.stepsToFlush) :
      remaining n t < remaining n s := by
    rw [remaining, remaining, waits, waits, hflushed, hthread]
    exact Prod.Lex.toLex_lt_toLex.mpr (Or.inr ⟨rfl, hsteps⟩)
  cases hstep with
  | waitForItems hthread =>
      have hactive := hwaiting hthread
      refine hsame hthread ?_ ?_
      · simp only [if_pos hactive]
        rfl
      · rw [if_pos hactive]
        exact Nat.one_lt_two
  | flush hthread =>
      have hrequests := congrArg List.length haccounted.requests
      rw [hthread] at hrequests
      simp only [HandlerThread.inProgress, List.length_append, List.length_map, List.length_nil,
        Nat.add_zero] at hrequests
      have hbefore : waits n s = 1 := by
        rw [waits, hthread]
        exact if_neg (Nat.not_le_of_lt (hflushing hthread))
      rw [remaining, remaining, hbefore]
      refine Prod.Lex.toLex_lt_toLex.mpr (Or.inl ?_)
      exact (congrArg (· < 1) (if_pos (hrequests ▸ hn))).mpr Nat.zero_lt_one
  | @handle item items callbackToResults hthread =>
      refine hsame hthread ?_ ?_
      · simp only [HandlerThread.inProgress, List.length_append, List.length_cons,
          List.length_nil]
        omega
      · have hcard := card_keys_insert_le callbackToResults item.callback
          (callbackToResults.valueAt item.callback [] ++ [answer s.handled.length item.request])
        simp only [HandlerThread.stepsToFlush, List.length_cons]
        omega
  | @collected callbackToResults order hthread =>
      refine hsame hthread rfl ?_
      have hlength := length_entries_le order callbackToResults
      simp only [HandlerThread.stepsToFlush, List.length_nil]
      omega
  | call hthread =>
      refine hsame hthread rfl ?_
      simp only [HandlerThread.stepsToFlush, List.length_cons]
      omega
  | batchDone hthread => exact hsame hthread rfl (Nat.lt_succ_self 2)

/-- The thread can go on, unless all requests accepted before are answered. -/
theorem Flushable.exists_step (hflushable : Flushable t) (haccounted : Accounted answer t)
    (haccepted : s.accepted <+: t.accepted) (hnot : ¬Answers answer s t) :
    ∃ u, HandlerStep answer t .thread u := by
  have hidle (hprogress : t.mThread.inProgress = [])
      (hpending : ∀ callback, t.mThread.pendingResults callback = []) : t.mQueue ≠ [] :=
    fun hqueue => hnot (haccounted.answers_of_idle hqueue hprogress hpending haccepted)
  cases hthread : t.mThread with
  | waitingForItems =>
      rw [hthread] at hidle
      exact ⟨_, .waitForItems hthread (Or.inl (hidle rfl fun _ => rfl))⟩
  | flushing => exact ⟨_, .flush hthread⟩
  | handling items callbackToResults =>
      cases items with
      | nil =>
          let order : Traversal Callback :=
            ⟨Finset.toList, Finset.nodup_toList, fun _ _ => Finset.mem_toList⟩
          exact ⟨_, @HandlerStep.collected _ _ _ _ answer t _ order hthread⟩
      | cons item items => exact ⟨_, .handle hthread⟩
  | calling todo =>
      cases todo with
      | nil => exact ⟨_, .batchDone hthread⟩
      | cons call todo => exact ⟨_, .call hthread⟩
  | ended =>
      have hinactive := hflushable.ended hthread
      rw [hthread] at hidle
      refine absurd (hflushable.flushed hinactive) ?_
      rw [hthread]
      exact not_or.mpr ⟨hidle rfl fun _ => rfl, nofun⟩

/-- If no stop is late, what was accepted is answered at some time. -/
theorem exists_answers {x : Execution (HandlerStep answer)
    ({} : PendingRequestHandler Callback Request Result)} (hfair : x.FairTo .thread)
    (hstops : StopsInTime x) (i : Nat) :
    ∃ j, i ≤ j ∧ Answers answer (x.state i) (x.state j) := by
  have hkept (j : Nat) : Accounted answer (x.state j) ∧ Flushable (x.state j) :=
    x.always (P := fun s => Accounted answer s ∧ Flushable s) ⟨accounted_start, flushable_start⟩
      (fun k h => ⟨(x.step k).accounted h.1, (x.step k).flushable (hstops k) h.2⟩) j
  have hlower (j : Nat) (haccepted : (x.state i).accepted <+: (x.state j).accepted)
      (hnot : ¬Answers answer (x.state i) (x.state j)) (hevent : x.event j = .thread) :
      remaining (x.state i).accepted.length (x.state (j + 1)) <
        remaining (x.state i).accepted.length (x.state j) := by
    obtain ⟨haccounted, hflushable⟩ := hkept j
    have hstep := x.step j
    rw [hevent] at hstep
    refine hstep.remaining_lt haccounted haccepted.length_le (fun hthread => ?_)
      fun hthread => ?_
    · by_contra hinactive
      refine hnot (haccounted.answers_of_idle ?_ ?_ ?_ haccepted)
      · refine (hflushable.flushed (Bool.eq_false_of_not_eq_true hinactive)).resolve_right ?_
        rw [hthread]
        exact nofun
      · rw [hthread]
        rfl
      · rw [hthread]
        exact fun _ => rfl
    · by_contra hhandled
      refine hnot (haccounted.answers_of_handled (not_lt.mp hhandled) ?_ haccepted)
      rw [hthread]
      exact fun _ => rfl
  refine hfair.leadsTo_of_measure (remaining (x.state i).accepted.length)
    (P := fun s => (∃ j, s = x.state j) ∧ (x.state i).accepted <+: s.accepted)
    ⟨⟨i, rfl⟩, List.prefix_rfl⟩ (fun j h _ => ?_) (fun j h hnot => ?_) (fun j h hnot => ?_)
    fun j h hnot hevent => hlower j h.2 hnot hevent
  · exact ⟨⟨j + 1, rfl⟩, h.2.trans (x.step j).accepted_kept⟩
  · exact (hkept j).2.exists_step (hkept j).1 h.2 hnot
  · by_cases hevent : x.event j = .thread
    · exact (hlower j h.2 hnot hevent).le
    · exact ((x.step j).remaining_eq hevent _).le

end Progress

/-- A thread that has ended takes no step. -/
theorem not_step_of_ended (hended : s.mThread = .ended)
    (t : PendingRequestHandler Callback Request Result) : ¬HandlerStep answer s .thread t := by
  intro hstep
  cases hstep with
  | waitForItems hthread => exact nomatch hended.symm.trans hthread
  | flush hthread => exact nomatch hended.symm.trans hthread
  | handle hthread => exact nomatch hended.symm.trans hthread
  | collected hthread => exact nomatch hended.symm.trans hthread
  | call hthread => exact nomatch hended.symm.trans hthread
  | batchDone hthread => exact nomatch hended.symm.trans hthread

section LateStop

/-- The queue has requests that are not flushed any more. -/
structure Stuck (s : PendingRequestHandler Callback Request Result) : Prop where
  inactive : s.mIsActive = false
  queue : s.mQueue ≠ []
  thread : s.mThread ≠ .flushing

/-- A stuck handler stays so, and accepts nothing more. -/
theorem HandlerStep.stuck (hstep : HandlerStep answer s event t) (h : Stuck s) :
    Stuck t ∧ t.accepted = s.accepted := by
  cases hstep with
  | idle => exact ⟨h, rfl⟩
  | push =>
      rw [PendingRequestHandler.push, if_pos h.inactive]
      exact ⟨h, rfl⟩
  | deactivate => exact ⟨⟨rfl, h.queue, h.thread⟩, rfl⟩
  | waitForItems hthread =>
      refine ⟨⟨h.inactive, h.queue, ?_⟩, rfl⟩
      simp only [h.inactive]
      rintro ⟨⟩
  | flush hthread => exact absurd hthread h.thread
  | handle | collected | call | batchDone => exact ⟨⟨h.inactive, h.queue, by rintro ⟨⟩⟩, rfl⟩

/-- Requests that are stuck in the queue are not answered. -/
theorem Stuck.not_answers (h : Stuck t) (haccounted : Accounted answer t)
    (haccepted : t.accepted = s.accepted) : ¬Answers answer s t := by
  intro hanswers
  have hhandled := hanswers.1.length_le
  have hrequests := congrArg List.length haccounted.requests
  have hqueue := List.length_pos_of_ne_nil h.queue
  rw [length_answered, ← haccepted] at hhandled
  simp only [List.length_append, List.length_map] at hrequests
  omega

/-- A stop that is late leaves requests without an answer. -/
theorem stopsInTime_of_answers {x : Execution (HandlerStep answer)
    ({} : PendingRequestHandler Callback Request Result)}
    (h : ∀ i, ∃ j, i ≤ j ∧ Answers answer (x.state i) (x.state j)) : StopsInTime x := by
  intro i hevent _
  by_contra hlate
  rw [not_or] at hlate
  have hstep := x.step i
  rw [hevent] at hstep
  have hstuck : Stuck (x.state (i + 1)) := by
    generalize x.state (i + 1) = t at hstep
    cases hstep
    exact ⟨rfl, hlate.1, hlate.2⟩
  obtain ⟨j, hj, hanswers⟩ := h (i + 1)
  have hstays : Stuck (x.state j) ∧ (x.state j).accepted = (x.state (i + 1)).accepted :=
    x.always_from (P := fun s => Stuck s ∧ s.accepted = (x.state (i + 1)).accepted) hj
      ⟨hstuck, rfl⟩ fun k hk =>
        have hnext := (x.step k).stuck hk.1
        ⟨hnext.1, hnext.2.trans hk.2⟩
  have haccounted : Accounted answer (x.state j) :=
    x.always accounted_start (fun k hk => (x.step k).accounted hk) j
  exact hstays.1.not_answers haccounted hstays.2 hanswers

end LateStop

/-- In every fair run the requests are handled and answered in order, and all accepted requests
are answered, those of a stopped handler by the end of its thread, exactly if no stop is late. -/
theorem accepted_answered_iff (x : Execution (HandlerStep answer)
    ({} : PendingRequestHandler Callback Request Result)) (hfair : x.FairTo .thread) :
    ((∀ i, InOrder answer (x.state i)) ∧
      (∀ i, ∃ j, i ≤ j ∧ Answers answer (x.state i) (x.state j)) ∧
      ∀ i, (x.state i).mThread = .ended → Answers answer (x.state i) (x.state i)) ↔
    StopsInTime x := by
  refine ⟨fun h => stopsInTime_of_answers h.2.1, fun hstops => ?_⟩
  have hkept (j : Nat) : Accounted answer (x.state j) ∧ Flushable (x.state j) :=
    x.always (P := fun s => Accounted answer s ∧ Flushable s) ⟨accounted_start, flushable_start⟩
      (fun k h => ⟨(x.step k).accounted h.1, (x.step k).flushable (hstops k) h.2⟩) j
  refine ⟨fun i => (hkept i).1.inOrder, exists_answers hfair hstops, fun i hended => ?_⟩
  obtain ⟨haccounted, hflushable⟩ := hkept i
  by_contra hnot
  obtain ⟨u, hu⟩ := hflushable.exists_step haccounted List.prefix_rfl hnot
  exact not_step_of_ended hended u hu

/-- A stop comes between the wait and the flush of a request, and the request is answered. -/
theorem stopBeforeFlush_answered :
    ∃ x : Execution (HandlerStep fun _ request => request + 1)
        ({} : PendingRequestHandler Nat Nat Nat),
      x.FairTo .thread ∧ x.event 0 = .push ⟨5, 0⟩ ∧ x.event 2 = .deactivate ∧
      (∃ i, (x.state i).mThread = .ended) ∧
      ∀ i, (x.state i).mThread = .ended →
        Answers (fun _ request => request + 1) (x.state i) (x.state i) := by
  have hpath : Path (HandlerStep fun _ request => request + 1)
      ({} : PendingRequestHandler Nat Nat Nat) [.push ⟨5, 0⟩] _ := .single .push
  have hpath := hpath.snoc (.waitForItems rfl (Or.inl (List.cons_ne_nil _ _)))
  have hpath := hpath.snoc .deactivate
  have hpath := hpath.snoc (.flush rfl)
  have hpath := hpath.snoc (.handle rfl)
  have hpath := hpath.snoc (@HandlerStep.collected _ _ _ _ _ _ _ (.ascending Nat) rfl)
  have hpath := hpath.snoc (.call rfl)
  have hpath := hpath.snoc (.batchDone rfl)
  have hpath := hpath.snoc (.waitForItems rfl (Or.inr rfl))
  obtain ⟨x, hevents, hfinal⟩ := hpath.exists_execution .idle
  have hfair : x.FairTo .thread :=
    Execution.fairTo_of_final (fun i hi => (hfinal i hi).1) (not_step_of_ended rfl)
  have hpushed : x.state 1 = ({} : PendingRequestHandler Nat Nat Nat).push ⟨5, 0⟩ := by
    have hstep := x.step 0
    rw [x.starts, hevents 0 _ rfl] at hstep
    generalize x.state (0 + 1) = t at hstep
    cases hstep
    rfl
  have hwoken : (x.state 2).mThread = .flushing := by
    have hstep := x.step 1
    rw [hpushed, hevents 1 _ rfl] at hstep
    generalize x.state (1 + 1) = t at hstep
    cases hstep with
    | waitForItems => rfl
    | flush hthread => cases hthread
    | handle hthread => cases hthread
    | collected hthread => cases hthread
    | call hthread => cases hthread
    | batchDone hthread => cases hthread
  have hstops : StopsInTime x := by
    intro i hevent _
    match i with
    | 0 => cases (hevents 0 _ rfl).symm.trans hevent
    | 1 => cases (hevents 1 _ rfl).symm.trans hevent
    | 2 => exact Or.inr hwoken
    | 3 => cases (hevents 3 _ rfl).symm.trans hevent
    | 4 => cases (hevents 4 _ rfl).symm.trans hevent
    | 5 => cases (hevents 5 _ rfl).symm.trans hevent
    | 6 => cases (hevents 6 _ rfl).symm.trans hevent
    | 7 => cases (hevents 7 _ rfl).symm.trans hevent
    | 8 => cases (hevents 8 _ rfl).symm.trans hevent
    | n + 9 => cases (hfinal (n + 9) (Nat.le_add_left 9 n)).2.symm.trans hevent
  refine ⟨x, hfair, hevents 0 _ rfl, hevents 2 _ rfl, ⟨9, ?_⟩, ?_⟩
  · rw [(hfinal 9 le_rfl).1]
    rfl
  · exact ((accepted_answered_iff x hfair).mpr hstops).2.2

/-- A request is accepted and the handler is stopped before its thread wakes up: the thread ends,
and the request is never handled. -/
theorem stoppedRequest_unanswered :
    ∃ s, Path (HandlerStep fun _ request => request + 1) ({} : PendingRequestHandler Nat Nat Nat)
        [.push ⟨5, 0⟩, .deactivate, .thread] s ∧
      s.accepted = [⟨5, 0⟩] ∧ s.mThread = .ended ∧
      ∀ events t, Path (HandlerStep fun _ request => request + 1) s events t →
        t.handled = [] ∧ t.calls = [] := by
  have hpath : Path (HandlerStep fun _ request => request + 1)
      ({} : PendingRequestHandler Nat Nat Nat) [.push ⟨5, 0⟩] _ := .single .push
  have hpath := hpath.snoc .deactivate
  have hpath := hpath.snoc (.waitForItems rfl (Or.inr rfl))
  refine ⟨_, hpath, rfl, rfl, fun events t hlater => ?_⟩
  have hended : t.mThread = .ended ∧ t.handled = [] ∧ t.calls = [] := by
    refine hlater.invariant (P := fun s => s.mThread = .ended ∧ s.handled = [] ∧ s.calls = [])
      ⟨rfl, rfl, rfl⟩ fun s event u h hstep => ?_
    cases event with
    | thread => exact absurd hstep (not_step_of_ended h.1 u)
    | idle | deactivate =>
        cases hstep
        exact h
    | push item =>
        cases hstep
        rw [PendingRequestHandler.push]
        split
        · exact h
        · exact h
  exact hended.2

end VhalCore.FakeHardware
