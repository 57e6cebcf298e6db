import VhalCore.Core.Fairness
import VhalCore.Models.Grpc.Interpretation.ServerInvariant
import Mathlib.Data.Prod.Lex

/-!
# Progress of the writer

The messages that the writer owes are all that were enqueued, up to the time at which it is
told to stop. While it owes a message that is not handled it can go on, and each of its
steps lowers a measure that no other step changes: first the turns until the message is in
a batch, then the messages of the batches, then what is left of the message at the front.
-/

namespace VhalCore.ProxyServer

variable {M : StreamKind → Type}

/-- What a stream never forgets: the messages, and which of them a connection came before. -/
structure Channel.Grows {N : Type} (c c' : Channel N) : Prop where
  enqueued : c.enqueued <+: c'.enqueued
  joined : ∀ id, (c.connection id).handler.joined = true →
    (c'.connection id).handler.joined = true ∧
      (c'.connection id).handledBefore = (c.connection id).handledBefore

namespace Channel

variable {N : Type}

theorem Grows.refl (c : Channel N) : c.Grows c := ⟨List.prefix_refl _, fun _ h => ⟨h, rfl⟩⟩

/-- A stream that grows twice grows. -/
theorem Grows.trans {c c' c'' : Channel N} (h : c.Grows c') (h' : c'.Grows c'') : c.Grows c'' where
  enqueued := h.enqueued.trans h'.enqueued
  joined id hjoined := by
    obtain ⟨hjoined', heq⟩ := h.joined id hjoined
    obtain ⟨hjoined'', heq'⟩ := h'.joined id hjoined'
    exact ⟨hjoined'', heq'.trans heq⟩

/-- A change of a connection that keeps it joined lets the stream grow. -/
theorem Grows.onConnection {c : Channel N} {id : Nat} {f : Connection N → Connection N}
    (h : (c.connection id).handler.joined = true → (f (c.connection id)).handler.joined = true ∧
      (f (c.connection id)).handledBefore = (c.connection id).handledBefore) :
    c.Grows (c.onConnection id f) where
  enqueued := List.prefix_refl _
  joined other hjoined := by
    by_cases heq : other = id
    · subst heq
      rw [c.onConnection_same]
      exact h hjoined
    · rw [c.onConnection_other heq]
      exact ⟨hjoined, rfl⟩

/-- Registering a connection lets the stream grow. -/
theorem grows_register {c : Channel N} {id : Nat} (h : (c.connection id).handler = .accepted) :
    c.Grows (c.register id) := by
  have hnot : (c.connection id).handler.joined = true →
      (c.connection id).handler.joined = false := by
    rw [h]
    exact fun _ => rfl
  have hconnection : c.Grows (c.onConnection id fun connection =>
      { connection with
        handler := .registered
        handledBefore := c.handled
        enqueuedBefore := c.enqueued.length }) :=
    Grows.onConnection fun hjoined => absurd (hjoined.symm.trans (hnot hjoined)) (by decide)
  exact ⟨hconnection.enqueued, hconnection.joined⟩

end Channel

theorem Connection.write_handler {N : Type} (c : Connection N) (message : N) (ok : Bool) :
    (c.write message ok).handler = c.handler ∧
      (c.write message ok).handledBefore = c.handledBefore := by
  unfold Connection.write
  split <;> exact ⟨rfl, rfl⟩

/-- A change of one stream that forgets nothing. -/
theorem Server.grows_onChannel {s : Server M} {stream : StreamKind}
    {f : Channel (M stream) → Channel (M stream)}
    (h : (s.channel stream).Grows (f (s.channel stream))) (other : StreamKind) :
    (s.channel other).Grows ((s.onChannel stream f).channel other) :=
  Server.onChannel_forall (P := fun kind c => (s.channel kind).Grows c) h
    (fun _ _ => .refl _) other

/-- No step forgets anything. -/
theorem ServerStep.grows {s s' : Server M} {event : ServerEvent M} (hstep : ServerStep s event s')
    (stream : StreamKind) : (s.channel stream).Grows (s'.channel stream) := by
  cases hstep with
  | push => exact s.grows_onChannel ⟨List.prefix_append _ _, fun _ h => ⟨h, rfl⟩⟩ stream
  | accept habsent _ =>
      apply s.grows_onChannel _ stream
      apply Channel.Grows.onConnection
      rw [habsent]
      exact fun hjoined => absurd hjoined Bool.false_ne_true
  | register haccepted _ => exact s.grows_onChannel (Channel.grows_register haccepted) stream
  | handlerReturns _ _ =>
      exact s.grows_onChannel (Channel.Grows.onConnection fun _ => ⟨rfl, rfl⟩) stream
  | write _ _ =>
      apply s.grows_onChannel _ stream
      apply Channel.Grows.onConnection
      intro hjoined
      obtain ⟨hhandler, hbefore⟩ := Connection.write_handler _ _ _
      rw [hhandler, hbefore]
      exact ⟨hjoined, rfl⟩
  | allWritten _ =>
      exact s.grows_onChannel (f := (·.handle.pop)) ⟨List.prefix_refl _, fun _ h => ⟨h, rfl⟩⟩
        stream
  | someBroken _ _ =>
      exact s.grows_onChannel (f := (·.handle)) ⟨List.prefix_refl _, fun _ h => ⟨h, rfl⟩⟩ stream
  | erase _ _ =>
      exact s.grows_onChannel (f := fun c => (c.erase _).pop)
        ⟨List.prefix_refl _, fun _ h => ⟨h, rfl⟩⟩ stream
  | closeConnection _ =>
      exact s.grows_onChannel (Channel.Grows.onConnection fun hjoined => ⟨hjoined, rfl⟩) stream
  | idle | drain _ _ | take _ _ | nextStream _ _ | endTurn _ _ | stopWriter _
  | lockConnections _ _ | shutdownServer _ | serverIsDown _ _ =>
      exact ⟨List.prefix_refl _, fun _ h => ⟨h, rfl⟩⟩

namespace Server

/-- The number of messages that the writer owes. -/
def owed (s : Server M) (stream : StreamKind) : Nat :=
  if s.mStopEventWriter then (s.channel stream).enqueuedAtStop
  else (s.channel stream).enqueued.length

/-- The number of messages that are handled or in the batch. -/
def reach (s : Server M) (stream : StreamKind) : Nat :=
  (s.channel stream).handled + ((s.channel stream).unhandled (s.phase stream)).length

/-- The turns until a number of messages of a stream are in the batch. -/
def turnsLeft (s : Server M) (stream : StreamKind) (n : Nat) : Nat :=
  if n ≤ s.reach stream then 0 else if s.writer = .waiting then 1 else 2

/-- The messages of the batches. -/
def batched (s : Server M) : Nat :=
  (s.channel .value).batch.length + (s.channel .change).batch.length

end Server

/-- The place in the turn. -/
def WriterStage.rank : WriterStage → Nat
  | .sending .value => 6
  | .writing .value _ _ => 5
  | .erasing .value _ => 4
  | .sending .change => 3
  | .writing .change _ _ => 2
  | .erasing .change _ => 1
  | .waiting | .stopped => 0

/-- The connections that are left in the loop. -/
def WriterStage.todo : WriterStage → Nat
  | .writing _ todo _ => todo.length
  | _ => 0

/-- What the writer has to do until a number of messages of a stream are handled. -/
def Server.work (s : Server M) (stream : StreamKind) (n : Nat) : Nat ×ₗ Nat ×ₗ Nat ×ₗ Nat :=
  toLex (s.turnsLeft stream n, toLex (s.batched, toLex (s.writer.rank, s.writer.todo)))

section Work

variable {s s' : Server M} {stream : StreamKind} {n : Nat}

theorem Server.work_lt_of_turns (h : s'.turnsLeft stream n < s.turnsLeft stream n) :
    s'.work stream n < s.work stream n := Prod.Lex.toLex_lt_toLex.mpr (Or.inl h)

theorem Server.work_lt_of_batched (hturns : s'.turnsLeft stream n = s.turnsLeft stream n)
    (h : s'.batched < s.batched) : s'.work stream n < s.work stream n :=
  Prod.Lex.toLex_lt_toLex.mpr (Or.inr ⟨hturns, Prod.Lex.toLex_lt_toLex.mpr (Or.inl h)⟩)

/-- A later stage of the writer leaves less work. -/
theorem Server.work_lt_of_stage (hturns : s'.turnsLeft stream n = s.turnsLeft stream n)
    (hbatched : s'.batched = s.batched)
    (h : s'.writer.rank < s.writer.rank ∨
      s'.writer.rank = s.writer.rank ∧ s'.writer.todo < s.writer.todo) :
    s'.work stream n < s.work stream n :=
  Prod.Lex.toLex_lt_toLex.mpr (Or.inr ⟨hturns, Prod.Lex.toLex_lt_toLex.mpr
    (Or.inr ⟨hbatched, Prod.Lex.toLex_lt_toLex.mpr h⟩)⟩)

/-- The turns that are left change at the ends of a turn only. -/
theorem Server.turnsLeft_eq (hreach : s'.reach stream = s.reach stream)
    (hw : s.writer ≠ .waiting) (hw' : s'.writer ≠ .waiting) :
    s'.turnsLeft stream n = s.turnsLeft stream n := by
  simp only [Server.turnsLeft, hreach, hw, hw', if_false]

theorem Server.turnsLeft_lt_two (h : s.writer = .waiting) : s.turnsLeft stream n < 2 := by
  rw [Server.turnsLeft, if_pos h]
  split <;> decide

/-- What a change of one stream does to the batches. -/
theorem Server.batched_onChannel (s : Server M) (kind : StreamKind)
    (f : Channel (M kind) → Channel (M kind)) :
    (s.onChannel kind f).batched + (s.channel kind).batch.length =
      s.batched + (f (s.channel kind)).batch.length := by
  have hsame := s.onChannel_same kind f
  cases kind with
  | value =>
      have hother : (s.onChannel .value f).channel .change = s.channel .change :=
        s.onChannel_other (by decide) f
      rw [Server.batched, Server.batched, hsame, hother]
      omega
  | change =>
      have hother : (s.onChannel .change f).channel .value = s.channel .value :=
        s.onChannel_other (by decide) f
      rw [Server.batched, Server.batched, hsame, hother]
      omega

/-- A popped message leaves less work. -/
theorem Server.batched_lt (s : Server M) {kind : StreamKind}
    {f : Channel (M kind) → Channel (M kind)} (hfront : (s.channel kind).batch ≠ [])
    (hpop : (f (s.channel kind)).batch = (s.channel kind).batch.tail) :
    (s.onChannel kind f).batched < s.batched := by
  have hbatched := s.batched_onChannel kind f
  have hpos := List.length_pos_of_ne_nil hfront
  rw [hpop, List.length_tail] at hbatched
  omega

/-- A step of the writer at one stream that only moves messages from the batch to the
handled ones. -/
theorem Server.reach_writerStep {kind : StreamKind} {p p' : Phase}
    {f : Channel (M kind) → Channel (M kind)} {w : WriterStage}
    (hs : s.phase kind = p ∧ s.writerStopped = false ∧
      ∀ other, other ≠ kind → s.phase other = .resting)
    (hw : ∀ t : Server M, t.writer = w → t.phase kind = p' ∧ t.writerStopped = false ∧
      ∀ other, other ≠ kind → t.phase other = .resting)
    (hcount : (f (s.channel kind)).handled + ((f (s.channel kind)).unhandled p').length =
      (s.channel kind).handled + ((s.channel kind).unhandled p).length) :
    ({ s.onChannel kind f with writer := w } : Server M).reach stream = s.reach stream := by
  obtain ⟨hphase, -, hothers⟩ := hs
  obtain ⟨hphase', -, hothers'⟩ := hw { s.onChannel kind f with writer := w } rfl
  unfold Server.reach
  by_cases heq : stream = kind
  · subst heq
    rw [hphase, hphase', ← hcount]
    show ((s.onChannel stream f).channel stream).handled +
      (((s.onChannel stream f).channel stream).unhandled p').length = _
    rw [s.onChannel_same]
  · rw [hothers stream heq, hothers' stream heq]
    show ((s.onChannel kind f).channel stream).handled +
      (((s.onChannel kind f).channel stream).unhandled .resting).length = _
    rw [s.onChannel_other heq]

/-- The writer owes enqueued messages only. -/
theorem ServerKept.owed_le (h : ServerKept s) (stream : StreamKind) :
    s.owed stream ≤ (s.channel stream).enqueued.length := by
  unfold Server.owed
  split
  · rename_i hflag
    exact h.turns.enqueuedBefore hflag stream
  · exact Nat.le_refl _

/-- In its last turn the writer has all that it owes in the batches. -/
theorem ServerKept.owed_le_reach (h : ServerKept s) (hstop : s.stop = true)
    (stream : StreamKind) : s.owed stream ≤ s.reach stream := by
  rw [Server.owed, if_pos (h.turns.stopSeen hstop)]
  exact h.turns.drained hstop stream

/-- At the end of a turn all messages of the batches are handled. -/
theorem Server.reach_of_usedUp (hrest : s.phase stream = .resting)
    (hbatch : (s.channel stream).batch = []) : s.reach stream = (s.channel stream).handled := by
  rw [Server.reach, hrest, Channel.unhandled_resting, hbatch]
  rfl

/-- While the writer waits, all that it owes and has not handled is queued. -/
theorem ServerKept.owed_le_queue (h : ServerKept s) (hwriter : s.writer = .waiting)
    (stream : StreamKind) :
    s.owed stream ≤ (s.channel stream).handled + (s.channel stream).mQueue.length := by
  have hlength := congrArg List.length (h.channels stream).counted
  have hle := h.owed_le stream
  rw [phase_resting (Or.inl hwriter) stream, Channel.unhandled_resting,
    h.turns.usedUp (Or.inl hwriter) stream, List.nil_append, List.length_drop] at hlength
  omega

/-- While the writer owes a message it can go on. -/
theorem ServerKept.writer_enabled (h : ServerKept s) (howed : n ≤ s.owed stream)
    (hleft : (s.channel stream).handled < n) : ∃ t, ServerStep s .writer t := by
  cases hwriter : s.writer with
  | waiting =>
      have hle := h.owed_le_queue hwriter stream
      have hqueue : (s.channel stream).mQueue ≠ [] := by
        rw [← List.length_pos_iff]
        omega
      exact ⟨_, .drain hwriter (Or.inr ⟨stream, hqueue⟩)⟩
  | sending kind =>
      by_cases hbatch : (s.channel kind).batch = []
      · cases kind with
        | value => exact ⟨_, .nextStream hwriter hbatch⟩
        | change => exact ⟨_, .endTurn hwriter hbatch⟩
      · exact ⟨_, .take hwriter hbatch⟩
  | writing kind todo brokenConn =>
      cases todo with
      | nil =>
          by_cases hbroken : brokenConn = []
          · subst hbroken
            exact ⟨_, .allWritten hwriter⟩
          · exact ⟨_, .someBroken hwriter hbroken⟩
      | cons id todo =>
          have hfront := h.turns.front_of_writing hwriter
          obtain ⟨message, rest, hbatch⟩ := List.exists_cons_of_ne_nil hfront
          exact ⟨_, @ServerStep.write _ _ _ _ _ _ _ _ true hwriter hbatch⟩
  | erasing kind brokenConn =>
      have hrunning : s.writer ≠ .stopped := by
        rw [hwriter]
        exact WriterStage.noConfusion
      have hopen := h.turns.running hrunning
      refine ⟨_, .erase hwriter ⟨fun _ _ _ hw => ?_, fun _ hclosing => ?_, fun hserver => ?_⟩⟩
      · rw [hwriter] at hw
        cases hw
      · rw [hclosing] at hopen
        cases hopen ShutdownStage.noConfusion
      · rw [hserver] at hopen
        cases hopen ShutdownStage.noConfusion
  | stopped =>
      have hreach := Server.reach_of_usedUp (phase_resting (Or.inr (Or.inr hwriter)) stream)
        (h.turns.usedUp (Or.inr hwriter) stream)
      have hdone := h.owed_le_reach (h.turns.ends hwriter) stream
      omega

/-- The drain puts the messages that the writer owes into the batches. -/
theorem ServerKept.turnsLeft_drain_lt (h : ServerKept s) (hwriter : s.writer = .waiting)
    (howed : n ≤ s.owed stream) (hleft : (s.channel stream).handled < n) :
    ({ s with
      channel := fun stream => (s.channel stream).drain
      stop := s.mStopEventWriter
      writer := .sending .value } : Server M).turnsLeft stream n < s.turnsLeft stream n := by
  have hreach := Server.reach_of_usedUp (phase_resting (Or.inl hwriter) stream)
    (h.turns.usedUp (Or.inl hwriter) stream)
  have hbefore : s.turnsLeft stream n = 1 := by
    rw [Server.turnsLeft, hreach, if_neg (by omega), if_pos hwriter]
  rw [hbefore, Server.turnsLeft, if_pos]
  · exact Nat.one_pos
  · have hle := h.owed_le_queue hwriter stream
    show n ≤ (s.channel stream).handled + (s.channel stream).mQueue.length
    omega

/-- A turn that leaves an owed message is not the last one, and the next drain is nearer. -/
theorem ServerKept.turnsLeft_endTurn_lt (h : ServerKept s) (hwriter : s.writer = .sending .change)
    (hbatch : (s.channel .change).batch = []) (howed : n ≤ s.owed stream)
    (hleft : (s.channel stream).handled < n) :
    ({ s with writer := if s.stop then .stopped else .waiting } : Server M).turnsLeft stream n <
      s.turnsLeft stream n := by
  have hrest := phase_resting (Or.inr (Or.inl ⟨.change, hwriter⟩)) stream
  have hused : (s.channel stream).batch = [] := by
    cases stream with
    | value => exact h.turns.firstUsedUp (by rw [hwriter]; rfl)
    | change => exact hbatch
  have hreach := Server.reach_of_usedUp hrest hused
  have hstop : s.stop = false := by
    by_contra hset
    have hdone := h.owed_le_reach (Bool.not_eq_false _ ▸ hset) stream
    omega
  have hbefore : s.turnsLeft stream n = 2 := by
    rw [Server.turnsLeft, hreach, if_neg (by omega), if_neg]
    rw [hwriter]
    exact WriterStage.noConfusion
  have hwaiting : ({ s with writer := if s.stop then .stopped else .waiting } :
      Server M).writer = .waiting := by
    rw [hstop]
    rfl
  rw [hbefore]
  exact Server.turnsLeft_lt_two hwaiting

/-- While the writer owes a message each of its steps lowers the work. -/
theorem ServerStep.work_lt (hstep : ServerStep s .writer s') (h : ServerKept s)
    (howed : n ≤ s.owed stream) (hleft : (s.channel stream).handled < n) :
    s'.work stream n < s.work stream n := by
  cases hstep with
  | drain hwriter hwake =>
      exact Server.work_lt_of_turns (h.turnsLeft_drain_lt hwriter howed hleft)
  | @take kind hwriter hbatch =>
      apply Server.work_lt_of_stage
      · apply Server.turnsLeft_eq
        · have hrest := phase_resting (Or.inr (Or.inl ⟨kind, hwriter⟩)) stream
          rw [Server.reach, Server.reach, hrest]
          simp only [Server.phase]
          split <;> rfl
        · rw [hwriter]
          exact WriterStage.noConfusion
        · exact WriterStage.noConfusion
      · rfl
      · left
        rw [hwriter]
        cases kind <;> exact Nat.lt_succ_self _
  | @write kind id todo brokenConn message rest ok hwriter hbatch =>
      apply Server.work_lt_of_stage
      · apply Server.turnsLeft_eq
        · exact Server.reach_writerStep (phase_writing hwriter) (fun t => phase_writing) rfl
        · rw [hwriter]
          exact WriterStage.noConfusion
        · exact WriterStage.noConfusion
      · have hbatched := s.batched_onChannel kind (·.onConnection id (·.write message ok))
        exact Nat.add_right_cancel hbatched
      · right
        rw [hwriter]
        exact ⟨by cases kind <;> rfl, Nat.lt_succ_self _⟩
  | @allWritten kind hwriter =>
      have hphase := phase_writing hwriter
      have hfront := h.turns.front_of_writing hwriter
      apply Server.work_lt_of_batched
      · apply Server.turnsLeft_eq
        · exact Server.reach_writerStep hphase (fun t => phase_sending) (Channel.count_tail hfront)
        · rw [hwriter]
          exact WriterStage.noConfusion
        · exact WriterStage.noConfusion
      · exact s.batched_lt (f := (·.handle.pop)) hfront rfl
  | @someBroken kind brokenConn hwriter hbroken =>
      have hphase := phase_writing hwriter
      have hfront := h.turns.front_of_writing hwriter
      apply Server.work_lt_of_stage
      · apply Server.turnsLeft_eq
        · exact Server.reach_writerStep hphase (fun t => phase_erasing) (Channel.count_tail hfront)
        · rw [hwriter]
          exact WriterStage.noConfusion
        · exact WriterStage.noConfusion
      · exact Nat.add_right_cancel (s.batched_onChannel kind (·.handle))
      · left
        rw [hwriter]
        cases kind <;> exact Nat.lt_succ_self _
  | @erase kind brokenConn hwriter hlock =>
      have hphase := phase_erasing hwriter
      have hfront := h.turns.front_of_erasing hwriter
      apply Server.work_lt_of_batched
      · apply Server.turnsLeft_eq
        · exact Server.reach_writerStep hphase (fun t => phase_sending) rfl
        · rw [hwriter]
          exact WriterStage.noConfusion
        · exact WriterStage.noConfusion
      · exact s.batched_lt (f := fun c => (c.erase brokenConn).pop) hfront rfl
  | nextStream hwriter hbatch =>
      apply Server.work_lt_of_stage
      · apply Server.turnsLeft_eq
        · have hrest := phase_resting (Or.inr (Or.inl ⟨.value, hwriter⟩)) stream
          rw [Server.reach, Server.reach, hrest]
          rfl
        · rw [hwriter]
          exact WriterStage.noConfusion
        · exact WriterStage.noConfusion
      · rfl
      · left
        rw [hwriter]
        exact (by decide : 3 < 6)
  | endTurn hwriter hbatch =>
      exact Server.work_lt_of_turns (h.turnsLeft_endTurn_lt hwriter hbatch howed hleft)

/-- Only the writer takes messages from the batches. -/
theorem ServerStep.not_writer {event : ServerEvent M} (hstep : ServerStep s event s')
    (hevent : event ≠ .writer) : s'.writer = s.writer ∧ ∀ kind,
      (s'.channel kind).batch = (s.channel kind).batch ∧
        (s'.channel kind).handled = (s.channel kind).handled := by
  have hsame {kind : StreamKind} {f : Channel (M kind) → Channel (M kind)}
      (hbatch : (f (s.channel kind)).batch = (s.channel kind).batch)
      (hhandled : (f (s.channel kind)).handled = (s.channel kind).handled) :=
    Server.onChannel_forall (P := fun other c => c.batch = (s.channel other).batch ∧
      c.handled = (s.channel other).handled) ⟨hbatch, hhandled⟩ fun _ _ => ⟨rfl, rfl⟩
  cases hstep with
  | push => exact ⟨rfl, hsame (f := (·.push _)) rfl rfl⟩
  | accept _ _ | handlerReturns _ _ | closeConnection _ =>
      exact ⟨rfl, hsame (f := (·.onConnection _ _)) rfl rfl⟩
  | register _ _ => exact ⟨rfl, hsame (f := (·.register _)) rfl rfl⟩
  | idle | stopWriter _ | lockConnections _ _ | shutdownServer _ | serverIsDown _ _ =>
      exact ⟨rfl, fun _ => ⟨rfl, rfl⟩⟩
  | drain _ _ | take _ _ | write _ _ | allWritten _ | someBroken _ _ | erase _ _
  | nextStream _ _ | endTurn _ _ => exact absurd rfl hevent

/-- No other step changes the work. -/
theorem ServerStep.work_eq {event : ServerEvent M} (hstep : ServerStep s event s')
    (hevent : event ≠ .writer) : s'.work stream n = s.work stream n := by
  obtain ⟨hwriter, hchannel⟩ := hstep.not_writer hevent
  have hphase : s'.phase stream = s.phase stream := by
    unfold Server.phase
    rw [hwriter]
  have hunhandled : (s'.channel stream).unhandled (s.phase stream) =
      (s.channel stream).unhandled (s.phase stream) := by
    cases s.phase stream <;> simp only [Channel.unhandled, (hchannel stream).1]
  have hreach : s'.reach stream = s.reach stream := by
    rw [Server.reach, Server.reach, hphase, hunhandled, (hchannel stream).2]
  simp only [Server.work, Server.turnsLeft, Server.batched, hreach, hwriter,
    (hchannel .value).1, (hchannel .change).1]

/-- The stop is marked once. -/
theorem ServerStep.mark {event : ServerEvent M} (hstep : ServerStep s event s') :
    (s'.mStopEventWriter = s.mStopEventWriter ∧ ∀ kind,
      (s'.channel kind).enqueuedAtStop = (s.channel kind).enqueuedAtStop) ∨
    (s.shutdown = .notCalled ∧ s'.mStopEventWriter = true ∧ ∀ kind,
      (s'.channel kind).enqueuedAtStop = (s.channel kind).enqueued.length) := by
  have hsame {kind : StreamKind} {f : Channel (M kind) → Channel (M kind)}
      (hmark : (f (s.channel kind)).enqueuedAtStop = (s.channel kind).enqueuedAtStop) :=
    Server.onChannel_forall (P := fun other c =>
      c.enqueuedAtStop = (s.channel other).enqueuedAtStop) hmark fun _ _ => rfl
  cases hstep with
  | stopWriter hshutdown => exact Or.inr ⟨hshutdown, rfl, fun _ => rfl⟩
  | push => exact Or.inl ⟨rfl, hsame (f := (·.push _)) rfl⟩
  | accept _ _ | handlerReturns _ _ | closeConnection _ | write _ _ =>
      exact Or.inl ⟨rfl, hsame (f := (·.onConnection _ _)) rfl⟩
  | register _ _ => exact Or.inl ⟨rfl, hsame (f := (·.register _)) rfl⟩
  | allWritten _ => exact Or.inl ⟨rfl, hsame (f := (·.handle.pop)) rfl⟩
  | someBroken _ _ => exact Or.inl ⟨rfl, hsame (f := (·.handle)) rfl⟩
  | erase _ _ => exact Or.inl ⟨rfl, hsame (f := fun c => (c.erase _).pop) rfl⟩
  | idle | drain _ _ | take _ _ | nextStream _ _ | endTurn _ _ | lockConnections _ _
  | shutdownServer _ | serverIsDown _ _ => exact Or.inl ⟨rfl, fun _ => rfl⟩

/-- What the writer owes it goes on to owe. -/
theorem ServerStep.owed_le {event : ServerEvent M} (hstep : ServerStep s event s')
    (h : ServerKept s) : s.owed stream ≤ s'.owed stream := by
  have hlength := (hstep.grows stream).enqueued.length_le
  unfold Server.owed
  rcases hstep.mark with ⟨hflag, hmark⟩ | ⟨hshutdown, hflag, hmark⟩
  · rw [hflag, hmark stream]
    split
    · exact Nat.le_refl _
    · exact hlength
  · have hnot : ¬s.mStopEventWriter = true := fun hset => h.turns.called.mp hset hshutdown
    rw [if_neg hnot, if_pos hflag, hmark stream]

end Work

/-- In every execution that is fair to the writer, all that the writer owes at some time is
handled at a later one. -/
theorem handled_of_owed {x : Execution ServerStep ({} : Server M)} (hfair : x.FairTo .writer)
    (i : Nat) (stream : StreamKind) : ∃ j, i ≤ j ∧
      (x.state i).owed stream ≤ ((x.state j).channel stream).handled := by
  have hkept (j : Nat) : ServerKept (x.state j) :=
    x.always serverKept_initial (fun k => (x.step k).serverKept) j
  apply hfair.leadsTo_of_measure (P := fun s => (x.state i).owed stream ≤ s.owed stream)
    (Q := fun s => (x.state i).owed stream ≤ (s.channel stream).handled)
    (fun s => s.work stream ((x.state i).owed stream)) (Nat.le_refl _)
  · exact fun j howed _ => howed.trans ((x.step j).owed_le (hkept j))
  · exact fun j howed hnot => (hkept j).writer_enabled howed (Nat.lt_of_not_le hnot)
  · intro j howed hnot
    by_cases hevent : x.event j = .writer
    · have hstep := x.step j
      rw [hevent] at hstep
      exact (hstep.work_lt (hkept j) howed (Nat.lt_of_not_le hnot)).le
    · exact ((x.step j).work_eq hevent).le
  · intro j howed hnot hevent
    have hstep := x.step j
    rw [hevent] at hstep
    exact hstep.work_lt (hkept j) howed (Nat.lt_of_not_le hnot)

end VhalCore.ProxyServer
