import VhalCore.Models.Grpc.Interpretation.StreamInvariant

/-!
# What every step of the server keeps

The two streams share the writer, which works on one of them at a time. A batch is used up
before the next one is drained, and the batch drained after the writer was told to stop
holds all that was enqueued before.
-/

namespace VhalCore.ProxyServer

variable {M : StreamKind → Type}

namespace Server

/-- What the writer does at a stream. -/
def phase (s : Server M) (stream : StreamKind) : Phase :=
  match s.writer with
  | .writing other todo brokenConn =>
      if other = stream then .writing todo brokenConn else .resting
  | .erasing other brokenConn => if other = stream then .erasing brokenConn else .resting
  | _ => .resting

/-- The writer has finished. -/
def writerStopped (s : Server M) : Bool := decide (s.writer = .stopped)

theorem onChannel_same (s : Server M) (stream : StreamKind)
    (f : Channel (M stream) → Channel (M stream)) :
    (s.onChannel stream f).channel stream = f (s.channel stream) := Function.update_self ..

theorem onChannel_other (s : Server M) {stream other : StreamKind} (h : other ≠ stream)
    (f : Channel (M stream) → Channel (M stream)) :
    (s.onChannel stream f).channel other = s.channel other := Function.update_of_ne h ..

/-- A change of one stream leaves what holds of the others. -/
theorem onChannel_forall {P : (stream : StreamKind) → Channel (M stream) → Prop} {s : Server M}
    {stream : StreamKind} {f : Channel (M stream) → Channel (M stream)}
    (hsame : P stream (f (s.channel stream)))
    (hother : ∀ other, other ≠ stream → P other (s.channel other)) (other : StreamKind) :
    P other ((s.onChannel stream f).channel other) := by
  by_cases heq : other = stream
  · subst heq
    rw [s.onChannel_same]
    exact hsame
  · rw [s.onChannel_other heq]
    exact hother other heq

end Server

/-- Both streams are kept. -/
def ChannelsKept (s : Server M) : Prop :=
  ∀ stream, ChannelKept (s.channel stream) (s.phase stream) s.writerStopped

/-- The writer is at the batch of the second stream. -/
def WriterStage.atChange : WriterStage → Bool
  | .sending .change | .writing .change _ _ | .erasing .change _ => true
  | _ => false

@[simp] theorem WriterStage.atChange_sending (stream : StreamKind) :
    (sending stream).atChange = decide (stream = .change) := by cases stream <;> rfl

@[simp] theorem WriterStage.atChange_writing (stream : StreamKind) (todo brokenConn : List Nat) :
    (writing stream todo brokenConn).atChange = decide (stream = .change) := by
  cases stream <;> rfl

@[simp] theorem WriterStage.atChange_erasing (stream : StreamKind) (brokenConn : List Nat) :
    (erasing stream brokenConn).atChange = decide (stream = .change) := by cases stream <;> rfl

/-- The turns of the writer, its stop, and the shutdown. -/
structure TurnsKept (s : Server M) : Prop where
  usedUp : s.writer = .waiting ∨ s.writer = .stopped → ∀ stream, (s.channel stream).batch = []
  firstUsedUp : s.writer.atChange = true → (s.channel .value).batch = []
  front : ∀ stream, s.phase stream ≠ .resting → (s.channel stream).batch ≠ []
  stopSeen : s.stop = true → s.mStopEventWriter = true
  goesOn : s.writer = .waiting → s.stop = false
  ends : s.writer = .stopped → s.stop = true
  enqueuedBefore : s.mStopEventWriter = true → ∀ stream,
    (s.channel stream).enqueuedAtStop ≤ (s.channel stream).enqueued.length
  drained : s.stop = true → ∀ stream, (s.channel stream).enqueuedAtStop ≤
    (s.channel stream).handled + ((s.channel stream).unhandled (s.phase stream)).length
  called : s.mStopEventWriter = true ↔ s.shutdown ≠ .notCalled
  joined : s.shutdown ≠ .notCalled → s.shutdown ≠ .joining → s.writer = .stopped
  closing : ∀ todo, s.shutdown = .closing todo → ∀ entry ∈ todo,
    ((s.channel entry.1).connection entry.2).handler.joined = true

/-- After the join the writer has stopped. -/
theorem TurnsKept.later {s : Server M} (h : TurnsKept s) {stage : ShutdownStage}
    (hstage : s.shutdown = stage) (hcalled : stage ≠ .notCalled) (hjoining : stage ≠ .joining) :
    s.shutdown ≠ .notCalled ∧ s.writer = .stopped := by
  subst hstage
  exact ⟨hcalled, h.joined hcalled hjoining⟩

/-- Before the writer has stopped the shutdown waits for it, or is not called. -/
theorem TurnsKept.running {s : Server M} (h : TurnsKept s) (hrunning : s.writer ≠ .stopped)
    (hcalled : s.shutdown ≠ .notCalled) : s.shutdown = .joining := by
  by_contra hjoining
  exact hrunning (h.joined hcalled hjoining)

/-- A step that works on one stream. -/
theorem ChannelsKept.of_one {s s' : Server M} (h : ChannelsKept s) (stream : StreamKind)
    (hone : ChannelKept (s'.channel stream) (s'.phase stream) s'.writerStopped)
    (hother : ∀ other, other ≠ stream → s'.channel other = s.channel other ∧
      s'.phase other = s.phase other)
    (hstopped : s.writerStopped = true → s'.writerStopped = true) : ChannelsKept s' := by
  intro other
  by_cases heq : other = stream
  · subst heq
    exact hone
  · obtain ⟨hchannel, hphase⟩ := hother other heq
    rw [hchannel, hphase]
    exact (h other).stop _ hstopped

/-- A change of one stream while the writer stays where it is. -/
theorem ChannelsKept.onChannel {s s' : Server M} (h : ChannelsKept s) {stream : StreamKind}
    {f : Channel (M stream) → Channel (M stream)}
    (hchannel : s'.channel = (s.onChannel stream f).channel) (hwriter : s'.writer = s.writer)
    (hone : ChannelKept (f (s.channel stream)) (s.phase stream) s.writerStopped) :
    ChannelsKept s' := by
  have hphase (other : StreamKind) : s'.phase other = s.phase other := by
    simp only [Server.phase, hwriter]
  have hstopped : s'.writerStopped = s.writerStopped := by
    simp only [Server.writerStopped, hwriter]
  apply h.of_one stream
  · rw [hchannel, hphase, hstopped, s.onChannel_same]
    exact hone
  · intro other hne
    refine ⟨?_, hphase other⟩
    rw [hchannel]
    exact s.onChannel_other hne f
  · rw [hstopped]
    exact fun hs => hs

/-- The writer moves on between two phases. -/
theorem ChannelsKept.resting {s : Server M} (h : ChannelsKept s) {w : WriterStage}
    (hphase : ∀ stream, s.phase stream = .resting)
    (hw : ∀ stream, ({ s with writer := w } : Server M).phase stream = .resting)
    (hstopped : s.writerStopped = false) : ChannelsKept { s with writer := w } := by
  intro stream
  have hkept := h stream
  rw [hphase stream, hstopped] at hkept
  rw [hw stream]
  exact hkept.stop _ fun hs => absurd hs Bool.false_ne_true

/-- While the writer writes a stream, the others rest. -/
theorem phase_writing {s : Server M} {stream : StreamKind} {todo brokenConn : List Nat}
    (h : s.writer = .writing stream todo brokenConn) :
    s.phase stream = .writing todo brokenConn ∧ s.writerStopped = false ∧
      ∀ other, other ≠ stream → s.phase other = .resting := by
  refine ⟨?_, ?_, fun other hne => ?_⟩
  · simp only [Server.phase, h, if_true]
  · simp only [Server.writerStopped, h, reduceCtorEq, decide_false]
  · simp only [Server.phase, h, hne.symm, if_false]

/-- While the writer erases broken connections of a stream, the others rest. -/
theorem phase_erasing {s : Server M} {stream : StreamKind} {brokenConn : List Nat}
    (h : s.writer = .erasing stream brokenConn) :
    s.phase stream = .erasing brokenConn ∧ s.writerStopped = false ∧
      ∀ other, other ≠ stream → s.phase other = .resting := by
  refine ⟨?_, ?_, fun other hne => ?_⟩
  · simp only [Server.phase, h, if_true]
  · simp only [Server.writerStopped, h, reduceCtorEq, decide_false]
  · simp only [Server.phase, h, hne.symm, if_false]

/-- The writer writes a message. -/
theorem TurnsKept.front_of_writing {s : Server M} (h : TurnsKept s) {stream : StreamKind}
    {todo brokenConn : List Nat} (hwriter : s.writer = .writing stream todo brokenConn) :
    (s.channel stream).batch ≠ [] := by
  apply h.front stream
  rw [(phase_writing hwriter).1]
  exact Phase.noConfusion

/-- The written message is not popped before the broken connections are erased. -/
theorem TurnsKept.front_of_erasing {s : Server M} (h : TurnsKept s) {stream : StreamKind}
    {brokenConn : List Nat} (hwriter : s.writer = .erasing stream brokenConn) :
    (s.channel stream).batch ≠ [] := by
  apply h.front stream
  rw [(phase_erasing hwriter).1]
  exact Phase.noConfusion

theorem phase_resting {s : Server M}
    (h : s.writer = .waiting ∨ (∃ stream, s.writer = .sending stream) ∨ s.writer = .stopped)
    (stream : StreamKind) : s.phase stream = .resting := by
  rcases h with h | ⟨other, h⟩ | h <;> simp only [Server.phase, h]

/-- A writer about to send writes no stream yet. -/
theorem phase_sending {s : Server M} {stream : StreamKind} (h : s.writer = .sending stream) :
    s.phase stream = .resting ∧ s.writerStopped = false ∧
      ∀ other, other ≠ stream → s.phase other = .resting := by
  refine ⟨phase_resting (Or.inr (Or.inl ⟨stream, h⟩)) stream, ?_,
    fun other _ => phase_resting (Or.inr (Or.inl ⟨stream, h⟩)) other⟩
  simp only [Server.writerStopped, h, reduceCtorEq, decide_false]

/-- The writer works on one stream. -/
theorem ChannelsKept.writerStep {s : Server M} (h : ChannelsKept s) {stream : StreamKind}
    {p p' : Phase} {f : Channel (M stream) → Channel (M stream)} {w : WriterStage}
    (hs : s.phase stream = p ∧ s.writerStopped = false ∧
      ∀ other, other ≠ stream → s.phase other = .resting)
    (hw : ∀ t : Server M, t.writer = w → t.phase stream = p' ∧ t.writerStopped = false ∧
      ∀ other, other ≠ stream → t.phase other = .resting)
    (hone : ChannelKept (s.channel stream) p false → ChannelKept (f (s.channel stream)) p' false) :
    ChannelsKept { s.onChannel stream f with writer := w } := by
  obtain ⟨hphase, hstopped, hothers⟩ := hs
  obtain ⟨hphase', hstopped', hothers'⟩ := hw { s.onChannel stream f with writer := w } rfl
  have hkept := h stream
  rw [hphase, hstopped] at hkept
  apply h.of_one stream
  · rw [hphase', hstopped']
    have hsame := s.onChannel_same stream f
    exact hsame ▸ hone hkept
  · intro other hne
    rw [hothers other hne, hothers' other hne]
    exact ⟨s.onChannel_other hne f, rfl⟩
  · rw [hstopped]
    exact fun hs => absurd hs Bool.false_ne_true

/-- Outside its loop over the connections the writer is in no writing phase. -/
theorem Server.notShared.phase {s : Server M} (h : s.notShared) (stream : StreamKind)
    (todo brokenConn : List Nat) : s.phase stream ≠ .writing todo brokenConn := by
  intro hphase
  cases hwriter : s.writer with
  | writing other todo' brokenConn' => exact h.1 other todo' brokenConn' hwriter
  | waiting | sending _ | stopped =>
      simp only [Server.phase, hwriter, reduceCtorEq] at hphase
  | erasing other brokenConn' =>
      simp only [Server.phase, hwriter] at hphase
      split at hphase <;> cases hphase

/-- With no broken connection nothing is removed. -/
theorem Channel.erase_nil {N : Type} (c : Channel N) : c.erase [] = c := by
  simp only [Channel.erase, List.not_mem_nil, not_false_eq_true, decide_true, List.filter_true]

/-- The record of the stop does not matter for the messages. -/
theorem ChannelKept.markStop {N : Type} {c : Channel N} {p : Phase} {stopped : Bool}
    (h : ChannelKept c p stopped) (n : Nat) :
    ChannelKept { c with enqueuedAtStop := n } p stopped where
  counted := by
    have hunhandled : ({ c with enqueuedAtStop := n } : Channel N).unhandled p = c.unhandled p := by
      cases p <;> rfl
    rw [hunhandled]
    exact h.counted
  handled_le := h.handled_le
  nodup := h.nodup
  phase := h.phase
  brokenMem := h.brokenMem
  connections id := (h.connections id).transfer rfl (fun hin => hin) (fun hin _ => hin)
    (List.prefix_refl _) (fun _ => Iff.rfl) (fun _ => rfl) (fun hs => hs)

/-- Every step keeps both streams. -/
theorem ServerStep.channelsKept {s s' : Server M} {event : ServerEvent M}
    (hstep : ServerStep s event s') (h : ChannelsKept s) (hturns : TurnsKept s) :
    ChannelsKept s' := by
  cases hstep with
  | idle => exact h
  | @push stream message => exact h.onChannel rfl rfl ((h stream).push message)
  | @accept stream id habsent _ => exact h.onChannel rfl rfl ((h stream).accept habsent)
  | @register stream id haccepted hlock =>
      exact h.onChannel rfl rfl ((h stream).register haccepted (hlock.phase stream))
  | @handlerReturns stream id hregistered hflag =>
      exact h.onChannel rfl rfl ((h stream).handlerReturns hregistered hflag)
  | drain hwriter _ =>
      intro stream
      have hrest := phase_resting (Or.inl hwriter) stream
      have hkept := h stream
      rw [hrest] at hkept
      have hstopped : s.writerStopped = false := by
        simp only [Server.writerStopped, hwriter, reduceCtorEq, decide_false]
      rw [hstopped] at hkept
      exact hkept.drain (hturns.usedUp (Or.inl hwriter) stream)
  | @take stream hwriter _ =>
      have hrest := phase_resting (Or.inr (Or.inl ⟨stream, hwriter⟩))
      have hkept := h stream
      rw [hrest stream] at hkept
      apply h.of_one stream
      · simp only [Server.phase, if_true, Server.writerStopped, reduceCtorEq, decide_false]
        simp only [Server.writerStopped, hwriter, reduceCtorEq, decide_false] at hkept
        exact hkept.take
      · intro other hne
        refine ⟨rfl, ?_⟩
        rw [hrest other]
        simp only [Server.phase, hne.symm, if_false]
      · simp only [Server.writerStopped, hwriter, reduceCtorEq, decide_false]
        exact fun hs => hs
  | write hwriter hbatch =>
      exact h.writerStep (phase_writing hwriter) (fun t => phase_writing)
        fun hkept => hkept.write hbatch _
  | @allWritten stream hwriter =>
      have hphase := phase_writing hwriter
      have hfront := hturns.front_of_writing hwriter
      apply h.writerStep hphase fun t => phase_sending
      intro hkept
      have herased := (hkept.handle hfront).erase
      rw [Channel.erase_nil] at herased
      exact herased
  | @someBroken stream brokenConn hwriter _ =>
      have hphase := phase_writing hwriter
      have hfront := hturns.front_of_writing hwriter
      exact h.writerStep hphase (fun t => phase_erasing) fun hkept => hkept.handle hfront
  | erase hwriter _ =>
      exact h.writerStep (phase_erasing hwriter) (fun t => phase_sending) fun hkept => hkept.erase
  | nextStream hwriter _ =>
      exact h.resting (phase_resting (Or.inr (Or.inl ⟨.value, hwriter⟩)))
        (phase_resting (Or.inr (Or.inl ⟨.change, rfl⟩))) (phase_sending hwriter).2.1
  | endTurn hwriter _ =>
      apply h.resting (phase_resting (Or.inr (Or.inl ⟨.change, hwriter⟩))) _
        (phase_sending hwriter).2.1
      apply phase_resting
      cases s.stop with
      | true => exact Or.inr (Or.inr rfl)
      | false => exact Or.inl rfl
  | stopWriter _ => exact fun stream => (h stream).markStop _
  | lockConnections _ _ => exact h
  | @closeConnection stream id todo hclosing =>
      obtain ⟨-, hstopped⟩ :=
        hturns.later hclosing ShutdownStage.noConfusion ShutdownStage.noConfusion
      have hflag : s.writerStopped = true := by
        simp only [Server.writerStopped, hstopped, decide_true]
      have hkept := h stream
      rw [hflag] at hkept
      have hjoined := hturns.closing _ hclosing (stream, id) List.mem_cons_self
      apply h.onChannel rfl rfl
      rw [hflag]
      exact hkept.close hjoined
  | shutdownServer _ => exact h
  | serverIsDown _ _ => exact h

/-- A step that leaves the writer, the flags and the batches as they are. -/
theorem TurnsKept.frame {s s' : Server M} (h : TurnsKept s) (hwriter : s'.writer = s.writer)
    (hstop : s'.stop = s.stop) (hflag : s'.mStopEventWriter = s.mStopEventWriter)
    (hshutdown : s'.shutdown = s.shutdown)
    (hchannel : ∀ stream, (s'.channel stream).batch = (s.channel stream).batch ∧
      (s'.channel stream).handled = (s.channel stream).handled ∧
      (s'.channel stream).enqueuedAtStop = (s.channel stream).enqueuedAtStop ∧
      (s.channel stream).enqueued.length ≤ (s'.channel stream).enqueued.length)
    (hjoined : ∀ stream id, ((s.channel stream).connection id).handler.joined = true →
      ((s'.channel stream).connection id).handler.joined = true) : TurnsKept s' := by
  have hphase (stream : StreamKind) : s'.phase stream = s.phase stream := by
    simp only [Server.phase, hwriter]
  have hunhandled (stream : StreamKind) : (s'.channel stream).unhandled (s'.phase stream) =
      (s.channel stream).unhandled (s.phase stream) := by
    rw [hphase]
    cases s.phase stream <;> simp only [Channel.unhandled, (hchannel stream).1]
  constructor
  · rw [hwriter]
    exact fun hw stream => (hchannel stream).1.trans (h.usedUp hw stream)
  · rw [hwriter]
    exact fun hw => (hchannel .value).1.trans (h.firstUsedUp hw)
  · intro stream hne
    rw [hphase] at hne
    rw [(hchannel stream).1]
    exact h.front stream hne
  · rw [hstop, hflag]
    exact h.stopSeen
  · rw [hwriter, hstop]
    exact h.goesOn
  · rw [hwriter, hstop]
    exact h.ends
  · rw [hflag]
    intro hf stream
    rw [(hchannel stream).2.2.1]
    exact Nat.le_trans (h.enqueuedBefore hf stream) (hchannel stream).2.2.2
  · rw [hstop]
    intro hs stream
    rw [(hchannel stream).2.2.1, (hchannel stream).2.1, hunhandled]
    exact h.drained hs stream
  · rw [hflag, hshutdown]
    exact h.called
  · rw [hwriter, hshutdown]
    exact h.joined
  · rw [hshutdown]
    exact fun todo hclosing entry hmem => hjoined _ _ (h.closing todo hclosing entry hmem)

/-- A change of one stream that leaves its batch as it is. -/
theorem TurnsKept.onChannel {s : Server M} (h : TurnsKept s) {stream : StreamKind}
    {f : Channel (M stream) → Channel (M stream)}
    (hbatch : (f (s.channel stream)).batch = (s.channel stream).batch)
    (hhandled : (f (s.channel stream)).handled = (s.channel stream).handled)
    (hmark : (f (s.channel stream)).enqueuedAtStop = (s.channel stream).enqueuedAtStop)
    (hmore : (s.channel stream).enqueued.length ≤ (f (s.channel stream)).enqueued.length)
    (hjoined : ∀ id, ((s.channel stream).connection id).handler.joined = true →
      ((f (s.channel stream)).connection id).handler.joined = true) :
    TurnsKept (s.onChannel stream f) := by
  refine h.frame rfl rfl rfl rfl ?_ ?_
  · exact Server.onChannel_forall (P := fun kind c => c.batch = (s.channel kind).batch ∧
      c.handled = (s.channel kind).handled ∧
      c.enqueuedAtStop = (s.channel kind).enqueuedAtStop ∧
      (s.channel kind).enqueued.length ≤ c.enqueued.length)
      ⟨hbatch, hhandled, hmark, hmore⟩ fun _ _ => ⟨rfl, rfl, rfl, Nat.le_refl _⟩
  · exact Server.onChannel_forall (P := fun kind c => ∀ id,
      ((s.channel kind).connection id).handler.joined = true →
        (c.connection id).handler.joined = true) hjoined fun _ _ _ hin => hin

/-- A change of one connection. -/
theorem TurnsKept.onConnection {s : Server M} (h : TurnsKept s) {stream : StreamKind} {id : Nat}
    {f : Connection (M stream) → Connection (M stream)}
    (hjoined : ((s.channel stream).connection id).handler.joined = true →
      (f ((s.channel stream).connection id)).handler.joined = true) :
    TurnsKept (s.onChannel stream (·.onConnection id f)) := by
  apply h.onChannel rfl rfl rfl (Nat.le_refl _)
  intro other hin
  by_cases heq : other = id
  · subst heq
    rw [Channel.onConnection_same]
    exact hjoined hin
  · rwa [Channel.onConnection_other _ heq]

/-- The writer works on one stream: the message at the front of the batch may become handled,
and may be popped once it is. -/
theorem TurnsKept.writerStep {s : Server M} (h : TurnsKept s) {stream : StreamKind} {p p' : Phase}
    {f : Channel (M stream) → Channel (M stream)} {w : WriterStage}
    (hs : s.phase stream = p ∧ s.writerStopped = false ∧
      ∀ other, other ≠ stream → s.phase other = .resting)
    (hw : ∀ t : Server M, t.writer = w → t.phase stream = p' ∧ t.writerStopped = false ∧
      ∀ other, other ≠ stream → t.phase other = .resting)
    (hwaiting : w ≠ .waiting)
    (hturn : w.atChange = true → stream = .change ∧ s.writer.atChange = true)
    (hfront : p' ≠ .resting → (f (s.channel stream)).batch ≠ [])
    (hmark : (f (s.channel stream)).enqueuedAtStop = (s.channel stream).enqueuedAtStop)
    (henqueued : (f (s.channel stream)).enqueued = (s.channel stream).enqueued)
    (hcount : (s.channel stream).handled + ((s.channel stream).unhandled p).length ≤
      (f (s.channel stream)).handled + ((f (s.channel stream)).unhandled p').length) :
    TurnsKept { s.onChannel stream f with writer := w } := by
  obtain ⟨hphase, hstopped, hothers⟩ := hs
  obtain ⟨hphase', hstopped', hothers'⟩ := hw { s.onChannel stream f with writer := w } rfl
  have hrunning : s.writer ≠ .stopped := of_decide_eq_false hstopped
  have hrunning' : w ≠ .stopped := of_decide_eq_false hstopped'
  have hopen := h.running hrunning
  refine ⟨?_, ?_, ?_, h.stopSeen, ?_, ?_, ?_, ?_, h.called, ?_, ?_⟩
  · rintro (hw' | hw')
    · exact absurd hw' hwaiting
    · exact absurd hw' hrunning'
  · intro hchange
    obtain ⟨rfl, hbefore⟩ := hturn hchange
    have hother : (s.onChannel .change f).channel .value = s.channel .value :=
      s.onChannel_other (by decide) f
    exact (congrArg Channel.batch hother).trans (h.firstUsedUp hbefore)
  · exact Server.onChannel_forall (P := fun kind c =>
      ({ s.onChannel stream f with writer := w } : Server M).phase kind ≠ .resting → c.batch ≠ [])
      (hphase'.symm ▸ hfront) fun other hne hwriting => absurd (hothers' other hne) hwriting
  · exact fun hw' => absurd hw' hwaiting
  · exact fun hw' => absurd hw' hrunning'
  · intro hflag
    apply Server.onChannel_forall (P := fun _ c => c.enqueuedAtStop ≤ c.enqueued.length)
    · rw [hmark, henqueued]
      exact h.enqueuedBefore hflag stream
    · exact fun other _ => h.enqueuedBefore hflag other
  · intro hstop
    apply Server.onChannel_forall (P := fun kind c => c.enqueuedAtStop ≤ c.handled + (c.unhandled
      (({ s.onChannel stream f with writer := w } : Server M).phase kind)).length)
    · rw [hphase', hmark]
      have hdrained := h.drained hstop stream
      rw [hphase] at hdrained
      exact Nat.le_trans hdrained hcount
    · intro other hne
      rw [hothers' other hne, ← hothers other hne]
      exact h.drained hstop other
  · intro hcalled hjoining
    exact absurd (hopen hcalled) hjoining
  · intro todo hclosing
    have hcalled : s.shutdown ≠ .notCalled := by
      rw [show s.shutdown = .closing todo from hclosing]
      exact ShutdownStage.noConfusion
    exact absurd ((hopen hcalled).symm.trans hclosing) ShutdownStage.noConfusion

/-- The writer moves on while it stands between two phases, and neither begins nor ends a
turn. -/
theorem TurnsKept.stage {s : Server M} (h : TurnsKept s) {stream : StreamKind}
    (hwriter : s.writer = .sending stream) {w : WriterStage}
    (hwaiting : w ≠ .waiting) (hstopped : w ≠ .stopped)
    (hturn : w.atChange = true → (s.channel .value).batch = [])
    (hunhandled : ∀ kind, (s.channel kind).unhandled
      (({ s with writer := w } : Server M).phase kind) = (s.channel kind).batch)
    (hfront : ∀ kind, ({ s with writer := w } : Server M).phase kind ≠ .resting →
      (s.channel kind).batch ≠ []) : TurnsKept { s with writer := w } := by
  have hrunning : s.writer ≠ .stopped := by
    rw [hwriter]
    exact WriterStage.noConfusion
  refine ⟨?_, hturn, hfront, h.stopSeen, fun hw => absurd hw hwaiting,
    fun hw => absurd hw hstopped, h.enqueuedBefore, ?_, h.called, ?_, h.closing⟩
  · rintro (hw | hw)
    · exact absurd hw hwaiting
    · exact absurd hw hstopped
  · intro hstop kind
    rw [hunhandled kind]
    have hdrained := h.drained hstop kind
    rw [phase_resting (Or.inr (Or.inl ⟨stream, hwriter⟩)) kind] at hdrained
    exact hdrained
  · intro hcalled hjoining
    exact absurd (h.running hrunning hcalled) hjoining

/-- The shutdown moves on after the writer has stopped. -/
theorem TurnsKept.afterStop {s : Server M} (h : TurnsKept s) (hwriter : s.writer = .stopped)
    {next : ShutdownStage} (hcalled : s.shutdown ≠ .notCalled) (hnext : next ≠ .notCalled)
    (hclosing : ∀ todo, next = .closing todo → ∀ entry ∈ todo,
      ((s.channel entry.1).connection entry.2).handler.joined = true) :
    TurnsKept { s with shutdown := next } where
  usedUp := h.usedUp
  firstUsedUp := h.firstUsedUp
  front := h.front
  stopSeen := h.stopSeen
  goesOn := h.goesOn
  ends := h.ends
  enqueuedBefore := h.enqueuedBefore
  drained := h.drained
  called := iff_of_true (h.called.mpr hcalled) hnext
  joined _ _ := hwriter
  closing := hclosing

/-- A listed connection was registered. -/
theorem ChannelsKept.joined {s : Server M} (h : ChannelsKept s) {stream : StreamKind} {id : Nat}
    (hin : id ∈ (s.channel stream).mConnections) :
    ((s.channel stream).connection id).handler.joined = true := by
  by_contra hnot
  exact (((h stream).connections id).fresh (Bool.eq_false_iff.mpr hnot)).2.2 hin

/-- The writer drains the queues: what was enqueued before the stop is in the batches. -/
theorem TurnsKept.drain {s : Server M} (h : TurnsKept s) (hchannels : ChannelsKept s)
    (hwriter : s.writer = .waiting) :
    TurnsKept { s with
      channel := fun stream => (s.channel stream).drain
      stop := s.mStopEventWriter
      writer := .sending .value } := by
  have hrunning : s.writer ≠ .stopped := by
    rw [hwriter]
    exact WriterStage.noConfusion
  refine ⟨?_, ?_, ?_, fun hstop => hstop, ?_, ?_, h.enqueuedBefore, ?_, h.called, ?_, h.closing⟩
  · rintro (hw | hw) <;> cases hw
  · exact fun hturn => absurd hturn Bool.false_ne_true
  · exact fun stream hne => absurd (phase_resting (Or.inr (Or.inl ⟨.value, rfl⟩)) stream) hne
  · exact fun hw => by cases hw
  · exact fun hw => by cases hw
  · intro hstop stream
    have hlength := congrArg List.length (hchannels stream).counted
    have hbatch := h.usedUp (Or.inl hwriter) stream
    have hbefore := h.enqueuedBefore hstop stream
    rw [phase_resting (Or.inl hwriter) stream] at hlength
    rw [phase_resting (Or.inr (Or.inl ⟨.value, rfl⟩)) stream]
    simp only [Channel.unhandled, hbatch, List.nil_append, List.length_drop] at hlength
    simp only [Channel.unhandled, Channel.drain]
    omega
  · intro hcalled hjoining
    exact absurd (h.running hrunning hcalled) hjoining

/-- The batches are used up: the writer stops if it was told to before it drained them. -/
theorem TurnsKept.endTurn {s : Server M} (h : TurnsKept s) (hwriter : s.writer = .sending .change)
    (hbatch : (s.channel .change).batch = []) :
    TurnsKept { s with writer := if s.stop then .stopped else .waiting } := by
  have hrunning : s.writer ≠ .stopped := by
    rw [hwriter]
    exact WriterStage.noConfusion
  have hfirst : (s.channel .value).batch = [] := h.firstUsedUp (by rw [hwriter]; rfl)
  have hrest (stream : StreamKind) :
      ({ s with writer := if s.stop then .stopped else .waiting } : Server M).phase stream =
        .resting := by
    apply phase_resting
    cases s.stop with
    | true => exact Or.inr (Or.inr rfl)
    | false => exact Or.inl rfl
  refine ⟨?_, fun _ => hfirst, fun stream hne => absurd (hrest stream) hne, h.stopSeen, ?_, ?_,
    h.enqueuedBefore, ?_, h.called, ?_, h.closing⟩
  · intro _ stream
    cases stream with
    | value => exact hfirst
    | change => exact hbatch
  · cases hstop : s.stop with
    | true => exact fun hw => by cases hw
    | false => exact fun _ => rfl
  · cases hstop : s.stop with
    | true => exact fun _ => rfl
    | false => exact fun hw => by cases hw
  · intro hstop stream
    have hdrained := h.drained hstop stream
    rw [phase_resting (Or.inr (Or.inl ⟨.change, hwriter⟩)) stream] at hdrained
    rw [hrest stream]
    exact hdrained
  · intro hcalled hjoining
    exact absurd (h.running hrunning hcalled) hjoining

/-- A message leaves the batch when it is handled. -/
theorem Channel.count_tail {N : Type} {c : Channel N} (h : c.batch ≠ []) :
    c.handled + 1 + c.batch.tail.length = c.handled + c.batch.length := by
  have hpos := List.length_pos_of_ne_nil h
  rw [List.length_tail]
  omega

/-- A handler registers its connection. -/
theorem TurnsKept.register {s : Server M} (h : TurnsKept s) (stream : StreamKind) (id : Nat) :
    TurnsKept (s.onChannel stream (·.register id)) := by
  apply h.onChannel rfl rfl rfl (Nat.le_refl _)
  intro other hin
  by_cases heq : other = id
  · subst heq
    simp only [Channel.register, Channel.onConnection_same]
    rfl
  · simpa only [Channel.register, Channel.onConnection_other _ heq] using hin

/-- The writer takes the message at the front of a batch. -/
theorem TurnsKept.take {s : Server M} (h : TurnsKept s) {stream : StreamKind}
    (hwriter : s.writer = .sending stream) (hbatch : (s.channel stream).batch ≠ []) :
    TurnsKept { s with writer := .writing stream (s.channel stream).mConnections [] } := by
  have hphase (kind : StreamKind) : ({ s with
      writer := .writing stream (s.channel stream).mConnections [] } : Server M).phase kind =
      if stream = kind then .writing (s.channel stream).mConnections [] else .resting := rfl
  apply h.stage hwriter WriterStage.noConfusion WriterStage.noConfusion
  · intro hturn
    apply h.firstUsedUp
    rwa [hwriter, WriterStage.atChange_sending, ← WriterStage.atChange_writing]
  · intro kind
    rw [hphase]
    split <;> rfl
  · intro kind hne
    rw [hphase] at hne
    split at hne
    · rename_i heq
      exact heq ▸ hbatch
    · exact absurd rfl hne

/-- The message at the front of the batch is offered to one more connection. -/
theorem TurnsKept.write {s : Server M} (h : TurnsKept s) {stream : StreamKind} {id : Nat}
    {todo brokenConn brokenConn' : List Nat} (message : M stream) (ok : Bool)
    (hwriter : s.writer = .writing stream (id :: todo) brokenConn) :
    TurnsKept { s.onChannel stream (·.onConnection id (·.write message ok)) with
      writer := .writing stream todo brokenConn' } := by
  apply h.writerStep (phase_writing hwriter) (fun t => phase_writing) WriterStage.noConfusion
  · simp [hwriter]
  · exact fun _ => h.front_of_writing hwriter
  · rfl
  · rfl
  · exact Nat.le_refl _

/-- All connections have taken the message, which leaves the batch. -/
theorem TurnsKept.allWritten {s : Server M} (h : TurnsKept s) {stream : StreamKind}
    (hwriter : s.writer = .writing stream [] []) :
    TurnsKept { s.onChannel stream (·.handle.pop) with writer := .sending stream } := by
  have hfront := h.front_of_writing hwriter
  apply h.writerStep (phase_writing hwriter) (fun t => phase_sending) WriterStage.noConfusion
  · simp [hwriter]
  · exact fun hne => absurd rfl hne
  · rfl
  · rfl
  · exact Nat.le_of_eq (Channel.count_tail hfront).symm

/-- The writer turns to the connections that failed: the message stays in the batch. -/
theorem TurnsKept.someBroken {s : Server M} (h : TurnsKept s) {stream : StreamKind}
    {brokenConn : List Nat} (hwriter : s.writer = .writing stream [] brokenConn) :
    TurnsKept { s.onChannel stream (·.handle) with writer := .erasing stream brokenConn } := by
  have hfront := h.front_of_writing hwriter
  apply h.writerStep (phase_writing hwriter) (fun t => phase_erasing) WriterStage.noConfusion
  · simp [hwriter]
  · exact fun _ => hfront
  · rfl
  · rfl
  · exact Nat.le_of_eq (Channel.count_tail hfront).symm

/-- The connections that failed are removed, and the message leaves the batch. -/
theorem TurnsKept.erase {s : Server M} (h : TurnsKept s) {stream : StreamKind}
    {brokenConn : List Nat} (hwriter : s.writer = .erasing stream brokenConn) :
    TurnsKept { s.onChannel stream fun c => (c.erase brokenConn).pop with
      writer := .sending stream } := by
  apply h.writerStep (phase_erasing hwriter) (fun t => phase_sending) WriterStage.noConfusion
  · simp [hwriter]
  · exact fun hne => absurd rfl hne
  · rfl
  · rfl
  · exact Nat.le_refl _

/-- The first batch is used up: the writer turns to the second one. -/
theorem TurnsKept.nextStream {s : Server M} (h : TurnsKept s) (hwriter : s.writer = .sending .value)
    (hbatch : (s.channel .value).batch = []) : TurnsKept { s with writer := .sending .change } := by
  have hrest := phase_resting (s := { s with writer := .sending .change })
    (Or.inr (Or.inl ⟨.change, rfl⟩))
  apply h.stage hwriter WriterStage.noConfusion WriterStage.noConfusion (fun _ => hbatch)
  · intro kind
    rw [hrest kind]
    rfl
  · exact fun kind hne => absurd (hrest kind) hne

/-- The writer is told to stop: what was enqueued by then is marked. -/
theorem TurnsKept.stopWriter {s : Server M} (h : TurnsKept s)
    (hshutdown : s.shutdown = .notCalled) :
    TurnsKept { s with
      channel := fun stream =>
        { s.channel stream with enqueuedAtStop := (s.channel stream).enqueued.length }
      mStopEventWriter := true
      shutdown := .joining } where
  usedUp := h.usedUp
  firstUsedUp := h.firstUsedUp
  front := h.front
  stopSeen _ := rfl
  goesOn := h.goesOn
  ends := h.ends
  enqueuedBefore _ _ := Nat.le_refl _
  drained hstop := absurd hshutdown (h.called.mp (h.stopSeen hstop))
  called := iff_of_true rfl ShutdownStage.noConfusion
  joined _ hjoining := absurd rfl hjoining
  closing _ htodo := by cases htodo

/-- The shutdown lists the connections of both streams. -/
theorem TurnsKept.lockConnections {s : Server M} (h : TurnsKept s) (hchannels : ChannelsKept s)
    (hshutdown : s.shutdown = .joining) (hwriter : s.writer = .stopped) :
    TurnsKept { s with
      shutdown := .closing ((s.channel .value).mConnections.map (.value, ·) ++
        (s.channel .change).mConnections.map (.change, ·)) } := by
  apply h.afterStop hwriter
  · rw [hshutdown]
    exact ShutdownStage.noConfusion
  · exact ShutdownStage.noConfusion
  · intro todo htodo entry hmem
    cases htodo
    rw [List.mem_append, List.mem_map, List.mem_map] at hmem
    rcases hmem with ⟨id, hin, rfl⟩ | ⟨id, hin, rfl⟩ <;> exact hchannels.joined hin

/-- The shutdown closes one more connection. -/
theorem TurnsKept.closeConnection {s : Server M} (h : TurnsKept s) {stream : StreamKind} {id : Nat}
    {todo : List (StreamKind × Nat)} (hclosing : s.shutdown = .closing ((stream, id) :: todo)) :
    TurnsKept { s.onChannel stream (·.onConnection id ({ · with mShutdownFlag := true })) with
      shutdown := .closing todo } := by
  obtain ⟨hcalled, hwriter⟩ := h.later hclosing ShutdownStage.noConfusion ShutdownStage.noConfusion
  have hclosed : TurnsKept (s.onChannel stream
      (·.onConnection id ({ · with mShutdownFlag := true }))) := h.onConnection fun hin => hin
  apply hclosed.afterStop hwriter hcalled ShutdownStage.noConfusion
  intro todo' htodo entry hmem
  cases htodo
  exact hclosed.closing _ hclosing entry (List.mem_cons_of_mem _ hmem)

/-- The shutdown moves on from a stage with no connections left. -/
theorem TurnsKept.moveOn {s : Server M} (h : TurnsKept s) {stage next : ShutdownStage}
    (hstage : s.shutdown = stage) (hcalled : stage ≠ .notCalled) (hjoined : stage ≠ .joining)
    (hnext : next ≠ .notCalled) (hopen : ∀ todo, next ≠ .closing todo) :
    TurnsKept { s with shutdown := next } := by
  obtain ⟨hbegun, hwriter⟩ := h.later hstage hcalled hjoined
  exact h.afterStop hwriter hbegun hnext fun todo htodo => absurd htodo (hopen todo)

/-- Every step keeps the turns. -/
theorem ServerStep.turnsKept {s s' : Server M} {event : ServerEvent M}
    (hstep : ServerStep s event s') (hchannels : ChannelsKept s) (h : TurnsKept s) :
    TurnsKept s' := by
  cases hstep with
  | idle => exact h
  | push =>
      apply h.onChannel rfl rfl rfl _ fun _ hin => hin
      simp only [Channel.push, List.length_append]
      omega
  | accept habsent _ =>
      apply h.onConnection
      rw [habsent]
      exact fun hjoined => absurd hjoined Bool.false_ne_true
  | register _ _ => exact h.register _ _
  | handlerReturns _ _ => exact h.onConnection fun _ => rfl
  | drain hwriter _ => exact h.drain hchannels hwriter
  | take hwriter hbatch => exact h.take hwriter hbatch
  | write hwriter _ => exact h.write _ _ hwriter
  | allWritten hwriter => exact h.allWritten hwriter
  | someBroken hwriter _ => exact h.someBroken hwriter
  | erase hwriter _ => exact h.erase hwriter
  | nextStream hwriter hbatch => exact h.nextStream hwriter hbatch
  | endTurn hwriter hbatch => exact h.endTurn hwriter hbatch
  | stopWriter hshutdown => exact h.stopWriter hshutdown
  | lockConnections hshutdown hwriter => exact h.lockConnections hchannels hshutdown hwriter
  | closeConnection hclosing => exact h.closeConnection hclosing
  | shutdownServer hclosing =>
      exact h.moveOn hclosing ShutdownStage.noConfusion ShutdownStage.noConfusion
        ShutdownStage.noConfusion fun _ => ShutdownStage.noConfusion
  | serverIsDown hserver _ =>
      exact h.moveOn hserver ShutdownStage.noConfusion ShutdownStage.noConfusion
        ShutdownStage.noConfusion fun _ => ShutdownStage.noConfusion

/-- What every reachable state keeps. -/
structure ServerKept (s : Server M) : Prop where
  channels : ChannelsKept s
  turns : TurnsKept s

/-- A new server keeps the invariant. -/
theorem serverKept_initial : ServerKept ({} : Server M) where
  channels stream :=
    { counted := rfl
      handled_le := Nat.le_refl 0
      nodup := List.nodup_nil
      phase := fun _ _ hphase => by cases hphase
      brokenMem := fun _ hin => absurd hin List.not_mem_nil
      connections := fun id =>
        { fresh := fun _ => ⟨rfl, rfl, List.not_mem_nil⟩
          member := fun hjoined => absurd hjoined Bool.false_ne_true
          removed := fun hin => absurd hin List.not_mem_nil
          flagged := fun hbroken => absurd hbroken Bool.false_ne_true
          unflagged := fun hflag => absurd hflag Bool.false_ne_true
          returned := fun hreturned => by cases hreturned
          block := List.nil_prefix
          place := fun hjoined => absurd hjoined Bool.false_ne_true
          before := Nat.le_refl 0
          failsLast := fun _ hin => absurd hin List.not_mem_nil
          inTime := rfl } }
  turns :=
    { usedUp := fun _ _ => rfl
      firstUsedUp := fun hturn => absurd hturn Bool.false_ne_true
      front := fun _ hne => absurd rfl hne
      stopSeen := fun hstop => absurd hstop Bool.false_ne_true
      goesOn := fun _ => rfl
      ends := fun hw => by cases hw
      enqueuedBefore := fun hflag => absurd hflag Bool.false_ne_true
      drained := fun hstop => absurd hstop Bool.false_ne_true
      called := iff_of_false Bool.false_ne_true fun hcalled => hcalled rfl
      joined := fun hcalled => absurd rfl hcalled
      closing := fun _ htodo => by cases htodo }

theorem ServerStep.serverKept {s s' : Server M} {event : ServerEvent M}
    (hstep : ServerStep s event s') (h : ServerKept s) : ServerKept s' :=
  ⟨hstep.channelsKept h.channels h.turns, hstep.turnsKept h.channels h.turns⟩

/-- Every reachable state keeps the invariant. -/
theorem serverKept_of_path {s : Server M} {events : List (ServerEvent M)}
    (hpath : Path ServerStep {} events s) : ServerKept s :=
  hpath.invariant serverKept_initial fun _ _ _ h hstep => hstep.serverKept h

end VhalCore.ProxyServer
