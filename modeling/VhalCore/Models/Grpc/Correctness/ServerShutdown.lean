import VhalCore.Models.Grpc.Interpretation.ServerInvariant

/-!
# Shutdown of the server and joining streams

Shutdown holds the lock of the connections while it waits for all handlers. A handler that
was accepted and has not registered its connection by the time the lock is taken waits for
the lock, and neither goes on. There is no deadlock in the runs in which no handler is on
its way to the lock when Shutdown takes it and none is accepted before the server refuses
new calls; a step that breaks this rule leads to a deadlock.
-/

namespace VhalCore.ProxyServer

variable {M : StreamKind → Type}

/-- Shutdown waits for a handler that waits for the lock, or for a connection that nothing
will shut down. -/
def Deadlocked (s : Server M) : Prop :=
  s.shutdown = .inServer ∧ ∃ stream id,
    ((s.channel stream).connection id).handler = .accepted ∨
      ((s.channel stream).connection id).handler = .registered ∧
        ((s.channel stream).connection id).mShutdownFlag = false

/-- Shutdown meets no handler on its way to the lock. -/
def NoLateJoiner (s : Server M) : ServerEvent M → Prop
  | .lockConnections => ∀ stream id, ((s.channel stream).connection id).handler ≠ .accepted
  | .accept _ _ => ∀ todo, s.shutdown ≠ .closing todo
  | _ => True

/-- The connections that are left to shut down once Shutdown has the lock. -/
def ShutdownStage.remaining : ShutdownStage → Option (List (StreamKind × Nat))
  | .closing todo => some todo
  | .inServer => some []
  | _ => none

/-- With some connections left to shut down the handler of a connection can still return. -/
def Connection.Returns {N : Type} (c : Connection N) (left : Prop) : Prop :=
  c.handler ≠ .accepted ∧ (c.handler = .registered → c.mShutdownFlag = true ∨ left)

/-- All handlers can still return. -/
def HandlersReturn (s : Server M) : Prop :=
  ∀ todo, s.shutdown.remaining = some todo → ∀ stream id,
    ((s.channel stream).connection id).Returns ((stream, id) ∈ todo)

/-- Before Shutdown has the lock nothing is asked. -/
theorem handlersReturn_of_none {s : Server M} (h : s.shutdown.remaining = none) :
    HandlersReturn s := by
  intro todo htodo
  rw [h] at htodo
  cases htodo

/-- Before the connections are shared, none remains to be joined. -/
theorem ShutdownStage.remaining_of_notShared {s : Server M} (h : s.notShared) :
    s.shutdown.remaining = none := by
  obtain ⟨-, hclosing, hserver⟩ := h
  cases hstage : s.shutdown with
  | closing todo => exact absurd hstage (hclosing todo)
  | inServer => exact absurd hstage hserver
  | notCalled | joining | returned => rfl

/-- While the writer runs Shutdown does not have the lock. -/
theorem TurnsKept.remaining_of_running {s : Server M} (h : TurnsKept s)
    (hrunning : s.writer ≠ .stopped) : s.shutdown.remaining = none := by
  have hopen := h.running hrunning
  cases hstage : s.shutdown with
  | notCalled | joining | returned => rfl
  | closing todo | inServer =>
      rw [hstage] at hopen
      cases hopen ShutdownStage.noConfusion

/-- A step of the writer. -/
theorem ServerStep.writer_running {s s' : Server M} (hstep : ServerStep s .writer s') :
    s.writer ≠ .stopped ∧ s'.shutdown = s.shutdown := by
  cases hstep with
  | drain h _ | take h _ | write h _ | allWritten h | someBroken h _ | erase h _
  | nextStream h _ | endTurn h _ =>
      rw [h]
      exact ⟨WriterStage.noConfusion, rfl⟩

/-- A change of one connection. -/
theorem HandlersReturn.onConnection {s : Server M} {stream : StreamKind} {id : Nat}
    {f : Connection (M stream) → Connection (M stream)} {todo : List (StreamKind × Nat)}
    (hid : (f ((s.channel stream).connection id)).Returns ((stream, id) ∈ todo))
    (hothers : ∀ kind other, (kind, other) ≠ (stream, id) →
      ((s.channel kind).connection other).Returns ((kind, other) ∈ todo)) (kind : StreamKind)
    (other : Nat) :
    ((((s.onChannel stream (·.onConnection id f)).channel kind)).connection other).Returns
      ((kind, other) ∈ todo) := by
  apply Server.onChannel_forall (P := fun kind c => (c.connection other).Returns
    ((kind, other) ∈ todo))
  · by_cases heq : other = id
    · subst heq
      rw [Channel.onConnection_same]
      exact hid
    · rw [Channel.onConnection_other _ heq]
      exact hothers stream other fun hpair => heq (Prod.mk.inj hpair).2
  · exact fun kind hne => hothers kind other fun hpair => hne (Prod.mk.inj hpair).1

/-- A handler that has returned is no concern. -/
theorem Connection.returns_of_returned {N : Type} {c : Connection N} (left : Prop)
    (h : c.handler = .returned) : c.Returns left := by
  constructor
  · rw [h]
    exact StreamHandler.noConfusion
  · rw [h]
    exact fun hregistered => by cases hregistered

/-- When Shutdown takes the lock every registered connection is shut down or will be. -/
theorem ChannelsKept.returns_at_lock {s : Server M} (h : ChannelsKept s) {stream : StreamKind}
    {id : Nat} (hnot : ((s.channel stream).connection id).handler ≠ .accepted) :
    ((s.channel stream).connection id).Returns (id ∈ (s.channel stream).mConnections) := by
  refine ⟨hnot, fun hregistered => ?_⟩
  have hkept := (h stream).connections id
  cases hbroken : ((s.channel stream).connection id).broken with
  | true => exact Or.inl (hkept.flagged hbroken)
  | false =>
      right
      apply hkept.member _ hbroken
      rw [hregistered]
      rfl

/-- Every step that meets the rule keeps the handlers able to return. -/
theorem ServerStep.handlersReturn {s s' : Server M} {event : ServerEvent M}
    (hstep : ServerStep s event s') (hrule : NoLateJoiner s event) (hkept : ServerKept s)
    (h : HandlersReturn s) : HandlersReturn s' := by
  by_cases hevent : event = .writer
  · subst hevent
    obtain ⟨hrunning, hsame⟩ := hstep.writer_running
    apply handlersReturn_of_none
    rw [hsame]
    exact hkept.turns.remaining_of_running hrunning
  cases hstep with
  | idle => exact h
  | @push stream message =>
      intro todo htodo kind id
      exact Server.onChannel_forall (P := fun kind c => (c.connection id).Returns
        ((kind, id) ∈ todo)) (f := (·.push message)) (h todo htodo stream id)
        (fun other _ => h todo htodo other id) kind
  | accept _ hserver =>
      apply handlersReturn_of_none
      show s.shutdown.remaining = none
      cases hstage : s.shutdown with
      | closing todo => exact absurd hstage (hrule todo)
      | inServer => exact absurd hstage hserver.1
      | notCalled | joining | returned => rfl
  | register _ hlock =>
      exact handlersReturn_of_none (ShutdownStage.remaining_of_notShared hlock)
  | handlerReturns _ _ =>
      intro todo htodo
      exact HandlersReturn.onConnection (Connection.returns_of_returned _ rfl)
        fun kind other _ => h todo htodo kind other
  | stopWriter _ => exact handlersReturn_of_none rfl
  | lockConnections _ _ =>
      intro todo htodo stream id
      cases htodo
      obtain ⟨hnot, hreturns⟩ := hkept.channels.returns_at_lock (hrule stream id)
      refine ⟨hnot, fun hregistered => (hreturns hregistered).imp_right fun hin => ?_⟩
      rw [List.mem_append]
      cases stream with
      | value => exact Or.inl (List.mem_map_of_mem hin)
      | change => exact Or.inr (List.mem_map_of_mem hin)
  | @closeConnection stream id todo hclosing =>
      intro todo' htodo
      cases htodo
      have hreturns := h ((stream, id) :: todo) (by rw [hclosing]; rfl)
      apply HandlersReturn.onConnection
      · exact ⟨(hreturns stream id).1, fun _ => Or.inl rfl⟩
      · intro kind other hne
        obtain ⟨hnot, hflagged⟩ := hreturns kind other
        refine ⟨hnot, fun hregistered => (hflagged hregistered).imp_right fun hin => ?_⟩
        exact (List.mem_cons.mp hin).resolve_left hne
  | shutdownServer hclosing =>
      intro todo htodo
      cases htodo
      exact h [] (by rw [hclosing]; rfl)
  | serverIsDown _ _ => exact handlersReturn_of_none rfl
  | drain _ _ | take _ _ | write _ _ | allWritten _ | someBroken _ _ | erase _ _
  | nextStream _ _ | endTurn _ _ => exact absurd rfl hevent

/-- While all handlers can return there is no deadlock. -/
theorem HandlersReturn.not_deadlocked {s : Server M} (h : HandlersReturn s) : ¬Deadlocked s := by
  rintro ⟨hserver, stream, id, hwaits⟩
  obtain ⟨hnot, hflagged⟩ := h [] (by rw [hserver]; rfl) stream id
  rcases hwaits with haccepted | ⟨hregistered, hflag⟩
  · exact hnot haccepted
  · rcases hflagged hregistered with hset | hin
    · exact absurd (hflag.symm.trans hset) Bool.false_ne_true
    · exact List.not_mem_nil hin

/-- The handlers that a deadlock is about wait for ever. -/
theorem ServerStep.deadlocked {s s' : Server M} {event : ServerEvent M}
    (hstep : ServerStep s event s') (hkept : ServerKept s) (h : Deadlocked s) :
    Deadlocked s' := by
  obtain ⟨hserver, stream, id, hwaits⟩ := h
  by_cases hevent : event = .writer
  · subst hevent
    obtain ⟨hrunning, -⟩ := hstep.writer_running
    have hnone := hkept.turns.remaining_of_running hrunning
    rw [hserver] at hnone
    cases hnone
  cases hstep with
  | idle => exact ⟨hserver, stream, id, hwaits⟩
  | @push kind message =>
      refine ⟨hserver, stream, id, ?_⟩
      have hsame : ((s.onChannel kind (·.push message)).channel stream).connection id =
          (s.channel stream).connection id :=
        Server.onChannel_forall (P := fun kind c => c.connection id =
          (s.channel kind).connection id) rfl (fun _ _ => rfl) stream
      rw [hsame]
      exact hwaits
  | accept _ hopen => exact absurd hserver hopen.1
  | register _ hlock => exact absurd hserver hlock.2.2
  | @handlerReturns kind other hregistered hflag =>
      refine ⟨hserver, stream, id, ?_⟩
      revert hwaits
      apply Server.onChannel_forall (P := fun kind c =>
        (((s.channel kind).connection id).handler = .accepted ∨
          ((s.channel kind).connection id).handler = .registered ∧
            ((s.channel kind).connection id).mShutdownFlag = false) →
        ((c.connection id).handler = .accepted ∨
          (c.connection id).handler = .registered ∧ (c.connection id).mShutdownFlag = false))
      · by_cases heq : id = other
        · subst heq
          rw [hregistered, hflag]
          rintro (h | ⟨-, h⟩) <;> cases h
        · rw [Channel.onConnection_other _ heq]
          exact fun hwaits => hwaits
      · exact fun _ _ hwaits => hwaits
  | stopWriter h | lockConnections h _ | closeConnection h | shutdownServer h =>
      cases hserver.symm.trans h
  | serverIsDown _ hhandlers =>
      rcases hwaits with h | ⟨h, -⟩ <;> rcases hhandlers stream id with h' | h' <;>
        cases h.symm.trans h'
  | drain _ _ | take _ _ | write _ _ | allWritten _ | someBroken _ _ | erase _ _
  | nextStream _ _ | endTurn _ _ => exact absurd rfl hevent

/-- Shutdown runs into a handler that waits for the lock. -/
theorem exists_deadlocked_of_closing {s : Server M} {todo : List (StreamKind × Nat)}
    {stream : StreamKind} {id : Nat} (hclosing : s.shutdown = .closing todo)
    (haccepted : ((s.channel stream).connection id).handler = .accepted) :
    ∃ events t, Path ServerStep s events t ∧ Deadlocked t := by
  induction todo generalizing s with
  | nil => exact ⟨_, _, Path.single (.shutdownServer hclosing), rfl, stream, id, Or.inl haccepted⟩
  | cons entry todo ih =>
      obtain ⟨kind, other⟩ := entry
      have hstep := ServerStep.closeConnection hclosing
      have hsame : (((s.onChannel kind
          (·.onConnection other ({ · with mShutdownFlag := true }))).channel stream).connection
            id).handler = ((s.channel stream).connection id).handler := by
        apply Server.onChannel_forall (P := fun kind c => (c.connection id).handler =
          ((s.channel kind).connection id).handler) _ (fun _ _ => rfl)
        by_cases heq : id = other
        · subst heq
          rw [Channel.onConnection_same]
        · rw [Channel.onConnection_other _ heq]
      obtain ⟨events, t, hpath, hdead⟩ := ih (s := { s.onChannel kind
        (·.onConnection other ({ · with mShutdownFlag := true })) with shutdown := .closing todo })
        rfl (hsame.trans haccepted)
      exact ⟨_, t, (Path.single hstep).trans hpath, hdead⟩

/-- A step that breaks the rule leads to a deadlock. -/
theorem ServerStep.exists_deadlocked {s s' : Server M} {event : ServerEvent M}
    (hstep : ServerStep s event s') (hrule : ¬NoLateJoiner s event) :
    ∃ events t, Path ServerStep s' events t ∧ Deadlocked t := by
  cases hstep with
  | @accept stream id _ _ =>
      simp only [NoLateJoiner, not_forall, not_not] at hrule
      obtain ⟨todo, hclosing⟩ := hrule
      have haccepted : (((s.onChannel stream fun c => c.onConnection id fun connection =>
          { connection with handler := .accepted }).channel stream).connection id).handler =
          .accepted := by
        rw [s.onChannel_same, Channel.onConnection_same]
      exact exists_deadlocked_of_closing (s := s.onChannel stream _) hclosing haccepted
  | lockConnections _ _ =>
      simp only [NoLateJoiner, not_forall, not_not] at hrule
      obtain ⟨stream, id, haccepted⟩ := hrule
      exact exists_deadlocked_of_closing
        (s := { s with shutdown := .closing ((s.channel .value).mConnections.map (.value, ·) ++
          (s.channel .change).mConnections.map (.change, ·)) }) rfl haccepted
  | _ => exact absurd trivial hrule

/-- The runs whose steps meet the rule have no deadlock; a step of a run that breaks it leads
to one that lasts. -/
theorem shutdown_deadlockFree_along_run :
    (∀ events s, Path (fun s event s' => ServerStep s event s' ∧ NoLateJoiner s event)
      ({} : Server M) events s → ¬Deadlocked s) ∧
    ∀ events s event s', Path ServerStep ({} : Server M) events s → ServerStep s event s' →
      ¬NoLateJoiner s event → ∃ later t, Path ServerStep s' later t ∧
        ∀ ever u, Path ServerStep t ever u → Deadlocked u := by
  constructor
  · intro events s hpath
    have hboth : ServerKept s ∧ HandlersReturn s := by
      apply hpath.invariant (P := fun t => ServerKept t ∧ HandlersReturn t)
      · exact ⟨serverKept_initial, handlersReturn_of_none rfl⟩
      · rintro t event u ⟨hkept, hreturn⟩ ⟨hstep, hrule⟩
        exact ⟨hstep.serverKept hkept, hstep.handlersReturn hrule hkept hreturn⟩
    exact hboth.2.not_deadlocked
  · intro events s event s' hpath hstep hrule
    obtain ⟨later, t, hlater, hdead⟩ := hstep.exists_deadlocked hrule
    have hkept := serverKept_of_path ((hpath.snoc hstep).trans hlater)
    refine ⟨later, t, hlater, fun ever u hever => ?_⟩
    have hboth : ServerKept u ∧ Deadlocked u := by
      apply hever.invariant (P := fun t => ServerKept t ∧ Deadlocked t) ⟨hkept, hdead⟩
      exact fun v event w h hstep => ⟨hstep.serverKept h.1, hstep.deadlocked h.1 h.2⟩
    exact hboth.2

/-- A run up to the time at which Shutdown wants the lock, with a handler on its way to it. -/
private theorem joining_path : ∃ events, ∃ s : Server Message,
    Path (fun s event s' => ServerStep s event s' ∧ NoLateJoiner s event) {} events s ∧
      s.shutdown = .joining ∧ s.writer = .stopped ∧
      ((s.channel .value).connection 0).handler = .accepted := by
  have haccept : ServerStep ({} : Server Message) (.accept .value 0) _ :=
    .accept rfl ⟨ShutdownStage.noConfusion, ShutdownStage.noConfusion⟩
  have hpath := Path.single (R := fun s event s' => ServerStep s event s' ∧ NoLateJoiner s event)
    ⟨haccept, fun _ => ShutdownStage.noConfusion⟩
  have hpath := hpath.snoc ⟨.stopWriter rfl, trivial⟩
  have hpath := hpath.snoc ⟨.drain rfl (Or.inl rfl), trivial⟩
  have hpath := hpath.snoc ⟨.nextStream rfl rfl, trivial⟩
  have hpath := hpath.snoc ⟨.endTurn rfl rfl, trivial⟩
  exact ⟨_, _, hpath, rfl, rfl, rfl⟩

/-- Shutdown takes the lock while a handler is on its way to it, and waits for the handler. -/
theorem lateJoiner_deadlocks :
    ¬∀ events, ∀ s : Server Message, Path ServerStep {} events s → ¬Deadlocked s := by
  intro hnever
  obtain ⟨events, s, hpath, hjoining, hstopped, haccepted⟩ := joining_path
  have hbefore : Path ServerStep {} events s := hpath.mono fun _ _ _ h => h.1
  have hrun := hbefore.snoc (.lockConnections hjoining hstopped)
  obtain ⟨later, t, hlater, hdead⟩ := ServerStep.exists_deadlocked
    (.lockConnections hjoining hstopped) fun hrule => hrule .value 0 haccepted
  exact hnever _ t (hrun.trans hlater) hdead

/-- A run up to the time at which Shutdown waits for the handler of a connection that it has
shut down. -/
private theorem inServer_path : ∃ events, ∃ s : Server Message,
    Path (fun s event s' => ServerStep s event s' ∧ NoLateJoiner s event) {} events s ∧
      s.shutdown = .inServer := by
  have haccept : ServerStep ({} : Server Message) (.accept .value 0) _ :=
    .accept rfl ⟨ShutdownStage.noConfusion, ShutdownStage.noConfusion⟩
  have hpath := Path.single (R := fun s event s' => ServerStep s event s' ∧ NoLateJoiner s event)
    ⟨haccept, fun _ => ShutdownStage.noConfusion⟩
  have hpath := hpath.snoc ⟨@ServerStep.register _ _ .value 0 rfl
    ⟨fun _ _ _ => WriterStage.noConfusion, fun _ => ShutdownStage.noConfusion,
      ShutdownStage.noConfusion⟩, trivial⟩
  have hpath := hpath.snoc ⟨.stopWriter rfl, trivial⟩
  have hpath := hpath.snoc ⟨.drain rfl (Or.inl rfl), trivial⟩
  have hpath := hpath.snoc ⟨.nextStream rfl rfl, trivial⟩
  have hpath := hpath.snoc ⟨.endTurn rfl rfl, trivial⟩
  have hpath := hpath.snoc ⟨.lockConnections rfl rfl, fun stream id => by
    cases stream <;> cases id <;> exact StreamHandler.noConfusion⟩
  have hpath := hpath.snoc ⟨@ServerStep.closeConnection _ _ .value 0 [] rfl, trivial⟩
  have hpath := hpath.snoc ⟨.shutdownServer rfl, trivial⟩
  exact ⟨_, _, hpath, rfl⟩

/-- A server that shuts down before anyone joins does not deadlock, and one that is joined late
does. -/
theorem inServer_deadlockFree_joining_deadlocks :
    (∃ events, ∃ s : Server Message,
      Path (fun s event s' => ServerStep s event s' ∧ NoLateJoiner s event) {} events s ∧
        s.shutdown = .inServer ∧ ¬Deadlocked s) ∧
    ∃ events, ∃ s s' : Server Message, Path ServerStep {} events s ∧
      ServerStep s .lockConnections s' ∧ ∃ later t, Path ServerStep s' later t ∧
        ∀ ever u, Path ServerStep t ever u → Deadlocked u := by
  constructor
  · obtain ⟨events, s, hpath, hserver⟩ := inServer_path
    exact ⟨events, s, hpath, hserver, shutdown_deadlockFree_along_run.1 events s hpath⟩
  · obtain ⟨events, s, hpath, hjoining, hstopped, haccepted⟩ := joining_path
    have hrun : Path ServerStep {} events s := hpath.mono fun _ _ _ h => h.1
    exact ⟨events, s, _, hrun, .lockConnections hjoining hstopped,
      shutdown_deadlockFree_along_run.2 events s _ _ hrun (.lockConnections hjoining hstopped)
        fun hrule => hrule .value 0 haccepted⟩

end VhalCore.ProxyServer
