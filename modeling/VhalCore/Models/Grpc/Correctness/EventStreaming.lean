import VhalCore.Models.Grpc.Interpretation.WriterProgress

/-!
# Event streaming keeps the order and loses nothing

In every reachable state each connection has been written a contiguous block of the
enqueued messages. The block starts no later than with the first message that was enqueued
after the connection was registered, and reaches as far as the writer has come unless a
write has failed. In every execution that is fair to the writer the block goes on until a
write fails or all messages are written that were enqueued before the writer was told to
stop.
-/

namespace VhalCore.ProxyServer

variable {M : StreamKind → Type}

/-- A connection of a stream. -/
abbrev Server.connection (s : Server M) (stream : StreamKind) (id : Nat) : Connection (M stream) :=
  (s.channel stream).connection id

/-- What has been written to a connection, and where the connection stands. -/
structure Streamed (s : Server M) (stream : StreamKind) (id : Nat) : Prop where
  starts : (s.connection stream id).handledBefore ≤
    (s.connection stream id).enqueuedBefore
  contiguous : (s.connection stream id).writes.map Prod.fst =
    ((s.channel stream).enqueued.drop (s.connection stream id).handledBefore).take
      (s.connection stream id).writes.length
  goesOn : (s.connection stream id).handler.joined = true →
    (s.connection stream id).broken = false →
    (s.channel stream).handled ≤ (s.connection stream id).handledBefore +
      (s.connection stream id).writes.length
  beforeStop : (s.connection stream id).handler.joined = true →
    (s.connection stream id).broken = false → s.writer = .stopped →
    (s.channel stream).enqueuedAtStop ≤ (s.connection stream id).handledBefore +
      (s.connection stream id).writes.length
  failsLast : ∀ write ∈ (s.connection stream id).writes.dropLast, write.2 = true
  stays : (s.connection stream id).handler.joined = true →
    (s.connection stream id).broken = false → id ∈ (s.channel stream).mConnections
  removed : (s.connection stream id).broken = true →
    id ∈ (s.channel stream).mConnections → ∃ brokenConn, id ∈ brokenConn ∧
      ((∃ todo, s.writer = .writing stream todo brokenConn) ∨ s.writer = .erasing stream brokenConn)
  inTime : (s.connection stream id).lateWrite = false

/-- A phase in which a connection is broken is one of the writer at the stream. -/
theorem Server.mem_brokenConn {s : Server M} {stream : StreamKind} {id : Nat}
    (h : id ∈ (s.phase stream).brokenConn) : ∃ brokenConn, id ∈ brokenConn ∧
      ((∃ todo, s.writer = .writing stream todo brokenConn) ∨
        s.writer = .erasing stream brokenConn) := by
  cases hwriter : s.writer with
  | waiting | sending _ | stopped =>
      simp only [Server.phase, hwriter, Phase.brokenConn, List.not_mem_nil] at h
  | writing other todo brokenConn =>
      simp only [Server.phase, hwriter] at h
      split at h
      · rename_i heq
        subst heq
        exact ⟨brokenConn, h, Or.inl ⟨todo, rfl⟩⟩
      · exact absurd h List.not_mem_nil
  | erasing other brokenConn =>
      simp only [Server.phase, hwriter] at h
      split at h
      · rename_i heq
        subst heq
        exact ⟨brokenConn, h, Or.inr rfl⟩
      · exact absurd h List.not_mem_nil

/-- The invariant of the server says what has been written. -/
theorem ServerKept.streamed {s : Server M} (h : ServerKept s) (stream : StreamKind) (id : Nat) :
    Streamed s stream id := by
  have hkept := (h.channels stream).connections id
  have hgoesOn (hjoined : (s.connection stream id).handler.joined = true)
      (hok : (s.connection stream id).broken = false) :
      (s.channel stream).handled ≤ (s.connection stream id).handledBefore +
        (s.connection stream id).writes.length := by
    rw [hkept.place hjoined hok]
    exact Nat.le_add_right _ _
  refine ⟨hkept.before, ?_, hgoesOn, fun hjoined hok hwriter => ?_, hkept.failsLast,
    hkept.member, fun hbroken hin => Server.mem_brokenConn ((hkept.removed hin).mp hbroken),
    hkept.inTime⟩
  · have hblock := List.prefix_iff_eq_take.mp hkept.block
    rwa [List.length_map] at hblock
  · have hdrained := h.turns.drained (h.turns.ends hwriter) stream
    rw [phase_resting (Or.inr (Or.inr hwriter)) stream, Channel.unhandled_resting,
      h.turns.usedUp (Or.inr hwriter) stream] at hdrained
    exact hdrained.trans (hgoesOn hjoined hok)

/-- A message of the block of a healthy connection has been written. -/
theorem Streamed.written {s : Server M} {stream : StreamKind} {id k : Nat} {message : M stream}
    (h : Streamed s stream id) (hok : (s.connection stream id).broken = false)
    (hk : k < (s.connection stream id).writes.length)
    (hmessage : (s.channel stream).enqueued[(s.connection stream id).handledBefore + k]? =
      some message) :
    (s.connection stream id).writes[k]? = some (message, true) := by
  obtain ⟨⟨written, ok⟩, hwrite⟩ : ∃ write,
      (s.connection stream id).writes[k]? = some write :=
    ⟨_, List.getElem?_eq_getElem hk⟩
  have hwritten := congrArg (·[k]?) h.contiguous
  simp only [List.getElem?_map, hwrite, Option.map_some, List.getElem?_take_of_lt hk,
    List.getElem?_drop, hmessage, Option.some.injEq] at hwritten
  have hsucceeded := List.any_eq_false.mp hok _ (List.mem_of_getElem? hwrite)
  rw [Bool.not_eq_true', Bool.not_eq_false] at hsucceeded
  rw [hwrite, hwritten]
  exact congrArg (fun b => some (message, b)) hsucceeded

/-- The streams keep the order of the messages and lose none. -/
theorem streamed_in_order_without_loss :
    (∀ events s, Path ServerStep ({} : Server M) events s → ∀ stream id, Streamed s stream id) ∧
    ∀ x : Execution ServerStep ({} : Server M), x.FairTo .writer →
      ∀ i stream id k message,
        ((x.state i).connection stream id).handler.joined = true →
        ((x.state i).channel stream).enqueued[
          ((x.state i).connection stream id).handledBefore + k]? = some message →
        ((x.state i).connection stream id).handledBefore + k <
          (x.state i).owed stream →
        ∃ j, i ≤ j ∧ (((x.state j).connection stream id).broken = true ∨
          ((x.state j).connection stream id).writes[k]? = some (message, true)) := by
  constructor
  · exact fun events s hpath stream id => (serverKept_of_path hpath).streamed stream id
  · intro x hfair i stream id k message hjoined hmessage howed
    obtain ⟨j, hij, hhandled⟩ := handled_of_owed hfair i stream
    have hkept : ServerKept (x.state j) :=
      x.always serverKept_initial (fun n => (x.step n).serverKept) j
    have hgrows : ((x.state i).channel stream).Grows ((x.state j).channel stream) :=
      Execution.always_from (P := fun s : Server M =>
        ((x.state i).channel stream).Grows (s.channel stream)) hij (.refl _)
        fun n h => h.trans ((x.step n).grows stream)
    obtain ⟨hjoined', hbefore⟩ := hgrows.joined id hjoined
    have hsame : ((x.state j).connection stream id).handledBefore =
        ((x.state i).connection stream id).handledBefore := hbefore
    have hlaw := hkept.streamed stream id
    refine ⟨j, hij, ?_⟩
    cases hbroken : ((x.state j).connection stream id).broken with
    | true => exact Or.inl rfl
    | false =>
        right
        have hreached := hlaw.goesOn hjoined' hbroken
        rw [hsame] at hreached
        apply hlaw.written hbroken
        · omega
        · obtain ⟨later, hlater⟩ := hgrows.enqueued
          rw [hsame, ← hlater,
            List.getElem?_append_left (List.getElem?_eq_some_iff.mp hmessage).1]
          exact hmessage

/-- A message with one value, of a time. -/
def messageAt (timestamp : Int64) : Message .value := 
  [({ timestamp } : ProtoMsgConverter.Proto.VehiclePropValue)]

/-- A message is written to the only connection. Then another one joins, and the next message is
written to it, while the write on the first connection fails. -/
private theorem twoConnections_path : ∃ events, ∃ s : Server Message,
    Path ServerStep {} events s ∧ events.length = 20 ∧
    s.writer = .waiting ∧ s.mStopEventWriter = false ∧ (∀ stream, (s.channel stream).mQueue = []) ∧
    (s.channel .value).enqueued = [messageAt 1, messageAt 2] ∧
    (s.channel .value).mConnections = [1] ∧
    (s.connection .value 0).writes = [(messageAt 1, true), (messageAt 2, false)] ∧
    (s.connection .value 1).handler.joined = true ∧ (s.connection .value 1).handledBefore = 1 := by
  have haccept : ServerStep ({} : Server Message) (.accept .value 0) _ :=
    .accept rfl ⟨ShutdownStage.noConfusion, ShutdownStage.noConfusion⟩
  have hpath := (Path.single haccept).snoc (@ServerStep.register _ _ .value 0 rfl
    ⟨fun _ _ _ => WriterStage.noConfusion, fun _ => ShutdownStage.noConfusion,
      ShutdownStage.noConfusion⟩)
  have hpath := hpath.snoc (@ServerStep.push _ _ .value (messageAt 1))
  have hpath := hpath.snoc (.drain rfl (Or.inr ⟨.value, List.cons_ne_nil _ _⟩))
  have hpath := hpath.snoc (.take rfl (List.cons_ne_nil _ _))
  have hpath := hpath.snoc (@ServerStep.write _ _ .value 0 [] [] (messageAt 1) [] true rfl rfl)
  have hpath := hpath.snoc (.allWritten rfl)
  have hpath := hpath.snoc (.nextStream rfl rfl)
  have hpath := hpath.snoc (.endTurn rfl rfl)
  have hpath := hpath.snoc (@ServerStep.accept _ _ .value 1 rfl
    ⟨ShutdownStage.noConfusion, ShutdownStage.noConfusion⟩)
  have hpath := hpath.snoc (@ServerStep.register _ _ .value 1 rfl
    ⟨fun _ _ _ => WriterStage.noConfusion, fun _ => ShutdownStage.noConfusion,
      ShutdownStage.noConfusion⟩)
  have hpath := hpath.snoc (@ServerStep.push _ _ .value (messageAt 2))
  have hpath := hpath.snoc (.drain rfl (Or.inr ⟨.value, List.cons_ne_nil _ _⟩))
  have hpath := hpath.snoc (.take rfl (List.cons_ne_nil _ _))
  have hpath := hpath.snoc (@ServerStep.write _ _ .value 0 [1] [] (messageAt 2) [] false rfl rfl)
  have hpath := hpath.snoc (@ServerStep.write _ _ .value 1 [] [0] (messageAt 2) [] true rfl rfl)
  have hpath := hpath.snoc (.someBroken rfl (List.cons_ne_nil _ _))
  have hpath := hpath.snoc (.erase rfl ⟨fun _ _ _ => WriterStage.noConfusion,
    fun _ => ShutdownStage.noConfusion, ShutdownStage.noConfusion⟩)
  have hpath := hpath.snoc (.nextStream rfl rfl)
  have hpath := hpath.snoc (.endTurn rfl rfl)
  refine ⟨_, _, hpath, rfl, rfl, rfl, fun stream => ?_, rfl, rfl, rfl, rfl, rfl⟩
  cases stream <;> rfl

/-- Both connections have their blocks of the two messages, and what the later one is owed is
written to it. -/
theorem twoConnections_streamed : ∃ x : Execution ServerStep ({} : Server Message),
    x.FairTo .writer ∧
    (Streamed (x.state 20) .value 0 ∧ ((x.state 20).connection .value 0).broken = true) ∧
    Streamed (x.state 20) .value 1 ∧ ∃ j, 20 ≤ j ∧
      (((x.state j).connection .value 1).broken = true ∨
        ((x.state j).connection .value 1).writes[0]? = some (messageAt 2, true)) := by
  obtain ⟨events, s, hpath, hlength, hwriter, hstop, hqueue, henqueued, -, hwrites, hjoined,
    hbefore⟩ := twoConnections_path
  obtain ⟨x, -, hfinal⟩ := hpath.exists_execution .idle
  rw [hlength] at hfinal
  have hstate (i : Nat) (hi : 20 ≤ i) : x.state i = s := (hfinal i hi).1
  have hfair : x.FairTo .writer := by
    apply Execution.fairTo_of_final hstate
    intro t hstep
    cases hstep with
    | drain _ hwake =>
        rcases hwake with hset | ⟨stream, hne⟩
        · exact absurd (hstop.symm.trans hset) Bool.false_ne_true
        · exact hne (hqueue stream)
    | take h _ | write h _ | allWritten h | someBroken h _ | erase h _ | nextStream h _
    | endTurn h _ => cases hwriter.symm.trans h
  have hlast := hstate 20 (Nat.le_refl 20)
  have hstreamed := streamed_in_order_without_loss.1 _ s hpath .value
  refine ⟨x, hfair, ⟨hlast ▸ hstreamed 0, ?_⟩, hlast ▸ hstreamed 1,
    streamed_in_order_without_loss.2 x hfair 20 .value 1 0 (messageAt 2) ?_ ?_ ?_⟩
  · rw [hlast, Connection.broken, hwrites]
    rfl
  · rw [hlast]
    exact hjoined
  · rw [hlast, hbefore, henqueued]
    rfl
  · rw [hlast, hbefore, Server.owed, hstop, henqueued]
    exact Nat.one_lt_two

end VhalCore.ProxyServer
