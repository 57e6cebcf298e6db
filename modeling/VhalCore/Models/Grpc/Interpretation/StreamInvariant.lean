import VhalCore.Models.Grpc.Native.EventStreams
import Mathlib.Data.List.Nodup

/-!
# What the writer keeps of a stream

Every connection has received a block of the enqueued messages. A connection without a
failed write stands in the list of the connections, and its block reaches as far as the
writer has come; a connection with a failed write stands there at most until the writer
has removed it. One lemma for each operation on a stream says that it keeps this.
-/

namespace VhalCore.ProxyServer

/-- What the writer does at a stream: nothing, offer a message to the connections that are
left, or remove broken connections. -/
inductive Phase where
  | resting
  | writing (todo brokenConn : List Nat)
  | erasing (brokenConn : List Nat)

/-- The connections that broke in this phase. -/
def Phase.brokenConn : Phase → List Nat
  | .resting => []
  | .writing _ brokenConn => brokenConn
  | .erasing brokenConn => brokenConn

/-- The number of messages of this phase that a connection has been offered. -/
def Phase.offered (id : Nat) : Phase → Nat
  | .writing todo _ => if id ∈ todo then 0 else 1
  | _ => 0

variable {M : Type}

/-- The messages of the batch that are not handled. -/
def Channel.unhandled (c : Channel M) : Phase → List M
  | .erasing _ => c.batch.tail
  | _ => c.batch

@[simp] theorem Channel.unhandled_resting (c : Channel M) : c.unhandled .resting = c.batch := rfl

/-- A connection of a stream. -/
structure ConnectionKept (c : Channel M) (p : Phase) (stopped : Bool) (id : Nat) : Prop where
  fresh : (c.connection id).handler.joined = false →
    (c.connection id).writes = [] ∧ (c.connection id).mShutdownFlag = false ∧ id ∉ c.mConnections
  member : (c.connection id).handler.joined = true → (c.connection id).broken = false →
    id ∈ c.mConnections
  removed : id ∈ c.mConnections → ((c.connection id).broken = true ↔ id ∈ p.brokenConn)
  flagged : (c.connection id).broken = true → (c.connection id).mShutdownFlag = true
  unflagged : (c.connection id).mShutdownFlag = true →
    (c.connection id).broken = true ∨ stopped = true
  returned : (c.connection id).handler = .returned → (c.connection id).mShutdownFlag = true
  block : (c.connection id).writes.map Prod.fst <+: c.enqueued.drop (c.connection id).handledBefore
  place : (c.connection id).handler.joined = true → (c.connection id).broken = false →
    (c.connection id).handledBefore + (c.connection id).writes.length = c.handled + p.offered id
  before : (c.connection id).handledBefore ≤ (c.connection id).enqueuedBefore
  failsLast : ∀ write ∈ (c.connection id).writes.dropLast, write.2 = true
  inTime : (c.connection id).lateWrite = false

/-- A stream: the messages that are not handled wait in the batch and in the queue. -/
structure ChannelKept (c : Channel M) (p : Phase) (stopped : Bool) : Prop where
  counted : c.enqueued.drop c.handled = c.unhandled p ++ c.mQueue
  handled_le : c.handled ≤ c.enqueued.length
  nodup : c.mConnections.Nodup
  phase : ∀ todo brokenConn, p = .writing todo brokenConn →
    ∃ past, c.mConnections = past ++ todo ∧ ∀ id ∈ brokenConn, id ∈ past
  brokenMem : ∀ id ∈ p.brokenConn, id ∈ c.mConnections
  connections : ∀ id, ConnectionKept c p stopped id

/-- A connection that is not changed itself is kept. -/
theorem ConnectionKept.transfer {c c' : Channel M} {p p' : Phase} {stopped stopped' : Bool}
    {id : Nat} (h : ConnectionKept c p stopped id) (hsame : c'.connection id = c.connection id)
    (hmem : id ∈ c'.mConnections → id ∈ c.mConnections)
    (hstays : id ∈ c.mConnections → (c.connection id).broken = false → id ∈ c'.mConnections)
    (henqueued : c.enqueued <+: c'.enqueued)
    (hbroken : id ∈ c'.mConnections → (id ∈ p'.brokenConn ↔ id ∈ p.brokenConn))
    (hplace : id ∈ c.mConnections → c'.handled + p'.offered id = c.handled + p.offered id)
    (hstopped : stopped = true → stopped' = true) : ConnectionKept c' p' stopped' id where
  fresh hjoined := by
    rw [hsame] at hjoined ⊢
    obtain ⟨hwrites, hflag, hnot⟩ := h.fresh hjoined
    exact ⟨hwrites, hflag, fun hin => hnot (hmem hin)⟩
  member hjoined hok := by
    rw [hsame] at hjoined hok
    exact hstays (h.member hjoined hok) hok
  removed hin := by
    rw [hsame, hbroken hin]
    exact h.removed (hmem hin)
  flagged hb := by
    rw [hsame] at hb ⊢
    exact h.flagged hb
  unflagged hf := by
    rw [hsame] at hf ⊢
    exact (h.unflagged hf).imp_right hstopped
  returned hr := by
    rw [hsame] at hr ⊢
    exact h.returned hr
  block := by
    obtain ⟨added, henqueued⟩ := henqueued
    rw [hsame, ← henqueued, List.drop_append]
    exact h.block.trans (List.prefix_append _ _)
  place hjoined hok := by
    rw [hsame] at hjoined hok ⊢
    rw [hplace (h.member hjoined hok)]
    exact h.place hjoined hok
  before := by
    rw [hsame]
    exact h.before
  failsLast := by
    rw [hsame]
    exact h.failsLast
  inTime := by
    rw [hsame]
    exact h.inTime

theorem Channel.onConnection_same (c : Channel M) (id : Nat) (f : Connection M → Connection M) :
    (c.onConnection id f).connection id = f (c.connection id) := Function.update_self ..

theorem Channel.onConnection_other (c : Channel M) {id other : Nat} (h : other ≠ id)
    (f : Connection M → Connection M) :
    (c.onConnection id f).connection other = c.connection other := Function.update_of_ne h ..

namespace ChannelKept

variable {c : Channel M} {p : Phase} {stopped : Bool}

/-- The writer is told of its end. -/
theorem stop (h : ChannelKept c p stopped) (stopped' : Bool)
    (hstopped : stopped = true → stopped' = true) : ChannelKept c p stopped' where
  counted := h.counted
  handled_le := h.handled_le
  nodup := h.nodup
  phase := h.phase
  brokenMem := h.brokenMem
  connections id := (h.connections id).transfer rfl (fun hin => hin) (fun hin _ => hin)
    (List.prefix_refl _) (fun _ => Iff.rfl) (fun _ => rfl) hstopped

/-- Enqueuing a message keeps the invariant of the stream. -/
theorem push (h : ChannelKept c p stopped) (message : M) :
    ChannelKept (c.push message) p stopped where
  counted := by
    have hunhandled : (c.push message).unhandled p = c.unhandled p := by cases p <;> rfl
    have hcounted := h.counted
    rw [hunhandled]
    simp only [Channel.push]
    rw [List.drop_append_of_le_length h.handled_le, hcounted, List.append_assoc]
  handled_le := by
    have hle := h.handled_le
    simp only [Channel.push, List.length_append, List.length_singleton]
    omega
  nodup := h.nodup
  phase := h.phase
  brokenMem := h.brokenMem
  connections id := (h.connections id).transfer rfl (fun hin => hin) (fun hin _ => hin)
    (List.prefix_append _ _) (fun _ => Iff.rfl) (fun _ => rfl) (fun hs => hs)

/-- Swapping the queue out after the batch is used up. -/
theorem drain (h : ChannelKept c .resting stopped) (hbatch : c.batch = []) :
    ChannelKept c.drain .resting stopped where
  counted := by
    have hcounted := h.counted
    simp only [Channel.unhandled, hbatch, List.nil_append] at hcounted
    simp only [Channel.drain, Channel.unhandled, List.append_nil]
    exact hcounted
  handled_le := h.handled_le
  nodup := h.nodup
  phase := h.phase
  brokenMem := h.brokenMem
  connections id := (h.connections id).transfer rfl (fun hin => hin) (fun hin _ => hin)
    (List.prefix_refl _) (fun _ => Iff.rfl) (fun _ => rfl) (fun hs => hs)

/-- The loop over the connections begins. -/
theorem take (h : ChannelKept c .resting stopped) :
    ChannelKept c (.writing c.mConnections []) stopped where
  counted := h.counted
  handled_le := h.handled_le
  nodup := h.nodup
  phase todo brokenConn hphase := by
    cases hphase
    exact ⟨[], rfl, fun id hin => absurd hin List.not_mem_nil⟩
  brokenMem id hin := absurd hin List.not_mem_nil
  connections id := (h.connections id).transfer rfl (fun hin => hin) (fun hin _ => hin)
    (List.prefix_refl _) (fun _ => Iff.rfl)
    (fun hin => by simp only [Phase.offered, hin, if_true]) (fun hs => hs)

/-- The loop over the connections is over: the message is handled. -/
theorem handle {brokenConn : List Nat} (h : ChannelKept c (.writing [] brokenConn) stopped)
    (hbatch : c.batch ≠ []) : ChannelKept c.handle (.erasing brokenConn) stopped where
  counted := by
    obtain ⟨message, rest, hcons⟩ := List.exists_cons_of_ne_nil hbatch
    have hcounted := h.counted
    simp only [Channel.unhandled, hcons, List.cons_append] at hcounted
    simp only [Channel.handle, Channel.unhandled, hcons, List.tail_cons]
    rw [← List.drop_drop, hcounted]
    rfl
  handled_le := by
    have hlength := congrArg List.length h.counted
    have hpos : 0 < c.batch.length := List.length_pos_of_ne_nil hbatch
    simp only [List.length_drop, Channel.unhandled, List.length_append] at hlength
    simp only [Channel.handle]
    omega
  nodup := h.nodup
  phase todo brokenConn' hphase := by cases hphase
  brokenMem := h.brokenMem
  connections id := (h.connections id).transfer rfl (fun hin => hin) (fun hin _ => hin)
    (List.prefix_refl _) (fun _ => Iff.rfl)
    (fun _ => by simp only [Phase.offered, Channel.handle, List.not_mem_nil, if_false])
    (fun hs => hs)

/-- The broken connections are removed, and no other; the message is popped. -/
theorem erase {brokenConn : List Nat} (h : ChannelKept c (.erasing brokenConn) stopped) :
    ChannelKept ((c.erase brokenConn).pop) .resting stopped where
  counted := h.counted
  handled_le := h.handled_le
  nodup := h.nodup.filter _
  phase todo brokenConn' hphase := by cases hphase
  brokenMem id hin := absurd hin List.not_mem_nil
  connections id := by
    have hkept := h.connections id
    have hsame : ((c.erase brokenConn).pop).connection id = c.connection id := rfl
    apply hkept.transfer hsame
    · intro hin
      exact (List.mem_filter.mp hin).1
    · intro hin hok
      refine List.mem_filter.mpr ⟨hin, decide_eq_true fun hbroken => ?_⟩
      rw [(hkept.removed hin).mpr hbroken] at hok
      cases hok
    · exact List.prefix_refl _
    · intro hin
      have hnot := of_decide_eq_true (List.mem_filter.mp hin).2
      exact iff_of_false List.not_mem_nil hnot
    · exact fun _ => rfl
    · exact fun hs => hs

/-- A change of one connection keeps the stream if it keeps the connection. -/
theorem onConnection (h : ChannelKept c p stopped) (id : Nat) (f : Connection M → Connection M)
    (hid : ConnectionKept (c.onConnection id f) p stopped id) :
    ChannelKept (c.onConnection id f) p stopped where
  counted := by
    have hunhandled : (c.onConnection id f).unhandled p = c.unhandled p := by cases p <;> rfl
    rw [hunhandled]
    exact h.counted
  handled_le := h.handled_le
  nodup := h.nodup
  phase := h.phase
  brokenMem := h.brokenMem
  connections other := by
    by_cases hother : other = id
    · rw [hother]
      exact hid
    · exact (h.connections other).transfer (c.onConnection_other hother f) (fun hin => hin)
        (fun hin _ => hin) (List.prefix_refl _) (fun _ => Iff.rfl) (fun _ => rfl) (fun hs => hs)

/-- Accepting a connection keeps the invariant of the stream. -/
theorem accept (h : ChannelKept c p stopped) {id : Nat}
    (habsent : (c.connection id).handler = .absent) :
    ChannelKept (c.onConnection id fun connection => { connection with handler := .accepted }) p
      stopped := by
  have hkept := h.connections id
  have hfresh := hkept.fresh (by rw [habsent]; rfl)
  apply h.onConnection
  constructor <;> rw [c.onConnection_same]
  · exact fun _ => hfresh
  · exact fun hjoined => absurd hjoined Bool.false_ne_true
  · exact hkept.removed
  · exact hkept.flagged
  · exact hkept.unflagged
  · exact fun hreturned => by cases hreturned
  · exact hkept.block
  · exact fun hjoined => absurd hjoined Bool.false_ne_true
  · exact hkept.before
  · exact hkept.failsLast
  · exact hkept.inTime

/-- The return of a handler keeps the invariant of the stream. -/
theorem handlerReturns (h : ChannelKept c p stopped) {id : Nat}
    (hregistered : (c.connection id).handler = .registered)
    (hflag : (c.connection id).mShutdownFlag = true) :
    ChannelKept (c.onConnection id fun connection => { connection with handler := .returned }) p
      stopped := by
  have hkept := h.connections id
  have hjoined : (c.connection id).handler.joined = true := by
    rw [hregistered]
    rfl
  apply h.onConnection
  constructor <;> rw [c.onConnection_same]
  · exact fun hnot => absurd hnot.symm Bool.false_ne_true
  · exact fun _ => hkept.member hjoined
  · exact hkept.removed
  · exact hkept.flagged
  · exact hkept.unflagged
  · exact fun _ => hflag
  · exact hkept.block
  · exact fun _ => hkept.place hjoined
  · exact hkept.before
  · exact hkept.failsLast
  · exact hkept.inTime

/-- The shutdown of the server shuts a connection down, after the writer has stopped. -/
theorem close (h : ChannelKept c p true) {id : Nat}
    (hjoined : (c.connection id).handler.joined = true) :
    ChannelKept (c.onConnection id fun connection => { connection with mShutdownFlag := true }) p
      true := by
  have hkept := h.connections id
  apply h.onConnection
  constructor <;> rw [c.onConnection_same]
  · exact fun hnot => absurd (hjoined.symm.trans hnot) (by decide)
  · exact hkept.member
  · exact hkept.removed
  · exact fun _ => rfl
  · exact fun _ => Or.inr rfl
  · exact fun _ => rfl
  · exact hkept.block
  · exact hkept.place
  · exact hkept.before
  · exact hkept.failsLast
  · exact hkept.inTime

/-- A connection is registered while no loop over the connections is under way. -/
theorem register (h : ChannelKept c p stopped) {id : Nat}
    (haccepted : (c.connection id).handler = .accepted)
    (hphase : ∀ todo brokenConn, p ≠ .writing todo brokenConn) :
    ChannelKept (c.register id) p stopped := by
  have hkept := h.connections id
  obtain ⟨hwrites, hflag, hnot⟩ := hkept.fresh (by rw [haccepted]; rfl)
  have hoffered (other : Nat) : p.offered other = 0 := by
    cases p with
    | resting => rfl
    | writing todo brokenConn => exact absurd rfl (hphase todo brokenConn)
    | erasing brokenConn => rfl
  have hnotBroken : id ∉ p.brokenConn := fun hin => hnot (h.brokenMem id hin)
  have hunhandled : (c.register id).unhandled p = c.unhandled p := by cases p <;> rfl
  have hsame : (c.register id).connection id =
      { c.connection id with
        handler := .registered
        handledBefore := c.handled
        enqueuedBefore := c.enqueued.length } := Function.update_self ..
  refine ⟨?_, h.handled_le, ?_, fun todo brokenConn hp => absurd hp (hphase todo brokenConn),
    fun other hin => List.mem_append_left _ (h.brokenMem other hin), fun other => ?_⟩
  · rw [hunhandled]
    exact h.counted
  · exact List.nodup_append'.mpr ⟨h.nodup, List.nodup_singleton id,
      List.disjoint_singleton.mpr hnot⟩
  · by_cases hother : other = id
    · subst hother
      have hok : ({ c.connection other with
          handler := .registered
          handledBefore := c.handled
          enqueuedBefore := c.enqueued.length } : Connection M).broken = false := by
        simp only [Connection.broken, hwrites, List.any_nil]
      constructor <;> rw [hsame]
      · exact fun hnotJoined => absurd hnotJoined.symm Bool.false_ne_true
      · exact fun _ _ => List.mem_append_right _ (List.mem_singleton_self _)
      · exact fun _ => iff_of_false (by rw [hok]; exact Bool.false_ne_true) hnotBroken
      · exact fun hbroken => absurd (hok.symm.trans hbroken) Bool.false_ne_true
      · exact fun hset => absurd (hflag.symm.trans hset) Bool.false_ne_true
      · exact fun hreturned => by cases hreturned
      · simp only [hwrites, List.map_nil, List.nil_prefix]
      · intro _ _
        simp only [hwrites, List.length_nil, hoffered]
        rfl
      · exact h.handled_le
      · simp only [hwrites, List.dropLast_nil, List.not_mem_nil, false_implies, implies_true]
      · exact hkept.inTime
    · have hsameOther : (c.register id).connection other = c.connection other :=
        Function.update_of_ne hother ..
      exact (h.connections other).transfer hsameOther
        (fun hin => (List.mem_append.mp hin).resolve_right fun hnew =>
          hother (List.mem_singleton.mp hnew))
        (fun hin _ => List.mem_append_left _ hin) (List.prefix_refl _) (fun _ => Iff.rfl)
        (fun _ => rfl) (fun hs => hs)

/-- The connection whose turn it is has its flag clear. -/
theorem flag_of_todo {id : Nat} {todo brokenConn : List Nat}
    (h : ChannelKept c (.writing (id :: todo) brokenConn) false) :
    id ∈ c.mConnections ∧ id ∉ todo ∧ id ∉ brokenConn ∧ (c.connection id).broken = false ∧
      (c.connection id).mShutdownFlag = false := by
  obtain ⟨past, hsplit, hpast⟩ := h.phase _ _ rfl
  have hnodup := h.nodup
  rw [hsplit, List.nodup_append'] at hnodup
  obtain ⟨-, hrest, hdisjoint⟩ := hnodup
  have hin : id ∈ c.mConnections := by
    rw [hsplit]
    exact List.mem_append_right _ List.mem_cons_self
  have hnotBroken : id ∉ brokenConn := fun hbroken =>
    hdisjoint (hpast id hbroken) List.mem_cons_self
  have hkept := h.connections id
  have hok : (c.connection id).broken = false := by
    rw [Bool.eq_false_iff, Ne, hkept.removed hin]
    exact hnotBroken
  refine ⟨hin, (List.nodup_cons.mp hrest).1, hnotBroken, hok, ?_⟩
  rw [Bool.eq_false_iff]
  intro hflag
  rcases hkept.unflagged hflag with hbroken | hstopped
  · exact absurd (hok.symm.trans hbroken) Bool.false_ne_true
  · exact absurd hstopped Bool.false_ne_true

/-- The connection whose turn it is gets the message at the front of the batch. -/
theorem connectionKept_write {id : Nat} {todo brokenConn : List Nat} {message : M}
    {rest : List M} (h : ChannelKept c (.writing (id :: todo) brokenConn) false)
    (hbatch : c.batch = message :: rest) (ok : Bool) :
    ConnectionKept (c.onConnection id (·.write message ok))
      (.writing todo (if (c.connection id).writeOK ok then brokenConn else id :: brokenConn))
      false id := by
  obtain ⟨hin, hnotTodo, hnotBroken, hok, hflag⟩ := h.flag_of_todo
  have hkept := h.connections id
  have hjoined : (c.connection id).handler.joined = true := by
    by_contra hnot
    exact (hkept.fresh (Bool.eq_false_iff.mpr hnot)).2.2 hin
  have hnotReturned : (c.connection id).handler ≠ .returned := fun hreturned =>
    absurd (hflag.symm.trans (hkept.returned hreturned)) Bool.false_ne_true
  have hplace : (c.connection id).handledBefore + (c.connection id).writes.length = c.handled := by
    rw [hkept.place hjoined hok]
    simp only [Phase.offered, List.mem_cons_self, if_true, Nat.add_zero]
  have hwritten : (c.connection id).write message ok =
      { c.connection id with
        writes := (c.connection id).writes ++ [(message, ok)]
        mShutdownFlag := !ok } := by
    simp only [Connection.write, hflag, hnotReturned, hkept.inTime, decide_false, Bool.or_false,
      Bool.false_eq_true, if_false]
  have hbroken : ((c.connection id).write message ok).broken = !ok := by
    have hall := hok
    simp only [Connection.broken] at hall
    simp only [hwritten, Connection.broken, List.any_append, hall, List.any_cons, List.any_nil,
      Bool.or_false, Bool.false_or]
  have hsucceeded : ∀ write ∈ (c.connection id).writes, write.2 = true := by
    intro write hmem
    have hnotFailed := List.any_eq_false.mp hok write hmem
    rwa [Bool.not_eq_true', Bool.not_eq_false] at hnotFailed
  constructor <;> rw [c.onConnection_same]
  · intro hnot
    rw [hwritten] at hnot
    exact absurd (hjoined.symm.trans hnot) (by decide)
  · exact fun _ _ => hin
  · intro _
    rw [hbroken]
    cases ok with
    | true => simp [Connection.writeOK, hflag, Phase.brokenConn, hnotBroken]
    | false => simp [Connection.writeOK, Phase.brokenConn]
  · intro hfailed
    rw [hbroken] at hfailed
    rw [hwritten]
    exact hfailed
  · intro hset
    left
    rw [hwritten] at hset
    rw [hbroken]
    exact hset
  · intro hreturned
    rw [hwritten] at hreturned
    exact absurd hreturned hnotReturned
  · rw [hwritten]
    obtain ⟨after, hafter⟩ := hkept.block
    have hdrop : after = message :: (rest ++ c.mQueue) := by
      have hcounted := h.counted
      simp only [Channel.unhandled, hbatch, List.cons_append] at hcounted
      rw [← hplace, ← List.drop_drop, ← hafter, List.drop_left' (List.length_map ..)] at hcounted
      exact hcounted
    refine ⟨rest ++ c.mQueue, ?_⟩
    simp only [Channel.onConnection, List.map_append, List.map_cons, List.map_nil,
      List.append_assoc, List.singleton_append]
    rw [← hdrop]
    exact hafter
  · intro _ hstillOk
    rw [hwritten]
    simp only [List.length_append, List.length_singleton, Phase.offered, hnotTodo, if_false,
      Channel.onConnection]
    omega
  · rw [hwritten]
    exact hkept.before
  · rw [hwritten]
    simp only [List.dropLast_concat]
    exact hsucceeded
  · rw [hwritten]
    exact hkept.inTime

/-- Writing to a connection keeps the invariant of the stream. -/
theorem write {id : Nat} {todo brokenConn : List Nat} {message : M} {rest : List M}
    (h : ChannelKept c (.writing (id :: todo) brokenConn) false)
    (hbatch : c.batch = message :: rest) (ok : Bool) :
    ChannelKept (c.onConnection id (·.write message ok))
      (.writing todo (if (c.connection id).writeOK ok then brokenConn else id :: brokenConn))
      false := by
  obtain ⟨hin, -, -, -, -⟩ := h.flag_of_todo
  have hbrokenMem : ∀ other ∈ (if (c.connection id).writeOK ok then brokenConn
      else id :: brokenConn), other ∈ brokenConn ∨ other = id := by
    intro other hother
    split at hother
    · exact Or.inl hother
    · exact (List.mem_cons.mp hother).symm
  refine ⟨h.counted, h.handled_le, h.nodup, ?_, ?_, ?_⟩
  · intro todo' brokenConn' hphase
    cases hphase
    obtain ⟨past, hsplit, hpast⟩ := h.phase _ _ rfl
    refine ⟨past ++ [id], ?_, fun other hother => ?_⟩
    · rw [List.append_assoc]
      exact hsplit
    · rcases hbrokenMem other hother with hold | rfl
      · exact List.mem_append_left _ (hpast other hold)
      · exact List.mem_append_right _ (List.mem_singleton_self _)
  · intro other hother
    rcases hbrokenMem other hother with hold | rfl
    · exact h.brokenMem other hold
    · exact hin
  · intro other
    by_cases hother : other = id
    · subst hother
      exact h.connectionKept_write hbatch ok
    · apply (h.connections other).transfer (c.onConnection_other hother _) (fun hmem => hmem)
        (fun hmem _ => hmem) (List.prefix_refl _)
      · intro _
        simp only [Phase.brokenConn]
        split
        · exact Iff.rfl
        · exact ⟨fun hmem => (List.mem_cons.mp hmem).resolve_left hother,
            List.mem_cons_of_mem _⟩
      · intro _
        simp only [Phase.offered, List.mem_cons, hother, false_or, Channel.onConnection]
      · exact fun hs => hs

end ChannelKept

end VhalCore.ProxyServer
