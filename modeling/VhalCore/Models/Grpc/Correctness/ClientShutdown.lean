import VhalCore.Core.Fairness
import VhalCore.Models.Grpc.Interpretation.PollingInvariant

/-!
# Shutdown of the client and its polling threads

The destructor cancels the contexts that are registered. A thread that has read the flag
before it was set and registers its context afterwards is missed: it leaves the loop
without reading and waits in `Finish` until the server ends the stream. No thread is
stranded in the runs in which no thread stands between the two when the destructor runs its
section, and then the destructor returns whatever the server does; otherwise a thread is
stranded, and the destructor waits for the server.
-/

namespace VhalCore.GRPCVehicleHardware

/-- After the section of the destructor a thread is at a call on a stream that is neither
ended nor cancelled. -/
def Stranded (s : Client) : Prop :=
  s.destructor ≠ .notCalled ∧ ∃ thread,
    ((s.polling thread).stage = .reading ∨ (s.polling thread).stage = .finishing) ∧
      (s.polling thread).released = false

/-- When the destructor runs its section no thread is on its way to the registration. -/
def NoneConnecting (s : Client) : ClientEvent → Prop
  | .cancelStreams => ∀ thread, (s.polling thread).stage ≠ .connecting
  | _ => True

/-- The steps that meet the rule. -/
def RuledStep (s : Client) (event : ClientEvent) (s' : Client) : Prop :=
  ClientStep s event s' ∧ NoneConnecting s event

/-- What the steps that meet the rule keep. -/
structure ClientKept (s : Client) : Prop where
  before : KeptBefore s
  after : KeptAfter s

theorem clientKept_initial : ClientKept {} where
  before _ := ⟨rfl, fun _ => ⟨rfl, iff_of_false List.not_mem_nil Bool.false_ne_true,
    fun _ => rfl, by rintro (heq | heq) <;> cases heq⟩⟩
  after hcalled := absurd rfl hcalled

/-- Every ruled step keeps the invariant of the client. -/
theorem RuledStep.clientKept {s s' : Client} {event : ClientEvent}
    (hstep : RuledStep s event s') (h : ClientKept s) : ClientKept s' := by
  refine ⟨hstep.1.keptBefore h.before, hstep.1.keptAfter (fun heq => ?_) h.before h.after⟩
  have hrule := hstep.2
  rw [heq] at hrule
  exact hrule

/-- No thread is stranded. -/
theorem ClientKept.not_stranded {s : Client} (h : ClientKept s) : ¬Stranded s := by
  rintro ⟨hcalled, thread, hstage, hheld⟩
  have hreleased : (s.polling thread).released = true := by
    apply ((h.after hcalled).2 thread).released
    rcases hstage with heq | heq <;> rw [heq] <;> rfl
  exact absurd (hheld.symm.trans hreleased) Bool.false_ne_true

/-- The stages in the order in which a thread leaves them once the flag is set. -/
def PollingStage.rank : PollingStage → Nat
  | .connecting => 9
  | .starting => 8
  | .reading => 7
  | .readHead => 6
  | .leaving => 5
  | .finishing => 4
  | .checkAgain => 3
  | .sleeping => 2
  | .loopHead => 1
  | .exited => 0

/-- A thread that moves down. -/
theorem Client.move_rank {s : Client} {mover : PollingThread} {stage : PollingStage}
    (h : stage.rank < (s.polling mover).stage.rank) (thread : PollingThread) :
    ((s.move mover stage).polling thread).stage.rank ≤ (s.polling thread).stage.rank ∧
      (ClientEvent.poll mover = .poll thread →
        ((s.move mover stage).polling thread).stage.rank < (s.polling thread).stage.rank) := by
  by_cases heq : thread = mover
  · subst heq
    rw [Client.move, s.set_same]
    exact ⟨h.le, fun _ => h⟩
  · rw [Client.move, s.set_other heq]
    exact ⟨le_rfl, fun hevent => absurd (ClientEvent.poll.inj hevent).symm heq⟩

/-- Once the flag is set no step brings a thread back, and its own steps bring it on. -/
theorem ClientStep.rank {s s' : Client} {event : ClientEvent} (hstep : ClientStep s event s')
    (hflag : s.mShuttingDownFlag = true) (thread : PollingThread) :
    (s'.polling thread).stage.rank ≤ (s.polling thread).stage.rank ∧
      (event = .poll thread →
        (s'.polling thread).stage.rank < (s.polling thread).stage.rank) := by
  cases hstep with
  | newTurn _ hclear | read _ hclear | goOn _ hclear =>
      exact absurd (hclear.symm.trans hflag) Bool.false_ne_true
  | endLoop hstage _ | insert hstage | start hstage | endRead hstage _ | readFails hstage _
  | erase hstage | finish hstage _ | unimplemented hstage _ | stop hstage _ | wake hstage =>
      apply Client.move_rank
      rw [hstage]
      decide
  | message hstage =>
      refine ⟨(Client.move_rank ?_ thread).1, fun hevent => by cases hevent⟩
      rw [hstage]
      decide
  | @serverEnds ended _ =>
      refine ⟨?_, fun hevent => by cases hevent⟩
      by_cases heq : thread = ended
      · subst heq
        rw [s.set_same]
      · rw [s.set_other heq]
  | idle | cancelStreams _ | joinValue _ _ | joinSupportedValues _ _ =>
      exact ⟨le_rfl, fun hevent => by cases hevent⟩

/-- After the section a thread that has not ended can go on. -/
theorem ClientKept.poll_enabled {s : Client} (h : ClientKept s)
    (hcalled : s.destructor ≠ .notCalled) {thread : PollingThread}
    (hrunning : (s.polling thread).stage ≠ .exited) :
    ∃ t, RuledStep s (.poll thread) t := by
  obtain ⟨hflag, hkept⟩ := h.after hcalled
  have hthread := hkept thread
  have hreleased (hopen : (s.polling thread).stage.opened = true) := hthread.released hopen
  cases hstage : (s.polling thread).stage with
  | loopHead => exact ⟨_, .endLoop hstage hflag, trivial⟩
  | connecting => exact absurd hstage hthread.notConnecting
  | starting => exact ⟨_, .start hstage, trivial⟩
  | readHead => exact ⟨_, .endRead hstage hflag, trivial⟩
  | reading => exact ⟨_, .readFails hstage (hreleased (by rw [hstage]; rfl)), trivial⟩
  | leaving => exact ⟨_, .erase hstage, trivial⟩
  | finishing => exact ⟨_, .finish hstage (hreleased (by rw [hstage]; rfl)), trivial⟩
  | checkAgain => exact ⟨_, .stop hstage hflag, trivial⟩
  | sleeping => exact ⟨_, .wake hstage, trivial⟩
  | exited => exact absurd hstage hrunning

/-- The destructor does not go back. -/
theorem ClientStep.called {s s' : Client} {event : ClientEvent} (hstep : ClientStep s event s')
    (h : s.destructor ≠ .notCalled) : s'.destructor ≠ .notCalled := by
  cases hstep with
  | cancelStreams _ | joinValue _ _ | joinSupportedValues _ _ =>
      exact DestructorStage.noConfusion
  | _ => exact h

section Joins

variable {x : Execution RuledStep {}} {i : Nat}

/-- Every state of an execution that meets the rule. -/
theorem clientKept_of_execution (x : Execution RuledStep {}) (j : Nat) : ClientKept (x.state j) :=
  x.always clientKept_initial (fun k => (x.step k).clientKept) j

/-- The destructor stays called. -/
theorem called_from (hcalled : (x.state i).destructor ≠ .notCalled) {j : Nat} (hij : i ≤ j) :
    (x.state j).destructor ≠ .notCalled :=
  Execution.always_from (P := fun s : Client => s.destructor ≠ .notCalled) hij hcalled
    fun k => (x.step k).1.called

/-- After the section every thread ends. -/
theorem thread_exits {thread : PollingThread} (hfair : x.FairTo (.poll thread))
    (hcalled : (x.state i).destructor ≠ .notCalled) :
    ∃ j, i ≤ j ∧ ((x.state j).polling thread).stage = .exited := by
  have hrank (j : Nat) (h : (x.state j).destructor ≠ .notCalled) :=
    (x.step j).1.rank ((clientKept_of_execution x j).after h).1 thread
  apply hfair.leadsTo_of_measure (P := fun s => s.destructor ≠ .notCalled)
    (Q := fun s => (s.polling thread).stage = .exited)
    (fun s => (s.polling thread).stage.rank) hcalled
  · exact fun j h _ => (x.step j).1.called h
  · exact fun j h hrunning => (clientKept_of_execution x j).poll_enabled h hrunning
  · exact fun j h _ => (hrank j h).1
  · exact fun j h _ => (hrank j h).2

/-- A thread that has ended stays so. -/
theorem exited_from {thread : PollingThread} (hcalled : (x.state i).destructor ≠ .notCalled)
    (hexited : ((x.state i).polling thread).stage = .exited) {j : Nat} (hij : i ≤ j) :
    ((x.state j).polling thread).stage = .exited := by
  have hboth : (x.state j).destructor ≠ .notCalled ∧
      ((x.state j).polling thread).stage = .exited := by
    apply Execution.always_from (P := fun s : Client => s.destructor ≠ .notCalled ∧
      (s.polling thread).stage = .exited) hij ⟨hcalled, hexited⟩
    rintro k ⟨h, hstage⟩
    have hrank := ((x.step k).1.rank ((clientKept_of_execution x k).after h).1 thread).1
    refine ⟨(x.step k).1.called h, ?_⟩
    rw [hstage] at hrank
    cases hnext : ((x.state (k + 1)).polling thread).stage with
    | exited => rfl
    | _ =>
        rw [hnext] at hrank
        exact absurd hrank (by decide)
  exact hboth.2

/-- The joins that are left. -/
def DestructorStage.joins : DestructorStage → Nat
  | .notCalled => 3
  | .joinsValue => 2
  | .joinsSupportedValues => 1
  | .returned => 0

/-- No step takes the destructor back, and a join brings it on. -/
theorem ClientStep.joins {s s' : Client} {event : ClientEvent} (hstep : ClientStep s event s') :
    s'.destructor.joins ≤ s.destructor.joins ∧
      (event = .join → s'.destructor.joins < s.destructor.joins) := by
  cases hstep with
  | cancelStreams h =>
      rw [h]
      exact ⟨Nat.le_succ 2, fun hevent => by cases hevent⟩
  | joinValue h _ | joinSupportedValues h _ =>
      rw [h]
      exact ⟨Nat.le_succ _, fun _ => Nat.lt_succ_self _⟩
  | _ => exact ⟨le_rfl, fun hevent => by cases hevent⟩

/-- When the threads have ended the destructor can go on. -/
theorem Client.join_enabled (s : Client) (hcalled : s.destructor ≠ .notCalled)
    (hexited : ∀ thread, (s.polling thread).stage = .exited) (hwaits : s.destructor ≠ .returned) :
    ∃ t, RuledStep s .join t := by
  cases hdestructor : s.destructor with
  | notCalled => exact absurd hdestructor hcalled
  | joinsValue => exact ⟨_, .joinValue hdestructor (hexited .value), trivial⟩
  | joinsSupportedValues =>
      exact ⟨_, .joinSupportedValues hdestructor (hexited .supportedValues), trivial⟩
  | returned => exact absurd hdestructor hwaits

/-- After the section the destructor returns. -/
theorem destructor_returns (hpoll : ∀ thread, x.FairTo (.poll thread)) (hjoin : x.FairTo .join)
    (hcalled : (x.state i).destructor ≠ .notCalled) :
    ∃ j, i ≤ j ∧ (x.state j).destructor = .returned := by
  obtain ⟨j, hij, hvalue⟩ := thread_exits (hpoll .value) hcalled
  have hcalledJ := called_from hcalled hij
  obtain ⟨k, hjk, hsupported⟩ := thread_exits (hpoll .supportedValues) hcalledJ
  have hcalledK := called_from hcalledJ hjk
  have hvalueK := exited_from hcalledJ hvalue hjk
  have hexited : ∀ thread, ((x.state k).polling thread).stage = .exited := by
    intro thread
    cases thread with
    | value => exact hvalueK
    | supportedValues => exact hsupported
  obtain ⟨l, hkl, hreturned⟩ := hjoin.leadsTo_of_measure (P := fun s => s.destructor ≠ .notCalled ∧
    ∀ thread, (s.polling thread).stage = .exited) (Q := fun s => s.destructor = .returned)
    (fun s => s.destructor.joins) ⟨hcalledK, hexited⟩
    (fun n h _ => ⟨(x.step n).1.called h.1, fun thread =>
      exited_from h.1 (h.2 thread) (Nat.le_succ n)⟩)
    (fun n h hwaits => (x.state n).join_enabled h.1 h.2 hwaits)
    (fun n _ _ => (x.step n).1.joins.1) (fun n _ _ => (x.step n).1.joins.2)
  exact ⟨l, (hij.trans hjk).trans hkl, hreturned⟩

end Joins

/-- The destructor has not joined the thread. -/
def DestructorStage.waits : DestructorStage → PollingThread → Bool
  | .joinsValue, _ | .joinsSupportedValues, .supportedValues => true
  | _, _ => false

/-- The destructor waits for a thread that waits for the server. -/
structure Stuck (s : Client) (thread : PollingThread) : Prop where
  finishing : (s.polling thread).stage = .finishing
  held : (s.polling thread).released = false
  waits : s.destructor.waits thread = true

/-- A client with a stuck thread is stranded. -/
theorem Stuck.stranded {s : Client} {thread : PollingThread} (h : Stuck s thread) :
    Stranded s := by
  refine ⟨fun hnotCalled => ?_, thread, Or.inr h.finishing, h.held⟩
  have hwaits := h.waits
  rw [hnotCalled] at hwaits
  cases hwaits

/-- Another thread changes. -/
theorem Stuck.set {s : Client} {thread mover : PollingThread} (h : Stuck s thread)
    (hne : thread ≠ mover) (p : Polling) (contexts : List PollingThread) :
    Stuck { s.set mover p with mStreamContexts := contexts } thread := by
  have hsame := s.set_other hne p
  exact ⟨(congrArg Polling.stage hsame).trans h.finishing,
    (congrArg Polling.released hsame).trans h.held, h.waits⟩

/-- Only the server ends the wait. -/
theorem ClientStep.stuck {s s' : Client} {event : ClientEvent} {thread : PollingThread}
    (hstep : ClientStep s event s') (hevent : event ≠ .serverEnds thread) (h : Stuck s thread) :
    Stuck s' thread := by
  have hother {mover : PollingThread} {stage : PollingStage}
      (hstage : (s.polling mover).stage = stage) (hne : stage ≠ .finishing) : thread ≠ mover := by
    rintro rfl
    exact hne (hstage.symm.trans h.finishing)
  cases hstep with
  | idle => exact h
  | newTurn hstage _ | endLoop hstage _ | insert hstage | start hstage | read hstage _
  | endRead hstage _ | message hstage | readFails hstage _ | erase hstage | goOn hstage _
  | stop hstage _ | wake hstage => exact h.set (hother hstage PollingStage.noConfusion) _ _
  | finish _ hreleased =>
      apply h.set
      rintro rfl
      exact absurd (h.held.symm.trans hreleased) Bool.false_ne_true
  | unimplemented _ hended =>
      apply h.set
      rintro rfl
      have hheld := h.held
      rw [Polling.released, hended] at hheld
      cases hheld
  | serverEnds _ =>
      apply h.set
      rintro rfl
      exact hevent rfl
  | cancelStreams hcalled => exact absurd hcalled h.stranded.1
  | joinValue _ hexited =>
      refine ⟨h.finishing, h.held, ?_⟩
      cases thread with
      | value => cases h.finishing.symm.trans hexited
      | supportedValues => rfl
  | joinSupportedValues hjoins hexited =>
      have hwaits := h.waits
      rw [hjoins] at hwaits
      cases thread with
      | value => cases hwaits
      | supportedValues => cases h.finishing.symm.trans hexited

/-- A thread that the section has missed, on its way to `Finish`. -/
structure Missed (s : Client) (thread : PollingThread) (stage : PollingStage) : Prop where
  stage : (s.polling thread).stage = stage
  held : (s.polling thread).released = false
  flag : s.mShuttingDownFlag = true
  waits : s.destructor.waits thread = true

/-- A thread that has missed the cancellation goes on without it. -/
theorem Missed.move {s : Client} {thread : PollingThread} {stage : PollingStage}
    (h : Missed s thread stage) (next : PollingStage) (contexts : List PollingThread) :
    Missed { s.move thread next with mStreamContexts := contexts } thread next := by
  have hsame := s.set_same thread { s.polling thread with stage := next }
  exact ⟨congrArg Polling.stage hsame, (congrArg Polling.released hsame).trans h.held, h.flag,
    h.waits⟩

/-- A thread that registers after the section gets stuck. -/
theorem Missed.exists_stuck {s : Client} {thread : PollingThread}
    (h : Missed s thread .connecting) :
    ∃ events t, Path ClientStep s events t ∧ Stuck t thread := by
  have hinserted := h.move .starting (s.mStreamContexts.insert thread)
  have hstarted := hinserted.move .readHead (s.mStreamContexts.insert thread)
  have hended := hstarted.move .leaving (s.mStreamContexts.insert thread)
  have herased := hended.move .finishing ((s.mStreamContexts.insert thread).filter (· ≠ thread))
  refine ⟨_, _, ((((Path.single (.insert h.stage)).snoc (.start hinserted.stage)).snoc
    (.endRead hstarted.stage hstarted.flag)).snoc (.erase hended.stage)), herased.stage,
    herased.held, herased.waits⟩

/-- The section misses a thread that has read the flag and not registered its context. -/
theorem ClientStep.missed {s s' : Client} {thread : PollingThread}
    (hstep : ClientStep s .cancelStreams s') (hbefore : KeptBefore s)
    (hconnecting : (s.polling thread).stage = .connecting) : Missed s' thread .connecting := by
  cases hstep with
  | cancelStreams hcalled =>
      have hkept := (hbefore hcalled).2 thread
      have hnot : thread ∉ s.mStreamContexts := by
        rw [hkept.listed, hconnecting]
        exact Bool.false_ne_true
      refine ⟨hconnecting, ?_, rfl, rfl⟩
      simp only [Polling.released, hkept.fresh hconnecting, hkept.uncancelled, hnot, decide_false,
        Bool.or_false]

theorem keptBefore_of_path {s : Client} {events : List ClientEvent}
    (hpath : Path ClientStep {} events s) : KeptBefore s :=
  hpath.invariant clientKept_initial.before fun _ _ _ h hstep => hstep.keptBefore h

/-- In the runs that meet the rule no thread is stranded and the destructor returns. A step
that breaks the rule leads to a state in which a thread stays stranded, and the destructor
waits, until the server ends the stream. -/
theorem client_not_stranded_along_run (events : List ClientEvent) (s : Client)
    (x : Execution RuledStep {}) :
    (Path RuledStep {} events s → ¬Stranded s) ∧
    ((∀ thread, x.FairTo (.poll thread)) → x.FairTo .join →
      ∀ i, (x.state i).destructor ≠ .notCalled →
        ∃ j, i ≤ j ∧ (x.state j).destructor = .returned) ∧
    ∀ event s', Path ClientStep {} events s → ClientStep s event s' →
      ¬NoneConnecting s event → ∃ thread later t, Path ClientStep s' later t ∧
        ∀ ever u, Path ClientStep t ever u → ClientEvent.serverEnds thread ∉ ever →
          Stranded u ∧ u.destructor ≠ .returned := by
  refine ⟨fun hpath => ?_, fun hpoll hjoin i => destructor_returns hpoll hjoin,
    fun event s' hpath hstep hrule => ?_⟩
  · have hkept : ClientKept s := hpath.invariant clientKept_initial
      fun _ _ _ h hstep => hstep.clientKept h
    exact hkept.not_stranded
  · cases event with
    | cancelStreams =>
        simp only [NoneConnecting, not_forall, not_not] at hrule
        obtain ⟨thread, hconnecting⟩ := hrule
        have hmissed := hstep.missed (keptBefore_of_path hpath) hconnecting
        obtain ⟨later, t, hlater, hstuck⟩ := hmissed.exists_stuck
        refine ⟨thread, later, t, hlater, fun ever u hever hserver => ?_⟩
        have hstuckU : Stuck u thread := by
          apply hever.invariant_of_mem (P := fun v => Stuck v thread) hstuck
          intro v event w hmem h hstep
          apply hstep.stuck _ h
          rintro rfl
          exact hserver hmem
        refine ⟨hstuckU.stranded, fun hreturned => ?_⟩
        have hwaits := hstuckU.waits
        rw [hreturned] at hwaits
        cases hwaits
    | _ => exact absurd trivial hrule

/-- A thread has read the flag and not registered its context. -/
private theorem connecting_path : ∃ s, Path RuledStep {} [.poll .value] s ∧
    s.destructor = .notCalled ∧ (s.polling .value).stage = .connecting := by
  have hpath := Path.single (R := RuledStep) (s := {}) (a := .poll .value)
    ⟨.newTurn rfl rfl, trivial⟩
  exact ⟨_, hpath, rfl, rfl⟩

/-- A thread that registers its context after the section is stranded in `Finish`. -/
theorem connecting_stranded : ¬∀ events s, Path ClientStep {} events s → ¬Stranded s := by
  intro hnever
  obtain ⟨s, hpath, hcalled, hconnecting⟩ := connecting_path
  have hrun : Path ClientStep {} _ s := hpath.mono fun _ _ _ h => h.1
  have hstep := ClientStep.cancelStreams hcalled
  obtain ⟨later, t, hlater, hstuck⟩ :=
    (hstep.missed (keptBefore_of_path hrun) hconnecting).exists_stuck
  exact hnever _ t ((hrun.snoc hstep).trans hlater) hstuck.stranded

/-- The destructor cancels the stream that a thread is reading, and returns. -/
private theorem reading_path : ∃ s t, Path RuledStep {} [.poll .value, .poll .value, .poll .value,
    .poll .value, .cancelStreams] s ∧ s.destructor ≠ .notCalled ∧
      (s.polling .value).stage = .reading ∧ Path RuledStep {} [.poll .value, .poll .value,
        .poll .value, .poll .value, .cancelStreams, .poll .value, .poll .value, .poll .value,
        .poll .value, .poll .supportedValues, .join, .join] t ∧
        t.destructor = .returned ∧ ∀ thread, (t.polling thread).stage = .exited := by
  have hpath := Path.single (R := RuledStep) (s := {}) (a := .poll .value)
    ⟨.newTurn rfl rfl, trivial⟩
  have hpath := hpath.snoc ⟨@ClientStep.insert _ .value rfl, trivial⟩
  have hpath := hpath.snoc ⟨@ClientStep.start _ .value rfl, trivial⟩
  have hpath := hpath.snoc ⟨@ClientStep.read _ .value rfl rfl, trivial⟩
  have hpath := hpath.snoc ⟨.cancelStreams rfl, fun thread => by
    cases thread <;> exact PollingStage.noConfusion⟩
  have hrest := hpath.snoc ⟨@ClientStep.readFails _ .value rfl rfl, trivial⟩
  have hrest := hrest.snoc ⟨@ClientStep.erase _ .value rfl, trivial⟩
  have hrest := hrest.snoc ⟨@ClientStep.finish _ .value rfl rfl, trivial⟩
  have hrest := hrest.snoc ⟨@ClientStep.stop _ .value rfl rfl, trivial⟩
  have hrest := hrest.snoc ⟨@ClientStep.endLoop _ .supportedValues rfl rfl, trivial⟩
  have hrest := hrest.snoc ⟨.joinValue rfl rfl, trivial⟩
  have hrest := hrest.snoc ⟨.joinSupportedValues rfl rfl, trivial⟩
  refine ⟨_, _, hpath, DestructorStage.noConfusion, rfl, hrest, rfl, fun thread => ?_⟩
  cases thread <;> rfl

/-- Nothing is left to do after the destructor has returned. -/
private theorem fairTo_of_returned {x : Execution RuledStep {}} {t : Client} {n : Nat}
    (hfinal : ∀ i, n ≤ i → x.state i = t) (hreturned : t.destructor = .returned)
    (hexited : ∀ thread, (t.polling thread).stage = .exited) :
    (∀ thread, x.FairTo (.poll thread)) ∧ x.FairTo .join := by
  refine ⟨fun thread => ?_, ?_⟩
  · apply Execution.fairTo_of_final hfinal
    rintro u ⟨hstep, -⟩
    have hstage := hexited thread
    cases hstep with
    | newTurn h _ | endLoop h _ | insert h | start h | read h _ | endRead h _ | readFails h _
    | erase h | finish h _ | unimplemented h _ | goOn h _ | stop h _ | wake h =>
        cases hstage.symm.trans h
  · apply Execution.fairTo_of_final hfinal
    rintro u ⟨hstep, -⟩
    cases hstep with
    | joinValue h _ | joinSupportedValues h _ => cases hreturned.symm.trans h

/-- A client destroyed while its thread reads returns, and one destroyed while its thread connects
is stranded. -/
theorem reading_not_stranded_connecting_stranded :
    (∃ events s, Path RuledStep {} events s ∧ s.destructor ≠ .notCalled ∧
      (s.polling .value).stage = .reading ∧ ¬Stranded s) ∧
    (∃ x : Execution RuledStep {}, (∀ thread, x.FairTo (.poll thread)) ∧ x.FairTo .join ∧
      ∃ i, (x.state i).destructor ≠ .notCalled ∧ ∃ j, i ≤ j ∧
        (x.state j).destructor = .returned) ∧
    ∃ events s s', Path ClientStep {} events s ∧ ClientStep s .cancelStreams s' ∧
      ∃ thread later t, Path ClientStep s' later t ∧
        ∀ ever u, Path ClientStep t ever u → ClientEvent.serverEnds thread ∉ ever →
          Stranded u ∧ u.destructor ≠ .returned := by
  obtain ⟨s, t, hpath, hcalled, hreading, hrest, hreturned, hexited⟩ := reading_path
  obtain ⟨x, -, hfinal⟩ := hrest.exists_execution ⟨.idle, trivial⟩
  refine ⟨⟨_, s, hpath, hcalled, hreading, (client_not_stranded_along_run _ s x).1 hpath⟩, ?_, ?_⟩
  · have hstate (i : Nat) (hi : 12 ≤ i) : x.state i = t := (hfinal i hi).1
    obtain ⟨hpoll, hjoin⟩ := fairTo_of_returned hstate hreturned hexited
    have hlast : (x.state 12).destructor ≠ .notCalled := by
      rw [hstate 12 le_rfl, hreturned]
      exact DestructorStage.noConfusion
    exact ⟨x, hpoll, hjoin, 12, hlast,
      (client_not_stranded_along_run [] {} x).2.1 hpoll hjoin 12 hlast⟩
  · obtain ⟨s, hpath, hcalled, hconnecting⟩ := connecting_path
    have hrun : Path ClientStep {} _ s := hpath.mono fun _ _ _ h => h.1
    exact ⟨_, s, _, hrun, .cancelStreams hcalled, (client_not_stranded_along_run _ s x).2.2 _ _ hrun
      (.cancelStreams hcalled) fun hrule => hrule .value hconnecting⟩

end VhalCore.GRPCVehicleHardware
