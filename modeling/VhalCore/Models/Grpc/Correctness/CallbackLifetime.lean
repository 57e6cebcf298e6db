import VhalCore.Models.Grpc.Correctness.Completeness

/-!
# Late invocations of the callback

The callback works on the set of ids in the frame of the handler. It uses the set after the
handler has returned only if the handler returns before an invocation has left its locked
section, or an invocation begins after the handler has returned; and whenever one of these
happens the run can go on to such a use.
-/

namespace VhalCore.ProxyServer

open ProtoMsgConverter

variable {R P : Type} (ops : ResultOps R P)

/-- Every invocation of the callback is over. -/
def AllFinished (s : Handler R P) : Prop := ∀ invocation ∈ s.invocations, invocation = .finished

/-- No invocation begins after the handler has returned, and the handler does not return
before all invocations are over. -/
def OutlivesCallback (s : Handler R P) : HandlerEvent → Prop
  | .invoke => s.stage.isReturned = false
  | .hardwareReturns status => status ≠ statusOk → AllFinished s
  | .wake | .timeout => AllFinished s
  | _ => True

/-- The set was not used late, and after the return it is not used at all. -/
structure UsedInTime (s : Handler R P) : Prop where
  notLate : s.lateAccess = false
  allFinished : s.stage.isReturned = true → AllFinished s

/-- An invocation that has not finished is one of all. -/
theorem not_allFinished {s : Handler R P} {before after : List (Invocation R)}
    {invocation : Invocation R} (h : s.invocations = before ++ invocation :: after)
    (hne : invocation ≠ .finished) : ¬ AllFinished s := by
  intro hall
  apply hne
  apply hall
  rw [h]
  exact List.mem_append_right _ List.mem_cons_self

/-- Every step that outlives no callback keeps the callbacks in time. -/
theorem UsedInTime.step {s s' : Handler R P} {event : HandlerEvent} (h : UsedInTime s)
    (hstep : HandlerStep ops s event s') (hevent : OutlivesCallback s event) : UsedInTime s' := by
  have hrunning {before after : List (Invocation R)} {invocation : Invocation R}
      (hsplit : s.invocations = before ++ invocation :: after) (hne : invocation ≠ .finished) :
      s.stage.isReturned = false := by
    cases hstage : s.stage.isReturned with
    | false => rfl
    | true => exact absurd (h.allFinished hstage) (not_allFinished hsplit hne)
  cases hstep with
  | invoke _ => exact ⟨h.notLate, fun hstage => absurd (hevent.symm.trans hstage) (by decide)⟩
  | enter hsplit _ =>
      have hstage := hrunning hsplit (by simp)
      exact ⟨h.notLate, fun hreturned => absurd (hstage.symm.trans hreturned) (by decide)⟩
  | report hsplit | check hsplit =>
      have hstage := hrunning hsplit (by simp)
      refine ⟨?_, fun hreturned => absurd (hstage.symm.trans hreturned) (by decide)⟩
      simp only [h.notLate, hstage, Bool.or_self]
  | @hardwareReturns status _ =>
      refine ⟨h.notLate, fun hreturned => ?_⟩
      by_cases hok : status = statusOk
      · subst hok
        simp [Stage.isReturned] at hreturned
      · exact hevent hok
  | wake _ _ _ => exact ⟨h.notLate, fun _ => hevent⟩
  | timeout _ _ => exact ⟨h.notLate, fun _ => hevent⟩

/-- A locked section that runs after the return uses the set late. -/
theorem late_of_locked {s : Handler R P} {rest : List R} (h : .locked rest ∈ s.invocations)
    (hstage : s.stage.isReturned = true) :
    ∃ event s', HandlerStep ops s event s' ∧ s'.lateAccess = true := by
  obtain ⟨before, after, hsplit⟩ := List.append_of_mem h
  cases rest with
  | nil =>
      refine ⟨.check, _, .check hsplit, ?_⟩
      simp only [hstage, Bool.or_true]
  | cons result rest =>
      refine ⟨.report, _, .report hsplit, ?_⟩
      simp only [hstage, Bool.or_true]

/-- An invocation that is not over at the return goes on to use the set late. -/
theorem LockHeld.late {s : Handler R P} (h : LockHeld s) (hstage : s.stage.isReturned = true)
    (hopen : ¬ AllFinished s) :
    ∃ events s', Path (HandlerStep ops) s events s' ∧ s'.lateAccess = true := by
  have hlocked {t : Handler R P} {rest : List R} (hmem : .locked rest ∈ t.invocations)
      (ht : t.stage.isReturned = true) :
      ∃ events s', Path (HandlerStep ops) t events s' ∧ s'.lateAccess = true := by
    obtain ⟨event, s', hstep, hlate⟩ := late_of_locked ops hmem ht
    exact ⟨[event], s', .single hstep, hlate⟩
  cases hheld : s.waitMtx with
  | true =>
      obtain ⟨rest, hmem⟩ := h hheld
      exact hlocked hmem hstage
  | false =>
      unfold AllFinished at hopen
      push Not at hopen
      obtain ⟨invocation, hmem, hne⟩ := hopen
      cases invocation with
      | finished => exact absurd rfl hne
      | locked rest => exact hlocked hmem hstage
      | begun results =>
          obtain ⟨before, after, hsplit⟩ := List.append_of_mem hmem
          let t : Handler R P :=
            { s with waitMtx := true, invocations := before ++ .locked results :: after }
          have henter : HandlerStep ops s .enter t := .enter hsplit hheld
          have hmem : .locked results ∈ t.invocations :=
            List.mem_append_right before List.mem_cons_self
          obtain ⟨events, s', hpath, hlate⟩ := hlocked hmem hstage
          exact ⟨_, s', (Path.single henter).trans hpath, hlate⟩

/-- A step against the condition leaves an invocation open after the return. -/
theorem HandlerStep.open_of_not_outlivesCallback {s s' : Handler R P} {event : HandlerEvent}
    (hstep : HandlerStep ops s event s') (hevent : ¬ OutlivesCallback s event) :
    s'.stage.isReturned = true ∧ ¬ AllFinished s' := by
  cases hstep with
  | invoke _ =>
      refine ⟨Bool.eq_true_of_not_eq_false hevent, not_allFinished rfl ?_⟩
      simp
  | enter _ _ => exact absurd trivial hevent
  | report _ => exact absurd trivial hevent
  | check _ => exact absurd trivial hevent
  | @hardwareReturns status _ =>
      by_cases hok : status = statusOk
      · exact absurd (fun hne => absurd hok hne) hevent
      · refine ⟨?_, fun hall => hevent fun _ => hall⟩
        simp only [hok, ne_eq, not_false_eq_true, if_true]
        rfl
  | wake _ _ _ => exact ⟨rfl, hevent⟩
  | timeout _ _ => exact ⟨rfl, hevent⟩

/-- The handler never lets the callback use the set of ids after its return as long as every
step meets the condition, and after a step that does not meet it a late use is possible. -/
theorem usedInTime_along_run (requests : List ProtoRequest) (toCome : List (List R)) :
    (∀ events (s : Handler R P),
      Path (fun t a u => HandlerStep ops t a u ∧ OutlivesCallback t a) (start requests toCome)
        events s → s.lateAccess = false) ∧
    (∀ events (s s' : Handler R P) event, Path (HandlerStep ops) (start requests toCome) events s →
      HandlerStep ops s event s' → ¬ OutlivesCallback s event →
        ∃ events' s'', Path (HandlerStep ops) s' events' s'' ∧ s''.lateAccess = true) := by
  constructor
  · intro events s hpath
    have hinit : UsedInTime (start requests toCome : Handler R P) :=
      ⟨rfl, fun hstage => absurd hstage Bool.false_ne_true⟩
    have hin := hpath.invariant (P := UsedInTime) hinit fun t a u ht hstep =>
      ht.step ops hstep.1 hstep.2
    exact hin.notLate
  · intro events s s' event hpath hstep hevent
    have hheld : LockHeld s := hpath.invariant (P := LockHeld)
      (fun hheld => absurd hheld Bool.false_ne_true) fun t a u ht hstep => hstep.lockHeld ops ht
    obtain ⟨hstage, hopen⟩ := hstep.open_of_not_outlivesCallback ops hevent
    exact (hstep.lockHeld ops hheld).late ops hstage hopen

/-- A write that ran into the timeout, before the hardware has reported its result. -/
def timedOut : Handler SetValueResult ProtoSetValueResult :=
  { (start [⟨7, {}⟩] [[⟨7, 0⟩]] : Handler SetValueResult ProtoSetValueResult) with
    stage := .returned (.error .timeout) }

/-- A write whose only result comes after the timeout. -/
theorem path_timedOut :
    Path (fun t a u => HandlerStep setValueOps t a u ∧ OutlivesCallback t a)
      (start [⟨7, {}⟩] [[⟨7, 0⟩]]) [.hardwareReturns statusOk, .timeout] timedOut := by
  let s₁ : Handler SetValueResult ProtoSetValueResult :=
    { (start [⟨7, {}⟩] [[⟨7, 0⟩]] : Handler SetValueResult ProtoSetValueResult) with
      stage := .waiting }
  have h1 : HandlerStep setValueOps (start [⟨7, {}⟩] [[⟨7, 0⟩]]) (.hardwareReturns statusOk) s₁ :=
    .hardwareReturns rfl
  have h2 : HandlerStep setValueOps s₁ .timeout timedOut := .timeout rfl rfl
  exact (Path.single ⟨h1, fun hne => absurd rfl hne⟩).snoc
    ⟨h2, fun _ hmem => absurd hmem List.not_mem_nil⟩

/-- Two writes, of which the hardware reports one at a time. -/
def twoWrites : Handler SetValueResult ProtoSetValueResult :=
  start [⟨7, {}⟩, ⟨8, {}⟩] [[⟨7, 0⟩], [⟨8, 0⟩]]

/-- One of the writes is reported, and its callback is over, when the handler runs into the
timeout. -/
def oneReported : Handler SetValueResult ProtoSetValueResult :=
  { twoWrites with
    requestIds := twoWrites.requestIds.erase 7
    toCome := [[⟨8, 0⟩]]
    tmpResults := [setValueOps.toProto ⟨7, 0⟩]
    invocations := [.finished]
    stage := .returned (.error .timeout) }

/-- A handler whose callback reports one of two results before the timeout. -/
theorem path_oneReported :
    Path (fun t a u => HandlerStep setValueOps t a u ∧ OutlivesCallback t a) twoWrites
      [.hardwareReturns statusOk, .invoke, .enter, .report, .check, .timeout] oneReported := by
  have hcalled : HandlerStep setValueOps twoWrites (.hardwareReturns statusOk)
      { twoWrites with stage := .waiting } := .hardwareReturns rfl
  have hpath := Path.single (R := fun t a u => HandlerStep setValueOps t a u ∧ OutlivesCallback t a)
    ⟨hcalled, fun hne => absurd rfl hne⟩
  have hpath := hpath.snoc ⟨.invoke rfl, rfl⟩
  have hpath := hpath.snoc ⟨@HandlerStep.enter _ _ setValueOps _ [] [] [⟨7, 0⟩] rfl rfl, trivial⟩
  have hpath := hpath.snoc ⟨@HandlerStep.report _ _ setValueOps _ [] [] ⟨7, 0⟩ [] rfl, trivial⟩
  have hpath := hpath.snoc ⟨@HandlerStep.check _ _ setValueOps _ [] [] rfl, trivial⟩
  have hfinished (i : Invocation SetValueResult) (hi : i ∈ [Invocation.finished]) :
      i = .finished := List.mem_singleton.mp hi
  exact hpath.snoc ⟨.timeout rfl rfl, hfinished⟩

/-- The callback that is over when the handler returns has used nothing late; the one for the other
write, which begins then, may. -/
theorem oneReported_usedInTime :
    oneReported.lateAccess = false ∧
    ∃ events s, Path (HandlerStep setValueOps)
      { oneReported with toCome := [], invocations := [.finished, .begun [⟨8, 0⟩]] } events s ∧
        s.lateAccess = true := by
  obtain ⟨hin, hlate⟩ := usedInTime_along_run setValueOps [⟨7, {}⟩, ⟨8, {}⟩] [[⟨7, 0⟩], [⟨8, 0⟩]]
  have hpath := path_oneReported.mono fun _ _ _ hstep => hstep.1
  have hevent : ¬OutlivesCallback oneReported .invoke := fun h => absurd h.symm Bool.false_ne_true
  exact ⟨hin _ _ path_oneReported, hlate _ oneReported _ .invoke hpath (.invoke rfl) hevent⟩

/-- The callback for the late result erases its id from the set of the returned handler. -/
theorem late_result_uses_set :
    ∃ events s, Path (HandlerStep setValueOps) (start [⟨7, {}⟩] [[⟨7, 0⟩]]) events s ∧
      s.stage = .returned (.error .timeout) ∧ s.lateAccess = true := by
  let s₃ : Handler SetValueResult ProtoSetValueResult :=
    { timedOut with toCome := [], invocations := [.begun [⟨7, 0⟩]] }
  let s₄ : Handler SetValueResult ProtoSetValueResult :=
    { s₃ with waitMtx := true, invocations := [.locked [⟨7, 0⟩]] }
  have h3 : HandlerStep setValueOps timedOut .invoke s₃ := .invoke rfl
  have h4 : HandlerStep setValueOps s₃ .enter s₄ :=
    @HandlerStep.enter _ _ setValueOps s₃ [] [] [⟨7, 0⟩] rfl rfl
  have h5 := @HandlerStep.report _ _ setValueOps s₄ [] [] ⟨7, 0⟩ [] rfl
  have hpath : Path (HandlerStep setValueOps) (start [⟨7, {}⟩] [[⟨7, 0⟩]])
      [.hardwareReturns statusOk, .timeout] timedOut :=
    path_timedOut.mono fun t a u hstep => hstep.1
  exact ⟨_, _, ((hpath.snoc h3).snoc h4).snoc h5, rfl, rfl⟩

end VhalCore.ProxyServer
