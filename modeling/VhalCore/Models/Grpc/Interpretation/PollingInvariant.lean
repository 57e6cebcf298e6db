import VhalCore.Models.Grpc.Native.PollingThreads
import Mathlib.Data.List.Basic

/-!
# What the polling threads keep

Until the destructor has run its section the contexts of the threads between registration
and unregistration are listed, none is cancelled, and a thread stops reading only because
the server has ended its stream. After the section, if no thread stood before the
registration at that time, a thread with an open stream has it ended or cancelled.
-/

namespace VhalCore.GRPCVehicleHardware

/-- The context is registered. -/
def PollingStage.registered : PollingStage → Bool
  | .starting | .readHead | .reading | .leaving => true
  | _ => false

/-- The stream is open or will be. -/
def PollingStage.opened (stage : PollingStage) : Bool :=
  stage.registered || decide (stage = .finishing)

/-- A thread before the section of the destructor. -/
structure Polling.KeptBefore (p : Polling) (listed : Prop) : Prop where
  uncancelled : p.cancelled = false
  listed : listed ↔ p.stage.registered = true
  fresh : p.stage = .connecting → p.ended = false
  streamEnded : p.stage = .leaving ∨ p.stage = .finishing → p.ended = true

/-- A thread after the section of the destructor. -/
structure Polling.KeptAfter (p : Polling) : Prop where
  notConnecting : p.stage ≠ .connecting
  released : p.stage.opened = true → p.released = true

/-- The client before the section of the destructor. -/
def KeptBefore (s : Client) : Prop :=
  s.destructor = .notCalled → s.mShuttingDownFlag = false ∧
    ∀ thread, (s.polling thread).KeptBefore (thread ∈ s.mStreamContexts)

/-- The client after it. -/
def KeptAfter (s : Client) : Prop :=
  s.destructor ≠ .notCalled → s.mShuttingDownFlag = true ∧
    ∀ thread, (s.polling thread).KeptAfter

theorem Client.set_same (s : Client) (thread : PollingThread) (p : Polling) :
    (s.set thread p).polling thread = p := Function.update_self ..

theorem Client.set_other (s : Client) {thread other : PollingThread} (h : other ≠ thread)
    (p : Polling) : (s.set thread p).polling other = s.polling other := Function.update_of_ne h ..

/-- One thread changes, and with it only its own registration. -/
theorem KeptBefore.set {s : Client} (h : KeptBefore s) {thread : PollingThread} {p : Polling}
    {contexts : List PollingThread}
    (hp : s.mShuttingDownFlag = false → (s.polling thread).KeptBefore (thread ∈ s.mStreamContexts) →
      p.KeptBefore (thread ∈ contexts))
    (hothers : ∀ other, other ≠ thread → (other ∈ contexts ↔ other ∈ s.mStreamContexts)) :
    KeptBefore { s.set thread p with mStreamContexts := contexts } := by
  intro hcalled
  obtain ⟨hflag, hkept⟩ := h hcalled
  refine ⟨hflag, fun other => ?_⟩
  by_cases heq : other = thread
  · subst heq
    show ((s.set other p).polling other).KeptBefore (other ∈ contexts)
    rw [s.set_same]
    exact hp hflag (hkept other)
  · show ((s.set thread p).polling other).KeptBefore (other ∈ contexts)
    rw [s.set_other heq, hothers other heq]
    exact hkept other

/-- A thread changes and stays registered or unregistered. -/
theorem KeptBefore.stay {s : Client} (h : KeptBefore s) {thread : PollingThread} {p : Polling}
    (hp : s.mShuttingDownFlag = false → (s.polling thread).KeptBefore (thread ∈ s.mStreamContexts) →
      p.KeptBefore (thread ∈ s.mStreamContexts)) : KeptBefore (s.set thread p) :=
  h.set hp fun _ _ => Iff.rfl

/-- One thread changes after the section. -/
theorem KeptAfter.set {s : Client} (h : KeptAfter s) {thread : PollingThread} {p : Polling}
    {contexts : List PollingThread}
    (hp : s.mShuttingDownFlag = true → (s.polling thread).KeptAfter → p.KeptAfter) :
    KeptAfter { s.set thread p with mStreamContexts := contexts } := by
  intro hcalled
  obtain ⟨hflag, hkept⟩ := h hcalled
  refine ⟨hflag, fun other => ?_⟩
  by_cases heq : other = thread
  · subst heq
    show ((s.set other p).polling other).KeptAfter
    rw [s.set_same]
    exact hp hflag (hkept other)
  · show ((s.set thread p).polling other).KeptAfter
    rw [s.set_other heq]
    exact hkept other

/-- A thread moves on before the section. -/
theorem Polling.KeptBefore.move {p : Polling} {listed listed' : Prop} (h : p.KeptBefore listed)
    {stage : PollingStage} (hlisted : listed' ↔ stage.registered = true)
    (hstage : stage ≠ .connecting)
    (hover : stage = .leaving ∨ stage = .finishing → p.ended = true) :
    ({ p with stage := stage } : Polling).KeptBefore listed' :=
  ⟨h.uncancelled, hlisted, fun heq => absurd heq hstage, hover⟩

/-- A thread moves on and stays registered or unregistered. -/
theorem KeptBefore.move {s : Client} (h : KeptBefore s) {thread : PollingThread}
    {stage : PollingStage} (hregistered : (s.polling thread).stage.registered = stage.registered)
    (hstage : stage ≠ .connecting)
    (hover : (s.polling thread).cancelled = false → stage = .leaving ∨ stage = .finishing →
      (s.polling thread).ended = true) : KeptBefore (s.move thread stage) := by
  apply h.stay
  intro _ hkept
  have hlisted := hkept.listed
  rw [hregistered] at hlisted
  exact hkept.move hlisted hstage (hover hkept.uncancelled)

/-- A thread moves on after the section. -/
theorem Polling.KeptAfter.move {p : Polling} (h : p.KeptAfter) {stage : PollingStage}
    (hstage : stage ≠ .connecting) (hopened : stage.opened = true → p.stage.opened = true) :
    ({ p with stage := stage } : Polling).KeptAfter :=
  ⟨hstage, fun hopen => h.released (hopened hopen)⟩

/-- Every step keeps what holds before the section. -/
theorem ClientStep.keptBefore {s s' : Client} {event : ClientEvent}
    (hstep : ClientStep s event s') (h : KeptBefore s) : KeptBefore s' := by
  cases hstep with
  | idle => exact h
  | newTurn hstage _ =>
      apply h.stay
      intro _ hkept
      have hlisted := hkept.listed
      rw [hstage] at hlisted
      refine ⟨rfl, hlisted, fun _ => rfl, ?_⟩
      rintro (heq | heq) <;> cases heq
  | insert hstage =>
      apply h.set
      · intro _ hkept
        apply hkept.move (iff_of_true List.mem_insert_self rfl) PollingStage.noConfusion
        rintro (heq | heq) <;> cases heq
      · intro other hne
        rw [List.mem_insert_iff]
        exact or_iff_right hne
  | start hstage | read hstage _ | message hstage | finish hstage _ | unimplemented hstage _
  | goOn hstage _ | wake hstage =>
      apply h.move _ PollingStage.noConfusion
      · rintro - (heq | heq) <;> cases heq
      · rw [hstage]
        rfl
  | readFails hstage hreleased =>
      apply h.move _ PollingStage.noConfusion
      · intro huncancelled _
        rwa [Polling.released, huncancelled, Bool.or_false] at hreleased
      · rw [hstage]
        rfl
  | erase hstage =>
      apply h.set
      · intro _ hkept
        apply hkept.move _ PollingStage.noConfusion fun _ => hkept.streamEnded (Or.inl hstage)
        simp [PollingStage.registered]
      · intro other hne
        simp [hne]
  | @serverEnds thread hstage =>
      apply h.stay
      intro _ hkept
      refine ⟨hkept.uncancelled, hkept.listed, fun heq => ?_, fun _ => rfl⟩
      have hconnecting : (s.polling thread).stage = .connecting := heq
      rw [hconnecting] at hstage
      cases hstage
  | endLoop _ hflag | endRead _ hflag | stop _ hflag =>
      apply h.stay
      exact fun hclear => absurd (hclear.symm.trans hflag) Bool.false_ne_true
  | cancelStreams _ | joinValue _ _ | joinSupportedValues _ _ =>
      exact fun hcalled => by cases hcalled

/-- What the section does to a thread that does not stand before its registration. -/
theorem Polling.KeptBefore.cancel {p : Polling} {listed : Prop} [Decidable listed]
    (h : p.KeptBefore listed) (hstage : p.stage ≠ .connecting) :
    ({ p with cancelled := p.cancelled || decide listed } : Polling).KeptAfter := by
  refine ⟨hstage, fun hopen => ?_⟩
  rw [PollingStage.opened, Bool.or_eq_true] at hopen
  rw [Polling.released, Bool.or_eq_true, Bool.or_eq_true]
  rcases hopen with hregistered | hfinishing
  · exact Or.inr (Or.inr (decide_eq_true (h.listed.mpr hregistered)))
  · exact Or.inl (h.streamEnded (Or.inr (of_decide_eq_true hfinishing)))

/-- Every step keeps what holds after the section, if the section keeps it. -/
theorem ClientStep.keptAfter {s s' : Client} {event : ClientEvent} (hstep : ClientStep s event s')
    (hrule : event = .cancelStreams → ∀ thread, (s.polling thread).stage ≠ .connecting)
    (hbefore : KeptBefore s) (h : KeptAfter s) : KeptAfter s' := by
  cases hstep with
  | idle => exact h
  | newTurn _ hclear | read _ hclear | goOn _ hclear =>
      apply h.set
      exact fun hflag => absurd (hclear.symm.trans hflag) Bool.false_ne_true
  | insert hstage =>
      apply h.set
      exact fun _ hkept => absurd hstage hkept.notConnecting
  | endLoop hstage _ | start hstage | endRead hstage _ | message hstage | readFails hstage _
  | erase hstage | finish hstage _ | unimplemented hstage _ | stop hstage _ | wake hstage =>
      apply h.set
      intro _ hkept
      apply hkept.move PollingStage.noConfusion
      rw [hstage]
      decide
  | serverEnds hstage =>
      apply h.set
      exact fun _ hkept => ⟨hkept.notConnecting, fun _ => rfl⟩
  | cancelStreams hcalled =>
      obtain ⟨-, hkept⟩ := hbefore hcalled
      exact fun _ => ⟨rfl, fun thread => (hkept thread).cancel (hrule rfl thread)⟩
  | joinValue hjoins _ | joinSupportedValues hjoins _ =>
      intro _
      apply h
      rw [hjoins]
      exact DestructorStage.noConfusion

end VhalCore.GRPCVehicleHardware
