import VhalCore.Models.Generators.Interpretation.SchedulerInvariant

/-!
# The handled event and the popped one

The event that is handled is the one that is popped, and its generator is registered, unless
something has happened between the locks: the vector has grown since the reference was taken, or
the generator of the soonest event was unregistered and not registered again.
-/

namespace VhalCore.Generators

namespace Scheduler

/-- The thread, which is to handle an event, can do so: it delivers an event of the queue whose
generator is registered, pops this one and no other, and pushes at most one of the same id. -/
def HandlesPopped (grow : Nat → Nat) (s : Scheduler) : Prop :=
  (∃ t, SchedulerStep grow s .thread t) ∧ ∀ t, SchedulerStep grow s .thread t →
    ∃ event ∈ s.hub.mEventQueue, t.hub.log = s.hub.log ++ [.delivered event] ∧
      s.hub.mGenerators.lookup event.generatorId ≠ none ∧
      (t.hub.mEventQueue = s.hub.mEventQueue.erase event ∨
        ∃ next, next.generatorId = event.generatorId ∧
          t.hub.mEventQueue = next ::ₘ s.hub.mEventQueue.erase event)

/-- The vector is the one that the reference points to, and the generator of the soonest event
was not unregistered, or registered again, since the events without a generator were popped. -/
def Undisturbed (s : Scheduler) (curEvent : Nat) : Prop :=
  curEvent = s.vector ∧ ∀ event, s.front = some event →
    lastRegistration event.generatorId s.sinceEvaluated ≠ some false

variable {grow : Nat → Nat} {s : Scheduler} {curEvent : Nat}

/-- An event that is handled and popped is taken from the queue. -/
theorem queue_handlePopped (event : VhalEvent) (hub : GeneratorHub) :
    (hub.handlePopped event event).mEventQueue = hub.mEventQueue.erase event ∨
      ∃ next, next.generatorId = event.generatorId ∧
        (hub.handlePopped event event).mEventQueue = next ::ₘ hub.mEventQueue.erase event := by
  simp only [GeneratorHub.handlePopped, GeneratorHub.nextEvent]
  cases hub.mGenerators.lookup event.generatorId with
  | none => exact Or.inl rfl
  | some registered =>
      simp only
      cases registered.generator registered.calls with
      | none => exact Or.inl rfl
      | some val => exact Or.inr ⟨⟨event.generatorId, val, registered.registration⟩, rfl, rfl⟩

/-- An undisturbed thread handles the soonest event. -/
theorem Sound.handlesPopped (h : s.Sound) (hthread : s.thread = .handling curEvent)
    (hundisturbed : s.Undisturbed curEvent) : s.HandlesPopped grow := by
  obtain ⟨event, hfront⟩ := Option.ne_none_iff_exists'.mp (h.present curEvent (Or.inr hthread))
  have hread : s.read curEvent = some event := by
    rw [read, if_pos hundisturbed.1]
    exact hfront
  constructor
  · obtain ⟨front, hrest⟩ := exists_isFront (s.hub.mEventQueue.erase event)
    exact ⟨_, .handle hthread hread hfront hrest⟩
  · intro t hstep
    cases hstep with
    | @handle curEvent' event' popped front hthread' hread' hpop hrest =>
        cases hthread.symm.trans hthread'
        cases hread.symm.trans hread'
        cases hfront.symm.trans hpop
        obtain ⟨hhub, -⟩ := handle_fields grow event event front s
        have hsoonest := h.front
        rw [hfront] at hsoonest
        rw [hhub]
        refine ⟨event, hsoonest.1, log_handlePopped event event s.hub, ?_,
          queue_handlePopped event s.hub⟩
        rw [ne_eq, h.current (by rw [hthread]; rfl) event hfront]
        exact hundisturbed.2 event hfront
    | readInvalid hthread' hinvalid =>
        cases hthread.symm.trans hthread'
        cases hread.symm.trans hinvalid
    | evaluate hother _ _ => cases hthread.symm.trans hother
    | awake hother _ _ => cases hthread.symm.trans hother
    | notified hother => cases hthread.symm.trans hother
    | timeout hother _ => cases hthread.symm.trans hother
    | quit hother _ =>
        rcases hother with hother | hother
        · cases hthread.symm.trans hother
        · cases hthread.symm.trans hother

/-- A thread that is disturbed reads through an invalid reference, or delivers an event whose
generator is not registered. -/
theorem Sound.undisturbed (h : s.Sound) (hthread : s.thread = .handling curEvent)
    (hhandles : s.HandlesPopped grow) : s.Undisturbed curEvent := by
  have hvalid : curEvent = s.vector := by
    by_contra hinvalid
    obtain ⟨event, -, hlog, -⟩ := hhandles.2 _ (.readInvalid hthread (if_neg hinvalid))
    have hlength := congrArg List.length hlog
    rw [List.length_append, List.length_singleton] at hlength
    exact Nat.succ_ne_self _ hlength.symm
  refine ⟨hvalid, fun event hfront hunregistered => ?_⟩
  obtain ⟨front, hrest⟩ := exists_isFront (s.hub.mEventQueue.erase event)
  have hread : s.read curEvent = some event := by
    rw [read, if_pos hvalid]
    exact hfront
  obtain ⟨event', -, hlog, hregistered, -⟩ :=
    hhandles.2 _ (.handle hthread hread hfront hrest)
  obtain ⟨hhub, -⟩ := handle_fields grow event event front s
  rw [hhub, log_handlePopped] at hlog
  have hsame := List.append_cancel_left hlog
  cases hsame
  rw [ne_eq, h.current (by rw [hthread]; rfl) event hfront] at hregistered
  exact hregistered hunregistered

/-- In every run, a thread that is to handle an event handles the one that is popped, with its
generator registered, exactly if it is undisturbed. -/
theorem handlesPopped_iff_undisturbed {events : List SchedulerEvent}
    (h : Path (SchedulerStep grow) {} events s) (hthread : s.thread = .handling curEvent) :
    s.HandlesPopped grow ↔ s.Undisturbed curEvent :=
  ⟨(sound_of_path h).undisturbed hthread, (sound_of_path h).handlesPopped hthread⟩

/-- Where the popped event is the current one, the hub handles it as meant. -/
theorem handlePopped_self (event : VhalEvent) (hub : GeneratorHub) :
    hub.handlePopped event event = hub.handleEvent event := by
  simp only [GeneratorHub.handlePopped, GeneratorHub.handleEvent, GeneratorHub.nextEvent]
  cases hub.mGenerators.lookup event.generatorId with
  | none => rfl
  | some registered =>
      simp only
      cases registered.generator registered.calls with
      | none => rfl
      | some val => rfl

/-- An undisturbed thread and the calls do what they do to the hub as a whole. -/
theorem Sound.simulates (h : s.Sound) {event : SchedulerEvent} {t : Scheduler}
    (hstep : SchedulerStep grow s event t)
    (hundisturbed : event = .thread → ∀ curEvent, s.thread = .handling curEvent →
      s.Undisturbed curEvent) :
    t.hub = s.hub ∨ ∃ e, HubStep s.hub e t.hub := by
  cases hstep with
  | tick _ => exact Or.inl rfl
  | @registerGenerator id generator _ =>
      cases hv : generator 0 with
      | none =>
          rw [registerGenerator_of_none hv]
          exact Or.inl rfl
      | some v =>
          rw [(registerGenerator_of_some grow id hv s).1]
          exact Or.inr ⟨_, .registerGenerator id generator⟩
  | @unregisterGenerator id _ => exact Or.inr ⟨_, .unregisterGenerator id⟩
  | shutDown _ => exact Or.inl rfl
  | evaluate _ _ hpop =>
      refine Or.inr ⟨.wait, ?_⟩
      rw [hub_awaitFront]
      exact .wait (hpop.popWhile h.front)
  | awake _ _ _ => exact Or.inl (hub_awaitFront s)
  | notified _ => exact Or.inl rfl
  | timeout _ _ => exact Or.inl rfl
  | @handle curEvent event popped front hthread hread hpop _ =>
      have hcurrent := hundisturbed rfl curEvent hthread
      rw [read, if_pos hcurrent.1, hpop, Option.some.injEq] at hread
      cases hread
      have hsoonest := h.front
      rw [hpop] at hsoonest
      have hregistered : ¬s.hub.IsStale event := by
        rw [GeneratorHub.IsStale, h.current (by rw [hthread]; rfl) event hpop]
        exact hcurrent.2 event hpop
      rw [(handle_fields grow event event front s).1, handlePopped_self]
      exact Or.inr ⟨.handle, .handle (.stop hsoonest hregistered)⟩
  | readInvalid _ _ => exact Or.inl rfl
  | quit _ _ => exact Or.inl rfl

/-- A run in which the thread is never disturbed is a run of the hub as a whole. -/
theorem exists_path_of_undisturbed {events : List SchedulerEvent}
    (h : Path (fun s event t => SchedulerStep grow s event t ∧ (event = .thread → ∀ curEvent,
      s.thread = .handling curEvent → s.Undisturbed curEvent)) {} events s) :
    ∃ later, Path HubStep {} later s.hub := by
  have hboth : s.Sound ∧ ∃ later, Path HubStep {} later s.hub := by
    refine h.invariant (P := fun s => s.Sound ∧ ∃ later, Path HubStep {} later s.hub)
      ⟨sound_start, [], .nil _⟩ fun t event u ⟨hsound, later, hlater⟩ ⟨hstep, hcurrent⟩ => ?_
    refine ⟨hsound.step hstep, ?_⟩
    rcases hsound.simulates hstep hcurrent with hsame | ⟨e, he⟩
    · exact ⟨later, hsame ▸ hlater⟩
    · exact ⟨_, hlater.snoc he⟩
  exact hboth.2

/-- A vector that doubles its capacity. -/
def doubled (capacity : Nat) : Nat := max 1 (2 * capacity)

/-- A generator with events at some times. -/
def eventsAt (times : List Int) : FakeValueGenerator := fun call =>
  times[call]?.map fun timestamp => { prop := 0x11400400, timestamp }

/-- The hub is to handle the event of a generator, which has come up to the front of the queue
during the wait for another one. The vector has room for it, so the reference stays valid. -/
theorem soonerEvent_handled : ∃ events s, Path (SchedulerStep doubled) {} events s ∧
    s.thread = .handling 3 ∧ s.front = some ⟨8, { prop := 0x11400400, timestamp := 50 }, 3⟩ ∧
    s.HandlesPopped doubled := by
  have hpath : Path (SchedulerStep doubled) {} [.registerGenerator 5 (eventsAt [300])] _ :=
    .single (.registerGenerator nofun)
  have hpath := hpath.snoc (@SchedulerStep.registerGenerator _ _ 6 (eventsAt [200]) nofun)
  have hpath := hpath.snoc (@SchedulerStep.registerGenerator _ _ 7 (eventsAt [100]) nofun)
  have hpath := hpath.snoc (.evaluate rfl rfl (.stop nofun))
  have hpath := hpath.snoc (@SchedulerStep.registerGenerator _ _ 8 (eventsAt [50]) nofun)
  have hpath := hpath.snoc (@SchedulerStep.tick _ _ 100 (by decide))
  have hpath := hpath.snoc (@SchedulerStep.timeout _ _ 3 100 rfl (by decide))
  refine ⟨_, _, hpath, rfl, rfl, (handlesPopped_iff_undisturbed hpath rfl).mpr ⟨rfl, ?_⟩⟩
  rintro event ⟨⟩
  decide

/-- A generator is unregistered after the wait for its event has timed out, and the event is
delivered. A generator is registered at this time, the vector grows, and the reference to the
event is invalid. -/
theorem disturbed_not_handlesPopped :
    (∃ events s, Path (SchedulerStep doubled) {} events s ∧ s.thread = .handling 1 ∧
      s.hub.mGenerators.lookup 7 = none ∧
      (∃ t, SchedulerStep doubled s .thread t ∧ t.hub.log = s.hub.log ++
        [.delivered ⟨7, { prop := 0x11400400, timestamp := 100 }, 0⟩]) ∧
      ¬s.HandlesPopped doubled) ∧
    ∃ events s, Path (SchedulerStep doubled) {} events s ∧ s.thread = .handling 1 ∧
      (∃ t, SchedulerStep doubled s .thread t ∧ t.thread = .undefined) ∧
      ¬s.HandlesPopped doubled := by
  have hpath : Path (SchedulerStep doubled) {} [.registerGenerator 7 (eventsAt [100])] _ :=
    .single (.registerGenerator nofun)
  have hpath := hpath.snoc (.evaluate rfl rfl (.stop nofun))
  have hpath := hpath.snoc (@SchedulerStep.tick _ _ 100 (by decide))
  constructor
  · have hpath := hpath.snoc (@SchedulerStep.unregisterGenerator _ _ 7 nofun)
    have hpath := hpath.snoc (@SchedulerStep.timeout _ _ 1 100 rfl (by decide))
    refine ⟨_, _, hpath, rfl, rfl, ⟨_, @SchedulerStep.handle _ _ 1 _ _ none rfl rfl rfl rfl, rfl⟩,
      fun hhandles => ?_⟩
    exact ((sound_of_path hpath).undisturbed rfl hhandles).2 _ rfl (by decide)
  · have hpath := hpath.snoc (@SchedulerStep.registerGenerator _ _ 8 (eventsAt [150]) nofun)
    have hpath := hpath.snoc (@SchedulerStep.timeout _ _ 1 100 rfl (by decide))
    refine ⟨_, _, hpath, rfl, ⟨_, .readInvalid rfl rfl, rfl⟩, fun hhandles => ?_⟩
    exact absurd ((sound_of_path hpath).undisturbed rfl hhandles).1 (by decide)

end Scheduler

end VhalCore.Generators
