import VhalCore.Models.Generators.Native.Scheduler

/-!
# The soonest event between the locks

The first slot of the queue has a soonest event at all times. While the thread waits or is about
to handle an event, the generator of this event is registered unless the last call about its id
since the stale events were popped was an unregistration.
-/

namespace VhalCore.Generators

section Queue

variable {q q' : Multiset VhalEvent} {front front' : Option VhalEvent} {event : VhalEvent}

theorem exists_isFront (q : Multiset VhalEvent) : ∃ front, IsFront q front := by
  by_cases h : q = 0
  · exact ⟨none, h⟩
  · obtain ⟨event, hevent⟩ := exists_isQueueTop timeOf h
    exact ⟨some event, hevent⟩

/-- The first slot holds the first event after a push. -/
theorem isFront_push (h : IsFront q front) : IsFront (event ::ₘ q) (pushedFront event front) := by
  cases front with
  | none =>
      rw [show q = 0 from h]
      exact ⟨Multiset.mem_singleton_self event, fun other hother =>
        (Multiset.mem_singleton.mp hother).symm ▸ le_refl _⟩
  | some top =>
      obtain ⟨hmem, hsoonest⟩ : IsQueueTop timeOf q top := h
      rw [pushedFront]
      split
      · next hsooner =>
        refine ⟨Multiset.mem_cons_self event q, fun other hother => ?_⟩
        rcases Multiset.mem_cons.mp hother with rfl | hold
        · exact le_refl _
        · exact hsooner.le.trans (hsoonest other hold)
      · next hlater =>
        refine ⟨Multiset.mem_cons_of_mem hmem, fun other hother => ?_⟩
        rcases Multiset.mem_cons.mp hother with rfl | hold
        · exact not_lt.mp hlater
        · exact hsoonest other hold

variable {stale : VhalEvent → Prop}

/-- The loop is one that pops the soonest events. -/
theorem PopStale.popWhile (h : PopStale stale q front q' front') (hfront : IsFront q front) :
    PopWhile timeOf stale q q' front' := by
  induction h with
  | empty => exact .empty
  | stop hcurrent => exact .stop hfront hcurrent
  | pop hstale hnext _ ih => exact .pop hfront hstale (ih hnext)

/-- The first slot holds the first event after stale ones are popped. -/
theorem PopStale.isFront (h : PopStale stale q front q' front') (hfront : IsFront q front) :
    IsFront q' front' := by
  induction h with
  | empty => exact hfront
  | stop _ => exact hfront
  | pop _ hnext _ ih => exact ih hnext

/-- The loop leaves an event with a generator in the first slot. -/
theorem PopStale.current (h : PopStale stale q front q' front') :
    ∀ event, front' = some event → ¬stale event := by
  induction h with
  | empty => exact fun _ hnone => nomatch hnone
  | stop hcurrent =>
      rintro event ⟨⟩
      exact hcurrent
  | pop _ _ _ ih => exact ih

/-- Only events without a generator are popped. -/
theorem PopStale.mem (h : PopStale stale q front q' front') {event : VhalEvent}
    (hmem : event ∈ q) (hcurrent : ¬stale event) : event ∈ q' := by
  induction h with
  | empty => exact hmem
  | stop _ => exact hmem
  | @pop q q' popped _ _ hstale _ _ ih =>
      refine ih ((Multiset.mem_erase_of_ne ?_).mpr hmem)
      rintro rfl
      exact hcurrent hstale

/-- What is left was there before. -/
theorem PopStale.mem_of_mem (h : PopStale stale q front q' front') {event : VhalEvent}
    (hmem : event ∈ q') : event ∈ q := by
  induction h with
  | empty => exact hmem
  | stop _ => exact hmem
  | pop _ _ _ ih => exact Multiset.mem_of_mem_erase (ih hmem)

end Queue

/-- Whether an action registers or unregisters an id. -/
def registrationFrom (id : Int) : Action → Option Bool
  | .registered id' _ _ => if id' = id then some true else none
  | .unregistered id' => if id' = id then some false else none
  | .delivered _ => none

/-- Whether an id was last registered or unregistered, if one of the actions did it. -/
def lastRegistration (id : Int) (actions : List Action) : Option Bool :=
  (actions.filterMap (registrationFrom id)).getLast?

/-- The last action decides the last registration, if it is one. -/
theorem lastRegistration_concat (id : Int) (actions : List Action) (a : Action) :
    lastRegistration id (actions ++ [a]) =
      (registrationFrom id a).or (lastRegistration id actions) := by
  rw [lastRegistration, List.filterMap_append]
  cases h : registrationFrom id a with
  | none =>
      rw [List.filterMap_cons_none h, List.filterMap_nil, List.append_nil]
      rfl
  | some registered =>
      rw [List.filterMap_cons_some h, List.filterMap_nil, List.getLast?_concat]
      rfl

/-- The thread waits or is about to handle an event. -/
def SchedulerThread.awaits : SchedulerThread → Bool
  | .waiting | .timedWait _ _ | .handling _ => true
  | _ => false

namespace Scheduler

/-- The calls and deliveries since the events without a generator were popped. -/
def sinceEvaluated (s : Scheduler) : List Action := s.hub.log.drop s.evaluated

/-- The first slot has a soonest event, and its generator is registered unless it was
unregistered meanwhile. -/
structure Sound (s : Scheduler) : Prop where
  front : IsFront s.hub.mEventQueue s.front
  evaluated : s.evaluated ≤ s.hub.log.length
  present : ∀ curEvent, (∃ deadline, s.thread = .timedWait curEvent deadline) ∨
    s.thread = .handling curEvent → s.front ≠ none
  current : s.thread.awaits = true → ∀ event, s.front = some event →
    (s.hub.mGenerators.lookup event.generatorId = none ↔
      lastRegistration event.generatorId s.sinceEvaluated = some false)

/-- A new scheduler is sound. -/
theorem sound_start : Sound {} where
  front := rfl
  evaluated := Nat.le_refl 0
  present _ h := by
    rcases h with ⟨_, h⟩ | h
    · cases h
    · cases h
  current h := nomatch h

section Growth

variable {grow : Nat → Nat}

/-- A push puts the earlier event into the first slot. -/
@[simp] theorem push_front (size : Nat) (event : VhalEvent) (s : Scheduler) :
    (s.push grow size event).front = some (pushedFront event s.front) := by
  rw [push]
  split
  · rfl
  · rfl

/-- A push leaves the thread where it is. -/
@[simp] theorem push_thread (size : Nat) (event : VhalEvent) (s : Scheduler) :
    (s.push grow size event).thread = s.thread := by
  rw [push]
  split
  · rfl
  · rfl

/-- A push takes no time. -/
@[simp] theorem push_clock (size : Nat) (event : VhalEvent) (s : Scheduler) :
    (s.push grow size event).clock = s.clock := by
  rw [push]
  split
  · rfl
  · rfl

/-- A push leaves the mark of the last popping. -/
@[simp] theorem push_evaluated (size : Nat) (event : VhalEvent) (s : Scheduler) :
    (s.push grow size event).evaluated = s.evaluated := by
  rw [push]
  split
  · rfl
  · rfl

/-- What is known of the thread, the clock and the queue after a generator was accepted. -/
theorem registerGenerator_of_some (grow : Nat → Nat) (id : Int)
    {generator : FakeValueGenerator} {v : VehiclePropValue} (hv : generator 0 = some v)
    (s : Scheduler) :
    (s.registerGenerator grow id generator).hub = s.hub.registerGenerator id generator ∧
      (s.registerGenerator grow id generator).thread = s.thread ∧
      (s.registerGenerator grow id generator).clock = s.clock ∧
      (s.registerGenerator grow id generator).evaluated = s.evaluated ∧
      (s.registerGenerator grow id generator).front =
        if s.hub.mGenerators.lookup id = none then
          some (pushedFront ⟨id, v, s.hub.registrations⟩ s.front)
        else s.front := by
  simp only [registerGenerator, hv]
  split
  · simp only [push_thread, push_clock, push_evaluated, push_front, and_self]
  · simp only [and_self]

theorem registerGenerator_of_none {id : Int} {generator : FakeValueGenerator}
    (hv : generator 0 = none) (s : Scheduler) : s.registerGenerator grow id generator = s := by
  simp only [registerGenerator, hv]

/-- What is known of the thread, the clock and the queue after an event was handled. -/
theorem handle_fields (grow : Nat → Nat) (curEvent popped : VhalEvent)
    (front : Option VhalEvent) (s : Scheduler) :
    (s.handle grow curEvent popped front).hub = s.hub.handlePopped curEvent popped ∧
      (s.handle grow curEvent popped front).thread = .unlocked ∧
      (s.handle grow curEvent popped front).clock = s.clock ∧
      (s.handle grow curEvent popped front).evaluated = s.evaluated ∧
      (s.handle grow curEvent popped front).front =
        match s.hub.nextEvent curEvent.generatorId with
        | none => front
        | some next => some (pushedFront next front) := by
  cases hnext : s.hub.nextEvent curEvent.generatorId with
  | none => simp only [handle, hnext, and_self]
  | some next => simp only [handle, hnext, push_clock, push_evaluated, push_front, and_self]

end Growth

/-- The thread waits for an event, waits for the time of the soonest one, or handles it. -/
theorem awaitFront_cases (s : Scheduler) :
    (s.front = none ∧ s.awaitFront = { s with thread := .waiting }) ∨
    ∃ event, s.front = some event ∧
      ((s.clock < timeOf event ∧
        s.awaitFront = { s with thread := .timedWait s.vector (timeOf event) }) ∨
      (timeOf event ≤ s.clock ∧ s.awaitFront = { s with thread := .handling s.vector })) := by
  rcases s with ⟨hub, front, capacity, vector, clock, flag, thread, evaluated⟩
  cases front with
  | none => exact Or.inl ⟨rfl, rfl⟩
  | some event =>
      refine Or.inr ⟨event, rfl, ?_⟩
      by_cases hlater : timeOf event > clock
      · exact Or.inl ⟨hlater, if_pos hlater⟩
      · exact Or.inr ⟨not_lt.mp hlater, if_neg hlater⟩

theorem hub_awaitFront (s : Scheduler) : s.awaitFront.hub = s.hub := by
  rcases s.awaitFront_cases with ⟨-, h⟩ | ⟨_, -, ⟨-, h⟩ | ⟨-, h⟩⟩
  · rw [h]
  · rw [h]
  · rw [h]

section Sound

variable {s : Scheduler}

theorem Sound.sinceEvaluated_concat (h : s.Sound) (a : Action) :
    (s.hub.log ++ [a]).drop s.evaluated = s.sinceEvaluated ++ [a] :=
  List.drop_append_of_le_length h.evaluated

/-- The front is known when the thread begins to wait or to handle it. -/
theorem sound_awaitFront (hfront : IsFront s.hub.mEventQueue s.front)
    (hevaluated : s.evaluated ≤ s.hub.log.length)
    (hcurrent : ∀ event, s.front = some event →
      (s.hub.mGenerators.lookup event.generatorId = none ↔
        lastRegistration event.generatorId s.sinceEvaluated = some false)) :
    s.awaitFront.Sound := by
  rcases s.awaitFront_cases with ⟨-, heq⟩ | ⟨event, hsome, ⟨-, heq⟩ | ⟨-, heq⟩⟩
  · rw [heq]
    refine ⟨hfront, hevaluated, fun curEvent h => ?_, fun _ => hcurrent⟩
    rcases h with ⟨_, h⟩ | h
    · cases h
    · cases h
  · rw [heq]
    exact ⟨hfront, hevaluated, fun _ _ => hsome ▸ Option.some_ne_none event, fun _ => hcurrent⟩
  · rw [heq]
    exact ⟨hfront, hevaluated, fun _ _ => hsome ▸ Option.some_ne_none event, fun _ => hcurrent⟩

/-- A generator is registered for the soonest event, or for another id. -/
theorem Sound.registerGenerator (h : s.Sound) {grow : Nat → Nat} (id : Int)
    (generator : FakeValueGenerator) : (s.registerGenerator grow id generator).Sound := by
  cases hv : generator 0 with
  | none =>
      rw [registerGenerator_of_none hv]
      exact h
  | some v =>
      obtain ⟨hhub, hthread, -, hevaluated, hfront⟩ :=
        registerGenerator_of_some grow id hv s
      have hlog := s.hub.log_registerGenerator hv id
      have hlookup (other : Int) :
          (s.hub.registerGenerator id generator).mGenerators.lookup other = none ↔
            other ≠ id ∧ s.hub.mGenerators.lookup other = none := by
        rw [s.hub.lookup_registerGenerator hv]
        by_cases hother : other = id
        · rw [if_pos hother]
          exact iff_of_false (Option.some_ne_none _) fun hne => hne.1 hother
        · rw [if_neg hother]
          exact (and_iff_right hother).symm
      refine ⟨?_, ?_, fun curEvent hawaits => ?_, fun hawaits event hevent => ?_⟩
      · rw [hhub, hfront, s.hub.mEventQueue_registerGenerator hv]
        split
        · exact isFront_push h.front
        · exact h.front
      · rw [hhub, hevaluated, hlog, List.length_append]
        exact h.evaluated.trans (Nat.le_add_right _ _)
      · rw [hthread] at hawaits
        rw [hfront]
        split
        · exact Option.some_ne_none _
        · exact h.present curEvent hawaits
      · rw [hthread] at hawaits
        rw [sinceEvaluated, hhub, hevaluated, hlog, h.sinceEvaluated_concat,
          lastRegistration_concat, hlookup, registrationFrom]
        by_cases hid : id = event.generatorId
        · rw [if_pos hid, Option.some_or]
          exact iff_of_false (fun hne => hne.1 hid.symm) nofun
        · rw [if_neg hid, Option.none_or, and_iff_right (Ne.symm hid)]
          refine h.current hawaits event ?_
          rw [hfront] at hevent
          split at hevent
          · cases hold : s.front with
            | none =>
                rw [hold] at hevent
                cases hevent
                exact absurd rfl hid
            | some top =>
                rw [hold, pushedFront] at hevent
                split at hevent
                · cases hevent
                  exact absurd rfl hid
                · exact hevent
          · exact hevent

/-- Unregistering a generator keeps the scheduler sound. -/
theorem Sound.unregisterGenerator (h : s.Sound) (id : Int) : (s.unregisterGenerator id).Sound where
  front := h.front
  evaluated := by
    refine h.evaluated.trans ?_
    simp only [Scheduler.unregisterGenerator, GeneratorHub.unregisterGenerator, List.length_append]
    exact Nat.le_add_right _ _
  present := h.present
  current hawaits event hevent := by
    have hold := h.current hawaits event hevent
    simp only [Scheduler.unregisterGenerator, GeneratorHub.unregisterGenerator, sinceEvaluated]
    rw [h.sinceEvaluated_concat, lastRegistration_concat, UnorderedMap.lookup_erase_eq,
      registrationFrom]
    by_cases hid : id = event.generatorId
    · rw [if_pos hid.symm, if_pos hid, Option.some_or]
      exact iff_of_true rfl rfl
    · rw [if_neg (Ne.symm hid), if_neg hid, Option.none_or]
      exact hold

/-- The pop of the first slot and the push of the next event. -/
theorem isFront_handle {grow : Nat → Nat} {curEvent popped : VhalEvent} {front : Option VhalEvent}
    (hfront : IsFront (s.hub.mEventQueue.erase popped) front) :
    IsFront (s.handle grow curEvent popped front).hub.mEventQueue
      (s.handle grow curEvent popped front).front := by
  obtain ⟨hhub, -, -, -, hnew⟩ := handle_fields grow curEvent popped front s
  rw [hhub, hnew]
  simp only [GeneratorHub.handlePopped]
  cases s.hub.nextEvent curEvent.generatorId with
  | none => exact hfront
  | some next => exact isFront_push hfront

/-- Handling an event delivers it, whichever event is popped. -/
theorem log_handlePopped (curEvent popped : VhalEvent) (s : GeneratorHub) :
    (s.handlePopped curEvent popped).log = s.log ++ [.delivered curEvent] := by
  simp only [GeneratorHub.handlePopped, GeneratorHub.handleEvent]
  split
  · rfl
  · split
    · rfl
    · rfl

/-- Every step leaves a soonest event in the first slot. -/
theorem Sound.step {grow : Nat → Nat} {t : Scheduler} {event : SchedulerEvent} (h : s.Sound)
    (hstep : SchedulerStep grow s event t) : t.Sound := by
  cases hstep with
  | tick _ => exact ⟨h.front, h.evaluated, h.present, h.current⟩
  | registerGenerator _ => exact h.registerGenerator _ _
  | unregisterGenerator _ => exact h.unregisterGenerator _
  | shutDown _ => exact ⟨h.front, h.evaluated, h.present, h.current⟩
  | evaluate _ _ hpop =>
      refine sound_awaitFront (hpop.isFront h.front) (Nat.le_refl _) fun event hevent => ?_
      simp only [sinceEvaluated, List.drop_length]
      exact iff_of_false (hpop.current event hevent) nofun
  | awake hthread _ _ =>
      refine sound_awaitFront h.front h.evaluated (h.current ?_)
      rw [hthread]
      rfl
  | notified _ =>
      refine ⟨h.front, h.evaluated, fun _ hawaits => ?_, nofun⟩
      rcases hawaits with ⟨_, hawaits⟩ | hawaits
      · cases hawaits
      · cases hawaits
  | @timeout curEvent deadline hthread _ =>
      refine ⟨h.front, h.evaluated, fun _ _ => h.present curEvent (Or.inl ⟨deadline, hthread⟩),
        fun _ => h.current ?_⟩
      rw [hthread]
      rfl
  | @handle curEvent event popped front _ _ _ hfront =>
      obtain ⟨hhub, hthread, -, hevaluated, -⟩ := handle_fields grow event popped front s
      refine ⟨isFront_handle hfront, ?_, fun _ hawaits => ?_, fun hawaits => ?_⟩
      · rw [hhub, hevaluated, log_handlePopped, List.length_append]
        exact h.evaluated.trans (Nat.le_add_right _ _)
      · rw [hthread] at hawaits
        rcases hawaits with ⟨_, hawaits⟩ | hawaits
        · cases hawaits
        · cases hawaits
      · rw [hthread] at hawaits
        cases hawaits
  | readInvalid _ _ | quit _ _ =>
      refine ⟨h.front, h.evaluated, fun _ hawaits => ?_, nofun⟩
      rcases hawaits with ⟨_, hawaits⟩ | hawaits
      · cases hawaits
      · cases hawaits

theorem sound_of_path {grow : Nat → Nat} {events : List SchedulerEvent}
    (h : Path (SchedulerStep grow) {} events s) : s.Sound :=
  h.invariant sound_start fun _ _ _ hs hstep => hs.step hstep

end Sound

end Scheduler

end VhalCore.Generators
