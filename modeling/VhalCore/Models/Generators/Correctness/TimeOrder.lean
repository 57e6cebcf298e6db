import VhalCore.Models.Generators.Correctness.PoppedEvent

/-!
# The order of the delivered events

The timestamps of the delivered events do not go back if the generators keep their own order and
begin no earlier than the clock. This needs that a generator that overrides another one has no
event before the pending one, since its first event is dropped and the pending event is
delivered in its place; and that the reference of the thread is valid.
-/

namespace VhalCore.Generators

/-- The timestamps of the delivered events. -/
def deliveredTimes (log : List Action) : List Int :=
  log.filterMap fun
    | .delivered event => some (timeOf event)
    | _ => none

/-- The timestamps of a generator do not go back. -/
def FakeValueGenerator.Ordered (generator : FakeValueGenerator) : Prop :=
  ∀ call v w, generator call = some v → generator (call + 1) = some w →
    v.timestamp ≤ w.timestamp

namespace Scheduler

/-- A generator keeps its own order and begins no earlier than the clock. -/
def WellTimed (s : Scheduler) : SchedulerEvent → Prop
  | .registerGenerator _ generator =>
      generator.Ordered ∧ ∀ v, generator 0 = some v → s.clock ≤ v.timestamp
  | _ => True

/-- A generator that overrides another one has a pending event of its id no later than its second
one, and the thread handles an event only through a valid reference. -/
def KeepsOrder (s : Scheduler) : SchedulerEvent → Prop
  | .registerGenerator id generator =>
      s.hub.mGenerators.lookup id ≠ none → generator 0 ≠ none →
        ∀ w, generator 1 = some w → ∃ event ∈ s.hub.mEventQueue,
          event.generatorId = id ∧ timeOf event ≤ w.timestamp
  | .thread => ∀ curEvent, s.thread = .handling curEvent → curEvent = s.vector
  | _ => True

/-- Nothing was delivered that is later than the clock or an event in the queue, and every
generator has an event in the queue no later than its next one. -/
structure InTime (s : Scheduler) : Prop where
  sorted : (deliveredTimes s.hub.log).Pairwise (· ≤ ·)
  queued : ∀ t ∈ deliveredTimes s.hub.log, ∀ event ∈ s.hub.mEventQueue, t ≤ timeOf event
  past : ∀ t ∈ deliveredTimes s.hub.log, t ≤ s.clock
  ordered : ∀ id registered, s.hub.mGenerators.lookup id = some registered →
    registered.generator.Ordered
  pending : ∀ id registered, s.hub.mGenerators.lookup id = some registered →
    ∀ v, registered.generator registered.calls = some v → ∃ event ∈ s.hub.mEventQueue,
      event.generatorId = id ∧ timeOf event ≤ v.timestamp
  awaited : ∀ curEvent deadline, s.thread = .timedWait curEvent deadline →
    ∃ event, s.front = some event ∧ timeOf event ≤ deadline
  due : ∀ curEvent, s.thread = .handling curEvent →
    ∃ event, s.front = some event ∧ timeOf event ≤ s.clock

/-- A new scheduler is in time. -/
theorem inTime_start : InTime {} where
  sorted := .nil
  queued _ h := absurd h List.not_mem_nil
  past _ h := absurd h List.not_mem_nil
  ordered _ _ h := nomatch h
  pending _ _ h := nomatch h
  awaited _ _ h := nomatch h
  due _ h := nomatch h

theorem deliveredTimes_concat (log : List Action) (a : Action) :
    deliveredTimes (log ++ [a]) = deliveredTimes log ++ deliveredTimes [a] :=
  List.filterMap_append

variable {grow : Nat → Nat} {s t : Scheduler} {event : SchedulerEvent}

/-- Waiting for the first event is defined. -/
theorem thread_awaitFront (s : Scheduler) : s.awaitFront.thread ≠ .undefined := by
  rcases s.awaitFront_cases with ⟨-, heq⟩ | ⟨_, -, ⟨-, heq⟩ | ⟨-, heq⟩⟩
  · rw [heq]
    exact nofun
  · rw [heq]
    exact nofun
  · rw [heq]
    exact nofun

/-- The thread looks at the soonest event. -/
theorem InTime.awaitFront (h : s.InTime) : s.awaitFront.InTime := by
  rcases s.awaitFront_cases with ⟨-, heq⟩ | ⟨event, hsome, ⟨-, heq⟩ | ⟨hdue, heq⟩⟩
  · rw [heq]
    exact ⟨h.sorted, h.queued, h.past, h.ordered, h.pending, nofun, nofun⟩
  · rw [heq]
    refine ⟨h.sorted, h.queued, h.past, h.ordered, h.pending, ?_, nofun⟩
    rintro _ _ ⟨⟩
    exact ⟨event, hsome, le_refl _⟩
  · rw [heq]
    exact ⟨h.sorted, h.queued, h.past, h.ordered, h.pending, nofun,
      fun _ _ => ⟨event, hsome, hdue⟩⟩

/-- The pop of events without a generator. -/
theorem InTime.dropStale (h : s.InTime) {q : Multiset VhalEvent} {front : Option VhalEvent}
    (hpop : PopStale s.hub.IsStale s.hub.mEventQueue s.front q front) (n : Nat) :
    Scheduler.InTime { s with
      hub := { s.hub with mEventQueue := q }
      front := front
      thread := .unlocked
      evaluated := n } where
  sorted := h.sorted
  queued t ht event hevent := h.queued t ht event (hpop.mem_of_mem hevent)
  past := h.past
  ordered := h.ordered
  pending id registered hregistered v hv := by
    obtain ⟨event, hmem, hid, hle⟩ := h.pending id registered hregistered v hv
    refine ⟨event, hpop.mem hmem fun hstale => ?_, hid, hle⟩
    rw [GeneratorHub.IsStale, hid, hregistered] at hstale
    cases hstale
  awaited := nofun
  due := nofun

/-- A push leaves an event in the first slot that is no later. -/
theorem pushedFront_le (event front : VhalEvent) :
    timeOf (pushedFront event (some front)) ≤ timeOf front := by
  rw [pushedFront]
  split
  · next hsooner => exact hsooner.le
  · exact le_refl _

/-- A registered generator that begins no earlier than the clock comes after all that was
delivered. -/
theorem InTime.registerGenerator (h : s.InTime) {id : Int} {generator : FakeValueGenerator}
    (htimed : s.WellTimed (.registerGenerator id generator))
    (hkeeps : s.KeepsOrder (.registerGenerator id generator)) :
    (s.registerGenerator grow id generator).InTime := by
  cases hv : generator 0 with
  | none =>
      rw [registerGenerator_of_none hv]
      exact h
  | some v =>
      obtain ⟨hordered, hfirst⟩ := htimed
      obtain ⟨hhub, hthread, hclock, -, hfront⟩ := registerGenerator_of_some grow id hv s
      have hqueue := s.hub.mEventQueue_registerGenerator hv id
      have hlookup (other : Int) := s.hub.lookup_registerGenerator hv id other
      have hlog : deliveredTimes (s.hub.registerGenerator id generator).log =
          deliveredTimes s.hub.log := by
        rw [s.hub.log_registerGenerator hv]
        exact (deliveredTimes_concat _ _).trans (List.append_nil _)
      have hkept {event : VhalEvent} (hmem : event ∈ s.hub.mEventQueue) :
          event ∈ (s.hub.registerGenerator id generator).mEventQueue := by
        rw [hqueue]
        split
        · exact Multiset.mem_cons_of_mem hmem
        · exact hmem
      have hsooner {event : VhalEvent} (hold : s.front = some event) :
          ∃ front, (s.registerGenerator grow id generator).front = some front ∧
            timeOf front ≤ timeOf event := by
        rw [hfront, hold]
        split
        · exact ⟨_, rfl, pushedFront_le _ event⟩
        · exact ⟨event, rfl, le_refl _⟩
      refine ⟨?_, fun t ht event hevent => ?_, fun t ht => ?_, fun id' registered hid' => ?_,
        fun id' registered hid' w hw => ?_, fun curEvent deadline hawaits => ?_,
        fun curEvent hawaits => ?_⟩
      · rw [hhub, hlog]
        exact h.sorted
      · rw [hhub, hlog] at ht
        rw [hhub, hqueue] at hevent
        split at hevent
        · rcases Multiset.mem_cons.mp hevent with rfl | hold
          · exact (h.past t ht).trans (hfirst v hv)
          · exact h.queued t ht event hold
        · exact h.queued t ht event hevent
      · rw [hhub, hlog] at ht
        rw [hclock]
        exact h.past t ht
      · rw [hhub, hlookup] at hid'
        split at hid'
        · cases hid'
          exact hordered
        · exact h.ordered id' registered hid'
      · rw [hhub, hlookup] at hid'
        rw [hhub]
        split at hid'
        · next heq =>
          cases hid'
          by_cases hnew : s.hub.mGenerators.lookup id = none
          · refine ⟨⟨id, v, s.hub.registrations⟩, ?_, heq.symm, hordered 0 v w hv hw⟩
            rw [hqueue, if_pos hnew]
            exact Multiset.mem_cons_self _ _
          · obtain ⟨event, hmem, hid, hle⟩ := hkeeps hnew (hv ▸ Option.some_ne_none v) w hw
            exact ⟨event, hkept hmem, hid.trans heq.symm, hle⟩
        · obtain ⟨event, hmem, hid, hle⟩ := h.pending id' registered hid' w hw
          exact ⟨event, hkept hmem, hid, hle⟩
      · rw [hthread] at hawaits
        obtain ⟨event, hold, hle⟩ := h.awaited curEvent deadline hawaits
        obtain ⟨front, hnew, hsooner⟩ := hsooner hold
        exact ⟨front, hnew, hsooner.trans hle⟩
      · rw [hthread] at hawaits
        obtain ⟨event, hold, hle⟩ := h.due curEvent hawaits
        obtain ⟨front, hnew, hsooner⟩ := hsooner hold
        exact ⟨front, hnew, hclock ▸ hsooner.trans hle⟩

/-- Unregistering a generator keeps the scheduler in time. -/
theorem InTime.unregisterGenerator (h : s.InTime) (id : Int) :
    (s.unregisterGenerator id).InTime := by
  have hlog : deliveredTimes (s.unregisterGenerator id).hub.log = deliveredTimes s.hub.log :=
    (deliveredTimes_concat _ _).trans (List.append_nil _)
  have hlookup {id' : Int} {registered : Registered}
      (hid' : (s.unregisterGenerator id).hub.mGenerators.lookup id' = some registered) :
      s.hub.mGenerators.lookup id' = some registered := by
    have hold := (UnorderedMap.lookup_erase_eq s.hub.mGenerators id id').symm.trans hid'
    split at hold
    · cases hold
    · exact hold
  exact ⟨hlog ▸ h.sorted, hlog ▸ h.queued, hlog ▸ h.past,
    fun id' registered hid' => h.ordered id' registered (hlookup hid'),
    fun id' registered hid' => h.pending id' registered (hlookup hid'), h.awaited, h.due⟩

/-- A generator without a next event is unregistered. -/
theorem handlePopped_of_none {curEvent : VhalEvent} {hub : GeneratorHub} (popped : VhalEvent)
    (h : hub.nextEvent curEvent.generatorId = none) :
    (hub.handlePopped curEvent popped).mEventQueue = hub.mEventQueue.erase popped ∧
      (hub.handlePopped curEvent popped).mGenerators =
        hub.mGenerators.erase curEvent.generatorId := by
  simp only [GeneratorHub.handlePopped, h, true_and]
  rw [GeneratorHub.nextEvent] at h
  rw [GeneratorHub.handleEvent]
  cases hlookup : hub.mGenerators.lookup curEvent.generatorId with
  | none => rfl
  | some registered =>
      rw [hlookup] at h
      have hended : registered.generator registered.calls = none := Option.map_eq_none_iff.mp h
      simp only [hended]

/-- The next event of a generator is pushed. -/
theorem handlePopped_of_some {curEvent next : VhalEvent} {hub : GeneratorHub} (popped : VhalEvent)
    (h : hub.nextEvent curEvent.generatorId = some next) :
    ∃ registered, hub.mGenerators.lookup curEvent.generatorId = some registered ∧
      registered.generator registered.calls = some next.val ∧
      next.generatorId = curEvent.generatorId ∧
      (hub.handlePopped curEvent popped).mEventQueue = next ::ₘ hub.mEventQueue.erase popped ∧
      (hub.handlePopped curEvent popped).mGenerators =
        hub.mGenerators.insert curEvent.generatorId
          { registered with calls := registered.calls + 1 } := by
  simp only [GeneratorHub.handlePopped, h, true_and]
  rw [GeneratorHub.nextEvent] at h
  rw [GeneratorHub.handleEvent]
  cases hlookup : hub.mGenerators.lookup curEvent.generatorId with
  | none =>
      rw [hlookup] at h
      cases h
  | some registered =>
      rw [hlookup] at h
      obtain ⟨val, hval, rfl⟩ := Option.map_eq_some_iff.mp h
      exact ⟨registered, rfl, hval, rfl, by simp only [hval]⟩

/-- The handling of the soonest event, which is due, in terms of the queue and the generators that
it leaves. -/
theorem InTime.handled (h : s.InTime) {curEvent : VhalEvent} {front : Option VhalEvent}
    (hsoonest : IsQueueTop timeOf s.hub.mEventQueue curEvent) (hdue : timeOf curEvent ≤ s.clock)
    (hqueued : ∀ event ∈ (s.hub.handlePopped curEvent curEvent).mEventQueue,
      timeOf curEvent ≤ timeOf event)
    (hordered : ∀ id registered,
      (s.hub.handlePopped curEvent curEvent).mGenerators.lookup id = some registered →
      registered.generator.Ordered)
    (hpending : ∀ id registered,
      (s.hub.handlePopped curEvent curEvent).mGenerators.lookup id = some registered →
      ∀ v, registered.generator registered.calls = some v →
      ∃ event ∈ (s.hub.handlePopped curEvent curEvent).mEventQueue,
        event.generatorId = id ∧ timeOf event ≤ v.timestamp) :
    (s.handle grow curEvent curEvent front).InTime := by
  obtain ⟨hhub, hthread, hclock, -, -⟩ := handle_fields grow curEvent curEvent front s
  have hlog : deliveredTimes (s.hub.handlePopped curEvent curEvent).log =
      deliveredTimes s.hub.log ++ [timeOf curEvent] := by
    rw [log_handlePopped]
    exact deliveredTimes_concat _ _
  have hlast : ∀ t ∈ deliveredTimes s.hub.log, t ≤ timeOf curEvent := fun t ht =>
    h.queued t ht curEvent hsoonest.1
  have hbefore : ∀ t ∈ deliveredTimes s.hub.log ++ [timeOf curEvent], t ≤ timeOf curEvent := by
    intro t ht
    rcases List.mem_append.mp ht with ht | ht
    · exact hlast t ht
    · exact (List.mem_singleton.mp ht).le
  refine ⟨?_, ?_, ?_, by rwa [hhub], by rwa [hhub], ?_, ?_⟩
  · rw [hhub, hlog]
    refine List.pairwise_append.mpr ⟨h.sorted, List.pairwise_singleton _ _, ?_⟩
    intro t ht u hu
    rw [List.mem_singleton.mp hu]
    exact hlast t ht
  · rw [hhub, hlog]
    exact fun t ht event hevent => (hbefore t ht).trans (hqueued event hevent)
  · rw [hhub, hlog, hclock]
    exact fun t ht => (hbefore t ht).trans hdue
  · rw [hthread]
    rintro _ _ ⟨⟩
  · rw [hthread]
    rintro _ ⟨⟩

/-- Another generator keeps its event in the queue. -/
theorem exists_mem_erase {queue : Multiset VhalEvent} {curEvent : VhalEvent} {id time : Int}
    (hid : id ≠ curEvent.generatorId)
    (hold : ∃ event ∈ queue, event.generatorId = id ∧ timeOf event ≤ time) :
    ∃ event ∈ queue.erase curEvent, event.generatorId = id ∧ timeOf event ≤ time := by
  obtain ⟨event, hevent, rfl, hle⟩ := hold
  refine ⟨event, (Multiset.mem_erase_of_ne ?_).mpr hevent, rfl, hle⟩
  rintro rfl
  exact hid rfl

/-- The soonest event is due and comes after all that was delivered, and the next event of its
generator comes after it. -/
theorem InTime.handle (h : s.InTime) {curEvent : VhalEvent} {front : Option VhalEvent}
    (hsoonest : IsQueueTop timeOf s.hub.mEventQueue curEvent)
    (hdue : timeOf curEvent ≤ s.clock) :
    (s.handle grow curEvent curEvent front).InTime := by
  have hleft : ∀ event ∈ s.hub.mEventQueue.erase curEvent, timeOf curEvent ≤ timeOf event :=
    fun event hevent => hsoonest.2 event (Multiset.mem_of_mem_erase hevent)
  cases hnext : s.hub.nextEvent curEvent.generatorId with
  | none =>
      obtain ⟨hqueue, hgenerators⟩ := handlePopped_of_none curEvent hnext
      have hlookup {id : Int} {registered : Registered}
          (hid : (s.hub.handlePopped curEvent curEvent).mGenerators.lookup id = some registered) :
          id ≠ curEvent.generatorId ∧ s.hub.mGenerators.lookup id = some registered := by
        rw [hgenerators, UnorderedMap.lookup_erase_eq] at hid
        split at hid
        · cases hid
        · next hne => exact ⟨hne, hid⟩
      refine h.handled hsoonest hdue (by rwa [hqueue])
        (fun id registered hid => h.ordered id registered (hlookup hid).2)
        fun id registered hid v hv => ?_
      obtain ⟨hne, hold⟩ := hlookup hid
      rw [hqueue]
      exact exists_mem_erase hne (h.pending id registered hold v hv)
  | some next =>
      obtain ⟨registered, hregistered, hval, hid, hqueue, hgenerators⟩ :=
        handlePopped_of_some curEvent hnext
      obtain ⟨earlier, hearlier, -, hle⟩ := h.pending _ registered hregistered next.val hval
      have hlater : timeOf curEvent ≤ timeOf next := (hsoonest.2 earlier hearlier).trans hle
      have hordered := h.ordered _ registered hregistered
      have hlookup {id : Int} {registered' : Registered}
          (hid : (s.hub.handlePopped curEvent curEvent).mGenerators.lookup id =
            some registered') :
          (id = curEvent.generatorId ∧
            registered' = { registered with calls := registered.calls + 1 }) ∨
          (id ≠ curEvent.generatorId ∧ s.hub.mGenerators.lookup id = some registered') := by
        rw [hgenerators, UnorderedMap.lookup_insert_eq] at hid
        split at hid
        · next heq => exact Or.inl ⟨heq, (Option.some.inj hid).symm⟩
        · next hne => exact Or.inr ⟨hne, hid⟩
      refine h.handled hsoonest hdue ?_ (fun id registered' hid => ?_)
        fun id registered' hid' v hv => ?_
      · rw [hqueue]
        intro event hevent
        rcases Multiset.mem_cons.mp hevent with rfl | hold
        · exact hlater
        · exact hleft event hold
      · rcases hlookup hid with ⟨-, rfl⟩ | ⟨-, hold⟩
        · exact hordered
        · exact h.ordered id registered' hold
      · rw [hqueue]
        rcases hlookup hid' with ⟨rfl, rfl⟩ | ⟨hne, hold⟩
        · exact ⟨next, Multiset.mem_cons_self _ _, hid, hordered _ _ _ hval hv⟩
        · obtain ⟨event, hevent, hevent', hle'⟩ :=
            exists_mem_erase hne (h.pending id registered' hold v hv)
          exact ⟨event, Multiset.mem_cons_of_mem hevent, hevent', hle'⟩

/-- A step that keeps the order reads through no invalid reference. -/
theorem defined_of_step (hsound : s.Sound) (hstep : SchedulerStep grow s event t)
    (hkeeps : s.KeepsOrder event) (hdefined : s.thread ≠ .undefined) : t.thread ≠ .undefined := by
  cases hstep with
  | tick _ => exact hdefined
  | @registerGenerator id generator _ =>
      cases hv : generator 0 with
      | none =>
          rw [registerGenerator_of_none hv]
          exact hdefined
      | some v =>
          rw [(registerGenerator_of_some grow id hv s).2.1]
          exact hdefined
  | unregisterGenerator _ => exact hdefined
  | shutDown _ => exact hdefined
  | evaluate _ _ _ => exact thread_awaitFront _
  | awake _ _ _ => exact thread_awaitFront s
  | notified _ => rintro ⟨⟩
  | timeout _ _ => rintro ⟨⟩
  | @handle curEvent event popped front _ _ _ _ =>
      rw [(handle_fields grow event popped front s).2.1]
      rintro ⟨⟩
  | @readInvalid curEvent hthread hread =>
      rw [read, if_pos (hkeeps curEvent hthread)] at hread
      exact absurd hread (hsound.present curEvent (Or.inr hthread))
  | quit _ _ => rintro ⟨⟩

/-- Every step that keeps the order preserves the invariant. -/
theorem InTime.step (h : s.InTime) (hsound : s.Sound) (hstep : SchedulerStep grow s event t)
    (htimed : s.WellTimed event) (hkeeps : s.KeepsOrder event) : t.InTime := by
  cases hstep with
  | @tick now hnow =>
      refine ⟨h.sorted, h.queued, fun t ht => (h.past t ht).trans hnow, h.ordered, h.pending,
        h.awaited, fun curEvent hawaits => ?_⟩
      obtain ⟨event, hfront, hle⟩ := h.due curEvent hawaits
      exact ⟨event, hfront, hle.trans hnow⟩
  | registerGenerator _ => exact h.registerGenerator htimed hkeeps
  | unregisterGenerator _ => exact h.unregisterGenerator _
  | shutDown _ => exact ⟨h.sorted, h.queued, h.past, h.ordered, h.pending, h.awaited, h.due⟩
  | @evaluate q front hthread _ hpop =>
      have hdropped := h.dropStale hpop s.hub.log.length
      rw [← hthread] at hdropped
      exact hdropped.awaitFront
  | awake _ _ _ => exact h.awaitFront
  | notified _ =>
      exact ⟨h.sorted, h.queued, h.past, h.ordered, h.pending, by rintro _ _ ⟨⟩, by rintro _ ⟨⟩⟩
  | @timeout curEvent deadline hthread hclock =>
      refine ⟨h.sorted, h.queued, h.past, h.ordered, h.pending, by rintro _ _ ⟨⟩,
        fun _ _ => ?_⟩
      obtain ⟨event, hfront, hle⟩ := h.awaited curEvent deadline hthread
      exact ⟨event, hfront, hle.trans hclock⟩
  | @handle curEvent event popped front hthread hread hpop _ =>
      rw [read, if_pos (hkeeps curEvent hthread), hpop, Option.some.injEq] at hread
      cases hread
      have hsoonest := hsound.front
      rw [hpop] at hsoonest
      obtain ⟨event', hfront, hdue⟩ := h.due curEvent hthread
      rw [hpop, Option.some.injEq] at hfront
      cases hfront
      exact h.handle hsoonest hdue
  | readInvalid _ _ =>
      exact ⟨h.sorted, h.queued, h.past, h.ordered, h.pending, by rintro _ _ ⟨⟩, by rintro _ ⟨⟩⟩
  | quit _ _ =>
      exact ⟨h.sorted, h.queued, h.past, h.ordered, h.pending, by rintro _ _ ⟨⟩, by rintro _ ⟨⟩⟩

/-- In every run that keeps the order the timestamps of the delivered events do not go back, and
every reference that is read is valid. -/
theorem deliveredTimes_sorted {events : List SchedulerEvent}
    (h : Path (fun s event t => SchedulerStep grow s event t ∧ s.WellTimed event ∧
      s.KeepsOrder event) {} events s) :
    (deliveredTimes s.hub.log).Pairwise (· ≤ ·) ∧ s.thread ≠ .undefined := by
  have hinvariant : s.Sound ∧ s.InTime ∧ s.thread ≠ .undefined := by
    refine h.invariant (P := fun s => s.Sound ∧ s.InTime ∧ s.thread ≠ .undefined)
      ⟨sound_start, inTime_start, nofun⟩
      fun t event u ⟨hsound, htime, hdefined⟩ ⟨hstep, htimed, hkeeps⟩ =>
        ⟨hsound.step hstep, htime.step hsound hstep htimed hkeeps, ?_⟩
    exact defined_of_step hsound hstep hkeeps hdefined
  exact ⟨hinvariant.2.1.sorted, hinvariant.2.2⟩

/-- Two events are ordered if their timestamps are. -/
theorem ordered_eventsAt {first second : Int} (h : first ≤ second) :
    (eventsAt [first, second]).Ordered := by
  intro call v w hv hw
  match call with
  | 0 =>
      cases hv
      cases hw
      exact h
  | 1 => cases hw
  | call + 2 => cases hv

/-- The hub with one generator, after its first event was delivered. -/
def afterFirst (generator : FakeValueGenerator) (log : List Action) (registration : Nat)
    (clock : Int) : Scheduler where
  hub := {
    mEventQueue := {⟨7, { prop := 0x11400400, timestamp := 20 }, registration⟩}
    mGenerators := Finmap.singleton 7 ⟨generator, 2, registration⟩
    registrations := registration + 1
    log := log }
  front := some ⟨7, { prop := 0x11400400, timestamp := 20 }, registration⟩
  capacity := 1
  vector := 1
  clock := clock
  evaluated := registration + 1

/-- An event of a generator. -/
def eventAt (id timestamp : Int) (registration : Nat) : VhalEvent :=
  ⟨id, { prop := 0x11400400, timestamp }, registration⟩

/-- The hub with the generators of two ids, of which that of the first id has overridden another
one, after some events were delivered. -/
def overridden (mGenerators : UnorderedMap Int Registered) (next front : VhalEvent)
    (delivered : List VhalEvent) (clock : Int) : Scheduler where
  hub := {
    mEventQueue := {next, front}
    mGenerators := mGenerators
    registrations := 3
    log := [.registered 7 (eventsAt [10, 30]) 0, .registered 8 (eventsAt [20, 40]) 1,
      .registered 7 (eventsAt [15, 25]) 2] ++ delivered.map .delivered }
  front := some front
  capacity := 2
  vector := 2
  clock := clock
  evaluated := 2 + delivered.length

theorem isFront_singleton (event : VhalEvent) : IsFront {event} (some event) :=
  ⟨Multiset.mem_singleton_self event, fun _ hother =>
    (congrArg timeOf (Multiset.mem_singleton.mp hother)).ge⟩

/-- The events of two generators, of which one is overridden, are delivered in their order. -/
theorem twoGenerators_sorted : ∃ events s,
    Path (fun s event t => SchedulerStep doubled s event t ∧ s.WellTimed event ∧
      s.KeepsOrder event) {} events s ∧
    deliveredTimes s.hub.log = [10, 20, 25] ∧ (deliveredTimes s.hub.log).Pairwise (· ≤ ·) := by
  have hpath : Path (fun s event t => SchedulerStep doubled s event t ∧ s.WellTimed event ∧
      s.KeepsOrder event) {} [.registerGenerator 7 (eventsAt [10, 30])] _ :=
    .single ⟨.registerGenerator nofun, ⟨ordered_eventsAt (by decide), fun v hv => by
      cases hv
      decide⟩, fun hother => absurd rfl hother⟩
  have hpath := hpath.snoc ⟨@SchedulerStep.registerGenerator _ _ 8 (eventsAt [20, 40]) nofun,
    ⟨ordered_eventsAt (by decide), fun v hv => by
      cases hv
      decide⟩, fun hother => absurd rfl hother⟩
  have hpath := hpath.snoc ⟨@SchedulerStep.registerGenerator _ _ 7 (eventsAt [15, 25]) nofun,
    ⟨ordered_eventsAt (by decide), fun v hv => by
      cases hv
      decide⟩, fun _ _ w hw => ⟨eventAt 7 10 0, by decide, rfl, by cases hw; decide⟩⟩
  have hpath := hpath.snoc ⟨.evaluate rfl rfl (.stop nofun), trivial, nofun⟩
  have hpath := hpath.snoc ⟨@SchedulerStep.tick _ _ 10 (by decide), trivial, trivial⟩
  have hpath := hpath.snoc ⟨@SchedulerStep.timeout _ _ 2 10 rfl (by decide), trivial, nofun⟩
  have hpath := hpath.snoc ⟨@SchedulerStep.handle _ _ 2 _ _ (some (eventAt 8 20 1)) rfl rfl rfl
    (isFront_singleton _), trivial, fun | _, rfl => rfl⟩
  have hpath : Path _ _ _ (overridden
    ((Finmap.singleton 8 ⟨eventsAt [20, 40], 1, 1⟩).insert 7 ⟨eventsAt [15, 25], 2, 2⟩)
    (eventAt 7 25 2) (eventAt 8 20 1) [eventAt 7 10 0] 10) := hpath
  have hpath := hpath.snoc ⟨.evaluate rfl rfl (.stop nofun), trivial, nofun⟩
  have hpath := hpath.snoc ⟨@SchedulerStep.tick _ _ 20 (by decide), trivial, trivial⟩
  have hpath := hpath.snoc ⟨@SchedulerStep.timeout _ _ 2 20 rfl (by decide), trivial, nofun⟩
  have hpath := hpath.snoc ⟨@SchedulerStep.handle _ _ 2 _ _ (some (eventAt 7 25 2)) rfl rfl rfl
    (isFront_singleton _), trivial, fun | _, rfl => rfl⟩
  have hpath : Path _ _ _ (overridden
    ((Finmap.singleton 7 ⟨eventsAt [15, 25], 2, 2⟩).insert 8 ⟨eventsAt [20, 40], 2, 1⟩)
    (eventAt 8 40 1) (eventAt 7 25 2) [eventAt 7 10 0, eventAt 8 20 1] 20) := hpath
  have hpath := hpath.snoc ⟨.evaluate rfl rfl (.stop nofun), trivial, nofun⟩
  have hpath := hpath.snoc ⟨@SchedulerStep.tick _ _ 25 (by decide), trivial, trivial⟩
  have hpath := hpath.snoc ⟨@SchedulerStep.timeout _ _ 2 25 rfl (by decide), trivial, nofun⟩
  have hpath := hpath.snoc ⟨@SchedulerStep.handle _ _ 2 _ _ (some (eventAt 8 40 1)) rfl rfl rfl
    (isFront_singleton _), trivial, fun | _, rfl => rfl⟩
  exact ⟨_, _, hpath, rfl, (deliveredTimes_sorted hpath).1⟩

/-- A generator is overridden by one with earlier events: its pending event is delivered first,
and the second event of the other one after it. -/
theorem overridden_not_sorted : ¬∀ events s,
    Path (fun s event t => SchedulerStep doubled s event t ∧ s.WellTimed event) {} events s →
      (deliveredTimes s.hub.log).Pairwise (· ≤ ·) := by
  intro hsortedAlways
  have hpath : Path (fun s event t => SchedulerStep doubled s event t ∧ s.WellTimed event) {}
      [.registerGenerator 7 (eventsAt [100, 100])] _ :=
    .single ⟨.registerGenerator nofun, ordered_eventsAt (by decide), fun v hv => by
      cases hv
      decide⟩
  have hpath := hpath.snoc ⟨@SchedulerStep.registerGenerator _ _ 7 (eventsAt [10, 20]) nofun,
    ordered_eventsAt (by decide), fun v hv => by
      cases hv
      decide⟩
  have hpath := hpath.snoc ⟨.evaluate rfl rfl (.stop nofun), trivial⟩
  have hpath := hpath.snoc ⟨@SchedulerStep.tick _ _ 100 (by decide), trivial⟩
  have hpath := hpath.snoc ⟨@SchedulerStep.timeout _ _ 1 100 rfl (by decide), trivial⟩
  have hpath := hpath.snoc ⟨@SchedulerStep.handle _ _ 1 _ _ none rfl rfl rfl rfl, trivial⟩
  have hpath : Path _ _ _ (afterFirst (eventsAt [10, 20])
    [.registered 7 (eventsAt [100, 100]) 0, .registered 7 (eventsAt [10, 20]) 1,
      .delivered ⟨7, { prop := 0x11400400, timestamp := 100 }, 0⟩] 1 100) := hpath
  have hpath := hpath.snoc ⟨.evaluate rfl rfl (.stop nofun), trivial⟩
  have hpath := hpath.snoc ⟨@SchedulerStep.handle _ _ 1 _ _ none rfl rfl rfl rfl, trivial⟩
  have hsorted := hsortedAlways _ _ hpath
  exact absurd hsorted (by decide)

end Scheduler

end VhalCore.Generators
