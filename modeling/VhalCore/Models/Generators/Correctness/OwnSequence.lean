import VhalCore.Models.Generators.Interpretation.Segments

/-!
# The sequence of a generator

While a generator is in force, the events delivered for its id are its own ones, in their order
and without a gap. This needs that a generator is accepted only for an id that has no event in
the queue. A generator that overrides another one loses its first event, and the pending event
of the other one is delivered in its place. A generator for an id with an event that was left
behind shares the id with that event.
-/

namespace VhalCore.Generators

namespace GeneratorHub

/-- What the hub promises: the events delivered for an id from the registration of a generator
up to the next registration or unregistration are its first ones, an event is delivered only
while its generator is in force, and the queue has one event of each registered id. -/
structure Faithful (s : GeneratorHub) : Prop where
  sequences : ∀ before id generator n during after,
    s.log = before ++ .registered id generator n :: (during ++ after) →
    (∀ a ∈ during, ¬a.Ends id) → IsInitialPart (deliveredOf id during) generator
  current : ∀ before event after, s.log = before ++ .delivered event :: after →
    ∃ earlier generator during,
      before = earlier ++ .registered event.generatorId generator event.registration :: during ∧
        ∀ a ∈ during, ¬a.Ends event.generatorId
  queued : ∀ id, s.mGenerators.lookup id ≠ none → (eventsOf id s.mEventQueue).card = 1

/-- A generator is accepted only for an id that has no event in the queue. -/
def Fresh (s : GeneratorHub) : HubEvent → Prop
  | .registerGenerator id generator => generator 0 ≠ none → eventsOf id s.mEventQueue = 0
  | _ => True

/-- A steady hub delivers the sequences of its generators. -/
theorem Steady.faithful {s : GeneratorHub} (h : s.Steady) : s.Faithful where
  sequences before id generator n during after hlog hduring := by
    have hown : OwnEvents (before ++ .registered id generator n :: during) := by
      have hall := h.ownEvents
      rw [hlog, ← List.cons_append, ← List.append_assoc] at hall
      exact hall.of_append
    exact hown.initialPart (inForce_of_registered hduring)
  current before event after hlog := by
    obtain ⟨t, hforce, hnumber, -⟩ := h.ownEvents before event after hlog
    obtain ⟨earlier, during, hbefore, hduring, -⟩ := exists_registered_of_inForce hforce
    exact ⟨earlier, t.generator, during, hnumber ▸ hbefore, hduring⟩
  queued id hid := by
    obtain ⟨registered, hlookup⟩ := Option.ne_none_iff_exists'.mp hid
    obtain ⟨t, v, hawaits⟩ := h.awaits id registered hlookup
    rw [hawaits.queued, Multiset.card_singleton]

/-- Every step without an override keeps the hub steady. -/
theorem Steady.step {s s' : GeneratorHub} {e : HubEvent} (h : s.Steady) (hstep : HubStep s e s')
    (hfresh : s.Fresh e) : s'.Steady := by
  cases hstep with
  | registerGenerator id generator => exact h.registerGenerator hfresh
  | unregisterGenerator id => exact h.unregisterGenerator id
  | wait hpop => exact h.dropStale hpop
  | handle hpop =>
      obtain ⟨htop, hcurrent⟩ := hpop.isQueueTop
      exact (h.dropStale hpop).handleEvent htop.1 hcurrent

theorem steady_of_path {events : List HubEvent} {s : GeneratorHub}
    (h : Path (fun s e s' => HubStep s e s' ∧ s.Fresh e) {} events s) : s.Steady :=
  h.invariant steady_empty fun _ _ _ hs hstep => hs.step hstep.1 hstep.2

/-- The other ids can be unregistered, one after another. -/
theorem exists_unregistered (id : Int) (ids : List Int) (hids : id ∉ ids) (s : GeneratorHub) :
    ∃ later t, Path HubStep s later t ∧ t.mEventQueue = s.mEventQueue ∧
      inForce id t.log = inForce id s.log ∧
      ∀ id', t.mGenerators.lookup id' =
        if id' ∈ ids then none else s.mGenerators.lookup id' := by
  induction ids generalizing s with
  | nil => exact ⟨[], s, .nil s, rfl, rfl, fun id' => by simp⟩
  | cons first ids ih =>
      have hfirst : id ≠ first := fun heq => hids (heq ▸ List.mem_cons_self ..)
      obtain ⟨later, t, hpath, hqueue, hforce, hlookup⟩ := ih
        (fun hmem => hids (List.mem_cons_of_mem _ hmem)) (s.unregisterGenerator first).2
      refine ⟨_, t, (Path.single (.unregisterGenerator first)).trans hpath, hqueue,
        hforce.trans (inForce_concat_of_ne hfirst _), fun id' => ?_⟩
      rw [hlookup id']
      simp only [GeneratorHub.unregisterGenerator, UnorderedMap.lookup_erase_eq, List.mem_cons]
      by_cases hid : id' = first
      · simp [hid]
      · simp [hid]

/-- All other generators can be unregistered. -/
theorem exists_alone (s : GeneratorHub) (id : Int) :
    ∃ later t, Path HubStep s later t ∧ t.mEventQueue = s.mEventQueue ∧
      inForce id t.log = inForce id s.log ∧
      t.mGenerators.lookup id = s.mGenerators.lookup id ∧
      ∀ id' ≠ id, t.mGenerators.lookup id' = none := by
  have hids : id ∉ (s.mGenerators.keys.erase id).toList := by simp
  obtain ⟨later, t, hpath, hqueue, hforce, hlookup⟩ := exists_unregistered id _ hids s
  refine ⟨later, t, hpath, hqueue, hforce, ?_, fun id' hne => ?_⟩
  · rw [hlookup id, if_neg hids]
  · rw [hlookup id']
    split
    · rfl
    · rename_i hnot
      simp only [Finset.mem_toList, Finset.mem_erase, not_and] at hnot
      have hkeys := hnot hne
      rw [UnorderedMap.mem_keys_iff] at hkeys
      exact Option.eq_none_iff_forall_not_mem.mpr fun v hv => hkeys ⟨v, hv⟩

/-- Handling an event delivers it. -/
theorem log_handleEvent (s : GeneratorHub) (curEvent : VhalEvent) :
    (s.handleEvent curEvent).log = s.log ++ [.delivered curEvent] := by
  simp only [handleEvent]
  split
  · rfl
  · split <;> rfl

/-- When only one id is registered and the queue has one event of it, this event is delivered
next. -/
theorem exists_handle {s : GeneratorHub} {id : Int} {curEvent : VhalEvent}
    (hevents : eventsOf id s.mEventQueue = {curEvent}) (hself : s.mGenerators.lookup id ≠ none)
    (hother : ∀ id' ≠ id, s.mGenerators.lookup id' = none) :
    ∃ t, HubStep s .handle t ∧ t.log = s.log ++ [.delivered curEvent] := by
  obtain ⟨hmem, hid⟩ := Multiset.mem_filter.mp
    (hevents ▸ Multiset.mem_singleton_self curEvent : curEvent ∈ eventsOf id s.mEventQueue)
  have hcurrent : ¬s.IsStale curEvent := by
    rw [IsStale, hid]
    exact hself
  have hstale : ∀ event ∈ s.mEventQueue, event ≠ curEvent → s.IsStale event := by
    intro event hevent hne
    by_cases heq : event.generatorId = id
    · have hin : event ∈ eventsOf id s.mEventQueue := Multiset.mem_filter.mpr ⟨hevent, heq⟩
      rw [hevents] at hin
      exact absurd (Multiset.mem_singleton.mp hin) hne
    · exact hother _ heq
  obtain ⟨q, hpop⟩ := exists_popWhile_of_unique timeOf hmem hcurrent hstale
  exact ⟨_, .handle hpop, log_handleEvent _ curEvent⟩

/-- The pending event of a generator that is overridden can be delivered after that. -/
theorem Steady.exists_overridden {s : GeneratorHub} (h : s.Steady) {id : Int}
    {registered : Registered} (hlookup : s.mGenerators.lookup id = some registered)
    {generator : FakeValueGenerator} (hfirst : generator 0 ≠ none) :
    ∃ later t, Path HubStep (s.registerGenerator id generator) later t ∧ ¬t.Faithful := by
  obtain ⟨v, hv⟩ := Option.ne_none_iff_exists'.mp hfirst
  obtain ⟨segment, w, hawaits⟩ := h.awaits id registered hlookup
  have hforce : inForce id (s.registerGenerator id generator).log =
      some ⟨generator, s.registrations, []⟩ := by
    rw [s.log_registerGenerator hv, inForce_concat, Action.next, if_pos rfl]
  have hqueue : (s.registerGenerator id generator).mEventQueue = s.mEventQueue := by
    rw [s.mEventQueue_registerGenerator hv, hlookup, if_neg (Option.some_ne_none _)]
  have hregistered : (s.registerGenerator id generator).mGenerators.lookup id ≠ none := by
    rw [s.lookup_registerGenerator hv, if_pos rfl]
    exact Option.some_ne_none _
  obtain ⟨later, t, hpath, htqueue, htforce, htself, htother⟩ :=
    exists_alone (s.registerGenerator id generator) id
  obtain ⟨u, hstep, hlog⟩ := exists_handle
    ((congrArg (eventsOf id) (htqueue.trans hqueue)).trans hawaits.queued)
    (htself ▸ hregistered) htother
  refine ⟨_, u, hpath.snoc hstep, fun hfaithful => ?_⟩
  obtain ⟨earlier, generator', during, hbefore, hduring⟩ := hfaithful.current t.log _ [] hlog
  have hold : inForce id (earlier ++ .registered id generator' registered.registration ::
      during) = some ⟨generator', registered.registration, deliveredOf id during⟩ :=
    inForce_of_registered hduring
  rw [← hbefore, htforce, hforce] at hold
  have hnumber := congrArg Segment.registration (Option.some.inj hold)
  have hless := h.numbers id registered hlookup
  simp only at hnumber
  omega

/-- A generator that is accepted for an id with an event in the queue can be seen to break the
promise. -/
theorem Steady.exists_not_faithful {s s' : GeneratorHub} {e : HubEvent} (h : s.Steady)
    (hstep : HubStep s e s') (hfresh : ¬s.Fresh e) :
    ∃ later t, Path HubStep s' later t ∧ ¬t.Faithful := by
  cases hstep with
  | unregisterGenerator id => exact absurd trivial hfresh
  | wait hpop => exact absurd trivial hfresh
  | handle hpop => exact absurd trivial hfresh
  | registerGenerator id generator =>
      obtain ⟨hfirst, hevents⟩ := Classical.not_imp.mp hfresh
      obtain ⟨v, hv⟩ := Option.ne_none_iff_exists'.mp hfirst
      rcases hlookup : s.mGenerators.lookup id with _ | registered
      · refine ⟨[], _, .nil _, fun hfaithful => hevents ?_⟩
        have hcard := hfaithful.queued id (by
          rw [s.lookup_registerGenerator hv, if_pos rfl]
          exact Option.some_ne_none _)
        rw [s.mEventQueue_registerGenerator hv, if_pos hlookup, eventsOf_cons, if_pos rfl,
          Multiset.card_cons] at hcard
        exact Multiset.card_eq_zero.mp (by omega)
      · exact h.exists_overridden hlookup hfirst

/-- In every run in which generators are accepted only for ids without an event in the queue the
hub keeps its promise. A step that accepts another one lets it be broken. -/
theorem delivers_own_sequence {events : List HubEvent} {s : GeneratorHub}
    (h : Path (fun s e s' => HubStep s e s' ∧ s.Fresh e) {} events s) :
    s.Faithful ∧ ∀ e s', HubStep s e s' → ¬s.Fresh e →
      ∃ later t, Path HubStep s' later t ∧ ¬t.Faithful := by
  have hsteady := steady_of_path h
  exact ⟨hsteady.faithful, fun _ _ hstep hfresh => hsteady.exists_not_faithful hstep hfresh⟩

/-- A reading of the gear. -/
def gear (value timestamp : Int) : VehiclePropValue :=
  { prop := 0x11400400, timestamp, value := { int32Values := [value] } }

/-- A generator with one event. -/
def once (v : VehiclePropValue) : FakeValueGenerator := fun call =>
  if call = 0 then some v else none

/-- A generator alone is handled as promised, and its override is not. -/
theorem gear_delivered_then_overridden :
    (∃ s, Path (fun s e s' => HubStep s e s' ∧ s.Fresh e) {}
        [.registerGenerator 7 (once (gear 4 1)), .handle] s ∧
      s.log = [.registered 7 (once (gear 4 1)) 0, .delivered ⟨7, gear 4 1, 0⟩] ∧ s.Faithful) ∧
    ∃ s s', Path (fun s e s' => HubStep s e s' ∧ s.Fresh e) {}
        [.registerGenerator 7 (once (gear 4 1))] s ∧
      HubStep s (.registerGenerator 7 (once (gear 8 2))) s' ∧
      ∃ later t, Path HubStep s' later t ∧ ¬t.Faithful := by
  have hfirst : Path (fun s e s' => HubStep s e s' ∧ GeneratorHub.Fresh s e) {}
      [.registerGenerator 7 (once (gear 4 1))]
      (registerGenerator 7 (once (gear 4 1)) {}) :=
    .single ⟨.registerGenerator 7 _, fun _ => rfl⟩
  constructor
  · have hpop : PopWhile timeOf (registerGenerator 7 (once (gear 4 1)) {}).IsStale
        (registerGenerator 7 (once (gear 4 1)) {}).mEventQueue
        {⟨7, gear 4 1, 0⟩} (some ⟨7, gear 4 1, 0⟩) :=
      .stop ⟨by decide, by decide⟩ nofun
    have hpath := hfirst.snoc ⟨.handle hpop, trivial⟩
    exact ⟨_, hpath, rfl, (delivers_own_sequence hpath).1⟩
  · refine ⟨_, _, hfirst, .registerGenerator 7 _, ?_⟩
    refine (delivers_own_sequence hfirst).2 _ _ (.registerGenerator 7 _) fun hfresh => ?_
    exact absurd (hfresh nofun) (by decide)

/-- A generator is overridden by another one, whose first event is lost. Instead of it the event
of the first generator is delivered. -/
theorem overridden_gear_delivered : ¬∀ events s, Path HubStep {} events s → s.Faithful := by
  intro hfaithful
  have hpath := Path.single (HubStep.registerGenerator (s := {}) 7 (once (gear 4 1)))
  have hpath := hpath.snoc (.registerGenerator 7 (once (gear 8 2)))
  have hpop : PopWhile timeOf
      (registerGenerator 7 (once (gear 8 2)) (registerGenerator 7 (once (gear 4 1)) {})).IsStale
      (registerGenerator 7 (once (gear 8 2))
        (registerGenerator 7 (once (gear 4 1)) {})).mEventQueue
      {⟨7, gear 4 1, 0⟩} (some ⟨7, gear 4 1, 0⟩) :=
    .stop ⟨by decide, by decide⟩ nofun
  have hpath := hpath.snoc (.handle hpop)
  obtain ⟨earlier, generator, during, hbefore, hduring⟩ := (hfaithful _ _ hpath).current
    [.registered 7 (once (gear 4 1)) 0, .registered 7 (once (gear 8 2)) 1]
    ⟨7, gear 4 1, 0⟩ [] rfl
  have hforce : inForce 7 (earlier ++ .registered 7 generator 0 :: during) =
      some ⟨generator, 0, deliveredOf 7 during⟩ := inForce_of_registered hduring
  rw [← hbefore] at hforce
  have hnumber := congrArg Segment.registration (Option.some.inj hforce)
  cases hnumber

end GeneratorHub

end VhalCore.Generators
