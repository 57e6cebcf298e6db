import VhalCore.Models.Generators.Native.GeneratorHub

/-!
# The generator in force

The log of a run says for each id which generator is in force and what has been delivered for
the id since it was registered. As long as no generator is accepted for an id that has an event
in the queue, each registered id has one event in the queue, and it is the next one of the
generator in force.
-/

namespace VhalCore.Generators

/-- The generator in force for an id, the number of its registration and the values delivered
for the id since then. -/
structure Segment where
  generator : FakeValueGenerator
  registration : Nat
  delivered : List VehiclePropValue

/-- The action registers or unregisters a generator of the id. -/
def Action.Ends (id : Int) : Action → Prop
  | .registered id' _ _ | .unregistered id' => id' = id
  | .delivered _ => False

/-- The value that an action delivers for an id. -/
def Action.value (id : Int) : Action → Option VehiclePropValue
  | .delivered event => if event.generatorId = id then some event.val else none
  | _ => none

/-- The values delivered for an id. -/
def deliveredOf (id : Int) (actions : List Action) : List VehiclePropValue :=
  actions.filterMap (Action.value id)

/-- One action changes the generator in force, and what it has delivered. -/
def Action.next (id : Int) (current : Option Segment) : Action → Option Segment
  | .registered id' generator n => if id' = id then some ⟨generator, n, []⟩ else current
  | .unregistered id' => if id' = id then none else current
  | .delivered event =>
      if event.generatorId = id then
        current.map fun t => { t with delivered := t.delivered ++ [event.val] }
      else current

/-- The generator in force at the end of a log. -/
def inForce (id : Int) (log : List Action) : Option Segment := log.foldl (Action.next id) none

theorem inForce_concat (id : Int) (log : List Action) (a : Action) :
    inForce id (log ++ [a]) = a.next id (inForce id log) := by
  rw [inForce, List.foldl_append]
  rfl

/-- The id that an action is about. -/
def Action.about : Action → Int
  | .registered id _ _ | .unregistered id => id
  | .delivered event => event.generatorId

/-- An action leaves the generators of the other ids in force. -/
theorem inForce_concat_of_ne {id : Int} {a : Action} (h : id ≠ a.about) (log : List Action) :
    inForce id (log ++ [a]) = inForce id log := by
  rw [inForce_concat]
  cases a <;> exact if_neg (Ne.symm h)

theorem deliveredOf_concat (id : Int) (actions : List Action) (a : Action) :
    deliveredOf id (actions ++ [a]) = deliveredOf id actions ++ (a.value id).toList := by
  rw [deliveredOf, List.filterMap_append]
  rfl

/-- An action that ends nothing may deliver a value. -/
theorem Action.next_of_not_ends {id : Int} {a : Action} (h : ¬a.Ends id)
    (current : Option Segment) :
    a.next id current = current.map fun t =>
      { t with delivered := t.delivered ++ (a.value id).toList } := by
  cases a with
  | registered id' generator n | unregistered id' =>
      rw [Action.next, if_neg (show ¬id' = id from h)]
      cases current <;> simp [Action.value]
  | delivered event =>
      rw [Action.next, Action.value]
      split <;> cases current <;> simp

/-- After its registration a generator is in force until the next action that ends it. -/
theorem inForce_of_registered {id n : _} {generator : FakeValueGenerator}
    {before after : List Action} (h : ∀ a ∈ after, ¬a.Ends id) :
    inForce id (before ++ .registered id generator n :: after) =
      some ⟨generator, n, deliveredOf id after⟩ := by
  induction after using List.reverseRecOn with
  | nil =>
      rw [inForce_concat, Action.next, if_pos rfl]
      rfl
  | append_singleton after a ih =>
      have hrest := ih fun b hb => h b (List.mem_append_left _ hb)
      rw [← List.cons_append, ← List.append_assoc, inForce_concat, hrest,
        Action.next_of_not_ends (h a (List.mem_append_right _ (List.mem_singleton_self a))),
        deliveredOf_concat]
      rfl

/-- The generator in force was registered, and no action has ended it. -/
theorem exists_registered_of_inForce {id : Int} {log : List Action} {t : Segment}
    (h : inForce id log = some t) : ∃ before after,
      log = before ++ .registered id t.generator t.registration :: after ∧
        (∀ a ∈ after, ¬a.Ends id) ∧ deliveredOf id after = t.delivered := by
  induction log using List.reverseRecOn generalizing t with
  | nil => cases h
  | append_singleton log a ih =>
      rw [inForce_concat] at h
      by_cases hends : a.Ends id
      · cases a with
        | registered id' generator n =>
            obtain rfl : id' = id := hends
            rw [Action.next, if_pos rfl] at h
            cases h
            exact ⟨log, [], rfl, by simp, rfl⟩
        | unregistered id' =>
            rw [Action.next, if_pos (show id' = id from hends)] at h
            cases h
        | delivered event => cases hends
      · rw [Action.next_of_not_ends hends] at h
        obtain ⟨t', hlog, rfl⟩ := Option.map_eq_some_iff.mp h
        obtain ⟨before, after, rfl, hkeep, hdelivered⟩ := ih hlog
        refine ⟨before, after ++ [a], by simp, ?_, ?_⟩
        · intro b hb
          rcases List.mem_append.mp hb with hb | hb
          · exact hkeep b hb
          · rw [List.mem_singleton.mp hb]
            exact hends
        · rw [deliveredOf_concat, hdelivered]

/-- The event is the next one of the generator in force. -/
def IsNext (log : List Action) (event : VhalEvent) : Prop :=
  ∃ t, inForce event.generatorId log = some t ∧ t.registration = event.registration ∧
    t.generator t.delivered.length = some event.val

/-- Every delivered event was the next one of the generator in force at its time. -/
def OwnEvents (log : List Action) : Prop :=
  ∀ before event after, log = before ++ .delivered event :: after → IsNext before event

/-- A delivered event that is the next of its generator keeps the log one of own events. -/
theorem OwnEvents.concat {log : List Action} (h : OwnEvents log) {a : Action}
    (ha : ∀ event, a = .delivered event → IsNext log event) : OwnEvents (log ++ [a]) := by
  intro before event after hsplit
  rcases split_snoc hsplit with ⟨after', -, hlog⟩ | ⟨-, rfl, hevent⟩
  · exact h before event after' hlog
  · exact ha event hevent.symm

theorem OwnEvents.of_append {log more : List Action} (h : OwnEvents (log ++ more)) :
    OwnEvents log := by
  rintro before event after rfl
  exact h before event (after ++ more) (by simp)

/-- The values are the results of the first calls to a generator. -/
def IsInitialPart (values : List VehiclePropValue) (generator : FakeValueGenerator) : Prop :=
  values.map some = (List.range values.length).map generator

theorem IsInitialPart.concat {values : List VehiclePropValue} {generator : FakeValueGenerator}
    (h : IsInitialPart values generator) {v : VehiclePropValue}
    (hv : generator values.length = some v) : IsInitialPart (values ++ [v]) generator := by
  rw [IsInitialPart, List.map_append, h, List.length_append, List.length_singleton,
    List.range_succ, List.map_append, List.map_singleton, List.map_singleton, hv]

/-- What is delivered while a generator is in force are its first events. -/
theorem OwnEvents.initialPart {id : Int} {log : List Action} {t : Segment} (h : OwnEvents log)
    (ht : inForce id log = some t) : IsInitialPart t.delivered t.generator := by
  induction log using List.reverseRecOn generalizing t with
  | nil => cases ht
  | append_singleton log a ih =>
      rw [inForce_concat] at ht
      cases a with
      | registered id' generator n =>
          rw [Action.next] at ht
          split at ht
          · cases ht
            rfl
          · exact ih h.of_append ht
      | unregistered id' =>
          rw [Action.next] at ht
          split at ht
          · cases ht
          · exact ih h.of_append ht
      | delivered event =>
          rw [Action.next] at ht
          split at ht
          · rename_i hid
            obtain ⟨t', ht', rfl⟩ := Option.map_eq_some_iff.mp ht
            obtain ⟨u, hu, -, hnext⟩ := h log event [] rfl
            rw [hid, ht'] at hu
            cases hu
            exact (ih h.of_append ht').concat hnext
          · exact ih h.of_append ht

/-- The events of an id in a queue. -/
def eventsOf (id : Int) (q : Multiset VhalEvent) : Multiset VhalEvent :=
  q.filter fun event => event.generatorId = id

theorem eventsOf_cons (id : Int) (event : VhalEvent) (q : Multiset VhalEvent) :
    eventsOf id (event ::ₘ q) =
      if event.generatorId = id then event ::ₘ eventsOf id q else eventsOf id q := by
  rw [eventsOf, Multiset.filter_cons, eventsOf]
  split <;> simp

/-- The pop of an event of another id. -/
theorem eventsOf_erase {id : Int} {event : VhalEvent} {q : Multiset VhalEvent}
    (hmem : event ∈ q) (hne : event.generatorId ≠ id) :
    eventsOf id (q.erase event) = eventsOf id q := by
  conv_rhs => rw [← Multiset.cons_erase hmem]
  rw [eventsOf_cons, if_neg hne]

namespace GeneratorHub

/-- The queue has one event of a registered id: the one after those that were delivered since
its generator is in force. -/
structure Awaits (s : GeneratorHub) (id : Int) (registered : Registered) (t : Segment)
    (v : VehiclePropValue) : Prop where
  inForce : inForce id s.log = some t
  generator : t.generator = registered.generator
  registration : t.registration = registered.registration
  calls : registered.calls = t.delivered.length + 1
  next : registered.generator t.delivered.length = some v
  queued : eventsOf id s.mEventQueue = {⟨id, v, registered.registration⟩}

/-- Every registered id awaits its own next event, and so was every delivered one. -/
structure Steady (s : GeneratorHub) : Prop where
  awaits : ∀ id registered, s.mGenerators.lookup id = some registered →
    ∃ t v, s.Awaits id registered t v
  ownEvents : OwnEvents s.log
  numbers : ∀ id registered, s.mGenerators.lookup id = some registered →
    registered.registration < s.registrations

theorem steady_empty : Steady {} where
  awaits _ _ h := nomatch h
  ownEvents before event after h := by
    cases before <;> cases h
  numbers _ _ h := nomatch h

variable {s : GeneratorHub}

/-- An event of a registered id in the queue is the one that the id awaits. -/
theorem Awaits.eq_of_mem {id : Int} {registered : Registered} {t : Segment}
    {v : VehiclePropValue} (h : s.Awaits id registered t v) {event : VhalEvent}
    (hmem : event ∈ s.mEventQueue) (hid : event.generatorId = id) :
    event = ⟨id, v, registered.registration⟩ := by
  have hevents : event ∈ eventsOf id s.mEventQueue := Multiset.mem_filter.mpr ⟨hmem, hid⟩
  rw [h.queued] at hevents
  exact Multiset.mem_singleton.mp hevents

/-- The events of an id that is not registered may be dropped. -/
theorem Steady.dropStale (h : s.Steady) {q : Multiset VhalEvent} {top : Option VhalEvent}
    (hpop : PopWhile timeOf s.IsStale s.mEventQueue q top) :
    Steady { s with mEventQueue := q } where
  awaits id registered hregistered := by
    obtain ⟨t, v, hawaits⟩ := h.awaits id registered hregistered
    refine ⟨t, v, { hawaits with queued := ?_ }⟩
    refine (hpop.filter_eq fun event hstale hid => ?_).trans hawaits.queued
    rw [IsStale, hid, hregistered] at hstale
    cases hstale
  ownEvents := h.ownEvents
  numbers := h.numbers

/-- A step that concerns one id. -/
theorem Steady.change (h : s.Steady) {s' : GeneratorHub} (id : Int)
    (hlookup : ∀ id' ≠ id, s'.mGenerators.lookup id' = s.mGenerators.lookup id')
    (hforce : ∀ id' ≠ id, Generators.inForce id' s'.log = Generators.inForce id' s.log)
    (hqueue : ∀ id' ≠ id, eventsOf id' s'.mEventQueue = eventsOf id' s.mEventQueue)
    (hcount : s.registrations ≤ s'.registrations)
    (hself : ∀ registered, s'.mGenerators.lookup id = some registered →
      (∃ t v, s'.Awaits id registered t v) ∧ registered.registration < s'.registrations)
    (hown : OwnEvents s'.log) : s'.Steady where
  awaits id' registered hregistered := by
    by_cases hid : id' = id
    · subst hid
      exact (hself registered hregistered).1
    · rw [hlookup id' hid] at hregistered
      obtain ⟨t, v, hawaits⟩ := h.awaits id' registered hregistered
      exact ⟨t, v, { hawaits with
        inForce := (hforce id' hid).trans hawaits.inForce
        queued := (hqueue id' hid).trans hawaits.queued }⟩
  ownEvents := hown
  numbers id' registered hregistered := by
    by_cases hid : id' = id
    · subst hid
      exact (hself registered hregistered).2
    · rw [hlookup id' hid] at hregistered
      exact (h.numbers id' registered hregistered).trans_le hcount

/-- Unregistering a generator keeps the hub steady. -/
theorem Steady.unregisterGenerator (h : s.Steady) (id : Int) :
    (s.unregisterGenerator id).2.Steady := by
  refine h.change id (fun id' hid => ?_) (fun id' hid => inForce_concat_of_ne hid _)
    (fun _ _ => rfl) (Nat.le_refl _) (fun registered hregistered => ?_)
    (h.ownEvents.concat fun _ hevent => by cases hevent)
  · exact (UnorderedMap.lookup_erase_eq ..).trans (if_neg hid)
  · cases ((UnorderedMap.lookup_erase_eq ..).trans (if_pos rfl)).symm.trans hregistered

/-- A generator that is accepted for an id without an event in the queue awaits its first
event. -/
theorem Steady.registerGenerator (h : s.Steady) {id : Int} {generator : FakeValueGenerator}
    (hfresh : generator 0 ≠ none → eventsOf id s.mEventQueue = 0) :
    (s.registerGenerator id generator).Steady := by
  rcases hfirst : generator 0 with _ | v
  · simp only [GeneratorHub.registerGenerator, hfirst]
    exact h
  · have hnone : eventsOf id s.mEventQueue = 0 := hfresh (by simp [hfirst])
    have hnew : s.mGenerators.lookup id = none := by
      rcases hlookup : s.mGenerators.lookup id with _ | registered
      · rfl
      · obtain ⟨t, w, hawaits⟩ := h.awaits id registered hlookup
        have hqueued := hawaits.queued
        rw [hnone] at hqueued
        cases Multiset.zero_ne_singleton _ hqueued
    have hforce : Generators.inForce id (s.log ++ [.registered id generator s.registrations]) =
        some ⟨generator, s.registrations, []⟩ := by
      rw [inForce_concat, Action.next, if_pos rfl]
    simp only [GeneratorHub.registerGenerator, hfirst, hnew, ite_true]
    refine h.change id (fun id' hid => ?_) (fun id' hid => inForce_concat_of_ne hid _)
      (fun id' hid => ?_) (Nat.le_succ _) (fun registered hregistered => ?_)
      (h.ownEvents.concat fun _ hevent => by cases hevent)
    · exact (UnorderedMap.lookup_insert_eq ..).trans (if_neg hid)
    · rw [eventsOf_cons, if_neg (Ne.symm hid)]
    · cases ((UnorderedMap.lookup_insert_eq ..).trans (if_pos rfl)).symm.trans hregistered
      refine ⟨⟨⟨generator, s.registrations, []⟩, v, hforce, rfl, rfl, rfl, hfirst, ?_⟩,
        Nat.lt_succ_self _⟩
      rw [eventsOf_cons, if_pos rfl, hnone]
      rfl

/-- The event that an id awaits is delivered, and the id awaits the next one of its generator or
its generator has ended. -/
theorem Steady.handleEvent (h : s.Steady) {curEvent : VhalEvent}
    (hmem : curEvent ∈ s.mEventQueue) (hcurrent : ¬s.IsStale curEvent) :
    (s.handleEvent curEvent).Steady := by
  obtain ⟨registered, hlookup⟩ := Option.ne_none_iff_exists'.mp hcurrent
  obtain ⟨t, v, hawaits⟩ := h.awaits _ registered hlookup
  have hevent := hawaits.eq_of_mem hmem rfl
  have hforce : Generators.inForce curEvent.generatorId (s.log ++ [.delivered curEvent]) =
      some { t with delivered := t.delivered ++ [v] } := by
    rw [inForce_concat, Action.next, if_pos rfl, hawaits.inForce, hevent]
    rfl
  have hown : OwnEvents (s.log ++ [.delivered curEvent]) := by
    refine h.ownEvents.concat fun event heq => ?_
    cases heq
    refine ⟨t, hawaits.inForce, ?_, ?_⟩
    · rw [hawaits.registration, hevent]
    · rw [hawaits.generator, hawaits.next, hevent]
  have hempty : eventsOf curEvent.generatorId (s.mEventQueue.erase curEvent) = 0 := by
    have hqueued := hawaits.queued
    rw [← Multiset.cons_erase hmem, eventsOf_cons, if_pos rfl, ← hevent] at hqueued
    exact (Multiset.cons_inj_right curEvent).mp hqueued
  rcases hnext : registered.generator registered.calls with _ | w
  · simp only [GeneratorHub.handleEvent, hlookup, hnext]
    refine h.change curEvent.generatorId (fun id' hid => ?_)
      (fun id' hid => inForce_concat_of_ne hid _)
      (fun id' hid => eventsOf_erase hmem (Ne.symm hid)) (Nat.le_refl _) (fun r hr => ?_)
      hown
    · exact (UnorderedMap.lookup_erase_eq ..).trans (if_neg hid)
    · cases ((UnorderedMap.lookup_erase_eq ..).trans (if_pos rfl)).symm.trans hr
  · simp only [GeneratorHub.handleEvent, hlookup, hnext]
    refine h.change curEvent.generatorId (fun id' hid => ?_)
      (fun id' hid => inForce_concat_of_ne hid _) (fun id' hid => ?_) (Nat.le_refl _)
      (fun r hr => ?_) hown
    · exact (UnorderedMap.lookup_insert_eq ..).trans (if_neg hid)
    · rw [eventsOf_cons, if_neg (Ne.symm hid), eventsOf_erase hmem (Ne.symm hid)]
    · cases ((UnorderedMap.lookup_insert_eq ..).trans (if_pos rfl)).symm.trans hr
      refine ⟨⟨{ t with delivered := t.delivered ++ [v] }, w, hforce, hawaits.generator,
        hawaits.registration, ?_, ?_, ?_⟩, h.numbers _ registered hlookup⟩
      · simp [hawaits.calls]
      · rw [hawaits.calls] at hnext
        simpa using hnext
      · rw [eventsOf_cons, if_pos rfl, hempty]
        rfl

end GeneratorHub

end VhalCore.Generators
