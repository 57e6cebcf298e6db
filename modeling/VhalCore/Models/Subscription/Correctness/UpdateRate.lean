import VhalCore.Models.Subscription.Interpretation.Clients

/-!
# The filter for the variable update rate

The filter is meant to compare an event with the most recent one that was not
outdated. The set of remembered values is keyed by the pair, and inserting into it
keeps the value that is already there: the filter compares with the first event of
the callback for the pair, for good, since nothing removes it when the client
unsubscribes. Both results say exactly which events are then treated as they should be.
-/

namespace VhalCore.Subscription

/-- Value and status of an event are those of an earlier one. -/
def Repeats (v earlier : VehiclePropValue) : Prop :=
  (earlier.value.eq v.value && earlier.status == v.status) = true

/-- The most recent event that is not outdated. -/
def mostRecent (history : List VehiclePropValue) : Option VehiclePropValue :=
  history.foldl (fun recent v => match recent with
    | none => some v
    | some m => if m.timestamp > v.timestamp then some m else some v) none

/-- An event is to be given to a client after a history: it is the first one, or it is not
older than the most recent one and does not repeat it. -/
def IsNews (history : List VehiclePropValue) (v : VehiclePropValue) : Prop :=
  ∀ m, mostRecent history = some m → m.timestamp ≤ v.timestamp ∧ ¬Repeats v m

instance (history : List VehiclePropValue) (v : VehiclePropValue) :
    Decidable (IsNews history v) :=
  inferInstanceAs (Decidable (∀ m ∈ mostRecent history,
    m.timestamp ≤ v.timestamp ∧ ¬(m.value.eq v.value && m.status == v.status) = true))

/-- Comparing with the first event of a history gives the answer for the most recent one:
the event is older than the first, or older than the most recent and repeats the first,
or not older than the most recent and repeats both or neither. -/
def FirstStandsIn (history : List VehiclePropValue) (v : VehiclePropValue) : Prop :=
  ∀ f m, history.head? = some f → mostRecent history = some m →
    v.timestamp < f.timestamp ∨ (v.timestamp < m.timestamp ∧ Repeats v f) ∨
      m.timestamp ≤ v.timestamp ∧ (Repeats v f ↔ Repeats v m)

/-- A value is news exactly if it is not older than the remembered one and does not repeat it. -/
theorem isUpdated_iff {remembered : Option VehiclePropValue} {v : VehiclePropValue} :
    isUpdated remembered v = true ↔
      ∀ f, remembered = some f → f.timestamp ≤ v.timestamp ∧ ¬Repeats v f := by
  cases remembered with
  | none => simp [isUpdated]
  | some f =>
      simp only [isUpdated, Repeats, Option.some.injEq, forall_eq', Bool.and_eq_true,
        Bool.not_eq_true', ← Bool.not_eq_true, decide_eq_true_eq, gt_iff_lt, not_lt]

/-- The most recent value after one more. -/
theorem mostRecent_append (history : List VehiclePropValue) (v : VehiclePropValue) :
    mostRecent (history ++ [v]) = match mostRecent history with
      | none => some v
      | some m => if m.timestamp > v.timestamp then some m else some v := by
  rw [mostRecent, List.foldl_append]
  rfl

/-- The most recent event exists with the first one and is not older. -/
theorem mostRecent_spec (history : List VehiclePropValue) :
    (history = [] ∧ mostRecent history = none) ∨
      ∃ f m, history.head? = some f ∧ mostRecent history = some m ∧
        f.timestamp ≤ m.timestamp := by
  induction history using List.reverseRecOn with
  | nil => exact Or.inl ⟨rfl, rfl⟩
  | append_singleton history v ih =>
      rw [mostRecent_append]
      rcases ih with ⟨rfl, hm⟩ | ⟨f, m, hf, hm, hle⟩
      · exact Or.inr ⟨v, v, rfl, by rw [hm], le_rfl⟩
      · rw [hm, List.head?_append, hf]
        refine Or.inr ⟨f, if m.timestamp > v.timestamp then m else v, rfl, ?_, ?_⟩
        · dsimp only
          split <;> rfl
        · split
          · exact hle
          · omega

/-- The filter answers as it should for an event exactly when the first event stands in
for the most recent one. -/
theorem isUpdated_head_iff (history : List VehiclePropValue) (v : VehiclePropValue) :
    (isUpdated history.head? v = true ↔ IsNews history v) ↔ FirstStandsIn history v := by
  rw [isUpdated_iff, IsNews, FirstStandsIn]
  rcases mostRecent_spec history with ⟨rfl, hm⟩ | ⟨f, m, hf, hm, hle⟩
  · simp [hm]
  · have hstands : (∀ f' m', history.head? = some f' → mostRecent history = some m' →
        v.timestamp < f'.timestamp ∨ (v.timestamp < m'.timestamp ∧ Repeats v f') ∨
          m'.timestamp ≤ v.timestamp ∧ (Repeats v f' ↔ Repeats v m')) ↔
        (v.timestamp < f.timestamp ∨ (v.timestamp < m.timestamp ∧ Repeats v f) ∨
          m.timestamp ≤ v.timestamp ∧ (Repeats v f ↔ Repeats v m)) := by
      refine ⟨fun h => h f m hf hm, fun h f' m' hf' hm' => ?_⟩
      cases hf.symm.trans hf'
      cases hm.symm.trans hm'
      exact h
    rw [hstands]
    simp only [hf, hm, Option.some.injEq, forall_eq']
    constructor
    · intro h
      by_cases hold : v.timestamp < f.timestamp
      · exact Or.inl hold
      · refine Or.inr ?_
        by_cases hm' : v.timestamp < m.timestamp
        · refine Or.inl ⟨hm', ?_⟩
          by_contra hrep
          have := h.mp ⟨by omega, hrep⟩
          omega
        · refine Or.inr ⟨by omega, ?_⟩
          have h1 : f.timestamp ≤ v.timestamp := by omega
          have h2 : m.timestamp ≤ v.timestamp := by omega
          simp only [h1, h2, true_and] at h
          exact not_iff_not.mp h
    · rintro (hold | ⟨hm', hrep⟩ | ⟨hm', hiff⟩)
      · exact iff_of_false (fun h => by omega) fun h => by omega
      · exact iff_of_false (fun h => h.2 hrep) fun h => by omega
      · have h1 : f.timestamp ≤ v.timestamp := by omega
        simp only [h1, hm', true_and]
        exact not_congr hiff

namespace SubscriptionManager

variable {hw : Nat → StatusCode} {lib : MathLibrary} {s t u : SubscriptionManager}
variable {p : PropIdAreaId} {k : CallbackType}

/-- Every client is registered under the binder of its callback in every reachable state. -/
theorem Run.keyedByBinder {as : List (Operation × VhalResult)} (h : Run hw lib {} as s) :
    KeyedByBinder s := by
  intro p
  refine Run.pair_invariant hw h p (P := fun x => ∀ c k, x.client c = some k → k.asBinder = c)
    (fun c k hk => ?_) fun _ _ _ _ _ _ _ x e y _ hx hstep c k hk => ?_
  · simp [PairState.client] at hk
  · rw [hstep.client] at hk
    cases e with
    | subscribed callback config =>
        simp only [PairEvent.update, Function.update_apply] at hk
        split at hk
        · next hc =>
          cases hk
          exact hc.symm
        · exact hx c k hk
    | unsubscribed d =>
        simp only [PairEvent.update, Function.update_apply] at hk
        split at hk
        · cases hk
        · exact hx c k hk
    | _ => exact hx c k hk

/-- The events of a pair, rounded to a resolution. -/
def eventsOf (p : PropIdAreaId) (resolution : Binary32) (vs : List VehiclePropValue) :
    List VehiclePropValue :=
  (vs.filter fun v => v.propIdAreaId = p).map fun v => v.rounded resolution

theorem eventsOf_append (p : PropIdAreaId) (resolution : Binary32)
    (vs ws : List VehiclePropValue) :
    eventsOf p resolution (vs ++ ws) = eventsOf p resolution vs ++ eventsOf p resolution ws := by
  rw [eventsOf, List.filter_append, List.map_append]
  rfl

/-- Events of other pairs do not change what is remembered for a pair. -/
theorem remembered_foldl_of_other (vs : List VehiclePropValue)
    (hvs : ∀ v ∈ vs, v.propIdAreaId ≠ p) (inbox : Inbox) :
    (vs.foldl (s.receiveValue k) inbox).remembered p = inbox.remembered p := by
  refine List.foldlRecOn (motive := fun i : Inbox => i.remembered p = inbox.remembered p) vs _ rfl
    fun i hi v hv => ?_
  rw [← hi, receiveValue]
  split
  · rw [Inbox.receive]
    split
    · exact Function.update_of_ne (hvs v hv).symm _ _
    · rfl
  · rfl

/-- For a client that the manager filters for, the first event of a pair is remembered. -/
theorem remembered_foldl_of_filtered (hclient : s.client p k.asBinder = some k)
    (hfilter : s.filtersFor p k.asBinder = true) (vs : List VehiclePropValue) (inbox : Inbox) :
    (vs.foldl (s.receiveValue k) inbox).remembered p =
      (inbox.remembered p).or
        (eventsOf p ((s.configAt p).getResolutionForClient k.asBinder) vs).head? := by
  induction vs generalizing inbox with
  | nil =>
      rw [List.foldl_nil, eventsOf, List.filter_nil, List.map_nil, List.head?_nil, Option.or_none]
  | cons v vs ih =>
      rw [List.foldl_cons, ih]
      by_cases hv : v.propIdAreaId = p
      · have hmem : (s.receiveValue k inbox v).remembered p = some ((inbox.remembered p).getD
            (v.rounded ((s.configAt p).getResolutionForClient k.asBinder))) := by
          rw [receiveValue, hv, if_pos hclient, Inbox.receive, if_pos hfilter, hv]
          exact Function.update_self ..
        have hhead : (eventsOf p ((s.configAt p).getResolutionForClient k.asBinder)
            (v :: vs)).head? = some (v.rounded
              ((s.configAt p).getResolutionForClient k.asBinder)) := by
          rw [eventsOf, List.filter_cons_of_pos (by simpa using hv), List.map_cons,
            List.head?_cons]
        rw [hmem, hhead, Option.some_or]
        cases inbox.remembered p <;> rfl
      · have hskip : eventsOf p ((s.configAt p).getResolutionForClient k.asBinder) (v :: vs) =
            eventsOf p ((s.configAt p).getResolutionForClient k.asBinder) vs := by
          rw [eventsOf, List.filter_cons_of_neg (by simpa using hv)]
          rfl
        rw [hskip]
        congr 1
        exact remembered_foldl_of_other [v] (fun w hw => by rwa [List.mem_singleton.mp hw]) inbox

theorem KeepsSubscriptions.trans (h₁ : KeepsSubscriptions s t) (h₂ : KeepsSubscriptions t u) :
    KeepsSubscriptions s u :=
  ⟨h₂.clients.trans h₁.clients, h₂.held.trans h₁.held,
    fun p => (h₂.configAt p).trans (h₁.configAt p), h₂.hardware.trans h₁.hardware,
    h₂.supportedClients.trans h₁.supportedClients, h₂.supportedPairs.trans h₁.supportedPairs⟩

theorem KeepsSubscriptions.client (h : KeepsSubscriptions s t) (p : PropIdAreaId)
    (c : ClientIdType) : t.client p c = s.client p c := by
  rw [SubscriptionManager.client, SubscriptionManager.client, h.clients]

/-- Events do not change what a value does to an inbox. -/
theorem KeepsSubscriptions.receiveValue (h : KeepsSubscriptions s t) (k : CallbackType) :
    t.receiveValue k = s.receiveValue k := by
  funext inbox v
  rw [SubscriptionManager.receiveValue, SubscriptionManager.receiveValue, h.client, h.configAt,
    h.filtersFor]

/-- The values an operation delivers. -/
def Operation.events : Operation → List VehiclePropValue
  | .getSubscribedClients updatedValues _ => updatedValues
  | _ => []

/-- The values delivered along a run. -/
def delivered (as : List (Operation × VhalResult)) : List VehiclePropValue :=
  as.flatMap fun a => a.1.events

theorem delivered_append (as bs : List (Operation × VhalResult)) :
    delivered (as ++ bs) = delivered as ++ delivered bs := List.flatMap_append

theorem delivered_singleton (a : Operation × VhalResult) : delivered [a] = a.1.events := by
  rw [delivered, List.flatMap_singleton]

/-- Batches of events leave the subscriptions alone, and the first event of the pair in any
of them is remembered. -/
theorem Run.remembered_of_events {as bs : List (Operation × VhalResult)}
    (h : Run hw lib {} as s) (hclient : s.client p k.asBinder = some k)
    (hfilter : s.filtersFor p k.asBinder = true) (hrun : Run hw lib s bs t)
    (hbs : ∀ b ∈ bs, ∃ vs order, b.1 = .getSubscribedClients vs order) :
    KeepsSubscriptions s t ∧ t.remembered k p = (s.remembered k p).or
      (eventsOf p ((s.configAt p).getResolutionForClient k.asBinder) (delivered bs)).head? := by
  induction hrun with
  | nil => exact ⟨.refl s, by rw [delivered, List.flatMap_nil, eventsOf, List.filter_nil,
      List.map_nil, List.head?_nil, Option.or_none]⟩
  | @snoc t u bs b hpath hstep ih =>
      obtain ⟨hkeep, hmem⟩ := ih fun b hb => hbs b (List.mem_append_left _ hb)
      obtain ⟨vs, order, hb⟩ := hbs b (List.mem_append_right _ (List.mem_singleton_self _))
      rcases b with ⟨op, r⟩
      simp only at hb
      subst hb
      obtain ⟨⟨result, u'⟩, hresult, heq⟩ := Option.map_eq_some_iff.mp hstep
      cases heq
      have hkeep' := (keepsSubscriptions_getSubscribedClients hresult).1
      have hinbox := congrArg (fun i : Inbox => i.remembered p)
        (inbox_getSubscribedClients (Run.keyedByBinder (h.trans hpath)) hresult k)
      rw [remembered_foldl_of_filtered ((hkeep.client p _).trans hclient)
        ((hkeep.filtersFor p _).trans hfilter), hkeep.configAt] at hinbox
      refine ⟨hkeep.trans hkeep', ?_⟩
      rw [delivered_append, delivered_singleton, eventsOf_append, List.head?_append,
        ← Option.or_assoc, ← hmem]
      exact hinbox

/-- What an inbox held before a fold only precedes what the fold gives. -/
theorem values_foldl_receiveValue_append (vs : List VehiclePropValue) (inbox : Inbox) :
    (vs.foldl (s.receiveValue k) inbox).values =
      inbox.values ++ (vs.foldl (s.receiveValue k) ⟨[], inbox.remembered⟩).values := by
  induction vs generalizing inbox with
  | nil => rw [List.foldl_nil, List.foldl_nil, List.append_nil]
  | cons v vs ih =>
      have hturn : (s.receiveValue k inbox v).values =
          inbox.values ++ (s.receiveValue k ⟨[], inbox.remembered⟩ v).values ∧
          (s.receiveValue k inbox v).remembered =
            (s.receiveValue k ⟨[], inbox.remembered⟩ v).remembered := by
        simp only [receiveValue, Inbox.receive]
        split
        · split
          · refine ⟨?_, rfl⟩
            dsimp only
            split
            · rfl
            · rw [List.append_nil]
          · exact ⟨rfl, rfl⟩
        · exact ⟨(List.append_nil _).symm, rfl⟩
      rw [List.foldl_cons, List.foldl_cons, ih, hturn.1, hturn.2,
        ih (s.receiveValue k ⟨[], inbox.remembered⟩ v), List.append_assoc]

/-- A batch of events around one event of the pair: the parts before and after it are given
as batches of their own would be. -/
structure Batch (u : SubscriptionManager) (k : CallbackType) (vs : List VehiclePropValue)
    (v : VehiclePropValue) (ws : List VehiclePropValue)
    (before result rest : List VehiclePropValue) : Prop where
  before : ∃ order clients t, getSubscribedClients vs order u = some (clients, t) ∧
    before = clients.valueAt k []
  result : ∃ order clients t, getSubscribedClients (vs ++ v :: ws) order u = some (clients, t) ∧
    result = clients.valueAt k []
  rest : ∃ order clients t order' clients' t',
    getSubscribedClients (vs ++ [v]) order u = some (clients, t) ∧
      getSubscribedClients ws order' t = some (clients', t') ∧ rest = clients'.valueAt k []

/-- Between the parts of a batch stands the event, if the filter lets it through. -/
theorem Batch.result_eq {as : List (Operation × VhalResult)} {vs ws : List VehiclePropValue}
    {v : VehiclePropValue} {before result rest : List VehiclePropValue}
    (hb : Batch u k vs v ws before result rest) (h : Run hw lib {} as u)
    (hclient : u.client p k.asBinder = some k) (hfilter : u.filtersFor p k.asBinder = true)
    (hv : v.propIdAreaId = p) :
    let value := v.rounded ((u.configAt p).getResolutionForClient k.asBinder)
    result = before ++
      (if isUpdated ((vs.foldl (u.receiveValue k) ⟨[], u.remembered k⟩).remembered p) value
        then [value] else []) ++ rest := by
  intro value
  have hkey := Run.keyedByBinder h
  obtain ⟨_, _, _, hbefore, rfl⟩ := hb.before
  obtain ⟨_, _, _, hresult, rfl⟩ := hb.result
  obtain ⟨_, _, t, _, _, _, hmid, hrest, rfl⟩ := hb.rest
  have hbefore' := congrArg Inbox.values (inbox_getSubscribedClients hkey hbefore k)
  have hresult' := congrArg Inbox.values (inbox_getSubscribedClients hkey hresult k)
  have hmid' := congrArg Inbox.remembered (inbox_getSubscribedClients hkey hmid k)
  have hkeep := (keepsSubscriptions_getSubscribedClients hmid).1
  have hkey' : KeyedByBinder t := fun q c k' hk' => hkey q c k' ((hkeep.client q c).symm.trans hk')
  have hrest' := congrArg Inbox.values (inbox_getSubscribedClients hkey' hrest k)
  rw [List.foldl_append] at hmid' hresult'
  have hturn (inbox : Inbox) : u.receiveValue k inbox v =
      inbox.receive ((u.configAt p).getResolutionForClient k.asBinder) true v := by
    rw [receiveValue, hv, if_pos hclient, hfilter]
  rw [List.foldl_cons, values_foldl_receiveValue_append] at hresult'
  simp only [inbox] at hbefore' hresult' hmid' hrest'
  rw [hresult', hrest', hkeep.receiveValue, hmid', hbefore']
  simp only [List.foldl_cons, List.foldl_nil, hturn, Inbox.receive, ite_true, hv]
  split
  · rfl
  · rw [List.append_nil]

/-- With fixed subscriptions an event of a pair is given to a filtered client as it should
be, after events in any batches, exactly when the first event of the pair stands in for
the most recent one. -/
theorem givenAsNews_iff_firstStandsIn {as bs : List (Operation × VhalResult)}
    (h : Run hw lib {} as s) (hclient : s.client p k.asBinder = some k)
    (hfilter : s.filtersFor p k.asBinder = true) (hnew : s.remembered k p = none)
    (hrun : Run hw lib s bs u)
    (hbs : ∀ b ∈ bs, ∃ vs order, b.1 = .getSubscribedClients vs order)
    {vs ws : List VehiclePropValue} {v : VehiclePropValue} (hv : v.propIdAreaId = p)
    {before result rest : List VehiclePropValue}
    (hb : Batch u k vs v ws before result rest) :
    let resolution := (s.configAt p).getResolutionForClient k.asBinder
    let history := eventsOf p resolution (delivered bs ++ vs)
    let value := v.rounded resolution
    result = before ++ (if IsNews history value then [value] else []) ++ rest ↔
      FirstStandsIn history value := by
  intro resolution history value
  obtain ⟨hkeep, hmem⟩ := Run.remembered_of_events h hclient hfilter hrun hbs
  have hclient' := (hkeep.client p k.asBinder).trans hclient
  have hfilter' := (hkeep.filtersFor p k.asBinder).trans hfilter
  have hfirst : (vs.foldl (u.receiveValue k) ⟨[], u.remembered k⟩).remembered p =
      history.head? := by
    rw [remembered_foldl_of_filtered hclient' hfilter']
    change (u.remembered k p).or _ = _
    rw [hmem, hnew, Option.none_or, hkeep.configAt, ← List.head?_append, ← eventsOf_append]
  rw [hb.result_eq (h.trans hrun) hclient' hfilter' hv, hfirst, hkeep.configAt,
    ← isUpdated_head_iff, List.append_left_inj, List.append_right_inj]
  by_cases hup : isUpdated history.head? value = true <;> by_cases hnews : IsNews history value
  · simp [hup, hnews, value, resolution]
  · simp [hup, hnews, value, resolution]
  · simp [hup, hnews, value, resolution]
  · simp [hup, hnews, value, resolution]

/-- A value of property 1 in area 0. -/
def valueOf (timestamp x : Int) : VehiclePropValue :=
  { timestamp, prop := 1, value := { int32Values := [x] } }

/-- Client 1 wants the variable update rate. -/
def wantsUpdateRate : Operation :=
  .subscribe ⟨0, 1⟩ [newSubscribeOptions 1 0 (.ofInt 10) .zero true] true

/-- Client 2 does not, so that the manager filters for client 1. -/
def wantsEveryValue : Operation :=
  .subscribe ⟨0, 2⟩ [newSubscribeOptions 1 0 (.ofInt 10) .zero false] true

/-- A batch of values as an operation. -/
def values (vs : List VehiclePropValue) : Operation := .getSubscribedClients vs (.ascending _)

/-- Two executed runs, one after the other, and a batch of one value at their end. -/
private theorem exists_batch_of_execute (ops ops' : List Operation) (v : VehiclePropValue)
    (given : List VehiclePropValue) (P Q : SubscriptionManager → Bool)
    (h : (execute (fun _ => .ok) default {} ops).any (fun r => P r.2 &&
      (execute (fun _ => .ok) default r.2 ops').any (fun r' => Q r'.2 &&
        (getSubscribedClients [v] (.ascending _) r'.2).any
          (fun x => decide (x.1.valueAt ⟨0, 1⟩ [] = given)))) = true) :
    ∃ as s bs u, Run (fun _ => .ok) default {} as s ∧ P s = true ∧
      Run (fun _ => .ok) default s bs u ∧ Q u = true ∧ bs.map Prod.fst = ops' ∧
      Batch u ⟨0, 1⟩ [] v [] [] given [] := by
  obtain ⟨⟨as, s⟩, hs, h⟩ := (Option.any_eq_true _ _).mp h
  obtain ⟨hP, h⟩ := Bool.and_eq_true_iff.mp h
  obtain ⟨⟨bs, u⟩, hu, h⟩ := (Option.any_eq_true _ _).mp h
  obtain ⟨hQ, h⟩ := Bool.and_eq_true_iff.mp h
  obtain ⟨⟨clients, t⟩, ht, h⟩ := (Option.any_eq_true _ _).mp h
  have hnil : UnorderedMap.valueAt (∅ : ClientEvents VehiclePropValue) ⟨0, 1⟩ [] = [] := by
    rw [UnorderedMap.valueAt, Finmap.lookup_empty, Option.getD_none]
  exact ⟨as, s, bs, u, run_of_execute _ hs, hP, run_of_execute _ hu, hQ,
    operations_of_execute _ hu,
    ⟨⟨.ascending _, ∅, u, rfl, hnil.symm⟩, ⟨_, clients, t, ht, (of_decide_eq_true h).symm⟩,
      ⟨_, clients, t, .ascending _, ∅, t, ht, rfl, hnil.symm⟩⟩⟩

/-- The conditions under which client 1 is filtered with a fresh memory. -/
private def freshlyFiltered (s : SubscriptionManager) : Bool :=
  decide (s.client ⟨1, 0⟩ 1 = some ⟨0, 1⟩) && s.filtersFor ⟨1, 0⟩ 1 &&
    decide (s.remembered ⟨0, 1⟩ ⟨1, 0⟩ = none) &&
    decide ((s.configAt ⟨1, 0⟩).getResolutionForClient 1 = .zero)

private theorem freshlyFiltered_iff (s : SubscriptionManager) : freshlyFiltered s = true ↔
    ((s.client ⟨1, 0⟩ 1 = some ⟨0, 1⟩ ∧ s.filtersFor ⟨1, 0⟩ 1 = true) ∧
      s.remembered ⟨0, 1⟩ ⟨1, 0⟩ = none) ∧
      (s.configAt ⟨1, 0⟩).getResolutionForClient 1 = .zero := by
  simp only [freshlyFiltered, Bool.and_eq_true, decide_eq_true_eq]

private theorem events_of_operations {bs : List (Operation × VhalResult)}
    {batches : List (List VehiclePropValue)} (h : bs.map Prod.fst = batches.map values) :
    (∀ b ∈ bs, ∃ vs order, b.1 = .getSubscribedClients vs order) ∧
      delivered bs = batches.flatten := by
  constructor
  · intro b hb
    have hop := List.mem_map_of_mem (f := Prod.fst) hb
    rw [h] at hop
    obtain ⟨vs, _, hvs⟩ := List.mem_map.mp hop
    exact ⟨vs, _, hvs.symm⟩
  · have hflat : delivered bs = (bs.map Prod.fst).flatMap Operation.events := by
      rw [delivered, List.flatMap_map]
    rw [hflat, h, List.flatMap_map, ← List.flatMap_id]
    rfl

/-- Of the values 0, 1 and 1 again, client 1 is given the last one too, although it repeats
the most recent one. -/
theorem not_givenAsNews_of_repeated_value :
    ∃ as s bs u before result rest, Run (fun _ => .ok) default {} as s ∧
      s.client ⟨1, 0⟩ 1 = some ⟨0, 1⟩ ∧ s.filtersFor ⟨1, 0⟩ 1 = true ∧
      s.remembered ⟨0, 1⟩ ⟨1, 0⟩ = none ∧ Run (fun _ => .ok) default s bs u ∧
      (∀ b ∈ bs, ∃ vs order, b.1 = .getSubscribedClients vs order) ∧
      Batch u ⟨0, 1⟩ [] (valueOf 2 1) [] before result rest ∧
      let resolution := (s.configAt ⟨1, 0⟩).getResolutionForClient 1
      let history := eventsOf ⟨1, 0⟩ resolution (delivered bs)
      let value := (valueOf 2 1).rounded resolution
      ¬(result = before ++ (if IsNews history value then [value] else []) ++ rest) := by
  obtain ⟨as, s, bs, u, hs, hP, hu, _, hops, hb⟩ := exists_batch_of_execute
    [wantsUpdateRate, wantsEveryValue] ([[valueOf 0 0], [valueOf 1 1]].map values) (valueOf 2 1)
    [valueOf 2 1] freshlyFiltered (fun _ => true) (by decide)
  obtain ⟨⟨⟨hclient, hfilter⟩, hnew⟩, hres⟩ := (freshlyFiltered_iff s).mp hP
  obtain ⟨hbs, hdelivered⟩ := events_of_operations hops
  refine ⟨as, s, bs, u, [], [valueOf 2 1], [], hs, hclient, hfilter, hnew, hu, hbs, hb, ?_⟩
  rw [hres, hdelivered]
  decide

/-- Of the values 0 and 1, client 1 is given both. -/
theorem givenAsNews_of_two_values :
    ∃ as s bs u before result rest, Run (fun _ => .ok) default {} as s ∧
      Run (fun _ => .ok) default s bs u ∧
      Batch u ⟨0, 1⟩ [] (valueOf 1 1) [] before result rest ∧
      let resolution := (s.configAt ⟨1, 0⟩).getResolutionForClient 1
      let history := eventsOf ⟨1, 0⟩ resolution (delivered bs ++ [])
      let value := (valueOf 1 1).rounded resolution
      result = before ++ (if IsNews history value then [value] else []) ++ rest := by
  obtain ⟨as, s, bs, u, hs, hP, hu, _, hops, hb⟩ := exists_batch_of_execute
    [wantsUpdateRate, wantsEveryValue] ([[valueOf 0 0]].map values) (valueOf 1 1)
    [valueOf 1 1] freshlyFiltered (fun _ => true) (by decide)
  obtain ⟨⟨⟨hclient, hfilter⟩, hnew⟩, hres⟩ := (freshlyFiltered_iff s).mp hP
  obtain ⟨hbs, hdelivered⟩ := events_of_operations hops
  refine ⟨as, s, bs, u, [], [valueOf 1 1], [], hs, hu, hb,
    (givenAsNews_iff_firstStandsIn hs hclient hfilter hnew hu hbs rfl hb).mpr ?_⟩
  rw [hres, hdelivered]
  intro f m hf hm
  cases hf
  cases hm
  exact Or.inr (Or.inr ⟨by decide, Iff.rfl⟩)

/-- Whatever a run without events of a pair does, it keeps what is remembered for the pair. -/
theorem Run.remembered_of_quiet {as bs : List (Operation × VhalResult)}
    (h : Run hw lib {} as s) (hrun : Run hw lib s bs t)
    (hquiet : ∀ v ∈ delivered bs, v.propIdAreaId ≠ p) :
    t.remembered k p = s.remembered k p := by
  induction hrun with
  | nil => rfl
  | @snoc t u bs b hpath hstep ih =>
      rw [delivered_append, delivered_singleton] at hquiet
      rw [← ih fun v hv => hquiet v (List.mem_append_left _ hv)]
      have hvalues (hvalues : u.mContSubValuesByCallback = t.mContSubValuesByCallback) :
          u.remembered k p = t.remembered k p := by
        rw [remembered, remembered, hvalues]
      rcases b with ⟨op, r⟩
      obtain ⟨acts, heff⟩ := step_effect hw hstep
      cases heff with
      | rejected => rfl
      | subscribe _ _ _ _ _ _ _ _ h => exact hvalues (congrArg Aside.values h.aside)
      | unsubscribe c _ _ r u' _ done _ h hu =>
          subst hu
          refine hvalues ?_
          split
          · exact congrArg Aside.values h.aside
          · exact congrArg Aside.values h.aside
      | unsubscribeClientFailed _ _ _ _ _ _ h => exact hvalues (congrArg Aside.values h.aside)
      | unsubscribeClient c order _ u' _ done _ h hu =>
          have hkeep := (keepsPairs_unsubscribeSupportedValueChangeLocked hw c
            (order.visit (u'.supportedHeld c))
            { u' with mSubscribedPropsByClient := u'.mSubscribedPropsByClient.erase c }).values
          rw [hu] at hkeep
          exact hvalues (hkeep.trans (congrArg Aside.values h.aside))
      | getSubscribedClients vs order result _ _ hresult _ _ =>
          have hinbox := congrArg (fun i : Inbox => i.remembered p)
            (inbox_getSubscribedClients (Run.keyedByBinder (h.trans hpath)) hresult k)
          rw [remembered_foldl_of_other vs fun v hv => hquiet v (List.mem_append_right _ hv)]
            at hinbox
          exact hinbox
      | subscribeSupportedValueChange callback ps _ _ h =>
          have hkeep := (keepsPairs_subscribeSupportedValueChange hw callback ps t).values
          rw [h] at hkeep
          exact hvalues hkeep
      | unsubscribeSupportedValueChange c ps _ _ h =>
          have hkeep := (keepsPairs_unsubscribeSupportedValueChangeLocked hw c ps t).values
          rw [h] at hkeep
          exact hvalues hkeep

/-- A client subscribes to a pair that it may have left before, and the manager filters for it.
The first event of the pair from then on is given to the client exactly when nothing is
remembered from its earlier subscriptions, or something that is not newer and differs. -/
theorem firstEvent_given_iff {as bs : List (Operation × VhalResult)}
    (h : Run hw lib {} as s) (hrun : Run hw lib s bs u)
    (hquiet : ∀ v ∈ delivered bs, v.propIdAreaId ≠ p)
    (hclient : u.client p k.asBinder = some k) (hfilter : u.filtersFor p k.asBinder = true)
    {vs ws : List VehiclePropValue} {v : VehiclePropValue}
    (hvs : ∀ w ∈ vs, w.propIdAreaId ≠ p) (hv : v.propIdAreaId = p)
    {before result rest : List VehiclePropValue}
    (hb : Batch u k vs v ws before result rest) :
    let value := v.rounded ((u.configAt p).getResolutionForClient k.asBinder)
    result = before ++ [value] ++ rest ↔
      ∀ f, s.remembered k p = some f → f.timestamp ≤ value.timestamp ∧ ¬Repeats value f := by
  intro value
  rw [hb.result_eq (h.trans hrun) hclient hfilter hv, remembered_foldl_of_other vs hvs,
    ← isUpdated_iff, List.append_left_inj, List.append_right_inj]
  change (if isUpdated (u.remembered k p) value then [value] else []) = [value] ↔ _
  rw [Run.remembered_of_quiet (p := p) h hrun hquiet]
  by_cases hup : isUpdated (s.remembered k p) value = true <;> simp [hup, value]

/-- Client 1 leaves the pair and comes back. The first value afterwards is the one it was
given before it left, and it is not given to it. -/
theorem not_firstEvent_given_of_stale_value :
    ∃ as s bs u before result rest, Run (fun _ => .ok) default {} as s ∧
      s.client ⟨1, 0⟩ 1 = none ∧ Run (fun _ => .ok) default s bs u ∧ delivered bs = [] ∧
      u.client ⟨1, 0⟩ 1 = some ⟨0, 1⟩ ∧ u.filtersFor ⟨1, 0⟩ 1 = true ∧
      Batch u ⟨0, 1⟩ [] (valueOf 1 0) [] before result rest ∧
      ¬(result = before ++
        [(valueOf 1 0).rounded ((u.configAt ⟨1, 0⟩).getResolutionForClient 1)] ++ rest) := by
  obtain ⟨as, s, bs, u, hs, hP, hu, hQ, hops, hb⟩ := exists_batch_of_execute
    [wantsUpdateRate, wantsEveryValue, values [valueOf 0 0], .unsubscribe 1 [1] (.ascending _)]
    [wantsUpdateRate] (valueOf 1 0) [] (fun s => decide (s.client ⟨1, 0⟩ 1 = none))
    (fun u => decide (u.client ⟨1, 0⟩ 1 = some ⟨0, 1⟩) && u.filtersFor ⟨1, 0⟩ 1) (by decide)
  obtain ⟨hclient, hfilter⟩ := Bool.and_eq_true_iff.mp hQ
  refine ⟨as, s, bs, u, [], [], [], hs, of_decide_eq_true hP, hu, ?_,
    of_decide_eq_true hclient, hfilter, hb, by simp⟩
  rw [delivered, ← List.flatMap_map, hops]
  rfl

/-- The same client is given a first value that differs from the one it saw before. -/
theorem firstEvent_given_of_new_value :
    ∃ as s bs u before result rest, Run (fun _ => .ok) default {} as s ∧
      s.client ⟨1, 0⟩ 1 = none ∧ Run (fun _ => .ok) default s bs u ∧
      Batch u ⟨0, 1⟩ [] (valueOf 1 1) [] before result rest ∧
      result = before ++
        [(valueOf 1 1).rounded ((u.configAt ⟨1, 0⟩).getResolutionForClient 1)] ++ rest := by
  obtain ⟨as, s, bs, u, hs, hP, hu, hQ, hops, hb⟩ := exists_batch_of_execute
    [wantsUpdateRate, wantsEveryValue, values [valueOf 0 0], .unsubscribe 1 [1] (.ascending _)]
    [wantsUpdateRate] (valueOf 1 1) [valueOf 1 1]
    (fun s => decide (s.client ⟨1, 0⟩ 1 = none) &&
      decide (s.remembered ⟨0, 1⟩ ⟨1, 0⟩ = some (valueOf 0 0)))
    (fun u => decide (u.client ⟨1, 0⟩ 1 = some ⟨0, 1⟩) && u.filtersFor ⟨1, 0⟩ 1 &&
      decide ((u.configAt ⟨1, 0⟩).getResolutionForClient 1 = .zero)) (by decide)
  simp only [Bool.and_eq_true, decide_eq_true_eq] at hP hQ
  have hquiet : delivered bs = [] := by
    rw [delivered, ← List.flatMap_map, hops]
    rfl
  refine ⟨as, s, bs, u, [], [valueOf 1 1], [], hs, hP.1, hu, hb,
    (firstEvent_given_iff hs hu (by simp [hquiet]) hQ.1.1 hQ.1.2
      (fun _ h => absurd h List.not_mem_nil) rfl hb).mpr fun f hf => ?_⟩
  cases hP.2.symm.trans hf
  change _ ∧ ¬Repeats ((valueOf 1 1).rounded
    ((u.configAt ⟨1, 0⟩).getResolutionForClient 1)) (valueOf 0 0)
  rw [hQ.2]
  refine ⟨show (0 : Int) ≤ 1 by decide, ?_⟩
  unfold Repeats
  decide

end SubscriptionManager

end VhalCore.Subscription
