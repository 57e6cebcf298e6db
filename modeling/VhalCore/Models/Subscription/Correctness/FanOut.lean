import VhalCore.Models.Subscription.Correctness.SupportedValues
import VhalCore.Models.Subscription.Interpretation.Combination

/-!
# Exactness of the event fan-outs

In every reachable state the three fan-outs give each callback the events of the
pairs it holds, in their order, and list no callback without an event. For property
events the values are rounded to the resolution of the client's own subscription, and
only the filter for the variable update rate drops any. The subscriptions are those of
the table that the calls of the run have built.
-/

namespace VhalCore.Subscription

open SubscriptionManager

/-- The resolution a client asked for: zero for an on-change subscription. -/
def Registration.resolution (r : Registration) : Binary32 :=
  match r.config with
  | some config => config.resolution
  | none => .zero

namespace Table

/-- A callback is the one its client registered for the pair. -/
def Holds (T : Table Registration) (k : CallbackType) (p : PropIdAreaId) : Prop :=
  (T p k.asBinder).map Registration.callback = some k

instance (T : Table Registration) (k : CallbackType) (p : PropIdAreaId) :
    Decidable (T.Holds k p) :=
  inferInstanceAs (Decidable (_ = _))

/-- The resolution of the latest subscription of a client. -/
def resolutionFor (T : Table Registration) (p : PropIdAreaId) (c : ClientIdType) : Binary32 :=
  ((T p c).map Registration.resolution).getD .zero

/-- The client wants the variable update rate and some other client of the pair does not:
the manager has to filter for the client. -/
def FiltersFor (T : Table Registration) (p : PropIdAreaId) (c : ClientIdType) : Prop :=
  (∃ config, (T p c).bind Registration.config = some config ∧ config.enableVur = true) ∧
    ∃ d config, (T p d).bind Registration.config = some config ∧ config.enableVur = false

open Classical in
/-- What a callback is to be given of a list of values: those of the pairs it holds, each
rounded, without those that the filter drops by the value it remembers. -/
noncomputable def deliver (T : Table Registration) (k : CallbackType) :
    (PropIdAreaId → Option VehiclePropValue) → List VehiclePropValue → List VehiclePropValue
  | _, [] => []
  | memory, v :: vs =>
      let p := v.propIdAreaId
      let value := v.rounded (T.resolutionFor p k.asBinder)
      if T.Holds k p then
        if T.FiltersFor p k.asBinder then
          (if isUpdated (memory p) value then [value] else []) ++
            deliver T k (Function.update memory p (some ((memory p).getD value))) vs
        else value :: deliver T k memory vs
      else deliver T k memory vs

end Table

/-- The entry of a result map: none if there is nothing to send. -/
def entryOf {Event : Type} (events : List Event) : Option (List Event) :=
  if events.isEmpty then none else some events

namespace SubscriptionManager

variable {hw : Nat → StatusCode} {lib : MathLibrary} {kind : Int → Bool}
variable {s t : SubscriptionManager} {T : Table Registration}

theorem Refines.client_eq_some_iff (hT : Refines kind lib s T) (p : PropIdAreaId)
    (k : CallbackType) : s.client p k.asBinder = some k ↔ T.Holds k p := by
  change (s.pairState p).client k.asBinder = some k ↔ _
  rw [(hT.pairs p).client]
  rfl

/-- A manager that refines a table keys its clients by their binders. -/
theorem Refines.keyedByBinder (hT : Refines kind lib s T) : KeyedByBinder s := by
  intro p c k hk
  change (s.pairState p).client c = some k at hk
  rw [(hT.pairs p).client] at hk
  obtain ⟨r, hr, rfl⟩ := Option.map_eq_some_iff.mp hk
  exact (hT.sound p c r hr).binder

private theorem Refines.lookup_configAt (hT : Refines kind lib s T) (p : PropIdAreaId)
    (c : ClientIdType) :
    (s.configAt p).mConfigByClient.lookup c = (T p c).bind Registration.config :=
  (hT.pairs p).config c

/-- The resolution read for a client is the one it asked for last. -/
theorem Refines.resolution_eq (hT : Refines kind lib s T) (p : PropIdAreaId)
    (c : ClientIdType) : (s.configAt p).getResolutionForClient c = T.resolutionFor p c := by
  rw [ContSubConfigs.getResolutionForClient, hT.lookup_configAt, Table.resolutionFor]
  cases T p c with
  | none => rfl
  | some r =>
      rw [Option.bind_some, Option.map_some, Option.getD_some, Registration.resolution]
      cases r.config <;> rfl

/-- The combined flag of a pair with a continuous client is that of its clients. -/
private theorem Refines.isVurEnabled_eq (hT : Refines kind lib s T) {p : PropIdAreaId}
    {c : ClientIdType} {config : SubConfig}
    (hc : (T p c).bind Registration.config = some config) :
    (s.configAt p).isVurEnabled = (combine (s.configAt p).mConfigByClient).enableVur := by
  have hlookup := hT.lookup_configAt p c
  rw [hc] at hlookup
  have hnot : s.configAt p ≠ {} := by
    intro he
    rw [he, Finmap.lookup_empty] at hlookup
    cases hlookup
  cases hconfig : (s.pairState p).config with
  | none =>
      refine absurd ?_ hnot
      change (s.pairState p).config.getD {} = {}
      rw [hconfig, Option.getD_none]
  | some recorded =>
      have heq : s.configAt p = recorded := by
        change (s.pairState p).config.getD {} = recorded
        rw [hconfig, Option.getD_some]
      rw [heq] at hnot ⊢
      exact (congrArg ContSubConfigs.mEnableVur
        (((hT.pairs p).combined recorded hconfig).resolve_left hnot)).symm

/-- The manager filters for exactly the clients for which it has to. -/
theorem Refines.filtersFor_iff (hT : Refines kind lib s T) (p : PropIdAreaId)
    (c : ClientIdType) : s.filtersFor p c = true ↔ T.FiltersFor p c := by
  rw [filtersFor, Bool.and_eq_true, Table.FiltersFor, ContSubConfigs.isVurEnabledForClient,
    hT.lookup_configAt]
  cases hc : (T p c).bind Registration.config with
  | none => simp
  | some config =>
      have hexists : (∃ config', some config = some config' ∧ config'.enableVur = true) ↔
          config.enableVur = true := by simp
      simp only [hexists]
      refine and_congr_right fun _ => ?_
      rw [hT.isVurEnabled_eq hc, Bool.not_eq_true', ← Bool.not_eq_true, combine_enableVur_iff]
      simp only [hT.lookup_configAt, not_forall, Bool.not_eq_true, exists_prop]

/-- The inbox of a callback collects what the table has to deliver to it. -/
private theorem values_foldl_receiveValue (hT : Refines kind lib s T) (k : CallbackType)
    (vs : List VehiclePropValue) (inbox : Inbox) :
    (vs.foldl (s.receiveValue k) inbox).values =
      inbox.values ++ T.deliver k inbox.remembered vs := by
  induction vs generalizing inbox with
  | nil => rw [List.foldl_nil, Table.deliver, List.append_nil]
  | cons v vs ih =>
      rw [List.foldl_cons, ih, Table.deliver]
      by_cases hheld : T.Holds k v.propIdAreaId
      · have hclient := (hT.client_eq_some_iff v.propIdAreaId k).mpr hheld
        rw [receiveValue, if_pos hclient, hT.resolution_eq, if_pos hheld]
        by_cases hfilter : T.FiltersFor v.propIdAreaId k.asBinder
        · rw [(hT.filtersFor_iff v.propIdAreaId k.asBinder).mpr hfilter, if_pos hfilter]
          simp only [Inbox.receive, ite_true]
          split
          · rw [List.append_assoc]
          · rw [List.nil_append]
        · have hf : s.filtersFor v.propIdAreaId k.asBinder = false := by
            rw [← Bool.not_eq_true, hT.filtersFor_iff]
            exact hfilter
          rw [hf, if_neg hfilter]
          simp only [Inbox.receive, Bool.false_eq_true, ite_false]
          rw [List.append_assoc, List.singleton_append]
      · rw [receiveValue, if_neg (mt (hT.client_eq_some_iff v.propIdAreaId k).mp hheld),
          if_neg hheld]

/-- One event goes to the callbacks of its pair and to no other one. -/
private theorem valueAt_foldl_pushBack {Sent : Type}
    {clients : UnorderedMap ClientIdType CallbackType}
    (hkey : ∀ c k, clients.lookup c = some k → k.asBinder = c) (order : Traversal ClientIdType)
    (sent : Sent) (acc : ClientEvents Sent) (k : CallbackType) :
    ((order.entries clients).foldl (fun acc entry => pushBack acc entry.2 sent) acc).valueAt k [] =
      if clients.lookup k.asBinder = some k then acc.valueAt k [] ++ [sent]
      else acc.valueAt k [] := by
  have hview (entries : List (ClientIdType × CallbackType)) (acc : ClientEvents Sent) :
      (entries.foldl (fun acc entry => pushBack acc entry.2 sent) acc).valueAt k [] =
        entries.foldl (fun l entry => if k = entry.2 then l ++ [sent] else l)
          (acc.valueAt k []) := by
    induction entries generalizing acc with
    | nil => rfl
    | cons entry entries ih => rw [List.foldl_cons, ih, valueAt_pushBack, List.foldl_cons]
  rw [hview, foldl_select (a := (k.asBinder, k)) (F := fun l => l ++ [sent])
    (order.nodup_entries clients)]
  · exact if_congr (order.mem_entries clients k.asBinder k) rfl rfl
  · intro _ l
    rw [if_pos rfl]
  · rintro ⟨c, k'⟩ hmem hne l
    refine if_neg fun hk => hne ?_
    cases hk
    rw [hkey c _ ((order.mem_entries clients c _).mp hmem)]

/-- The turn of an event in a stateless fan-out. -/
private def sendToAll {Event Sent : Type} (pairOf : Event → PropIdAreaId) (send : Event → Sent)
    (clientsByPair : UnorderedMap PropIdAreaId (UnorderedMap ClientIdType CallbackType))
    (order : Traversal ClientIdType) (acc : ClientEvents Sent) (e : Event) :
    ClientEvents Sent :=
  match clientsByPair.lookup (pairOf e) with
  | none => acc
  | some clients =>
      (order.entries clients).foldl (fun acc entry => pushBack acc entry.2 (send e)) acc

/-- A stateless fan-out gives each callback the events of the pairs it holds. -/
private theorem lookup_fanOut {Event Sent : Type} (pairOf : Event → PropIdAreaId)
    (send : Event → Sent)
    {clientsByPair : UnorderedMap PropIdAreaId (UnorderedMap ClientIdType CallbackType)}
    (hkey : ∀ p c k, (clientsByPair.lookup p).bind (fun clients => clients.lookup c) = some k →
      k.asBinder = c)
    (order : Traversal ClientIdType) (events : List Event) (k : CallbackType) :
    (fanOut pairOf send clientsByPair order events).lookup k =
      entryOf ((events.filter fun e => decide ((clientsByPair.lookup (pairOf e)).bind
        (fun clients => clients.lookup k.asBinder) = some k)).map send) := by
  let held (e : Event) : Bool := decide ((clientsByPair.lookup (pairOf e)).bind
    (fun clients => clients.lookup k.asBinder) = some k)
  let turn := sendToAll pairOf send clientsByPair order
  have hturn (acc : ClientEvents Sent) (e : Event) : (turn acc e).valueAt k [] =
      if held e then acc.valueAt k [] ++ [send e] else acc.valueAt k [] := by
    cases hc : clientsByPair.lookup (pairOf e) with
    | none => simp [turn, sendToAll, held, hc]
    | some clients =>
        have hkey' (c : ClientIdType) (k : CallbackType) (hk : clients.lookup c = some k) :
            k.asBinder = c := hkey (pairOf e) c k (by rw [hc, Option.bind_some, hk])
        simp only [turn, sendToAll, held, hc, Option.bind_some, decide_eq_true_eq]
        exact valueAt_foldl_pushBack hkey' order (send e) acc k
  have hvalues (acc : ClientEvents Sent) : (events.foldl turn acc).valueAt k [] =
      acc.valueAt k [] ++ (events.filter held).map send := by
    induction events generalizing acc with
    | nil => rw [List.foldl_nil, List.filter_nil, List.map_nil, List.append_nil]
    | cons e events ih =>
        rw [List.foldl_cons, ih, hturn, List.filter_cons]
        split
        · rw [List.map_cons, List.append_assoc, List.singleton_append]
        · rfl
  have hentries : NoEmptyEntry (events.foldl turn ∅) := by
    refine List.foldlRecOn (motive := NoEmptyEntry) events turn (fun k => by simp)
      fun acc hacc e _ => ?_
    simp only [turn, sendToAll]
    split
    · exact hacc
    · exact List.foldlRecOn (motive := NoEmptyEntry) _ _ hacc fun _ h entry _ => h.pushBack _ _
  have hempty : UnorderedMap.valueAt (∅ : ClientEvents Sent) k [] = [] := by
    rw [UnorderedMap.valueAt, Finmap.lookup_empty, Option.getD_none]
  have hresult := hvalues ∅
  rw [hempty, List.nil_append] at hresult
  rw [entryOf, ← hresult]
  exact hentries.lookup_eq k

/-- Every client of supported values is registered under the binder of its callback. -/
private theorem supported_keyedByBinder {as : List (Operation × VhalResult)}
    (h : Run hw lib {} as s) (p : PropIdAreaId) (c : ClientIdType) (k : CallbackType)
    (hk : s.supportedClient p c = some k) : k.asBinder = c := by
  revert p c k
  refine Path.invariant (P := fun s : SubscriptionManager =>
    ∀ p c k, s.supportedClient p c = some k → k.asBinder = c) h ?_ fun s a t hs hstep => ?_
  · intro p c k hk
    simp [supportedClient] at hk
  · rcases a with ⟨op, r⟩
    obtain ⟨acts, heff⟩ := step_effect hw hstep
    intro p c k hk
    cases heff.supported with
    | kept _ _ hmaps => exact hs p c k ((supportedClient_congr hmaps p c).symm.trans hk)
    | subscribed callback ps u _ hu hmaps =>
        rw [supportedClient_congr hmaps, supportedClient_foldl_hold,
          supportedClient_congr hu] at hk
        split at hk
        · next hc =>
          cases hk
          exact hc.2.symm
        · exact hs p c k hk
    | subscribeFailed _ _ _ _ hmaps =>
        exact hs p c k ((supportedClient_congr hmaps p c).symm.trans hk)
    | unsubscribed d ps u _ _ hu hmaps =>
        rw [supportedClient_congr hmaps, supportedClient_foldl_forget,
          supportedClient_congr hu] at hk
        split at hk
        · cases hk
        · exact hs p c k hk
    | unsubscribeFailed _ _ _ _ _ _ hmaps =>
        exact hs p c k ((supportedClient_congr hmaps p c).symm.trans hk)

/-- In every reachable state the fan-outs are exact: there is a table of the subscriptions
made by the run, and each callback gets the events of the pairs it holds in it. Property
values are defined as soon as their roundings are. -/
theorem fanOut_exact_of_run {as : List (Operation × VhalResult)} (h : Run hw lib {} as s)
    (hk : ∀ a ∈ as, a.1.RespectsKind kind) :
    ∃ T : Table Registration, Path (Table.Step Registration.mk lib) Table.empty as T ∧
      (∀ p c, s.client p c = (T p c).map Registration.callback) ∧
      (∀ updatedValues order result t,
        getSubscribedClients updatedValues order s = some (result, t) →
          ∀ k, result.lookup k = entryOf (T.deliver k (s.remembered k) updatedValues)) ∧
      (∀ updatedValues order,
        (∀ v ∈ updatedValues, ∀ c, T v.propIdAreaId c ≠ none →
          (sanitizeByResolution v.value (T.resolutionFor v.propIdAreaId c)).isSome) →
        ∃ result t, getSubscribedClients updatedValues order s = some (result, t)) ∧
      (∀ errorEvents order k,
        (getSubscribedClientsForErrorEvents errorEvents order s).lookup k =
          entryOf ((errorEvents.filter fun e => T.Holds k ⟨e.propId, e.areaId⟩).map
            fun e => ⟨e.propId, e.areaId, e.errorCode⟩)) ∧
      ∀ ps order k, (getSubscribedClientsForSupportedValueChange ps order s).lookup k =
        entryOf (ps.filter fun p => s.supportedClient p k.asBinder = some k) := by
  obtain ⟨T, hpath, hT⟩ := Run.refines h hk
  refine ⟨T, hpath, fun p => (hT.pairs p).client, fun updatedValues order result t hresult k => ?_,
    fun updatedValues order hdefined => ?_, fun errorEvents order k => ?_, fun ps order k => ?_⟩
  · have hinbox := congrArg Inbox.values
      (inbox_getSubscribedClients hT.keyedByBinder hresult k)
    rw [values_foldl_receiveValue hT] at hinbox
    change UnorderedMap.valueAt result k [] = [] ++ _ at hinbox
    rw [(keepsSubscriptions_getSubscribedClients hresult).2.lookup_eq, hinbox, List.nil_append]
    rfl
  · refine getSubscribedClients_defined order fun v hv c k hclient => ?_
    rw [hT.resolution_eq]
    refine hdefined v hv c fun hnone => ?_
    change (s.pairState v.propIdAreaId).client c = some k at hclient
    rw [(hT.pairs _).client, hnone] at hclient
    cases hclient
  · rw [getSubscribedClientsForErrorEvents, lookup_fanOut _ _ hT.keyedByBinder]
    congr 2
    refine List.filter_congr fun e _ => ?_
    rw [decide_eq_decide]
    exact hT.client_eq_some_iff ⟨e.propId, e.areaId⟩ k
  · rw [getSubscribedClientsForSupportedValueChange, lookup_fanOut _ _ (supported_keyedByBinder h),
      List.map_id]
    rfl

/-- A client that wants the variable update rate beside one that does not: of two equal
values in a batch it is given the first only. -/
theorem fanOut_exact_of_two_clients :
    ∃ as s T, Run (fun _ => .ok) default {} as s ∧
      Path (Table.Step Registration.mk default) Table.empty as T ∧
      ∃ result t, getSubscribedClients [{ prop := 1 }, { prop := 1, timestamp := 1 }]
          (.ascending _) s = some (result, t) ∧
        result.lookup ⟨0, 1⟩ = entryOf (T.deliver ⟨0, 1⟩ (s.remembered ⟨0, 1⟩)
          [{ prop := 1 }, { prop := 1, timestamp := 1 }]) ∧
        result.lookup ⟨0, 1⟩ = some [{ prop := 1 }] := by
  let values : List VehiclePropValue := [{ prop := 1 }, { prop := 1, timestamp := 1 }]
  obtain ⟨as, s, hrun, hops, hresult⟩ := exists_run_of_execute (fun _ => .ok) default
    [.subscribe ⟨0, 1⟩ [newSubscribeOptions 1 0 (.ofInt 10) .zero true] true,
      .subscribe ⟨0, 2⟩ [newSubscribeOptions 1 0 (.ofInt 10) .zero false] true]
    (fun s => (getSubscribedClients values (.ascending _) s).any
      (fun r => decide (r.1.lookup ⟨0, 1⟩ = some [{ prop := 1 }])) = true) (by decide)
  have hk : ∀ a ∈ as, a.1.RespectsKind fun _ => true := by
    intro a ha
    have hop := List.mem_map_of_mem (f := Prod.fst) ha
    rw [hops] at hop
    simp only [List.mem_cons, List.not_mem_nil, or_false] at hop
    rcases hop with h | h <;> (rw [h]; exact fun _ _ => rfl)
  obtain ⟨⟨result, t⟩, heq, hvalues⟩ := (Option.any_eq_true _ _).mp hresult
  obtain ⟨T, hpath, _, hexact, _⟩ := fanOut_exact_of_run hrun hk
  exact ⟨as, s, T, hrun, hpath, result, t, heq, hexact _ _ result t heq ⟨0, 1⟩,
    of_decide_eq_true hvalues⟩

end SubscriptionManager

end VhalCore.Subscription
