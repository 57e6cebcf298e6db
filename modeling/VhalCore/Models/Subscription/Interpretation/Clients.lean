import VhalCore.Models.Subscription.Interpretation.Effects

/-!
# Clients and held pairs along the acts

An act changes the subscription table at one entry. Folding the acts of an
operation over a table gives the effect of the operation on the table, complete or
interrupted, as long as a client holds every pair at which it has an entry. The
client maps of the manager are such a table, and so are they with the requested
configs added.
-/

namespace VhalCore.Subscription

/-- The callback of a client in the state of a pair. -/
def PairState.client (x : PairState) (c : ClientIdType) : Option CallbackType :=
  x.clients.bind fun clients => clients.lookup c

/-- A dropped client is gone, and the others stay. -/
theorem PairState.client_dropClient (x : PairState) (c d : ClientIdType) :
    (x.dropClient c).client d = if d = c then none else x.client d := by
  have hlookup : (Finmap.lookup d ((x.clients.getD ∅).erase c)) =
      if d = c then none else x.client d := by
    rw [UnorderedMap.lookup_erase_eq]
    refine if_congr Iff.rfl rfl ?_
    cases hx : x.clients with
    | none => simp only [Option.getD_none, Finmap.lookup_empty, client, hx, Option.bind_none]
    | some clients => simp only [Option.getD_some, client, hx, Option.bind_some]
  rw [← hlookup]
  by_cases he : (x.clients.getD ∅).erase c = ∅
  · simp only [dropClient, client, he, ite_true, Option.bind_none, Finmap.lookup_empty]
  · simp only [dropClient, client, he, ite_false, Option.bind_some]

/-- Dropping a client leaves no empty client map behind. -/
theorem PairState.clients_dropClient_ne (x : PairState) (c : ClientIdType) :
    (x.dropClient c).clients ≠ some ∅ := by
  by_cases he : (x.clients.getD ∅).erase c = ∅
  · simp only [dropClient, he, ite_true, ne_eq, reduceCtorEq, not_false_eq_true]
  · simp only [dropClient, he, ite_false, ne_eq, Option.some.injEq, not_false_eq_true]

/-- The entries of the clients after an event, from those before it. -/
def PairEvent.update {S : Type} (entry : CallbackType → Option SubConfig → S) (e : PairEvent)
    (f : ClientIdType → Option S) : ClientIdType → Option S :=
  match e with
  | .subscribed callback config =>
      Function.update f callback.asBinder (some (entry callback config))
  | .unsubscribed c => Function.update f c none
  | _ => f

private theorem client_insert (x : PairState) (callback : CallbackType) (d : ClientIdType)
    {y : PairState}
    (hy : y.clients = some ((x.clients.getD ∅).insert callback.asBinder callback)) :
    y.client d = Function.update x.client callback.asBinder (some callback) d := by
  rw [PairState.client, hy, Option.bind_some, UnorderedMap.lookup_insert_eq, Function.update_apply]
  refine if_congr Iff.rfl rfl ?_
  cases hx : x.clients with
  | none =>
      simp only [Option.getD_none, Finmap.lookup_empty, PairState.client, hx, Option.bind_none]
  | some clients => simp only [Option.getD_some, PairState.client, hx, Option.bind_some]

private theorem client_drop (x : PairState) (c : ClientIdType) :
    (x.dropClient c).client = Function.update x.client c none := by
  funext d
  rw [PairState.client_dropClient, Function.update_apply]

/-- An event changes the callback of its own client only. -/
theorem PairStep.client {x y : PairState} {e : PairEvent} (h : PairStep x e y) :
    y.client = e.update (fun callback _ => callback) x.client := by
  cases h with
  | onChangeKnown callback clients hc =>
      exact funext fun d => client_insert x callback d (by rw [hc, Option.getD_some])
  | onChangeNew callback hc =>
      exact funext fun d => client_insert x callback d (by rw [hc, Option.getD_none])
  | onChangeFailed => rfl
  | added callback config => exact funext fun d => client_insert x callback d rfl
  | addFailed => rfl
  | removed c config hc => exact client_drop _ c
  | removeFailed => rfl
  | notSubscribed c hf hc =>
      refine (Function.update_eq_self_iff.mpr ?_).symm
      rw [PairState.client, hc, Option.bind_none]
  | onChangeShared c => exact client_drop _ c
  | onChangeLast c => exact client_drop _ c
  | onChangeLastFailed => rfl
  | delivered => rfl

private theorem some_insert_ne_empty {m : UnorderedMap ClientIdType CallbackType}
    (c : ClientIdType) (callback : CallbackType) : some (m.insert c callback) ≠ some ∅ := by
  intro h
  have hlookup := congrArg (Finmap.lookup c) (Option.some.inj h)
  rw [Finmap.lookup_insert, Finmap.lookup_empty] at hlookup
  exact absurd hlookup nofun

/-- No event leaves an empty client map behind. -/
theorem PairStep.clients_ne {x y : PairState} {e : PairEvent} (h : PairStep x e y)
    (hx : x.clients ≠ some ∅) : y.clients ≠ some ∅ := by
  cases h with
  | onChangeKnown callback clients hc => exact some_insert_ne_empty _ _
  | onChangeNew callback hc => exact some_insert_ne_empty _ _
  | onChangeFailed => exact hx
  | added callback config => exact some_insert_ne_empty _ _
  | addFailed => exact hx
  | removed c => exact PairState.clients_dropClient_ne _ c
  | removeFailed => exact hx
  | notSubscribed => exact hx
  | onChangeShared c => exact PairState.clients_dropClient_ne _ c
  | onChangeLast c => exact PairState.clients_dropClient_ne _ c
  | onChangeLastFailed => exact hx
  | delivered => exact hx

section Acts

variable {S : Type} (entry : CallbackType → Option SubConfig → S)

/-- The effect of an act on a table. -/
def Table.act (T : Table S) (a : Act) : Table S :=
  match a.2 with
  | .subscribed callback config => T.subscribe a.1 callback.asBinder (entry callback config)
  | .unsubscribed c => T.unsubscribe c fun p => p = a.1
  | _ => T

/-- An act changes its own pair. -/
theorem Table.act_self (T : Table S) (a : Act) :
    T.act entry a a.1 = a.2.update entry (T a.1) := by
  rcases a with ⟨p, e⟩
  cases e with
  | subscribed callback config =>
      funext d
      simp only [act, PairEvent.update, subscribe_apply, Function.update_apply, true_and]
  | unsubscribed c =>
      funext d
      simp only [act, PairEvent.update, unsubscribe, Function.update_apply, and_true]
  | _ => rfl

/-- An act changes no other pair. -/
theorem Table.act_of_ne (T : Table S) {a : Act} {q : PropIdAreaId} (hq : q ≠ a.1) :
    T.act entry a q = T q := by
  rcases a with ⟨p, e⟩
  cases e with
  | subscribed callback config =>
      funext d
      simp only [act, subscribe_apply]
      rw [if_neg fun h => hq h.1]
  | unsubscribed c =>
      funext d
      simp only [act, unsubscribe]
      rw [if_neg fun h => hq h.2]
  | _ => rfl

/-- The client maps are the table of the callbacks. -/
theorem client_of_acts {X Y : PropIdAreaId → PairState} {acts : List Act}
    (h : Path PairsStep X acts Y) :
    (fun p => (Y p).client) =
      acts.foldl (Table.act fun callback _ => callback) fun p => (X p).client := by
  induction h with
  | nil => rfl
  | @snoc Y Z acts a _ hr ih =>
      rw [List.foldl_append, ← ih, List.foldl_cons, List.foldl_nil]
      funext p
      by_cases hp : p = a.1
      · subst hp
        rw [Table.act_self]
        exact hr.step.client
      · rw [Table.act_of_ne _ _ hp, hr.frame p hp]

/-- A failed item adds nothing to what the completed items did to a table. -/
theorem LoopActs.foldl_act {α : Type} {good : α → Act} {bad : α → Bool → Act} {xs done : List α}
    {r : VhalResult} {acts : List Act} (h : LoopActs good bad xs r done acts)
    (hbad : ∀ T x first, Table.act entry T (bad x first) = T) (T : Table S) :
    acts.foldl (Table.act entry) T = (done.map good).foldl (Table.act entry) T := by
  cases h with
  | completed => rfl
  | interrupted done x rest first e h =>
      rw [List.foldl_append, List.foldl_cons, List.foldl_nil, hbad]

/-- A loop without a failure completes all its items. -/
theorem LoopActs.done_eq {α : Type} {good : α → Act} {bad : α → Bool → Act} {xs done : List α}
    {acts : List Act} (h : LoopActs good bad xs (.ok ()) done acts) : done = xs := by
  cases h with
  | completed => rfl

/-- The turns done are the first of all. -/
theorem LoopActs.exists_rest {α : Type} {good : α → Act} {bad : α → Bool → Act}
    {xs done : List α} {r : VhalResult} {acts : List Act}
    (h : LoopActs good bad xs r done acts) : ∃ rest, xs = done ++ rest := by
  cases h with
  | completed => exact ⟨[], (List.append_nil _).symm⟩
  | interrupted done x rest first e h => exact ⟨x :: rest, h⟩

namespace SubscriptionManager

/-- The acts of a subscription are its turns in the table. -/
theorem foldl_act_subscribed (callback : CallbackType) (isContinuousProperty : Bool)
    (turns : List (SubscribeOptions × Int)) (T : Table S) :
    (turns.map (subscribedAct callback isContinuousProperty)).foldl (Table.act entry) T =
      Table.subscribeAll entry callback isContinuousProperty turns T := by
  rw [List.foldl_map]
  rfl

/-- The acts of an unsubscription remove its pairs from the table. -/
theorem foldl_act_unsubscribed (c : ClientIdType) (ps : List PropIdAreaId) (T : Table S) :
    (ps.map (unsubscribedAct c)).foldl (Table.act entry) T = T.unsubscribe c fun p => p ∈ ps := by
  induction ps generalizing T with
  | nil =>
      funext p d
      rw [Table.unsubscribe, if_neg (fun h => absurd h.2 List.not_mem_nil)]
      rfl
  | cons q ps ih =>
      rw [List.map_cons, List.foldl_cons, ih]
      funext p d
      simp only [Table.act, unsubscribedAct, Table.unsubscribe, List.mem_cons]
      by_cases hd : d = c
      · by_cases hp : p ∈ ps
        · simp only [hd, hp, or_true, and_self, ite_true]
        · simp only [hd, hp, and_false, ite_false, true_and, or_false]
      · simp only [hd, false_and, ite_false]

/-- The acts of a delivery leave the table. -/
theorem foldl_act_delivered {acts : List Act} (h : ∀ a ∈ acts, a.2 = .delivered) (T : Table S) :
    acts.foldl (Table.act entry) T = T := by
  induction acts with
  | nil => rfl
  | cons a acts ih =>
      have ha : Table.act entry T a = T := by
        rw [Table.act, h a (List.mem_cons_self ..)]
      rw [List.foldl_cons, ha]
      exact ih fun b hb => h b (List.mem_cons_of_mem _ hb)

/-- A client holds every pair at which it has an entry. -/
def Covers (s : SubscriptionManager) (T : Table S) : Prop :=
  ∀ p c, T p c ≠ none → p ∈ s.held c

/-- Dropping the held pairs of a client is dropping all its pairs. -/
private theorem unsubscribe_visited {s : SubscriptionManager} {T : Table S} (hs : s.Covers T)
    (c : ClientIdType) {P Q : PropIdAreaId → Prop} [DecidablePred P] [DecidablePred Q]
    (h : ∀ p, p ∈ s.held c → (P p ↔ Q p)) : T.unsubscribe c P = T.unsubscribe c Q := by
  funext p d
  rw [Table.unsubscribe, Table.unsubscribe]
  by_cases hd : d = c
  · subst hd
    by_cases hp : T p d = none
    · rw [hp, ite_self, ite_self]
    · exact if_congr (and_congr Iff.rfl (h p (hs p d hp))) rfl rfl
  · rw [if_neg fun h => hd h.1, if_neg fun h => hd h.1]

theorem mem_propIdAreaIdsToUnsubscribe {propIds : List Int} {order : Traversal PropIdAreaId}
    {subscribed : Finset PropIdAreaId} {p : PropIdAreaId} :
    p ∈ propIdAreaIdsToUnsubscribe propIds order subscribed ↔
      p ∈ subscribed ∧ p.propId ∈ propIds := by
  rw [propIdAreaIdsToUnsubscribe, List.mem_filter, order.mem, List.contains_iff_mem]

variable {hw : Nat → StatusCode} {lib : MathLibrary} {s t : SubscriptionManager}

/-- The acts of a call apply it to the table, completely or up to a failing hardware
call. -/
theorem Operation.Effect.table {op : Operation} {r : VhalResult} {acts : List Act}
    (h : op.Effect hw lib s r t acts) {T : Table S} (hs : s.Covers T) :
    acts.foldl (Table.act entry) T = T.apply entry lib op ∨
    (∃ n, hw n ≠ .ok) ∧ (∃ e, r = .error e) ∧
      Table.Interrupted entry lib T op (acts.foldl (Table.act entry) T) := by
  cases h with
  | rejected callback options isContinuousProperty e hcheck =>
      refine Or.inl ?_
      rw [Table.apply, hcheck]
      rfl
  | subscribe callback options isContinuousProperty _ _ done _ hcheck h =>
      rw [h.loop.foldl_act entry (fun _ _ _ => rfl), foldl_act_subscribed]
      cases r with
      | ok u =>
          refine Or.inl ?_
          rw [h.loop.done_eq, Table.apply, hcheck]
      | error e =>
          obtain ⟨rest, hrest⟩ := h.loop.exists_rest
          exact Or.inr ⟨h.failed e rfl, ⟨e, rfl⟩,
            .subscribe callback options isContinuousProperty done rest hcheck hrest⟩
  | unsubscribe c propIds order _ u _ done _ h hu =>
      rw [h.loop.foldl_act entry (fun _ _ _ => rfl), foldl_act_unsubscribed]
      cases r with
      | ok v =>
          refine Or.inl (unsubscribe_visited hs c fun p hp => ?_)
          rw [h.loop.done_eq, mem_propIdAreaIdsToUnsubscribe]
          exact ⟨fun h => h.2, fun h => ⟨hp, h⟩⟩
      | error e =>
          have hdone : T.unsubscribe c (fun p => p ∈ done) =
              T.unsubscribe c fun p => p.propId ∈ propIds ∧ p ∈ done := by
            refine unsubscribe_visited hs c fun p _ => ⟨fun hp => ⟨?_, hp⟩, fun hp => hp.2⟩
            exact (mem_propIdAreaIdsToUnsubscribe.mp (h.loop.subset hp)).2
          rw [hdone]
          exact Or.inr ⟨h.failed e rfl, ⟨e, rfl⟩, .unsubscribe c propIds order done⟩
  | unsubscribeClientFailed c order e _ done _ h =>
      rw [h.loop.foldl_act entry (fun _ _ _ => rfl), foldl_act_unsubscribed]
      exact Or.inr ⟨h.failed e rfl, ⟨e, rfl⟩, .unsubscribeClient c order done⟩
  | unsubscribeClient c order _ u _ done _ h hu =>
      rw [h.loop.foldl_act entry (fun _ _ _ => rfl), foldl_act_unsubscribed]
      refine Or.inl (unsubscribe_visited hs c fun p hp => ?_)
      rw [h.loop.done_eq, order.mem]
      exact iff_of_true hp trivial
  | getSubscribedClients _ _ _ _ _ _ _ hacts => exact Or.inl (foldl_act_delivered entry hacts T)
  | subscribeSupportedValueChange => exact Or.inl rfl
  | unsubscribeSupportedValueChange => exact Or.inl rfl

/-- A held pair is added to those of its client. -/
theorem mem_valueAt_holdPair (c d : ClientIdType) (p q : PropIdAreaId) (m : HeldPairs) :
    q ∈ (holdPair c p m).valueAt d ∅ ↔ q ∈ m.valueAt d ∅ ∨ d = c ∧ q = p := by
  by_cases hd : d = c
  · subst hd
    rw [holdPair, UnorderedMap.valueAt_insert_self, Finset.mem_insert, or_comm]
    simp only [true_and]
  · simp only [holdPair, UnorderedMap.valueAt, Finmap.lookup_insert_of_ne _ hd, hd, false_and,
      or_false]

/-- A released pair is removed from those of its client. -/
theorem mem_valueAt_releasePair (c d : ClientIdType) (p q : PropIdAreaId) (m : HeldPairs) :
    q ∈ (releasePair c p m).valueAt d ∅ ↔ q ∈ m.valueAt d ∅ ∧ ¬(d = c ∧ q = p) := by
  by_cases hd : d = c
  · subst hd
    rw [releasePair, UnorderedMap.valueAt_insert_self, Finset.mem_erase, and_comm]
    simp only [ne_eq, true_and]
  · simp only [releasePair, UnorderedMap.valueAt, Finmap.lookup_insert_of_ne _ hd, hd, false_and,
      not_false_eq_true, and_true]

/-- The pairs held after the completed turns of `subscribe`. -/
theorem mem_valueAt_foldl_holdPair (c d : ClientIdType) (turns : List (SubscribeOptions × Int))
    (q : PropIdAreaId) (m : HeldPairs) :
    q ∈ (turns.foldl (fun m turn => holdPair c ⟨turn.1.propId, turn.2⟩ m) m).valueAt d ∅ ↔
      q ∈ m.valueAt d ∅ ∨ d = c ∧ ∃ turn ∈ turns, q = ⟨turn.1.propId, turn.2⟩ := by
  induction turns generalizing m with
  | nil =>
      simp only [List.foldl_nil, List.not_mem_nil, false_and, exists_false, and_false, or_false]
  | cons turn turns ih =>
      rw [List.foldl_cons, ih, mem_valueAt_holdPair, or_assoc, ← and_or_left]
      simp only [List.mem_cons, or_and_right, exists_or, exists_eq_left]

/-- The pairs held after the completed turns of `unsubscribe`. -/
theorem mem_valueAt_foldl_releasePair (c d : ClientIdType) (ps : List PropIdAreaId)
    (q : PropIdAreaId) (m : HeldPairs) :
    q ∈ (ps.foldl (fun m p => releasePair c p m) m).valueAt d ∅ ↔
      q ∈ m.valueAt d ∅ ∧ ¬(d = c ∧ q ∈ ps) := by
  induction ps generalizing m with
  | nil => simp only [List.foldl_nil, List.not_mem_nil, and_false, not_false_eq_true, and_true]
  | cons p ps ih =>
      rw [List.foldl_cons, ih, mem_valueAt_releasePair, and_assoc, ← not_or, ← and_or_left,
        List.mem_cons]

theorem foldl_book_id (ps : List PropIdAreaId) (m : HeldPairs) :
    ps.foldl (fun m _ => m) m = m := by
  induction ps with
  | nil => rfl
  | cons p ps ih => exact ih

/-- An erased client holds no pair. -/
theorem mem_valueAt_erase (c d : ClientIdType) (q : PropIdAreaId) (m : HeldPairs) :
    q ∈ UnorderedMap.valueAt (m.erase c) d ∅ ↔ q ∈ m.valueAt d ∅ ∧ d ≠ c := by
  by_cases hd : d = c
  · subst hd
    simp only [UnorderedMap.valueAt, Finmap.lookup_erase, Option.getD_none, Finset.notMem_empty,
      ne_eq, not_true_eq_false, and_false]
  · simp only [UnorderedMap.valueAt, Finmap.lookup_erase_ne hd, ne_eq, hd, not_false_eq_true,
      and_true]

/-- The entries after a `subscribe` call are the old ones and those of its turns. -/
theorem subscribeAll_ne_none {callback : CallbackType} {isContinuousProperty : Bool}
    {turns : List (SubscribeOptions × Int)} {T : Table S} {p : PropIdAreaId} {d : ClientIdType} :
    Table.subscribeAll entry callback isContinuousProperty turns T p d ≠ none ↔
      T p d ≠ none ∨ d = callback.asBinder ∧ ∃ turn ∈ turns, p = ⟨turn.1.propId, turn.2⟩ := by
  induction turns generalizing T with
  | nil => simp [Table.subscribeAll]
  | cons turn turns ih =>
      have hfirst : T.subscribe ⟨turn.1.propId, turn.2⟩ callback.asBinder
          (entry callback (requestedConfig isContinuousProperty turn.1)) p d ≠ none ↔
          T p d ≠ none ∨ d = callback.asBinder ∧ p = ⟨turn.1.propId, turn.2⟩ := by
        rw [Table.subscribe_apply]
        split
        · next hc => exact iff_of_true nofun (Or.inr ⟨hc.2, hc.1⟩)
        · next hc => exact ⟨Or.inl, fun h => h.resolve_right fun hr => hc ⟨hr.2, hr.1⟩⟩
      rw [Table.subscribeAll, List.foldl_cons, ← Table.subscribeAll, ih, hfirst, or_assoc,
        ← and_or_left]
      simp only [List.mem_cons, or_and_right, exists_or, exists_eq_left]

/-- What is left of a table after an unsubscription. -/
theorem unsubscribe_ne_none {c : ClientIdType} {P : PropIdAreaId → Prop} [DecidablePred P]
    {T : Table S} {p : PropIdAreaId} {d : ClientIdType} :
    T.unsubscribe c P p d ≠ none ↔ T p d ≠ none ∧ ¬(d = c ∧ P p) := by
  rw [Table.unsubscribe]
  split
  · next hc => exact iff_of_false (fun h => h rfl) fun h => h.2 hc
  · next hc => exact ⟨fun h => ⟨h, hc⟩, fun h => h.1⟩

/-- Every call keeps the pairs held at which a client has an entry. -/
theorem Operation.Effect.covers {op : Operation} {r : VhalResult} {acts : List Act}
    (h : op.Effect hw lib s r t acts) {T : Table S} (hs : s.Covers T) :
    t.Covers (acts.foldl (Table.act entry) T) := by
  cases h with
  | rejected => exact hs
  | subscribe callback options isContinuousProperty _ _ done _ hcheck h =>
      intro p c hp
      rw [h.loop.foldl_act entry (fun _ _ _ => rfl), foldl_act_subscribed] at hp
      rw [held, h.held, mem_valueAt_foldl_holdPair]
      exact ((subscribeAll_ne_none entry).mp hp).imp_left (hs p c)
  | unsubscribe c propIds order _ u _ done _ h hu =>
      intro p d hp
      rw [h.loop.foldl_act entry (fun _ _ _ => rfl), foldl_act_unsubscribed] at hp
      obtain ⟨hold, hnot⟩ := unsubscribe_ne_none.mp hp
      have hmem : p ∈ u.held d := by
        rw [held, h.held, mem_valueAt_foldl_releasePair]
        exact ⟨hs p d hold, hnot⟩
      subst hu
      split
      · next hempty =>
        rw [held, mem_valueAt_erase]
        refine ⟨hmem, ?_⟩
        rintro rfl
        rw [hempty.2] at hmem
        exact Finset.notMem_empty p hmem
      · exact hmem
  | unsubscribeClientFailed c order e _ done _ h =>
      intro p d hp
      rw [h.loop.foldl_act entry (fun _ _ _ => rfl), foldl_act_unsubscribed] at hp
      rw [held, h.held, foldl_book_id]
      exact hs p d (unsubscribe_ne_none.mp hp).1
  | unsubscribeClient c order _ u _ done _ h hu =>
      intro p d hp
      rw [h.loop.foldl_act entry (fun _ _ _ => rfl), foldl_act_unsubscribed] at hp
      obtain ⟨hold, hnot⟩ := unsubscribe_ne_none.mp hp
      have hkeep := (keepsPairs_unsubscribeSupportedValueChangeLocked hw c
        (order.visit (u.supportedHeld c))
        { u with mSubscribedPropsByClient := u.mSubscribedPropsByClient.erase c }).held
      rw [hu] at hkeep
      rw [held, hkeep, h.held, foldl_book_id, mem_valueAt_erase]
      refine ⟨hs p d hold, ?_⟩
      rintro rfl
      refine hnot ⟨rfl, ?_⟩
      rw [h.loop.done_eq, order.mem]
      exact hs p d hold
  | getSubscribedClients _ _ _ _ _ h _ hacts =>
      intro p d hp
      rw [foldl_act_delivered entry hacts] at hp
      rw [held, (keepsSubscriptions_getSubscribedClients h).1.held]
      exact hs p d hp
  | subscribeSupportedValueChange callback propIdAreaIds _ _ h =>
      have hkeep := (keepsPairs_subscribeSupportedValueChange hw callback propIdAreaIds s).held
      rw [h] at hkeep
      intro p d hp
      rw [held, hkeep]
      exact hs p d hp
  | unsubscribeSupportedValueChange c propIdAreaIds _ _ h =>
      have hkeep := (keepsPairs_unsubscribeSupportedValueChangeLocked hw c propIdAreaIds s).held
      rw [h] at hkeep
      intro p d hp
      rw [held, hkeep]
      exact hs p d hp

end SubscriptionManager

end Acts

end VhalCore.Subscription
