import VhalCore.Models.Subscription.Correctness.SupportedValues
import VhalCore.Models.Subscription.Interpretation.Refinement

/-!
# What a call does to each client

A call has a client, and everything that is kept for another one stays as it is, whether the call
succeeds or is refused by the hardware. What is kept for the client of a call grows only by a
subscription: what it is given is rounded as it has asked for. A client that has been unsubscribed
as a whole is in none of the maps.
-/

namespace VhalCore.Subscription

/-- The config of a client of a pair, for a client of a continuous pair. -/
def PairState.clientConfig (x : PairState) (c : ClientIdType) : Option SubConfig :=
  (x.config.getD {}).mConfigByClient.lookup c

theorem PairState.clientConfig_eq_none {x : PairState} (hx : x.config = none) (c : ClientIdType) :
    x.clientConfig c = none := by
  rw [clientConfig, hx]
  rfl

/-- With the last client of a pair all configs of the pair go, else they stay. -/
theorem PairState.clientConfig_dropClient (x : PairState) (c d : ClientIdType) :
    ((x.dropClient c).clientConfig d = none ∧ (x.dropClient c).client d = none) ∨
      (x.dropClient c).clientConfig d = x.clientConfig d := by
  rcases PairState.config_dropClient_cases x c with ⟨hclients, hconfig⟩ | hconfig
  · refine Or.inl ⟨PairState.clientConfig_eq_none hconfig d, ?_⟩
    rw [client, hclients, Option.bind_none]
  · exact Or.inr (by rw [clientConfig, clientConfig, hconfig])

/-- A config of a client is one with which it has subscribed, and a client without a config has
subscribed without one. -/
structure PairState.AsAsked (asked : ClientIdType → Option SubConfig → Prop) (x : PairState) :
    Prop where
  config : ∀ c config, x.clientConfig c = some config → asked c (some config)
  client : ∀ c, x.client c ≠ none → x.clientConfig c = none → asked c none

theorem PairState.AsAsked.of_eq {asked : ClientIdType → Option SubConfig → Prop} {x y : PairState}
    (hx : x.AsAsked asked) (hclients : y.clients = x.clients)
    (hconfig : ∀ c, y.clientConfig c = x.clientConfig c) : y.AsAsked asked where
  config c config hc := hx.config c config ((hconfig c).symm.trans hc)
  client c hne hc := hx.client c (by rwa [PairState.client, ← hclients]) ((hconfig c).symm.trans hc)

/-- A pair is as asked after a client has left it. -/
theorem PairState.AsAsked.dropClient {asked : ClientIdType → Option SubConfig → Prop}
    {x y : PairState} (hx : x.AsAsked asked) {c : ClientIdType} (hclients : y.clients = x.clients)
    (hconfig : ∀ d, d ≠ c → y.clientConfig d = x.clientConfig d)
    (hself : y.clientConfig c = none) : (y.dropClient c).AsAsked asked where
  config d config hd := by
    rcases PairState.clientConfig_dropClient y c d with ⟨hnone, _⟩ | hsame
    · exact absurd (hnone.symm.trans hd) nofun
    · rw [hsame] at hd
      by_cases hdc : d = c
      · subst hdc
        exact absurd (hself.symm.trans hd) nofun
      · exact hx.config d config ((hconfig d hdc).symm.trans hd)
  client d hne hd := by
    have hclient := PairState.client_dropClient y c d
    by_cases hdc : d = c
    · rw [if_pos hdc] at hclient
      exact absurd hclient hne
    · rcases PairState.clientConfig_dropClient y c d with ⟨_, hnone⟩ | hsame
      · exact absurd hnone hne
      · have hkept : y.client d = x.client d := by
          rw [PairState.client, PairState.client, hclients]
        rw [hclient, if_neg hdc, hkept] at hne
        exact hx.client d hne ((hconfig d hdc).symm.trans (hsame.symm.trans hd))

/-- An event keeps this, if the client of a new subscription has asked for it. -/
theorem PairStep.asAsked {x y : PairState} {e : PairEvent} (h : PairStep x e y)
    {asked : ClientIdType → Option SubConfig → Prop} (hx : x.AsAsked asked)
    (hasked : ∀ callback config, e = .subscribed callback config →
      asked callback.asBinder config) : y.AsAsked asked := by
  have hclient := h.client
  have honChange (callback : CallbackType) (he : e = .subscribed callback none)
      (hconfig : y.config = x.config) : y.AsAsked asked := by
    have hsame (c : ClientIdType) : y.clientConfig c = x.clientConfig c := by
      rw [PairState.clientConfig, hconfig, PairState.clientConfig]
    refine ⟨fun c config hc => hx.config c config ((hsame c).symm.trans hc), fun c hne hc => ?_⟩
    by_cases hcb : c = callback.asBinder
    · subst hcb
      exact hasked callback none he
    · rw [hclient, he, PairEvent.update, Function.update_of_ne hcb] at hne
      exact hx.client c hne ((hsame c).symm.trans hc)
  cases h with
  | onChangeKnown callback => exact honChange callback rfl rfl
  | onChangeNew callback => exact honChange callback rfl rfl
  | onChangeFailed => exact hx.of_eq rfl fun _ => rfl
  | added callback config =>
      have hlookup (c : ClientIdType) := ContSubConfigs.lookup_addClient (x.config.getD {})
        callback.asBinder c config
      refine ⟨fun c config' hc => ?_, fun c hne hc => ?_⟩
      · have heq := (hlookup c).symm.trans hc
        split at heq
        · next hcb =>
          cases heq
          subst hcb
          exact hasked callback _ rfl
        · exact hx.config c config' heq
      · have heq := (hlookup c).symm.trans hc
        split at heq
        · cases heq
        · next hcb =>
          rw [hclient, PairEvent.update, Function.update_of_ne hcb] at hne
          exact hx.client c hne heq
  | addFailed => exact hx.of_eq rfl fun _ => rfl
  | removed c config hconfig =>
      have hlookup (d : ClientIdType) := ContSubConfigs.lookup_removeClient config c d
      refine hx.dropClient rfl (fun d hd => ?_) ((hlookup c).trans (if_pos rfl))
      refine ((hlookup d).trans (if_neg hd)).trans ?_
      rw [PairState.clientConfig, hconfig, Option.getD_some]
  | removeFailed => exact hx.of_eq rfl fun _ => rfl
  | notSubscribed => exact hx
  | onChangeShared c hconfig =>
      exact hx.dropClient rfl (fun _ _ => rfl) (PairState.clientConfig_eq_none hconfig c)
  | onChangeLast c hconfig =>
      exact hx.dropClient rfl (fun _ _ => rfl) (PairState.clientConfig_eq_none hconfig c)
  | onChangeLastFailed => exact hx.of_eq rfl fun _ => rfl
  | delivered => exact hx.of_eq rfl fun _ => rfl

namespace SubscriptionManager

variable {hw : Nat → StatusCode} {lib : MathLibrary} {s t : SubscriptionManager}

/-- The client for which a call makes entries. -/
def Operation.subscriber : Operation → Option ClientIdType
  | .subscribe callback _ _ | .subscribeSupportedValueChange callback _ => some callback.asBinder
  | _ => none

/-- The client that makes a call, or for which it is made. -/
def Operation.client : Operation → Option ClientIdType
  | .subscribe callback _ _ | .subscribeSupportedValueChange callback _ => some callback.asBinder
  | .unsubscribe c _ _ | .unsubscribeClient c _ | .unsubscribeSupportedValueChange c _ => some c
  | .getSubscribedClients _ _ => none

/-- The pairs of a client after a call: they change only by a call for the client, and grow only
by a subscription of the client. -/
structure Operation.Treats (op : Operation) (d : ClientIdType)
    (before after : Finset PropIdAreaId) : Prop where
  frame : op.client ≠ some d → after = before
  shrinks : op.subscriber ≠ some d → after ⊆ before

theorem Operation.Treats.of_eq (op : Operation) (d : ClientIdType)
    {before after : Finset PropIdAreaId} (h : after = before) : op.Treats d before after :=
  ⟨fun _ => h, fun _ => h.subset⟩

/-- A call that gives up pairs of `c`. -/
theorem Operation.Treats.of_removed {op : Operation} {c d : ClientIdType}
    (removed : PropIdAreaId → Prop) (hc : op.client = some c) {before after : Finset PropIdAreaId}
    (h : ∀ p, p ∈ after ↔ p ∈ before ∧ ¬(d = c ∧ removed p)) : op.Treats d before after where
  frame hd := by
    refine Finset.ext fun p => (h p).trans (and_iff_left ?_)
    rintro ⟨rfl, _⟩
    exact hd hc
  shrinks _ p hp := ((h p).mp hp).1

/-- A call that adds pairs of `c`. -/
theorem Operation.Treats.of_added {op : Operation} {c d : ClientIdType}
    (added : PropIdAreaId → Prop) (hc : op.client = some c) (hs : op.subscriber = some c)
    {before after : Finset PropIdAreaId} (h : ∀ p, p ∈ after ↔ p ∈ before ∨ d = c ∧ added p) :
    op.Treats d before after where
  frame hd := by
    refine Finset.ext fun p => (h p).trans (or_iff_left ?_)
    rintro ⟨rfl, _⟩
    exact hd hc
  shrinks hd p hp := by
    refine ((h p).mp hp).resolve_right ?_
    rintro ⟨rfl, _⟩
    exact hd hs

theorem Operation.Treats.ne_empty {op : Operation} {d : ClientIdType}
    {before after : Finset PropIdAreaId} (h : op.Treats d before after)
    (hsub : op.subscriber ≠ some d) (hne : after ≠ ∅) : before ≠ ∅ := by
  rintro rfl
  exact hne (Finset.subset_empty.mp (h.shrinks hsub))

/-- The held pairs are treated so by every call. -/
theorem Operation.Effect.treats_held {op : Operation} {r : VhalResult} {acts : List Act}
    (h : op.Effect hw lib s r t acts) (d : ClientIdType) : op.Treats d (s.held d) (t.held d) := by
  cases h with
  | rejected => exact .of_eq _ d rfl
  | subscribe callback options isContinuousProperty _ _ done _ hcheck h =>
      refine .of_added (fun p => ∃ turn ∈ done, p = ⟨turn.1.propId, turn.2⟩) rfl rfl
        fun p => ?_
      rw [held, h.held, mem_valueAt_foldl_holdPair]
      rfl
  | unsubscribe c propIds order _ u _ done _ h hu =>
      refine .of_removed (fun p => p ∈ done) rfl fun p => ?_
      have hmem : p ∈ u.held d ↔ p ∈ s.held d ∧ ¬(d = c ∧ p ∈ done) := by
        rw [held, h.held, mem_valueAt_foldl_releasePair]
        rfl
      rw [← hmem]
      subst hu
      split
      · next hempty =>
        rw [held, mem_valueAt_erase]
        refine and_iff_left_of_imp fun hp => ?_
        rintro rfl
        exact Finset.notMem_empty p (hempty.2 ▸ hp)
      · exact Iff.rfl
  | unsubscribeClientFailed c order e _ done _ h =>
      refine .of_eq _ d ?_
      rw [held, h.held, foldl_book_id]
      rfl
  | unsubscribeClient c order _ u _ done _ h hu =>
      refine .of_removed (fun _ => True) rfl fun p => ?_
      have hkeep := (keepsPairs_unsubscribeSupportedValueChangeLocked hw c
        (order.visit (u.supportedHeld c))
        { u with mSubscribedPropsByClient := u.mSubscribedPropsByClient.erase c }).held
      rw [hu] at hkeep
      rw [held, hkeep, h.held, foldl_book_id, mem_valueAt_erase, and_true]
      rfl
  | getSubscribedClients _ _ _ _ _ h =>
      refine .of_eq _ d ?_
      rw [held, (keepsSubscriptions_getSubscribedClients h).1.held]
      rfl
  | subscribeSupportedValueChange callback propIdAreaIds _ _ h =>
      have hkeep := (keepsPairs_subscribeSupportedValueChange hw callback propIdAreaIds s).held
      rw [h] at hkeep
      refine .of_eq _ d ?_
      rw [held, hkeep]
      rfl
  | unsubscribeSupportedValueChange c propIdAreaIds _ _ h =>
      have hkeep := (keepsPairs_unsubscribeSupportedValueChangeLocked hw c propIdAreaIds s).held
      rw [h] at hkeep
      refine .of_eq _ d ?_
      rw [held, hkeep]
      rfl

/-- A client holds all pairs that it has subscribed. -/
theorem mem_supportedHeld_foldl_hold (callback : CallbackType) (ps : List PropIdAreaId)
    (s : SubscriptionManager) (q : PropIdAreaId) (d : ClientIdType) :
    q ∈ (ps.foldl (holdSupportedValueChange callback) s).supportedHeld d ↔
      q ∈ s.supportedHeld d ∨ d = callback.asBinder ∧ q ∈ ps := by
  induction ps generalizing s with
  | nil => simp only [List.foldl_nil, List.not_mem_nil, and_false, or_false]
  | cons p ps ih =>
      have hheld : q ∈ (holdSupportedValueChange callback s p).supportedHeld d ↔
          q ∈ s.supportedHeld d ∨ d = callback.asBinder ∧ q = p :=
        mem_valueAt_holdPair callback.asBinder d p q _
      rw [List.foldl_cons, ih, hheld, or_assoc, ← and_or_left, List.mem_cons]

/-- A client holds none of the pairs that it has unsubscribed. -/
theorem mem_supportedHeld_foldl_forget (c : ClientIdType) (ps : List PropIdAreaId)
    (s : SubscriptionManager) (q : PropIdAreaId) (d : ClientIdType) :
    q ∈ (ps.foldl (forgetSupportedValueChange c) s).supportedHeld d ↔
      q ∈ s.supportedHeld d ∧ ¬(d = c ∧ q ∈ ps) := by
  induction ps generalizing s with
  | nil => simp only [List.foldl_nil, List.not_mem_nil, and_false, not_false_eq_true, and_true]
  | cons p ps ih =>
      rw [List.foldl_cons, ih, mem_supportedHeld_forget, and_assoc, ← not_or, ← and_or_left,
        List.mem_cons]

/-- Giving up supported-value pairs removes all of them or, if the hardware refuses, none. -/
private theorem mem_supportedHeld_unsubscribe {c : ClientIdType} {ps : List PropIdAreaId}
    {r : VhalResult} (h : unsubscribeSupportedValueChangeLocked hw c ps s = (r, t))
    (q : PropIdAreaId) (d : ClientIdType) :
    q ∈ t.supportedHeld d ↔ q ∈ s.supportedHeld d ∧ ¬(d = c ∧ q ∈ ps ∧ r = .ok ()) := by
  rcases unsubscribeSupportedValueChangeLocked_cases hw c ps s with
    ⟨_, heq⟩ | ⟨_, heq⟩ | ⟨status, e, _, _, _, heq⟩
  · cases heq.symm.trans h
    rw [mem_supportedHeld_foldl_forget]
    simp only [and_true]
  · cases heq.symm.trans h
    rw [mem_supportedHeld_foldl_forget]
    simp only [and_true]
    rfl
  · cases heq.symm.trans h
    simp only [reduceCtorEq, and_false, not_false_eq_true, and_true]
    rfl

/-- So are the held supported-value pairs. -/
theorem Operation.Effect.treats_supportedHeld {op : Operation} {r : VhalResult} {acts : List Act}
    (h : op.Effect hw lib s r t acts) (d : ClientIdType) :
    op.Treats d (s.supportedHeld d) (t.supportedHeld d) := by
  have haside {u : SubscriptionManager} (hu : u.aside = s.aside) :
      u.supportedHeld d = s.supportedHeld d :=
    congrArg (fun a : Aside => UnorderedMap.valueAt a.supportedPairs d ∅) hu
  cases h with
  | rejected => exact .of_eq _ d rfl
  | subscribe _ _ _ _ _ _ _ _ h => exact .of_eq _ d (haside h.aside)
  | unsubscribe c _ _ _ u _ _ _ h hu =>
      refine .of_eq _ d (Eq.trans ?_ (haside h.aside))
      subst hu
      split <;> rfl
  | unsubscribeClientFailed _ _ _ _ _ _ h => exact .of_eq _ d (haside h.aside)
  | unsubscribeClient c order _ u _ _ _ h hu =>
      refine .of_removed
        (fun p => p ∈ order.visit (u.supportedHeld c) ∧ r = .ok ()) rfl fun p => ?_
      rw [mem_supportedHeld_unsubscribe hu, ← haside h.aside]
      rfl
  | getSubscribedClients _ _ _ _ _ h =>
      refine .of_eq _ d ?_
      rw [supportedHeld, (keepsSubscriptions_getSubscribedClients h).1.supportedPairs]
      rfl
  | subscribeSupportedValueChange callback ps _ _ h =>
      rcases subscribeSupportedValueChange_cases hw callback ps s with heq | ⟨status, e, _, _, heq⟩
      · cases heq.symm.trans h
        refine .of_added (fun p => p ∈ ps) rfl rfl fun p => ?_
        rw [mem_supportedHeld_foldl_hold]
        rfl
      · cases heq.symm.trans h
        exact .of_eq _ d rfl
  | unsubscribeSupportedValueChange c ps _ _ h =>
      exact .of_removed (fun p => p ∈ ps ∧ r = .ok ()) rfl
        fun p => mem_supportedHeld_unsubscribe h p d

/-- A call changes the entries of the table only for its own client. -/
private theorem table_of_ne {op : Operation} {T T' : Table CallbackType}
    (h : T' = T.apply (fun k _ => k) lib op ∨ Table.Interrupted (fun k _ => k) lib T op T')
    {d : ClientIdType} (hd : op.client ≠ some d) (p : PropIdAreaId) : T' p d = T p d := by
  have hsubscribe {callback : CallbackType} (isContinuousProperty : Bool)
      (turns : List (SubscribeOptions × Int)) (hne : some callback.asBinder ≠ some d) :
      Table.subscribeAll (fun k _ => k) callback isContinuousProperty turns T p d = T p d := by
    refine List.foldlRecOn (motive := fun T' : Table CallbackType => T' p d = T p d) turns _ rfl
      fun T' hT' turn _ => ?_
    rw [Table.subscribe_apply, if_neg fun h => hne (congrArg some h.2.symm)]
    exact hT'
  have hunsubscribe {c : ClientIdType} (P : PropIdAreaId → Prop) [DecidablePred P]
      (hne : some c ≠ some d) : T.unsubscribe c P p d = T p d :=
    if_neg fun h => hne (congrArg some h.1.symm)
  rcases h with rfl | h
  · cases op with
    | subscribe callback options isContinuousProperty =>
        rw [Table.apply]
        rcases checkOptions lib isContinuousProperty options with _ | _ | _
        · rfl
        · rfl
        · exact hsubscribe _ _ hd
    | unsubscribe c propIds => exact hunsubscribe (fun p => p.propId ∈ propIds) hd
    | unsubscribeClient c => exact hunsubscribe (fun _ => True) hd
    | _ => rfl
  · cases h with
    | subscribe callback _ _ done => exact hsubscribe _ done hd
    | unsubscribe c propIds _ done =>
        exact hunsubscribe (fun p => p.propId ∈ propIds ∧ p ∈ done) hd
    | unsubscribeClient c _ done => exact hunsubscribe (fun p => p ∈ done) hd

/-- So a call changes the client maps. -/
theorem Operation.Effect.client_of_ne {op : Operation} {r : VhalResult} {acts : List Act}
    (h : op.Effect hw lib s r t acts) (hs : s.Covers s.client) {d : ClientIdType}
    (hd : op.client ≠ some d) (p : PropIdAreaId) : t.client p d = s.client p d := by
  have hclient : t.client = acts.foldl (Table.act fun k _ => k) s.client := client_of_acts h.pairs
  rw [hclient]
  exact table_of_ne ((h.table _ hs).imp_right fun h => h.2.2) hd p

/-- And the client maps of the supported values. -/
theorem Operation.Effect.supportedClient_of_ne {op : Operation} {r : VhalResult}
    {acts : List Act} (h : op.Effect hw lib s r t acts) {d : ClientIdType}
    (hd : op.client ≠ some d) (p : PropIdAreaId) :
    t.supportedClient p d = s.supportedClient p d := by
  have haside {u : SubscriptionManager} (hu : u.aside = s.aside) :
      u.supportedClient p d = s.supportedClient p d :=
    congrArg (fun a : Aside => (a.supportedClients.lookup p).bind fun m => m.lookup d) hu
  have hforget {c : ClientIdType} {ps : List PropIdAreaId} {u : SubscriptionManager}
      (hu : unsubscribeSupportedValueChangeLocked hw c ps u = (r, t)) (hne : some c ≠ some d) :
      t.supportedClient p d = u.supportedClient p d := by
    have hfold (v : SubscriptionManager) :
        (ps.foldl (forgetSupportedValueChange c) v).supportedClient p d =
          v.supportedClient p d := by
      rw [supportedClient_foldl_forget, if_neg fun h => hne (congrArg some h.2.symm)]
    rcases unsubscribeSupportedValueChangeLocked_cases hw c ps u with
      ⟨_, heq⟩ | ⟨_, heq⟩ | ⟨status, e, _, _, _, heq⟩
    · cases heq.symm.trans hu
      exact hfold u
    · cases heq.symm.trans hu
      exact hfold _
    · cases heq.symm.trans hu
      rfl
  cases h with
  | rejected => rfl
  | subscribe _ _ _ _ _ _ _ _ h => exact haside h.aside
  | unsubscribe c _ _ _ u _ _ _ h hu =>
      refine Eq.trans ?_ (haside h.aside)
      subst hu
      split <;> rfl
  | unsubscribeClientFailed _ _ _ _ _ _ h => exact haside h.aside
  | unsubscribeClient c order _ u _ _ _ h hu => exact (hforget hu hd).trans (haside h.aside)
  | getSubscribedClients _ _ _ _ _ h =>
      rw [supportedClient, (keepsSubscriptions_getSubscribedClients h).1.supportedClients]
      rfl
  | subscribeSupportedValueChange callback ps _ _ h =>
      rcases subscribeSupportedValueChange_cases hw callback ps s with heq | ⟨status, e, _, _, heq⟩
      · cases heq.symm.trans h
        rw [supportedClient_foldl_hold, if_neg fun h => hd (congrArg some h.2.symm)]
        rfl
      · cases heq.symm.trans h
        rfl
  | unsubscribeSupportedValueChange c ps _ _ h => exact hforget h hd

/-- A client that has been unsubscribed holds nothing. -/
theorem Operation.Effect.held_of_unsubscribeClient {c : ClientIdType}
    {order : Traversal PropIdAreaId} {acts : List Act}
    (h : (Operation.unsubscribeClient c order).Effect hw lib s (.ok ()) t acts) :
    t.held c = ∅ ∧ t.supportedHeld c = ∅ := by
  cases h with
  | unsubscribeClient _ _ _ u _ done _ h hu =>
      have hkeep := (keepsPairs_unsubscribeSupportedValueChangeLocked hw c
        (order.visit (u.supportedHeld c))
        { u with mSubscribedPropsByClient := u.mSubscribedPropsByClient.erase c }).held
      rw [hu] at hkeep
      constructor
      · refine Finset.eq_empty_of_forall_notMem fun p hp => ?_
        rw [held, hkeep, mem_valueAt_erase] at hp
        exact hp.2 rfl
      · refine Finset.eq_empty_of_forall_notMem fun p hp => ?_
        obtain ⟨hmem, hnot⟩ := (mem_supportedHeld_unsubscribe hu p c).mp hp
        exact hnot ⟨rfl, (order.mem _ p).mpr hmem, rfl⟩

/-- Every call registers a callback under its binder. -/
theorem Operation.Effect.keyedByBinder {op : Operation} {r : VhalResult} {acts : List Act}
    (h : op.Effect hw lib s r t acts) (hs : KeyedByBinder s) : KeyedByBinder t := by
  intro p
  refine pair_invariant_of_acts (P := fun x => ∀ c k, x.client c = some k → k.asBinder = c)
    h.pairs p (hs p) fun x e y _ hx hstep c k hk => ?_
  rw [hstep.client] at hk
  cases e with
  | subscribed callback config =>
      simp only [PairEvent.update, Function.update_apply] at hk
      split at hk
      · next hc =>
        cases hk
        exact hc.symm
      · exact hx c k hk
  | unsubscribed d =>
      simp only [PairEvent.update, Function.update_apply] at hk
      split at hk
      · cases hk
      · exact hx c k hk
  | _ => exact hx c k hk

/-- The options of a call for a pair: what a client asks for with a subscription. -/
def Operation.AsksFor (op : Operation) (p : PropIdAreaId) (c : ClientIdType)
    (config : Option SubConfig) : Prop :=
  ∃ callback options isContinuousProperty,
    op = .subscribe callback options isContinuousProperty ∧ callback.asBinder = c ∧
      ∃ option ∈ options, option.propId = p.propId ∧ p.areaId ∈ option.areaIds ∧
        config = requestedConfig isContinuousProperty option

/-- A call keeps this for every pair. -/
theorem Operation.Effect.asAsked {op : Operation} {r : VhalResult} {acts : List Act}
    (h : op.Effect hw lib s r t acts) {p : PropIdAreaId}
    {asked : ClientIdType → Option SubConfig → Prop} (hs : (s.pairState p).AsAsked asked)
    (hasked : ∀ c config, op.AsksFor p c config → asked c config) :
    (t.pairState p).AsAsked asked := by
  refine pair_invariant_of_acts h.pairs p hs fun x e y he hx hstep => ?_
  refine hstep.asAsked hx fun callback config hsubscribed => hasked _ _ ?_
  obtain ⟨options, isContinuousProperty, turn, rfl, _, hturn, hact⟩ :=
    h.subscribed_act he hsubscribed
  obtain ⟨hoption, harea⟩ := mem_subscribeTurns.mp hturn
  rw [subscribedAct] at hact
  cases hact
  cases hsubscribed
  exact ⟨callback, options, isContinuousProperty, rfl, rfl, turn.1, hoption, rfl, harea, rfl⟩

/-- The resolution that a config stands for. -/
def resolutionOf (config : Option SubConfig) : Binary32 :=
  (config.map SubConfig.resolution).getD .zero

/-- The values of a client of a pair are rounded as it has asked for, and filtered only if it has
asked for the variable update rate. -/
theorem resolution_asked {p : PropIdAreaId} {asked : ClientIdType → Option SubConfig → Prop}
    (hs : (s.pairState p).AsAsked asked) {c : ClientIdType} (hc : s.client p c ≠ none) :
    ∃ config, asked c config ∧ (s.configAt p).getResolutionForClient c = resolutionOf config ∧
      ((∀ asked, config = some asked → asked.enableVur = false) → s.filtersFor p c = false) := by
  have hlookup : (s.configAt p).mConfigByClient.lookup c = (s.pairState p).clientConfig c := rfl
  rw [filtersFor, ContSubConfigs.getResolutionForClient, ContSubConfigs.isVurEnabledForClient,
    hlookup]
  cases hconfig : (s.pairState p).clientConfig c with
  | none => exact ⟨none, hs.client c hc hconfig, rfl, fun _ => rfl⟩
  | some config =>
      refine ⟨some config, hs.config c config hconfig, rfl, fun hvur => ?_⟩
      simp only [hvur config rfl, Bool.false_and]

/-- What is registered for a client is registered under its binder and is found by way of the
held pairs. -/
structure FoundByClient (s : SubscriptionManager) : Prop where
  covers : s.Covers s.client
  keyed : KeyedByBinder s
  supported : SupportedBookKeeping s

theorem foundByClient_empty : FoundByClient {} where
  covers _ _ hp := absurd rfl hp
  keyed _ _ _ hk := nomatch hk
  supported := supportedBookKeeping_empty

/-- An operation keeps every pair found by its clients. -/
theorem Operation.Effect.foundByClient {op : Operation} {r : VhalResult} {acts : List Act}
    (h : op.Effect hw lib s r t acts) (hs : FoundByClient s) : FoundByClient t where
  covers := by
    have hclient : t.client = _ := client_of_acts h.pairs
    rw [hclient]
    exact h.covers _ hs.covers
  keyed := h.keyedByBinder hs.keyed
  supported := h.supported.bookKeeping hs.supported

/-- A client that holds nothing is in no map of the manager. -/
theorem FoundByClient.absent (hs : FoundByClient s) {c : ClientIdType} (hheld : s.held c = ∅)
    (hsupported : s.supportedHeld c = ∅) (p : PropIdAreaId) :
    s.client p c = none ∧ s.supportedClient p c = none := by
  constructor
  · by_contra hne
    have hp := hs.covers p c hne
    rw [hheld] at hp
    exact Finset.notMem_empty p hp
  · by_contra hne
    have hp := (hs.supported.inverse p c).mp hne
    rw [hsupported] at hp
    exact Finset.notMem_empty p hp

/-- A callback of a client without pairs is given no value. -/
theorem FoundByClient.not_served (hs : FoundByClient s) {k : CallbackType}
    (hheld : s.held k.asBinder = ∅) {updatedValues : List VehiclePropValue}
    {order : Traversal ClientIdType} {result : ClientEvents VehiclePropValue}
    (h : getSubscribedClients updatedValues order s = some (result, t)) :
    result.lookup k = none := by
  have hidle (values : List VehiclePropValue) (box : Inbox) :
      values.foldl (receiveValue s k) box = box := by
    induction values generalizing box with
    | nil => rfl
    | cons v values ih =>
        have hnot : s.client v.propIdAreaId k.asBinder ≠ some k := by
          intro hk
          have hp := hs.covers v.propIdAreaId k.asBinder (by rw [hk]; exact Option.some_ne_none k)
          rw [hheld] at hp
          exact Finset.notMem_empty _ hp
        rw [List.foldl_cons, receiveValue, if_neg hnot, ih]
  have hinbox := congrArg Inbox.values (inbox_getSubscribedClients hs.keyed h k)
  rw [hidle] at hinbox
  rw [(keepsSubscriptions_getSubscribedClients h).2.lookup_eq]
  change (if (UnorderedMap.valueAt result k []).isEmpty then none else _) = none
  have hempty : UnorderedMap.valueAt result k [] = [] := hinbox
  rw [hempty]
  rfl

end SubscriptionManager

end VhalCore.Subscription
