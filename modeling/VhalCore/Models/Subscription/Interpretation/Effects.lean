import VhalCore.Models.Subscription.Interpretation.Acts

/-!
# Effects of the operations

`Operation.Effect` lists for each operation its acts on the pairs, its
book-keeping of the held pairs and what it leaves alone. A run is a sequence of
calls that return; every call of it has an effect.
-/

namespace VhalCore.Subscription.SubscriptionManager

variable (hw : Nat → StatusCode) {lib : MathLibrary} {s t : SubscriptionManager}

/-- The pairs held by a client according to the book-keeping. -/
def held (s : SubscriptionManager) (c : ClientIdType) : Finset PropIdAreaId :=
  s.mSubscribedPropsByClient.valueAt c ∅

/-- The supported-value pairs held by a client. -/
def supportedHeld (s : SubscriptionManager) (c : ClientIdType) : Finset PropIdAreaId :=
  s.mSupportedValueChangePropIdAreaIdsByClient.valueAt c ∅

/-- A pair of some options has been subscribed. -/
def subscribedAct (callback : CallbackType) (isContinuousProperty : Bool)
    (turn : SubscribeOptions × Int) : Act :=
  (⟨turn.1.propId, turn.2⟩, .subscribed callback (requestedConfig isContinuousProperty turn.1))

/-- The hardware refused to subscribe a pair of some options. -/
def subscribeFailedAct (callback : CallbackType) (isContinuousProperty : Bool)
    (turn : SubscribeOptions × Int) (first : Bool) : Act :=
  (⟨turn.1.propId, turn.2⟩,
    .subscribeFailed callback (requestedConfig isContinuousProperty turn.1) first)

/-- A pair has been unsubscribed for a client. -/
def unsubscribedAct (c : ClientIdType) (p : PropIdAreaId) : Act := (p, .unsubscribed c)

/-- The hardware refused to unsubscribe a pair for a client. -/
def unsubscribeFailedAct (c : ClientIdType) (p : PropIdAreaId) (first : Bool) : Act :=
  (p, .unsubscribeFailed c first)

/-- The book-keeping of a subscribed pair. -/
def holdPair (c : ClientIdType) (p : PropIdAreaId) (m : HeldPairs) : HeldPairs :=
  m.insert c (insert p (m.valueAt c ∅))

/-- The book-keeping of an unsubscribed pair. -/
def releasePair (c : ClientIdType) (p : PropIdAreaId) (m : HeldPairs) : HeldPairs :=
  m.insert c ((m.valueAt c ∅).erase p)

/-- The loops of `subscribe`. -/
abbrev SubscribeEffect (hw : Nat → StatusCode) (callback : CallbackType)
    (isContinuousProperty : Bool) (options : List SubscribeOptions) :=
  LoopEffect hw (subscribedAct callback isContinuousProperty)
    (subscribeFailedAct callback isContinuousProperty)
    (fun turn => holdPair callback.asBinder ⟨turn.1.propId, turn.2⟩) (subscribeTurns options)

/-- The loop of `unsubscribe` with property ids over the given pairs. -/
abbrev ForgetEffect (hw : Nat → StatusCode) (c : ClientIdType) :=
  LoopEffect hw (unsubscribedAct c) (unsubscribeFailedAct c) (releasePair c)

/-- The loop of `unsubscribe` for a whole client over the given pairs. -/
abbrev DropEffect (hw : Nat → StatusCode) (c : ClientIdType) :=
  LoopEffect hw (unsubscribedAct c) (unsubscribeFailedAct c) (fun _ m => m)

private theorem exists_refused {n : Nat} {calls : List PairCall}
    (h : ¬AllAccepted hw n calls) : ∃ m, hw m ≠ .ok := by
  simp only [AllAccepted, not_forall] at h
  obtain ⟨i, _, hi⟩ := h
  exact ⟨_, hi⟩

/-- Subscribing a pair is a turn of a loop. -/
theorem takesTurns_subscribe (callback : CallbackType) (isContinuousProperty : Bool) :
    TakesTurns hw (subscribedAct callback isContinuousProperty)
      (subscribeFailedAct callback isContinuousProperty)
      (fun turn => holdPair callback.asBinder ⟨turn.1.propId, turn.2⟩)
      (fun turn => subscribePropIdAreaId hw callback isContinuousProperty turn.1 turn.2) := by
  intro turn s
  rcases subscribePropIdAreaId_cases callback isContinuousProperty turn.1 turn.2 s with
    ⟨t, h, hacts, hheld, _⟩ | ⟨e, t, h, hacts, hheld, hfail⟩
  · exact Or.inl ⟨t, h, hacts, hheld⟩
  · exact Or.inr ⟨e, t, _, h, hacts, hheld, exists_refused hw hfail⟩

/-- Unsubscribing a pair of a leaving client is a turn of a loop. -/
theorem takesTurns_drop (c : ClientIdType) :
    TakesTurns hw (unsubscribedAct c) (unsubscribeFailedAct c) (fun _ m => m)
      (unsubscribePropIdAreaIdLocked hw c) := by
  intro p s
  rcases unsubscribePropIdAreaIdLocked_cases c p s with
    ⟨t, h, hacts, hheld, _⟩ | ⟨e, t, h, hacts, hheld, hfail⟩
  · exact Or.inl ⟨t, h, hacts, hheld⟩
  · exact Or.inr ⟨e, t, _, h, hacts, hheld, exists_refused hw hfail⟩

/-- Unsubscribing a pair and forgetting it is a turn of a loop. -/
theorem takesTurns_forget (c : ClientIdType) :
    TakesTurns hw (unsubscribedAct c) (unsubscribeFailedAct c) (releasePair c)
      (unsubscribeAndForget hw c) := by
  intro p s
  rcases takesTurns_drop hw c p s with
    ⟨t, h, hacts, hheld⟩ | ⟨e, t, first, h, hacts, hheld, hfail⟩
  · refine Or.inl ⟨{ t with
      mSubscribedPropsByClient := releasePair c p t.mSubscribedPropsByClient }, ?_,
      ⟨hacts.step, hacts.frame, hacts.aside⟩, ?_⟩
    · simp only [unsubscribeAndForget, h, releasePair]
    · exact congrArg (releasePair c p) hheld
  · exact Or.inr ⟨e, t, first, by simp only [unsubscribeAndForget, h], hacts, hheld, hfail⟩

/-- All that the operations on supported values leave as it was. -/
structure KeepsPairs (s t : SubscriptionManager) : Prop where
  pairs : t.pairState = s.pairState
  held : t.mSubscribedPropsByClient = s.mSubscribedPropsByClient
  values : t.mContSubValuesByCallback = s.mContSubValuesByCallback

theorem KeepsPairs.trans {s t u : SubscriptionManager} (h₁ : KeepsPairs s t)
    (h₂ : KeepsPairs t u) : KeepsPairs s u :=
  ⟨h₂.pairs.trans h₁.pairs, h₂.held.trans h₁.held, h₂.values.trans h₁.values⟩

/-- A call for supported values concerns no pair. -/
theorem keepsPairs_logHardware {call : HardwareCall} (hcall : ∀ p, call.forPair p = none)
    (status : StatusCode) (s : SubscriptionManager) : KeepsPairs s (s.logHardware call status) := by
  refine ⟨funext fun p => PairState.ext rfl rfl ?_, rfl, rfl⟩
  simp only [pairState, pairCalls, logHardware, List.filterMap_cons, hcall p, Option.map_none]

/-- A loop keeps the pairs if its body does. -/
theorem keepsPairs_foldl {α : Type} {f : SubscriptionManager → α → SubscriptionManager}
    (hf : ∀ s x, KeepsPairs s (f s x)) (xs : List α) (s : SubscriptionManager) :
    KeepsPairs s (xs.foldl f s) := by
  induction xs generalizing s with
  | nil => exact ⟨rfl, rfl, rfl⟩
  | cons x xs ih => exact (hf s x).trans (ih (f s x))

/-- A supported-value subscription is one hardware call and, on success, the
book-keeping of every listed pair. -/
theorem subscribeSupportedValueChange_cases (callback : CallbackType)
    (propIdAreaIds : List PropIdAreaId) (s : SubscriptionManager) :
    let call := HardwareCall.subscribeSupportedValueChange propIdAreaIds
    subscribeSupportedValueChange hw callback propIdAreaIds s =
      (.ok (), propIdAreaIds.foldl (holdSupportedValueChange callback)
        (s.logHardware call .ok)) ∨
    ∃ status e, status ≠ .ok ∧ hw s.mVehicleHardware.length = status ∧
      subscribeSupportedValueChange hw callback propIdAreaIds s =
        (.error e, s.logHardware call status) := by
  intro call
  rw [subscribeSupportedValueChange]
  rcases tryHardware_outcome hw call (.failedSubscribeSupportedValueChange propIdAreaIds) s with
    ⟨_, h⟩ | ⟨status, hs, hn, h⟩
  · rw [h]
    exact Or.inl rfl
  · rw [h]
    exact Or.inr ⟨status, _, hs, hn, rfl⟩

/-- Dropping supported-value subscriptions calls the hardware for the pairs that lose
their only client, if there are any, and forgets every listed pair on success. -/
theorem unsubscribeSupportedValueChangeLocked_cases (c : ClientIdType)
    (propIdAreaIds : List PropIdAreaId) (s : SubscriptionManager) :
    let sole := soleSupportedValueChangePairs c propIdAreaIds s
    let call := HardwareCall.unsubscribeSupportedValueChange sole
    (sole = [] ∧ unsubscribeSupportedValueChangeLocked hw c propIdAreaIds s =
      (.ok (), propIdAreaIds.foldl (forgetSupportedValueChange c) s)) ∨
    (sole ≠ [] ∧ unsubscribeSupportedValueChangeLocked hw c propIdAreaIds s =
      (.ok (), propIdAreaIds.foldl (forgetSupportedValueChange c) (s.logHardware call .ok))) ∨
    ∃ status e, sole ≠ [] ∧ status ≠ .ok ∧ hw s.mVehicleHardware.length = status ∧
      unsubscribeSupportedValueChangeLocked hw c propIdAreaIds s =
        (.error e, s.logHardware call status) := by
  intro sole call
  by_cases hsole : sole = []
  · refine Or.inl ⟨hsole, ?_⟩
    simp only [unsubscribeSupportedValueChangeLocked]
    rw [if_pos (List.isEmpty_iff.mpr hsole)]
  · refine Or.inr ?_
    simp only [unsubscribeSupportedValueChangeLocked]
    rw [if_neg (mt List.isEmpty_iff.mp hsole)]
    rcases tryHardware_outcome hw call (.failedUnsubscribeSupportedValueChange sole) s with
      ⟨_, h⟩ | ⟨status, hs, hn, h⟩
    · rw [h]
      exact Or.inl ⟨hsole, rfl⟩
    · rw [h]
      exact Or.inr ⟨status, _, hsole, hs, hn, rfl⟩

/-- Subscribing to supported values keeps the pairs. -/
theorem keepsPairs_subscribeSupportedValueChange (callback : CallbackType)
    (propIdAreaIds : List PropIdAreaId) (s : SubscriptionManager) :
    KeepsPairs s (subscribeSupportedValueChange hw callback propIdAreaIds s).2 := by
  rcases subscribeSupportedValueChange_cases hw callback propIdAreaIds s with
    h | ⟨status, e, _, _, h⟩
  · rw [h]
    exact (keepsPairs_logHardware (fun _ => rfl) _ s).trans
      (keepsPairs_foldl (f := holdSupportedValueChange callback) (fun _ _ => ⟨rfl, rfl, rfl⟩)
        propIdAreaIds _)
  · rw [h]
    exact keepsPairs_logHardware (fun _ => rfl) _ s

/-- Unsubscribing from supported values keeps the pairs. -/
theorem keepsPairs_unsubscribeSupportedValueChangeLocked (c : ClientIdType)
    (propIdAreaIds : List PropIdAreaId) (s : SubscriptionManager) :
    KeepsPairs s (unsubscribeSupportedValueChangeLocked hw c propIdAreaIds s).2 := by
  have hfold := keepsPairs_foldl (f := forgetSupportedValueChange c)
    (fun s x => ⟨rfl, rfl, rfl⟩) propIdAreaIds
  rcases unsubscribeSupportedValueChangeLocked_cases hw c propIdAreaIds s with
    ⟨_, h⟩ | ⟨_, h⟩ | ⟨status, e, _, _, _, h⟩
  · rw [h]
    exact hfold s
  · rw [h]
    exact (keepsPairs_logHardware (fun _ => rfl) _ s).trans (hfold _)
  · rw [h]
    exact keepsPairs_logHardware (fun _ => rfl) _ s

/-- An entry made for a pair is an empty one. -/
theorem pairState_touchConfig (s : SubscriptionManager) (p q : PropIdAreaId) :
    (s.touchConfig p).pairState q =
      if q = p then { s.pairState q with config := some ((s.pairState q).config.getD {}) }
      else s.pairState q := by
  by_cases hq : q = p
  · subst hq
    simp only [pairState, touchConfig, UnorderedMap.lookup_touch_self, ite_true]
    rfl
  · simp only [pairState, touchConfig, UnorderedMap.lookup_touch_eq, hq, ite_false]
    rfl

/-- A delivery is a sequence of deliveries at pairs. -/
theorem acts_getSubscribedClients {updatedValues : List VehiclePropValue}
    {order : Traversal ClientIdType} {result : ClientEvents VehiclePropValue}
    (h : getSubscribedClients updatedValues order s = some (result, t)) :
    ∃ acts, Path PairsStep s.pairState acts t.pairState ∧ ∀ a ∈ acts, a.2 = .delivered := by
  let P (acc : ClientEvents VehiclePropValue × SubscriptionManager) : Prop :=
    ∃ acts, Path PairsStep s.pairState acts acc.2.pairState ∧ ∀ a ∈ acts, a.2 = .delivered
  refine foldlM_invariant (P := P) h ⟨[], .nil _, fun _ h => absurd h List.not_mem_nil⟩
    fun v _ acc acc' hacc hv => ?_
  rw [deliverValue] at hv
  cases hc : acc.2.mClientsByPropIdAreaId.lookup v.propIdAreaId with
  | none =>
      rw [hc] at hv
      cases hv
      exact hacc
  | some clients =>
      rw [hc] at hv
      let Q (a : ClientEvents VehiclePropValue × SubscriptionManager) : Prop :=
        (a.2.pairState v.propIdAreaId).clients = some clients ∧ P a
      refine (foldlM_invariant (P := Q) hv ⟨hc, hacc⟩ fun entry _ a b ha hab => ?_).2
      obtain ⟨hclients, acts, hpath, hdel⟩ := ha
      rcases deliverToClient_spec v entry.1 entry.2 a with ⟨_, hnone⟩ | ⟨_, b', hb', hspec⟩
      · exact absurd (hab.symm.trans hnone) (by rintro ⟨⟩)
      · cases hab.symm.trans hb'
        obtain ⟨values, hstate⟩ := hspec.state
        have hpairs : b.2.pairState = (a.2.touchConfig v.propIdAreaId).pairState := by
          rw [hstate]
          rfl
        refine ⟨?_, acts ++ [(v.propIdAreaId, .delivered)], .snoc hpath ⟨?_, fun q hq => ?_⟩, ?_⟩
        · rw [hpairs, pairState_touchConfig, if_pos rfl]
          exact hclients
        · rw [hpairs, pairState_touchConfig, if_pos rfl]
          exact .delivered _ clients hclients
        · rw [hpairs, pairState_touchConfig, if_neg hq]
        · intro c hc
          rcases List.mem_append.mp hc with hc | hc
          · exact hdel c hc
          · rw [List.mem_singleton.mp hc]

/-- What a call that returned did: its result, the manager after it and its acts. -/
inductive Operation.Effect (hw : Nat → StatusCode) (lib : MathLibrary) (s : SubscriptionManager) :
    Operation → VhalResult → SubscriptionManager → List Act → Prop
  | rejected (callback : CallbackType) (options : List SubscribeOptions)
      (isContinuousProperty : Bool) (e : StatusError)
      (hcheck : checkOptions lib isContinuousProperty options = some (.error e)) :
      Effect hw lib s (.subscribe callback options isContinuousProperty) (.error e) s []
  | subscribe (callback : CallbackType) (options : List SubscribeOptions)
      (isContinuousProperty : Bool) (r : VhalResult) (t : SubscriptionManager)
      (done : List (SubscribeOptions × Int)) (acts : List Act)
      (hcheck : checkOptions lib isContinuousProperty options = some (.ok ()))
      (h : SubscribeEffect hw callback isContinuousProperty options s r t done acts)
      (hloop : forEach (fun turn : SubscribeOptions × Int =>
        subscribePropIdAreaId hw callback isContinuousProperty turn.1 turn.2)
        (subscribeTurns options) s = (r, t)) :
      Effect hw lib s (.subscribe callback options isContinuousProperty) r t acts
  | unsubscribe (c : ClientIdType) (propIds : List Int) (order : Traversal PropIdAreaId)
      (r : VhalResult) (t u : SubscriptionManager) (done : List PropIdAreaId) (acts : List Act)
      (h : ForgetEffect hw c (propIdAreaIdsToUnsubscribe propIds order (s.held c)) s r t done acts)
      (hu : u = if r = .ok () ∧ t.held c = ∅ then
        { t with mSubscribedPropsByClient := t.mSubscribedPropsByClient.erase c } else t)
      (hloop : forEach (unsubscribeAndForget hw c)
        (propIdAreaIdsToUnsubscribe propIds order (s.held c)) s = (r, t)) :
      Effect hw lib s (.unsubscribe c propIds order) r u acts
  | unsubscribeClientFailed (c : ClientIdType) (order : Traversal PropIdAreaId) (e : StatusError)
      (t : SubscriptionManager) (done : List PropIdAreaId) (acts : List Act)
      (h : DropEffect hw c (order.visit (s.held c)) s (.error e) t done acts)
      (hloop : forEach (unsubscribePropIdAreaIdLocked hw c) (order.visit (s.held c)) s =
        (.error e, t)) :
      Effect hw lib s (.unsubscribeClient c order) (.error e) t acts
  | unsubscribeClient (c : ClientIdType) (order : Traversal PropIdAreaId) (r : VhalResult)
      (t u : SubscriptionManager) (done : List PropIdAreaId) (acts : List Act)
      (h : DropEffect hw c (order.visit (s.held c)) s (.ok ()) t done acts)
      (hu : unsubscribeSupportedValueChangeLocked hw c (order.visit (t.supportedHeld c))
        { t with mSubscribedPropsByClient := t.mSubscribedPropsByClient.erase c } = (r, u))
      (hloop : forEach (unsubscribePropIdAreaIdLocked hw c) (order.visit (s.held c)) s =
        (.ok (), t)) :
      Effect hw lib s (.unsubscribeClient c order) r u acts
  | getSubscribedClients (updatedValues : List VehiclePropValue) (order : Traversal ClientIdType)
      (result : ClientEvents VehiclePropValue) (t : SubscriptionManager) (acts : List Act)
      (h : SubscriptionManager.getSubscribedClients updatedValues order s = some (result, t))
      (hpairs : Path PairsStep s.pairState acts t.pairState)
      (hacts : ∀ a ∈ acts, a.2 = .delivered) :
      Effect hw lib s (.getSubscribedClients updatedValues order) (.ok ()) t acts
  | subscribeSupportedValueChange (callback : CallbackType) (propIdAreaIds : List PropIdAreaId)
      (r : VhalResult) (t : SubscriptionManager)
      (h : SubscriptionManager.subscribeSupportedValueChange hw callback propIdAreaIds s = (r, t)) :
      Effect hw lib s (.subscribeSupportedValueChange callback propIdAreaIds) r t []
  | unsubscribeSupportedValueChange (c : ClientIdType) (propIdAreaIds : List PropIdAreaId)
      (r : VhalResult) (t : SubscriptionManager)
      (h : unsubscribeSupportedValueChangeLocked hw c propIdAreaIds s = (r, t)) :
      Effect hw lib s (.unsubscribeSupportedValueChange c propIdAreaIds) r t []

private theorem erase_of_lookup_none {m : HeldPairs} {c : ClientIdType} (h : m.lookup c = none) :
    m.erase c = m := by
  refine Finmap.ext_lookup fun x => ?_
  rw [UnorderedMap.lookup_erase_eq]
  by_cases hx : x = c
  · subst hx
    rw [if_pos rfl, h]
  · rw [if_neg hx]

private theorem visit_empty (order : Traversal PropIdAreaId) : order.visit ∅ = [] :=
  List.eq_nil_iff_forall_not_mem.mpr fun a ha => Finset.notMem_empty a ((order.mem ∅ a).mp ha)

private theorem effect_subscribe {callback : CallbackType} {options : List SubscribeOptions}
    {isContinuousProperty : Bool} {r : VhalResult}
    (h : SubscriptionManager.subscribe hw lib callback options isContinuousProperty s =
      some (r, t)) :
    ∃ acts, Operation.Effect hw lib s (.subscribe callback options isContinuousProperty) r t
      acts := by
  rw [SubscriptionManager.subscribe] at h
  cases hcheck : checkOptions lib isContinuousProperty options with
  | none =>
      rw [hcheck] at h
      exact absurd h nofun
  | some checked =>
      rw [hcheck, Option.map_some, Option.some.injEq] at h
      cases checked with
      | error e =>
          cases h
          exact ⟨[], .rejected callback options isContinuousProperty e hcheck⟩
      | ok u =>
          obtain ⟨done, acts, heff⟩ := (takesTurns_subscribe hw callback
            isContinuousProperty).forEach (subscribeTurns options) s
          have hloop : forEach (fun turn : SubscribeOptions × Int =>
              subscribePropIdAreaId hw callback isContinuousProperty turn.1 turn.2)
              (subscribeTurns options) s = (r, t) := by
            rw [← h, subscribeOptions, forEach_nested]
            rfl
          rw [hloop] at heff
          exact ⟨acts, .subscribe callback options isContinuousProperty r t done acts hcheck heff
            hloop⟩

/-- What `unsubscribe` makes of the outcome of its loop. -/
private def afterForgetting (c : ClientIdType) :
    VhalResult × SubscriptionManager → VhalResult × SubscriptionManager
  | (.error e, u) => (.error e, u)
  | (.ok (), u) =>
      if u.held c = ∅ then
        (.ok (), { u with mSubscribedPropsByClient := u.mSubscribedPropsByClient.erase c })
      else (.ok (), u)

/-- What `unsubscribe` of a client makes of the outcome of its loop. -/
private def afterDropping (c : ClientIdType) :
    VhalResult × SubscriptionManager → VhalResult × SubscriptionManager
  | (.error e, u) => (.error e, u)
  | (.ok (), u) =>
      (.ok (), { u with mSubscribedPropsByClient := u.mSubscribedPropsByClient.erase c })

private theorem effect_unsubscribe {c : ClientIdType} {propIds : List Int}
    {order : Traversal PropIdAreaId} {r : VhalResult}
    (h : SubscriptionManager.unsubscribe hw c propIds order s = (r, t)) :
    ∃ acts, Operation.Effect hw lib s (.unsubscribe c propIds order) r t acts := by
  obtain ⟨done, acts, heff⟩ := (takesTurns_forget hw c).forEach
    (propIdAreaIdsToUnsubscribe propIds order (s.held c)) s
  have hall : SubscriptionManager.unsubscribe hw c propIds order s =
      afterForgetting c (forEach (unsubscribeAndForget hw c)
        (propIdAreaIdsToUnsubscribe propIds order (s.held c)) s) := by
    rw [SubscriptionManager.unsubscribe]
    cases hheld : s.mSubscribedPropsByClient.lookup c with
    | none =>
        have hempty : s.held c = ∅ := by
          rw [held, UnorderedMap.valueAt, hheld, Option.getD_none]
        rw [hempty, propIdAreaIdsToUnsubscribe, visit_empty]
        simp only [List.filter_nil, forEach, afterForgetting, hempty, ite_true,
          erase_of_lookup_none hheld]
    | some subscribed =>
        rw [show s.held c = subscribed from UnorderedMap.valueAt_of_lookup hheld ∅]
        rfl
  rw [hall] at h
  rcases outcome_cases (forEach (unsubscribeAndForget hw c)
    (propIdAreaIdsToUnsubscribe propIds order (s.held c)) s) with ⟨u, hloop⟩ | ⟨e, u, hloop⟩
  · simp only [afterForgetting, hloop] at h heff
    by_cases hempty : u.held c = ∅
    · rw [if_pos hempty] at h
      cases h
      exact ⟨acts, .unsubscribe c propIds order _ u _ done acts heff
        (if_pos ⟨rfl, hempty⟩).symm hloop⟩
    · rw [if_neg hempty] at h
      cases h
      exact ⟨acts, .unsubscribe c propIds order _ t t done acts heff
        (if_neg fun hc => hempty hc.2).symm hloop⟩
  · simp only [afterForgetting, hloop] at h heff
    cases h
    exact ⟨acts, .unsubscribe c propIds order _ t t done acts heff
      (if_neg fun hc => absurd hc.1 (by rintro ⟨⟩)).symm hloop⟩

private theorem effect_unsubscribeClient {c : ClientIdType} {order : Traversal PropIdAreaId}
    {r : VhalResult} (h : SubscriptionManager.unsubscribeClient hw c order s = (r, t)) :
    ∃ acts, Operation.Effect hw lib s (.unsubscribeClient c order) r t acts := by
  obtain ⟨done, acts, heff⟩ := (takesTurns_drop hw c).forEach (order.visit (s.held c)) s
  have hall : unsubscribeAllProperties hw c order s =
      afterDropping c (forEach (unsubscribePropIdAreaIdLocked hw c) (order.visit (s.held c))
        s) := by
    rw [unsubscribeAllProperties, held, UnorderedMap.valueAt]
    cases hheld : s.mSubscribedPropsByClient.lookup c with
    | none =>
        rw [Option.getD_none, visit_empty]
        simp only [forEach, afterDropping, erase_of_lookup_none hheld]
    | some subscribed => rfl
  rw [SubscriptionManager.unsubscribeClient, hall] at h
  rcases outcome_cases (forEach (unsubscribePropIdAreaIdLocked hw c) (order.visit (s.held c)) s)
    with ⟨u, hloop⟩ | ⟨e, u, hloop⟩
  · simp only [afterDropping, hloop] at h heff
    refine ⟨acts, .unsubscribeClient c order r u t done acts heff ?_ hloop⟩
    rw [← h, supportedHeld, UnorderedMap.valueAt]
    cases hs : u.mSupportedValueChangePropIdAreaIdsByClient.lookup c with
    | none =>
        rw [Option.getD_none, visit_empty]
        rfl
    | some propIdAreaIds => rfl
  · simp only [afterDropping, hloop] at h heff
    cases h
    exact ⟨acts, .unsubscribeClientFailed c order e t done acts heff hloop⟩

/-- Every call that returns has an effect. -/
theorem step_effect {op : Operation} {r : VhalResult} (h : step hw lib s op = some (r, t)) :
    ∃ acts, op.Effect hw lib s r t acts := by
  cases op with
  | subscribe callback options isContinuousProperty => exact effect_subscribe hw h
  | unsubscribe c propIds order => exact effect_unsubscribe hw (Option.some.inj h)
  | unsubscribeClient c order => exact effect_unsubscribeClient hw (Option.some.inj h)
  | getSubscribedClients updatedValues order =>
      obtain ⟨⟨result, u⟩, hresult, heq⟩ := Option.map_eq_some_iff.mp h
      cases heq
      obtain ⟨acts, hpairs, hacts⟩ := acts_getSubscribedClients hresult
      exact ⟨acts, .getSubscribedClients updatedValues order result u acts hresult hpairs hacts⟩
  | subscribeSupportedValueChange callback propIdAreaIds =>
      exact ⟨[], .subscribeSupportedValueChange callback propIdAreaIds r t (Option.some.inj h)⟩
  | unsubscribeSupportedValueChange c propIdAreaIds =>
      exact ⟨[], .unsubscribeSupportedValueChange c propIdAreaIds r t (Option.some.inj h)⟩

/-- The acts of an operation lead from the pairs before it to the pairs after it. -/
theorem Operation.Effect.pairs {op : Operation} {r : VhalResult} {acts : List Act}
    (h : op.Effect hw lib s r t acts) : Path PairsStep s.pairState acts t.pairState := by
  cases h with
  | rejected => exact .nil _
  | subscribe _ _ _ _ _ _ _ _ h => exact h.pairs
  | unsubscribe c _ _ r u _ done _ h hu =>
      subst hu
      split
      · exact h.pairs
      · exact h.pairs
  | unsubscribeClientFailed _ _ _ _ _ _ h => exact h.pairs
  | unsubscribeClient c order _ u _ done _ h hu =>
      have hkeep := (keepsPairs_unsubscribeSupportedValueChangeLocked hw c
        (order.visit (u.supportedHeld c))
        { u with mSubscribedPropsByClient := u.mSubscribedPropsByClient.erase c }).pairs
      rw [hu] at hkeep
      rw [hkeep]
      exact h.pairs
  | getSubscribedClients _ _ _ _ _ _ hpairs _ => exact hpairs
  | subscribeSupportedValueChange callback propIdAreaIds _ _ h =>
      have hkeep := (keepsPairs_subscribeSupportedValueChange hw callback propIdAreaIds s).pairs
      rw [h] at hkeep
      rw [hkeep]
      exact .nil _
  | unsubscribeSupportedValueChange c propIdAreaIds _ _ h =>
      have hkeep := (keepsPairs_unsubscribeSupportedValueChangeLocked hw c propIdAreaIds s).pairs
      rw [h] at hkeep
      rw [hkeep]
      exact .nil _

/-- A call that returned, labelled by the operation and its result. -/
def Steps (hw : Nat → StatusCode) (lib : MathLibrary) (s : SubscriptionManager)
    (a : Operation × VhalResult) (t : SubscriptionManager) : Prop :=
  step hw lib s a.1 = some (a.2, t)

/-- A run of calls that returned. -/
abbrev Run (hw : Nat → StatusCode) (lib : MathLibrary) := Path (Steps hw lib)

theorem pairState_empty (p : PropIdAreaId) : ({} : SubscriptionManager).pairState p = {} := by
  simp only [pairState, pairCalls, Finmap.lookup_empty, List.filterMap_nil]

/-- An invariant of one pair holds along every run whose acts at the pair preserve it. -/
theorem Run.pair_invariant {as : List (Operation × VhalResult)} (h : Run hw lib {} as s)
    (p : PropIdAreaId) {P : PairState → Prop} (hstart : P {})
    (hstep : ∀ a ∈ as, ∀ s r t acts, Operation.Effect hw lib s a.1 r t acts →
      ∀ x e y, (p, e) ∈ acts → P x → PairStep x e y → P y) : P (s.pairState p) := by
  refine Path.invariant_of_mem (P := fun s => P (s.pairState p)) h ?_ fun s a t ha hs hst => ?_
  · rwa [pairState_empty]
  · obtain ⟨acts, heff⟩ := step_effect hw hst
    exact pair_invariant_of_acts (heff.pairs hw) p hs (hstep a ha s a.2 t acts heff)

/-- The manager after a list of calls, with their results; none if one does not return. -/
def execute (hw : Nat → StatusCode) (lib : MathLibrary) (s : SubscriptionManager) :
    List Operation → Option (List (Operation × VhalResult) × SubscriptionManager)
  | [] => some ([], s)
  | op :: ops =>
      (step hw lib s op).bind fun r =>
        (execute hw lib r.2 ops).map fun rest => ((op, r.1) :: rest.1, rest.2)

/-- An execution lists its operations. -/
theorem operations_of_execute {ops : List Operation} {as : List (Operation × VhalResult)}
    (h : execute hw lib s ops = some (as, t)) : as.map Prod.fst = ops := by
  induction ops generalizing s as with
  | nil =>
      cases h
      rfl
  | cons op ops ih =>
      obtain ⟨⟨r, u⟩, _, hrest⟩ := Option.bind_eq_some_iff.mp h
      obtain ⟨⟨bs, v⟩, hexec, heq⟩ := Option.map_eq_some_iff.mp hrest
      cases heq
      exact congrArg (op :: ·) (ih hexec)

/-- Executing a list of calls is a run. -/
theorem run_of_execute {ops : List Operation} {as : List (Operation × VhalResult)}
    (h : execute hw lib s ops = some (as, t)) : Run hw lib s as t := by
  induction ops generalizing s as with
  | nil =>
      cases h
      exact .nil _
  | cons op ops ih =>
      obtain ⟨⟨r, u⟩, hstep, hrest⟩ := Option.bind_eq_some_iff.mp h
      obtain ⟨⟨bs, v⟩, hexec, heq⟩ := Option.map_eq_some_iff.mp hrest
      cases heq
      exact Path.trans (.single (show Steps hw lib s (op, r) u from hstep)) (ih hexec)

/-- A property found by executing a list of calls holds at the end of a run. -/
theorem exists_run_of_execute (lib : MathLibrary) (ops : List Operation)
    (P : SubscriptionManager → Prop) [DecidablePred P]
    (h : (execute hw lib {} ops).any (fun r => decide (P r.2)) = true) :
    ∃ as t, Run hw lib {} as t ∧ as.map Prod.fst = ops ∧ P t := by
  cases hexec : execute hw lib {} ops with
  | none =>
      rw [hexec] at h
      exact absurd h nofun
  | some result =>
      rw [hexec] at h
      exact ⟨result.1, result.2, run_of_execute hw hexec, operations_of_execute hw hexec,
        of_decide_eq_true h⟩

end VhalCore.Subscription.SubscriptionManager
