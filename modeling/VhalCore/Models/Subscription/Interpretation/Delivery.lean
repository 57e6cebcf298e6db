import VhalCore.Models.Subscription.Interpretation.PairMachine

/-!
# Delivery of property events

Event delivery visits every client of every updated pair. Seen by one callback it
is a fold over the updated values: a value of a pair the callback does not hold is
skipped, any other is rounded and appended to its inbox, unless the filter for the
variable update rate drops it. Beside the remembered values the manager only gains
a config entry for each delivered pair, which no reader of a config can notice.
-/

namespace VhalCore.Subscription

/-- The decision of the filter for the variable update rate on a value, given the
value it remembers. -/
def isUpdated (remembered : Option VehiclePropValue) (value : VehiclePropValue) : Bool :=
  match remembered with
  | none => true
  | some it =>
      !decide (it.timestamp > value.timestamp) &&
        !(it.value.eq value.value && it.status == value.status)

/-- What one callback is given by a delivery, and the values remembered for it. -/
@[ext] structure Inbox where
  values : List VehiclePropValue
  remembered : PropIdAreaId → Option VehiclePropValue

/-- A value arrives at a callback. The filter remembers the first value it sees. -/
def Inbox.receive (inbox : Inbox) (resolution : Binary32) (filtered : Bool)
    (v : VehiclePropValue) : Inbox :=
  let value := v.rounded resolution
  if filtered then
    { values :=
        if isUpdated (inbox.remembered v.propIdAreaId) value then inbox.values ++ [value]
        else inbox.values
      remembered := Function.update inbox.remembered v.propIdAreaId
        (some ((inbox.remembered v.propIdAreaId).getD value)) }
  else { inbox with values := inbox.values ++ [value] }

namespace SubscriptionManager

/-- The value remembered for a callback and a pair. -/
def remembered (s : SubscriptionManager) (callback : CallbackType) (p : PropIdAreaId) :
    Option VehiclePropValue :=
  (s.mContSubValuesByCallback.valueAt callback ∅).lookup p

/-- The config read for a pair, a default one if it has none. -/
def configAt (s : SubscriptionManager) (p : PropIdAreaId) : ContSubConfigs :=
  s.mContSubConfigsByPropIdArea.valueAt p {}

/-- Whether the manager itself filters the values of a pair for a client. -/
def filtersFor (s : SubscriptionManager) (p : PropIdAreaId) (c : ClientIdType) : Bool :=
  (s.configAt p).isVurEnabledForClient c && !(s.configAt p).isVurEnabled

/-- The first value that a callback gets for a pair is the one remembered. -/
theorem remembered_insertContSubValue (s : SubscriptionManager) (k k' : CallbackType)
    (v : VehiclePropValue) :
    (insertContSubValue k v s).remembered k' =
      if k' = k then
        Function.update (s.remembered k) v.propIdAreaId
          (some ((s.remembered k v.propIdAreaId).getD v))
      else s.remembered k' := by
  funext p
  by_cases hk : k' = k
  · subst hk
    simp only [insertContSubValue, remembered, UnorderedMap.valueAt_insert_self,
      UnorderedMap.lookup_touch_eq, ite_true, Function.update_apply]
    rfl
  · simp only [insertContSubValue, remembered, UnorderedMap.valueAt,
      Finmap.lookup_insert_of_ne _ hk, hk, ite_false]

/-- The filter answers by the remembered value and then remembers the first value. -/
theorem isValueUpdatedLocked_spec (s : SubscriptionManager) (k : CallbackType)
    (v : VehiclePropValue) :
    (isValueUpdatedLocked k v s).1 = isUpdated (s.remembered k v.propIdAreaId) v ∧
    (∃ values, (isValueUpdatedLocked k v s).2 = { s with mContSubValuesByCallback := values }) ∧
    ∀ k', (isValueUpdatedLocked k v s).2.remembered k' =
      if k' = k then
        Function.update (s.remembered k) v.propIdAreaId
          (some ((s.remembered k v.propIdAreaId).getD v))
      else s.remembered k' := by
  have hins := remembered_insertContSubValue s k
  cases hr : s.remembered k v.propIdAreaId with
  | none =>
      have hr' := hr
      unfold remembered at hr'
      simp only [isValueUpdatedLocked, hr', isUpdated, true_and]
      exact ⟨⟨_, rfl⟩, fun k' => by rw [hins k' v, hr]⟩
  | some it =>
      have hr' := hr
      unfold remembered at hr'
      by_cases hold : it.timestamp > v.timestamp
      · simp only [isValueUpdatedLocked, hr', hold, ite_true, isUpdated, decide_true, Bool.not_true,
          Bool.false_and, true_and]
        refine ⟨⟨s.mContSubValuesByCallback, rfl⟩, fun k' => ?_⟩
        by_cases hk : k' = k
        · subst hk
          rw [if_pos rfl, Option.getD_some, ← hr, Function.update_eq_self]
        · rw [if_neg hk]
      · by_cases hsame : (it.value.eq v.value && it.status == v.status) = true
        · simp only [isValueUpdatedLocked, hr', hold, ite_false, hsame, ite_true, isUpdated,
            Bool.not_true, Bool.and_false, true_and]
          exact ⟨⟨_, rfl⟩, fun k' => by rw [hins k' v, hr]⟩
        · simp only [Bool.not_eq_true] at hsame
          simp only [isValueUpdatedLocked, hr', hold, ite_false, hsame, Bool.false_eq_true,
            isUpdated, decide_false, Bool.not_false, Bool.and_true, true_and]
          exact ⟨⟨_, rfl⟩, fun k' => by rw [hins k' v, hr]⟩

/-- The config entry of a pair is created if it was absent. -/
def touchConfig (s : SubscriptionManager) (p : PropIdAreaId) : SubscriptionManager :=
  { s with mContSubConfigsByPropIdArea := s.mContSubConfigsByPropIdArea.touch p {} }

/-- Creating an entry is invisible to whoever reads a config. -/
@[simp] theorem configAt_touchConfig (s : SubscriptionManager) (p q : PropIdAreaId) :
    (s.touchConfig p).configAt q = s.configAt q := by
  by_cases hq : q = p
  · subst hq
    simp only [configAt, touchConfig, UnorderedMap.valueAt, UnorderedMap.lookup_touch_self,
      Option.getD_some]
  · simp only [configAt, touchConfig, UnorderedMap.valueAt, UnorderedMap.lookup_touch_eq, hq,
      ite_false]

/-- The inbox of a callback while a delivery is under way. -/
def inbox (acc : ClientEvents VehiclePropValue × SubscriptionManager) (k : CallbackType) :
    Inbox where
  values := acc.1.valueAt k []
  remembered := acc.2.remembered k

/-- No callback is listed with nothing to deliver. -/
def NoEmptyEntry {Event : Type} (clients : ClientEvents Event) : Prop :=
  ∀ k, clients.lookup k ≠ some []

/-- An event is appended to those of its callback. -/
theorem valueAt_pushBack {Event : Type} (clients : ClientEvents Event) (k k' : CallbackType)
    (event : Event) :
    (pushBack clients k' event).valueAt k [] =
      if k = k' then clients.valueAt k [] ++ [event] else clients.valueAt k [] := by
  by_cases hk : k = k'
  · subst hk
    simp only [pushBack, UnorderedMap.valueAt_insert_self, ite_true]
  · simp only [pushBack, UnorderedMap.valueAt, Finmap.lookup_insert_of_ne _ hk, hk, ite_false]

/-- No callback is listed without an event. -/
theorem NoEmptyEntry.pushBack {Event : Type} {clients : ClientEvents Event}
    (h : NoEmptyEntry clients) (k' : CallbackType) (event : Event) :
    NoEmptyEntry (pushBack clients k' event) := by
  intro k
  by_cases hk : k = k'
  · subst hk
    simp [SubscriptionManager.pushBack]
  · rw [SubscriptionManager.pushBack, Finmap.lookup_insert_of_ne _ hk]
    exact h k

/-- A listed callback has exactly its collected events. -/
theorem NoEmptyEntry.lookup_eq {Event : Type} {clients : ClientEvents Event}
    (h : NoEmptyEntry clients) (k : CallbackType) :
    clients.lookup k =
      if (clients.valueAt k []).isEmpty then none else some (clients.valueAt k []) := by
  rw [UnorderedMap.valueAt]
  cases hk : clients.lookup k with
  | none => rfl
  | some events =>
      have hne : events ≠ [] := fun he => h k (he ▸ hk)
      simp only [Option.getD_some, List.isEmpty_iff, hne, ite_false]

/-- What the turn of one client does to the inboxes and to the manager. -/
structure DeliversToClient (v : VehiclePropValue) (c : ClientIdType) (callback : CallbackType)
    (acc acc' : ClientEvents VehiclePropValue × SubscriptionManager) : Prop where
  state : ∃ values, acc'.2 = { acc.2.touchConfig v.propIdAreaId with
    mContSubValuesByCallback := values }
  inbox : ∀ k, inbox acc' k =
    if k = callback then
      (inbox acc k).receive ((acc.2.configAt v.propIdAreaId).getResolutionForClient c)
        (acc.2.filtersFor v.propIdAreaId c) v
    else inbox acc k
  noEmptyEntry : NoEmptyEntry acc.1 → NoEmptyEntry acc'.1

/-- The events and the manager after the delivery of a rounded value. -/
private def afterDelivery (value : VehiclePropValue) (callback : CallbackType) (filters : Bool)
    (clients : ClientEvents VehiclePropValue) (s : SubscriptionManager) :
    ClientEvents VehiclePropValue × SubscriptionManager :=
  if filters then
    match isValueUpdatedLocked callback value s with
    | (true, t) => (pushBack clients callback value, t)
    | (false, t) => (clients, t)
  else (pushBack clients callback value, s)

/-- The turn of a client is defined exactly when the rounding for it is. -/
theorem deliverToClient_spec (v : VehiclePropValue) (c : ClientIdType) (callback : CallbackType)
    (acc : ClientEvents VehiclePropValue × SubscriptionManager) :
    let resolution := (acc.2.configAt v.propIdAreaId).getResolutionForClient c
    (sanitizeByResolution v.value resolution = none ∧
      deliverToClient v acc (c, callback) = none) ∨
    ((sanitizeByResolution v.value resolution).isSome ∧
      ∃ acc', deliverToClient v acc (c, callback) = some acc' ∧
        DeliversToClient v c callback acc acc') := by
  intro resolution
  rcases acc with ⟨clients, s⟩
  cases hraw : sanitizeByResolution v.value resolution with
  | none =>
      refine Or.inl ⟨rfl, ?_⟩
      simp only [deliverToClient]
      exact congrArg (Option.map _) hraw
  | some raw =>
      have hvalue : ({ v with value := raw } : VehiclePropValue) = v.rounded resolution := by
        rw [VehiclePropValue.rounded, hraw, Option.getD_some]
      refine Or.inr ⟨rfl, ?_⟩
      have hdef : deliverToClient v (clients, s) (c, callback) =
          some (afterDelivery (v.rounded resolution) callback (s.filtersFor v.propIdAreaId c)
            clients (s.touchConfig v.propIdAreaId)) := by
        simp only [deliverToClient]
        rw [← hvalue]
        exact congrArg (Option.map _) hraw
      refine ⟨_, hdef, ?_⟩
      by_cases hf : s.filtersFor v.propIdAreaId c = true
      · obtain ⟨hres, ⟨values, hstate⟩, hmem⟩ := isValueUpdatedLocked_spec
          (s.touchConfig v.propIdAreaId) callback (v.rounded resolution)
        rcases hupd : isValueUpdatedLocked callback (v.rounded resolution)
          (s.touchConfig v.propIdAreaId) with ⟨updated, t⟩
        rw [hupd] at hres hstate hmem
        simp only at hres hstate hmem
        have hmem' (k : CallbackType) : t.remembered k =
            if k = callback then Function.update (s.remembered callback) v.propIdAreaId
              (some ((s.remembered callback v.propIdAreaId).getD (v.rounded resolution)))
            else s.remembered k := hmem k
        have hres' : updated =
            isUpdated (s.remembered callback v.propIdAreaId) (v.rounded resolution) := hres
        simp only [afterDelivery, hf, hupd, ite_true]
        cases updated with
        | true =>
            refine ⟨⟨values, hstate⟩, fun k => ?_, fun hn => hn.pushBack _ _⟩
            by_cases hk : k = callback
            · subst hk
              change _ = if k = k then (inbox (clients, s) k).receive resolution _ v else _
              simp only [inbox, Inbox.receive, hf, valueAt_pushBack, ite_true, hmem', ← hres']
            · simp only [inbox, valueAt_pushBack, hk, ite_false, hmem']
        | false =>
            refine ⟨⟨values, hstate⟩, fun k => ?_, id⟩
            by_cases hk : k = callback
            · subst hk
              change _ = if k = k then (inbox (clients, s) k).receive resolution _ v else _
              simp only [inbox, Inbox.receive, hf, ite_true, hmem', ← hres', Bool.false_eq_true,
                ite_false]
            · simp only [inbox, hk, ite_false, hmem']
      · simp only [Bool.not_eq_true] at hf
        simp only [afterDelivery, hf, Bool.false_eq_true, ite_false]
        refine ⟨⟨_, rfl⟩, fun k => ?_, fun hn => hn.pushBack _ _⟩
        by_cases hk : k = callback
        · subst hk
          simp only [inbox, Inbox.receive, hf, Bool.false_eq_true, valueAt_pushBack, ite_true,
            ite_false]
          rfl
        · simp only [inbox, valueAt_pushBack, hk, ite_false]
          rfl

/-- All that a delivery leaves as it was. -/
structure KeepsSubscriptions (s t : SubscriptionManager) : Prop where
  clients : t.mClientsByPropIdAreaId = s.mClientsByPropIdAreaId
  held : t.mSubscribedPropsByClient = s.mSubscribedPropsByClient
  configAt : ∀ p, t.configAt p = s.configAt p
  hardware : t.mVehicleHardware = s.mVehicleHardware
  supportedClients : t.mSupportedValueChangeClientsByPropIdAreaId =
    s.mSupportedValueChangeClientsByPropIdAreaId
  supportedPairs : t.mSupportedValueChangePropIdAreaIdsByClient =
    s.mSupportedValueChangePropIdAreaIdsByClient

theorem KeepsSubscriptions.refl (s : SubscriptionManager) : KeepsSubscriptions s s :=
  ⟨rfl, rfl, fun _ => rfl, rfl, rfl, rfl⟩

/-- An entry made for a pair, and remembered values, keep the subscriptions. -/
theorem KeepsSubscriptions.touchConfig {s t : SubscriptionManager} (h : KeepsSubscriptions s t)
    (p : PropIdAreaId)
    (values : UnorderedMap CallbackType (UnorderedMap PropIdAreaId VehiclePropValue)) :
    KeepsSubscriptions s { t.touchConfig p with mContSubValuesByCallback := values } :=
  ⟨h.clients, h.held, fun q => (configAt_touchConfig t p q).trans (h.configAt q), h.hardware,
    h.supportedClients, h.supportedPairs⟩

theorem KeepsSubscriptions.filtersFor {s t : SubscriptionManager} (h : KeepsSubscriptions s t)
    (p : PropIdAreaId) (c : ClientIdType) : t.filtersFor p c = s.filtersFor p c := by
  rw [SubscriptionManager.filtersFor, SubscriptionManager.filtersFor, h.configAt p]

/-- Every client is registered under the binder of its callback. -/
def KeyedByBinder (s : SubscriptionManager) : Prop :=
  ∀ p c k, s.client p c = some k → k.asBinder = c

/-- What a value does to the inbox of a callback: nothing unless the callback holds the
pair of the value. -/
def receiveValue (s : SubscriptionManager) (k : CallbackType) (inbox : Inbox)
    (v : VehiclePropValue) : Inbox :=
  if s.client v.propIdAreaId k.asBinder = some k then
    inbox.receive ((s.configAt v.propIdAreaId).getResolutionForClient k.asBinder)
      (s.filtersFor v.propIdAreaId k.asBinder) v
  else inbox

/-- The invariant of a delivery that began in `s`. -/
private def Delivering (s : SubscriptionManager)
    (acc : ClientEvents VehiclePropValue × SubscriptionManager) : Prop :=
  KeepsSubscriptions s acc.2 ∧ NoEmptyEntry acc.1

private theorem Delivering.deliverToClient {s : SubscriptionManager} {v : VehiclePropValue}
    {entry : ClientIdType × CallbackType}
    {acc acc' : ClientEvents VehiclePropValue × SubscriptionManager} (hd : Delivering s acc)
    (h : deliverToClient v acc entry = some acc') :
    Delivering s acc' ∧ ∀ k, inbox acc' k =
      if k = entry.2 then
        (inbox acc k).receive ((s.configAt v.propIdAreaId).getResolutionForClient entry.1)
          (s.filtersFor v.propIdAreaId entry.1) v
      else inbox acc k := by
  rcases entry with ⟨c, callback⟩
  rcases deliverToClient_spec v c callback acc with ⟨_, hnone⟩ | ⟨_, acc₁, hsome, hspec⟩
  · rw [hnone] at h
    exact absurd h nofun
  · rw [hsome] at h
    cases h
    obtain ⟨values, hstate⟩ := hspec.state
    refine ⟨⟨?_, hspec.noEmptyEntry hd.2⟩, fun k => ?_⟩
    · rw [hstate]
      exact hd.1.touchConfig v.propIdAreaId values
    · rw [hspec.inbox k, hd.1.configAt, hd.1.filtersFor]

private theorem Delivering.deliverValue {s : SubscriptionManager}
    {order : Traversal ClientIdType} {v : VehiclePropValue}
    {acc acc' : ClientEvents VehiclePropValue × SubscriptionManager} (hd : Delivering s acc)
    (h : deliverValue order acc v = some acc') : Delivering s acc' := by
  rw [SubscriptionManager.deliverValue] at h
  cases hc : acc.2.mClientsByPropIdAreaId.lookup v.propIdAreaId with
  | none =>
      rw [hc] at h
      cases h
      exact hd
  | some clients =>
      rw [hc] at h
      exact foldlM_invariant h hd fun entry _ a b ha hab => (ha.deliverToClient hab).1

private theorem Delivering.inbox_deliverValue {s : SubscriptionManager} (hkey : KeyedByBinder s)
    {order : Traversal ClientIdType} {v : VehiclePropValue}
    {acc acc' : ClientEvents VehiclePropValue × SubscriptionManager} (hd : Delivering s acc)
    (h : SubscriptionManager.deliverValue order acc v = some acc') (k : CallbackType) :
    inbox acc' k = s.receiveValue k (inbox acc k) v := by
  rw [SubscriptionManager.deliverValue, hd.1.clients] at h
  cases hc : s.mClientsByPropIdAreaId.lookup v.propIdAreaId with
  | none =>
      rw [hc] at h
      cases h
      rw [receiveValue, if_neg]
      simp only [client, hc, Option.bind_none, reduceCtorEq, not_false_eq_true]
  | some clients =>
      rw [hc] at h
      have hclient (c : ClientIdType) : s.client v.propIdAreaId c = clients.lookup c := by
        rw [client, hc, Option.bind_some]
      have hfold := (foldlM_observe (O := fun acc => inbox acc k)
        (g := fun inbox entry => if k = entry.2 then
          inbox.receive ((s.configAt v.propIdAreaId).getResolutionForClient entry.1)
            (s.filtersFor v.propIdAreaId entry.1) v
          else inbox) h hd
        fun entry _ a b ha hab => ⟨(ha.deliverToClient hab).1, (ha.deliverToClient hab).2 k⟩).2
      rw [hfold, receiveValue, hclient, foldl_select (a := (k.asBinder, k))
        (F := fun inbox => inbox.receive
          ((s.configAt v.propIdAreaId).getResolutionForClient k.asBinder)
          (s.filtersFor v.propIdAreaId k.asBinder) v) (order.nodup_entries clients)]
      · exact if_congr (order.mem_entries clients k.asBinder k) rfl rfl
      · intro _ b
        rw [if_pos rfl]
      · rintro ⟨c, k'⟩ hmem hne b
        refine if_neg fun hk => hne ?_
        have hc' := (order.mem_entries clients c k').mp hmem
        rw [← hclient] at hc'
        cases hk
        rw [hkey v.propIdAreaId c _ hc']

private theorem delivering_start (s : SubscriptionManager) : Delivering s (∅, s) :=
  ⟨.refl s, fun k => by simp only [Finmap.lookup_empty, ne_eq, reduceCtorEq, not_false_eq_true]⟩

/-- A delivery keeps the subscriptions and lists no callback without a value. -/
theorem keepsSubscriptions_getSubscribedClients {s t : SubscriptionManager}
    {updatedValues : List VehiclePropValue} {order : Traversal ClientIdType}
    {result : ClientEvents VehiclePropValue}
    (h : getSubscribedClients updatedValues order s = some (result, t)) :
    KeepsSubscriptions s t ∧ NoEmptyEntry result :=
  foldlM_invariant (P := Delivering s) h (delivering_start s)
    fun _ _ _ _ ha hab => ha.deliverValue hab

/-- Seen by one callback, a delivery is a fold over the updated values. -/
theorem inbox_getSubscribedClients {s t : SubscriptionManager} (hkey : KeyedByBinder s)
    {updatedValues : List VehiclePropValue} {order : Traversal ClientIdType}
    {result : ClientEvents VehiclePropValue}
    (h : getSubscribedClients updatedValues order s = some (result, t)) (k : CallbackType) :
    inbox (result, t) k = updatedValues.foldl (s.receiveValue k) ⟨[], s.remembered k⟩ :=
  (foldlM_observe (O := fun acc => inbox acc k) h (delivering_start s)
    fun _ _ _ _ ha hab => ⟨ha.deliverValue hab, ha.inbox_deliverValue hkey hab k⟩).2

/-- A delivery makes only roundings that are defined. -/
theorem rounding_of_getSubscribedClients {s t : SubscriptionManager}
    {updatedValues : List VehiclePropValue} {order : Traversal ClientIdType}
    {result : ClientEvents VehiclePropValue}
    (h : getSubscribedClients updatedValues order s = some (result, t)) {v : VehiclePropValue}
    (hv : v ∈ updatedValues) {c : ClientIdType} {k : CallbackType}
    (hclient : s.client v.propIdAreaId c = some k) :
    (sanitizeByResolution v.value
      ((s.configAt v.propIdAreaId).getResolutionForClient c)).isSome := by
  obtain ⟨acc, acc', hd, hvalue⟩ := foldlM_turn (P := Delivering s) h (delivering_start s)
    (fun _ _ _ _ ha hab => ha.deliverValue hab) hv
  rw [deliverValue, hd.1.clients] at hvalue
  obtain ⟨clients, hclients, hentry⟩ := Option.bind_eq_some_iff.mp hclient
  rw [hclients] at hvalue
  obtain ⟨turn, turn', hturn, hdelivered⟩ := foldlM_turn (P := Delivering s) hvalue hd
    (fun _ _ _ _ ha hab => (ha.deliverToClient hab).1)
    ((order.mem_entries clients c k).mpr hentry)
  rw [← hturn.1.configAt]
  rcases deliverToClient_spec v c k turn with ⟨_, hnone⟩ | ⟨hsome, _⟩
  · exact absurd (hnone.symm.trans hdelivered) nofun
  · exact hsome

/-- The turn of one value is defined as soon as every rounding it makes is. -/
private theorem deliverValue_defined {s : SubscriptionManager} {v : VehiclePropValue}
    (order : Traversal ClientIdType)
    (h : ∀ c k, s.client v.propIdAreaId c = some k →
      (sanitizeByResolution v.value
        ((s.configAt v.propIdAreaId).getResolutionForClient c)).isSome)
    (acc : ClientEvents VehiclePropValue × SubscriptionManager)
    (hacc : KeepsSubscriptions s acc.2) :
    ∃ acc', deliverValue order acc v = some acc' ∧ KeepsSubscriptions s acc'.2 := by
  rw [deliverValue, hacc.clients]
  cases hl : s.mClientsByPropIdAreaId.lookup v.propIdAreaId with
  | none => exact ⟨acc, rfl, hacc⟩
  | some clients =>
      refine foldlM_defined (P := fun acc : ClientEvents VehiclePropValue × SubscriptionManager =>
        KeepsSubscriptions s acc.2) hacc ?_
      rintro ⟨c, k⟩ hmem a ha
      have hclient : s.client v.propIdAreaId c = some k := by
        rw [client, hl, Option.bind_some]
        exact (order.mem_entries clients c k).mp hmem
      have hsan := h c k hclient
      rw [← ha.configAt] at hsan
      rcases deliverToClient_spec v c k a with ⟨hnone, _⟩ | ⟨_, b, hb, hspec⟩
      · rw [hnone] at hsan
        exact absurd hsan nofun
      · obtain ⟨values, hstate⟩ := hspec.state
        refine ⟨b, hb, ?_⟩
        rw [hstate]
        exact ha.touchConfig _ _

/-- A delivery is defined as soon as every rounding it makes is. -/
theorem getSubscribedClients_defined {s : SubscriptionManager}
    {updatedValues : List VehiclePropValue} (order : Traversal ClientIdType)
    (h : ∀ v ∈ updatedValues, ∀ c k, s.client v.propIdAreaId c = some k →
      (sanitizeByResolution v.value
        ((s.configAt v.propIdAreaId).getResolutionForClient c)).isSome) :
    ∃ result t, getSubscribedClients updatedValues order s = some (result, t) := by
  have hstart : KeepsSubscriptions s ((∅ : ClientEvents VehiclePropValue), s).2 := .refl s
  obtain ⟨⟨result, t⟩, ht, _⟩ := foldlM_defined (f := deliverValue order)
    (P := fun acc => KeepsSubscriptions s acc.2) hstart
    fun v hv acc hacc => deliverValue_defined order (h v hv) acc hacc
  exact ⟨result, t, ht⟩

end SubscriptionManager

end VhalCore.Subscription
