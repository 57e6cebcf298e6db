import VhalCore.Models.FakeHardware.Interpretation.SparedProperties
import VhalCore.Models.FakeHardware.Native.Subscriptions
import VhalCore.Models.Subscription.Correctness.FanOut

/-!
# Changes of global properties

The area id of a global property is ignored by the store and by the checks of a request, and
a subscription to such a property is one to area zero. The stored value and its event keep
the area id of the request all the same, and the event is looked up by it: it reaches the
subscriber of area zero exactly if the request has area zero, or if the subscriber has
subscribed to the pair of the request as well.
-/

namespace VhalCore.FakeHardware

open PropertyStore VehiclePropertyStore Subscription

/-- The callbacks that ran from one board to the other. -/
def Board.newCallbacks (a b : Board) : List ChangeCallback := b.emitted.drop a.emitted.length

/-- The record has a new value, which differs from the old one in its payload or its status. -/
structure Board.Changes (a b : Board) (propId : Int) (recId : RecordId) (new : VehiclePropValue) :
    Prop where
  stored : b.store.stored propId recId = some new
  changed : a.store.stored propId recId ≠ some new
  updated : PropertyStore.isUpdated new (a.store.stored propId recId) = true

/-- One of the callbacks leads to an event for the subscriber that tells the payload of a value:
the hardware passes it on and the manager finds the subscriber. -/
def Tells (hardware : FakeVehicleHardware) (manager : SubscriptionManager) (k : CallbackType)
    (callbacks : List ChangeCallback) (value : VehiclePropValue) : Prop :=
  ∃ c ∈ callbacks, ∀ order, ∃ result after,
    manager.getSubscribedClients (hardware.onValuesChangeCallback c.values) order =
      some (result, after) ∧
    ∃ event ∈ UnorderedMap.valueAt result k [],
      event.prop = value.prop ∧ event.value = value.value

namespace Board

/-- What is told of a property is of one area, and every change of it is told. -/
structure Announces (propId areaId : Int) (a b : Board) : Prop where
  emitted : ∃ cs, b.emitted = a.emitted ++ cs ∧
    (∀ c ∈ cs, ∀ x ∈ c.values, x.prop = propId → x.areaId = areaId) ∧
    ∀ recId new, a.Changes b propId recId new → new.prop = propId ∧ new.areaId = areaId ∧
      ∃ c ∈ cs, c.values = [new]

variable {propId areaId : Int} {a b c : Board} {w : VehiclePropValue}

theorem Spares.announces (h : Spares propId a b) : Announces propId areaId a b := by
  obtain ⟨cs, he, hcs⟩ := h.emitted
  refine ⟨cs, he, fun c hc x hx hprop => absurd hprop (hcs c hc x hx), fun recId new hchanges => ?_⟩
  exact absurd ((h.stored recId).symm.trans hchanges.stored) hchanges.changed

/-- What is announced after a step that spares the property is announced by both. -/
theorem Announces.after_spares (h₁ : Spares propId a b) (h₂ : Announces propId areaId b c) :
    Announces propId areaId a c := by
  obtain ⟨cs₁, he₁, hcs₁⟩ := h₁.emitted
  obtain ⟨cs₂, he₂, hareas, htold⟩ := h₂.emitted
  refine ⟨cs₁ ++ cs₂, by rw [he₂, he₁, List.append_assoc], ?_, ?_⟩
  · intro d hd x hx hprop
    rcases List.mem_append.mp hd with hd | hd
    · exact absurd hprop (hcs₁ d hd x hx)
    · exact hareas d hd x hx hprop
  · rintro recId new ⟨hstored, hchanged, hupdated⟩
    rw [← h₁.stored recId] at hchanged hupdated
    obtain ⟨hprop, harea, d, hd, hvalues⟩ := htold recId new ⟨hstored, hchanged, hupdated⟩
    exact ⟨hprop, harea, d, List.mem_append_right _ hd, hvalues⟩

/-- What is announced before a step that spares the property is announced by both. -/
theorem Announces.before_spares (h₁ : Announces propId areaId a b) (h₂ : Spares propId b c) :
    Announces propId areaId a c := by
  obtain ⟨cs₁, he₁, hareas, htold⟩ := h₁.emitted
  obtain ⟨cs₂, he₂, hcs₂⟩ := h₂.emitted
  refine ⟨cs₁ ++ cs₂, by rw [he₂, he₁, List.append_assoc], ?_, ?_⟩
  · intro d hd x hx hprop
    rcases List.mem_append.mp hd with hd | hd
    · exact hareas d hd x hx hprop
    · exact absurd hprop (hcs₂ d hd x hx)
  · rintro recId new ⟨hstored, hchanged, hupdated⟩
    rw [h₂.stored recId] at hstored
    obtain ⟨hprop, harea, d, hd, hvalues⟩ := htold recId new ⟨hstored, hchanged, hupdated⟩
    exact ⟨hprop, harea, d, List.mem_append_left _ hd, hvalues⟩

/-- A write to the property itself, in a mode that tells changes. -/
theorem announces_write (hcallback : b.store.mOnValuesChangeCallback = true)
    (harea : w.prop = propId → w.areaId = areaId) {updateStatus : Bool}
    {eventMode : PropertyStore.EventMode} (hmode : eventMode ≠ .never) :
    Announces propId areaId b (b.write w updateStatus eventMode).2 := by
  by_cases hprop : w.prop = propId
  · by_cases hw : b.store.Writable w
    · rw [write_of_writable hw]
      refine ⟨_, rfl, fun d hd x hx _ => ?_, ?_⟩
      · rw [values_of_mem_callbacksOf hd, List.mem_singleton] at hx
        rw [hx]
        exact harea hprop
      · rintro recId new ⟨hstored, hchanged, hupdated⟩
        rw [stored_put hw.registered] at hstored
        split at hstored
        · rename_i hkey
          cases hstored
          have hold : b.store.storedFor w = b.store.stored propId recId := by
            rw [storedFor, hkey.2, Option.bind_some, hprop]
          have hchanges : b.store.changes updateStatus w = true := by
            rw [VehiclePropertyStore.changes, hold]
            exact hupdated
          refine ⟨hprop, harea hprop, .onValuesChange [b.store.written updateStatus w], ?_, rfl⟩
          rcases eventMode with _ | _ | _
          · simp [callbacksOf, invokeCallbacks, hcallback, hchanges]
          · simp [callbacksOf, invokeCallbacks, hcallback]
          · exact absurd rfl hmode
        · exact absurd hstored hchanged
    · obtain ⟨e, he⟩ := write_of_not_writable hw updateStatus eventMode
      rw [he]
      exact (Spares.refl propId b).announces
  · exact (spares_write hprop updateStatus eventMode b).announces

end Board

namespace Route

/-- What a route of a global property writes to the property itself is of one area. -/
def Concerns (propId areaId : Int) : Route → Prop
  | .single w => w.prop = propId → w.areaId = areaId
  | .plain side w => (∀ x ∈ side, x.prop ≠ propId) ∧ w.areaId = areaId
  | .report w request => w.areaId = areaId ∧ ∀ r, request = some r → r.1.prop ≠ propId
  | .synchronized _ => False
  | .clear _ => propId ≠ obd2FreezeFrameId
  | _ => True

/-- A route for a property announces its change, if it succeeds. -/
theorem Concerns.announces {propId areaId : Int} {route : Route} {b after : Board}
    (h : route.Concerns propId areaId) (hcallback : b.store.mOnValuesChangeCallback = true)
    (hvalid : b.store.Valid) (hrun : route.run b = .ok (.ok (), after)) :
    b.Announces propId areaId after := by
  cases route with
  | done =>
      cases hrun
      exact (Board.Spares.refl propId b).announces
  | refused error => cases hrun
  | fault f => cases hrun
  | single w =>
      have hafter : after = (b.write w true .always).2 := by
        rw [run, Except.ok.injEq] at hrun
        rw [hrun]
      rw [hafter]
      exact Board.announces_write hcallback h (by rintro ⟨⟩)
  | plain side w =>
      have hafter : after = ((b.attemptAll side).write w false .onValueChange).2 := by
        rw [run, Except.ok.injEq] at hrun
        rw [hrun]
      rw [hafter]
      refine .after_spares (Board.spares_attemptAll h.1 b)
        (Board.announces_write ?_ (fun _ => h.2) (by rintro ⟨⟩))
      exact (Board.attemptAll_callback side b).trans hcallback
  | report w request =>
      have hfirst : b.Announces propId areaId (b.write w false .onValueChange).2 :=
        Board.announces_write hcallback (fun _ => h.1) (by rintro ⟨⟩)
      rcases hwrite : b.write w false .onValueChange with ⟨e | _, c⟩
      · simp only [run, hwrite] at hrun
        cases hrun
      · rw [hwrite] at hfirst
        rcases request with _ | ⟨r, eventMode⟩
        · simp only [run, hwrite] at hrun
          cases hrun
          exact hfirst
        · simp only [run, hwrite, Except.ok.injEq] at hrun
          have hafter : after = (c.write r true eventMode).2 := by rw [hrun]
          rw [hafter]
          exact hfirst.before_spares (Board.spares_write (h.2 _ rfl) true eventMode c)
  | synchronized ws => exact absurd h id
  | clear timestamps => exact (Board.spares_clear h hvalid hrun).announces

end Route

namespace PropertyState

variable {env : Environment} {s : PropertyState} {v : VehiclePropValue}

theorem concerns_plain {side : List VehiclePropValue} (h : ∀ x ∈ side, x.prop ≠ v.prop) :
    (s.plainRoute env v side).Concerns v.prop v.areaId := by
  refine ⟨fun x hx => ?_, rfl⟩
  obtain ⟨w, hw, i, _, _, rfl⟩ := Environment.mem_stampFrom hx
  exact h w hw

/-- The route for the user HAL concerns the property of the request. -/
theorem concerns_userHal (h : s.mFakeUserHal.Reachable) :
    (s.userHalRoute env v).Concerns v.prop v.areaId := by
  obtain ⟨outcome, after, hresult, _, hout⟩ :=
    FakeUserHal.onSetProperty_regular h.wellFormed (env.clock s.moments) v
  unfold userHalRoute
  rw [hresult]
  rcases outcome with e | _ | w
  · trivial
  · trivial
  · exact fun _ => (hout w rfl).2

/-- The route for a power report concerns the property of the request. -/
theorem concerns_report (h : v.prop = apPowerStateReportId) :
    (s.reportRoute env v).Concerns v.prop v.areaId := by
  unfold reportRoute
  rcases v.value.int32Values with _ | ⟨state, rest⟩
  · simp only
    split
    · trivial
    · exact ⟨rfl, nofun⟩
  · refine ⟨rfl, fun r hr => ?_⟩
    obtain ⟨⟨w, eventMode⟩, hrequest, rfl⟩ := Option.map_eq_some_iff.mp hr
    change w.prop ≠ v.prop
    rw [prop_of_powerRequest hrequest, h]
    decide

/-- The route for a suggestion concerns the property of the request. -/
theorem concerns_suggestion : (s.suggestionRoute env v).Concerns v.prop v.areaId := by
  unfold suggestionRoute
  split
  · trivial
  · split
    · split
      · trivial
      · split
        · trivial
        · exact fun _ => rfl
    · trivial

/-- The route for the cruise control concerns the property of the request if the route for the
standard type does. -/
theorem concerns_cruise {onStandard : Route} (h : onStandard.Concerns v.prop v.areaId) :
    (s.cruiseRoute env v onStandard).Concerns v.prop v.areaId := by
  unfold cruiseRoute
  split
  · trivial
  · trivial
  · trivial
  · exact h
  · exact concerns_plain (by simp)

/-- The route for a command concerns the property of the request. -/
theorem concerns_command : (s.commandRoute env v).Concerns v.prop v.areaId := by
  unfold commandRoute
  split
  · trivial
  · split
    · trivial
    · exact concerns_plain (by simp)

/-- The switches of the driver assistance write other properties. -/
theorem prop_ne_of_mem_adasSide {ids : List Int}
    (h : mAdasEnabledPropToAdasPropWithErrorState.lookup v.prop = some ids) {x : VehiclePropValue}
    (hx : x ∈ s.adasSide v ids) : x.prop ≠ v.prop := by
  have hids : ∀ e ∈ mAdasEnabledPropToAdasPropWithErrorState, ∀ p ∈ e.2, p ≠ e.1 := by decide
  obtain ⟨l₁, l₂, hl, _⟩ := List.lookup_eq_some_iff.mp h
  exact hids (v.prop, ids) (by rw [hl]; simp) x.prop (prop_mem_of_mem_adasSide hx)

/-- The routes of a global property. -/
theorem concerns_route (hglobal : isGlobalProp v.prop = true) (hhal : s.mFakeUserHal.Reachable) :
    (s.route env v).Concerns v.prop v.areaId := by
  have hnot {p : Int} (hp : isGlobalProp p = false) (h : v.prop = p) : False := by
    rw [h, hp] at hglobal
    cases hglobal
  unfold route
  split_ifs
  · trivial
  · exact concerns_userHal hhal
  · trivial
  · split
    · rename_i ids hids
      exact concerns_plain fun x => prop_ne_of_mem_adasSide hids
    · refine propertyRoute_induction env s v (P := Route.Concerns v.prop v.areaId)
        (concerns_plain (by simp)) (fun _ => trivial) concerns_report ?_ (fun _ => trivial) ?_ ?_
        (fun _ => concerns_suggestion) ?_ ?_ (fun _ => concerns_cruise concerns_command)
        fun _ => concerns_cruise trivial
      · intro h parameter hprop
        have hreq : apPowerStateReqId = v.prop := hprop
        rw [h] at hreq
        exact absurd hreq (by decide)
      · intro h
        rw [h]
        exact show obd2FreezeFrameClearId ≠ obd2FreezeFrameId by decide
      · exact fun h _ => (hnot (by decide) h).elim
      · exact fun h _ _ => (hnot (by decide) h).elim
      · exact fun h _ => (hnot (by decide) h).elim

end PropertyState

section Fan

variable {kind : Int → Bool} {lib : MathLibrary} {manager after : SubscriptionManager}
variable {T : Table Registration} {k : CallbackType} {order : Traversal ClientIdType}
variable {result : SubscriptionManager.ClientEvents VehiclePropValue}

/-- Every event for a subscriber stems from a value of a pair that it has subscribed to. -/
theorem exists_of_mem_receive {values : List VehiclePropValue} {inbox : Inbox}
    {event : VehiclePropValue} (h : event ∈ (values.foldl (manager.receiveValue k) inbox).values) :
    event ∈ inbox.values ∨ ∃ x ∈ values, x.prop = event.prop ∧
      manager.client x.propIdAreaId k.asBinder = some k := by
  induction values generalizing inbox with
  | nil => exact Or.inl h
  | cons v values ih =>
      rw [List.foldl_cons] at h
      rcases ih h with hfirst | ⟨x, hx, hprop⟩
      · rw [SubscriptionManager.receiveValue] at hfirst
        split at hfirst
        · rename_i hclient
          have hcases : event ∈ inbox.values ∨ event = v.rounded
              ((manager.configAt v.propIdAreaId).getResolutionForClient k.asBinder) := by
            unfold Inbox.receive at hfirst
            simp only at hfirst
            split_ifs at hfirst
            · simpa using hfirst
            · exact Or.inl hfirst
            · simpa using hfirst
          rcases hcases with hold | rfl
          · exact Or.inl hold
          · exact Or.inr ⟨v, List.mem_cons_self .., rfl, hclient⟩
        · exact Or.inl hfirst
      · exact Or.inr ⟨x, List.mem_cons_of_mem _ hx, hprop⟩

/-- An on-change pair is neither rounded nor filtered. -/
theorem onChange_config (hT : SubscriptionManager.Refines kind lib manager T) {p : PropIdAreaId}
    (hkind : kind p.propId = false) (c : ClientIdType) :
    (manager.configAt p).getResolutionForClient c = .zero ∧ manager.filtersFor p c = false := by
  have hconfig : ∀ r, T p c = some r → r.config = none := by
    intro r hr
    have hsome := (hT.sound p c r hr).kind
    rw [hkind] at hsome
    exact Option.isNone_iff_eq_none.mp (by rw [← Option.not_isSome, hsome]; rfl)
  refine ⟨?_, ?_⟩
  · rw [hT.resolution_eq, Table.resolutionFor]
    rcases hr : T p c with _ | r
    · rfl
    · simp only [Option.map_some, Option.getD_some, Registration.resolution, hconfig r hr]
  · rw [← Bool.not_eq_true, hT.filtersFor_iff]
    rintro ⟨⟨config, hsome, _⟩, _⟩
    obtain ⟨r, hr, hrconfig⟩ := Option.bind_eq_some_iff.mp hsome
    rw [hconfig r hr] at hrconfig
    cases hrconfig

/-- A value of an on-change pair reaches its subscriber as it is. -/
theorem getSubscribedClients_onChange (hT : SubscriptionManager.Refines kind lib manager T)
    {value : VehiclePropValue} (hkind : kind value.prop = false)
    (hclient : manager.client value.propIdAreaId k.asBinder = some k)
    (order : Traversal ClientIdType) :
    ∃ result after, manager.getSubscribedClients [value] order = some (result, after) ∧
      value ∈ UnorderedMap.valueAt result k [] := by
  have hconfig := onChange_config hT (p := value.propIdAreaId) hkind
  have hdefined : ∀ x ∈ [value], ∀ c k, manager.client x.propIdAreaId c = some k →
      (sanitizeByResolution x.value
        ((manager.configAt x.propIdAreaId).getResolutionForClient c)).isSome := by
    intro x hx c _ _
    rw [List.mem_singleton.mp hx, (hconfig c).1, sanitizeByResolution_zero]
    rfl
  obtain ⟨result, after, hresult⟩ := SubscriptionManager.getSubscribedClients_defined order hdefined
  refine ⟨result, after, hresult, ?_⟩
  have hinbox := congrArg Inbox.values
    (SubscriptionManager.inbox_getSubscribedClients hT.keyedByBinder hresult k)
  change UnorderedMap.valueAt result k [] = _ at hinbox
  rw [hinbox, List.foldl_cons, List.foldl_nil, SubscriptionManager.receiveValue, if_pos hclient,
    (hconfig k.asBinder).1, (hconfig k.asBinder).2]
  simp [Inbox.receive, VehiclePropValue.rounded]

/-- What is told is told to a subscriber of the pair of the request. -/
theorem pair_of_tells {hardware : FakeVehicleHardware} {a b : Board} {propId areaId : Int}
    (hT : SubscriptionManager.Refines kind lib manager T) (h : a.Announces propId areaId b)
    {value : VehiclePropValue} (hvalue : value.prop = propId)
    (htells : Tells hardware manager k (a.newCallbacks b) value) :
    hardware.isSubscribed ⟨propId, areaId⟩ = true ∧
      manager.client ⟨propId, areaId⟩ k.asBinder = some k := by
  obtain ⟨cs, hemitted, hareas, _⟩ := h.emitted
  obtain ⟨c, hc, hdelivers⟩ := htells
  rw [Board.newCallbacks, hemitted, List.drop_left] at hc
  obtain ⟨result, after, hresult, event, hevent, hprop, _⟩ := hdelivers (.ascending _)
  have hinbox := congrArg Inbox.values
    (SubscriptionManager.inbox_getSubscribedClients hT.keyedByBinder hresult k)
  change UnorderedMap.valueAt result k [] = _ at hinbox
  rw [hinbox] at hevent
  rcases exists_of_mem_receive hevent with hnone | ⟨x, hx, hxprop, hclient⟩
  · cases hnone
  · obtain ⟨hmem, hsubscribed⟩ := List.mem_filter.mp hx
    have hxp : x.prop = propId := hxprop.trans (hprop.trans hvalue)
    have hpair : x.propIdAreaId = ⟨propId, areaId⟩ := by
      rw [VehiclePropValue.propIdAreaId, hareas c hc x hmem hxp, hxp]
    rw [hpair] at hsubscribed hclient
    exact ⟨hsubscribed, hclient⟩

/-- A change is told to every subscriber of the pair of the request. -/
theorem tells_of_pair {hardware : FakeVehicleHardware} {a b : Board} {propId areaId : Int}
    (hT : SubscriptionManager.Refines kind lib manager T) (h : a.Announces propId areaId b)
    (hkind : kind propId = false) {recId : RecordId} {new : VehiclePropValue}
    (hchanges : a.Changes b propId recId new)
    (hsubscribed : hardware.isSubscribed ⟨propId, areaId⟩ = true)
    (hclient : manager.client ⟨propId, areaId⟩ k.asBinder = some k) :
    Tells hardware manager k (a.newCallbacks b) new := by
  obtain ⟨cs, hemitted, _, htold⟩ := h.emitted
  obtain ⟨hprop, harea, c, hc, hvalues⟩ := htold recId new hchanges
  have hpair : new.propIdAreaId = ⟨propId, areaId⟩ := by
    rw [VehiclePropValue.propIdAreaId, hprop, harea]
  have hpassed : hardware.onValuesChangeCallback c.values = [new] := by
    rw [hvalues, FakeVehicleHardware.onValuesChangeCallback, List.filter_singleton, hpair,
      hsubscribed]
    rfl
  refine ⟨c, ?_, fun order => ?_⟩
  · rw [Board.newCallbacks, hemitted, List.drop_left]
    exact hc
  · obtain ⟨result, after, hresult, hmem⟩ := getSubscribedClients_onChange hT (hprop ▸ hkind)
      (hpair ▸ hclient) order
    rw [hpassed]
    exact ⟨result, after, hresult, new, hmem, rfl, rfl⟩

end Fan

/-- A request that succeeds for a global property announces its change. -/
theorem announces_of_setValue {env : Environment} {s after : PropertyState}
    {v : VehiclePropValue} (hreachable : Reachable s.mServerSidePropStore)
    (hcallback : s.mServerSidePropStore.mOnValuesChangeCallback = true)
    (hhal : s.mFakeUserHal.Reachable) (hglobal : isGlobalProp v.prop = true)
    (hset : s.setValue env v = .ok (.ok (), after)) :
    s.board.Announces v.prop v.areaId after.board := by
  have hrun := PropertyState.view_setValue env s v hreachable.valid
  rw [hset] at hrun
  exact (PropertyState.concerns_route hglobal hhal).announces hcallback hreachable.valid hrun.symm

/-- A set of a global on-change property that changes the stored value is told to a subscriber
of area zero exactly if the request has area zero, or if the subscriber has subscribed to the
pair of the request too. -/
theorem global_change_told_iff {env : Environment} {s after : PropertyState}
    {v new : VehiclePropValue} {recId : RecordId} {hardware : FakeVehicleHardware}
    {hw : Nat → StatusCode} {lib : MathLibrary} {kind : Int → Bool}
    {as : List (SubscriptionManager.Operation × VhalResult)} {manager : SubscriptionManager}
    {k : CallbackType}
    (hreachable : Reachable s.mServerSidePropStore)
    (hcallback : s.mServerSidePropStore.mOnValuesChangeCallback = true)
    (hhal : s.mFakeUserHal.Reachable)
    (hmanager : SubscriptionManager.Run hw lib {} as manager)
    (hkinds : ∀ a ∈ as, a.1.RespectsKind kind)
    (hglobal : isGlobalProp v.prop = true) (honChange : kind v.prop = false)
    (hsubscribed : hardware.isSubscribed ⟨v.prop, 0⟩ = true)
    (hclient : manager.client ⟨v.prop, 0⟩ k.asBinder = some k)
    (hset : s.setValue env v = .ok (.ok (), after))
    (hchanges : s.board.Changes after.board v.prop recId new) :
    Tells hardware manager k (s.board.newCallbacks after.board) new ↔
      v.areaId = 0 ∨ hardware.isSubscribed ⟨v.prop, v.areaId⟩ = true ∧
        manager.client ⟨v.prop, v.areaId⟩ k.asBinder = some k := by
  obtain ⟨T, _, hT⟩ := SubscriptionManager.Run.refines hmanager hkinds
  have hannounces := announces_of_setValue hreachable hcallback hhal hglobal hset
  obtain ⟨cs, _, _, htold⟩ := hannounces.emitted
  constructor
  · intro htells
    exact Or.inr (pair_of_tells hT hannounces (htold recId new hchanges).1 htells)
  · rintro (hzero | ⟨hpair, hpairClient⟩)
    · rw [← hzero] at hsubscribed hclient
      exact tells_of_pair hT hannounces honChange hchanges hsubscribed hclient
    · exact tells_of_pair hT hannounces honChange hchanges hpair hpairClient

section Example

/-- The property `NIGHT_MODE`, which is global. -/
def nightModeId : Int := 0x11200407

/-- A store that knows only the night mode. -/
def nightStore : VehiclePropertyStore :=
  { PropertyStore.Operation.run [.registerProperty { prop := nightModeId } none] {} with
    mOnValuesChangeCallback := true }

theorem nightStore_reachable : Reachable nightStore := by
  refine .setOnValuesChangeCallback (.run .empty fun op hop store => ?_)
  rw [List.mem_singleton.mp hop]
  exact Or.inl rfl

/-- A state over that store. -/
def nightState : PropertyState := { mServerSidePropStore := nightStore }

/-- The mode is set, with some area id. -/
def setNight (areaId : Int) : VehiclePropValue :=
  { prop := nightModeId, areaId, value := { int32Values := [1] } }

/-- The value that is stored. -/
def storedNight (areaId : Int) : VehiclePropValue := { setNight areaId with timestamp := 5 }

/-- The hardware after the subscription of area zero. -/
def nightHardware : FakeVehicleHardware := { mSubOnChangePropIdAreaIds := {⟨nightModeId, 0⟩} }

/-- A manager with one subscriber of area zero. -/
theorem exists_night_subscriber :
    ∃ as manager, SubscriptionManager.Run (fun _ => .ok) default {} as manager ∧
      (∀ a ∈ as, a.1.RespectsKind fun _ => false) ∧
      manager.client ⟨nightModeId, 0⟩ 1 = some ⟨0, 1⟩ ∧
      manager.client ⟨nightModeId, 7⟩ 1 = none := by
  obtain ⟨as, manager, hrun, hops, hclient⟩ := SubscriptionManager.exists_run_of_execute
    (fun _ => .ok) default [.subscribe ⟨0, 1⟩ [{ propId := nightModeId, areaIds := [0] }] false]
    (fun manager => manager.client ⟨nightModeId, 0⟩ 1 = some ⟨0, 1⟩ ∧
      manager.client ⟨nightModeId, 7⟩ 1 = none) (by decide)
  refine ⟨as, manager, hrun, fun a ha => ?_, hclient⟩
  have hop := List.mem_map_of_mem (f := Prod.fst) ha
  rw [hops, List.mem_singleton] at hop
  rw [hop]
  exact fun _ _ => rfl

/-- The state after a set of the mode. -/
def afterNight (areaId : Int) : PropertyState :=
  { nightState with
    mServerSidePropStore := nightStore.put (storedNight areaId) (storedNight areaId)
    emitted := [.onValuesChange [storedNight areaId]]
    moments := 1 }

theorem setValue_night_seven :
    nightState.setValue .still (setNight 7) = .ok (.ok (), afterNight 7) := rfl

theorem setValue_night_zero :
    nightState.setValue .still (setNight 0) = .ok (.ok (), afterNight 0) := rfl

theorem night_changes_seven :
    nightState.board.Changes (afterNight 7).board nightModeId ⟨0, 0⟩ (storedNight 7) :=
  ⟨by decide, by decide, by decide⟩

theorem night_changes_zero :
    nightState.board.Changes (afterNight 0).board nightModeId ⟨0, 0⟩ (storedNight 0) :=
  ⟨by decide, by decide, by decide⟩

/-- The change of the mode with another area id does not reach the subscriber of area zero. -/
theorem night_change_with_area_not_told :
    ∃ as manager, SubscriptionManager.Run (fun _ => .ok) default {} as manager ∧
      (∀ a ∈ as, a.1.RespectsKind fun _ => false) ∧
      Reachable nightState.mServerSidePropStore ∧ isGlobalProp nightModeId = true ∧
      nightHardware.isSubscribed ⟨nightModeId, 0⟩ = true ∧
      manager.client ⟨nightModeId, 0⟩ 1 = some ⟨0, 1⟩ ∧
      nightState.setValue .still (setNight 7) = .ok (.ok (), afterNight 7) ∧
      nightState.board.Changes (afterNight 7).board nightModeId ⟨0, 0⟩ (storedNight 7) ∧
      ¬Tells nightHardware manager ⟨0, 1⟩ (nightState.board.newCallbacks (afterNight 7).board)
        (storedNight 7) := by
  obtain ⟨as, manager, hrun, hkinds, hclient, hother⟩ := exists_night_subscriber
  refine ⟨as, manager, hrun, hkinds, nightStore_reachable, by decide, by decide, hclient,
    setValue_night_seven, night_changes_seven, fun htells => ?_⟩
  obtain ⟨T, _, hT⟩ := SubscriptionManager.Run.refines hrun hkinds
  have hannounces := announces_of_setValue nightStore_reachable rfl .start
    (show isGlobalProp (setNight 7).prop = true by decide) setValue_night_seven
  have hpair := (pair_of_tells hT hannounces rfl htells).2
  cases hother.symm.trans hpair

/-- With area zero it does. -/
theorem night_change_told :
    ∃ as manager, SubscriptionManager.Run (fun _ => .ok) default {} as manager ∧
      Tells nightHardware manager ⟨0, 1⟩ (nightState.board.newCallbacks (afterNight 0).board)
        (storedNight 0) := by
  obtain ⟨as, manager, hrun, hkinds, hclient, _⟩ := exists_night_subscriber
  refine ⟨as, manager, hrun, ?_⟩
  exact (global_change_told_iff (k := ⟨0, 1⟩) nightStore_reachable rfl .start hrun hkinds
    (show isGlobalProp (setNight 0).prop = true by decide) rfl
    (show nightHardware.isSubscribed ⟨nightModeId, 0⟩ = true by decide) hclient
    setValue_night_zero night_changes_zero).mpr (Or.inl rfl)

end Example

end VhalCore.FakeHardware
