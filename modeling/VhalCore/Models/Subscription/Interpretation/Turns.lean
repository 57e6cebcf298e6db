import VhalCore.Models.Subscription.Abstract.Table
import VhalCore.Models.Subscription.Interpretation.PairMachine

/-!
# Turns of the operation loops

A loop of an operation gives each pair its turn. A turn is one event of the
machine of that pair and touches no other pair, no remembered value and no
supported-value subscription. The sets of held pairs change only where the turn
says so.
-/

namespace VhalCore.Subscription.SubscriptionManager

variable {hw : Nat → StatusCode} {s t : SubscriptionManager}

/-- A turn that acts on one pair by one event and on nothing else. -/
structure ActsOn (p : PropIdAreaId) (e : PairEvent) (s t : SubscriptionManager) : Prop where
  step : PairStep (s.pairState p) e (t.pairState p)
  frame : ∀ q, q ≠ p → t.pairState q = s.pairState q
  aside : t.aside = s.aside

/-- The callback of a client of a pair is set. -/
def setClient (s : SubscriptionManager) (p : PropIdAreaId) (callback : CallbackType) :
    SubscriptionManager :=
  { s with
    mSubscribedPropsByClient := s.mSubscribedPropsByClient.insert callback.asBinder
      (insert p (s.mSubscribedPropsByClient.valueAt callback.asBinder ∅))
    mClientsByPropIdAreaId := s.mClientsByPropIdAreaId.insert p
      ((s.mClientsByPropIdAreaId.valueAt p ∅).insert callback.asBinder callback) }

/-- A client is set for its pair only. -/
theorem pairState_setClient (s : SubscriptionManager) (p q : PropIdAreaId)
    (callback : CallbackType) :
    (s.setClient p callback).pairState q =
      if q = p then
        { s.pairState q with
          clients := some (((s.pairState q).clients.getD ∅).insert callback.asBinder callback) }
      else s.pairState q := by
  by_cases hq : q = p
  · subst hq
    simp only [pairState, setClient, Finmap.lookup_insert, ite_true]
    rfl
  · simp only [pairState, setClient, Finmap.lookup_insert_of_ne _ hq, hq, ite_false]
    rfl

/-- A client is erased for its pair only. -/
theorem pairState_eraseClient (s : SubscriptionManager) (c : ClientIdType) (p q : PropIdAreaId) :
    (eraseClient c p s).pairState q =
      if q = p then (s.pairState q).dropClient c else s.pairState q := by
  by_cases hq : q = p
  · subst hq
    simp only [ite_true, eraseClient, PairState.dropClient, pairState, UnorderedMap.valueAt]
    by_cases he : Finmap.erase c ((s.mClientsByPropIdAreaId.lookup q).getD ∅) = ∅
    · simp only [he, ite_true, Finmap.lookup_erase]
      rfl
    · simp only [he, ite_false, Finmap.lookup_insert]
      rfl
  · simp only [hq, ite_false, eraseClient]
    split
    · simp only [pairState, Finmap.lookup_erase_ne hq]
      rfl
    · simp only [pairState, Finmap.lookup_insert_of_ne _ hq]
      rfl

/-- The turn of a continuous pair in `subscribe`. -/
private theorem subscribeContinuous_cases (callback : CallbackType) (option : SubscribeOptions)
    (areaId : Int) (s : SubscriptionManager) :
    let p : PropIdAreaId := ⟨option.propId, areaId⟩
    (∃ t, subscribePropIdAreaId hw callback true option areaId s = (.ok (), t) ∧
      ActsOn p (.subscribed callback (requestedConfig true option)) s t ∧
      t.mSubscribedPropsByClient = s.mSubscribedPropsByClient.insert callback.asBinder
        (insert p (s.mSubscribedPropsByClient.valueAt callback.asBinder ∅)) ∧
      AllAccepted hw s.mVehicleHardware.length ((s.pairState p).subscribeCalls callback.asBinder
        (requestedConfig true option))) ∨
    ∃ e t, subscribePropIdAreaId hw callback true option areaId s = (.error e, t) ∧
      ActsOn p (.subscribeFailed callback (requestedConfig true option)
        (decide (hw s.mVehicleHardware.length ≠ .ok))) s t ∧
      t.mSubscribedPropsByClient = s.mSubscribedPropsByClient ∧
      ¬AllAccepted hw s.mVehicleHardware.length ((s.pairState p).subscribeCalls callback.asBinder
        (requestedConfig true option)) := by
  intro p
  let config : SubConfig :=
    ⟨option.sampleRate, option.resolution, option.enableVariableUpdateRate⟩
  let oldConfig := s.mContSubConfigsByPropIdArea.valueAt p {}
  rcases addContinuousSubscriberLocked_cases hw callback.asBinder p config s with
    ⟨haccept, h⟩ | ⟨later, call, done, status, e, hu, hs, hn, hd, h⟩
  · refine Or.inl ⟨((s.setConfig p (oldConfig.addClient callback.asBinder config)).logCalls p
      (succeeded (updateCalls oldConfig
        (oldConfig.addClient callback.asBinder config)))).setClient p callback, ?_, ?_, rfl,
      haccept⟩
    · simp only [subscribePropIdAreaId, ite_true]
      rw [h]
      rfl
    · refine ⟨?_, fun q hq => ?_, aside_logCalls (s.setConfig p _) ..⟩
      · simp only [pairState_setClient, pairState_logCalls, pairState_setConfig, ite_true]
        exact PairStep.added (s.pairState p) callback config
      · simp only [pairState_setClient, pairState_logCalls, pairState_setConfig, hq, ite_false]
  · refine Or.inr ⟨e, (s.setConfig p oldConfig).logCalls p ((call, status) :: succeeded done),
      ?_, ?_, rfl, not_allAccepted hw hu hs hn⟩
    · simp only [subscribePropIdAreaId, ite_true]
      rw [h]
    · have hfirst := isEmpty_done_iff hw hs hn hd
      refine ⟨?_, fun q hq => ?_, aside_logCalls ..⟩
      · simp only [pairState_logCalls, pairState_setConfig, ite_true]
        rw [← hfirst]
        exact PairStep.addFailed (s.pairState p) callback config later done call hu status hs
      · simp only [pairState_logCalls, pairState_setConfig, hq, ite_false]

/-- The turn of an on-change pair in `subscribe`. -/
private theorem subscribeOnChange_cases (callback : CallbackType) (option : SubscribeOptions)
    (areaId : Int) (s : SubscriptionManager) :
    let p : PropIdAreaId := ⟨option.propId, areaId⟩
    (∃ t, subscribePropIdAreaId hw callback false option areaId s = (.ok (), t) ∧
      ActsOn p (.subscribed callback (requestedConfig false option)) s t ∧
      t.mSubscribedPropsByClient = s.mSubscribedPropsByClient.insert callback.asBinder
        (insert p (s.mSubscribedPropsByClient.valueAt callback.asBinder ∅)) ∧
      AllAccepted hw s.mVehicleHardware.length ((s.pairState p).subscribeCalls callback.asBinder
        (requestedConfig false option))) ∨
    ∃ e t, subscribePropIdAreaId hw callback false option areaId s = (.error e, t) ∧
      ActsOn p (.subscribeFailed callback (requestedConfig false option)
        (decide (hw s.mVehicleHardware.length ≠ .ok))) s t ∧
      t.mSubscribedPropsByClient = s.mSubscribedPropsByClient ∧
      ¬AllAccepted hw s.mVehicleHardware.length ((s.pairState p).subscribeCalls callback.asBinder
        (requestedConfig false option)) := by
  intro p
  cases hc : s.mClientsByPropIdAreaId.lookup p with
  | some clients =>
      have hcalls : (s.pairState p).subscribeCalls callback.asBinder
          (requestedConfig false option) = [] := by
        have hx : (s.pairState p).clients = some clients := hc
        simp only [PairState.subscribeCalls, requestedConfig, Bool.false_eq_true, ite_false, hx]
      refine Or.inl ⟨s.setClient p callback, ?_, ?_, rfl, hcalls ▸ allAccepted_nil hw _⟩
      · simp only [subscribePropIdAreaId, Bool.false_eq_true, ite_false,
          addOnChangeSubscriberLocked]
        rw [hc]
        rfl
      · refine ⟨?_, fun q hq => ?_, rfl⟩
        · have hx : (s.pairState p).clients = some clients := hc
          simp only [pairState_setClient, ite_true, hx, Option.getD_some]
          exact PairStep.onChangeKnown (s.pairState p) callback clients hc
        · simp only [pairState_setClient, hq, ite_false]
  | none =>
      have hx : (s.pairState p).clients = none := hc
      have hcalls : (s.pairState p).subscribeCalls callback.asBinder
          (requestedConfig false option) = [.subscribe onChangeConfig] := by
        simp only [PairState.subscribeCalls, requestedConfig, Bool.false_eq_true, ite_false, hx]
      rcases tryHardware_cases hw p (.subscribe onChangeConfig) (.failedSubscribe p) s with
        ⟨haccept, h⟩ | ⟨status, hs, hn, h⟩
      · refine Or.inl ⟨(s.logCalls p [(.subscribe onChangeConfig, .ok)]).setClient p callback,
          ?_, ?_, rfl, ?_⟩
        · simp only [subscribePropIdAreaId, Bool.false_eq_true, ite_false,
            addOnChangeSubscriberLocked]
          rw [hc]
          simp only [PairCall.toHardware, onChangeConfig] at h
          rw [if_neg (by rintro ⟨⟩), h]
          rfl
        · refine ⟨?_, fun q hq => ?_, aside_logCalls s ..⟩
          · simp only [pairState_setClient, pairState_logCalls, ite_true, hx, Option.getD_none]
            exact PairStep.onChangeNew (s.pairState p) callback hc
          · simp only [pairState_setClient, pairState_logCalls, hq, ite_false]
        · rw [hcalls]
          exact (allAccepted_cons hw _ _ _).mpr ⟨allAccepted_nil hw _, haccept⟩
      · refine Or.inr ⟨⟨status, .failedSubscribe p⟩,
          s.logCalls p [(.subscribe onChangeConfig, status)], ?_, ?_, rfl,
          not_allAccepted hw (hcalls.trans (List.nil_append _).symm) hs hn⟩
        · simp only [subscribePropIdAreaId, Bool.false_eq_true, ite_false,
            addOnChangeSubscriberLocked]
          rw [hc]
          simp only [PairCall.toHardware, onChangeConfig] at h
          rw [if_neg (by rintro ⟨⟩), h]
          rfl
        · refine ⟨?_, fun q hq => ?_, aside_logCalls ..⟩
          · simp only [pairState_logCalls, ite_true, hn, ne_eq, hs, not_false_eq_true,
              decide_true]
            exact PairStep.onChangeFailed (s.pairState p) callback hc status hs
          · simp only [pairState_logCalls, hq, ite_false]

/-- A turn of `subscribe` subscribes its pair or fails; a failure needs a failing call. -/
theorem subscribePropIdAreaId_cases (callback : CallbackType) (isContinuousProperty : Bool)
    (option : SubscribeOptions) (areaId : Int) (s : SubscriptionManager) :
    let p : PropIdAreaId := ⟨option.propId, areaId⟩
    (∃ t, subscribePropIdAreaId hw callback isContinuousProperty option areaId s = (.ok (), t) ∧
      ActsOn p (.subscribed callback (requestedConfig isContinuousProperty option)) s t ∧
      t.mSubscribedPropsByClient = s.mSubscribedPropsByClient.insert callback.asBinder
        (insert p (s.mSubscribedPropsByClient.valueAt callback.asBinder ∅)) ∧
      AllAccepted hw s.mVehicleHardware.length ((s.pairState p).subscribeCalls callback.asBinder
        (requestedConfig isContinuousProperty option))) ∨
    ∃ e t, subscribePropIdAreaId hw callback isContinuousProperty option areaId s =
        (.error e, t) ∧
      ActsOn p (.subscribeFailed callback (requestedConfig isContinuousProperty option)
        (decide (hw s.mVehicleHardware.length ≠ .ok))) s t ∧
      t.mSubscribedPropsByClient = s.mSubscribedPropsByClient ∧
      ¬AllAccepted hw s.mVehicleHardware.length ((s.pairState p).subscribeCalls callback.asBinder
        (requestedConfig isContinuousProperty option)) := by
  cases isContinuousProperty with
  | true => exact subscribeContinuous_cases callback option areaId s
  | false => exact subscribeOnChange_cases callback option areaId s

/-- Dropping a client rewrites the client map and the config map only. -/
theorem eraseClient_eq (s : SubscriptionManager) (c : ClientIdType) (p : PropIdAreaId) :
    ∃ clients configs, eraseClient c p s = { s with
      mClientsByPropIdAreaId := clients
      mContSubConfigsByPropIdArea := configs } := by
  simp only [eraseClient]
  split
  · exact ⟨_, _, rfl⟩
  · exact ⟨_, _, rfl⟩

theorem mSubscribedPropsByClient_eraseClient (s : SubscriptionManager) (c : ClientIdType)
    (p : PropIdAreaId) :
    (eraseClient c p s).mSubscribedPropsByClient = s.mSubscribedPropsByClient := by
  obtain ⟨_, _, h⟩ := eraseClient_eq s c p
  rw [h]

/-- Dropping a client of one pair acts on that pair alone. -/
private theorem actsOn_eraseClient {c : ClientIdType} {p : PropIdAreaId} {e : PairEvent}
    {s t : SubscriptionManager}
    (hstep : PairStep (s.pairState p) e ((t.pairState p).dropClient c))
    (hframe : ∀ q, q ≠ p → t.pairState q = s.pairState q)
    (ha : t.aside = s.aside) : ActsOn p e s (eraseClient c p t) := by
  have hpair (q : PropIdAreaId) := pairState_eraseClient t c p q
  obtain ⟨_, _, h⟩ := eraseClient_eq t c p
  rw [h] at hpair ⊢
  refine ⟨by simpa only [hpair, ite_true] using hstep, fun q hq => ?_, ha⟩
  rw [hpair, if_neg hq, hframe q hq]

/-- The turn of a pair that has a continuous config. -/
private theorem unsubscribeConfigured_cases (c : ClientIdType) (p : PropIdAreaId)
    (s : SubscriptionManager) {config : ContSubConfigs}
    (hf : s.mContSubConfigsByPropIdArea.lookup p = some config) :
    (∃ t, unsubscribePropIdAreaIdLocked hw c p s = (.ok (), t) ∧
      ActsOn p (.unsubscribed c) s t ∧
      t.mSubscribedPropsByClient = s.mSubscribedPropsByClient ∧
      AllAccepted hw s.mVehicleHardware.length ((s.pairState p).unsubscribeCalls c)) ∨
    ∃ e t, unsubscribePropIdAreaIdLocked hw c p s = (.error e, t) ∧
      ActsOn p (.unsubscribeFailed c (decide (hw s.mVehicleHardware.length ≠ .ok))) s t ∧
      t.mSubscribedPropsByClient = s.mSubscribedPropsByClient ∧
      ¬AllAccepted hw s.mVehicleHardware.length ((s.pairState p).unsubscribeCalls c) := by
  have hx : (s.pairState p).config = some config := hf
  have hcases := removeContinuousSubscriberLocked_cases hw c p s
  simp only [UnorderedMap.valueAt_of_lookup hf] at hcases
  have hcalls : (s.pairState p).unsubscribeCalls c =
      updateCalls config (config.removeClient c) := by
    rw [PairState.unsubscribeCalls, hx]
  rw [hcalls]
  rcases hcases with ⟨hn, h⟩ | ⟨later, call, done, status, e, hu, hs, hn, hd, h⟩
  · refine Or.inl ⟨eraseClient c p ((s.setConfig p (config.removeClient c)).logCalls p
      (succeeded (updateCalls config (config.removeClient c)))), ?_, ?_, ?_, hn⟩
    · simp only [unsubscribePropIdAreaIdLocked]
      rw [hf, h]
      rfl
    · refine actsOn_eraseClient ?_ (fun q hq => ?_) (aside_logCalls ..)
      · simp only [pairState_logCalls, pairState_setConfig, ite_true]
        exact PairStep.removed (s.pairState p) c config hf
      · simp only [pairState_logCalls, pairState_setConfig, hq, ite_false]
    · rw [mSubscribedPropsByClient_eraseClient]
      rfl
  · refine Or.inr ⟨e, (s.setConfig p config).logCalls p ((call, status) :: succeeded done),
      ?_, ?_, rfl, not_allAccepted hw hu hs hn⟩
    · simp only [unsubscribePropIdAreaIdLocked]
      rw [hf, h]
      rfl
    · have hfirst := isEmpty_done_iff hw hs hn hd
      refine ⟨?_, fun q hq => ?_, aside_logCalls ..⟩
      · simp only [pairState_logCalls, pairState_setConfig, ite_true]
        rw [← hfirst, ← hx]
        exact PairStep.removeFailed (s.pairState p) c config hf later done call hu status hs
      · simp only [pairState_logCalls, pairState_setConfig, hq, ite_false]

/-- The turn of a pair with clients and without a continuous config. -/
private theorem unsubscribeOnChange_cases (c : ClientIdType) (p : PropIdAreaId)
    (s : SubscriptionManager) {clients : UnorderedMap ClientIdType CallbackType}
    (hf : s.mContSubConfigsByPropIdArea.lookup p = none)
    (hc : s.mClientsByPropIdAreaId.lookup p = some clients) :
    (∃ t, unsubscribePropIdAreaIdLocked hw c p s = (.ok (), t) ∧
      ActsOn p (.unsubscribed c) s t ∧
      t.mSubscribedPropsByClient = s.mSubscribedPropsByClient ∧
      AllAccepted hw s.mVehicleHardware.length ((s.pairState p).unsubscribeCalls c)) ∨
    ∃ e t, unsubscribePropIdAreaIdLocked hw c p s = (.error e, t) ∧
      ActsOn p (.unsubscribeFailed c (decide (hw s.mVehicleHardware.length ≠ .ok))) s t ∧
      t.mSubscribedPropsByClient = s.mSubscribedPropsByClient ∧
      ¬AllAccepted hw s.mVehicleHardware.length ((s.pairState p).unsubscribeCalls c) := by
  have htouch : s.mClientsByPropIdAreaId.touch p ∅ = s.mClientsByPropIdAreaId := by
    rw [UnorderedMap.touch, if_pos (Finmap.mem_of_lookup_eq_some hc)]
  have hcalls : (s.pairState p).unsubscribeCalls c =
      if 1 < clients.size then [] else [.unsubscribe] := by
    simp only [PairState.unsubscribeCalls, pairState, hf, hc]
  by_cases hsize : 1 < clients.size
  · rw [hcalls, if_pos hsize]
    refine Or.inl ⟨eraseClient c p s, ?_, actsOn_eraseClient ?_ (fun _ _ => rfl) rfl,
      mSubscribedPropsByClient_eraseClient s c p, allAccepted_nil hw _⟩
    · simp only [unsubscribePropIdAreaIdLocked, removeOnChangeSubscriberLocked,
        UnorderedMap.valueAt_of_lookup hc, hsize, htouch]
      rw [hf, hc]
      rfl
    · exact PairStep.onChangeShared (s.pairState p) c hf clients hc hsize
  · rw [hcalls, if_neg hsize]
    rcases tryHardware_cases hw p .unsubscribe (.failedUnsubscribe p.propId p.areaId) s with
      ⟨hn, h⟩ | ⟨status, hs, hn, h⟩
    · refine Or.inl ⟨eraseClient c p (s.logCalls p [(.unsubscribe, .ok)]), ?_,
        actsOn_eraseClient ?_ (fun q hq => ?_) (aside_logCalls ..), ?_,
        (allAccepted_cons hw _ _ _).mpr ⟨allAccepted_nil hw _, hn⟩⟩
      · simp only [PairCall.toHardware] at h
        simp only [unsubscribePropIdAreaIdLocked, removeOnChangeSubscriberLocked,
          UnorderedMap.valueAt_of_lookup hc, hsize, htouch, ite_false, h]
        rw [hf, hc]
        rfl
      · simp only [pairState_logCalls, ite_true]
        exact PairStep.onChangeLast (s.pairState p) c hf clients hc hsize
      · simp only [pairState_logCalls, hq, ite_false]
      · rw [mSubscribedPropsByClient_eraseClient]
        rfl
    · refine Or.inr ⟨⟨status, .failedUnsubscribe p.propId p.areaId⟩,
        s.logCalls p [(.unsubscribe, status)], ?_, ⟨?_, fun q hq => ?_, aside_logCalls ..⟩, rfl,
        not_allAccepted hw (List.nil_append _).symm hs hn⟩
      · simp only [PairCall.toHardware] at h
        simp only [unsubscribePropIdAreaIdLocked, removeOnChangeSubscriberLocked,
          UnorderedMap.valueAt_of_lookup hc, hsize, htouch, ite_false, h]
        rw [hf, hc]
        rfl
      · simp only [pairState_logCalls, ite_true, hn, ne_eq, hs, not_false_eq_true, decide_true]
        exact PairStep.onChangeLastFailed (s.pairState p) c hf clients hc hsize status hs
      · simp only [pairState_logCalls, hq, ite_false]

/-- A turn of either `unsubscribe` drops the client from its pair or fails; a failure
needs a failing call. The held pairs are not touched by the turn itself. -/
theorem unsubscribePropIdAreaIdLocked_cases (c : ClientIdType) (p : PropIdAreaId)
    (s : SubscriptionManager) :
    (∃ t, unsubscribePropIdAreaIdLocked hw c p s = (.ok (), t) ∧
      ActsOn p (.unsubscribed c) s t ∧
      t.mSubscribedPropsByClient = s.mSubscribedPropsByClient ∧
      AllAccepted hw s.mVehicleHardware.length ((s.pairState p).unsubscribeCalls c)) ∨
    ∃ e t, unsubscribePropIdAreaIdLocked hw c p s = (.error e, t) ∧
      ActsOn p (.unsubscribeFailed c (decide (hw s.mVehicleHardware.length ≠ .ok))) s t ∧
      t.mSubscribedPropsByClient = s.mSubscribedPropsByClient ∧
      ¬AllAccepted hw s.mVehicleHardware.length ((s.pairState p).unsubscribeCalls c) := by
  cases hf : s.mContSubConfigsByPropIdArea.lookup p with
  | some config => exact unsubscribeConfigured_cases c p s hf
  | none =>
      cases hc : s.mClientsByPropIdAreaId.lookup p with
      | some clients => exact unsubscribeOnChange_cases c p s hf hc
      | none =>
          refine Or.inl ⟨s, ?_, ⟨PairStep.notSubscribed _ c hf hc, fun _ _ => rfl, rfl⟩,
            rfl, ?_⟩
          · simp only [unsubscribePropIdAreaIdLocked]
            rw [hf, hc]
            rfl
          · simp only [PairState.unsubscribeCalls, pairState, hf, hc, allAccepted_nil]

end VhalCore.Subscription.SubscriptionManager
