import VhalCore.Models.Subscription.Native.Operations

/-!
# The machine of a single pair

The manager is a product of machines, one for each `[propId, areaId]`. The state
of a pair is its client map, its continuous config and the hardware calls that
concern it; every operation acts on it as a run of `PairStep`, whose events name
what the operation did for the pair. A turn spent on one pair leaves every other
pair as it was.
-/

namespace VhalCore.Subscription

/-- A hardware call as seen by the one pair it concerns. -/
inductive PairCall where
  | subscribe (config : SubConfig)
  | unsubscribe
  | updateSampleRate (sampleRateHz : Binary32)
  deriving DecidableEq

/-- What a hardware call asks for a pair, if anything. -/
def HardwareCall.forPair (p : PropIdAreaId) : HardwareCall → Option PairCall
  | .subscribe options =>
      if options.propId = p.propId ∧ p.areaId ∈ options.areaIds then
        some (.subscribe ⟨options.sampleRate, options.resolution,
          options.enableVariableUpdateRate⟩)
      else none
  | .unsubscribe propId areaId =>
      if (⟨propId, areaId⟩ : PropIdAreaId) = p then some .unsubscribe else none
  | .updateSampleRate propId areaId sampleRate =>
      if (⟨propId, areaId⟩ : PropIdAreaId) = p then some (.updateSampleRate sampleRate) else none
  | .subscribeSupportedValueChange _ => none
  | .unsubscribeSupportedValueChange _ => none

/-- A call for one pair, as the manager makes it. -/
def PairCall.toHardware (p : PropIdAreaId) : PairCall → HardwareCall
  | .subscribe config =>
      .subscribe (newSubscribeOptions p.propId p.areaId config.sampleRateHz config.resolution
        config.enableVur)
  | .unsubscribe => .unsubscribe p.propId p.areaId
  | .updateSampleRate sampleRateHz => .updateSampleRate p.propId p.areaId sampleRateHz

/-- A call made for one pair concerns that pair and no other. -/
theorem PairCall.forPair_toHardware (p q : PropIdAreaId) (call : PairCall) :
    (call.toHardware p).forPair q = if q = p then some call else none := by
  rcases p with ⟨propId, areaId⟩
  rcases q with ⟨propId', areaId'⟩
  cases call with
  | subscribe config =>
      simp only [toHardware, HardwareCall.forPair, newSubscribeOptions, List.mem_singleton,
        PropIdAreaId.mk.injEq]
      exact if_congr (and_congr eq_comm Iff.rfl) rfl rfl
  | unsubscribe => exact if_congr eq_comm rfl rfl
  | updateSampleRate rate => exact if_congr eq_comm rfl rfl

/-- The part of the manager that concerns one pair. -/
@[ext] structure PairState where
  clients : Option (UnorderedMap ClientIdType CallbackType) := none
  config : Option ContSubConfigs := none
  calls : List (PairCall × StatusCode) := []

namespace SubscriptionManager

/-- The calls made to the hardware for a pair, latest first. -/
def pairCalls (s : SubscriptionManager) (p : PropIdAreaId) : List (PairCall × StatusCode) :=
  s.mVehicleHardware.filterMap fun e => (e.1.forPair p).map fun call => (call, e.2)

/-- What the manager holds about a pair. -/
def pairState (s : SubscriptionManager) (p : PropIdAreaId) : PairState where
  clients := s.mClientsByPropIdAreaId.lookup p
  config := s.mContSubConfigsByPropIdArea.lookup p
  calls := s.pairCalls p

/-- The callback of a client of a pair. -/
def client (s : SubscriptionManager) (p : PropIdAreaId) (c : ClientIdType) : Option CallbackType :=
  (s.mClientsByPropIdAreaId.lookup p).bind fun clients => clients.lookup c

/-- The calls made to the hardware for supported values, latest first. -/
def supportedCalls (s : SubscriptionManager) : List (HardwareCall × StatusCode) :=
  s.mVehicleHardware.filter fun e => e.1.isSupportedValueChange

end SubscriptionManager

/-- The part of the manager that concerns the subscription of no pair. -/
structure Aside where
  values : UnorderedMap CallbackType (UnorderedMap PropIdAreaId VehiclePropValue)
  supportedClients : UnorderedMap PropIdAreaId (UnorderedMap ClientIdType CallbackType)
  supportedPairs : UnorderedMap ClientIdType (Finset PropIdAreaId)
  supportedCalls : List (HardwareCall × StatusCode)

/-- What the manager holds beside the states of its pairs. -/
def SubscriptionManager.aside (s : SubscriptionManager) : Aside where
  values := s.mContSubValuesByCallback
  supportedClients := s.mSupportedValueChangeClientsByPropIdAreaId
  supportedPairs := s.mSupportedValueChangePropIdAreaIdsByClient
  supportedCalls := s.supportedCalls

/-- The hardware calls of a config update, latest first. -/
def updateCalls (oldConfig newConfig : ContSubConfigs) : List PairCall :=
  if newConfig.getMaxSampleRateHz.eq oldConfig.getMaxSampleRateHz &&
      newConfig.getMinRequiredResolution.eq oldConfig.getMinRequiredResolution &&
      newConfig.isVurEnabled == oldConfig.isVurEnabled then []
  else
    (if newConfig.getMaxSampleRateHz.eq .zero then .unsubscribe
      else .subscribe ⟨newConfig.getMaxSampleRateHz, newConfig.getMinRequiredResolution,
        newConfig.isVurEnabled⟩) ::
    if newConfig.getMaxSampleRateHz.eq oldConfig.getMaxSampleRateHz then []
    else [.updateSampleRate newConfig.getMaxSampleRateHz]

/-- The options with which an on-change pair is subscribed. -/
def onChangeConfig : SubConfig := ⟨.zero, .zero, false⟩

/-- The hardware calls of a subscription of a pair, latest first. -/
def PairState.subscribeCalls (x : PairState) (c : ClientIdType) (config : Option SubConfig) :
    List PairCall :=
  match config with
  | some config => updateCalls (x.config.getD {}) ((x.config.getD {}).addClient c config)
  | none =>
      match x.clients with
      | some _ => []
      | none => [.subscribe onChangeConfig]

/-- The hardware calls of an unsubscription of a pair, latest first. -/
def PairState.unsubscribeCalls (x : PairState) (c : ClientIdType) : List PairCall :=
  match x.config with
  | some config => updateCalls config (config.removeClient c)
  | none =>
      match x.clients with
      | some clients => if 1 < clients.size then [] else [.unsubscribe]
      | none => []

/-- The calls of an update that all succeeded. -/
def succeeded (calls : List PairCall) : List (PairCall × StatusCode) :=
  calls.map fun call => (call, .ok)

/-- Drop a client, and with the last client the whole pair. -/
def PairState.dropClient (x : PairState) (c : ClientIdType) : PairState :=
  let clients := (x.clients.getD ∅).erase c
  if clients = ∅ then { x with clients := none, config := none }
  else { x with clients := some clients }

/-- What an operation did for a pair; `config` is present for a continuous subscription
and `first` tells whether the failing call was the first one made. -/
inductive PairEvent where
  | subscribed (callback : CallbackType) (config : Option SubConfig)
  | subscribeFailed (callback : CallbackType) (config : Option SubConfig) (first : Bool)
  | unsubscribed (clientId : ClientIdType)
  | unsubscribeFailed (clientId : ClientIdType) (first : Bool)
  | delivered

/-- One event of a pair. A failed event records the calls made before the failure and
the failing call. -/
inductive PairStep : PairState → PairEvent → PairState → Prop
  | onChangeKnown (x : PairState) (callback : CallbackType)
      (clients : UnorderedMap ClientIdType CallbackType) (hc : x.clients = some clients) :
      PairStep x (.subscribed callback none)
        { x with clients := some (clients.insert callback.asBinder callback) }
  | onChangeNew (x : PairState) (callback : CallbackType) (hc : x.clients = none) :
      PairStep x (.subscribed callback none)
        { x with
          clients := some ((∅ : UnorderedMap ClientIdType CallbackType).insert
            callback.asBinder callback)
          calls := (.subscribe onChangeConfig, .ok) :: x.calls }
  | onChangeFailed (x : PairState) (callback : CallbackType) (hc : x.clients = none)
      (status : StatusCode) (hs : status ≠ .ok) :
      PairStep x (.subscribeFailed callback none true)
        { x with calls := (.subscribe onChangeConfig, status) :: x.calls }
  | added (x : PairState) (callback : CallbackType) (config : SubConfig) :
      PairStep x (.subscribed callback (some config))
        { clients := some ((x.clients.getD ∅).insert callback.asBinder callback)
          config := some ((x.config.getD {}).addClient callback.asBinder config)
          calls := succeeded (updateCalls (x.config.getD {})
            ((x.config.getD {}).addClient callback.asBinder config)) ++ x.calls }
  | addFailed (x : PairState) (callback : CallbackType) (config : SubConfig)
      (later done : List PairCall) (call : PairCall)
      (hu : updateCalls (x.config.getD {})
        ((x.config.getD {}).addClient callback.asBinder config) = later ++ call :: done)
      (status : StatusCode) (hs : status ≠ .ok) :
      PairStep x (.subscribeFailed callback (some config) done.isEmpty)
        { x with
          config := some (x.config.getD {})
          calls := (call, status) :: (succeeded done ++ x.calls) }
  | removed (x : PairState) (c : ClientIdType) (config : ContSubConfigs)
      (hc : x.config = some config) :
      PairStep x (.unsubscribed c)
        (PairState.dropClient { x with
          config := some (config.removeClient c)
          calls := succeeded (updateCalls config (config.removeClient c)) ++ x.calls } c)
  | removeFailed (x : PairState) (c : ClientIdType) (config : ContSubConfigs)
      (hc : x.config = some config) (later done : List PairCall) (call : PairCall)
      (hu : updateCalls config (config.removeClient c) = later ++ call :: done)
      (status : StatusCode) (hs : status ≠ .ok) :
      PairStep x (.unsubscribeFailed c done.isEmpty)
        { x with calls := (call, status) :: (succeeded done ++ x.calls) }
  | notSubscribed (x : PairState) (c : ClientIdType) (hf : x.config = none)
      (hc : x.clients = none) : PairStep x (.unsubscribed c) x
  | onChangeShared (x : PairState) (c : ClientIdType) (hf : x.config = none)
      (clients : UnorderedMap ClientIdType CallbackType) (hc : x.clients = some clients)
      (hs : 1 < clients.size) : PairStep x (.unsubscribed c) (x.dropClient c)
  | onChangeLast (x : PairState) (c : ClientIdType) (hf : x.config = none)
      (clients : UnorderedMap ClientIdType CallbackType) (hc : x.clients = some clients)
      (hs : ¬1 < clients.size) :
      PairStep x (.unsubscribed c)
        (PairState.dropClient { x with calls := (.unsubscribe, .ok) :: x.calls } c)
  | onChangeLastFailed (x : PairState) (c : ClientIdType) (hf : x.config = none)
      (clients : UnorderedMap ClientIdType CallbackType) (hc : x.clients = some clients)
      (hs : ¬1 < clients.size) (status : StatusCode) (hst : status ≠ .ok) :
      PairStep x (.unsubscribeFailed c true) { x with calls := (.unsubscribe, status) :: x.calls }
  | delivered (x : PairState) (clients : UnorderedMap ClientIdType CallbackType)
      (hc : x.clients = some clients) :
      PairStep x .delivered { x with config := some (x.config.getD {}) }

namespace SubscriptionManager

variable (hw : Nat → StatusCode)

/-- The manager after calls for one pair have been recorded. -/
def logCalls (s : SubscriptionManager) (p : PropIdAreaId) (calls : List (PairCall × StatusCode)) :
    SubscriptionManager :=
  { s with
    mVehicleHardware := calls.map (fun e => (e.1.toHardware p, e.2)) ++ s.mVehicleHardware }

theorem logCalls_logCalls (s : SubscriptionManager) (p : PropIdAreaId)
    (first second : List (PairCall × StatusCode)) :
    (s.logCalls p first).logCalls p second = s.logCalls p (second ++ first) := by
  simp only [logCalls, List.map_append, List.append_assoc]

/-- The manager after one hardware call has been recorded. -/
def logHardware (s : SubscriptionManager) (call : HardwareCall) (status : StatusCode) :
    SubscriptionManager :=
  { s with mVehicleHardware := (call, status) :: s.mVehicleHardware }

/-- A hardware call succeeds or fails, and is recorded either way. -/
theorem tryHardware_outcome (call : HardwareCall) (message : ErrorMessage)
    (s : SubscriptionManager) :
    (hw s.mVehicleHardware.length = .ok ∧
      tryHardware hw call message s = (.ok (), s.logHardware call .ok)) ∨
    ∃ status, status ≠ .ok ∧ hw s.mVehicleHardware.length = status ∧
      tryHardware hw call message s = (.error ⟨status, message⟩, s.logHardware call status) := by
  by_cases h : hw s.mVehicleHardware.length = .ok
  · exact Or.inl ⟨h, by simp only [tryHardware, callHardware, h, logHardware]⟩
  · refine Or.inr ⟨_, h, rfl, ?_⟩
    generalize hst : hw s.mVehicleHardware.length = status at h
    cases status with
    | ok => exact absurd rfl h
    | _ => simp only [tryHardware, callHardware, hst, logHardware]

/-- The same for a call made for one pair. -/
theorem tryHardware_cases (p : PropIdAreaId) (call : PairCall) (message : ErrorMessage)
    (s : SubscriptionManager) :
    (hw s.mVehicleHardware.length = .ok ∧
      tryHardware hw (call.toHardware p) message s = (.ok (), s.logCalls p [(call, .ok)])) ∨
    ∃ status, status ≠ .ok ∧ hw s.mVehicleHardware.length = status ∧
      tryHardware hw (call.toHardware p) message s =
        (.error ⟨status, message⟩, s.logCalls p [(call, status)]) :=
  tryHardware_outcome hw (call.toHardware p) message s

private theorem filterMap_forPair (p q : PropIdAreaId) (calls : List (PairCall × StatusCode)) :
    (calls.map fun e => (e.1.toHardware p, e.2)).filterMap
      (fun e => (e.1.forPair q).map fun call => (call, e.2)) = if q = p then calls else [] := by
  induction calls with
  | nil => simp only [List.map_nil, List.filterMap_nil, ite_self]
  | cons e calls ih =>
      rw [List.map_cons, List.filterMap_cons, ih, PairCall.forPair_toHardware]
      by_cases h : q = p <;> simp [h]

/-- Recording calls for one pair changes the calls of that pair only. -/
theorem pairState_logCalls (s : SubscriptionManager) (p q : PropIdAreaId)
    (calls : List (PairCall × StatusCode)) :
    (s.logCalls p calls).pairState q =
      if q = p then { s.pairState q with calls := calls ++ (s.pairState q).calls }
      else s.pairState q := by
  have h : (s.logCalls p calls).pairCalls q =
      (if q = p then calls else []) ++ s.pairCalls q := by
    rw [pairCalls, logCalls, List.filterMap_append, filterMap_forPair, pairCalls]
  by_cases hq : q = p
  · rw [if_pos hq] at h ⊢
    exact PairState.ext rfl rfl h
  · rw [if_neg hq] at h ⊢
    exact PairState.ext rfl rfl h

/-- Calls for a pair leave everything beside the pairs as it was. -/
@[simp] theorem aside_logCalls (s : SubscriptionManager) (p : PropIdAreaId)
    (calls : List (PairCall × StatusCode)) : (s.logCalls p calls).aside = s.aside := by
  have h : (calls.map fun e => (e.1.toHardware p, e.2)).filter
      (fun e => e.1.isSupportedValueChange) = [] := by
    refine List.filter_eq_nil_iff.mpr fun e he => ?_
    obtain ⟨⟨call, status⟩, _, rfl⟩ := List.mem_map.mp he
    cases call <;> nofun
  simp only [aside, supportedCalls, logCalls, List.filter_append, h, List.nil_append]

/-- The hardware accepts as many calls as `calls` has, from the `n`-th call of the run on. -/
def AllAccepted (n : Nat) (calls : List PairCall) : Prop := ∀ i < calls.length, hw (n + i) = .ok

@[simp] theorem allAccepted_nil (n : Nat) : AllAccepted hw n [] := nofun

/-- The calls are listed latest first. -/
theorem allAccepted_cons (n : Nat) (call : PairCall) (done : List PairCall) :
    AllAccepted hw n (call :: done) ↔ AllAccepted hw n done ∧ hw (n + done.length) = .ok := by
  constructor
  · intro h
    refine ⟨fun i hi => h i (hi.trans (Nat.lt_succ_self _)), h done.length (Nat.lt_succ_self _)⟩
  · rintro ⟨hd, hlast⟩ i hi
    rcases Nat.lt_succ_iff_lt_or_eq.mp hi with hi | rfl
    · exact hd i hi
    · exact hlast

/-- A refused call is the first one exactly when the hardware refuses the next call. -/
theorem isEmpty_done_iff {n : Nat} {done : List PairCall} {status : StatusCode}
    (hs : status ≠ .ok) (hn : hw (n + done.length) = status) (hd : AllAccepted hw n done) :
    done.isEmpty = decide (hw n ≠ .ok) := by
  cases done with
  | nil =>
      rw [List.length_nil, Nat.add_zero] at hn
      simp only [List.isEmpty_nil, hn, ne_eq, hs, not_false_eq_true, decide_true]
  | cons call done =>
      have h0 := hd 0 (Nat.succ_pos _)
      rw [Nat.add_zero] at h0
      simp only [List.isEmpty_cons, h0, ne_eq, not_true_eq_false, decide_false]

/-- A refused call is not accepted, whatever would have followed it. -/
theorem not_allAccepted {n : Nat} {calls later done : List PairCall} {call : PairCall}
    {status : StatusCode} (hu : calls = later ++ call :: done) (hs : status ≠ .ok)
    (hn : hw (n + done.length) = status) : ¬AllAccepted hw n calls := by
  intro h
  refine hs (hn.symm.trans (h done.length ?_))
  rw [hu, List.length_append, List.length_cons]
  omega

/-- The last call of a config update, decided by the combined rate. -/
private theorem finalCall_cases (p : PropIdAreaId) (newConfig : ContSubConfigs)
    (s : SubscriptionManager) :
    let call := if newConfig.getMaxSampleRateHz.eq .zero then PairCall.unsubscribe
      else .subscribe ⟨newConfig.getMaxSampleRateHz, newConfig.getMinRequiredResolution,
        newConfig.isVurEnabled⟩
    let result := if !newConfig.getMaxSampleRateHz.eq .zero then
        tryHardware hw
          (.subscribe (newSubscribeOptions p.propId p.areaId newConfig.getMaxSampleRateHz
            newConfig.getMinRequiredResolution newConfig.isVurEnabled))
          (.failedSubscribeAtRate p.propId p.areaId newConfig.getMaxSampleRateHz) s
      else
        tryHardware hw (.unsubscribe p.propId p.areaId) (.failedUnsubscribe p.propId p.areaId) s
    (hw s.mVehicleHardware.length = .ok ∧ result = (.ok (), s.logCalls p [(call, .ok)])) ∨
    ∃ status e, status ≠ .ok ∧ hw s.mVehicleHardware.length = status ∧
      result = (.error e, s.logCalls p [(call, status)]) := by
  intro call result
  by_cases hz : newConfig.getMaxSampleRateHz.eq .zero
  · simp only [call, result, hz, Bool.not_true, Bool.false_eq_true, ite_true, ite_false]
    rcases tryHardware_cases hw p .unsubscribe (.failedUnsubscribe p.propId p.areaId) s with
      h | ⟨status, hs, hn, h⟩
    · exact Or.inl h
    · exact Or.inr ⟨status, _, hs, hn, h⟩
  · simp only [call, result, hz, Bool.not_false, ite_true, Bool.false_eq_true, ite_false]
    rcases tryHardware_cases hw p (.subscribe ⟨newConfig.getMaxSampleRateHz,
        newConfig.getMinRequiredResolution, newConfig.isVurEnabled⟩)
        (.failedSubscribeAtRate p.propId p.areaId newConfig.getMaxSampleRateHz) s with
      h | ⟨status, hs, hn, h⟩
    · exact Or.inl h
    · exact Or.inr ⟨status, _, hs, hn, h⟩

/-- A config update makes its calls in order and stops at the first failing one. -/
theorem callUpdatedConfig_cases (p : PropIdAreaId) (oldConfig newConfig : ContSubConfigs)
    (s : SubscriptionManager)
    (hne : ¬(newConfig.getMaxSampleRateHz.eq oldConfig.getMaxSampleRateHz &&
      newConfig.getMinRequiredResolution.eq oldConfig.getMinRequiredResolution &&
      newConfig.isVurEnabled == oldConfig.isVurEnabled) = true) :
    (AllAccepted hw s.mVehicleHardware.length (updateCalls oldConfig newConfig) ∧
      callUpdatedConfig hw p oldConfig newConfig s =
        (.ok (), s.logCalls p (succeeded (updateCalls oldConfig newConfig)))) ∨
    ∃ later call done status e, updateCalls oldConfig newConfig = later ++ call :: done ∧
      status ≠ .ok ∧ hw (s.mVehicleHardware.length + done.length) = status ∧
      AllAccepted hw s.mVehicleHardware.length done ∧
      callUpdatedConfig hw p oldConfig newConfig s =
        (.error e, s.logCalls p ((call, status) :: succeeded done)) := by
  rw [updateCalls, if_neg hne]
  by_cases hr : newConfig.getMaxSampleRateHz.eq oldConfig.getMaxSampleRateHz = true
  · rw [if_pos hr]
    have hcall := finalCall_cases hw p newConfig s
    simp only [callUpdatedConfig, hr, Bool.not_true, Bool.false_eq_true, ite_false]
    rcases hcall with ⟨hn, h⟩ | ⟨status, e, hs, hn, h⟩
    · exact Or.inl ⟨(allAccepted_cons ..).mpr ⟨allAccepted_nil hw _, hn⟩, h⟩
    · exact Or.inr ⟨[], _, [], status, e, rfl, hs, hn, allAccepted_nil hw _, h⟩
  · rw [if_neg hr]
    have hr' : newConfig.getMaxSampleRateHz.eq oldConfig.getMaxSampleRateHz = false := by
      simpa using hr
    rcases tryHardware_cases hw p (.updateSampleRate newConfig.getMaxSampleRateHz)
        (.failedUpdateSampleRate p.propId p.areaId newConfig.getMaxSampleRateHz) s with
      ⟨hn, h⟩ | ⟨status, hs, hn, h⟩
    · simp only [PairCall.toHardware] at h
      simp only [callUpdatedConfig, hr', Bool.not_false, ite_true, h]
      have hfirst : AllAccepted hw s.mVehicleHardware.length
          [.updateSampleRate newConfig.getMaxSampleRateHz] :=
        (allAccepted_cons ..).mpr ⟨allAccepted_nil hw _, hn⟩
      have hcall := finalCall_cases hw p newConfig
        (s.logCalls p [(.updateSampleRate newConfig.getMaxSampleRateHz, .ok)])
      rcases hcall with ⟨hn', h⟩ | ⟨status, e, hs, hn', h⟩
      · rw [logCalls_logCalls] at h
        exact Or.inl ⟨(allAccepted_cons ..).mpr ⟨hfirst, hn'⟩, h⟩
      · rw [logCalls_logCalls] at h
        exact Or.inr ⟨[], _, [.updateSampleRate newConfig.getMaxSampleRateHz], status, e, rfl, hs,
          hn', hfirst, h⟩
    · simp only [PairCall.toHardware] at h
      simp only [callUpdatedConfig, hr', Bool.not_false, ite_true, h]
      exact Or.inr ⟨[_], .updateSampleRate newConfig.getMaxSampleRateHz, [], status, _, rfl, hs,
        hn, allAccepted_nil hw _, rfl⟩

/-- The manager after the config of a pair has been replaced. -/
def setConfig (s : SubscriptionManager) (p : PropIdAreaId) (config : ContSubConfigs) :
    SubscriptionManager :=
  { s with mContSubConfigsByPropIdArea := s.mContSubConfigsByPropIdArea.insert p config }

/-- A configuration is set for its pair only. -/
theorem pairState_setConfig (s : SubscriptionManager) (p q : PropIdAreaId)
    (config : ContSubConfigs) :
    (s.setConfig p config).pairState q =
      if q = p then { s.pairState q with config := some config } else s.pairState q := by
  by_cases hq : q = p
  · subst hq
    simp only [pairState, setConfig, Finmap.lookup_insert, ite_true]
    rfl
  · simp only [pairState, setConfig, Finmap.lookup_insert_of_ne _ hq, hq, ite_false]
    rfl

theorem setConfig_setConfig (s : SubscriptionManager) (p : PropIdAreaId)
    (old new : ContSubConfigs) : (s.setConfig p old).setConfig p new = s.setConfig p new := by
  simp only [setConfig, Finmap.insert_insert]

/-- An update of the config of a pair replaces it once all its calls succeeded. On a
failure the pair keeps its config, or is left with a default one if it had none. -/
theorem updateContSubConfigsLocked_cases (p : PropIdAreaId) (newConfig : ContSubConfigs)
    (s : SubscriptionManager) :
    let oldConfig := s.mContSubConfigsByPropIdArea.valueAt p {}
    (AllAccepted hw s.mVehicleHardware.length (updateCalls oldConfig newConfig) ∧
      updateContSubConfigsLocked hw p newConfig s =
        (.ok (), (s.setConfig p newConfig).logCalls p
          (succeeded (updateCalls oldConfig newConfig)))) ∨
    ∃ later call done status e, updateCalls oldConfig newConfig = later ++ call :: done ∧
      status ≠ .ok ∧ hw (s.mVehicleHardware.length + done.length) = status ∧
      AllAccepted hw s.mVehicleHardware.length done ∧
      updateContSubConfigsLocked hw p newConfig s =
        (.error e, (s.setConfig p oldConfig).logCalls p ((call, status) :: succeeded done)) := by
  intro oldConfig
  have hset (calls : List (PairCall × StatusCode)) :
      ({ (s.setConfig p oldConfig).logCalls p calls with
        mContSubConfigsByPropIdArea := ((s.setConfig p oldConfig).logCalls p
          calls).mContSubConfigsByPropIdArea.insert p newConfig } : SubscriptionManager) =
      (s.setConfig p newConfig).logCalls p calls := by
    simp only [setConfig, logCalls, Finmap.insert_insert]
  simp only [updateContSubConfigsLocked, UnorderedMap.touch_eq_insert]
  by_cases hsame : (newConfig.getMaxSampleRateHz.eq oldConfig.getMaxSampleRateHz &&
      newConfig.getMinRequiredResolution.eq oldConfig.getMinRequiredResolution &&
      newConfig.isVurEnabled == oldConfig.isVurEnabled) = true
  · refine Or.inl ?_
    rw [if_pos hsame, updateCalls, if_pos hsame]
    exact ⟨allAccepted_nil hw _, congrArg _ (hset [])⟩
  · rw [if_neg hsame]
    rcases callUpdatedConfig_cases hw p oldConfig newConfig (s.setConfig p oldConfig) hsame with
      ⟨hn, h⟩ | ⟨later, call, done, status, e, hu, hs, hn, hd, h⟩
    · refine Or.inl ⟨hn, ?_⟩
      simp only [setConfig, oldConfig] at h
      rw [h]
      exact congrArg _ (hset _)
    · refine Or.inr ⟨later, call, done, status, e, hu, hs, hn, hd, ?_⟩
      simp only [setConfig, oldConfig] at h
      rw [h]
      rfl

/-- Adding a client to a continuous pair updates its config. -/
theorem addContinuousSubscriberLocked_cases (c : ClientIdType) (p : PropIdAreaId)
    (subConfig : SubConfig) (s : SubscriptionManager) :
    let oldConfig := s.mContSubConfigsByPropIdArea.valueAt p {}
    let newConfig := oldConfig.addClient c subConfig
    (AllAccepted hw s.mVehicleHardware.length (updateCalls oldConfig newConfig) ∧
      addContinuousSubscriberLocked hw c p subConfig s =
        (.ok (), (s.setConfig p newConfig).logCalls p
          (succeeded (updateCalls oldConfig newConfig)))) ∨
    ∃ later call done status e, updateCalls oldConfig newConfig = later ++ call :: done ∧
      status ≠ .ok ∧ hw (s.mVehicleHardware.length + done.length) = status ∧
      AllAccepted hw s.mVehicleHardware.length done ∧
      addContinuousSubscriberLocked hw c p subConfig s =
        (.error e, (s.setConfig p oldConfig).logCalls p ((call, status) :: succeeded done)) := by
  intro oldConfig newConfig
  have h := updateContSubConfigsLocked_cases hw p newConfig (s.setConfig p oldConfig)
  simp only [setConfig_setConfig] at h
  simpa only [setConfig, UnorderedMap.valueAt_insert_self, addContinuousSubscriberLocked,
    UnorderedMap.touch_eq_insert] using h

/-- Removing a client from a continuous pair updates its config. -/
theorem removeContinuousSubscriberLocked_cases (c : ClientIdType) (p : PropIdAreaId)
    (s : SubscriptionManager) :
    let oldConfig := s.mContSubConfigsByPropIdArea.valueAt p {}
    let newConfig := oldConfig.removeClient c
    (AllAccepted hw s.mVehicleHardware.length (updateCalls oldConfig newConfig) ∧
      removeContinuousSubscriberLocked hw c p s =
        (.ok (), (s.setConfig p newConfig).logCalls p
          (succeeded (updateCalls oldConfig newConfig)))) ∨
    ∃ later call done status e, updateCalls oldConfig newConfig = later ++ call :: done ∧
      status ≠ .ok ∧ hw (s.mVehicleHardware.length + done.length) = status ∧
      AllAccepted hw s.mVehicleHardware.length done ∧
      removeContinuousSubscriberLocked hw c p s =
        (.error e, (s.setConfig p oldConfig).logCalls p ((call, status) :: succeeded done)) := by
  intro oldConfig newConfig
  have h := updateContSubConfigsLocked_cases hw p newConfig (s.setConfig p oldConfig)
  simp only [setConfig_setConfig] at h
  simpa only [setConfig, UnorderedMap.valueAt_insert_self, removeContinuousSubscriberLocked,
    UnorderedMap.touch_eq_insert] using h

end SubscriptionManager

end VhalCore.Subscription
