import VhalCore.Models.Grpc.Correctness.SharedSubscriptions
import VhalCore.Models.Grpc.Native.Bridge
import VhalCore.Models.Subscription.Correctness.HardwareAgreement

/-!
# Restarts of the server

A restart loses the subscriptions of the hardware and leaves those of the manager. Neither
the manager nor the client asks for them again: a pair is subscribed exactly if the latest
call for it that the server has accepted since its start is one to subscribe. Where all
calls are answered and accepted, a pair that some client holds is subscribed exactly if the
manager has called to subscribe it since the latest restart.
-/

namespace VhalCore.Grpc

open FakeHardware FakeVehicleHardware Subscription SubscriptionManager

variable {getPropConfig : Int → Option VehiclePropConfig}

/-- The calls of a log for a pair. -/
def pairLog (log : List (HardwareCall × StatusCode)) (p : PropIdAreaId) :
    List (PairCall × StatusCode) :=
  log.filterMap fun e => (e.1.forPair p).map fun call => (call, e.2)

/-- The latest request of a log for a pair is to subscribe. -/
def AsksFor (log : List (HardwareCall × StatusCode)) (p : PropIdAreaId) : Prop :=
  ∃ config, lastRequest (pairLog log p) = some (.subscribe config)

/-- The latest call for a pair that the server has accepted since its start subscribes it. -/
def RequestedSinceStart (getPropConfig : Int → Option VehiclePropConfig) (server : RemoteServer)
    (p : PropIdAreaId) : Prop :=
  canBeSubscribed getPropConfig p.propId = true ∧ AsksFor server.accepted p

/-- A call that asks for nothing else leaves the requests as they were. -/
theorem asksFor_cons_of_none {log : List (HardwareCall × StatusCode)} {call : HardwareCall}
    {p : PropIdAreaId} (status : StatusCode)
    (h : call.forPair p = none ∨ ∃ rate, call.forPair p = some (.updateSampleRate rate)) :
    AsksFor ((call, status) :: log) p ↔ AsksFor log p := by
  unfold AsksFor pairLog
  rcases h with h | ⟨rate, h⟩
  · rw [List.filterMap_cons, h]
    exact Iff.rfl
  · rw [List.filterMap_cons, h]
    exact Iff.rfl

/-- A subscription asks for the pairs that it covers. -/
theorem asksFor_subscribe (log : List (HardwareCall × StatusCode)) (options : SubscribeOptions)
    (status : StatusCode) (p : PropIdAreaId) :
    AsksFor ((.subscribe options, status) :: log) p ↔
      Covers options options.areaIds p ∨ AsksFor log p := by
  by_cases hcovers : Covers options options.areaIds p
  · have hpair : (HardwareCall.subscribe options).forPair p = some (.subscribe
        ⟨options.sampleRate, options.resolution, options.enableVariableUpdateRate⟩) :=
      if_pos ⟨hcovers.1.symm, hcovers.2⟩
    refine iff_of_true ?_ (Or.inl hcovers)
    rw [AsksFor, pairLog, List.filterMap_cons, hpair]
    exact ⟨_, rfl⟩
  · rw [or_iff_right hcovers]
    exact asksFor_cons_of_none status
      (Or.inl (if_neg fun hpair => hcovers ⟨hpair.1.symm, hpair.2⟩))

/-- An unsubscription ends the request for its pair. -/
theorem asksFor_unsubscribe (log : List (HardwareCall × StatusCode)) (propId areaId : Int)
    (status : StatusCode) (p : PropIdAreaId) :
    AsksFor ((.unsubscribe propId areaId, status) :: log) p ↔
      p ≠ ⟨propId, areaId⟩ ∧ AsksFor log p := by
  by_cases hp : p = ⟨propId, areaId⟩
  · have hpair : (HardwareCall.unsubscribe propId areaId).forPair p = some .unsubscribe :=
      if_pos hp.symm
    refine iff_of_false ?_ fun h => h.1 hp
    rintro ⟨config, hlast⟩
    rw [pairLog, List.filterMap_cons, hpair] at hlast
    cases hlast
  · rw [and_iff_right hp]
    exact asksFor_cons_of_none status (Or.inl (if_neg (Ne.symm hp)))

/-- A new rate asks for no other pairs. -/
theorem asksFor_updateSampleRate (log : List (HardwareCall × StatusCode)) (propId areaId : Int)
    (rate : Binary32) (status : StatusCode) (p : PropIdAreaId) :
    AsksFor ((.updateSampleRate propId areaId rate, status) :: log) p ↔ AsksFor log p := by
  apply asksFor_cons_of_none
  by_cases hp : (⟨propId, areaId⟩ : PropIdAreaId) = p
  · exact Or.inr ⟨rate, if_pos hp⟩
  · exact Or.inl (if_neg hp)

/-- The server has an entry for exactly the pairs that were requested since its start. -/
structure ServesRequests (getPropConfig : Int → Option VehiclePropConfig)
    (server : RemoteServer) : Prop where
  scheduled : Scheduled server.hardware
  subscribed : ∀ p, server.hardware.isSubscribed p = true ↔
    RequestedSinceStart getPropConfig server p

/-- A new server serves the empty list of requests. -/
theorem servesRequests_start : ServesRequests getPropConfig {} where
  scheduled := scheduled_start
  subscribed p := by
    refine iff_of_false Bool.false_ne_true ?_
    rintro ⟨-, config, hlast⟩
    cases hlast

/-- The pairs that a subscription to a property with a config that is not static covers. -/
theorem canBeSubscribed_of_covers {options : SubscribeOptions} {config : VehiclePropConfig}
    {p : PropIdAreaId} (hconfig : getPropConfig options.propId = some config)
    (hmode : config.changeMode ≠ .static) (hcovers : Covers options options.areaIds p) :
    canBeSubscribed getPropConfig p.propId = true := by
  rw [canBeSubscribed, hcovers.1, hconfig, Option.any_some]
  exact decide_eq_true hmode

/-- A subscription adds the pairs that it covers if it is accepted and they can be
subscribed. -/
theorem isSubscribed_subscribe {hardware hardware' : FakeVehicleHardware}
    {options : SubscribeOptions} {status : StatusCode} (hs : Scheduled hardware)
    (h : hardware.subscribe getPropConfig options = some (status, hardware')) :
    Scheduled hardware' ∧ ∀ p, hardware'.isSubscribed p = true ↔
      (status = .ok ∧ canBeSubscribed getPropConfig p.propId = true ∧
        Covers options options.areaIds p) ∨ hardware.isSubscribed p = true := by
  rcases subscribe_cases hs h with
    ⟨rfl, hnothing, -⟩ | ⟨config, pairs, hconfig, hmode, rfl, rfl, hpairs⟩ |
    ⟨config, interval, hconfig, hmode, rfl, -, -, hs', honChange, hcovered, hother⟩
  · refine ⟨hs, fun p => (or_iff_right ?_).symm⟩
    rintro ⟨hok, hcan, hcovers⟩
    rcases hnothing hok with hnil | ⟨config, hconfig, hstatic⟩
    · rw [hnil] at hcovers
      exact List.not_mem_nil hcovers.2
    · rw [hcovers.1, canBeSubscribed, hconfig, Option.any_some, hstatic] at hcan
      cases hcan
  · have hcan {p : PropIdAreaId} := canBeSubscribed_of_covers (p := p) hconfig
      (by rw [hmode]; exact VehiclePropertyChangeMode.noConfusion)
    refine ⟨⟨hs.listed, hs.owned, hs.timed⟩, fun p => ?_⟩
    rw [isSubscribed_iff, isSubscribed_iff, hpairs p]
    constructor
    · rintro (hrefresh | hin | hcovers)
      · exact Or.inr (Or.inl hrefresh)
      · exact Or.inr (Or.inr hin)
      · exact Or.inl ⟨rfl, hcan hcovers, hcovers⟩
    · rintro (⟨-, -, hcovers⟩ | hrefresh | hin)
      · exact Or.inr (Or.inr hcovers)
      · exact Or.inl hrefresh
      · exact Or.inr (Or.inl hin)
  · have hcan {p : PropIdAreaId} := canBeSubscribed_of_covers (p := p) hconfig
      (by rw [hmode]; exact VehiclePropertyChangeMode.noConfusion)
    refine ⟨hs', fun p => ?_⟩
    by_cases hcovers : Covers options options.areaIds p
    · refine iff_of_true ?_ (Or.inl ⟨rfl, hcan hcovers, hcovers⟩)
      obtain ⟨refreshInfo, hlookup, -⟩ := hcovered p hcovers
      exact (isSubscribed_iff hardware' p).mpr (Or.inl ⟨refreshInfo, hlookup⟩)
    · rw [or_iff_right fun hleft => hcovers hleft.2.2, isSubscribed_iff, isSubscribed_iff,
        hother p hcovers, honChange]

/-- Cancelling removes one pair. -/
theorem isSubscribed_unsubscribe_iff (hardware : FakeVehicleHardware) (propId areaId : Int)
    (p : PropIdAreaId) : (hardware.unsubscribe propId areaId).2.isSubscribed p = true ↔
      p ≠ ⟨propId, areaId⟩ ∧ hardware.isSubscribed p = true := by
  by_cases hp : p = ⟨propId, areaId⟩
  · subst hp
    rw [isSubscribed_unsubscribe]
    exact iff_of_false Bool.false_ne_true fun h => h.1 rfl
  · rw [and_iff_right hp, isSubscribed_iff, isSubscribed_iff, FakeVehicleHardware.unsubscribe]
    simp only [lookup_unregisterRefreshLocked, hp, if_false, onChange_unregisterRefreshLocked,
      Finset.mem_erase, ne_eq, not_false_eq_true, true_and]

/-- A call keeps the server serving the requests. -/
theorem ServesRequests.after {server : RemoteServer} (h : ServesRequests getPropConfig server)
    {call : HardwareCall} (hremote : call.isSupportedValueChange = false) {status : StatusCode}
    {hardware : FakeVehicleHardware}
    (hcall : server.call getPropConfig call = some (status, hardware)) :
    ServesRequests getPropConfig (server.after call status hardware) := by
  cases call with
  | subscribe options =>
      obtain ⟨hs, hsubscribed⟩ := isSubscribed_subscribe h.scheduled hcall
      refine ⟨hs, fun p => ?_⟩
      rw [show (server.after (.subscribe options) status hardware).hardware = hardware from rfl,
        hsubscribed p, h.subscribed p, RequestedSinceStart, RequestedSinceStart,
        RemoteServer.after]
      by_cases hok : status = .ok
      · simp only [hok, if_true, asksFor_subscribe, true_and]
        exact and_or_left.symm
      · simp only [hok, if_false, false_and, false_or]
  | unsubscribe propId areaId =>
      cases hcall
      refine ⟨scheduled_unsubscribe h.scheduled propId areaId, fun p => ?_⟩
      show (server.hardware.unsubscribe propId areaId).2.isSubscribed p = true ↔
        canBeSubscribed getPropConfig p.propId = true ∧
          AsksFor ((.unsubscribe propId areaId, .ok) :: server.accepted) p
      rw [isSubscribed_unsubscribe_iff, h.subscribed p, RequestedSinceStart, asksFor_unsubscribe]
      exact and_left_comm
  | updateSampleRate propId areaId rate =>
      cases hcall
      refine ⟨h.scheduled, fun p => ?_⟩
      rw [RequestedSinceStart, RemoteServer.after]
      simp only [if_true, asksFor_updateSampleRate]
      exact h.subscribed p
  | subscribeSupportedValueChange _ => cases hremote
  | unsubscribeSupportedValueChange _ => cases hremote

/-- Whatever happens, the server serves the requests made since its start. -/
theorem RemoteStep.servesRequests {server server' : RemoteServer} {event : RemoteEvent}
    (hstep : RemoteStep getPropConfig server event server')
    (h : ServesRequests getPropConfig server) : ServesRequests getPropConfig server' := by
  cases hstep with
  | executed hremote hcall | replyLost hremote hcall => exact h.after hremote hcall
  | notReached _ | notRemote _ => exact h
  | restart => exact servesRequests_start
  | reconnect => exact ⟨h.scheduled, h.subscribed⟩

/-- Every step keeps the server serving its requests. -/
theorem BridgeStep.servesRequests {hw : Nat → StatusCode} {lib : MathLibrary} {s s' : Bridge}
    {event : BridgeEvent} (hstep : BridgeStep hw lib getPropConfig s event s')
    (h : ServesRequests getPropConfig s.server) : ServesRequests getPropConfig s'.server := by
  cases hstep with
  | operation _ _ hserver _ => exact hserver.invariant h fun _ _ _ h hstep => hstep.servesRequests h
  | restart => exact servesRequests_start
  | reconnect => exact ⟨h.scheduled, h.subscribed⟩

/-- The call was executed and accepted, or is not remote. -/
def RemoteEvent.Accepted : RemoteEvent → Prop
  | .executed _ status => status = .ok
  | .replyLost _ | .notReached _ => False
  | _ => True

/-- A subscription names properties that can be subscribed to. -/
def NamesSubscribable (getPropConfig : Int → Option VehiclePropConfig) : Operation → Prop
  | .subscribe _ options _ =>
      ∀ option ∈ options, canBeSubscribed getPropConfig option.propId = true
  | _ => True

/-- An operation that is checked as the service checks it, whose calls are all accepted, and
which spares the shared pairs. -/
def Undisturbed (getPropConfig : Int → Option VehiclePropConfig) (kind : Int → Bool) (s : Bridge) :
    BridgeEvent → Prop
  | .operation op _ events =>
      op.RespectsKind kind ∧ NamesSubscribable getPropConfig op ∧
        op.SparesSharedPairs kind s.manager ∧ ∀ event ∈ events, event.Accepted
  | _ => True

theorem pairLog_append (log log' : List (HardwareCall × StatusCode)) (p : PropIdAreaId) :
    pairLog (log ++ log') p = pairLog log p ++ pairLog log' p := List.filterMap_append ..

/-- A call for supported values asks nothing for a pair. -/
theorem pairLog_notRemote {call : HardwareCall} (h : call.isSupportedValueChange = true)
    (status : StatusCode) (p : PropIdAreaId) : pairLog [(call, status)] p = [] := by
  cases call with
  | subscribeSupportedValueChange _ | unsubscribeSupportedValueChange _ => rfl
  | subscribe _ | unsubscribe _ _ | updateSampleRate _ _ _ => cases h

/-- What the server accepts during an operation is logged in the order of the calls. -/
theorem pairLog_of_path {server server' : RemoteServer} {events : List RemoteEvent}
    (h : Path (RemoteStep getPropConfig) server events server')
    (haccepted : ∀ event ∈ events, event.Accepted) (p : PropIdAreaId) :
    ∃ older, pairLog (events.filterMap RemoteEvent.answer).reverse p ++
      pairLog server.accepted p = pairLog server'.accepted p ++ older ∧
      (.restart ∉ events → older = []) := by
  induction h with
  | nil => exact ⟨[], (List.append_nil _).symm, fun _ => rfl⟩
  | @snoc server' server'' events event _ hstep ih =>
      obtain ⟨older, hlog, hrestart⟩ := ih fun e he => haccepted e (List.mem_append_left _ he)
      have hlast := haccepted event (List.mem_append_right _ (List.mem_singleton_self _))
      have hbefore (h : .restart ∉ events ++ [event]) : older = [] :=
        hrestart fun hmem => h (List.mem_append_left _ hmem)
      rw [List.filterMap_append, List.reverse_append, pairLog_append, List.append_assoc, hlog,
        ← List.append_assoc]
      cases hstep with
      | @executed call status hardware _ _ =>
          cases (show status = .ok from hlast)
          exact ⟨older, congrArg (· ++ older) (pairLog_append [(call, .ok)] _ p).symm, hbefore⟩
      | replyLost _ _ | notReached _ => exact hlast.elim
      | notRemote hremote =>
          exact ⟨older, congrArg (· ++ pairLog server'.accepted p ++ older)
            (pairLog_notRemote hremote .ok p), hbefore⟩
      | restart =>
          exact ⟨_, rfl, fun h =>
            absurd (List.mem_append_right _ (List.mem_singleton_self _)) h⟩
      | reconnect => exact ⟨older, rfl, hbefore⟩

/-- The server is restarted, between two operations or during one. -/
def BridgeEvent.Restarts : BridgeEvent → Prop
  | .operation _ _ events => .restart ∈ events
  | .restart => True
  | .reconnect => False

/-- The calls that the server has accepted since its start remain the latest ones of the
manager. -/
theorem BridgeStep.latest {hw : Nat → StatusCode} {lib : MathLibrary} {kind : Int → Bool}
    {s s' : Bridge} {event : BridgeEvent} (hstep : BridgeStep hw lib getPropConfig s event s')
    (hrule : Undisturbed getPropConfig kind s event) {p : PropIdAreaId}
    {older : List (PairCall × StatusCode)}
    (h : s.manager.pairCalls p = pairLog s.server.accepted p ++ older) :
    ∃ older', s'.manager.pairCalls p = pairLog s'.server.accepted p ++ older' ∧
      (¬event.Restarts → older' = older) := by
  cases hstep with
  | @operation op result manager calls events server hop hcalls hserver hanswers =>
      obtain ⟨since, hsince, hrestart⟩ := pairLog_of_path hserver hrule.2.2.2 p
      refine ⟨since ++ older, ?_, fun hnot => by rw [hrestart hnot, List.nil_append]⟩
      calc manager.pairCalls p
          = pairLog (calls ++ s.manager.mVehicleHardware) p := by rw [← hcalls]; rfl
        _ = pairLog calls p ++ s.manager.pairCalls p := pairLog_append _ _ p
        _ = pairLog calls p ++ pairLog s.server.accepted p ++ older := by
            rw [h, List.append_assoc]
        _ = pairLog server.accepted p ++ (since ++ older) := by
            rw [← List.append_assoc, ← hsince, hanswers, List.reverse_reverse]
  | restart => exact ⟨_, rfl, fun hnot => absurd trivial hnot⟩
  | reconnect => exact ⟨older, h, fun _ => rfl⟩

/-- What an undisturbed run keeps: the manager agrees with the calls it has made, the latest of
which are those that the server has accepted since its start, and the pairs that are held can
be subscribed. -/
structure BridgeKept (getPropConfig : Int → Option VehiclePropConfig) (lib : MathLibrary)
    (kind : Int → Bool) (s : Bridge) : Prop where
  serves : ServesRequests getPropConfig s.server
  agreeing : Agreeing lib kind s.manager
  latest : ∀ p, ∃ older, s.manager.pairCalls p = pairLog s.server.accepted p ++ older
  subscribable : ∀ p c, s.manager.client p c ≠ none →
    canBeSubscribed getPropConfig p.propId = true

/-- A new bridge keeps the invariant. -/
theorem bridgeKept_start (lib : MathLibrary) (kind : Int → Bool) :
    BridgeKept getPropConfig lib kind {} where
  serves := servesRequests_start
  agreeing := agreeing_empty lib kind
  latest _ := ⟨_, rfl⟩
  subscribable p c h := by
    refine absurd ?_ h
    change (({} : SubscriptionManager).pairState p).client c = none
    rw [pairState_empty]
    rfl

/-- A pair that gets a client is named by the subscription. -/
theorem subscribable_step {hw : Nat → StatusCode} {lib : MathLibrary}
    {manager manager' : SubscriptionManager} {op : Operation} {result : VhalResult}
    (hstep : manager.step hw lib op = some (result, manager'))
    (hnames : NamesSubscribable getPropConfig op) {p : PropIdAreaId}
    (h : ∀ c, manager.client p c ≠ none → canBeSubscribed getPropConfig p.propId = true) :
    ∀ c, manager'.client p c ≠ none → canBeSubscribed getPropConfig p.propId = true := by
  obtain ⟨acts, heffect⟩ := step_effect hw hstep
  refine pair_invariant_of_acts (heffect.pairs hw) p
    (P := fun x => ∀ c, x.client c ≠ none → canBeSubscribed getPropConfig p.propId = true) h ?_
  intro x e y he hx hpair c hc
  rw [hpair.client] at hc
  cases e with
  | subscribed callback config =>
      obtain ⟨options, isContinuousProperty, turn, rfl, -, hturn, hact⟩ :=
        heffect.subscribed_act he rfl
      have hprop : p.propId = turn.1.propId :=
        congrArg (fun a : Act => a.1.propId) hact
      rw [hprop]
      exact hnames turn.1 (mem_subscribeTurns.mp hturn).1
  | unsubscribed d =>
      apply hx c
      by_cases hd : c = d
      · exact absurd (by rw [hd, PairEvent.update, Function.update_self]) hc
      · rwa [PairEvent.update, Function.update_of_ne hd] at hc
  | _ => exact hx c hc

/-- An undisturbed step keeps the manager and the server in this relation. -/
theorem BridgeStep.kept {lib : MathLibrary} {kind : Int → Bool} {s s' : Bridge}
    {event : BridgeEvent} (hstep : BridgeStep accepting lib getPropConfig s event s')
    (hrule : Undisturbed getPropConfig kind s event) (h : BridgeKept getPropConfig lib kind s) :
    BridgeKept getPropConfig lib kind s' := by
  have hserves := hstep.servesRequests h.serves
  have hlatest (p : PropIdAreaId) :
      ∃ older, s'.manager.pairCalls p = pairLog s'.server.accepted p ++ older := by
    obtain ⟨older, holder⟩ := h.latest p
    obtain ⟨older', holder', -⟩ := hstep.latest hrule holder
    exact ⟨older', holder'⟩
  cases hstep with
  | @operation op result _ _ _ _ hop _ _ _ =>
      obtain ⟨hkind, hnames, hspares, -⟩ := hrule
      exact ⟨hserves, (h.agreeing.step (a := (op, result)) hop hkind).2 hspares, hlatest,
        fun p => subscribable_step hop hnames (h.subscribable p)⟩
  | restart | reconnect => exact ⟨hserves, h.agreeing, hlatest, h.subscribable⟩

/-- A subscription of a log that covers a pair is a call for it. -/
theorem exists_subscribe_of_pairLog {log : List (HardwareCall × StatusCode)} {p : PropIdAreaId}
    {config : SubConfig} {status : StatusCode}
    (h : (PairCall.subscribe config, status) ∈ pairLog log p) :
    ∃ options, (HardwareCall.subscribe options, status) ∈ log ∧
      Covers options options.areaIds p := by
  obtain ⟨⟨call, status'⟩, hmem, hpair⟩ := List.mem_filterMap.mp h
  obtain ⟨pairCall, hfor, heq⟩ := Option.map_eq_some_iff.mp hpair
  cases heq
  cases call with
  | subscribe options =>
      rw [HardwareCall.forPair] at hfor
      split at hfor
      · next hcovers => exact ⟨options, hmem, hcovers.1.symm, hcovers.2⟩
      · cases hfor
  | unsubscribe _ _ | updateSampleRate _ _ _ =>
      rw [HardwareCall.forPair] at hfor
      split at hfor <;> cases hfor
  | subscribeSupportedValueChange _ | unsubscribeSupportedValueChange _ => cases hfor

/-- The manager over a server whose calls are all answered and accepted. -/
def UndisturbedStep (lib : MathLibrary) (getPropConfig : Int → Option VehiclePropConfig)
    (kind : Int → Bool) (s : Bridge) (event : BridgeEvent) (s' : Bridge) : Prop :=
  BridgeStep accepting lib getPropConfig s event s' ∧ Undisturbed getPropConfig kind s event

/-- A log that has any request for a pair has the latest one. -/
theorem lastRequest_append {calls older : List (PairCall × StatusCode)} {config : SubConfig}
    {status : StatusCode} (h : (PairCall.subscribe config, status) ∈ calls) :
    lastRequest (calls ++ older) = lastRequest calls := by
  have hsome : lastRequest calls ≠ none := by
    intro hnone
    cases List.findSome?_eq_none_iff.mp hnone _ h
  rw [lastRequest, lastRequest, List.findSome?_append]
  exact Option.or_of_isSome (Option.isSome_iff_ne_none.mpr hsome)

/-- A log whose latest request is to subscribe has a subscription that covers the pair. -/
theorem AsksFor.exists_subscribe {log : List (HardwareCall × StatusCode)} {p : PropIdAreaId}
    (h : AsksFor log p) : ∃ options status, (HardwareCall.subscribe options, status) ∈ log ∧
      Covers options options.areaIds p := by
  obtain ⟨config, hlast⟩ := h
  obtain ⟨⟨call, status⟩, hmem, hcall⟩ := List.exists_of_findSome?_eq_some hlast
  cases call with
  | subscribe config' =>
      obtain ⟨options, hoptions⟩ := exists_subscribe_of_pairLog hmem
      exact ⟨options, status, hoptions⟩
  | unsubscribe | updateSampleRate _ => cases hcall

/-- A pair that is held is subscribed exactly if it was called for since the latest start. -/
theorem BridgeKept.isSubscribed_iff {lib : MathLibrary} {kind : Int → Bool} {s : Bridge}
    (h : BridgeKept getPropConfig lib kind s) {p : PropIdAreaId} {c : ClientIdType}
    (hheld : s.manager.client p c ≠ none) :
    s.server.hardware.isSubscribed p = true ↔ ∃ options status,
      (HardwareCall.subscribe options, status) ∈ s.server.accepted ∧
        Covers options options.areaIds p := by
  rw [h.serves.subscribed p, RequestedSinceStart, and_iff_right (h.subscribable p c hheld)]
  refine ⟨AsksFor.exists_subscribe, ?_⟩
  rintro ⟨options, status, hmem, hcovers⟩
  obtain ⟨config, hlast⟩ := (h.agreeing.agrees p).mpr ⟨c, hheld⟩
  obtain ⟨older, holder⟩ := h.latest p
  have hcall : (PairCall.subscribe ⟨options.sampleRate, options.resolution,
      options.enableVariableUpdateRate⟩, status) ∈ pairLog s.server.accepted p := by
    refine List.mem_filterMap.mpr ⟨_, hmem, ?_⟩
    rw [HardwareCall.forPair, if_pos ⟨hcovers.1.symm, hcovers.2⟩]
    rfl
  rw [holder, lastRequest_append hcall] at hlast
  exact ⟨config, hlast⟩

theorem bridgeKept_of_path {lib : MathLibrary} {kind : Int → Bool} {events : List BridgeEvent}
    {s : Bridge} (h : Path (UndisturbedStep lib getPropConfig kind) {} events s) :
    BridgeKept getPropConfig lib kind s :=
  h.invariant (bridgeKept_start lib kind) fun _ _ _ h hstep => hstep.1.kept hstep.2 h

/-- As long as the server is not restarted, its log is the one of the manager. -/
theorem pairCalls_of_path {lib : MathLibrary} {kind : Int → Bool} {events : List BridgeEvent}
    {s : Bridge} (h : Path (UndisturbedStep lib getPropConfig kind) {} events s)
    (hrestart : ∀ event ∈ events, ¬event.Restarts) (p : PropIdAreaId) :
    s.manager.pairCalls p = pairLog s.server.accepted p := by
  refine h.invariant_of_mem (P := fun s => s.manager.pairCalls p = pairLog s.server.accepted p)
    rfl fun s event s' hmem hlog hstep => ?_
  obtain ⟨older, holder, hnil⟩ :=
    hstep.1.latest hstep.2 (hlog.trans (List.append_nil _).symm)
  rw [holder, hnil (hrestart event hmem), List.append_nil]

/-- Between operations the server is subscribed to exactly the pairs that were called for
since its latest start. Of the pairs that are held, where all calls are accepted, these are
all as long as the server is not restarted, and afterwards those that the manager has called
for again. -/
theorem subscribed_iff_requested_since_start :
    (∀ hw lib getPropConfig events s, Path (BridgeStep hw lib getPropConfig) {} events s →
      ∀ p, s.server.hardware.isSubscribed p = true ↔
        RequestedSinceStart getPropConfig s.server p) ∧
    (∀ lib getPropConfig kind events s,
      Path (UndisturbedStep lib getPropConfig kind) {} events s →
        ∀ p c, s.manager.client p c ≠ none →
          ((∀ event ∈ events, ¬event.Restarts) → s.server.hardware.isSubscribed p = true) ∧
          (s.server.hardware.isSubscribed p = true ↔ ∃ options status,
            (HardwareCall.subscribe options, status) ∈ s.server.accepted ∧
              Covers options options.areaIds p)) := by
  refine ⟨fun hw lib getPropConfig events s h p => ?_,
    fun lib getPropConfig kind events s h p c hheld => ?_⟩
  · have hserves := h.invariant (P := fun s : Bridge => ServesRequests getPropConfig s.server)
      servesRequests_start fun _ _ _ h hstep => hstep.servesRequests h
    exact hserves.subscribed p
  · have hkept := bridgeKept_of_path h
    refine ⟨fun hrestart => ?_, hkept.isSubscribed_iff hheld⟩
    have hasks := (hkept.agreeing.agrees p).mpr ⟨c, hheld⟩
    rw [HardwareSubscribed, pairCalls_of_path h hrestart p] at hasks
    exact (hkept.serves.subscribed p).mpr ⟨hkept.subscribable p c hheld, hasks⟩

/-- A client subscribes to the gear. -/
def gearSubscription : Operation :=
  .subscribe ⟨0, 1⟩ [globalOptions 0x11400400 .zero] false

/-- The call that the manager makes for it. -/
def gearCall : HardwareCall :=
  .subscribe (newSubscribeOptions 0x11400400 0 .zero .zero false)

private theorem gear_path : ∃ s : Bridge, Path (UndisturbedStep default gearAndSpeed fun _ => false)
      {} [.operation gearSubscription (.ok ()) [.executed gearCall .ok]] s ∧
    s.manager.client ⟨0x11400400, 0⟩ 1 ≠ none := by
  obtain ⟨manager, hstep, hheld, hcalls⟩ : ∃ manager,
      SubscriptionManager.step accepting default {} gearSubscription = some (.ok (), manager) ∧
        manager.client ⟨0x11400400, 0⟩ 1 ≠ none ∧
        manager.mVehicleHardware = [(gearCall, .ok)] := ⟨_, rfl, by decide, by decide⟩
  obtain ⟨pairs, hcall, -⟩ := @subscribeAreas_onChange
    (newSubscribeOptions 0x11400400 0 .zero .zero false) gearConfig rfl [0] {}
  have hserver : RemoteStep gearAndSpeed {} (.executed gearCall .ok) _ := .executed rfl hcall
  have hbridge := @BridgeStep.operation accepting default gearAndSpeed {} gearSubscription
    (.ok ()) manager [(gearCall, .ok)] [.executed gearCall .ok] _ hstep hcalls
    (Path.single hserver) rfl
  refine ⟨_, Path.single ⟨hbridge, fun _ _ => rfl, fun option hoption => ?_, trivial, ?_⟩, hheld⟩
  · rw [List.mem_singleton.mp hoption]
    rfl
  · intro event hevent
    rw [List.mem_singleton.mp hevent]
    rfl

/-- The server is restarted and the stream of values connected again. -/
private theorem restarted_path {lib : MathLibrary} {kind : Int → Bool} {events : List BridgeEvent}
    {s : Bridge} (h : Path (UndisturbedStep lib getPropConfig kind) {} events s) :
    Path (UndisturbedStep lib getPropConfig kind) {} (events ++ [.restart] ++ [.reconnect])
      { s with server := { valueStream := true } } :=
  (h.snoc ⟨.restart, trivial⟩).snoc ⟨.reconnect, trivial⟩

/-- A client subscribes to the gear, the server is restarted and the stream of values is
connected again: the client still holds the gear, which is not subscribed. -/
theorem restart_loses_gear :
    ¬∀ hw lib getPropConfig events s, Path (BridgeStep hw lib getPropConfig) {} events s →
      s.server.valueStream = true → ∀ p c, s.manager.client p c ≠ none →
        s.server.hardware.isSubscribed p = true := by
  intro hsubscribed
  obtain ⟨s, hpath, hheld⟩ := gear_path
  have hrun : Path (BridgeStep accepting default gearAndSpeed) {} _ _ :=
    (restarted_path hpath).mono fun _ _ _ hstep => hstep.1
  cases hsubscribed _ _ _ _ _ hrun rfl ⟨0x11400400, 0⟩ 1 hheld

/-- The gear is subscribed until the server restarts, and not after. -/
theorem gear_subscribed_until_restart :
    (∃ events s, Path (BridgeStep accepting default gearAndSpeed) {} events s ∧
      s.manager.client ⟨0x11400400, 0⟩ 1 ≠ none ∧
      s.server.hardware.isSubscribed ⟨0x11400400, 0⟩ = true ∧
      RequestedSinceStart gearAndSpeed s.server ⟨0x11400400, 0⟩) ∧
    ∃ events s, Path (BridgeStep accepting default gearAndSpeed) {} events s ∧
      s.server.valueStream = true ∧ s.manager.client ⟨0x11400400, 0⟩ 1 ≠ none ∧
      ¬s.server.hardware.isSubscribed ⟨0x11400400, 0⟩ = true := by
  obtain ⟨s, hpath, hheld⟩ := gear_path
  have hrun : Path (BridgeStep accepting default gearAndSpeed) {} _ s :=
    hpath.mono fun _ _ _ hstep => hstep.1
  have hsubscribed := (subscribed_iff_requested_since_start.2 _ _ _ _ s hpath _ 1 hheld).1 fun
    event hevent => by
      rw [List.mem_singleton.mp hevent]
      exact fun hrestart => nomatch List.mem_singleton.mp hrestart
  refine ⟨⟨_, s, hrun, hheld, hsubscribed,
    (subscribed_iff_requested_since_start.1 _ _ _ _ s hrun _).mp hsubscribed⟩, ?_⟩
  have hrestarted := restarted_path hpath
  refine ⟨_, _, hrestarted.mono fun _ _ _ hstep => hstep.1, rfl, hheld, fun hstill => ?_⟩
  obtain ⟨options, status, hcalled, -⟩ :=
    (subscribed_iff_requested_since_start.2 _ _ _ _ _ hrestarted _ 1 hheld).2.mp hstill
  exact List.not_mem_nil hcalled

end VhalCore.Grpc
