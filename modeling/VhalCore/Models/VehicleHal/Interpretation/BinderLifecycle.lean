import VhalCore.Models.EventQueue.Native.ConcurrentQueue
import VhalCore.Models.Subscription.Correctness.SupportedValues
import VhalCore.Models.VehicleHal.Native.SubscribeOptions
import VhalCore.Models.VehicleHal.Native.SupportedValues

/-!
# The life cycle of client binders

The service keeps what a client has asked for until the binder of the client dies. A call that
creates something for a client holds the lock of the service, and monitors the binder first. The
death recipient runs in any thread and only queues an event; one handler thread takes the events
from the queue and, with the lock held, drops what the service keeps for the client.

A call of the manager takes the lock of the manager as well, so the steps of a call that holds
the lock of the service may be interleaved with deliveries and with calls that end a
subscription. Binders, the notifications of their death and the reuse of their addresses are the
environment.

The monitoring of a client goes through a fixed order of stages, whatever the environment does.
-/

namespace VhalCore.VehicleHal

open EventQueue Subscription
open Subscription.SubscriptionManager (Operation)

/-- `STATUS_OK` of `binder_status_t`. -/
def statusOk : Int := 0

/-- An entry of the queue: a client died, or was unlinked. -/
structure BinderDiedUnlinkedEvent where
  forOnBinderDied : Bool
  clientId : ClientIdType
  deriving DecidableEq, Repr

/-- What the death recipient of the service is still to be told about a binder. -/
inductive Link where
  | unlinked
  /-- The death of the binder will be notified. -/
  | linked
  /-- The end of the link will be notified. -/
  | unlinking
  deriving DecidableEq, Repr

/-- Who holds the lock of the service. -/
inductive LockHolder where
  /-- A call of a client, with the operations of the manager it has yet to call. -/
  | call (pending : List Operation)
  /-- The handler thread, within `onBinderDiedWithContext`. -/
  | handler (clientId : ClientIdType)

/-- The service as far as it depends on the life of its clients, and their binders. -/
structure BinderLifecycle where
  mSubscriptionManager : SubscriptionManager := {}
  /-- The keys of `mGetValuesClients` and of `mSetValuesClients`. -/
  clients : RequestKind → Finset ClientIdType := fun _ => ∅
  mOnBinderDiedContexts : Finset ClientIdType := ∅
  mBinderEvents : ConcurrentQueue BinderDiedUnlinkedEvent := {}
  /-- The events that the handler thread has flushed, from the one it handles. -/
  flushed : List BinderDiedUnlinkedEvent := []
  mLock : Option LockHolder := none
  dead : Finset ClientIdType := ∅
  links : ClientIdType → Link := fun _ => .unlinked

namespace BinderLifecycle

/-- The callback of the client has not died. -/
def isAlive (clientId : ClientIdType) (s : BinderLifecycle) : Bool := decide (clientId ∉ s.dead)

/-- The status of `linkToDeath` is used when the binder is not monitored yet. -/
def monitorBinderLifeCycleLocked (linkToDeath : Int) (clientId : ClientIdType)
    (s : BinderLifecycle) : Bool × BinderLifecycle :=
  if clientId ∈ s.mOnBinderDiedContexts then (s.isAlive clientId, s)
  else
    let s := { s with mOnBinderDiedContexts := insert clientId s.mOnBinderDiedContexts }
    if linkToDeath = statusOk then
      (true, { s with links := Function.update s.links clientId .linked })
    else (false, { s with links := Function.update s.links clientId .unlinking })

/-- Keeps a client for a kind of request. -/
def getOrCreateClient (kind : RequestKind) (clientId : ClientIdType) (s : BinderLifecycle) :
    BinderLifecycle :=
  { s with clients := Function.update s.clients kind (insert clientId (s.clients kind)) }

/-- `onBinderDied`, with the notification that calls it. -/
def onBinderDied (clientId : ClientIdType) (s : BinderLifecycle) : BinderLifecycle :=
  { s with
    links := Function.update s.links clientId .unlinking
    mBinderEvents := s.mBinderEvents.push ⟨true, clientId⟩ }

/-- `onBinderUnlinked`, with the notification that calls it. -/
def onBinderUnlinked (clientId : ClientIdType) (s : BinderLifecycle) : BinderLifecycle :=
  { s with
    links := Function.update s.links clientId .unlinked
    mBinderEvents := s.mBinderEvents.push ⟨false, clientId⟩ }

/-- The beginning of `onBinderDiedWithContext`, up to the call of the manager. -/
def onBinderDiedWithContext (clientId : ClientIdType) (s : BinderLifecycle) : BinderLifecycle :=
  { s with
    clients := fun kind => (s.clients kind).erase clientId
    mLock := some (.handler clientId) }

/-- The context of a client is dropped. -/
def onBinderUnlinkedWithContext (clientId : ClientIdType) (s : BinderLifecycle) :
    BinderLifecycle :=
  { s with mOnBinderDiedContexts := s.mOnBinderDiedContexts.erase clientId }

/-- The events of the service that have not been handled, oldest first. -/
def events (s : BinderLifecycle) : List BinderDiedUnlinkedEvent :=
  s.flushed ++ s.mBinderEvents.mQueue

end BinderLifecycle

/-- The lock is released when nothing is left to be done. -/
def lockHolder : List Operation → Option LockHolder
  | [] => none
  | op :: pending => some (.call (op :: pending))

/-- The calls of the manager that `subscribe` makes. -/
def ParsedOptions.operations (callback : CallbackType) (parsed : ParsedOptions) :
    List Operation :=
  (if parsed.onChangeSubscriptions = [] then []
    else [.subscribe callback parsed.onChangeSubscriptions false]) ++
  if parsed.continuousSubscriptions = [] then []
  else [.subscribe callback parsed.continuousSubscriptions true]

/-- The pairs for which `registerSupportedValueChangeCallback` subscribes. -/
def supportedValueChangePairs
    (getConfig : Int32 → Except ConfigError ProtoMsgConverter.Aidl.VehiclePropConfig) :
    List ProtoMsgConverter.Aidl.PropIdAreaId → Except SupportedValueInfoError (List PropIdAreaId)
  | [] => .ok []
  | p :: ps => do
      let info ← getHasSupportedValueInfo getConfig p.propId p.areaId
      let rest ← supportedValueChangePairs getConfig ps
      if !info.hasMinSupportedValue && !info.hasMaxSupportedValue &&
          !info.hasSupportedValuesList then return rest
      else return ⟨p.propId.toInt, p.areaId.toInt⟩ :: rest

/-- A call of the manager that needs no lock of the service. -/
def Unguarded : Operation → Prop
  | .unsubscribe _ _ _ | .unsubscribeSupportedValueChange _ _ | .getSubscribedClients _ _ => True
  | _ => False

/-- What happens in a step. The status is the one that `linkToDeath` has for the client. -/
inductive LifecycleEvent where
  | clientDied (clientId : ClientIdType) (status : Int)
  | connect (kind : RequestKind) (clientId : ClientIdType) (status : Int)
  | subscribe (callback : CallbackType) (status : Int)
  | perform (op : Operation) (result : VhalResult)
  | manage (op : Operation) (result : VhalResult)
  | onBinderDied (clientId : ClientIdType)
  | onBinderUnlinked (clientId : ClientIdType)
  | flush
  | onBinderDiedWithContext (clientId : ClientIdType)
  | forget (clientId : ClientIdType) (result : VhalResult)
  | onBinderUnlinkedWithContext (clientId : ClientIdType)
  | die (clientId : ClientIdType)
  | reuse (clientId : ClientIdType)

namespace BinderLifecycle

/-- Something of the service refers to the client. -/
def Holds (s : BinderLifecycle) (c : ClientIdType) : Prop :=
  (∃ kind, c ∈ s.clients kind) ∨ s.mSubscriptionManager.held c ≠ ∅ ∨
    s.mSubscriptionManager.supportedHeld c ≠ ∅

end BinderLifecycle

open BinderLifecycle

/-- One step. The address of a binder is given to a new one when the binder is dead, nothing
refers to it any more and its death has been notified. -/
inductive LifecycleStep (hw : Nat → StatusCode) (lib : MathLibrary) :
    BinderLifecycle → LifecycleEvent → BinderLifecycle → Prop
  | clientDied (s t : BinderLifecycle) (clientId : ClientIdType) (status : Int)
      (hlock : s.mLock = none)
      (hmonitor : s.monitorBinderLifeCycleLocked status clientId = (false, t)) :
      LifecycleStep hw lib s (.clientDied clientId status) t
  | connect (s t : BinderLifecycle) (kind : RequestKind) (clientId : ClientIdType) (status : Int)
      (hlock : s.mLock = none)
      (hmonitor : s.monitorBinderLifeCycleLocked status clientId = (true, t)) :
      LifecycleStep hw lib s (.connect kind clientId status) (t.getOrCreateClient kind clientId)
  | subscribe (s t : BinderLifecycle) (callback : CallbackType) (status : Int)
      (options : List SubscribeOptions) (configsByPropId : UnorderedMap Int VehiclePropConfig)
      (parsed : ParsedOptions)
      (hcheck : checkSubscribeOptions lib configsByPropId options = .ok ())
      (hparse : parseSubscribeOptions configsByPropId options {} = some parsed)
      (hlock : s.mLock = none)
      (hmonitor : s.monitorBinderLifeCycleLocked status callback.asBinder = (true, t)) :
      LifecycleStep hw lib s (.subscribe callback status)
        { t with mLock := lockHolder (parsed.operations callback) }
  | registerSupportedValueChangeCallback (s t : BinderLifecycle) (callback : CallbackType)
      (status : Int) (pairs : List ProtoMsgConverter.Aidl.PropIdAreaId)
      (getConfig : Int32 → Except ConfigError ProtoMsgConverter.Aidl.VehiclePropConfig)
      (propIdAreaIds : List PropIdAreaId)
      (hpairs : supportedValueChangePairs getConfig pairs = .ok propIdAreaIds)
      (hnonempty : propIdAreaIds ≠ []) (hlock : s.mLock = none)
      (hmonitor : s.monitorBinderLifeCycleLocked status callback.asBinder = (true, t)) :
      LifecycleStep hw lib s (.subscribe callback status)
        { t with
          mLock := lockHolder [.subscribeSupportedValueChange callback propIdAreaIds] }
  | perform (s : BinderLifecycle) (op : Operation) (pending : List Operation) (r : VhalResult)
      (manager : SubscriptionManager) (hlock : s.mLock = some (.call (op :: pending)))
      (hstep : s.mSubscriptionManager.step hw lib op = some (r, manager)) :
      LifecycleStep hw lib s (.perform op r)
        { s with
          mSubscriptionManager := manager
          mLock := match r with
            | .ok () => lockHolder pending
            | .error _ => none }
  | manage (s : BinderLifecycle) (op : Operation) (r : VhalResult) (manager : SubscriptionManager)
      (hop : Unguarded op)
      (hstep : s.mSubscriptionManager.step hw lib op = some (r, manager)) :
      LifecycleStep hw lib s (.manage op r) { s with mSubscriptionManager := manager }
  | onBinderDied (s : BinderLifecycle) (clientId : ClientIdType)
      (hlink : s.links clientId = .linked) (hdead : clientId ∈ s.dead) :
      LifecycleStep hw lib s (.onBinderDied clientId) (s.onBinderDied clientId)
  | onBinderUnlinked (s : BinderLifecycle) (clientId : ClientIdType)
      (hlink : s.links clientId = .unlinking) :
      LifecycleStep hw lib s (.onBinderUnlinked clientId) (s.onBinderUnlinked clientId)
  | flush (s : BinderLifecycle) (hflushed : s.flushed = [])
      (hwait : s.mBinderEvents.waitForItems = some true) :
      LifecycleStep hw lib s .flush
        { s with flushed := s.mBinderEvents.flush.1, mBinderEvents := s.mBinderEvents.flush.2 }
  | onBinderDiedWithContext (s : BinderLifecycle) (clientId : ClientIdType)
      (rest : List BinderDiedUnlinkedEvent) (hlock : s.mLock = none)
      (hevent : s.flushed = ⟨true, clientId⟩ :: rest) :
      LifecycleStep hw lib s (.onBinderDiedWithContext clientId)
        (s.onBinderDiedWithContext clientId)
  | forget (s : BinderLifecycle) (clientId : ClientIdType) (order : Traversal PropIdAreaId)
      (rest : List BinderDiedUnlinkedEvent) (r : VhalResult) (manager : SubscriptionManager)
      (hlock : s.mLock = some (.handler clientId)) (hevent : s.flushed = ⟨true, clientId⟩ :: rest)
      (hstep : s.mSubscriptionManager.step hw lib (.unsubscribeClient clientId order) =
        some (r, manager)) :
      LifecycleStep hw lib s (.forget clientId r)
        { s with mSubscriptionManager := manager, flushed := rest, mLock := none }
  | onBinderUnlinkedWithContext (s : BinderLifecycle) (clientId : ClientIdType)
      (rest : List BinderDiedUnlinkedEvent) (hlock : s.mLock = none)
      (hevent : s.flushed = ⟨false, clientId⟩ :: rest) :
      LifecycleStep hw lib s (.onBinderUnlinkedWithContext clientId)
        { s.onBinderUnlinkedWithContext clientId with flushed := rest }
  | die (s : BinderLifecycle) (clientId : ClientIdType) (halive : clientId ∉ s.dead) :
      LifecycleStep hw lib s (.die clientId) { s with dead := insert clientId s.dead }
  | reuse (s : BinderLifecycle) (clientId : ClientIdType) (hdead : clientId ∈ s.dead)
      (hfree : ¬s.Holds clientId) (hlink : s.links clientId ≠ .linked) :
      LifecycleStep hw lib s (.reuse clientId) { s with dead := s.dead.erase clientId }

section Monitoring

variable {hw : Nat → StatusCode} {lib : MathLibrary} {s t : BinderLifecycle} {e : LifecycleEvent}

/-- How far the monitoring of a client has come: whether there is a context for it, what the death
recipient is still to be told, and the events that have not been handled, `true` for a death. -/
inductive Monitoring : Prop → Link → List Bool → Prop
  | unmonitored {context : Prop} (h : ¬context) : Monitoring context .unlinked []
  | linked {context : Prop} (h : context) : Monitoring context .linked []
  | died {context : Prop} (h : context) : Monitoring context .unlinking [true]
  /-- The link was refused, or the death has been handled before the end of the link. -/
  | unlinking {context : Prop} (h : context) : Monitoring context .unlinking []
  | diedAndUnlinked {context : Prop} (h : context) : Monitoring context .unlinked [true, false]
  | unlinked {context : Prop} (h : context) : Monitoring context .unlinked [false]

namespace BinderLifecycle

/-- The events of a client that have not been handled. -/
def eventsOf (s : BinderLifecycle) (c : ClientIdType) : List Bool :=
  s.events.filterMap fun event => if event.clientId = c then some event.forOnBinderDied else none

/-- The events of a client are its entries of the queue. -/
theorem mem_eventsOf (s : BinderLifecycle) (c : ClientIdType) (b : Bool) :
    b ∈ s.eventsOf c ↔ ⟨b, c⟩ ∈ s.events := by
  rw [eventsOf, List.mem_filterMap]
  constructor
  · rintro ⟨event, hevent, h⟩
    split at h
    · next hc =>
      cases h
      rwa [← hc]
    · cases h
  · intro h
    exact ⟨_, h, if_pos rfl⟩

/-- A client gets its context and its link. -/
def addContext (s : BinderLifecycle) (c : ClientIdType) (link : Link) : BinderLifecycle :=
  { s with
    mOnBinderDiedContexts := insert c s.mOnBinderDiedContexts
    links := Function.update s.links c link }

/-- A client is monitored already, or gets a context now. -/
theorem monitorBinderLifeCycleLocked_cases {status : Int} {c : ClientIdType} {alive : Bool}
    (h : s.monitorBinderLifeCycleLocked status c = (alive, t)) :
    (c ∈ s.mOnBinderDiedContexts ∧ alive = s.isAlive c ∧ t = s) ∨
      (c ∉ s.mOnBinderDiedContexts ∧
        t = s.addContext c (if alive then .linked else .unlinking)) := by
  rw [monitorBinderLifeCycleLocked] at h
  split at h
  · next hc =>
    cases h
    exact Or.inl ⟨hc, rfl, rfl⟩
  · next hc =>
    split at h
    · cases h
      exact Or.inr ⟨hc, rfl⟩
    · cases h
      exact Or.inr ⟨hc, rfl⟩

/-- The queue takes events, and the monitoring of every client is at one of its stages. -/
structure Tracked (s : BinderLifecycle) : Prop where
  active : s.mBinderEvents.mIsActive = true
  monitoring : ∀ c, Monitoring (c ∈ s.mOnBinderDiedContexts) (s.links c) (s.eventsOf c)

/-- Only a change of the contexts, the links and the events matters. -/
theorem Tracked.congr (hs : Tracked s) (hqueue : t.mBinderEvents = s.mBinderEvents)
    (hcontexts : t.mOnBinderDiedContexts = s.mOnBinderDiedContexts) (hlinks : t.links = s.links)
    (hflushed : t.flushed = s.flushed) : Tracked t where
  active := by
    rw [hqueue]
    exact hs.active
  monitoring c := by
    rw [hcontexts, hlinks, eventsOf, events, hqueue, hflushed]
    exact hs.monitoring c

theorem tracked_empty : Tracked {} where
  active := rfl
  monitoring c := .unmonitored (Finset.notMem_empty c)

/-- A context is added for a client that is not monitored. -/
theorem Tracked.addContext (hs : Tracked s) {c : ClientIdType}
    (hc : c ∉ s.mOnBinderDiedContexts) (alive : Bool) :
    Tracked (s.addContext c (if alive then .linked else .unlinking)) where
  active := hs.active
  monitoring d := by
    have hd := hs.monitoring d
    simp only [BinderLifecycle.addContext, Finset.mem_insert, Function.update_apply]
    change Monitoring _ _ (s.eventsOf d)
    by_cases h : d = c
    · subst h
      rw [if_pos rfl]
      generalize s.links d = link at hd
      generalize s.eventsOf d = pending at hd
      cases hd with
      | unmonitored =>
          cases alive
          · exact .unlinking (Or.inl rfl)
          · exact .linked (Or.inl rfl)
      | linked h | died h | unlinking h | diedAndUnlinked h | unlinked h => exact absurd h hc
    · rw [if_neg h]
      simpa only [h, false_or] using hd

theorem Tracked.monitor (hs : Tracked s) {status : Int} {c : ClientIdType} {alive : Bool}
    (h : s.monitorBinderLifeCycleLocked status c = (alive, t)) : Tracked t := by
  rcases monitorBinderLifeCycleLocked_cases h with ⟨_, _, rfl⟩ | ⟨hc, rfl⟩
  · exact hs
  · exact hs.addContext hc alive

/-- A notification adds its event. -/
theorem Tracked.eventsOf_push (hs : Tracked s) (c d : ClientIdType) (b : Bool) :
    { s with mBinderEvents := s.mBinderEvents.push ⟨b, c⟩ }.eventsOf d =
      s.eventsOf d ++ if d = c then [b] else [] := by
  simp only [eventsOf, events, ConcurrentQueue.push_eq_pushVector, ConcurrentQueue.pushVector_eq,
    hs.active, ite_true]
  rw [← List.append_assoc, List.filterMap_append]
  by_cases h : d = c
  · simp [h]
  · simp [h, Ne.symm h]

/-- The handler takes the oldest event. -/
theorem eventsOf_handled {c : ClientIdType} {b : Bool} {rest : List BinderDiedUnlinkedEvent}
    (hevent : s.flushed = ⟨b, c⟩ :: rest) (d : ClientIdType) :
    s.eventsOf d = (if d = c then [b] else []) ++ { s with flushed := rest }.eventsOf d := by
  rw [eventsOf, events, hevent, List.cons_append, List.filterMap_cons]
  by_cases h : d = c
  · rw [if_pos h, if_pos h.symm]
    rfl
  · rw [if_neg h, if_neg (Ne.symm h)]
    rfl

/-- A notification moves the link on. -/
theorem Tracked.notify (hs : Tracked s) (c : ClientIdType) (b : Bool) (link : Link)
    (hmove : Monitoring (c ∈ s.mOnBinderDiedContexts) (s.links c) (s.eventsOf c) →
      Monitoring (c ∈ s.mOnBinderDiedContexts) link (s.eventsOf c ++ [b])) :
    Tracked { s with
      links := Function.update s.links c link
      mBinderEvents := s.mBinderEvents.push ⟨b, c⟩ } where
  active := by
    rw [ConcurrentQueue.push_eq_pushVector, ConcurrentQueue.pushVector_eq]
    exact hs.active
  monitoring d := by
    change Monitoring (d ∈ s.mOnBinderDiedContexts) (Function.update s.links c link d)
      ({ s with mBinderEvents := s.mBinderEvents.push ⟨b, c⟩ }.eventsOf d)
    rw [hs.eventsOf_push, Function.update_apply]
    by_cases h : d = c
    · subst h
      rw [if_pos rfl, if_pos rfl]
      exact hmove (hs.monitoring d)
    · rw [if_neg h, if_neg h, List.append_nil]
      exact hs.monitoring d

/-- The handler drops a context only at the end of its link. -/
theorem Tracked.handle (hs : Tracked s) {c : ClientIdType} {b : Bool}
    {rest : List BinderDiedUnlinkedEvent} (contexts : Finset ClientIdType)
    (hevent : s.flushed = ⟨b, c⟩ :: rest)
    (hmove : ∀ pending, Monitoring (c ∈ s.mOnBinderDiedContexts) (s.links c) (b :: pending) →
      Monitoring (c ∈ contexts) (s.links c) pending)
    (hother : ∀ d, d ≠ c → (d ∈ contexts ↔ d ∈ s.mOnBinderDiedContexts)) :
    Tracked { s with flushed := rest, mOnBinderDiedContexts := contexts } where
  active := hs.active
  monitoring d := by
    have hd := hs.monitoring d
    rw [eventsOf_handled hevent] at hd
    by_cases h : d = c
    · subst h
      rw [if_pos rfl] at hd
      exact hmove _ hd
    · rw [if_neg h, ← propext (hother d h)] at hd
      exact hd

end BinderLifecycle

/-- Every step keeps the monitoring of every client on its way. -/
theorem LifecycleStep.tracked (h : LifecycleStep hw lib s e t) (hs : Tracked s) : Tracked t := by
  cases h with
  | clientDied _ c status hlock hmonitor => exact hs.monitor hmonitor
  | connect t kind c status hlock hmonitor => exact (hs.monitor hmonitor).congr rfl rfl rfl rfl
  | subscribe t _ _ _ _ _ _ _ _ hmonitor =>
      exact (hs.monitor hmonitor).congr rfl rfl rfl rfl
  | registerSupportedValueChangeCallback t _ _ _ _ _ _ _ _ hmonitor =>
      exact (hs.monitor hmonitor).congr rfl rfl rfl rfl
  | perform | manage | onBinderDiedWithContext | die | reuse => exact hs.congr rfl rfl rfl rfl
  | onBinderDied c hlink hdead =>
      refine hs.notify c true .unlinking fun hc => ?_
      rw [hlink] at hc
      generalize s.eventsOf c = pending at hc
      cases hc with
      | linked h => exact .died h
  | onBinderUnlinked c hlink =>
      refine hs.notify c false .unlinked fun hc => ?_
      rw [hlink] at hc
      generalize s.eventsOf c = pending at hc
      cases hc with
      | died h => exact .diedAndUnlinked h
      | unlinking h => exact .unlinked h
  | flush hflushed hwait =>
      refine ⟨?_, fun c => ?_⟩
      · rw [ConcurrentQueue.flush_eq]
        exact hs.active
      · have hc := hs.monitoring c
        rw [eventsOf, events, hflushed] at hc
        simp only [ConcurrentQueue.flush_eq, eventsOf, events, List.append_nil]
        exact hc
  | forget c order rest r manager hlock hevent hstep =>
      refine (hs.handle s.mOnBinderDiedContexts hevent (fun pending hc => ?_)
        fun _ _ => Iff.rfl).congr rfl rfl rfl rfl
      generalize s.links c = link at hc ⊢
      cases hc with
      | died h => exact .unlinking h
      | diedAndUnlinked h => exact .unlinked h
  | onBinderUnlinkedWithContext c rest hlock hevent =>
      refine (hs.handle (s.mOnBinderDiedContexts.erase c) hevent (fun pending hc => ?_)
        fun d hd => by rw [Finset.mem_erase, and_iff_right hd]).congr rfl rfl rfl rfl
      generalize s.links c = link at hc ⊢
      cases hc with
      | unlinked h => exact .unmonitored (Finset.notMem_erase c _)

end Monitoring

end VhalCore.VehicleHal
