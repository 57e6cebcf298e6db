import VhalCore.Core.Outcomes
import VhalCore.Models.EventQueue.Correctness.BatchDelivery
import VhalCore.Models.Subscription.Interpretation.Footprints

/-!
# The way of a property event to its clients

With a batching window, the values that the hardware reports go through a queue, whose consumer
hands them on in batches; without one, the thread of the hardware asks the manager itself. The
heartbeat never goes through the queue. While values are under way clients come and go.

Seen by one callback, nothing comes that the hardware has not reported, in another order or
twice, and nothing is missing of a pair that the callback holds all the time.
-/

namespace VhalCore.VehicleHal

open EventQueue Subscription SubscriptionManager

/-- `VehicleProperty::VHAL_HEARTBEAT`. -/
def vhalHeartbeat : Int := 0x0F33 + 0x10000000 + 0x01000000 + 0x00500000

/-- The service as far as property events pass through it. -/
structure EventPipeline where
  mEventBatchingWindow : Int
  mSubscriptionManager : SubscriptionManager := {}
  /-- `mBatchedEventQueue` with `mPropertyChangeEventsBatchingConsumer`. -/
  mBatchedEvents : BatchingSystem VehiclePropValue := {}

namespace EventPipeline

/-- Puts some values into the queue. -/
def batchPropertyChangeEvent (updatedValues : List VehiclePropValue) (s : EventPipeline) :
    EventPipeline :=
  { s with
    mBatchedEvents := { s.mBatchedEvents with
      queue := s.mBatchedEvents.queue.pushVector updatedValues } }

/-- The values for each callback, for which `sendUpdatedValues` is called. -/
def onPropertyChangeEvent (updatedValues : List VehiclePropValue) (order : Traversal ClientIdType)
    (s : EventPipeline) : Option (ClientEvents VehiclePropValue × EventPipeline) :=
  (getSubscribedClients updatedValues order s.mSubscriptionManager).map fun (sent, manager) =>
    (sent, { s with mSubscriptionManager := manager })

end EventPipeline

/-- The value that `checkHealth` reports. -/
def heartbeat (uptimeMillis : Int) : VehiclePropValue where
  areaId := 0
  prop := vhalHeartbeat
  status := .available
  value := { int64Values := [uptimeMillis] }

/-- What happens in a step. -/
inductive PipelineEvent where
  | queue (event : QueueEvent VehiclePropValue)
  | handleBatched (batch : List VehiclePropValue) (sent : ClientEvents VehiclePropValue)
  | onPropertyChange (updatedValues : List VehiclePropValue) (sent : ClientEvents VehiclePropValue)
  | checkHealth (uptimeMillis : Int) (sent : ClientEvents VehiclePropValue)
  | unhealthy (status : StatusCode)
  | manage (op : Operation) (result : VhalResult)

/-- The call that hands on values. -/
def IsDelivery : Operation → Prop
  | .getSubscribedClients _ _ => True
  | _ => False

/-- One step. The steps of the queue that deliver nothing are taken by the hardware, by the
consumer or by the end of the service. -/
inductive PipelineStep (hw : Nat → StatusCode) (lib : MathLibrary) :
    EventPipeline → PipelineEvent → EventPipeline → Prop
  | batch (s : EventPipeline) (updatedValues : List VehiclePropValue)
      (hwindow : s.mEventBatchingWindow ≠ 0) :
      PipelineStep hw lib s
        (.queue (.pushVector updatedValues s.mBatchedEvents.queue.mIsActive))
        (s.batchPropertyChangeEvent updatedValues)
  | queue (s : EventPipeline) (event : QueueEvent VehiclePropValue)
      (batching : BatchingSystem VehiclePropValue) (hwindow : s.mEventBatchingWindow ≠ 0)
      (hstep : BatchingStep s.mBatchedEvents event batching) (hpush : event.accepted = [])
      (hbatch : event.batches = []) :
      PipelineStep hw lib s (.queue event) { s with mBatchedEvents := batching }
  | handleBatched (s t : EventPipeline) (batch : List VehiclePropValue)
      (batching : BatchingSystem VehiclePropValue) (order : Traversal ClientIdType)
      (sent : ClientEvents VehiclePropValue) (hwindow : s.mEventBatchingWindow ≠ 0)
      (hstep : BatchingStep s.mBatchedEvents (.onBatchReceived batch) batching)
      (hsent : s.onPropertyChangeEvent batch order = some (sent, t)) :
      PipelineStep hw lib s (.handleBatched batch sent) { t with mBatchedEvents := batching }
  | onPropertyChange (s t : EventPipeline) (updatedValues : List VehiclePropValue)
      (order : Traversal ClientIdType) (sent : ClientEvents VehiclePropValue)
      (hwindow : s.mEventBatchingWindow = 0)
      (hsent : s.onPropertyChangeEvent updatedValues order = some (sent, t)) :
      PipelineStep hw lib s (.onPropertyChange updatedValues sent) t
  | checkHealth (s t : EventPipeline) (uptimeMillis : Int) (order : Traversal ClientIdType)
      (sent : ClientEvents VehiclePropValue)
      (hsent : s.onPropertyChangeEvent [heartbeat uptimeMillis] order = some (sent, t)) :
      PipelineStep hw lib s (.checkHealth uptimeMillis sent) t
  | unhealthy (s : EventPipeline) (status : StatusCode) (hstatus : status ≠ .ok) :
      PipelineStep hw lib s (.unhealthy status) s
  | manage (s : EventPipeline) (op : Operation) (r : VhalResult) (manager : SubscriptionManager)
      (hop : ¬IsDelivery op)
      (hstep : s.mSubscriptionManager.step hw lib op = some (r, manager)) :
      PipelineStep hw lib s (.manage op r) { s with mSubscriptionManager := manager }

namespace PipelineEvent

/-- What a step is to the queue. -/
def queueEvents : PipelineEvent → List (QueueEvent VehiclePropValue)
  | .queue event => [event]
  | .handleBatched batch _ => [.onBatchReceived batch]
  | _ => []

/-- The values that a step hands on to the clients. -/
def handedOn : PipelineEvent → List VehiclePropValue
  | .handleBatched batch _ => batch
  | .onPropertyChange updatedValues _ => updatedValues
  | .checkHealth uptimeMillis _ => [heartbeat uptimeMillis]
  | _ => []

/-- What a callback is given in a step. -/
def given (k : CallbackType) : PipelineEvent → List VehiclePropValue
  | .handleBatched _ sent | .onPropertyChange _ sent | .checkHealth _ sent => sent.valueAt k []
  | _ => []

/-- What a callback is given in a step of what the hardware has reported. -/
def received (k : CallbackType) : PipelineEvent → List VehiclePropValue
  | .handleBatched _ sent | .onPropertyChange _ sent => sent.valueAt k []
  | _ => []

end PipelineEvent

/-- The values that the queue has accepted in a run. -/
def queued (events : List PipelineEvent) : List VehiclePropValue :=
  accepted (events.flatMap PipelineEvent.queueEvents)

/-- What a callback has been given in a run. -/
def given (k : CallbackType) (events : List PipelineEvent) : List VehiclePropValue :=
  events.flatMap (PipelineEvent.given k)

/-- What a callback has been given in a run of what the hardware has reported. -/
def received (k : CallbackType) (events : List PipelineEvent) : List VehiclePropValue :=
  events.flatMap (PipelineEvent.received k)

/-- A client has subscribed to a pair in a run, with a config if the property is continuous. -/
def AskedFor (events : List PipelineEvent) (p : PropIdAreaId) (c : ClientIdType)
    (config : Option SubConfig) : Prop :=
  ∃ op r, PipelineEvent.manage op r ∈ events ∧ op.AsksFor p c config

/-- A number as it was, or the multiple of the resolution that float arithmetic finds next to
it. -/
def RoundedNumber {T : Type} (resolution : Binary32) (toFloat : T → Binary32)
    (ofFloat : Binary32 → Option T) (given x : T) : Prop :=
  if resolution.eq .zero then given = x
  else ofFloat ((Binary32.round ((toFloat x).div resolution)).mul resolution) = some given

/-- A value with its numbers rounded to a resolution, and otherwise as it was. -/
structure RoundedValue (resolution : Binary32) (given v : VehiclePropValue) : Prop where
  prop : given.prop = v.prop
  areaId : given.areaId = v.areaId
  status : given.status = v.status
  timestamp : given.timestamp = v.timestamp
  stringValue : given.value.stringValue = v.value.stringValue
  byteValues : given.value.byteValues = v.value.byteValues
  int32Values : List.Forall₂ (RoundedNumber resolution Binary32.ofInt
    (Binary32.toInt (-2 ^ 31) (2 ^ 31 - 1))) given.value.int32Values v.value.int32Values
  int64Values : List.Forall₂ (RoundedNumber resolution Binary32.ofInt
    (Binary32.toInt (-2 ^ 63) (2 ^ 63 - 1))) given.value.int64Values v.value.int64Values
  floatValues : List.Forall₂ (RoundedNumber resolution id some) given.value.floatValues
    v.value.floatValues

/-- A value that a callback is given is a reported one, rounded to a resolution with which the
client has subscribed to the pair. -/
def RoundedFor (events : List PipelineEvent) (k : CallbackType) (given v : VehiclePropValue) :
    Prop :=
  ∃ config, AskedFor events v.propIdAreaId k.asBinder config ∧
    RoundedValue (resolutionOf config) given v

section Delivery

variable {s : SubscriptionManager} {k : CallbackType} {p : PropIdAreaId} {resolution : Binary32}

/-- Related sublists may be appended. -/
theorem sublistForall₂_append {α β : Type} {R : α → β → Prop} {xs xs' : List α} {ys ys' : List β}
    (h : List.SublistForall₂ R xs ys) (h' : List.SublistForall₂ R xs' ys') :
    List.SublistForall₂ R (xs ++ xs') (ys ++ ys') := by
  obtain ⟨zs, hzs, hsub⟩ := List.sublistForall₂_iff.mp h
  obtain ⟨zs', hzs', hsub'⟩ := List.sublistForall₂_iff.mp h'
  exact List.sublistForall₂_iff.mpr ⟨zs ++ zs', List.rel_append hzs hzs', hsub.append hsub'⟩

theorem sublistForall₂_of_sublist {α β : Type} {R : α → β → Prop} {xs : List α} {ys zs : List β}
    (h : List.SublistForall₂ R xs ys) (hsub : ys.Sublist zs) : List.SublistForall₂ R xs zs := by
  obtain ⟨us, hus, husub⟩ := List.sublistForall₂_iff.mp h
  exact List.sublistForall₂_iff.mpr ⟨us, hus, husub.trans hsub⟩

/-- An element of a related sublist has a related one. -/
theorem exists_of_mem_sublistForall₂ {α β : Type} {R : α → β → Prop} {xs : List α} {ys : List β}
    (h : List.SublistForall₂ R xs ys) {x : α} (hx : x ∈ xs) : ∃ y ∈ ys, R x y := by
  induction h with
  | nil => exact absurd hx List.not_mem_nil
  | @cons z y zs ys hzy _ ih =>
      rcases List.mem_cons.mp hx with rfl | hx
      · exact ⟨y, List.mem_cons_self .., hzy⟩
      · obtain ⟨w, hw, hxw⟩ := ih hx
        exact ⟨w, List.mem_cons_of_mem _ hw, hxw⟩
  | cons_right _ ih =>
      obtain ⟨w, hw, hxw⟩ := ih hx
      exact ⟨w, List.mem_cons_of_mem _ hw, hxw⟩

/-- Rounding gives rounded numbers. -/
theorem roundedNumber_of_roundToNearestResolution {T : Type} {toFloat : T → Binary32}
    {ofFloat : Binary32 → Option T} {xs ys : List T}
    (h : roundToNearestResolution toFloat ofFloat xs resolution = some ys) :
    List.Forall₂ (RoundedNumber resolution toFloat ofFloat) ys xs := by
  rw [roundToNearestResolution] at h
  split at h
  · next hzero =>
    cases h
    refine List.forall₂_same.mpr fun x _ => ?_
    rw [RoundedNumber, if_pos hzero]
  · next hzero =>
    refine (mapM_eq_some_iff.mp h).flip.imp fun y x hxy => ?_
    rwa [RoundedNumber, if_neg hzero]

/-- Where the rounding of a value is defined, it rounds the numbers and nothing else. -/
theorem roundedValue_rounded {v : VehiclePropValue}
    (h : (sanitizeByResolution v.value resolution).isSome) :
    RoundedValue resolution (v.rounded resolution) v := by
  obtain ⟨value, hvalue⟩ := Option.isSome_iff_exists.mp h
  have hrounded : v.rounded resolution = { v with value } := by
    rw [VehiclePropValue.rounded, hvalue, Option.getD_some]
  obtain ⟨int32Values, hint32, hrest⟩ := Option.bind_eq_some_iff.mp hvalue
  obtain ⟨floatValues, hfloat, hrest⟩ := Option.bind_eq_some_iff.mp hrest
  obtain ⟨int64Values, hint64, hrest⟩ := Option.bind_eq_some_iff.mp hrest
  cases hrest
  rw [hrounded]
  exact ⟨rfl, rfl, rfl, rfl, rfl, rfl, roundedNumber_of_roundToNearestResolution hint32,
    roundedNumber_of_roundToNearestResolution hint64,
    roundedNumber_of_roundToNearestResolution hfloat⟩

/-- A callback is given some of the values, in their order, each as `R` says. -/
theorem receiveValue_foldl_sublist {R : VehiclePropValue → VehiclePropValue → Prop}
    {values : List VehiclePropValue}
    (hR : ∀ v ∈ values, s.client v.propIdAreaId k.asBinder = some k →
      R (v.rounded ((s.configAt v.propIdAreaId).getResolutionForClient k.asBinder)) v)
    (box : Inbox) :
    ∃ given, (values.foldl (s.receiveValue k) box).values = box.values ++ given ∧
      List.SublistForall₂ R given values := by
  induction values generalizing box with
  | nil => exact ⟨[], (List.append_nil _).symm, .nil⟩
  | cons v values ih =>
      obtain ⟨given, heq, hsub⟩ := ih (fun w hw => hR w (List.mem_cons_of_mem _ hw))
        (s.receiveValue k box v)
      rw [List.foldl_cons, heq, receiveValue]
      split
      · next hclient =>
        have hv := hR v (List.mem_cons_self ..) hclient
        rw [Inbox.receive]
        split
        · simp only
          split
          · exact ⟨_ :: given, List.append_assoc .., hsub.cons hv⟩
          · exact ⟨given, rfl, hsub.cons_right⟩
        · exact ⟨_ :: given, List.append_assoc .., hsub.cons hv⟩
      · exact ⟨given, rfl, hsub.cons_right⟩

/-- A callback holds a pair and is given every value of it, rounded to one resolution. -/
structure Serves (s : SubscriptionManager) (k : CallbackType) (p : PropIdAreaId)
    (resolution : Binary32) : Prop where
  client : s.client p k.asBinder = some k
  resolution : (s.configAt p).getResolutionForClient k.asBinder = resolution
  unfiltered : s.filtersFor p k.asBinder = false

/-- Of a pair that is served a callback is given every value. -/
theorem Serves.filter_receiveValue (h : Serves s k p resolution) (values : List VehiclePropValue)
    (box : Inbox) :
    (values.foldl (s.receiveValue k) box).values.filter (fun v => v.propIdAreaId = p) =
      box.values.filter (fun v => v.propIdAreaId = p) ++
        (values.filter fun v => v.propIdAreaId = p).map fun v => v.rounded resolution := by
  induction values generalizing box with
  | nil => exact (List.append_nil _).symm
  | cons v values ih =>
      rw [List.foldl_cons, ih]
      by_cases hv : v.propIdAreaId = p
      · have hreceive : s.receiveValue k box v =
            { box with values := box.values ++ [v.rounded resolution] } := by
          rw [receiveValue, hv, if_pos h.client, Inbox.receive, h.unfiltered, h.resolution]
          rfl
        have hrounded : (v.rounded resolution).propIdAreaId = p := hv
        rw [hreceive]
        simp [hv, hrounded]
      · have hother : (s.receiveValue k box v).values.filter (fun v => v.propIdAreaId = p) =
            box.values.filter (fun v => v.propIdAreaId = p) := by
          have hrounded (r : Binary32) : (v.rounded r).propIdAreaId ≠ p := hv
          rw [receiveValue]
          split
          · rw [Inbox.receive]
            split
            · simp only
              split
              · simp [hrounded]
              · rfl
            · simp [hrounded]
          · rfl
        rw [hother, List.filter_cons_of_neg (by simpa using hv)]

end Delivery

section Run

variable {hw : Nat → StatusCode} {lib : MathLibrary} {s t : EventPipeline}
  {events : List PipelineEvent}

/-- A delivery changes the subscription manager only. -/
theorem onPropertyChangeEvent_eq_some {updatedValues : List VehiclePropValue}
    {order : Traversal ClientIdType} {sent : ClientEvents VehiclePropValue}
    (h : s.onPropertyChangeEvent updatedValues order = some (sent, t)) :
    ∃ manager, getSubscribedClients updatedValues order s.mSubscriptionManager =
      some (sent, manager) ∧ t = { s with mSubscriptionManager := manager } := by
  obtain ⟨⟨sent', manager⟩, hmanager, heq⟩ := Option.map_eq_some_iff.mp h
  cases heq
  exact ⟨manager, hmanager, rfl⟩

/-- A run of the service is a run of its queue. -/
theorem path_queue (h : Path (PipelineStep hw lib) s events t) :
    Path BatchingStep s.mBatchedEvents (events.flatMap PipelineEvent.queueEvents)
      t.mBatchedEvents := by
  induction h with
  | nil => exact .nil _
  | snoc _ hstep ih =>
      rw [List.flatMap_append]
      refine ih.trans ?_
      cases hstep with
      | batch updatedValues => exact .single (.pushVector updatedValues)
      | queue event batching _ hqueue => exact .single hqueue
      | handleBatched u batch batching order sent _ hqueue => exact .single hqueue
      | onPropertyChange _ _ _ _ _ hsent | checkHealth _ _ _ _ hsent =>
          obtain ⟨manager, _, rfl⟩ := onPropertyChangeEvent_eq_some hsent
          exact .nil _
      | unhealthy => exact .nil _
      | manage => exact .nil _

/-- The manager changes only by its own calls, of which a delivery is one. -/
theorem PipelineStep.manager {e : PipelineEvent} (h : PipelineStep hw lib s e t) :
    t.mSubscriptionManager = s.mSubscriptionManager ∨ ∃ op r,
      s.mSubscriptionManager.step hw lib op = some (r, t.mSubscriptionManager) ∧
        (IsDelivery op ∨ e = .manage op r) := by
  have hdeliver {updatedValues : List VehiclePropValue} {order : Traversal ClientIdType}
      {sent : ClientEvents VehiclePropValue} {u : EventPipeline}
      (hsent : s.onPropertyChangeEvent updatedValues order = some (sent, u)) : ∃ op r,
        s.mSubscriptionManager.step hw lib op = some (r, u.mSubscriptionManager) ∧
          (IsDelivery op ∨ e = .manage op r) := by
    obtain ⟨manager, hmanager, rfl⟩ := onPropertyChangeEvent_eq_some hsent
    refine ⟨.getSubscribedClients updatedValues order, .ok (), ?_, Or.inl trivial⟩
    rw [step, hmanager]
    rfl
  cases h with
  | batch | queue | unhealthy => exact Or.inl rfl
  | handleBatched u batch batching order sent _ _ hsent => exact Or.inr (hdeliver (u := u) hsent)
  | onPropertyChange _ _ _ _ _ hsent | checkHealth _ _ _ _ hsent => exact Or.inr (hdeliver hsent)
  | manage op r manager _ hstep => exact Or.inr ⟨op, r, hstep, Or.inr rfl⟩

/-- The batching window is that of the start. -/
theorem PipelineStep.window {e : PipelineEvent} (h : PipelineStep hw lib s e t) :
    t.mEventBatchingWindow = s.mEventBatchingWindow := by
  have hdeliver {updatedValues : List VehiclePropValue} {order : Traversal ClientIdType}
      {sent : ClientEvents VehiclePropValue} {u : EventPipeline}
      (hsent : s.onPropertyChangeEvent updatedValues order = some (sent, u)) :
      u.mEventBatchingWindow = s.mEventBatchingWindow := by
    obtain ⟨manager, _, rfl⟩ := onPropertyChangeEvent_eq_some hsent
    rfl
  cases h with
  | batch | queue | unhealthy | manage => rfl
  | handleBatched u batch batching order sent _ _ hsent => exact hdeliver (u := u) hsent
  | onPropertyChange _ _ _ _ _ hsent | checkHealth _ _ _ _ hsent => exact hdeliver hsent

/-- What is known of the service in a run of which `events` are all the events: the window, and
that what is registered for a client is what the client has asked for. -/
structure Serving (window : Int) (events : List PipelineEvent) (s : EventPipeline) : Prop where
  window : s.mEventBatchingWindow = window
  found : FoundByClient s.mSubscriptionManager
  asked : ∀ p, (s.mSubscriptionManager.pairState p).AsAsked (AskedFor events p)

/-- A service that has just been created. -/
def EventPipeline.start (mEventBatchingWindow : Int) : EventPipeline := { mEventBatchingWindow }

/-- A new pipeline serves no one. -/
theorem serving_start (window : Int) (events : List PipelineEvent) :
    Serving window events (.start window) where
  window := rfl
  found := foundByClient_empty
  asked _ :=
    { config := fun c config hc => absurd hc (by simp [PairState.clientConfig, pairState,
        EventPipeline.start])
      client := fun c hc => absurd rfl hc }

/-- Every step keeps the pipeline serving. -/
theorem PipelineStep.serving {window : Int} {e : PipelineEvent} (h : PipelineStep hw lib s e t)
    (he : e ∈ events) (hs : Serving window events s) : Serving window events t := by
  refine ⟨h.window.trans hs.window, ?_, ?_⟩
  · rcases h.manager with heq | ⟨op, r, hstep, _⟩
    · rw [heq]
      exact hs.found
    · obtain ⟨acts, heff⟩ := step_effect hw hstep
      exact heff.foundByClient hs.found
  · intro p
    rcases h.manager with heq | ⟨op, r, hstep, hop⟩
    · rw [heq]
      exact hs.asked p
    · obtain ⟨acts, heff⟩ := step_effect hw hstep
      refine heff.asAsked (hs.asked p) fun c config hasks => ?_
      rcases hop with hdelivery | rfl
      · obtain ⟨callback, options, isContinuousProperty, rfl, _⟩ := hasks
        exact absurd hdelivery id
      · exact ⟨op, r, he, hasks⟩

/-- The pipeline serves in every run. -/
theorem serving_of_path {window : Int} {before : List PipelineEvent}
    (h : Path (PipelineStep hw lib) (.start window) before s) (hevents : before ⊆ events) :
    Serving window events s := by
  induction h with
  | nil => exact serving_start window events
  | snoc _ hstep ih =>
      refine hstep.serving (hevents (List.mem_append_right _ (List.mem_singleton_self _))) ?_
      exact ih fun e he => hevents (List.mem_append_left _ he)

/-- What a callback is given of values that are handed on. -/
theorem sent_of_onPropertyChangeEvent {updatedValues : List VehiclePropValue}
    {order : Traversal ClientIdType} {sent : ClientEvents VehiclePropValue}
    (hs : FoundByClient s.mSubscriptionManager)
    (hsent : s.onPropertyChangeEvent updatedValues order = some (sent, t)) (k : CallbackType) :
    sent.valueAt k [] = (updatedValues.foldl (s.mSubscriptionManager.receiveValue k)
      ⟨[], s.mSubscriptionManager.remembered k⟩).values := by
  obtain ⟨manager, hmanager, _⟩ := onPropertyChangeEvent_eq_some hsent
  exact congrArg Inbox.values (inbox_getSubscribedClients hs.keyed hmanager k)

/-- It is part of these values, each rounded as the client has asked for. -/
theorem Serving.sent {window : Int} {updatedValues : List VehiclePropValue}
    {order : Traversal ClientIdType} {sent : ClientEvents VehiclePropValue}
    (hs : Serving window events s)
    (hsent : s.onPropertyChangeEvent updatedValues order = some (sent, t)) (k : CallbackType) :
    List.SublistForall₂ (RoundedFor events k) (sent.valueAt k []) updatedValues := by
  obtain ⟨manager, hmanager, _⟩ := onPropertyChangeEvent_eq_some hsent
  have hrounded : ∀ v ∈ updatedValues,
      s.mSubscriptionManager.client v.propIdAreaId k.asBinder = some k →
        RoundedFor events k (v.rounded ((s.mSubscriptionManager.configAt
          v.propIdAreaId).getResolutionForClient k.asBinder)) v := by
    intro v hv hclient
    have hdefined := rounding_of_getSubscribedClients hmanager hv hclient
    obtain ⟨config, hasked, hresolution, _⟩ := resolution_asked (hs.asked v.propIdAreaId)
      (hclient ▸ Option.some_ne_none k)
    rw [hresolution] at hdefined ⊢
    exact ⟨config, hasked, roundedValue_rounded hdefined⟩
  obtain ⟨given, heq, hsub⟩ := receiveValue_foldl_sublist hrounded
    ⟨[], s.mSubscriptionManager.remembered k⟩
  rw [sent_of_onPropertyChangeEvent hs.found hsent k, heq, List.nil_append]
  exact hsub

/-- What a callback is given in a step is part of what the step hands on. -/
theorem PipelineStep.given_sublist {window : Int} {e : PipelineEvent}
    (h : PipelineStep hw lib s e t) (hs : Serving window events s) (k : CallbackType) :
    List.SublistForall₂ (RoundedFor events k) (e.given k) e.handedOn := by
  cases h with
  | handleBatched u batch batching order sent _ _ hsent => exact hs.sent hsent k
  | onPropertyChange _ _ _ _ _ hsent | checkHealth _ _ _ _ hsent => exact hs.sent hsent k
  | _ => exact .nil

/-- With a batching window, what a callback is given of reported values is part of what the queue
delivers. -/
theorem PipelineStep.received_sublist {window : Int} {e : PipelineEvent}
    (h : PipelineStep hw lib s e t) (hs : Serving window events s) (hwindow : window ≠ 0)
    (k : CallbackType) :
    List.SublistForall₂ (RoundedFor events k) (e.received k) (batches e.queueEvents).flatten := by
  cases h with
  | handleBatched u batch batching order sent _ hstep hsent =>
      have hbatch : (batches (PipelineEvent.queueEvents (.handleBatched batch sent))).flatten =
          batch := by
        simp [batches, PipelineEvent.queueEvents]
      rw [hbatch]
      exact hs.sent hsent k
  | onPropertyChange _ _ _ _ hnone => exact absurd (hs.window.symm.trans hnone) hwindow
  | _ => exact .nil

/-- What a callback is given in a step is part of what the step hands on, each value at most once,
in order, and changed only by rounding it as the client has asked for. Where there is a batching
window, all that comes from the hardware is likewise part of what the queue has accepted. -/
theorem received_sublist_queued {window : Int}
    (h : Path (PipelineStep hw lib) (.start window) events s) (k : CallbackType) :
    (∀ e ∈ events, List.SublistForall₂ (RoundedFor events k) (e.given k) e.handedOn) ∧
      (window ≠ 0 → List.SublistForall₂ (RoundedFor events k) (received k events)
        (queued events)) := by
  have hsteps {before : List PipelineEvent} {u : EventPipeline}
      (hpath : Path (PipelineStep hw lib) (.start window) before u) (hall : before ⊆ events) :
      (∀ e ∈ before, List.SublistForall₂ (RoundedFor events k) (e.given k) e.handedOn) ∧
        (window ≠ 0 → List.SublistForall₂ (RoundedFor events k) (received k before)
          (batches (before.flatMap PipelineEvent.queueEvents)).flatten) := by
    induction hpath with
    | nil => exact ⟨fun e he => absurd he List.not_mem_nil, fun _ => .nil⟩
    | @snoc u v before e hpath hstep ih =>
        have hbefore : before ⊆ events := fun e he => hall (List.mem_append_left _ he)
        have hs : Serving window events u := serving_of_path hpath hbefore
        obtain ⟨hgiven, hreceived⟩ := ih hbefore
        refine ⟨fun e' he' => ?_, fun hwindow => ?_⟩
        · rcases List.mem_append.mp he' with he' | he'
          · exact hgiven e' he'
          · rw [List.mem_singleton.mp he']
            exact hstep.given_sublist hs k
        · rw [received, List.flatMap_append, List.flatMap_append, batches_append,
            List.flatten_append]
          refine sublistForall₂_append (hreceived hwindow) ?_
          simpa only [List.flatMap_cons, List.flatMap_nil, List.append_nil] using
            hstep.received_sublist hs hwindow k
  obtain ⟨hgiven, hreceived⟩ := hsteps h (List.Subset.refl _)
  have hdelivered := (batches_deliver (path_queue h)).inOrder
  exact ⟨hgiven, fun hwindow => sublistForall₂_of_sublist (hreceived hwindow)
    hdelivered.sublist⟩

/-- A callback holds a pair whenever reported values are handed on. -/
def HoldsPair (k : CallbackType) (p : PropIdAreaId) (s : EventPipeline) : PipelineEvent → Prop
  | .handleBatched _ _ => s.mSubscriptionManager.client p k.asBinder = some k
  | _ => True

/-- All subscriptions of a client to a pair ask for one resolution, and not for the variable update
rate. -/
def AsksForAll (events : List PipelineEvent) (p : PropIdAreaId) (c : ClientIdType)
    (resolution : Binary32) : Prop :=
  ∀ config, AskedFor events p c config →
    resolutionOf config = resolution ∧ ∀ asked, config = some asked → asked.enableVur = false

/-- If the callback holds a pair in a step, it is given all of that pair that the queue delivers,
and nothing else of the pair. -/
theorem PipelineStep.given_filter {window : Int} {e : PipelineEvent} {k : CallbackType}
    {p : PropIdAreaId} {resolution : Binary32} (h : PipelineStep hw lib s e t)
    (hs : Serving window events s) (hwindow : window ≠ 0) (hp : p ≠ ⟨vhalHeartbeat, 0⟩)
    (hasked : AsksForAll events p k.asBinder resolution) (hholds : HoldsPair k p s e) :
    List.Forall₂ (RoundedValue resolution) ((e.given k).filter fun v => v.propIdAreaId = p)
      ((batches e.queueEvents).flatten.filter fun v => v.propIdAreaId = p) := by
  cases h with
  | batch => exact .nil
  | queue event batching _ hstep hpush hbatch =>
      have hnone : batches (PipelineEvent.queueEvents (.queue event)) = [] := by
        rw [PipelineEvent.queueEvents, batches, List.flatMap_cons, hbatch]
        rfl
      rw [hnone]
      exact .nil
  | handleBatched u batch batching order sent _ hstep hsent =>
      have hclient : s.mSubscriptionManager.client p k.asBinder = some k := hholds
      obtain ⟨config, hconfig, hresolution, hunfiltered⟩ := resolution_asked (hs.asked p)
        (hclient ▸ Option.some_ne_none k)
      obtain ⟨rfl, hvur⟩ := hasked config hconfig
      have hserves : Serves s.mSubscriptionManager k p (resolutionOf config) :=
        ⟨hclient, hresolution, hunfiltered hvur⟩
      have hbatch : (batches (PipelineEvent.queueEvents (.handleBatched batch sent))).flatten =
          batch := by
        simp [batches, PipelineEvent.queueEvents]
      rw [hbatch, PipelineEvent.given, sent_of_onPropertyChangeEvent hs.found hsent k,
        hserves.filter_receiveValue]
      refine List.forall₂_map_left_iff.mpr (List.forall₂_same.mpr fun v hv => ?_)
      obtain ⟨hmem, hpair⟩ := List.mem_filter.mp hv
      have hpair : v.propIdAreaId = p := of_decide_eq_true hpair
      obtain ⟨manager, hmanager, _⟩ := onPropertyChangeEvent_eq_some hsent
      have hdefined := rounding_of_getSubscribedClients hmanager hmem (hpair ▸ hclient)
      rw [hpair, hresolution] at hdefined
      exact roundedValue_rounded hdefined
  | onPropertyChange _ _ _ _ hnone => exact absurd (hs.window.symm.trans hnone) hwindow
  | checkHealth _ uptimeMillis order sent hsent =>
      have hnone : (sent.valueAt k []).filter (fun v => v.propIdAreaId = p) = [] := by
        refine List.filter_eq_nil_iff.mpr fun v hv hpair => hp ?_
        obtain ⟨w, hw, config, _, hrounded⟩ := exists_of_mem_sublistForall₂ (hs.sent hsent k) hv
        have hbeat := List.mem_singleton.mp hw
        rw [← of_decide_eq_true hpair, VehiclePropValue.propIdAreaId, hrounded.prop,
          hrounded.areaId, hbeat]
        rfl
      rw [PipelineEvent.given, hnone]
      exact .nil
  | unhealthy | manage => exact .nil

/-- Of a pair that a callback holds all the time, for which its client asks always for one
resolution and never for the variable update rate, the callback is given every accepted value up to
some point, in order and rounded, and nothing else; and all of them when the queue is drained. -/
theorem received_of_served {window : Int} {k : CallbackType} {p : PropIdAreaId}
    {resolution : Binary32} (hwindow : window ≠ 0) (hp : p ≠ ⟨vhalHeartbeat, 0⟩)
    (h : Path (fun s e t => PipelineStep hw lib s e t ∧ HoldsPair k p s e)
      (.start window) events s)
    (hasked : AsksForAll events p k.asBinder resolution) :
    ∃ due, due <+: (queued events).filter (fun v => v.propIdAreaId = p) ∧
      List.Forall₂ (RoundedValue resolution)
        ((given k events).filter fun v => v.propIdAreaId = p) due ∧
      (s.mBatchedEvents.worker.inHand = [] → s.mBatchedEvents.queue.mQueue = [] →
        due = (queued events).filter fun v => v.propIdAreaId = p) := by
  have hpath : Path (PipelineStep hw lib) (.start window) events s := h.mono fun _ _ _ hr => hr.1
  have hgiven {before : List PipelineEvent} {u : EventPipeline}
      (hpath : Path (fun s e t => PipelineStep hw lib s e t ∧ HoldsPair k p s e)
        (.start window) before u) (hall : before ⊆ events) :
      List.Forall₂ (RoundedValue resolution) ((given k before).filter fun v => v.propIdAreaId = p)
        ((batches (before.flatMap PipelineEvent.queueEvents)).flatten.filter
          fun v => v.propIdAreaId = p) := by
    induction hpath with
    | nil => exact .nil
    | @snoc u v before e hpath hstep ih =>
        have hbefore : before ⊆ events := fun e he => hall (List.mem_append_left _ he)
        have hs : Serving window events u :=
          serving_of_path (hpath.mono fun _ _ _ hr => hr.1) hbefore
        have hlast := hstep.1.given_filter hs hwindow hp hasked hstep.2
        rw [given, List.flatMap_append, List.filter_append, List.flatMap_append, batches_append,
          List.flatten_append, List.filter_append]
        refine List.rel_append (ih hbefore) ?_
        simpa only [List.flatMap_cons, List.flatMap_nil, List.append_nil] using hlast
  have hconserved := (tracked_of_path (path_queue hpath)).conserved
  refine ⟨_, ?_, hgiven h (List.Subset.refl _), fun hhand hqueue => ?_⟩
  · rw [queued, hconserved, List.filter_append]
    exact List.prefix_append _ _
  · rw [queued, hconserved, hhand, hqueue, List.append_nil, List.append_nil]

/-- The subscription of the run below: a continuous pair in whole numbers. -/
def subscribeInWholes : Operation :=
  .subscribe ⟨0, 1⟩ [⟨1, [0], .ofInt 1, .ofInt 1, false⟩] true

/-- The manager after this subscription. -/
def subscribedInWholes : SubscriptionManager :=
  ((({} : SubscriptionManager).step (fun _ => .ok) default subscribeInWholes).map Prod.snd).getD {}

/-- A client subscribes to a pair, and two values of it are reported beside one of another pair. -/
theorem exists_run_served : ∃ events s,
    Path (fun s e t => PipelineStep (fun _ => .ok) default s e t ∧ HoldsPair ⟨0, 1⟩ ⟨1, 0⟩ s e)
      (.start 1) events s ∧
      (∀ op r, PipelineEvent.manage op r ∈ events → op = subscribeInWholes) ∧
      given ⟨0, 1⟩ events = [{ prop := 1, value := { floatValues := [.ofInt 3] } }, { prop := 1 }] ∧
      s.mBatchedEvents.worker.inHand = [] ∧ s.mBatchedEvents.queue.mQueue = [] := by
  have hsubscribed := (Path.nil (R := fun s e t => PipelineStep (fun _ => .ok) default s e t ∧
    HoldsPair ⟨0, 1⟩ ⟨1, 0⟩ s e) (.start 1)).snoc
    ⟨.manage _ subscribeInWholes (.ok ()) subscribedInWholes id rfl, trivial⟩
  have hreported := hsubscribed.snoc ⟨.batch _ [{ prop := 1, value := { floatValues :=
    [(Binary32.ofInt 5).div (.ofInt 2)] } }, { prop := 2 }, { prop := 1 }] (by decide), trivial⟩
  have hrun := hreported.snoc ⟨.queue _ .run _ (by decide) (.run rfl) rfl rfl, trivial⟩
  have hexchanged := hrun.snoc ⟨.queue _ _ _ (by decide) (.runInternal rfl) rfl rfl, trivial⟩
  have hloop := hexchanged.snoc ⟨.queue _ _ _ (by decide) (.runInternal rfl) rfl rfl, trivial⟩
  have hwaited := hloop.snoc ⟨.queue _ _ _ (by decide) (.runInternal rfl) rfl rfl, trivial⟩
  have hchecked := hwaited.snoc ⟨.queue _ _ _ (by decide) (.runInternal rfl) rfl rfl, trivial⟩
  have hslept := hchecked.snoc ⟨.queue _ _ _ (by decide) (.runInternal rfl) rfl rfl, trivial⟩
  have hagain := hslept.snoc ⟨.queue _ _ _ (by decide) (.runInternal rfl) rfl rfl, trivial⟩
  have hflushed := hagain.snoc ⟨.queue _ _ _ (by decide) (.runInternal rfl) rfl rfl, trivial⟩
  have hholds : subscribedInWholes.client ⟨1, 0⟩ 1 = some ⟨0, 1⟩ := by decide
  refine ⟨_, _, hflushed.snoc ⟨.handleBatched _ _ _ _ (.ascending _) _ (by decide)
    (.runInternal rfl) rfl, hholds⟩, ?_, by decide, rfl, rfl⟩
  intro op r hop
  simp only [List.nil_append, List.cons_append, List.mem_cons, List.not_mem_nil, or_false,
    PipelineEvent.manage.injEq, reduceCtorEq] at hop
  exact hop.1

/-- A client receives rounded values of the queue. -/
theorem received_sublist_of_served : ∃ events s,
    Path (PipelineStep (fun _ => .ok) default) (.start 1) events s ∧
      List.SublistForall₂ (RoundedFor events ⟨0, 1⟩) (received ⟨0, 1⟩ events) (queued events) := by
  obtain ⟨events, s, hrun, _⟩ := exists_run_served
  have hpath : Path (PipelineStep (fun _ => .ok) default) (.start 1) events s :=
    hrun.mono fun _ _ _ hr => hr.1
  exact ⟨events, s, hpath, (received_sublist_queued hpath _).2 (by decide)⟩

/-- A client receives all values that it is given. -/
theorem received_all_of_served : ∃ events s,
    Path (PipelineStep (fun _ => .ok) default) (.start 1) events s ∧
      given ⟨0, 1⟩ events = [{ prop := 1, value := { floatValues := [.ofInt 3] } }, { prop := 1 }] ∧
      List.Forall₂ (RoundedValue (.ofInt 1))
        ((given ⟨0, 1⟩ events).filter fun v => v.propIdAreaId = ⟨1, 0⟩)
        ((queued events).filter fun v => v.propIdAreaId = ⟨1, 0⟩) := by
  obtain ⟨events, s, hrun, hop, hgiven, hhand, hqueue⟩ := exists_run_served
  have hasked : AsksForAll events ⟨1, 0⟩ 1 (.ofInt 1) := by
    rintro config ⟨op, r, hmem, callback, options, isContinuousProperty, hsubscribe, _, option,
      hoption, _, _, rfl⟩
    cases (hop op r hmem).symm.trans hsubscribe
    cases List.mem_singleton.mp hoption
    exact ⟨rfl, fun asked hconfig => by cases hconfig; rfl⟩
  obtain ⟨due, _, hforall, hall⟩ := received_of_served (by decide) (by decide) hrun hasked
  rw [hall hhand hqueue] at hforall
  exact ⟨events, s, hrun.mono fun _ _ _ hr => hr.1, hgiven, hforall⟩

end Run

end VhalCore.VehicleHal
