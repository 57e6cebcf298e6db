import VhalCore.Core.Execution
import VhalCore.Models.Grpc.Native.GetValues

/-!
# The gateway

The gateway polls the configured properties of the local VHAL and forwards the changed values
to remote nodes. A node has groups of properties and a queue of batches. One thread polls and
puts batches into the queues, and each node has a worker that takes the batches and hands them
to `SetValues`.

A forwarder is owned by the gateway: it is destroyed only when no poll runs, and none follows.
The destructor sets the flag under the lock of the queue and waits for the worker.
-/

namespace VhalCore.Gateway

open Grpc (GetValueRequest GetValueResult)

/-- A property that a message carries. -/
structure GatewayProperty where
  id : Int
  desc : String := ""

/-- A named group of properties. -/
structure GatewayMessage where
  msgId : String
  properties : List GatewayProperty

/-- A node and the messages it is sent. -/
structure GatewayNodeConfig where
  ipaddr : String
  messages : List GatewayMessage

/-- The configuration of the gateway. -/
structure GatewayConfig where
  version : String := ""
  nodes : List GatewayNodeConfig

/-- An entry of the queue. The position of its group is for the reader, the code keeps the name
only. -/
structure ForwardBatch where
  msgId : String
  values : List VehiclePropValue
  group : Nat
  deriving DecidableEq

/-- A message and the identities of its properties. -/
structure MessageFilter where
  msgId : String
  propIds : Finset Int

/-- Where the worker is in its loop. -/
inductive Worker where
  | waiting
  | sending (batch : ForwardBatch)
  | exited
  deriving DecidableEq

/-- The reply to a call of `SetValues`: none if the call fails, else the status of each value. -/
abbrev Reply := Option (List Int)

/-- A forwarder, with the batches handed to `SetValues` so far and their replies. -/
structure NodeForwarder where
  mRemoteAddr : String
  mMessages : List MessageFilter
  mAllPropIds : Finset Int
  mQueue : List ForwardBatch := []
  mRunning : Bool := true
  mWorker : Worker := .waiting
  sent : List (ForwardBatch × Reply) := []

/-- The filter of a message. -/
def GatewayMessage.filter (msg : GatewayMessage) : MessageFilter :=
  ⟨msg.msgId, (msg.properties.map GatewayProperty.id).toFinset⟩

/-- The property ids of some groups. -/
def allPropIds (messages : List GatewayMessage) : Finset Int :=
  (messages.flatMap fun msg => msg.properties.map GatewayProperty.id).toFinset

namespace NodeForwarder

/-- The constructor. -/
def ofConfig (config : GatewayNodeConfig) : NodeForwarder where
  mRemoteAddr := config.ipaddr
  mMessages := config.messages.map GatewayMessage.filter
  mAllPropIds := allPropIds config.messages

/-- The batch of a group, if it has a matching value. -/
def batchOf (values : List VehiclePropValue) (entry : MessageFilter × Nat) :
    Option ForwardBatch :=
  let matching := values.filter fun v => v.prop ∈ entry.1.propIds
  if matching = [] then none else some ⟨entry.1.msgId, matching, entry.2⟩

/-- One batch for each group with a matching value. -/
def batches (messages : List MessageFilter) (values : List VehiclePropValue) :
    List ForwardBatch :=
  messages.zipIdx.filterMap (batchOf values)

/-- The batches are queued under the lock, unless no value belongs to the node. -/
def forward (values : List VehiclePropValue) (f : NodeForwarder) : NodeForwarder :=
  if values.any fun v => v.prop ∈ f.mAllPropIds then
    { f with mQueue := f.mQueue ++ batches f.mMessages values }
  else f

end NodeForwarder

/-- Where the polling thread is: between two polls, or in the loop over the forwarders. -/
inductive Poller where
  | idle
  | forwarding (values : List VehiclePropValue) (next : Nat)
  deriving DecidableEq

/-- The gateway: what it polls, where it forwards to, and the values it has seen. -/
structure VhalGateway where
  mGetRequests : List GetValueRequest
  mForwarders : List NodeForwarder
  mPreviousValues : UnorderedMap Int VehiclePropValue := ∅
  poller : Poller := .idle
  /-- The destruction has begun. -/
  closing : Bool := false

/-- The status code of success. -/
def statusOk : Int := 0

/-- The value of a result that is not skipped. -/
def polledValue (result : GetValueResult) : Option VehiclePropValue :=
  if result.status = statusOk then result.prop else none

/-- The value differs from the one that is remembered for its property. -/
def isChanged (previous : UnorderedMap Int VehiclePropValue) (val : VehiclePropValue) : Bool :=
  match previous.lookup val.prop with
  | none => true
  | some it => !it.value.eq val.value

/-- The loop over the results: the changed values, and what is remembered after it. -/
def detectChanges : List GetValueResult → UnorderedMap Int VehiclePropValue →
    List VehiclePropValue × UnorderedMap Int VehiclePropValue
  | [], previous => ([], previous)
  | result :: results, previous =>
      match polledValue result with
      | none => detectChanges results previous
      | some val =>
          if isChanged previous val then
            let (changed, previous) := detectChanges results (previous.insert val.prop val)
            (val :: changed, previous)
          else detectChanges results previous

namespace VhalGateway

/-- The constructor; the requests are made in the order in which the set of ids is visited. -/
def ofConfig (config : GatewayConfig) (order : Traversal Int) : VhalGateway where
  mGetRequests :=
    (order.visit (allPropIds (config.nodes.flatMap GatewayNodeConfig.messages))).zipIdx.map
      fun (propId, requestId) => ⟨requestId, { prop := propId, areaId := 0 }⟩
  mForwarders := config.nodes.map NodeForwarder.ofConfig

/-- The part of `pollOnce` up to the loop over the forwarders. -/
def pollOnce (status : Int) (results : List GetValueResult) (g : VhalGateway) : VhalGateway :=
  if status = statusOk then
    let (changedValues, previous) := detectChanges results g.mPreviousValues
    { g with
      mPreviousValues := previous
      poller := if changedValues = [] then .idle else .forwarding changedValues 0 }
  else g

/-- One forwarder is changed. -/
def modifyForwarder (n : Nat) (change : NodeForwarder → NodeForwarder) (g : VhalGateway) :
    VhalGateway :=
  { g with mForwarders := g.mForwarders.modify n change }

end VhalGateway

/-- The steps of the threads. -/
inductive GatewayEvent where
  /-- A poll gets a status and results. -/
  | poll (status : Int) (results : List GetValueResult)
  /-- The polling thread calls `forward` of the next forwarder. -/
  | forward
  /-- The polling thread leaves the loop over the forwarders. -/
  | done
  /-- A worker takes the first batch of its queue. -/
  | take (n : Nat)
  /-- A worker hands its batch to `SetValues` and gets a reply. -/
  | send (n : Nat) (reply : Reply)
  /-- A worker leaves its loop. -/
  | exit (n : Nat)
  /-- The destructor of a forwarder sets its flag. -/
  | destroy (n : Nat)

/-- One step of the poller or of a forwarder. -/
inductive GatewayStep : VhalGateway → GatewayEvent → VhalGateway → Prop
  | poll {g : VhalGateway} (status : Int) (results : List GetValueResult) :
      g.poller = .idle → g.closing = false →
      GatewayStep g (.poll status results) (g.pollOnce status results)
  | forward {g : VhalGateway} {values : List VehiclePropValue} {n : Nat} :
      g.poller = .forwarding values n → n < g.mForwarders.length →
      GatewayStep g .forward { g.modifyForwarder n (NodeForwarder.forward values) with
        poller := .forwarding values (n + 1) }
  | done {g : VhalGateway} {values : List VehiclePropValue} {n : Nat} :
      g.poller = .forwarding values n → g.mForwarders.length ≤ n →
      GatewayStep g .done { g with poller := .idle }
  | take {g : VhalGateway} {n : Nat} {f : NodeForwarder} {batch : ForwardBatch}
      {rest : List ForwardBatch} :
      g.mForwarders[n]? = some f → f.mWorker = .waiting → f.mQueue = batch :: rest →
      GatewayStep g (.take n)
        (g.modifyForwarder n fun f => { f with mQueue := rest, mWorker := .sending batch })
  | send {g : VhalGateway} {n : Nat} {f : NodeForwarder} {batch : ForwardBatch}
      (reply : Reply) :
      g.mForwarders[n]? = some f → f.mWorker = .sending batch →
      GatewayStep g (.send n reply) (g.modifyForwarder n fun f =>
        { f with sent := f.sent ++ [(batch, reply)], mWorker := .waiting })
  | exit {g : VhalGateway} {n : Nat} {f : NodeForwarder} :
      g.mForwarders[n]? = some f → f.mWorker = .waiting → f.mQueue = [] → f.mRunning = false →
      GatewayStep g (.exit n) (g.modifyForwarder n fun f => { f with mWorker := .exited })
  | destroy {g : VhalGateway} {n : Nat} :
      g.poller = .idle →
      GatewayStep g (.destroy n) { g.modifyForwarder n fun f => { f with mRunning := false } with
        closing := true }

end VhalCore.Gateway
