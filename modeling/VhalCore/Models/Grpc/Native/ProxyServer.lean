import VhalCore.Models.FakeHardware.Native.Subscriptions

/-!
# Subscriptions through the proxy server

The server passes every `Subscribe` and `Unsubscribe` of a client on to the hardware and
returns its status. It does not know which client subscribed to what; this is recorded here
beside the state of the server. A subscription whose interval is 0 ends the process: the timer
divides by the interval.
-/

namespace VhalCore.Grpc

open FakeHardware

/-- The hardware of the server, and for each client the rates of its latest subscriptions that
it has not itself cancelled since. -/
structure ProxyState where
  hardware : FakeVehicleHardware := {}
  latest : Nat → PropIdAreaId → Option Binary32 := fun _ _ => none
  /-- The process of the server has not died. -/
  running : Bool := true

/-- The changed values that the hardware passes on to the streams. -/
def ProxyState.forwarded (s : ProxyState) (values : List VehiclePropValue) :
    List VehiclePropValue :=
  if s.running then s.hardware.onValuesChangeCallback values else []

/-- The requests of the clients. A `Subscribe` has no status if the server dies of it. -/
inductive ProxyEvent where
  | subscribe (client : Nat) (options : SubscribeOptions) (status : Option StatusCode)
  | unsubscribe (client : Nat) (propId areaId : Int)

/-- The pairs of a property whose values never change are not subscribed to. -/
def canBeSubscribed (getPropConfig : Int → Option VehiclePropConfig) (propId : Int) : Bool :=
  (getPropConfig propId).any fun config => config.changeMode ≠ .static

/-- The subscriptions after a client has subscribed. -/
def withSubscription (client : Nat) (options : SubscribeOptions)
    (latest : Nat → PropIdAreaId → Option Binary32) : Nat → PropIdAreaId → Option Binary32 :=
  fun other p =>
    if other = client ∧ p.propId = options.propId ∧ p.areaId ∈ options.areaIds then
      some options.sampleRate
    else latest other p

/-- The subscriptions after a client has cancelled one. -/
def withoutSubscription (client : Nat) (p : PropIdAreaId)
    (latest : Nat → PropIdAreaId → Option Binary32) : Nat → PropIdAreaId → Option Binary32 :=
  fun other q => if other = client ∧ q = p then none else latest other q

/-- The hardware registers a callback with an interval of 0 for the request. -/
def DividesByZero (getPropConfig : Int → Option VehiclePropConfig) (options : SubscribeOptions) :
    Prop :=
  (∃ config, getPropConfig options.propId = some config ∧ config.changeMode = .continuous) ∧
    options.areaIds ≠ [] ∧ intervalInNanos options.sampleRate = some 0

/-- One request of a client to a running server. There is no step where a conversion of the
hardware is undefined. -/
inductive ProxyStep (getPropConfig : Int → Option VehiclePropConfig) :
    ProxyState → ProxyEvent → ProxyState → Prop
  | subscribe (s : ProxyState) (client : Nat) (options : SubscribeOptions) (status : StatusCode)
      (hardware : FakeVehicleHardware) (hrunning : s.running = true)
      (h : s.hardware.subscribe getPropConfig options = some (status, hardware)) :
      ProxyStep getPropConfig s (.subscribe client options (some status))
        { s with
          hardware := hardware
          latest := if status = .ok ∧ canBeSubscribed getPropConfig options.propId then
            withSubscription client options s.latest else s.latest }
  | die (s : ProxyState) (client : Nat) (options : SubscribeOptions) (hrunning : s.running = true)
      (h : DividesByZero getPropConfig options) :
      ProxyStep getPropConfig s (.subscribe client options none)
        { s with latest := withSubscription client options s.latest, running := false }
  | unsubscribe (s : ProxyState) (client : Nat) (propId areaId : Int)
      (hrunning : s.running = true) :
      ProxyStep getPropConfig s (.unsubscribe client propId areaId)
        { s with
          hardware := (s.hardware.unsubscribe propId areaId).2
          latest := withoutSubscription client ⟨propId, areaId⟩ s.latest }

end VhalCore.Grpc
