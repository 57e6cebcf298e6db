import VhalCore.Models.Grpc.Native.ProxyServer
import VhalCore.Models.Subscription.Native.Operations

/-!
# The subscription manager over the proxy server

The manager calls the hardware of a proxy server through the client. A call for a property
is a remote call: the server executes it and the client returns the status of the hardware,
or the call fails, before or after it was executed, and the client returns an internal
error. The calls for supported values are not remote; the client accepts them itself. The
branch of the client for a server that does not know a call is left out, as this server
knows them all.

The server may be restarted at any time, also between two calls of one operation. A restart
loses the subscriptions of its hardware and ends the stream of values, to which the client
then connects again.
-/

namespace VhalCore.Grpc

open FakeHardware Subscription SubscriptionManager

/-- The server: its hardware, whether the stream of values is connected, and the calls that
the hardware has accepted since the server was started, latest first. -/
structure RemoteServer where
  hardware : FakeVehicleHardware := {}
  valueStream : Bool := false
  accepted : List (HardwareCall × StatusCode) := []

namespace RemoteServer

/-- `Subscribe`, `Unsubscribe` and `UpdateSampleRate` of the server; the last one is not
implemented by the hardware, which accepts it. -/
def call (getPropConfig : Int → Option VehiclePropConfig) (server : RemoteServer) :
    HardwareCall → Option (StatusCode × FakeVehicleHardware)
  | .subscribe options => server.hardware.subscribe getPropConfig options
  | .unsubscribe propId areaId => some (server.hardware.unsubscribe propId areaId)
  | _ => some (.ok, server.hardware)

/-- The server after a call. -/
def after (server : RemoteServer) (call : HardwareCall) (status : StatusCode)
    (hardware : FakeVehicleHardware) : RemoteServer :=
  { server with
    hardware := hardware
    accepted := if status = .ok then (call, status) :: server.accepted else server.accepted }

end RemoteServer

/-- What happens between the client and the server. -/
inductive RemoteEvent where
  | executed (call : HardwareCall) (status : StatusCode)
  | replyLost (call : HardwareCall)
  | notReached (call : HardwareCall)
  | notRemote (call : HardwareCall)
  | restart
  | reconnect

/-- The call with the status that the client returns for it. -/
def RemoteEvent.answer : RemoteEvent → Option (HardwareCall × StatusCode)
  | .executed call status => some (call, status)
  | .replyLost call | .notReached call => some (call, .internalError)
  | .notRemote call => some (call, .ok)
  | .restart | .reconnect => none

/-- What becomes of a call: it is executed, its reply is lost, or it does not reach the server. -/
inductive RemoteStep (getPropConfig : Int → Option VehiclePropConfig) :
    RemoteServer → RemoteEvent → RemoteServer → Prop
  | executed {server : RemoteServer} {call : HardwareCall} {status : StatusCode}
      {hardware : FakeVehicleHardware} (hremote : call.isSupportedValueChange = false)
      (h : server.call getPropConfig call = some (status, hardware)) :
      RemoteStep getPropConfig server (.executed call status) (server.after call status hardware)
  | replyLost {server : RemoteServer} {call : HardwareCall} {status : StatusCode}
      {hardware : FakeVehicleHardware} (hremote : call.isSupportedValueChange = false)
      (h : server.call getPropConfig call = some (status, hardware)) :
      RemoteStep getPropConfig server (.replyLost call) (server.after call status hardware)
  | notReached {server : RemoteServer} {call : HardwareCall}
      (hremote : call.isSupportedValueChange = false) :
      RemoteStep getPropConfig server (.notReached call) server
  | notRemote {server : RemoteServer} {call : HardwareCall}
      (hremote : call.isSupportedValueChange = true) :
      RemoteStep getPropConfig server (.notRemote call) server
  | restart {server : RemoteServer} : RemoteStep getPropConfig server .restart {}
  | reconnect {server : RemoteServer} :
      RemoteStep getPropConfig server .reconnect { server with valueStream := true }

/-- The manager and the server. -/
structure Bridge where
  manager : SubscriptionManager := {}
  server : RemoteServer := {}

/-- An operation of the manager, with its result and what happens at the server meanwhile, or
a restart or reconnect between two operations. -/
inductive BridgeEvent where
  | operation (op : Operation) (result : VhalResult) (events : List RemoteEvent)
  | restart
  | reconnect

/-- One step. An operation gets the answers that the client returns for its calls. -/
inductive BridgeStep (hw : Nat → StatusCode) (lib : MathLibrary)
    (getPropConfig : Int → Option VehiclePropConfig) : Bridge → BridgeEvent → Bridge → Prop
  | operation {s : Bridge} {op : Operation} {result : VhalResult} {manager : SubscriptionManager}
      {calls : List (HardwareCall × StatusCode)} {events : List RemoteEvent}
      {server : RemoteServer} (h : s.manager.step hw lib op = some (result, manager))
      (hcalls : manager.mVehicleHardware = calls ++ s.manager.mVehicleHardware)
      (hserver : Path (RemoteStep getPropConfig) s.server events server)
      (hanswers : events.filterMap RemoteEvent.answer = calls.reverse) :
      BridgeStep hw lib getPropConfig s (.operation op result events) ⟨manager, server⟩
  | restart {s : Bridge} :
      BridgeStep hw lib getPropConfig s .restart { s with server := {} }
  | reconnect {s : Bridge} :
      BridgeStep hw lib getPropConfig s .reconnect
        { s with server := { s.server with valueStream := true } }

end VhalCore.Grpc
