import VhalCore.Core.Execution
import VhalCore.Models.Proto.Native.Converter
import Mathlib.Logic.Function.Basic

/-!
# Event streams of the proxy server

Producers push messages to the queue of a stream. The writer thread drains both queues and
writes the messages of the two batches one after the other, each to all connections of its
stream. It does so under the shared lock of the connections, and removes the connections
whose write failed under the exclusive lock. The handler of a stream registers its
connection under the exclusive lock and waits until the connection is shut down. Shutting
the server down stops the writer, shuts down the connections under the shared lock and
keeps the lock until the server has shut down, which waits for all handlers.

The exclusive sections are single steps; the shared ones, which are not, keep them away.
-/

namespace VhalCore.ProxyServer

open ProtoMsgConverter

/-- The streams: of values, and of changes of supported values. -/
inductive StreamKind where
  | value
  | change
  deriving DecidableEq

/-- Where the handler of a connection stands. -/
inductive StreamHandler where
  | absent
  | accepted
  | registered
  | returned
  deriving DecidableEq

/-- The connection was registered at some time. -/
def StreamHandler.joined : StreamHandler → Bool
  | .registered | .returned => true
  | _ => false

/-- A connection. The writes on its stream are recorded with their results, and whether one
of them came after the handler had returned; with the registration are recorded how many
messages were handled by the writer, and how many were enqueued. -/
structure Connection (M : Type) where
  handler : StreamHandler := .absent
  mShutdownFlag : Bool := false
  writes : List (M × Bool) := []
  lateWrite : Bool := false
  handledBefore : Nat := 0
  enqueuedBefore : Nat := 0

/-- A write on the stream has failed. -/
def Connection.broken {M : Type} (c : Connection M) : Bool := c.writes.any fun write => !write.2

/-- `ConnectionDescriptor::Write`: the stream is written unless the connection is shut down,
and a failure shuts it down. -/
def Connection.write {M : Type} (message : M) (ok : Bool) (c : Connection M) : Connection M :=
  if c.mShutdownFlag then c
  else
    { c with
      writes := c.writes ++ [(message, ok)]
      mShutdownFlag := !ok
      lateWrite := c.lateWrite || c.handler = .returned }

/-- The result of `ConnectionDescriptor::Write`. -/
def Connection.writeOK {M : Type} (ok : Bool) (c : Connection M) : Bool := !c.mShutdownFlag && ok

/-- The queue and the connections of a stream, with the batch that the writer has drained. The
connections are listed by their ids. All messages ever enqueued are recorded, how many of
them are handled by the writer, and how many were there when the writer was told to stop. -/
structure Channel (M : Type) where
  mQueue : List M := []
  batch : List M := []
  mConnections : List Nat := []
  connection : Nat → Connection M := fun _ => {}
  enqueued : List M := []
  handled : Nat := 0
  enqueuedAtStop : Nat := 0

namespace Channel

variable {M : Type}

/-- A producer enqueues a message. -/
def push (message : M) (c : Channel M) : Channel M :=
  { c with mQueue := c.mQueue ++ [message], enqueued := c.enqueued ++ [message] }

/-- Change one connection. -/
def onConnection (id : Nat) (f : Connection M → Connection M) (c : Channel M) : Channel M :=
  { c with connection := Function.update c.connection id (f (c.connection id)) }

/-- A handler registers its connection. -/
def register (id : Nat) (c : Channel M) : Channel M :=
  { c.onConnection id fun connection =>
      { connection with
        handler := .registered
        handledBefore := c.handled
        enqueuedBefore := c.enqueued.length } with
    mConnections := c.mConnections ++ [id] }

/-- The writer swaps the queue out. -/
def drain (c : Channel M) : Channel M := { c with batch := c.mQueue, mQueue := [] }

/-- The message at the front of the batch has been offered to all connections. -/
def handle (c : Channel M) : Channel M := { c with handled := c.handled + 1 }

/-- The message at the front of the batch is popped. -/
def pop (c : Channel M) : Channel M := { c with batch := c.batch.tail }

/-- The connections of a list are removed. -/
def erase (brokenConn : List Nat) (c : Channel M) : Channel M :=
  { c with mConnections := c.mConnections.filter fun id => id ∉ brokenConn }

end Channel

/-- Where the writer stands: at the condition variable, between two messages of a batch, in
the loop over the connections that are left, before the removal of broken connections, or
finished. -/
inductive WriterStage where
  | waiting
  | sending (stream : StreamKind)
  | writing (stream : StreamKind) (todo brokenConn : List Nat)
  | erasing (stream : StreamKind) (brokenConn : List Nat)
  | stopped
  deriving DecidableEq

/-- Where the shutdown stands: not called, waiting for the writer, in the loops over the
connections that are left, in the shutdown of the server, or finished. -/
inductive ShutdownStage where
  | notCalled
  | joining
  | closing (todo : List (StreamKind × Nat))
  | inServer
  | returned
  deriving DecidableEq

/-- The server with both streams. -/
structure Server (M : StreamKind → Type) where
  channel : (stream : StreamKind) → Channel (M stream) := fun _ => {}
  mStopEventWriter : Bool := false
  stop : Bool := false
  writer : WriterStage := .waiting
  shutdown : ShutdownStage := .notCalled

namespace Server

variable {M : StreamKind → Type}

/-- Change one stream. -/
def onChannel (s : Server M) (stream : StreamKind) (f : Channel (M stream) → Channel (M stream)) :
    Server M :=
  { s with channel := Function.update s.channel stream (f (s.channel stream)) }

/-- The lock of the connections is not held in shared mode. -/
def notShared (s : Server M) : Prop :=
  (∀ stream todo brokenConn, s.writer ≠ .writing stream todo brokenConn) ∧
    (∀ todo, s.shutdown ≠ .closing todo) ∧ s.shutdown ≠ .inServer

end Server

/-- What happens at the server: nothing, or a step of the producers, the handlers, the writer
thread and the shutdown. -/
inductive ServerEvent (M : StreamKind → Type) where
  | idle
  | push (stream : StreamKind) (message : M stream)
  | accept (stream : StreamKind) (id : Nat)
  | register (stream : StreamKind) (id : Nat)
  | handlerReturns (stream : StreamKind) (id : Nat)
  | writer
  | stopWriter
  | lockConnections
  | closeConnection
  | shutdownServer
  | serverIsDown

/-- One step of some thread. -/
inductive ServerStep {M : StreamKind → Type} : Server M → ServerEvent M → Server M → Prop
  | idle {s : Server M} : ServerStep s .idle s
  | push {s : Server M} {stream : StreamKind} {message : M stream} :
      ServerStep s (.push stream message) (s.onChannel stream (·.push message))
  | accept {s : Server M} {stream : StreamKind} {id : Nat}
      (h : ((s.channel stream).connection id).handler = .absent)
      (hserver : s.shutdown ≠ .inServer ∧ s.shutdown ≠ .returned) :
      ServerStep s (.accept stream id) (s.onChannel stream fun c =>
        c.onConnection id fun connection => { connection with handler := .accepted })
  | register {s : Server M} {stream : StreamKind} {id : Nat}
      (h : ((s.channel stream).connection id).handler = .accepted) (hlock : s.notShared) :
      ServerStep s (.register stream id) (s.onChannel stream (·.register id))
  | handlerReturns {s : Server M} {stream : StreamKind} {id : Nat}
      (h : ((s.channel stream).connection id).handler = .registered)
      (hflag : ((s.channel stream).connection id).mShutdownFlag = true) :
      ServerStep s (.handlerReturns stream id) (s.onChannel stream fun c =>
        c.onConnection id fun connection => { connection with handler := .returned })
  | drain {s : Server M} (h : s.writer = .waiting)
      (hwake : s.mStopEventWriter = true ∨ ∃ stream, (s.channel stream).mQueue ≠ []) :
      ServerStep s .writer
        { s with
          channel := fun stream => (s.channel stream).drain
          stop := s.mStopEventWriter
          writer := .sending .value }
  | take {s : Server M} {stream : StreamKind} (h : s.writer = .sending stream)
      (hbatch : (s.channel stream).batch ≠ []) :
      ServerStep s .writer
        { s with writer := .writing stream (s.channel stream).mConnections [] }
  | write {s : Server M} {stream : StreamKind} {id : Nat} {todo brokenConn : List Nat}
      {message : M stream} {rest : List (M stream)} {ok : Bool}
      (h : s.writer = .writing stream (id :: todo) brokenConn)
      (hbatch : (s.channel stream).batch = message :: rest) :
      ServerStep s .writer
        { s.onChannel stream (·.onConnection id (·.write message ok)) with
          writer := .writing stream todo
            (if ((s.channel stream).connection id).writeOK ok then brokenConn
              else id :: brokenConn) }
  | allWritten {s : Server M} {stream : StreamKind} (h : s.writer = .writing stream [] []) :
      ServerStep s .writer
        { s.onChannel stream (·.handle.pop) with writer := .sending stream }
  | someBroken {s : Server M} {stream : StreamKind} {brokenConn : List Nat}
      (h : s.writer = .writing stream [] brokenConn) (hbroken : brokenConn ≠ []) :
      ServerStep s .writer
        { s.onChannel stream (·.handle) with writer := .erasing stream brokenConn }
  | erase {s : Server M} {stream : StreamKind} {brokenConn : List Nat}
      (h : s.writer = .erasing stream brokenConn) (hlock : s.notShared) :
      ServerStep s .writer
        { s.onChannel stream fun c => (c.erase brokenConn).pop with writer := .sending stream }
  | nextStream {s : Server M} (h : s.writer = .sending .value)
      (hbatch : (s.channel .value).batch = []) :
      ServerStep s .writer { s with writer := .sending .change }
  | endTurn {s : Server M} (h : s.writer = .sending .change)
      (hbatch : (s.channel .change).batch = []) :
      ServerStep s .writer { s with writer := if s.stop then .stopped else .waiting }
  | stopWriter {s : Server M} (h : s.shutdown = .notCalled) :
      ServerStep s .stopWriter
        { s with
          channel := fun stream =>
            { s.channel stream with enqueuedAtStop := (s.channel stream).enqueued.length }
          mStopEventWriter := true
          shutdown := .joining }
  | lockConnections {s : Server M} (h : s.shutdown = .joining) (hwriter : s.writer = .stopped) :
      ServerStep s .lockConnections
        { s with
          shutdown := .closing ((s.channel .value).mConnections.map (.value, ·) ++
            (s.channel .change).mConnections.map (.change, ·)) }
  | closeConnection {s : Server M} {stream : StreamKind} {id : Nat}
      {todo : List (StreamKind × Nat)} (h : s.shutdown = .closing ((stream, id) :: todo)) :
      ServerStep s .closeConnection
        { s.onChannel stream (·.onConnection id ({ · with mShutdownFlag := true })) with
          shutdown := .closing todo }
  | shutdownServer {s : Server M} (h : s.shutdown = .closing []) :
      ServerStep s .shutdownServer { s with shutdown := .inServer }
  | serverIsDown {s : Server M} (h : s.shutdown = .inServer)
      (hhandlers : ∀ stream id, ((s.channel stream).connection id).handler = .absent ∨
        ((s.channel stream).connection id).handler = .returned) :
      ServerStep s .serverIsDown { s with shutdown := .returned }

/-- The messages of the streams of the server. -/
def Message : StreamKind → Type
  | .value => List Proto.VehiclePropValue
  | .change => List Proto.PropIdAreaId

/-- `OnVehiclePropChange` -/
def onVehiclePropChange (values : List Aidl.VehiclePropValue) : ServerEvent Message :=
  .push .value (addAll (fun value : Aidl.VehiclePropValue => value.aidlToProto {}) values [])

/-- `OnSupportedValuesChange` -/
def onSupportedValuesChange (propIdAreaIds : List Aidl.PropIdAreaId) : ServerEvent Message :=
  .push .change
    (addAll (fun propIdAreaId : Aidl.PropIdAreaId => propIdAreaId.aidlToProto {}) propIdAreaIds [])

end VhalCore.ProxyServer
