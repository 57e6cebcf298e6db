import VhalCore.Core.Execution
import Mathlib.Logic.Function.Basic

/-!
# The polling threads of the client

Two threads keep a stream to the server open, `ValuePollingLoop` and
`SupportedValuesChangeLoop`. Each turn of a loop has a client context of its own, which is
registered while the stream is read. The destructor sets the flag, cancels the registered
contexts and then joins the threads.

A read of the flag, a section under `mShutdownMutex` and a call on a stream are a step each.
-/

namespace VhalCore.GRPCVehicleHardware

/-- The polling threads. -/
inductive PollingThread where
  | value
  | supportedValues
  deriving DecidableEq

/-- Where a polling thread stands: before the flag is read for a new turn, before the context
is registered, before the stream is started, before the flag is read for a new message, in
`Read`, before the context is unregistered, in `Finish`, before the flag is read once more, in
the sleep before the next turn, or at its end. -/
inductive PollingStage where
  | loopHead
  | connecting
  | starting
  | readHead
  | reading
  | leaving
  | finishing
  | checkAgain
  | sleeping
  | exited
  deriving DecidableEq

/-- The stream is started and not finished. -/
def PollingStage.streams : PollingStage → Bool
  | .readHead | .reading | .leaving | .finishing => true
  | _ => false

/-- A polling thread with the context of its turn: whether it is cancelled, and whether the
server has ended its stream. -/
structure Polling where
  stage : PollingStage := .loopHead
  cancelled : Bool := false
  ended : Bool := false

/-- A call on the stream does not wait for the server. -/
def Polling.released (p : Polling) : Bool := p.ended || p.cancelled

/-- Where the destructor stands. -/
inductive DestructorStage where
  | notCalled
  | joinsValue
  | joinsSupportedValues
  | returned
  deriving DecidableEq

/-- The client. Its contexts are named by their threads. -/
structure Client where
  polling : PollingThread → Polling := fun _ => {}
  mShuttingDownFlag : Bool := false
  mStreamContexts : List PollingThread := []
  destructor : DestructorStage := .notCalled

/-- Change one thread. -/
def Client.set (s : Client) (thread : PollingThread) (p : Polling) : Client :=
  { s with polling := Function.update s.polling thread p }

/-- A thread moves on. -/
def Client.move (s : Client) (thread : PollingThread) (stage : PollingStage) : Client :=
  s.set thread { s.polling thread with stage := stage }

/-- What happens at the client. -/
inductive ClientEvent where
  | idle
  | poll (thread : PollingThread)
  | message (thread : PollingThread)
  | serverEnds (thread : PollingThread)
  | cancelStreams
  | join
  deriving DecidableEq

/-- One step. -/
inductive ClientStep : Client → ClientEvent → Client → Prop
  | idle {s : Client} : ClientStep s .idle s
  | newTurn {s : Client} {thread : PollingThread} (h : (s.polling thread).stage = .loopHead)
      (hflag : s.mShuttingDownFlag = false) :
      ClientStep s (.poll thread) (s.set thread { stage := .connecting })
  | endLoop {s : Client} {thread : PollingThread} (h : (s.polling thread).stage = .loopHead)
      (hflag : s.mShuttingDownFlag = true) :
      ClientStep s (.poll thread) (s.move thread .exited)
  | insert {s : Client} {thread : PollingThread} (h : (s.polling thread).stage = .connecting) :
      ClientStep s (.poll thread)
        { s.move thread .starting with mStreamContexts := s.mStreamContexts.insert thread }
  | start {s : Client} {thread : PollingThread} (h : (s.polling thread).stage = .starting) :
      ClientStep s (.poll thread) (s.move thread .readHead)
  | read {s : Client} {thread : PollingThread} (h : (s.polling thread).stage = .readHead)
      (hflag : s.mShuttingDownFlag = false) :
      ClientStep s (.poll thread) (s.move thread .reading)
  | endRead {s : Client} {thread : PollingThread} (h : (s.polling thread).stage = .readHead)
      (hflag : s.mShuttingDownFlag = true) :
      ClientStep s (.poll thread) (s.move thread .leaving)
  | message {s : Client} {thread : PollingThread} (h : (s.polling thread).stage = .reading) :
      ClientStep s (.message thread) (s.move thread .readHead)
  | readFails {s : Client} {thread : PollingThread} (h : (s.polling thread).stage = .reading)
      (hreleased : (s.polling thread).released = true) :
      ClientStep s (.poll thread) (s.move thread .leaving)
  | erase {s : Client} {thread : PollingThread} (h : (s.polling thread).stage = .leaving) :
      ClientStep s (.poll thread)
        { s.move thread .finishing with mStreamContexts := s.mStreamContexts.filter (· ≠ thread) }
  | finish {s : Client} {thread : PollingThread} (h : (s.polling thread).stage = .finishing)
      (hreleased : (s.polling thread).released = true) :
      ClientStep s (.poll thread) (s.move thread .checkAgain)
  | unimplemented {s : Client} (h : (s.polling .supportedValues).stage = .finishing)
      (hended : (s.polling .supportedValues).ended = true) :
      ClientStep s (.poll .supportedValues) (s.move .supportedValues .exited)
  | goOn {s : Client} {thread : PollingThread} (h : (s.polling thread).stage = .checkAgain)
      (hflag : s.mShuttingDownFlag = false) :
      ClientStep s (.poll thread) (s.move thread .sleeping)
  | stop {s : Client} {thread : PollingThread} (h : (s.polling thread).stage = .checkAgain)
      (hflag : s.mShuttingDownFlag = true) :
      ClientStep s (.poll thread) (s.move thread .exited)
  | wake {s : Client} {thread : PollingThread} (h : (s.polling thread).stage = .sleeping) :
      ClientStep s (.poll thread) (s.move thread .loopHead)
  | serverEnds {s : Client} {thread : PollingThread}
      (h : (s.polling thread).stage.streams = true) :
      ClientStep s (.serverEnds thread) (s.set thread { s.polling thread with ended := true })
  | cancelStreams {s : Client} (h : s.destructor = .notCalled) :
      ClientStep s .cancelStreams
        { s with
          polling := fun thread =>
            { s.polling thread with
              cancelled := (s.polling thread).cancelled || decide (thread ∈ s.mStreamContexts) }
          mShuttingDownFlag := true
          mStreamContexts := []
          destructor := .joinsValue }
  | joinValue {s : Client} (h : s.destructor = .joinsValue)
      (hexited : (s.polling .value).stage = .exited) :
      ClientStep s .join { s with destructor := .joinsSupportedValues }
  | joinSupportedValues {s : Client} (h : s.destructor = .joinsSupportedValues)
      (hexited : (s.polling .supportedValues).stage = .exited) :
      ClientStep s .join { s with destructor := .returned }

end VhalCore.GRPCVehicleHardware
