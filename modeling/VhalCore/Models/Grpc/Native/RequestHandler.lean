import VhalCore.Models.Proto.Native.Converter
import Mathlib.Data.Finset.Basic

/-!
# Requests for values at the proxy server

A handler of the server converts the requests, hands them to the hardware with a callback
and waits until the callback has seen a result for every id, or until a timeout. The
callback shares the mutex, the flag and the collected results with the handler, and works
on the set of ids in the frame of the handler. The handlers for reading and for writing
differ in the type of the results only.
-/

namespace VhalCore.ProxyServer

open ProtoMsgConverter

/-- A request of a client. -/
structure ProtoRequest where
  requestId : Int64
  value : Proto.VehiclePropValue
  deriving DecidableEq

/-- A request as it is handed to the hardware. -/
structure AidlRequest where
  requestId : Int64
  value : Aidl.VehiclePropValue
  deriving DecidableEq

/-- The result of a write. -/
structure SetValueResult where
  requestId : Int64
  status : Int32
  deriving DecidableEq

/-- The message of the result of a write. -/
structure ProtoSetValueResult where
  requestId : Int64
  status : Int32
  deriving DecidableEq

/-- The result of a read. -/
structure GetValueResult where
  requestId : Int64
  status : Int32
  prop : Option Aidl.VehiclePropValue
  deriving DecidableEq

/-- The message of the result of a read. -/
structure ProtoGetValueResult where
  requestId : Int64
  status : Int32
  value : Option Proto.VehiclePropValue
  deriving DecidableEq

/-- What the callback does with a result: the id that it erases and the message that it adds. -/
structure ResultOps (R P : Type) where
  requestId : R → Int64
  toProto : R → P

/-- The results of `setValues`. -/
def setValueOps : ResultOps SetValueResult ProtoSetValueResult where
  requestId result := result.requestId
  toProto result := ⟨result.requestId, result.status⟩

/-- The results of `getValues`. -/
def getValueOps : ResultOps GetValueResult ProtoGetValueResult where
  requestId result := result.requestId
  toProto result :=
    ⟨result.requestId, result.status, result.prop.map fun prop => prop.aidlToProto {}⟩

/-- Why a handler fails, with the gRPC status `INTERNAL`. -/
inductive HandlerError where
  /-- `The underlying hardware fails to {} values, VHAL status: {}` -/
  | hardwareFails (status : Int32)
  /-- `The underlying hardware {} values timeout.` -/
  | timeout
  deriving DecidableEq

/-- Where the handler stands: in the call of the hardware, waiting, or returned. -/
inductive Stage (P : Type) where
  | calling
  | waiting
  | returned (reply : Except HandlerError (List P))

/-- An invocation of the callback: before its locked section, in it with the results that are
left, or after it. -/
inductive Invocation (R : Type) where
  | begun (results : List R)
  | locked (rest : List R)
  | finished

/-- A handler with its callback. `toCome` are the results that the hardware has still to
report, one list for each invocation of the callback. The last field records whether the
callback has used the set of ids after the handler returned. -/
structure Handler (R P : Type) where
  aidlRequests : List AidlRequest
  requestIds : Finset Int64
  toCome : List (List R)
  stage : Stage P := .calling
  complete : Bool := false
  tmpResults : List P := []
  waitMtx : Bool := false
  invocations : List (Invocation R) := []
  lateAccess : Bool := false

/-- The loop that converts the requests and collects their ids. -/
def start {R P : Type} (requests : List ProtoRequest) (toCome : List (List R)) : Handler R P :=
  { aidlRequests := requests.map fun request => ⟨request.requestId, request.value.protoToAidl {}⟩
    requestIds := requests.foldl (fun ids request => insert request.requestId ids) ∅
    toCome }

/-- The steps of the hardware, of the callback and of the handler. -/
inductive HandlerEvent where
  | invoke
  | enter
  | report
  | check
  | hardwareReturns (status : Int32)
  | wake
  | timeout
  deriving DecidableEq

/-- The handler has returned. -/
def Stage.isReturned {P : Type} : Stage P → Bool
  | .returned _ => true
  | _ => false

/-- One step. The locked section of the callback reports one result at a time, and then
checks whether all ids are erased. The wait ends with the lock taken: when the flag is set,
or at the timeout, where the flag is read once more. -/
inductive HandlerStep {R P : Type} (ops : ResultOps R P) :
    Handler R P → HandlerEvent → Handler R P → Prop
  | invoke {s : Handler R P} {results : List R} {rest : List (List R)}
      (h : s.toCome = results :: rest) :
      HandlerStep ops s .invoke
        { s with toCome := rest, invocations := s.invocations ++ [.begun results] }
  | enter {s : Handler R P} {before after : List (Invocation R)} {results : List R}
      (h : s.invocations = before ++ .begun results :: after) (hfree : s.waitMtx = false) :
      HandlerStep ops s .enter
        { s with waitMtx := true, invocations := before ++ .locked results :: after }
  | report {s : Handler R P} {before after : List (Invocation R)} {result : R} {rest : List R}
      (h : s.invocations = before ++ .locked (result :: rest) :: after) :
      HandlerStep ops s .report
        { s with
          tmpResults := s.tmpResults ++ [ops.toProto result]
          requestIds := s.requestIds.erase (ops.requestId result)
          invocations := before ++ .locked rest :: after
          lateAccess := s.lateAccess || s.stage.isReturned }
  | check {s : Handler R P} {before after : List (Invocation R)}
      (h : s.invocations = before ++ .locked [] :: after) :
      HandlerStep ops s .check
        { s with
          complete := s.complete || s.requestIds = ∅
          waitMtx := false
          invocations := before ++ .finished :: after
          lateAccess := s.lateAccess || s.stage.isReturned }
  | hardwareReturns {s : Handler R P} {status : Int32} (h : s.stage = .calling) :
      HandlerStep ops s (.hardwareReturns status)
        { s with
          stage := if status ≠ statusOk then .returned (.error (.hardwareFails status))
            else .waiting }
  | wake {s : Handler R P} (h : s.stage = .waiting) (hfree : s.waitMtx = false)
      (hcomplete : s.complete = true) :
      HandlerStep ops s .wake { s with stage := .returned (.ok s.tmpResults), tmpResults := [] }
  | timeout {s : Handler R P} (h : s.stage = .waiting) (hfree : s.waitMtx = false) :
      HandlerStep ops s .timeout
        { s with
          stage := .returned (if s.complete then .ok s.tmpResults else .error .timeout)
          tmpResults := if s.complete then [] else s.tmpResults }

end VhalCore.ProxyServer
