import VhalCore.Core.UnorderedMap
import VhalCore.Models.Vehicle.Types

/-!
# Reading values over gRPC

One call of `getValues` on the client side of the connection. The server and the
other threads of the client are the world around the call: the server may answer
every RPC with anything, and between two uses of the timestamp lock the thread that
polls the value stream may have handled any events. The call has no bound of its
own, so the recursion takes a fuel and has no result where it runs out.
-/

namespace VhalCore.Grpc

/-- `MAX_RETRY_COUNT` -/
def maxRetryCount : Nat := 5

/-- A request for the value of a property. -/
structure GetValueRequest where
  requestId : Int
  prop : VehiclePropValue
  deriving DecidableEq

/-- A result as the server sends it: the status as the number on the wire. -/
structure ProtoGetValueResult where
  requestId : Int
  status : Int
  value : Option VehiclePropValue
  deriving DecidableEq

/-- A result as it is given to the caller. -/
structure GetValueResult where
  requestId : Int
  status : Int
  prop : Option VehiclePropValue := none
  deriving DecidableEq

/-- The latest timestamp of the server seen for each pair, and the local time given to it. -/
abbrev LatestUpdateTimestamps := UnorderedMap PropIdAreaId (Int × Int)

/-- The value with its local timestamp, or none if it is outdated. -/
def setAndroidTimestamp (now : Int) (propValue : VehiclePropValue)
    (latest : LatestUpdateTimestamps) : Option VehiclePropValue × LatestUpdateTimestamps :=
  let externalTimestamp := propValue.timestamp
  match latest.lookup propValue.propIdAreaId with
  | none =>
      (some { propValue with timestamp := now },
        latest.insert propValue.propIdAreaId (externalTimestamp, now))
  | some (first, second) =>
      if externalTimestamp > first then
        (some { propValue with timestamp := now },
          latest.insert propValue.propIdAreaId (externalTimestamp, now))
      else if externalTimestamp = first then
        (some { propValue with timestamp := second }, latest)
      else (none, latest)

/-- What the server and the other threads do during a call. -/
structure World where
  /-- The reply to the RPC with this number; none if the RPC fails. -/
  reply : Nat → List GetValueRequest → Option (List ProtoGetValueResult)
  /-- The events handled just before the call takes the timestamp lock for the time with
  this number, each with the clock read for it. -/
  events : Nat → List (VehiclePropValue × Int)
  /-- The clock read by the call for the value with this number. -/
  now : Nat → Int

/-- An RPC of a call: its requests, its reply and the requests left to retry. -/
structure Rpc where
  requests : List GetValueRequest
  reply : Option (List ProtoGetValueResult)
  retryRequests : List GetValueRequest

/-- A call under way: the timestamps, how often it has taken their lock, the RPCs it has
made, oldest first, and the results it has collected. -/
structure Call where
  mLatestUpdateTimestamps : LatestUpdateTimestamps
  stamped : Nat := 0
  rpcs : List Rpc := []
  results : List GetValueResult := []

/-- Give a value its local timestamp, after the events of other threads. -/
def Call.stamp (w : World) (value : VehiclePropValue) (call : Call) :
    Option VehiclePropValue × Call :=
  let latest := (w.events call.stamped).foldl
    (fun latest event => (setAndroidTimestamp event.2 event.1 latest).2)
    call.mLatestUpdateTimestamps
  let stampedValue := setAndroidTimestamp (w.now call.stamped) value latest
  (stampedValue.1, { call with
    mLatestUpdateTimestamps := stampedValue.2
    stamped := call.stamped + 1 })

/-- The map from ids to requests; of requests with one id the last one stays. -/
def requestById (requests : List GetValueRequest) : UnorderedMap Int GetValueRequest :=
  requests.foldl (fun m request => m.insert request.requestId request) ∅

/-- The turn of one result in the loop over a reply: the call and the requests to retry. -/
def handleResult (w : World) (requests : List GetValueRequest)
    (acc : Call × List GetValueRequest) (protoResult : ProtoGetValueResult) :
    Call × List GetValueRequest :=
  let requestId := protoResult.requestId
  match (requestById requests).lookup requestId with
  | none => acc
  | some request =>
      match protoResult.value with
      | none =>
          ({ acc.1 with results := acc.1.results ++ [⟨requestId, protoResult.status, none⟩] },
            acc.2)
      | some value =>
          match acc.1.stamp w value with
          | (none, call) => (call, acc.2 ++ [request])
          | (some value, call) =>
              ({ call with results := call.results ++ [⟨requestId, protoResult.status, value⟩] },
                acc.2)

/-- One RPC with the handling of its reply: the requests to retry, none if the RPC fails. -/
def roundTrip (w : World) (requests : List GetValueRequest) (call : Call) :
    Option (List GetValueRequest) × Call :=
  match w.reply call.rpcs.length requests with
  | none => (none, { call with rpcs := call.rpcs ++ [⟨requests, none, []⟩] })
  | some protoResults =>
      let handled := protoResults.foldl (handleResult w requests) (call, [])
      (some handled.2, { handled.1 with
        rpcs := call.rpcs ++ [⟨requests, some protoResults, handled.2⟩] })

/-- The recursive call is given the value of `retryCount++`, which is the old count. -/
def getValuesWithRetry (w : World) :
    Nat → List GetValueRequest → Nat → Call → Option (StatusCode × Call)
  | 0, _, _, _ => none
  | fuel + 1, requests, retryCount, call =>
      if retryCount = maxRetryCount then some (.tryAgain, call)
      else
        match roundTrip w requests call with
        | (none, call) => some (.internalError, call)
        | (some retryRequests, call) =>
            if retryRequests.isEmpty then some (.ok, call)
            else getValuesWithRetry w fuel retryRequests retryCount call

/-- What a call returned, what its callback was given and the RPCs it made. -/
structure Outcome where
  status : StatusCode
  received : Option (List GetValueResult)
  rpcs : List Rpc

/-- Reads all requests. No results stand for an empty list. -/
def getValues (w : World) (fuel : Nat) (requests : List GetValueRequest)
    (latest : LatestUpdateTimestamps) : Option Outcome :=
  (getValuesWithRetry w fuel requests 0 { mLatestUpdateTimestamps := latest }).map fun r =>
    if r.1 ≠ .ok then ⟨r.1, none, r.2.rpcs⟩
    else ⟨r.1, if r.2.results.isEmpty then none else some r.2.results, r.2.rpcs⟩

end VhalCore.Grpc
