import VhalCore.Models.Grpc.Native.GetValues

/-!
# The bound on the retries of a read

A read is meant to give up after a fixed number of RPCs. The recursive call gets the
old value of the counter, so the counter never reaches its bound: a read whose replies
stay outdated makes one RPC after the other and returns only if a reply is not.
-/

namespace VhalCore.Grpc

variable {w : World}

/-- Each of the next `n` RPCs of a call is answered and leaves some request outdated. -/
def StaysOutdated (w : World) : Nat → List GetValueRequest → Call → Prop
  | 0, _, _ => True
  | n + 1, requests, call =>
      ∃ retryRequests next, roundTrip w requests call = (some retryRequests, next) ∧
        retryRequests ≠ [] ∧ StaysOutdated w n retryRequests next

/-- A read returns after at most the allowed number of RPCs, with `TRY_AGAIN` exactly when
some request was still outdated in the last of them. -/
def ReturnsInTime (w : World) (requests : List GetValueRequest)
    (latest : LatestUpdateTimestamps) : Prop :=
  ∃ fuel outcome, getValues w fuel requests latest = some outcome ∧
    outcome.rpcs.length ≤ maxRetryCount ∧
    (outcome.status = .tryAgain ↔
      ∃ rpc, outcome.rpcs.getLast? = some rpc ∧ rpc.retryRequests ≠ [])

/-- An RPC is recorded with the requests it leaves to retry. -/
theorem rpcs_roundTrip (w : World) (requests : List GetValueRequest) (call : Call) :
    ∃ reply, (roundTrip w requests call).2.rpcs =
      call.rpcs ++ [⟨requests, reply, (roundTrip w requests call).1.getD []⟩] := by
  rw [roundTrip]
  cases w.reply call.rpcs.length requests with
  | none => exact ⟨none, rfl⟩
  | some protoResults => exact ⟨some protoResults, rfl⟩

/-- The first RPC after which nothing is left to retry ends the call. -/
private theorem getValuesWithRetry_returns {n : Nat} {requests : List GetValueRequest}
    {call : Call} (h : ¬StaysOutdated w n requests call) :
    ∃ status next rpc, getValuesWithRetry w n requests 0 call = some (status, next) ∧
      status ≠ .tryAgain ∧ next.rpcs.length ≤ call.rpcs.length + n ∧
      next.rpcs.getLast? = some rpc ∧ rpc.retryRequests = [] := by
  induction n generalizing requests call with
  | zero => exact absurd trivial h
  | succ n ih =>
      obtain ⟨reply, hrpcs⟩ := rpcs_roundTrip w requests call
      rcases hround : roundTrip w requests call with ⟨_ | retryRequests, next⟩
      · rw [hround] at hrpcs
        refine ⟨.internalError, next, ⟨requests, reply, []⟩, ?_, by decide, ?_, ?_, rfl⟩
        · simp only [getValuesWithRetry, hround, maxRetryCount, reduceCtorEq, ite_false]
        · rw [hrpcs, List.length_append, List.length_singleton]
          omega
        · rw [hrpcs, List.getLast?_concat]
          rfl
      · rw [hround] at hrpcs
        by_cases hretry : retryRequests = []
        · subst hretry
          refine ⟨.ok, next, ⟨requests, reply, []⟩, ?_, by decide, ?_, ?_, rfl⟩
          · simp only [getValuesWithRetry, hround, maxRetryCount, reduceCtorEq, ite_false,
              List.isEmpty_nil, ite_true]
          · rw [hrpcs, List.length_append, List.length_singleton]
            omega
          · rw [hrpcs, List.getLast?_concat]
            rfl
        · obtain ⟨status, last, rpc, hrec, hstatus, hlength, hlast, hrpc⟩ :=
            ih (fun hstays => h ⟨retryRequests, next, hround, hretry, hstays⟩)
          refine ⟨status, last, rpc, ?_, hstatus, ?_, hlast, hrpc⟩
          · have hempty : retryRequests.isEmpty = false := by
              rwa [List.isEmpty_eq_false_iff]
            simp only [getValuesWithRetry, hround, maxRetryCount, reduceCtorEq, ite_false, hempty,
              Bool.false_eq_true]
            exact hrec
          · rw [hrpcs, List.length_append, List.length_singleton] at hlength
            omega

/-- A call whose replies stay outdated makes a further RPC. -/
private theorem length_rpcs_of_staysOutdated {n fuel : Nat} {requests : List GetValueRequest}
    {call next : Call} {status : StatusCode} (h : StaysOutdated w n requests call)
    (hcall : getValuesWithRetry w fuel requests 0 call = some (status, next)) :
    call.rpcs.length + n < next.rpcs.length := by
  induction fuel generalizing n requests call with
  | zero => exact absurd hcall (by simp [getValuesWithRetry])
  | succ fuel ih =>
      obtain ⟨reply, hrpcs⟩ := rpcs_roundTrip w requests call
      have hlength : (roundTrip w requests call).2.rpcs.length = call.rpcs.length + 1 := by
        rw [hrpcs, List.length_append, List.length_singleton]
      simp only [getValuesWithRetry, maxRetryCount, reduceCtorEq, ite_false] at hcall
      cases n with
      | zero =>
          rcases hround : roundTrip w requests call with ⟨_ | retryRequests, mid⟩
          · rw [hround] at hlength hcall
            cases hcall
            simp only at hlength
            omega
          · rw [hround] at hlength hcall
            simp only at hlength hcall
            split at hcall
            · cases hcall
              omega
            · have hrec := ih (n := 0) trivial hcall
              omega
      | succ n =>
          obtain ⟨retryRequests, mid, hround, hretry, hstays⟩ := h
          rw [hround] at hlength hcall
          simp only [List.isEmpty_iff, hretry, ite_false] at hlength hcall
          have hrec := ih hstays hcall
          omega

/-- A read whose replies stay outdated does not return in time. -/
private theorem not_returnsInTime {requests : List GetValueRequest}
    {latest : LatestUpdateTimestamps}
    (h : StaysOutdated w maxRetryCount requests { mLatestUpdateTimestamps := latest }) :
    ¬ReturnsInTime w requests latest := by
  rintro ⟨fuel, outcome, houtcome, hbound, _⟩
  obtain ⟨⟨status, call⟩, hcall, rfl⟩ := Option.map_eq_some_iff.mp houtcome
  have hlength := length_rpcs_of_staysOutdated h hcall
  have hrpcs : (if status ≠ .ok then (⟨status, none, call.rpcs⟩ : Outcome)
      else ⟨status, if call.results.isEmpty then none else some call.results, call.rpcs⟩).rpcs =
        call.rpcs := by
    split <;> rfl
  simp only [hrpcs] at hbound
  simp only [List.length_nil] at hlength
  omega

/-- A read returns in time exactly when one of the allowed RPCs fails or leaves no request
outdated. -/
theorem returnsInTime_iff (w : World) (requests : List GetValueRequest)
    (latest : LatestUpdateTimestamps) :
    ReturnsInTime w requests latest ↔
      ¬StaysOutdated w maxRetryCount requests { mLatestUpdateTimestamps := latest } := by
  constructor
  · exact fun h hstays => not_returnsInTime hstays h
  · intro h
    obtain ⟨status, call, rpc, hcall, hstatus, hlength, hlast, hrpc⟩ :=
      getValuesWithRetry_returns h
    refine ⟨maxRetryCount, _, by rw [getValues, hcall, Option.map_some], ?_, ?_⟩
    · simp only [List.length_nil, zero_add] at hlength
      split
      · exact hlength
      · exact hlength
    · have hnot : ¬∃ last, call.rpcs.getLast? = some last ∧ last.retryRequests ≠ [] := by
        rintro ⟨last, hlast', hne⟩
        rw [hlast] at hlast'
        cases hlast'
        exact hne hrpc
      split
      · exact iff_of_false hstatus hnot
      · exact iff_of_false hstatus hnot

/-- A server whose clock was set back: it answers every request with a value older than
the one seen last. -/
def restartedServer : World where
  reply _ requests := some (requests.map fun r => ⟨r.requestId, 0, some r.prop⟩)
  events _ := []
  now _ := 0

/-- A request for property 1, with the value the restarted server has for it. -/
def oldRequest : GetValueRequest := ⟨0, { prop := 1 }⟩

/-- A newer timestamp of property 1 was seen before the restart. -/
def seenBeforeRestart : LatestUpdateTimestamps :=
  (∅ : LatestUpdateTimestamps).insert ⟨1, 0⟩ (10, 0)

private theorem roundTrip_restartedServer (call : Call)
    (h : call.mLatestUpdateTimestamps = seenBeforeRestart) :
    roundTrip restartedServer [oldRequest] call = (some [oldRequest], { call with
      stamped := call.stamped + 1
      rpcs := call.rpcs ++
        [⟨[oldRequest], some [⟨0, 0, some { prop := 1 }⟩], [oldRequest]⟩] }) := by
  have hrequest : (requestById [oldRequest]).lookup 0 = some oldRequest := by decide
  have hold :
      setAndroidTimestamp 0 { prop := 1 } seenBeforeRestart = (none, seenBeforeRestart) := by
    have hseen : seenBeforeRestart.lookup (VehiclePropValue.propIdAreaId { prop := 1 }) =
        some (10, 0) := by decide
    simp [setAndroidTimestamp, hseen]
  simp only [roundTrip, restartedServer, List.map_cons, List.map_nil, List.foldl_cons,
    List.foldl_nil, handleResult, Call.stamp, h]
  rw [show oldRequest.requestId = 0 from rfl, hrequest]
  simp only [show oldRequest.prop = { prop := 1 } from rfl, hold, List.nil_append]

/-- A read from such a server makes more than the allowed number of RPCs, and in fact never
returns. -/
theorem not_returnsInTime_of_restartedServer :
    ¬ReturnsInTime restartedServer [oldRequest] seenBeforeRestart ∧
      ∀ fuel, getValues restartedServer fuel [oldRequest] seenBeforeRestart = none := by
  have hstays (n : Nat) (call : Call) (h : call.mLatestUpdateTimestamps = seenBeforeRestart) :
      StaysOutdated restartedServer n [oldRequest] call := by
    induction n generalizing call with
    | zero => trivial
    | succ n ih => exact ⟨_, _, roundTrip_restartedServer call h, by simp, ih _ h⟩
  have hnever (fuel : Nat) (call : Call)
      (h : call.mLatestUpdateTimestamps = seenBeforeRestart) :
      getValuesWithRetry restartedServer fuel [oldRequest] 0 call = none := by
    induction fuel generalizing call with
    | zero => rfl
    | succ fuel ih =>
        simp only [getValuesWithRetry, maxRetryCount, reduceCtorEq, ite_false,
          roundTrip_restartedServer call h, List.isEmpty_cons, Bool.false_eq_true]
        exact ih _ h
  refine ⟨not_returnsInTime (hstays _ _ rfl), fun fuel => ?_⟩
  rw [getValues, hnever fuel _ rfl, Option.map_none]

end VhalCore.Grpc
