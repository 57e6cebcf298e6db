import VhalCore.Models.Grpc.Native.GetValues

/-!
# Accounting for the requests of a read

A read collects its results over several RPCs, each for the requests that the last
one left outdated. From a server that answers every request of an RPC once, a read
that succeeds gives its callback exactly one result for each of its requests, taken
from the last RPC that contained the request.
-/

namespace VhalCore.Grpc

variable {w : World} {requests : List GetValueRequest}

/-- The ids of a list of requests. -/
def ids (requests : List GetValueRequest) : List Int := requests.map GetValueRequest.requestId

theorem ids_append (xs ys : List GetValueRequest) : ids (xs ++ ys) = ids xs ++ ids ys :=
  List.map_append

/-- The server answers an RPC with exactly one result for each of its requests. Results for
other ids may come along. -/
def AnswersEachRequest (w : World) : Prop :=
  ∀ n requests reply, w.reply n requests = some reply → (ids requests).Nodup →
    ∀ x ∈ ids requests, (reply.map ProtoGetValueResult.requestId).count x = 1

/-- A result is the one of a reply, with the local timestamp if it has a value. -/
structure ConvertedFrom (r : GetValueResult) (p : ProtoGetValueResult) : Prop where
  requestId : r.requestId = p.requestId
  status : r.status = p.status
  prop : ∃ timestamp, r.prop = p.value.map fun value => { value with timestamp }

/-- A result comes from the last RPC that contained its request. -/
def FromLastRpc (rpcs : List Rpc) (r : GetValueResult) : Prop :=
  ∃ before rpc after reply p, rpcs = before ++ rpc :: after ∧ r.requestId ∈ ids rpc.requests ∧
    rpc.reply = some reply ∧ p ∈ reply ∧ ConvertedFrom r p ∧
    ∀ later ∈ after, r.requestId ∉ ids later.requests

/-- The map finds exactly the ids of the requests. -/
theorem lookup_requestById (requests : List GetValueRequest) (x : Int) :
    (x ∉ ids requests ∧ (requestById requests).lookup x = none) ∨
      ∃ q ∈ requests, q.requestId = x ∧ (requestById requests).lookup x = some q := by
  induction requests using List.reverseRecOn with
  | nil =>
      refine Or.inl ⟨List.not_mem_nil, ?_⟩
      exact Finmap.lookup_empty x
  | append_singleton requests q ih =>
      have hinsert : requestById (requests ++ [q]) =
          (requestById requests).insert q.requestId q := by
        rw [requestById, List.foldl_append]
        rfl
      rw [hinsert, UnorderedMap.lookup_insert_eq]
      by_cases hx : x = q.requestId
      · refine Or.inr ⟨q, List.mem_append_right _ (List.mem_singleton_self q), hx.symm, ?_⟩
        rw [if_pos hx]
      · rw [if_neg hx]
        rcases ih with ⟨hnot, hnone⟩ | ⟨q', hq', hid, hsome⟩
        · refine Or.inl ⟨?_, hnone⟩
          rw [ids_append, List.mem_append, not_or]
          exact ⟨hnot, fun h => hx (List.mem_singleton.mp h)⟩
        · exact Or.inr ⟨q', List.mem_append_left _ hq', hid, hsome⟩

/-- Setting the local timestamp changes nothing else of a value. -/
theorem setAndroidTimestamp_some {now : Int} {value stamped : VehiclePropValue}
    {latest : LatestUpdateTimestamps}
    (h : (setAndroidTimestamp now value latest).1 = some stamped) :
    ∃ timestamp, stamped = { value with timestamp } := by
  cases hl : latest.lookup value.propIdAreaId with
  | none =>
      simp only [setAndroidTimestamp, hl] at h
      cases h
      exact ⟨now, rfl⟩
  | some known =>
      simp only [setAndroidTimestamp, hl] at h
      split at h
      · cases h
        exact ⟨now, rfl⟩
      · split at h
        · cases h
          exact ⟨known.2, rfl⟩
        · cases h

/-- What the handled part of a reply has added to a call: a result or a retry for each of
its results that was asked for. -/
private structure Handled (requests : List GetValueRequest) (call : Call)
    (reply : List ProtoGetValueResult) (acc : Call × List GetValueRequest) : Prop where
  rpcs : acc.1.rpcs = call.rpcs
  results : ∃ added, acc.1.results = call.results ++ added ∧
    (added.map GetValueResult.requestId ++ ids acc.2).Perm
      ((reply.map ProtoGetValueResult.requestId).filter (· ∈ ids requests)) ∧
    ∀ r ∈ added, ∃ p ∈ reply, ConvertedFrom r p
  retry : ∀ q ∈ acc.2, q ∈ requests

private theorem Handled.result {call : Call} {reply : List ProtoGetValueResult}
    {acc : Call × List GetValueRequest} (h : Handled requests call reply acc)
    (p : ProtoGetValueResult) :
    Handled requests call (reply ++ [p]) (handleResult w requests acc p) := by
  obtain ⟨added, hadded, hperm, hfrom⟩ := h.results
  have hfilter : ((reply ++ [p]).map ProtoGetValueResult.requestId).filter (· ∈ ids requests) =
      (reply.map ProtoGetValueResult.requestId).filter (· ∈ ids requests) ++
        if p.requestId ∈ ids requests then [p.requestId] else [] := by
    rw [List.map_append, List.filter_append, List.map_cons, List.map_nil, List.filter_cons]
    by_cases hp : p.requestId ∈ ids requests <;> simp [hp]
  have hfrom' : ∀ r ∈ added, ∃ q ∈ reply ++ [p], ConvertedFrom r q := fun r hr => by
    obtain ⟨q, hq, hconv⟩ := hfrom r hr
    exact ⟨q, List.mem_append_left _ hq, hconv⟩
  have hadd {r : GetValueResult} (hr : ConvertedFrom r p) (hp : p.requestId ∈ ids requests) :
      ((added ++ [r]).map GetValueResult.requestId ++ ids acc.2).Perm
        (((reply ++ [p]).map ProtoGetValueResult.requestId).filter (· ∈ ids requests)) ∧
      ∀ r' ∈ added ++ [r], ∃ q ∈ reply ++ [p], ConvertedFrom r' q := by
    constructor
    · rw [hfilter, if_pos hp, List.map_append, List.map_cons, List.map_nil, hr.requestId,
        List.append_assoc]
      exact (List.perm_append_comm.append_left _).trans
        ((List.append_assoc _ _ _ ▸ hperm.append_right _))
    · intro r' hr'
      rcases List.mem_append.mp hr' with hr' | hr'
      · exact hfrom' r' hr'
      · rw [List.mem_singleton.mp hr']
        exact ⟨p, List.mem_append_right _ (List.mem_singleton_self p), hr⟩
  rcases lookup_requestById requests p.requestId with ⟨hnot, hnone⟩ | ⟨q, hq, hid, hsome⟩
  · simp only [handleResult, hnone]
    exact ⟨h.rpcs, ⟨added, hadded, by rw [hfilter, if_neg hnot, List.append_nil]; exact hperm,
      hfrom'⟩, h.retry⟩
  · have hp : p.requestId ∈ ids requests := hid ▸ List.mem_map_of_mem hq
    simp only [handleResult, hsome]
    cases hvalue : p.value with
    | none =>
        have hconv : ConvertedFrom ⟨p.requestId, p.status, none⟩ p :=
          ⟨rfl, rfl, 0, by rw [hvalue, Option.map_none]⟩
        refine ⟨h.rpcs, ⟨added ++ [⟨p.requestId, p.status, none⟩], ?_, hadd hconv hp⟩, h.retry⟩
        rw [hadded, List.append_assoc]
    | some value =>
        have hnext : (acc.1.stamp w value).2.rpcs = acc.1.rpcs ∧
            (acc.1.stamp w value).2.results = acc.1.results := ⟨rfl, rfl⟩
        rcases hstamp : acc.1.stamp w value with ⟨_ | stamped, next⟩
        · rw [hstamp] at hnext
          simp only [hstamp]
          refine ⟨hnext.1.trans h.rpcs, ⟨added, hnext.2.trans hadded, ?_, hfrom'⟩, ?_⟩
          · rw [ids_append, ← List.append_assoc, hfilter, if_pos hp, ← hid]
            exact hperm.append_right _
          · intro q' hq'
            rcases List.mem_append.mp hq' with hq' | hq'
            · exact h.retry q' hq'
            · rwa [List.mem_singleton.mp hq']
        · rw [hstamp] at hnext
          have hstamped : (acc.1.stamp w value).1 = some stamped := by rw [hstamp]
          obtain ⟨timestamp, rfl⟩ := setAndroidTimestamp_some hstamped
          simp only [hstamp]
          have hconv : ConvertedFrom ⟨p.requestId, p.status, some { value with timestamp }⟩ p :=
            ⟨rfl, rfl, timestamp, by rw [hvalue, Option.map_some]⟩
          refine ⟨hnext.1.trans h.rpcs, ⟨added ++ [_], ?_, hadd hconv hp⟩, h.retry⟩
          rw [hnext.2, hadded, List.append_assoc]

/-- One RPC gives a result or a retry for each of its requests. -/
private theorem roundTrip_accounts {call next : Call} {retryRequests : List GetValueRequest}
    (hw : AnswersEachRequest w) (hn : (ids requests).Nodup)
    (h : roundTrip w requests call = (some retryRequests, next)) :
    ∃ reply added, next.rpcs = call.rpcs ++ [⟨requests, some reply, retryRequests⟩] ∧
      next.results = call.results ++ added ∧
      (added.map GetValueResult.requestId ++ ids retryRequests).Perm (ids requests) ∧
      ∀ r ∈ added, ∃ p ∈ reply, ConvertedFrom r p := by
  rw [roundTrip] at h
  cases hreply : w.reply call.rpcs.length requests with
  | none =>
      rw [hreply] at h
      cases h
  | some reply =>
      rw [hreply] at h
      cases h
      have hhandled : Handled requests call reply
          (reply.foldl (handleResult w requests) (call, [])) := by
        have hgen (done rest : List ProtoGetValueResult) (acc : Call × List GetValueRequest)
            (hacc : Handled requests call done acc) :
            Handled requests call (done ++ rest) (rest.foldl (handleResult w requests) acc) := by
          induction rest generalizing done acc with
          | nil => simpa only [List.append_nil, List.foldl_nil] using hacc
          | cons p rest ih =>
              rw [List.foldl_cons, show done ++ p :: rest = (done ++ [p]) ++ rest by simp]
              exact ih _ _ (hacc.result p)
        exact hgen [] reply (call, [])
          ⟨rfl, ⟨[], by simp, by simp [ids], by simp⟩, fun _ hq => absurd hq List.not_mem_nil⟩
      obtain ⟨added, hadded, hperm, hfrom⟩ := hhandled.results
      refine ⟨reply, added, rfl, hadded, hperm.trans (List.perm_iff_count.mpr fun x => ?_), hfrom⟩
      by_cases hx : x ∈ ids requests
      · rw [List.count_filter (by simpa using hx), hw _ _ _ hreply hn x hx,
          List.count_eq_one_of_mem hn hx]
      · rw [List.count_eq_zero_of_not_mem hx, List.count_eq_zero]
        intro hmem
        exact hx (by simpa using (List.mem_filter.mp hmem).2)

/-- A read that succeeds has added one result for each request, from the last RPC that
contained it. -/
private theorem getValuesWithRetry_accounts {fuel retryCount : Nat} {call next : Call}
    (hw : AnswersEachRequest w) (hn : (ids requests).Nodup)
    (h : getValuesWithRetry w fuel requests retryCount call = some (.ok, next)) :
    ∃ added rpcs, next.results = call.results ++ added ∧ next.rpcs = call.rpcs ++ rpcs ∧
      (added.map GetValueResult.requestId).Perm (ids requests) ∧
      (∀ rpc ∈ rpcs, ids rpc.requests ⊆ ids requests) ∧ ∀ r ∈ added, FromLastRpc rpcs r := by
  induction fuel generalizing requests call with
  | zero => exact absurd h (by simp [getValuesWithRetry])
  | succ fuel ih =>
      rw [getValuesWithRetry] at h
      split at h
      · cases h
      · rcases hround : roundTrip w requests call with ⟨_ | retryRequests, mid⟩
        · rw [hround] at h
          cases h
        · rw [hround] at h
          obtain ⟨reply, added, hrpcs, hresults, hperm, hfrom⟩ := roundTrip_accounts hw hn hround
          have hnodup := hperm.nodup_iff.mpr hn
          have hmem {r : GetValueResult} (hr : r ∈ added) : r.requestId ∈ ids requests :=
            hperm.subset (List.mem_append_left _ (List.mem_map_of_mem hr))
          simp only at h
          split at h
          · next hempty =>
            cases h
            rw [List.isEmpty_iff.mp hempty] at hperm
            refine ⟨added, [_], hresults, hrpcs, by simpa [ids] using hperm, ?_, fun r hr => ?_⟩
            · intro rpc hrpc
              rw [List.mem_singleton.mp hrpc]
              exact List.Subset.refl _
            · obtain ⟨p, hp, hconv⟩ := hfrom r hr
              exact ⟨[], _, [], reply, p, rfl, hmem hr, rfl, hp, hconv,
                fun _ hl => absurd hl List.not_mem_nil⟩
          · obtain ⟨later, rpcs, hresults', hrpcs', hperm', hsub, hlast⟩ :=
              ih (List.Nodup.of_append_right hnodup) h
            have hretry : ids retryRequests ⊆ ids requests := fun x hx =>
              hperm.subset (List.mem_append_right _ hx)
            refine ⟨added ++ later, ⟨requests, some reply, retryRequests⟩ :: rpcs,
              ?_, ?_, ?_, ?_, ?_⟩
            · rw [hresults', hresults, List.append_assoc]
            · rw [hrpcs', hrpcs, List.append_assoc, List.singleton_append]
            · rw [List.map_append]
              exact (hperm'.append_left _).trans hperm
            · intro rpc hrpc
              rcases List.mem_cons.mp hrpc with rfl | hrpc
              · exact List.Subset.refl _
              · exact List.Subset.trans (hsub rpc hrpc) hretry
            · intro r hr
              rcases List.mem_append.mp hr with hr | hr
              · obtain ⟨p, hp, hconv⟩ := hfrom r hr
                refine ⟨[], _, rpcs, reply, p, rfl, hmem hr, rfl, hp, hconv, fun rpc hrpc hin => ?_⟩
                exact (List.nodup_append.mp hnodup).2.2 _ (List.mem_map_of_mem hr) _
                  (hsub rpc hrpc hin) rfl
              · obtain ⟨before, rpc, after, reply', p, rfl, hrest⟩ := hlast r hr
                exact ⟨_ :: before, rpc, after, reply', p, rfl, hrest⟩

/-- From a server that answers every request once, a read with distinct ids that succeeds
gives its callback exactly one result for each request, with the status the server gave it
in the last RPC that contained the request, and no result for another id. -/
theorem received_of_ok {fuel : Nat} {latest : LatestUpdateTimestamps} {outcome : Outcome}
    (hw : AnswersEachRequest w) (hn : (ids requests).Nodup)
    (h : getValues w fuel requests latest = some outcome) (hok : outcome.status = .ok) :
    let received := outcome.received.getD []
    (received.map GetValueResult.requestId).Perm (ids requests) ∧
      ∀ r ∈ received, FromLastRpc outcome.rpcs r := by
  obtain ⟨⟨status, call⟩, hcall, rfl⟩ := Option.map_eq_some_iff.mp h
  by_cases hstatus : status = .ok
  · subst hstatus
    obtain ⟨added, rpcs, hresults, hrpcs, hperm, _, hlast⟩ :=
      getValuesWithRetry_accounts hw hn hcall
    simp only [List.nil_append] at hresults hrpcs
    have hreceived :
        (if call.results.isEmpty then none else some call.results).getD [] = added := by
      rw [hresults]
      cases added <;> rfl
    simp only [ne_eq, not_true_eq_false, ite_false, hreceived, hrpcs]
    exact ⟨hperm, hlast⟩
  · simp only [ne_eq, hstatus, not_false_eq_true, ite_true] at hok

/-- A server that first answers with an outdated value and then with a new one. -/
def slowServer : World where
  reply n requests := some (requests.map fun r =>
    ⟨r.requestId, 0, some { prop := 1, timestamp := n }⟩)
  events n := if n = 0 then [({ prop := 1, timestamp := 1 }, 0)] else []
  now n := n

/-- A read from this server makes two RPCs and gives its callback the second result. -/
theorem received_of_slowServer :
    ∃ outcome, getValues slowServer 2 [⟨7, { prop := 1 }⟩] ∅ = some outcome ∧
      outcome.rpcs.length = 2 ∧
      outcome.received = some [⟨7, 0, some { prop := 1, timestamp := 0 }⟩] ∧
      ((outcome.received.getD []).map GetValueResult.requestId).Perm [7] := by
  have hanswers : AnswersEachRequest slowServer := by
    intro n requests reply hreply hn x hx
    cases hreply
    rw [List.map_map]
    exact List.count_eq_one_of_mem hn hx
  cases h : getValues slowServer 2 [⟨7, { prop := 1 }⟩] ∅ with
  | none => exact absurd h (by decide)
  | some outcome =>
      have hall : (getValues slowServer 2 [⟨7, { prop := 1 }⟩] ∅).map (fun o =>
          (o.rpcs.length, o.status, o.received)) =
            some (2, .ok, some [⟨7, 0, some { prop := 1, timestamp := 0 }⟩]) := by decide
      rw [h, Option.map_some, Option.some.injEq, Prod.mk.injEq, Prod.mk.injEq] at hall
      have hn : (ids [⟨7, { prop := 1 }⟩]).Nodup := List.nodup_singleton 7
      exact ⟨outcome, rfl, hall.1, hall.2.2, (received_of_ok hanswers hn h hall.2.1).1⟩

end VhalCore.Grpc
