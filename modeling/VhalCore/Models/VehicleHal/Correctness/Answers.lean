import VhalCore.Models.PendingRequests.Correctness.ExactlyOnce
import VhalCore.Models.VehicleHal.Correctness.Attribution

/-!
# One answer for every request

The requests of a call are held in a list and the ids that wait for the hardware in a set.
Two requests that share an id are then one id of the pool, and two results for an id in one
batch are both passed on. A call that the hardware refuses takes its ids back from the pool,
which is too late for the ones that have been reported or have timed out meanwhile. Without
these every request of an accepted call is answered exactly once, and no request for the
hardware of a failed one is answered.
-/

namespace VhalCore.VehicleHal

open PendingRequests PendingRequestPool HalState

variable {s t : HalState} {e : HalEvent}

/-- A call whose requests have distinct ids, a batch with at most one result for each pending
id, a refused call whose requests are all pending, a new object at an address that is not in
use. -/
def Orderly (s : HalState) : HalEvent → Prop
  | .receive _ _ requests _ => (requests.map ValueRequest.requestId).Nodup
  | .report client results _ => results.Pairwise fun a b => a.requestId = b.requestId →
      ¬Pending (s.pool.pool.pendingOf client.id) a.requestId
  | .refuse k _ => ∀ call client, s.calls k = some call → call.stage = .forwarded client →
      ∃ p ∈ s.pool.pool.pendingOf client.id, p.callback.2.call = k ∧ p.requestIds = call.ids
  | e => TakesFreshAddress s e

/-- The ids of the requests of a call are distinct, and each has either failed its check or is
one for the hardware. -/
structure Call.Checked (call : Call) : Prop where
  distinct : (call.requests.map ValueRequest.requestId).Nodup
  split : (call.failedResults.map ValueResult.requestId ++
    call.hardwareRequests.map ValueRequest.requestId).Perm
      (call.requests.map ValueRequest.requestId)

/-- Every request of a call is answered exactly once, in a run that has ended with the pool. -/
structure AnsweredOnce (events : List HalEvent) (s : HalState) : Prop where
  /-- Each request of an accepted call has exactly one result. -/
  accepted : s.pool.Ended → ∀ k call, s.calls k = some call → call.stage = .returned (.ok ()) →
    (call.requests.map ValueRequest.requestId).Nodup ∧
      ∀ r ∈ call.requests, s.answered k r.requestId = 1
  /-- No request for the hardware of a failed call has a result. -/
  failed : ∀ k call error, s.calls k = some call → call.stage = .returned (.error error) →
    (∀ r ∈ call.hardwareRequests, s.answered k r.requestId = 0) ∧
      ((∀ status, error ≠ .hardware status) → ∀ x, s.answered k x = 0)
  /-- A result goes to the client of its call and is a failed check, a result of the hardware
  or a timeout. -/
  attributed : ∀ reply ∈ s.replies, ∀ answer ∈ reply.answers,
    ∃ call, s.calls answer.1 = some call ∧ reply.Fits call answer.2
  /-- A result of the hardware is the one that it has reported first. -/
  reported : AllReported events s
  first : FirstReports events

/-- The checks send every request one way or the other. -/
theorem splitRequests_perm (check : ValueRequest → Except StatusCode Unit)
    (requests : List ValueRequest) :
    ((splitRequests check requests).1.map ValueResult.requestId ++
      (splitRequests check requests).2.map ValueRequest.requestId).Perm
        (requests.map ValueRequest.requestId) := by
  induction requests with
  | nil => exact List.Perm.refl _
  | cons request rest ih =>
      rw [splitRequests, List.map_cons]
      cases check request with
      | error status => exact List.Perm.cons _ ih
      | ok _ => exact List.perm_middle.trans (List.Perm.cons _ ih)

/-- A call is checked, or it was turned away. -/
theorem HalStep.checked (h : HalStep s e t) (he : Orderly s e)
    (hs : ∀ k call, s.calls k = some call →
      call.Checked ∨ ∃ v, call.stage = .returned (.error (.duplicateProperty v)))
    {k : Nat} {call : Call} (hcall : t.calls k = some call) :
    call.Checked ∨ ∃ v, call.stage = .returned (.error (.duplicateProperty v)) := by
  obtain ⟨_, hsame | ⟨_, _, new, hnew, hcame⟩ | ⟨other, stage, hother, hrunning, hgoesOn⟩⟩ :=
    h.call_cases k
  · exact hs k call (hsame.symm.trans hcall)
  · cases hnew.symm.trans hcall
    rcases hcame with hturnedAway | ⟨rfl, check, hsplit⟩
    · exact Or.inr hturnedAway
    · have hperm := splitRequests_perm check call.requests
      rw [← hsplit] at hperm
      exact Or.inl ⟨he, hperm⟩
  · cases hgoesOn.symm.trans hcall
    have hchecked := (hs k other hother).resolve_right fun ⟨v, hv⟩ => hrunning _ hv
    exact Or.inl ⟨hchecked.distinct, hchecked.split⟩

/-- The debts after a call has gone on. -/
theorem debt_advanced (j : Nat) (call : Call) (stage : Stage)
    (hcalls : t.calls = (s.advance j call stage).calls) (k : Nat) :
    t.debt k = if k = j then ({ call with stage := stage } : Call).debt else s.debt k := by
  rw [HalState.debt, hcalls, calls_advance]
  split
  · rfl
  · rfl

/-- A call that goes on without a change of its debt. -/
theorem debt_advanced_same {j : Nat} {call : Call} (stage : Stage)
    (hcall : s.calls j = some call) (hcalls : t.calls = (s.advance j call stage).calls)
    (hdebt : ({ call with stage := stage } : Call).debt = call.debt) (k : Nat) :
    t.debt k = s.debt k := by
  rw [debt_advanced j call stage hcalls]
  split
  · next hk => rw [hk, hdebt, debt_eq hcall]
  · rfl

/-- Every orderly step keeps the accounts of all calls balanced. -/
theorem HalStep.balancedAt (h : HalStep s e t) (he : Orderly s e)
    (hnumbered : ∀ k, s.nextCall ≤ k → s.calls k = none) (hd : DisjointIds s.pool)
    (hs : ∀ k, BalancedAt s k) (k : Nat) : BalancedAt t k := by
  have hentered {call : Call} (hdebt : call.debt = none) : (s.enter call).debt k = s.debt k := by
    rw [HalState.debt, calls_enter]
    split
    · next hk => rw [HalState.debt, hk, hnumbered _ le_rfl, Option.bind_some, hdebt]; rfl
    · rfl
  cases h with
  | reject kind callback requests value hdup => exact (hs k).same rfl rfl (hentered rfl)
  | receive kind callback requests getConfig check hdup hcheck =>
      exact (hs k).same rfl rfl (hentered rfl)
  | clientDied j call hcall hstage | connect j call client hcall hstage hclient =>
      refine (hs k).same rfl rfl (debt_advanced_same _ hcall rfl ?_ k)
      rw [Call.debt, Call.debt, hstage]
  | create j call address hcall hstage hclient hfree =>
      refine (hs k).same rfl rfl (debt_advanced_same _ hcall rfl ?_ k)
      rw [Call.debt, Call.debt, hstage]
  | registerFailed j call client n time error pool hcall hstage hpool =>
      refine (hs k).moved hpool (debt_advanced_same _ hcall rfl ?_ k) (by rintro _ _ _ _ _ ⟨⟩)
        fun c _ x => ?_
      · rw [Call.debt, Call.debt, hstage]
      · exact Int.add_zero _
  | register j call client n time pool hcall hstage hpool =>
      have hbefore : s.debt j = none := by rw [debt_eq hcall, Call.debt, hstage]
      by_cases hk : k = j
      · subst hk
        refine (hs k).registered hpool hbefore ?_ rfl
        refine (debt_advanced k call _ rfl k).trans ?_
        rw [if_pos rfl]
        by_cases hnil : call.hardwareRequests = []
        · rw [if_pos hnil]
          rfl
        · rw [if_neg hnil]
          rfl
      · refine (hs k).registered_other hpool (Ne.symm hk) ?_ rfl
        exact (debt_advanced j call _ rfl k).trans (if_neg hk)
  | forward j call client hcall hstage | complete j call client hcall hstage =>
      refine (hs k).same rfl rfl (debt_advanced_same _ hcall rfl ?_ k)
      rw [Call.debt, Call.debt, hstage]
      rfl
  | refuse j call client status foundIds pool hcall hstage hstatus hpool =>
      obtain ⟨p, hp, hleft, hids⟩ := he call client hcall hstage
      refine (hs k).refused hd hpool hp hleft hids rfl (fun hk => ?_) ?_ ?_
      · exact (debt_advanced j call _ rfl k).trans (if_neg hk)
      · rw [debt_eq hcall, Call.debt, hstage]
      · exact (debt_advanced j call _ rfl j).trans (if_pos rfl)
  | report client results foundIds pool hheld hpool =>
      exact (hs k).reported hd hpool he rfl rfl
  | release client => exact (hs k).same rfl rfl rfl
  | sweep time pool hpool =>
      exact (hs k).moved hpool rfl (by rintro _ _ _ _ _ ⟨⟩) fun c _ x => Int.add_zero _
  | timeout order n callback requestIds time pool hpool => exact (hs k).timedOut hpool rfl rfl
  | binderDied callback hcontext => exact (hs k).same rfl rfl rfl
  | binderUnlinked callback => exact (hs k).same rfl rfl rfl
  | destroy pool hcalls hreleased hpool =>
      exact (hs k).moved hpool rfl (by rintro _ _ _ _ _ ⟨⟩) fun c _ x => Int.add_zero _

/-- A request of a checked call has one failed check or is the only one for the hardware with
its id. -/
theorem Call.Checked.count_eq_one {call : Call} (h : call.Checked) {r : ValueRequest}
    (hr : r ∈ call.requests) :
    call.failedCount r.requestId + (if r.requestId ∈ call.ids then 1 else 0) = 1 := by
  have hone := List.count_eq_one_of_mem h.distinct (List.mem_map_of_mem hr)
  have hnodup := (h.split.nodup_iff.mpr h.distinct).of_append_right
  rw [← h.split.count_eq, List.count_append, List.Nodup.count hnodup] at hone
  have hfailed : (call.failedResults.map ValueResult.requestId).count r.requestId =
      call.failedCount r.requestId := by
    rw [List.count, List.countP_map]
    exact List.countP_congr fun f _ => by simp
  rw [hfailed] at hone
  simpa only [Call.ids, hardwareRequestIds, List.mem_toFinset] using hone

/-- A request for the hardware has no failed check. -/
theorem Call.Checked.failedCount_eq_zero {call : Call} (h : call.Checked) {r : ValueRequest}
    (hr : r ∈ call.hardwareRequests) : call.failedCount r.requestId = 0 := by
  have hdisjoint := List.disjoint_of_nodup_append (h.split.nodup_iff.mpr h.distinct)
  rw [Call.failedCount, List.countP_eq_zero]
  intro f hf heq
  have hmem : f.requestId ∈ call.failedResults.map ValueResult.requestId := List.mem_map_of_mem hf
  rw [of_decide_eq_true heq] at hmem
  exact hdisjoint hmem (List.mem_map_of_mem hr)

/-- What holds all along an orderly run. -/
structure Accounted (events : List HalEvent) (s : HalState) : Prop where
  oneObject : OneObject s
  attributed : Attributed s
  balanced : ∀ k, BalancedAt s k
  checked : ∀ k call, s.calls k = some call →
    call.Checked ∨ ∃ v, call.stage = .returned (.error (.duplicateProperty v))
  unreported : Unreported events s
  reported : AllReported events s
  first : FirstReports events

/-- A new state is accounted for. -/
theorem accounted_start (timeoutInNano clock : Int) :
    Accounted [] (.start timeoutInNano clock) := by
  refine ⟨oneObject_start _ _, attributed_start _ _, fun k => ⟨fun _ => ?_, nofun⟩,
    fun k call hcall => ?_, fun c p hp => ?_, fun reply hreply => absurd hreply List.not_mem_nil,
    fun before client results foundIds after h => ?_⟩
  · refine ⟨fun c p hp => ?_, fun sweep hsweep => absurd hsweep List.not_mem_nil, fun x => rfl⟩
    rw [start, pendingOf_start] at hp
    exact absurd hp List.not_mem_nil
  · cases hcall
  · rw [start, pendingOf_start] at hp
    exact absurd hp List.not_mem_nil
  · exact absurd h.symm (List.append_ne_nil_of_right_ne_nil _ (List.cons_ne_nil _ _))

/-- Every orderly step keeps the account of the answers. -/
theorem Accounted.snoc {events : List HalEvent} (hs : Accounted events s)
    (hd : DisjointIds s.pool) (h : HalStep s e t) (he : Orderly s e) :
    Accounted (events ++ [e]) t := by
  have hfresh : TakesFreshAddress s e := by
    cases e with
    | create => exact he
    | _ => trivial
  exact ⟨h.oneObject hs.oneObject hfresh, h.attributed hs.attributed hs.oneObject hd,
    h.balancedAt he hs.attributed.numbered hd hs.balanced,
    fun k call hcall => h.checked he hs.checked hcall, h.unreported hs.unreported hs.oneObject,
    hs.reported.snoc hs.unreported hs.oneObject hd h, hs.first.snoc hs.unreported hs.oneObject h⟩

/-- No request is pending twice in a run. -/
theorem disjointIds_of_run {R : HalState → HalEvent → HalState → Prop}
    {timeoutInNano clock : Int} {events : List HalEvent}
    (h : Path R (.start timeoutInNano clock) events s) (hR : ∀ s e t, R s e t → HalStep s e t) :
    DisjointIds s.pool := by
  obtain ⟨_, hpath⟩ := pool_of_run h hR
  refine Path.invariant hpath (fun c => ?_) fun s e t hs hstep => hstep.disjointIds hs
  rw [pendingOf_start]
  exact List.Pairwise.nil

/-- The account of the answers holds in every orderly run. -/
theorem accounted_of_run {timeoutInNano clock : Int} {events : List HalEvent}
    (h : Path (fun s e t => HalStep s e t ∧ Orderly s e) (.start timeoutInNano clock) events s) :
    Accounted events s := by
  induction h with
  | nil => exact accounted_start timeoutInNano clock
  | snoc hpath hstep ih =>
      exact ih.snoc (disjointIds_of_run hpath fun _ _ _ h => h.1) hstep.1 hstep.2

/-- In an orderly run every request of an accepted call is answered exactly once, and no request
for the hardware of a failed one. -/
theorem answeredOnce_of_run {timeoutInNano clock : Int} {events : List HalEvent}
    (h : Path (fun s e t => HalStep s e t ∧ Orderly s e) (.start timeoutInNano clock) events s) :
    AnsweredOnce events s := by
  have hs := accounted_of_run h
  obtain ⟨poolEvents, hpool⟩ := pool_of_run h fun _ _ _ h => h.1
  refine ⟨fun hend k call hcall hstage => ?_, fun k call error hcall hstage => ?_,
    hs.attributed.replies, hs.reported, hs.first⟩
  · have hchecked := (hs.checked k call hcall).resolve_right fun ⟨v, hv⟩ => by
      rw [hstage] at hv
      cases hv
    refine ⟨hchecked.distinct, fun r hr => ?_⟩
    have hdebt : s.debt k =
        some fun x => call.failedCount x + if x ∈ call.ids then 1 else 0 := by
      rw [debt_eq hcall, Call.debt, hstage]
    obtain ⟨c, _, hbalance⟩ := (hs.balanced k).balanced _ hdebt
    have hsum := hbalance r.requestId
    rw [waiting, pendingOf_of_destroyed hpool hend.destroyed c,
      List.flatMap_eq_nil_iff.mpr hend.invoked, hchecked.count_eq_one hr] at hsum
    exact hsum
  · have hcases : (∃ status, error = .hardware status) ∨ s.debt k = none := by
      rw [debt_eq hcall, Call.debt, hstage]
      cases error with
      | hardware status => exact Or.inl ⟨status, rfl⟩
      | _ => exact Or.inr rfl
    rcases hcases with ⟨status, rfl⟩ | hnone
    · have hchecked := (hs.checked k call hcall).resolve_right fun ⟨v, hv⟩ => by
        rw [hstage] at hv
        cases hv
      have hdebt : s.debt k = some call.failedCount := by rw [debt_eq hcall, Call.debt, hstage]
      obtain ⟨c, _, hbalance⟩ := (hs.balanced k).balanced _ hdebt
      refine ⟨fun r hr => ?_, fun hne => absurd rfl (hne status)⟩
      have hsum := hbalance r.requestId
      rw [hchecked.failedCount_eq_zero hr] at hsum
      omega
    · have hzero := ((hs.balanced k).untouched hnone).2.2
      exact ⟨fun r _ => hzero _, fun _ => hzero⟩

/-- The client of the runs below. -/
private def caller : ConnectedClient := ⟨0, 100, .get, 5⟩

/-- A call whose requests are all for the hardware. -/
private def readAll (requests : List ValueRequest) : Call :=
  ⟨.get, 5, requests, [], requests, .validated⟩

/-- The pool once the call has registered its requests. -/
private def poolOf (requests : List ValueRequest) : PendingRequestPool (Nat × TimeoutCallback) :=
  (addRequests (.ascending _) 0 100 (hardwareRequestIds requests) (0, ⟨0, caller⟩) ⟨10, ∅⟩).2

/-- The service while the hardware has the requests. -/
private def forwarded (requests : List ValueRequest) : HalState :=
  { (firstRegistered 10 100 (readAll requests) (poolOf requests)).advance 0 (readAll requests)
      (.forwarded caller) with
    resultCallbacks := [caller] }

/-- The service once the call has returned. -/
private def returned (requests : List ValueRequest) : HalState :=
  (forwarded requests).advance 0 (readAll requests) (.returned (.ok ()))

/-- The service once the hardware has reported a batch. -/
private def reported (requests : List ValueRequest) (results : List ValueResult) : HalState :=
  { returned requests with
    pool := ⟨((poolOf requests).tryFinishRequests 100 (resultIds results)).2, 0, 1, [], false⟩
    replies := [⟨.hardware, .get, 5, results.map fun r => (0, r)⟩] }

/-- The service once the hardware has also given its callback back and the pool is gone. -/
private def ended (requests : List ValueRequest) (results : List ValueResult) : HalState :=
  { reported requests results with
    pool := ⟨⟨10, ∅⟩, 0, 1, [(none, [])], true⟩
    resultCallbacks := [] }

/-- An event that no condition on a run is about. -/
private def Unconditional : HalEvent → Prop
  | .receive .. | .create .. | .report .. | .refuse .. => False
  | _ => True

/-- A run with one call and one batch of results for it. -/
private theorem reported_run (C : HalState → HalEvent → Prop) (requests : List ValueRequest)
    (results : List ValueResult) (ids : List Int) (hne : requests ≠ []) (hres : results ≠ [])
    (hdup : checkDuplicateRequests requests = some (.ok ids))
    (hsplit : splitRequests (checkedBy .get permissive) requests = ([], requests))
    (hadd : (addRequests (.ascending _) 0 100 (hardwareRequestIds requests)
      ((0, ⟨0, caller⟩) : Nat × TimeoutCallback) ⟨10, ∅⟩).1 = .ok ())
    (hfound : ((poolOf requests).tryFinishRequests 100 (resultIds results)).1 = {1})
    (hleft : ((poolOf requests).tryFinishRequests 100 (resultIds results)).2.destroy
      (.ascending _) = ([], ⟨10, ∅⟩))
    (hresults : getOrSetValuesCallback {1} results = results)
    (hcallOf : ∀ x ∈ results.map ValueResult.requestId, (returned requests).callOf 100 x = 0)
    (hreceive : C (start 10 0) (.receive 0 .get requests requests))
    (hcreate : C ((start 10 0).enter (readAll requests)) (.create 0 caller))
    (hreport : C (returned requests) (.report caller results {1}))
    (hC : ∀ s e, Unconditional e → C s e) :
    ∃ events, Path (fun s e t => HalStep s e t ∧ C s e) (.start 10 0) events
      (ended requests results) := by
  have h1 := HalStep.receive_checked (start 10 0) .get 5 permissive ids hdup
  rw [hsplit] at h1
  have h2 := firstConnected_step 10 100 (readAll requests) rfl
  have h3 := firstRegistered_step 10 100 (readAll requests) (.ascending _) (poolOf requests)
    (Prod.ext hadd rfl)
  have h4 : HalStep (firstRegistered 10 100 (readAll requests) (poolOf requests)) (.forward 0)
      (forwarded requests) :=
    .forward _ 0 { readAll requests with
      stage := if requests = [] then .returned (.ok ()) else .registered caller } caller rfl
      (if_neg hne)
  have h5 : HalStep (forwarded requests) (.complete 0) (returned requests) :=
    .complete _ 0 { readAll requests with stage := .forwarded caller } caller rfl rfl
  have hreplies : (returned requests).send .hardware caller
      ((getOrSetValuesCallback {1} results).map fun r =>
        ((returned requests).callOf caller.id r.requestId, r)) =
      (reported requests results).replies := by
    have hanswers : (results.map fun r => ((returned requests).callOf caller.id r.requestId, r)) =
        results.map fun r => (0, r) :=
      List.map_congr_left fun r hr => Prod.ext (hcallOf _ (List.mem_map_of_mem hr)) rfl
    rw [hresults, hanswers, send, if_neg fun h => hres (List.map_eq_nil_iff.mp h)]
    rfl
  have h6 := HalStep.report (returned requests) caller results {1} _ (List.mem_singleton_self _)
    (.tryFinishRequests (returned requests).pool 100 (resultIds results) {1} _ rfl
      (Prod.ext hfound rfl))
  rw [hreplies] at h6
  have h7 := HalStep.release (reported requests results) caller
  have h8 : HalStep { reported requests results with
      resultCallbacks := (reported requests results).resultCallbacks.erase caller } .destroy
      (ended requests results) := by
    refine .destroy _ ⟨⟨10, ∅⟩, 0, 1, [(none, [])], true⟩ (fun k call hcall => ?_) rfl
      (.destroy _ (.ascending _) [] _ rfl (fun sweep h => absurd h List.not_mem_nil) hleft)
    cases k with
    | zero =>
        cases hcall
        exact ⟨_, rfl⟩
    | succ k => cases hcall
  exact ⟨_, (((((((Path.single (R := fun s e t => HalStep s e t ∧ C s e) ⟨h1, hreceive⟩).snoc
    ⟨h2, hcreate⟩).snoc ⟨h3, hC _ _ trivial⟩).snoc ⟨h4, hC _ _ trivial⟩).snoc
    ⟨h5, hC _ _ trivial⟩).snoc ⟨h6, hreport⟩).snoc ⟨h7, hC _ _ trivial⟩).snoc
    ⟨h8, hC _ _ trivial⟩⟩

private theorem calls_ended (requests : List ValueRequest) (results : List ValueResult) :
    (ended requests results).calls 0 =
      some { readAll requests with stage := .returned (.ok ()) } := rfl

private theorem pool_ended (requests : List ValueRequest) (results : List ValueResult) :
    (ended requests results).pool.Ended := by
  refine ⟨rfl, fun sweep hsweep => ?_⟩
  rw [List.mem_singleton.mp hsweep]

/-- Two requests with one id, or two results for one id in a batch: the call is accepted and
its id is answered twice. -/
theorem answered_twice :
    (∃ events s call, Path HalStep (.start 10 0) events s ∧ s.pool.Ended ∧
      s.calls 0 = some call ∧ call.stage = .returned (.ok ()) ∧
      call.requests = [⟨1, { prop := 0x11400000 }⟩, ⟨1, { prop := 0x11400001 }⟩] ∧
      s.answered 0 1 = 2 ∧ ¬AnsweredOnce events s) ∧
    ∃ events s call, Path HalStep (.start 10 0) events s ∧ s.pool.Ended ∧
      s.calls 0 = some call ∧ call.stage = .returned (.ok ()) ∧
      call.requests = [⟨1, { prop := 0x11400000 }⟩] ∧
      s.answered 0 1 = 2 ∧ ¬AnsweredOnce events s := by
  have hnot {events : List HalEvent} (requests : List ValueRequest) (results : List ValueResult)
      (hr : ∃ r ∈ requests, r.requestId = 1)
      (htwo : (ended requests results).answered 0 1 = 2) :
      ¬AnsweredOnce events (ended requests results) := by
    intro h
    obtain ⟨r, hr, hid⟩ := hr
    have hone := (h.accepted (pool_ended _ _) 0 _ (calls_ended _ _) rfl).2 r hr
    rw [hid, htwo] at hone
    cases hone
  constructor
  · obtain ⟨events, hrun⟩ := reported_run (fun _ _ => True)
      [⟨1, { prop := 0x11400000 }⟩, ⟨1, { prop := 0x11400001 }⟩]
      [⟨1, .ok, none⟩, ⟨1, .ok, none⟩] [1, 1]
      nofun nofun (by decide) (by decide) (by decide) (by decide) (by rfl) (by decide) (by decide)
      trivial trivial trivial fun _ _ _ => trivial
    exact ⟨events, _, _, hrun.mono fun _ _ _ h => h.1, pool_ended _ _, calls_ended _ _, rfl, rfl,
      by decide, hnot _ _ ⟨_, List.mem_cons_self .., rfl⟩ (by decide)⟩
  · obtain ⟨events, hrun⟩ := reported_run (fun _ _ => True) [⟨1, { prop := 0x11400000 }⟩]
      [⟨1, .ok, none⟩, ⟨1, .ok, none⟩] [1]
      nofun nofun (by decide) (by decide) (by decide) (by decide) (by rfl) (by decide) (by decide)
      trivial trivial trivial fun _ _ _ => trivial
    exact ⟨events, _, _, hrun.mono fun _ _ _ h => h.1, pool_ended _ _, calls_ended _ _, rfl, rfl,
      by decide, hnot _ _ ⟨_, List.mem_cons_self .., rfl⟩ (by decide)⟩

/-- A request that the hardware reports once is answered once. -/
theorem answered_once_of_one_report :
    ∃ events s call, Path (fun s e t => HalStep s e t ∧ Orderly s e) (.start 10 0) events s ∧
      s.pool.Ended ∧ s.calls 0 = some call ∧ call.stage = .returned (.ok ()) ∧
      call.requests = [⟨1, { prop := 0x11400000 }⟩] ∧ s.answered 0 1 = 1 ∧
      AnsweredOnce events s := by
  obtain ⟨events, hrun⟩ := reported_run Orderly [⟨1, { prop := 0x11400000 }⟩]
    [⟨1, .ok, none⟩] [1] nofun nofun (by decide) (by decide) (by decide) (by decide) (by rfl)
    (by decide) (by decide)
    (List.nodup_singleton _) ⟨by rfl, fun other h => absurd h List.not_mem_nil⟩
    (List.pairwise_singleton _ _) fun s e he => by
      cases e with
      | receive | create | report | refuse => exact he.elim
      | _ => trivial
  exact ⟨events, _, _, hrun, pool_ended _ _, calls_ended _ _, rfl, rfl, by decide,
    answeredOnce_of_run hrun⟩

end VhalCore.VehicleHal
