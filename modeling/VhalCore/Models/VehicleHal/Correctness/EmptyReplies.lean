import VhalCore.Models.PendingRequests.Interpretation.Entries
import VhalCore.Models.VehicleHal.Interpretation.System

/-!
# Empty replies

A call whose requests all fail their checks, or that has none, still registers the
empty set of ids in the pool. The set is not dropped before its time is over, and the
timeout is then answered with no result at all. As long as every call has a request
for the hardware, nothing empty enters the pool and nothing empty is sent.
-/

namespace VhalCore.PendingRequests

variable {Callback : Type} {s t : PoolSystem Callback} {e : PoolEvent Callback}

/-- No request waits without ids. -/
structure NoEmptyRequest (s : PoolSystem Callback) : Prop where
  pending : ∀ c, ∀ p ∈ s.pool.pendingOf c, p.requestIds ≠ ∅
  sweeping : ∀ sweep ∈ s.sweeps, ∀ p ∈ sweep.2, p.requestIds ≠ ∅

/-- Only an empty call brings in a request without ids. -/
theorem PoolStep.noEmptyRequest (hs : NoEmptyRequest s) (h : PoolStep s e t)
    (hadd : ∀ n c requestIds callback time,
      e = .addRequests n c requestIds callback time (.ok ()) → requestIds ≠ ∅) :
    NoEmptyRequest t := by
  refine ⟨fun c p hp => ?_, fun sweep hsweep p hp => ?_⟩
  · rcases h.pendingOf_cases hp with
      ⟨q, hq, _, _, _, rfl | hne⟩ | ⟨requestIds, callback, time, he, rfl⟩
    · exact hs.pending c p hq
    · exact hne
    · exact hadd _ _ _ _ _ he
  · rcases h.sweeps_cases hsweep with ⟨sweep', hmem, _, hrest⟩ | ⟨_, htaken⟩
    · exact hs.sweeping sweep' hmem p (hrest p hp)
    · obtain ⟨⟨c, hc⟩, _⟩ := htaken p hp
      exact hs.pending c p hc

end VhalCore.PendingRequests

namespace VhalCore.VehicleHal

open PendingRequests PendingRequestPool HalState

variable {s t : HalState} {e : HalEvent}

/-- A call that is received has a request that passes its check. -/
def HasHardwareRequest : HalEvent → Prop
  | .receive _ _ _ hardwareRequests => hardwareRequests ≠ []
  | _ => True

/-- Nothing empty is under way or has been sent. -/
structure NothingEmpty (s : HalState) : Prop where
  calls : ∀ k call, s.calls k = some call → (∀ r, call.stage ≠ .returned r) →
    call.hardwareRequests ≠ []
  pool : NoEmptyRequest s.pool
  replies : ∀ reply ∈ s.replies, reply.results ≠ []

/-- The ids of a call with a request for the hardware. -/
theorem ids_ne_empty {call : Call} (h : call.hardwareRequests ≠ []) : call.ids ≠ ∅ := by
  rw [Call.ids, hardwareRequestIds, Ne, List.toFinset_eq_empty_iff, List.map_eq_nil_iff]
  exact h

/-- A reply that is sent has results, if all before have. -/
theorem results_send {origin : Origin} {client : ConnectedClient}
    {answers : List (Nat × ValueResult)} (hs : ∀ reply ∈ s.replies, reply.results ≠ []) :
    ∀ reply ∈ s.send origin client answers, reply.results ≠ [] := by
  intro reply hreply
  rw [send] at hreply
  split at hreply
  · exact hs reply hreply
  · next hne =>
    rcases List.mem_append.mp hreply with hold | hnew
    · exact hs reply hold
    · rw [List.mem_singleton.mp hnew, Reply.results, Ne, List.map_eq_nil_iff]
      exact hne

/-- A call that is under way has a request for the hardware. -/
theorem HalStep.hardwareRequests_ne_nil (hs : NothingEmpty s) (h : HalStep s e t)
    (he : HasHardwareRequest e) (k : Nat) (call : Call) (hcall : t.calls k = some call)
    (hrunning : ∀ r, call.stage ≠ .returned r) : call.hardwareRequests ≠ [] := by
  obtain ⟨_, hsame | ⟨_, _, new, hnew, hcame⟩ | ⟨other, stage, hother, hbefore, hgoesOn⟩⟩ :=
    h.call_cases k
  · exact hs.calls k call (hsame.symm.trans hcall) hrunning
  · cases hnew.symm.trans hcall
    rcases hcame with ⟨v, hv⟩ | ⟨rfl, _⟩
    · exact absurd hv (hrunning _)
    · exact he
  · cases hgoesOn.symm.trans hcall
    exact hs.calls k other hother hbefore

/-- A timeout is of some requests. -/
theorem timeout_ne_empty (hs : NothingEmpty s) {k : Nat} {requestIds : Finset Int}
    (h : HalStep s (.timeout k requestIds) t) : requestIds ≠ ∅ := by
  cases h with
  | timeout order n callback requestIds time pool hpool =>
      obtain ⟨sweep, hsweep, p, hp, rfl, _⟩ := hpool.invoke_mem
      exact hs.pool.sweeping sweep hsweep p hp

/-- Every step keeps out what is empty. -/
theorem HalStep.nothingEmpty (hs : NothingEmpty s) (h : HalStep s e t)
    (he : HasHardwareRequest e) : NothingEmpty t := by
  refine ⟨h.hardwareRequests_ne_nil hs he, ?_, ?_⟩
  · cases h with
    | registerFailed k call client n time error pool hcall hstage hpool =>
        exact hpool.noEmptyRequest hs.pool (by rintro _ _ _ _ _ ⟨⟩)
    | register k call client n time pool hcall hstage hpool =>
        refine hpool.noEmptyRequest hs.pool ?_
        rintro _ _ _ _ _ ⟨⟩
        exact ids_ne_empty (hs.calls k call hcall (running_of_stage hstage rfl))
    | refuse k call client status foundIds pool hcall hstage hstatus hpool =>
        exact hpool.noEmptyRequest hs.pool (by rintro _ _ _ _ _ ⟨⟩)
    | report client results foundIds pool hheld hpool =>
        exact hpool.noEmptyRequest hs.pool (by rintro _ _ _ _ _ ⟨⟩)
    | sweep time pool hpool => exact hpool.noEmptyRequest hs.pool (by rintro _ _ _ _ _ ⟨⟩)
    | timeout order n callback requestIds time pool hpool =>
        exact hpool.noEmptyRequest hs.pool (by rintro _ _ _ _ _ ⟨⟩)
    | destroy pool hcalls hreleased hpool =>
        exact hpool.noEmptyRequest hs.pool (by rintro _ _ _ _ _ ⟨⟩)
    | _ => exact hs.pool
  · cases h with
    | register k call client n time pool hcall hstage hpool => exact results_send hs.replies
    | report client results foundIds pool hheld hpool => exact results_send hs.replies
    | timeout order n callback requestIds time pool hpool =>
        intro reply hreply
        rcases List.mem_append.mp hreply with hold | hnew
        · exact hs.replies reply hold
        · rw [List.mem_singleton.mp hnew, Reply.results, Ne, List.map_eq_nil_iff,
            List.map_eq_nil_iff, onTimeout, List.map_eq_nil_iff]
          obtain ⟨sweep, hsweep, p, hp, rfl, _⟩ := hpool.invoke_mem
          obtain ⟨x, hx⟩ := Finset.nonempty_iff_ne_empty.mpr (hs.pool.sweeping sweep hsweep p hp)
          exact List.ne_nil_of_mem ((order.mem _ x).mpr hx)
    | _ => exact hs.replies

/-- A new state holds nothing empty. -/
theorem nothingEmpty_start (timeoutInNano clock : Int) :
    NothingEmpty (.start timeoutInNano clock) where
  calls _ _ h := by cases h
  pool := {
    pending := fun c p hp => by
      rw [HalState.start, pendingOf_start] at hp
      exact absurd hp List.not_mem_nil
    sweeping := fun _ h => absurd h List.not_mem_nil }
  replies _ h := absurd h List.not_mem_nil

/-- If every call that is received has a request for the hardware, no client is sent an empty
list of results and no timeout has an empty set of ids. -/
theorem noEmptyReply_of_run {timeoutInNano clock : Int} {events : List HalEvent}
    (h : Path (fun s e t => HalStep s e t ∧ HasHardwareRequest e) (.start timeoutInNano clock)
      events s) :
    (∀ reply ∈ s.replies, reply.results ≠ []) ∧
      ∀ k requestIds, .timeout k requestIds ∈ events → requestIds ≠ ∅ := by
  have hinv : NothingEmpty s ∧ ∀ k requestIds, .timeout k requestIds ∈ events → requestIds ≠ ∅ := by
    induction h with
    | nil => exact ⟨nothingEmpty_start _ _, fun _ _ h => absurd h List.not_mem_nil⟩
    | snoc _ hstep ih =>
        refine ⟨hstep.1.nothingEmpty ih.1 hstep.2, fun k requestIds hmem => ?_⟩
        rcases List.mem_append.mp hmem with hold | hnew
        · exact ih.2 k requestIds hold
        · rw [← List.mem_singleton.mp hnew] at hstep
          exact timeout_ne_empty ih.1 hstep.1
  exact ⟨hinv.1.replies, hinv.2⟩


/-- A first call that is left to its timeout: its client is sent the results of the timeout. -/
private theorem timeout_run (C : HalEvent → Prop) (requests : List ValueRequest) (ids : List Int)
    {call : Call} {pool : PendingRequestPool (Nat × TimeoutCallback)}
    (hdup : checkDuplicateRequests requests = some (.ok ids))
    (hcall : call = ⟨.get, 5, requests, (splitRequests (checkedBy .get permissive) requests).1,
      (splitRequests (checkedBy .get permissive) requests).2, .validated⟩)
    (hadd : addRequests (.ascending _) 0 100 call.ids (0, ⟨0, firstClient 100 call⟩) ⟨10, ∅⟩ =
      (.ok (), pool))
    (hsweep : (pool.checkTimeout (.ascending _) 11).1 =
      [⟨call.ids, 10, (0, ⟨0, firstClient 100 call⟩)⟩])
    (hreceive : C (.receive 0 .get requests call.hardwareRequests))
    (hC : ∀ e, (∀ k kind requests hardwareRequests,
      e ≠ .receive k kind requests hardwareRequests) → C e) :
    ∃ events s, Path (fun s e t => HalStep s e t ∧ C e) (.start 10 0) events s ∧
      .timeout 0 call.ids ∈ events ∧
      ∃ reply ∈ s.replies, reply.results = onTimeout (.ascending _) call.ids := by
  have h1 : HalStep (.start 10 0) (.receive 0 .get requests call.hardwareRequests)
      ((start 10 0).enter call) := by
    rw [hcall]
    exact .receive_checked (.start 10 0) .get 5 permissive ids hdup
  have h2 := firstConnected_step 10 100 call (by rw [hcall])
  have h3 := firstRegistered_step 10 100 call (.ascending _) pool hadd
  let swept : PoolSystem TimeoutCallback := ⟨(pool.checkTimeout (.ascending _) 11).2, 11, 1,
    [(some 11, [⟨call.ids, 10, (0, ⟨0, firstClient 100 call⟩)⟩])], false⟩
  have h4 := HalStep.sweep (firstRegistered 10 100 call pool) 11 swept
    (.checkTimeout _ (.ascending _) 11 _ _ rfl (show (0 : Int) ≤ 11 by decide)
      (Prod.ext hsweep rfl))
  have h5 := HalStep.timeout { firstRegistered 10 100 call pool with pool := swept } (.ascending _)
    0 ⟨0, firstClient 100 call⟩ call.ids (some 11) { swept with sweeps := [(some 11, [])] }
    (.invoke swept [] [] (some 11) ⟨call.ids, 10, (0, ⟨0, firstClient 100 call⟩)⟩ [] rfl)
  have hrun := ((((Path.single (R := fun s e t => HalStep s e t ∧ C e) ⟨h1, hreceive⟩).snoc
    ⟨h2, hC _ nofun⟩).snoc ⟨h3, hC _ nofun⟩).snoc ⟨h4, hC _ nofun⟩).snoc ⟨h5, hC _ nofun⟩
  refine ⟨_, _, hrun, List.mem_append_right _ (List.mem_singleton_self _), _,
    List.mem_append_right _ (List.mem_singleton_self _), ?_⟩
  rw [Reply.results, List.map_map]
  exact List.map_id _

/-- A call with no request at all is accepted, and answered with nothing when its time is
over. -/
theorem empty_reply :
    ∃ events s, Path HalStep (.start 10 0) events s ∧ .timeout 0 ∅ ∈ events ∧
      ∃ reply ∈ s.replies, reply.results = [] := by
  obtain ⟨events, s, hrun, htimeout, reply, hreply, hresults⟩ :=
    timeout_run (fun _ => True) [] [] rfl rfl
      (Prod.ext (by decide) rfl) rfl trivial (fun _ _ => trivial)
  exact ⟨events, s, hrun.mono fun _ _ _ h => h.1, htimeout, reply, hreply, hresults⟩

/-- A call with one request for the hardware is answered with one result. -/
theorem noEmptyReply_of_one_request :
    ∃ events s, Path (fun s e t => HalStep s e t ∧ HasHardwareRequest e) (.start 10 0) events s ∧
      (∃ reply ∈ s.replies, reply.results = [⟨7, .tryAgain, none⟩]) ∧
      ∀ reply ∈ s.replies, reply.results ≠ [] := by
  obtain ⟨events, s, hrun, htimeout, reply, hreply, hresults⟩ :=
    timeout_run HasHardwareRequest [⟨7, { prop := 0x11400000 }⟩] [7] (by decide) rfl
      (Prod.ext (by decide) rfl) rfl (List.cons_ne_nil _ _) (fun e he => by
        cases e <;> first | trivial | exact absurd rfl (he _ _ _ _))
  refine ⟨events, s, hrun, ⟨reply, hreply, hresults⟩, (noEmptyReply_of_run hrun).1⟩

end VhalCore.VehicleHal
