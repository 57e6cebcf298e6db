import VhalCore.Models.PendingRequests.Interpretation.System

/-!
# The quota of pending requests

The test for too many requests subtracts the number of pending ids from the maximum
in an unsigned type. In every reachable state the number is at most the maximum, so
the subtraction is exact and the test accepts precisely what stays within the quota.
-/

namespace VhalCore.PendingRequests

open PendingRequestPool

variable {Callback κ : Type}

/-- No client has more pending ids than allowed. -/
def WithinQuota (s : PendingRequestPool κ) : Prop :=
  ∀ c, idCount (s.pendingOf c) ≤ maxPendingRequestPerClient

theorem idCount_append (ps qs : List (PendingRequest κ)) :
    idCount (ps ++ qs) = idCount ps + idCount qs := by
  rw [idCount, List.map_append, List.sum_append]
  rfl

/-- Finishing ids leaves no more ids than before. -/
theorem idCount_finishLoop (requestIds : Finset Int) (ps : List (PendingRequest κ)) :
    idCount (finishLoop requestIds ps).2 ≤ idCount ps := by
  induction ps with
  | nil => exact le_rfl
  | cons p ps ih =>
      have hcons (q : PendingRequest κ) (qs : List (PendingRequest κ)) :
          idCount (q :: qs) = q.requestIds.card + idCount qs := by
        rw [idCount, List.map_cons, List.sum_cons]
        rfl
      have hcard : (p.requestIds \ requestIds).card ≤ p.requestIds.card :=
        Finset.card_le_card Finset.sdiff_subset
      simp only [finishLoop]
      split
      · rw [hcons]
        omega
      · rw [hcons, hcons]
        simp only
        omega

/-- Expired requests only take ids away. -/
theorem idCount_dropWhile (q : PendingRequest κ → Bool) (ps : List (PendingRequest κ)) :
    idCount (ps.dropWhile q) ≤ idCount ps := by
  have h := congrArg idCount (List.takeWhile_append_dropWhile (p := q) (l := ps))
  rw [idCount_append] at h
  omega

/-- Within the quota the unsigned numbers are the true ones. -/
theorem WithinQuota.sizes {s : PendingRequestPool κ} (h : WithinQuota s) (c : ClientId) :
    s.countPendingRequests c = idCount (s.pendingOf c) ∧
      sizeSub maxPendingRequestPerClient (s.countPendingRequests c) =
        maxPendingRequestPerClient - idCount (s.pendingOf c) := by
  have hc := h c
  have hcount : s.countPendingRequests c = idCount (s.pendingOf c) := by
    rw [countPendingRequests_eq]
    refine Nat.mod_eq_of_lt (lt_of_le_of_lt hc ?_)
    decide
  refine ⟨hcount, ?_⟩
  rw [hcount, sizeSub]
  rw [maxPendingRequestPerClient] at hc ⊢
  omega

/-- Every step keeps the quota. -/
theorem PoolStep.withinQuota {s t : PoolSystem Callback} {e : PoolEvent Callback}
    (hs : WithinQuota s.pool) (h : PoolStep s e t) : WithinQuota t.pool := by
  intro c
  have hqueue := h.queue c
  generalize t.pool.pendingOf c = queue at hqueue ⊢
  cases hqueue with
  | kept => exact hs c
  | added requestIds callback time _ hcard =>
      rw [(hs.sizes c).2] at hcard
      have hc := hs c
      have hnew : idCount [(⟨requestIds, time + s.pool.mTimeoutInNano, (s.calls, callback)⟩ :
          PendingRequest (Nat × Callback))] = requestIds.card := by
        rw [idCount, List.map_singleton, List.sum_singleton]
      rw [idCount_append, hnew]
      omega
  | finished requestIds foundIds => exact (idCount_finishLoop requestIds _).trans (hs c)
  | swept time => exact (idCount_dropWhile _ _).trans (hs c)
  | destroyed => exact Nat.zero_le _

/-- In every reachable state each client is within its quota and the unsigned subtraction
is exact. Ids that are not pending are accepted exactly when they fit into the quota of
their client, whatever the other clients have pending. -/
theorem quota_of_run {timeoutInNano clock : Int} {events : List (PoolEvent Callback)}
    {s : PoolSystem Callback} (h : Path PoolStep (.start timeoutInNano clock) events s) :
    (∀ c, idCount (s.pool.pendingOf c) ≤ maxPendingRequestPerClient ∧
      s.pool.countPendingRequests c = idCount (s.pool.pendingOf c) ∧
      sizeSub maxPendingRequestPerClient (s.pool.countPendingRequests c) =
        maxPendingRequestPerClient - s.pool.countPendingRequests c) ∧
    (∀ order time c requestIds callback,
      (∀ x ∈ requestIds, s.pool.isRequestPending c x = false) →
      ((addRequests order time c requestIds callback s.pool).1 = .ok () ↔
        s.pool.countPendingRequests c + requestIds.card ≤ maxPendingRequestPerClient)) ∧
    ∀ order time c requestIds callback (other : PendingRequestPool (Nat × Callback)),
      other.pendingOf c = s.pool.pendingOf c →
      (addRequests order time c requestIds callback other).1 =
        (addRequests order time c requestIds callback s.pool).1 := by
  have hquota : WithinQuota s.pool := by
    refine Path.invariant (P := fun s : PoolSystem Callback => WithinQuota s.pool) h ?_
      fun s e t hs hstep => hstep.withinQuota hs
    intro c
    rw [pendingOf_start]
    exact Nat.zero_le _
  refine ⟨fun c => ⟨hquota c, (hquota.sizes c).1, ?_⟩, ?_, ?_⟩
  · rw [(hquota.sizes c).2, (hquota.sizes c).1]
  · intro order time c requestIds callback hfree
    have hfree' : ∀ x ∈ requestIds, ¬Pending (s.pool.pendingOf c) x := fun x hx => by
      rw [← isRequestPending_iff, hfree x hx]
      exact Bool.false_ne_true
    obtain ⟨hcount, hsub⟩ := hquota.sizes c
    have hc := hquota c
    rcases addRequests_cases order time c requestIds callback s.pool with
      ⟨x, t, _, hx, hpending, _⟩ | ⟨_, ⟨t, heq, hcard, _⟩ | ⟨t, heq, hcard, _⟩⟩
    · exact absurd hpending (hfree' x hx)
    · rw [heq]
      refine iff_of_false (fun he => by cases he) ?_
      omega
    · rw [heq]
      refine iff_of_true rfl ?_
      omega
  · intro order time c requestIds callback other hsame
    have hsame' : other.mPendingRequestsByClient.valueAt c [] =
        s.pool.mPendingRequestsByClient.valueAt c [] := hsame
    simp only [addRequests, hsame']
    cases countPendingLoop order requestIds 0 (s.pool.mPendingRequestsByClient.valueAt c []) with
    | error e => rfl
    | ok count =>
        simp only
        split <;> rfl

/-- A client with one pending request may add one that fits. -/
theorem quota_of_one_request :
    ∃ events s, Path PoolStep (.start 10 0 : PoolSystem Unit) events s ∧
      s.pool.countPendingRequests 1 = 1 ∧
      (addRequests (.ascending _) 5 1 {8} (1, ()) s.pool).1 = .ok () := by
  let r := addRequests (.ascending _) 0 1 {7} (0, ()) { mTimeoutInNano := 10 }
  have hr : r.1 = .ok () ∧ r.2.countPendingRequests 1 = 1 ∧ r.2.isRequestPending 1 8 = false := by
    decide
  have hrun : Path PoolStep (.start 10 0 : PoolSystem Unit) [.addRequests 0 1 {7} () 0 r.1]
      ⟨r.2, 0, 1, [], false⟩ :=
    .single (.addRequests (.start 10 0) (.ascending _) 1 {7} () 0 r.1 r.2 rfl le_rfl rfl)
  refine ⟨_, _, hrun, hr.2.1, ?_⟩
  refine ((quota_of_run hrun).2.1 (.ascending _) 5 1 {8} (1, ()) ?_).mpr ?_
  · intro x hx
    rw [Finset.mem_singleton.mp hx]
    exact hr.2.2
  · simp only
    rw [hr.2.1]
    decide

end VhalCore.PendingRequests
