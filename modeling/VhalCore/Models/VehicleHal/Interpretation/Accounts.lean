import VhalCore.Models.PendingRequests.Interpretation.Entries
import VhalCore.Models.VehicleHal.Interpretation.System

/-!
# The accounts of the calls

A call that has registered its requests owes one result for each of them. At any time
the results it has sent and the requests of it that still wait add up to what it owes.
A call that has not registered anything has sent nothing and nothing of it waits.
-/

namespace VhalCore.VehicleHal

open PendingRequests PendingRequestPool HalState

variable {s t : HalState} {k : Nat} {x : Int}

/-- The callbacks that a call has left in the pool. -/
def leftBy (k : Nat) (callback : Nat × TimeoutCallback) : Bool := callback.2.call = k

/-- The answer is one for an id of a call. -/
def answersTo (k : Nat) (x : Int) (answer : Nat × ValueResult) : Bool :=
  answer.1 = k ∧ answer.2.requestId = x

/-- The results that have been sent for an id of a call. -/
def HalState.answered (s : HalState) (k : Nat) (x : Int) : Nat :=
  (s.replies.flatMap Reply.answers).countP (answersTo k x)

/-- The results of failed checks that a call has for an id. -/
def Call.failedCount (call : Call) (x : Int) : Nat :=
  call.failedResults.countP fun r => r.requestId = x

/-- What a call owes for each id once it has registered its requests: a result for every failed
check, and one for a request that the hardware has not refused. -/
def Call.debt (call : Call) : Option (Int → Nat) :=
  match call.stage with
  | .registered _ | .forwarded _ | .returned (.ok _) =>
      some fun x => call.failedCount x + if x ∈ call.ids then 1 else 0
  | .returned (.error (.hardware _)) => some call.failedCount
  | _ => none

/-- What the call with a number owes. -/
def HalState.debt (s : HalState) (k : Nat) : Option (Int → Nat) := (s.calls k).bind Call.debt

/-- The account of one call. -/
structure BalancedAt (s : HalState) (k : Nat) : Prop where
  untouched : s.debt k = none →
    (∀ c, ∀ p ∈ s.pool.pool.pendingOf c, leftBy k p.callback = false) ∧
    (∀ sweep ∈ s.pool.sweeps, ∀ p ∈ sweep.2, leftBy k p.callback = false) ∧
    ∀ x, s.answered k x = 0
  balanced : ∀ due, s.debt k = some due →
    ∃ c, (∀ d, d ≠ c → ∀ p ∈ s.pool.pool.pendingOf d, leftBy k p.callback = false) ∧
      ∀ x, s.answered k x + waiting s.pool (leftBy k) c x = due x

theorem debt_eq {call : Call} (h : s.calls k = some call) : s.debt k = call.debt := by
  rw [HalState.debt, h, Option.bind_some]

theorem answered_append {reply : Reply} (h : t.replies = s.replies ++ [reply]) :
    t.answered k x = s.answered k x + reply.answers.countP (answersTo k x) := by
  rw [answered, answered, h, List.flatMap_append, List.countP_append, List.flatMap_singleton]

/-- A sent reply answers the requests that it holds. -/
theorem answered_send {origin : Origin} {client : ConnectedClient}
    {answers : List (Nat × ValueResult)} (h : t.replies = s.send origin client answers) :
    t.answered k x = s.answered k x + answers.countP (answersTo k x) := by
  rw [send] at h
  split at h
  · next hnil => rw [answered, answered, h, hnil, List.countP_nil, Nat.add_zero]
  · rw [answered_append h]

/-- In a list of disjoint requests only one holds an id. -/
theorem countP_holdsFor_of_disjoint {κ : Type} {ps : List (PendingRequest κ)}
    (hd : ps.Pairwise fun p q => Disjoint p.requestIds q.requestIds) {p : PendingRequest κ}
    (hp : p ∈ ps) (hx : x ∈ p.requestIds) (f : κ → Bool) :
    ps.countP (holdsFor f x) = if f p.callback then 1 else 0 := by
  induction ps with
  | nil => exact absurd hp List.not_mem_nil
  | cons q ps ih =>
      obtain ⟨hq, hps⟩ := List.pairwise_cons.mp hd
      rw [List.countP_cons]
      rcases List.mem_cons.mp hp with rfl | hmem
      · have hrest : ps.countP (holdsFor f x) = 0 := by
          rw [List.countP_eq_zero]
          intro r hr hholds
          exact Finset.disjoint_left.mp (hq r hr) hx ((holdsFor_iff f x r).mp hholds).2
        rw [hrest, Nat.zero_add]
        simp only [holdsFor_iff, hx, and_true]
      · have hnot : ¬holdsFor f x q = true := fun hholds =>
          Finset.disjoint_left.mp (hq p hmem) ((holdsFor_iff f x q).mp hholds).2 hx
        rw [if_neg hnot, Nat.add_zero]
        exact ih hps hmem

/-- The account of a call after a step that is none of the pool and sends nothing. -/
theorem BalancedAt.same (h : BalancedAt s k) (hpool : t.pool = s.pool)
    (hreplies : t.replies = s.replies) (hdebt : t.debt k = s.debt k) : BalancedAt t k := by
  have hanswered (x : Int) : t.answered k x = s.answered k x := by
    rw [answered, answered, hreplies]
  refine ⟨fun hnone => ?_, fun due hdue => ?_⟩
  · obtain ⟨hpending, hsweeps, hzero⟩ := h.untouched (hdebt.symm.trans hnone)
    rw [hpool]
    exact ⟨hpending, hsweeps, fun x => (hanswered x).trans (hzero x)⟩
  · obtain ⟨c, honly, hbalance⟩ := h.balanced due (hdebt.symm.trans hdue)
    refine ⟨c, ?_, fun x => ?_⟩
    · rw [hpool]
      exact honly
    · rw [hanswered, hpool]
      exact hbalance x

/-- Where no waiting request was left by the call, none is counted. -/
theorem waiting_eq_zero {pool : PoolSystem TimeoutCallback} {c : ClientId}
    (hpending : ∀ p ∈ pool.pool.pendingOf c, leftBy k p.callback = false)
    (hsweeps : ∀ sweep ∈ pool.sweeps, ∀ p ∈ sweep.2, leftBy k p.callback = false) (x : Int) :
    waiting pool (leftBy k) c x = 0 := by
  have hnot {p : PendingRequest (Nat × TimeoutCallback)} (hp : leftBy k p.callback = false) :
      ¬holdsFor (leftBy k) x p = true := fun hholds => by
    rw [((holdsFor_iff _ x p).mp hholds).1] at hp
    cases hp
  rw [waiting, List.countP_eq_zero.mpr fun p hmem => hnot (hpending p hmem),
    List.countP_eq_zero.mpr fun p hmem => ?_]
  obtain ⟨sweep, hsweep, hmem⟩ := List.mem_flatMap.mp hmem
  exact hnot (hsweeps sweep hsweep p hmem)

/-- The account of a call after a step of the pool that adds nothing for it, if the results
sent in the step make up for what no longer waits. -/
theorem BalancedAt.moved (h : BalancedAt s k) {pe : PoolEvent TimeoutCallback}
    (hpool : PoolStep s.pool pe t.pool) (hdebt : t.debt k = s.debt k)
    (hadd : ∀ n c requestIds callback time,
      pe = .addRequests n c requestIds callback time (.ok ()) → callback.call ≠ k)
    (hmoved : ∀ c, (∀ d, d ≠ c → ∀ p ∈ s.pool.pool.pendingOf d, leftBy k p.callback = false) →
      ∀ x, (t.answered k x : Int) + waitingChange s.pool (leftBy k) c x pe = s.answered k x) :
    BalancedAt t k := by
  have hpending (c : ClientId)
      (hs : ∀ p ∈ s.pool.pool.pendingOf c, leftBy k p.callback = false) :
      ∀ p ∈ t.pool.pool.pendingOf c, leftBy k p.callback = false := by
    intro p hp
    rcases hpool.pendingOf_cases hp with
      ⟨q, hq, hcallback, _⟩ | ⟨requestIds, callback, time, he, rfl⟩
    · rw [hcallback]
      exact hs q hq
    · exact decide_eq_false (hadd _ _ _ _ _ he)
  refine ⟨fun hnone => ?_, fun due hdue => ?_⟩
  · obtain ⟨hnone, hsweeps, hzero⟩ := h.untouched (hdebt.symm.trans hnone)
    have hnone' := fun c => hpending c (hnone c)
    have hsweeps' : ∀ sweep ∈ t.pool.sweeps, ∀ p ∈ sweep.2, leftBy k p.callback = false := by
      intro sweep hsweep p hp
      rcases hpool.sweeps_cases hsweep with ⟨sweep', hmem, _, hrest⟩ | ⟨_, htaken⟩
      · exact hsweeps sweep' hmem p (hrest p hp)
      · obtain ⟨⟨c, hc⟩, _⟩ := htaken p hp
        exact hnone c p hc
    refine ⟨hnone', hsweeps', fun x => ?_⟩
    have hchange := hpool.waiting_eq (f := leftBy k) (c := 0) (fun d _ => hnone d) x
    rw [waiting_eq_zero (hnone 0) hsweeps, waiting_eq_zero (hnone' 0) hsweeps'] at hchange
    have hanswers := hmoved 0 (fun d _ => hnone d) x
    rw [hzero] at hanswers
    omega
  · obtain ⟨c, honly, hbalance⟩ := h.balanced due (hdebt.symm.trans hdue)
    refine ⟨c, fun d hd => hpending d (honly d hd), fun x => ?_⟩
    have hchange := hpool.waiting_eq honly x
    have hanswers := hmoved c honly x
    have hsum := hbalance x
    omega

/-- The answers to one call among results that are told apart by their ids. -/
theorem countP_answersTo (callOf : Int → Nat) (k : Nat) (x : Int) (results : List ValueResult) :
    (results.map fun r => (callOf r.requestId, r)).countP (answersTo k x) =
      if callOf x = k then results.countP fun r => r.requestId = x else 0 := by
  rw [List.countP_map]
  split
  · next hk =>
    refine List.countP_congr fun r _ => ?_
    simp only [answersTo, Function.comp_apply, Bool.decide_and, Bool.and_eq_true,
      decide_eq_true_eq, and_iff_right_iff_imp]
    rintro rfl
    exact hk
  · next hk =>
    rw [List.countP_eq_zero]
    intro r _ hr
    simp only [answersTo, Function.comp_apply, Bool.decide_and, Bool.and_eq_true,
      decide_eq_true_eq] at hr
    exact hk (hr.2 ▸ hr.1)

/-- A timeout has one result for each of its ids. -/
theorem countP_onTimeout (order : Traversal Int) (requestIds : Finset Int) (x : Int) :
    (onTimeout order requestIds).countP (fun r => r.requestId = x) =
      if x ∈ requestIds then 1 else 0 := by
  have hcount : (onTimeout order requestIds).countP (fun r => r.requestId = x) =
      (order.visit requestIds).count x := by
    rw [onTimeout, List.countP_map, List.count]
    exact List.countP_congr fun y _ => by simp
  rw [hcount, List.Nodup.count (order.nodup requestIds)]
  simp only [order.mem]

/-- What is passed on of a batch has one result for each id that was found, if it has no
repetitions. -/
theorem countP_getOrSetValuesCallback {results : List ValueResult} {foundIds : Finset Int}
    (hnodup : ((getOrSetValuesCallback foundIds results).map ValueResult.requestId).Nodup)
    (hfound : foundIds ⊆ resultIds results) (x : Int) :
    (getOrSetValuesCallback foundIds results).countP (fun r => r.requestId = x) =
      if x ∈ foundIds then 1 else 0 := by
  have hcount : (getOrSetValuesCallback foundIds results).countP (fun r => r.requestId = x) =
      ((getOrSetValuesCallback foundIds results).map ValueResult.requestId).count x := by
    rw [List.count, List.countP_map]
    exact List.countP_congr fun r _ => by simp
  have hmem : x ∈ (getOrSetValuesCallback foundIds results).map ValueResult.requestId ↔
      x ∈ foundIds := by
    rw [getOrSetValuesCallback, List.mem_map]
    constructor
    · rintro ⟨r, hr, rfl⟩
      exact of_decide_eq_true (List.mem_filter.mp hr).2
    · intro hx
      obtain ⟨r, hr, rfl⟩ := List.mem_map.mp (List.mem_toFinset.mp (hfound hx))
      exact ⟨r, List.mem_filter.mpr ⟨hr, decide_eq_true hx⟩, rfl⟩
  rw [hcount, List.Nodup.count hnodup]
  simp only [hmem]

/-- The call of a pending id is the one that left the request with it. -/
theorem callOf_eq (hd : DisjointIds s.pool) {c : ClientId}
    {p : PendingRequest (Nat × TimeoutCallback)} (hp : p ∈ s.pool.pool.pendingOf c)
    (hx : x ∈ p.requestIds) : s.callOf c x = p.callback.2.call := by
  rw [callOf]
  cases hfind : (s.pool.pool.pendingOf c).find? fun p => x ∈ p.requestIds with
  | none =>
      have hnot := List.find?_eq_none.mp hfind p hp
      exact absurd (decide_eq_true hx) hnot
  | some q =>
      have hq := List.find?_some hfind
      rw [decide_eq_true_eq] at hq
      have hcount := countP_holdsFor_of_disjoint (hd c) hp hx (leftBy q.callback.2.call)
      rw [countP_holdsFor_of_disjoint (hd c) (List.mem_of_find?_eq_some hfind) hq] at hcount
      simp only [leftBy, decide_eq_true_eq, ite_true] at hcount
      rw [Option.map_some, Option.getD_some]
      split at hcount
      · next heq => exact heq.symm
      · cases hcount

/-- Reported results make up for the requests that they finish. -/
theorem BalancedAt.reported (h : BalancedAt s k) (hd : DisjointIds s.pool)
    {client : ConnectedClient} {results : List ValueResult} {foundIds : Finset Int}
    (hpool : PoolStep s.pool (.tryFinishRequests client.id (resultIds results) foundIds) t.pool)
    (hdistinct : results.Pairwise fun a b => a.requestId = b.requestId →
      ¬Pending (s.pool.pool.pendingOf client.id) a.requestId) (hdebt : t.debt k = s.debt k)
    (hreplies : t.replies = s.send .hardware client
      ((getOrSetValuesCallback foundIds results).map fun r =>
        (s.callOf client.id r.requestId, r))) :
    BalancedAt t k := by
  have hfound := hpool.found_iff
  have hnodup : ((getOrSetValuesCallback foundIds results).map ValueResult.requestId).Nodup := by
    refine List.pairwise_map.mpr (List.pairwise_filter.mpr (hdistinct.imp ?_))
    intro a b hab ha _ heq
    exact hab heq ((hfound _).mp (of_decide_eq_true ha)).2
  refine h.moved hpool hdebt (by nofun) fun c honly x => ?_
  have hanswered := answered_send (k := k) (x := x) hreplies
  rw [countP_answersTo (s.callOf client.id), countP_getOrSetValuesCallback hnodup
    fun x hx => ((hfound x).mp hx).1] at hanswered
  rw [waitingChange]
  by_cases hx : x ∈ foundIds
  · obtain ⟨hresult, p, hp, hxp⟩ := (hfound x).mp hx
    rw [callOf_eq hd hp hxp, if_pos hx] at hanswered
    by_cases hc : client.id = c
    · subst hc
      rw [if_pos ⟨rfl, hresult⟩, countP_holdsFor_of_disjoint (hd client.id) hp hxp]
      simp only [leftBy, decide_eq_true_eq]
      split at hanswered <;> simp_all
    · have hother : ¬p.callback.2.call = k := of_decide_eq_false (honly client.id hc p hp)
      rw [if_neg hother] at hanswered
      rw [if_neg fun h => hc h.1, hanswered, Int.add_zero, Nat.add_zero]
  · rw [if_neg hx, ite_self, Nat.add_zero] at hanswered
    rw [hanswered]
    split
    · next hcond =>
      obtain ⟨rfl, hresult⟩ := hcond
      have hnot : ¬Pending (s.pool.pool.pendingOf client.id) x :=
        fun hpending => hx ((hfound x).mpr ⟨hresult, hpending⟩)
      rw [countP_holdsFor_of_not_pending hnot, Nat.cast_zero, neg_zero, Int.add_zero]
    · rw [Int.add_zero]

/-- The results of a timeout make up for the request whose time is over. -/
theorem BalancedAt.timedOut (h : BalancedAt s k) {order : Traversal Int} {n : Nat}
    {callback : TimeoutCallback} {requestIds : Finset Int} {time : Option Int}
    (hpool : PoolStep s.pool (.invoke n callback requestIds time) t.pool)
    (hdebt : t.debt k = s.debt k)
    (hreplies : t.replies = s.replies ++ [⟨.timeout, callback.client.kind,
      callback.client.callback, (onTimeout order requestIds).map fun r => (callback.call, r)⟩]) :
    BalancedAt t k := by
  refine h.moved hpool hdebt (by nofun) fun c _ x => ?_
  have hanswered := answered_append (k := k) (x := x) hreplies
  rw [countP_answersTo fun _ => callback.call, countP_onTimeout] at hanswered
  simp only [waitingChange, leftBy, decide_eq_true_eq]
  split at hanswered
  · next hk =>
    simp only [hk, true_and]
    split at hanswered
    · next hx =>
      rw [if_pos hx]
      omega
    · next hx =>
      rw [if_neg hx]
      omega
  · next hk =>
    rw [if_neg fun h => hk h.1]
    omega

/-- A call opens its account when it registers its requests. -/
theorem BalancedAt.registered (h : BalancedAt s k) {call : Call} {client : ConnectedClient}
    {n : Nat} {time : Int}
    (hpool : PoolStep s.pool
      (.addRequests n client.id call.ids ⟨k, client⟩ time (.ok ())) t.pool)
    (hclosed : s.debt k = none)
    (hdebt : t.debt k = some fun x => call.failedCount x + if x ∈ call.ids then 1 else 0)
    (hreplies : t.replies =
      s.send .validation client (call.failedResults.map fun r => (k, r))) : BalancedAt t k := by
  obtain ⟨hpending, hsweeps, hzero⟩ := h.untouched hclosed
  refine ⟨fun hnone => absurd (hdebt.symm.trans hnone) nofun, fun due hdue => ?_⟩
  cases hdebt.symm.trans hdue
  refine ⟨client.id, fun d hd p hp => ?_, fun x => ?_⟩
  · rcases hpool.pendingOf_cases hp with
      ⟨q, hq, hcallback, _⟩ | ⟨requestIds, callback, time', he, _⟩
    · rw [hcallback]
      exact hpending d q hq
    · injection he with _ hc
      exact absurd hc.symm hd
  · have hanswered := answered_send (k := k) (x := x) hreplies
    have hchange := hpool.waiting_eq (f := leftBy k) (c := client.id) (fun d _ => hpending d) x
    rw [countP_answersTo fun _ => k, if_pos rfl, hzero] at hanswered
    rw [waiting_eq_zero (hpending client.id) hsweeps] at hchange
    simp only [waitingChange, leftBy, decide_eq_true_eq, true_and] at hchange
    simp only [Call.failedCount]
    split
    · next hx =>
      rw [if_pos hx] at hchange
      omega
    · next hx =>
      rw [if_neg hx] at hchange
      omega

/-- The account of a call is not touched when another one registers its requests. -/
theorem BalancedAt.registered_other {j : Nat} (h : BalancedAt s k) {call : Call}
    {client : ConnectedClient} {n : Nat} {time : Int}
    (hpool : PoolStep s.pool
      (.addRequests n client.id call.ids ⟨j, client⟩ time (.ok ())) t.pool)
    (hne : j ≠ k) (hdebt : t.debt k = s.debt k)
    (hreplies : t.replies =
      s.send .validation client (call.failedResults.map fun r => (j, r))) : BalancedAt t k := by
  refine h.moved hpool hdebt ?_ fun c _ x => ?_
  · rintro _ _ _ _ _ ⟨⟩
    exact hne
  · rw [answered_send hreplies, countP_answersTo fun _ => j, if_neg hne, Nat.add_zero,
      waitingChange, if_neg fun hcond => hne (of_decide_eq_true hcond.2.1), Int.add_zero]

/-- A call whose requests are all pending takes them back when the hardware refuses it. -/
theorem BalancedAt.refused {j : Nat} (h : BalancedAt s j) (hd : DisjointIds s.pool)
    {call : Call} {client : ConnectedClient} {foundIds : Finset Int}
    (hpool : PoolStep s.pool (.tryFinishRequests client.id call.ids foundIds) t.pool)
    {p : PendingRequest (Nat × TimeoutCallback)} (hp : p ∈ s.pool.pool.pendingOf client.id)
    (hcall : p.callback.2.call = k) (hids : p.requestIds = call.ids)
    (hreplies : t.replies = s.replies)
    (hother : j ≠ k → t.debt j = s.debt j)
    (hbefore : s.debt k = some fun x => call.failedCount x + if x ∈ call.ids then 1 else 0)
    (hafter : t.debt k = some call.failedCount) : BalancedAt t j := by
  have hanswered (x : Int) : t.answered j x = s.answered j x := by
    rw [answered, answered, hreplies]
  have hcount {x : Int} (hx : x ∈ call.ids) :
      (s.pool.pool.pendingOf client.id).countP (holdsFor (leftBy j) x) =
        if k = j then 1 else 0 := by
    rw [countP_holdsFor_of_disjoint (hd client.id) hp (hids ▸ hx)]
    simp only [leftBy, decide_eq_true_eq, hcall]
  by_cases hj : j = k
  · subst hj
    refine ⟨fun hnone => absurd (hafter.symm.trans hnone) (by rintro ⟨⟩), fun due hdue => ?_⟩
    cases hafter.symm.trans hdue
    obtain ⟨c, honly, hbalance⟩ := h.balanced _ hbefore
    have hc : client.id = c := by
      by_contra hne
      have hnot := honly client.id hne p hp
      rw [leftBy, hcall] at hnot
      exact of_decide_eq_false hnot rfl
    subst hc
    refine ⟨client.id, fun d hne q hq => ?_, fun x => ?_⟩
    · rcases hpool.pendingOf_cases hq with ⟨q', hq', hcallback, _⟩ | ⟨_, _, _, he, _⟩
      · rw [hcallback]
        exact honly d hne q' hq'
      · cases he
    · have hchange := hpool.waiting_eq honly x
      have hsum := hbalance x
      rw [waitingChange] at hchange
      rw [hanswered]
      by_cases hx : x ∈ call.ids
      · rw [if_pos ⟨rfl, hx⟩, hcount hx, if_pos rfl] at hchange
        rw [if_pos hx] at hsum
        omega
      · rw [if_neg fun hcond => hx hcond.2] at hchange
        rw [if_neg hx] at hsum
        omega
  · refine h.moved hpool (hother hj) (by rintro _ _ _ _ _ ⟨⟩) fun c _ x => ?_
    rw [hanswered, waitingChange]
    split
    · next hcond =>
      obtain ⟨rfl, hx⟩ := hcond
      rw [hcount hx, if_neg (Ne.symm hj), Nat.cast_zero, neg_zero, Int.add_zero]
    · rw [Int.add_zero]

end VhalCore.VehicleHal
