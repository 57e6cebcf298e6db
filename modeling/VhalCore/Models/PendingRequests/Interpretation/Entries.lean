import Mathlib.Algebra.BigOperators.Group.List.Basic
import Mathlib.Data.List.TakeWhile
import VhalCore.Models.PendingRequests.Interpretation.System

/-!
# What a step does to the waiting requests

A request waits among the pending ones of its client and then, when its time is over,
in a sweep until its callback is called. A step adds one request, takes ids away from
the pending ones, moves requests from the pending ones to a sweep or takes one from a
sweep. The requests that belong to certain callbacks and hold a certain id are counted
over both places.
-/

namespace VhalCore.PendingRequests

open PendingRequestPool

variable {Callback κ : Type} {s t : PoolSystem Callback} {e : PoolEvent Callback}

/-- A request of one of the callbacks that contains the id. -/
def holdsFor (f : κ → Bool) (x : Int) (p : PendingRequest κ) : Bool :=
  f p.callback && decide (x ∈ p.requestIds)

theorem holdsFor_iff (f : κ → Bool) (x : Int) (p : PendingRequest κ) :
    holdsFor f x p = true ↔ f p.callback = true ∧ x ∈ p.requestIds := by
  rw [holdsFor, Bool.and_eq_true, decide_eq_true_eq]

/-- An id that is not pending is in no pending request. -/
theorem countP_holdsFor_of_not_pending {ps : List (PendingRequest κ)} {x : Int}
    (h : ¬Pending ps x) (f : κ → Bool) : ps.countP (holdsFor f x) = 0 := by
  rw [List.countP_eq_zero]
  intro p hp hx
  exact h ⟨p, hp, ((holdsFor_iff f x p).mp hx).2⟩

/-- Finishing ids takes exactly these ids from the pending requests. -/
theorem countP_holdsFor_finishLoop (requestIds : Finset Int) (ps : List (PendingRequest κ))
    (f : κ → Bool) (x : Int) :
    (finishLoop requestIds ps).2.countP (holdsFor f x) =
      if x ∈ requestIds then 0 else ps.countP (holdsFor f x) := by
  rw [finishLoop_eq, List.countP_filter, List.countP_map]
  split
  · next hx =>
    rw [List.countP_eq_zero]
    intro p _ h
    simp [holdsFor, hx] at h
  · next hx =>
    refine List.countP_congr fun p _ => ?_
    simp only [Function.comp_apply, Bool.and_eq_true, holdsFor_iff, decide_eq_true_eq, ne_eq,
      Finset.mem_sdiff]
    constructor
    · rintro ⟨⟨hf, hxp, _⟩, _⟩
      exact ⟨hf, hxp⟩
    · rintro ⟨hf, hxp⟩
      refine ⟨⟨hf, hxp, hx⟩, fun hempty => ?_⟩
      have hmem : x ∈ p.requestIds \ requestIds := Finset.mem_sdiff.mpr ⟨hxp, hx⟩
      rw [hempty] at hmem
      exact absurd hmem (Finset.notMem_empty x)

/-- A request that is left after finishing ids. -/
theorem mem_finishLoop_left {requestIds : Finset Int} {ps : List (PendingRequest κ)}
    {q : PendingRequest κ} (h : q ∈ (finishLoop requestIds ps).2) :
    q.requestIds ≠ ∅ ∧ ∃ p ∈ ps, q = { p with requestIds := p.requestIds \ requestIds } := by
  rw [finishLoop_eq] at h
  obtain ⟨hmem, hne⟩ := List.mem_filter.mp h
  obtain ⟨p, hp, rfl⟩ := List.mem_map.mp hmem
  exact ⟨of_decide_eq_true hne, p, hp, rfl⟩

/-- Requests gathered from all clients, counted where those of one client matter. -/
theorem countP_entries (order : Traversal ClientId) (pool : PendingRequestPool κ)
    (g : List (PendingRequest κ) → List (PendingRequest κ)) (hnil : g [] = [])
    (q : PendingRequest κ → Bool) (c : ClientId)
    (hother : ∀ d, d ≠ c → (g (pool.pendingOf d)).countP q = 0) :
    ((order.entries pool.mPendingRequestsByClient).flatMap fun e => g e.2).countP q =
      (g (pool.pendingOf c)).countP q := by
  classical
  have hpending {d : ClientId} {ps : List (PendingRequest κ)}
      (he : (d, ps) ∈ order.entries pool.mPendingRequestsByClient) : pool.pendingOf d = ps :=
    UnorderedMap.valueAt_of_lookup ((order.mem_entries _ d ps).mp he) []
  rw [List.countP_flatMap]
  cases hl : pool.mPendingRequestsByClient.lookup c with
  | none =>
      have hc : pool.pendingOf c = [] := by
        rw [pendingOf, UnorderedMap.valueAt, hl, Option.getD_none]
      rw [hc, hnil, List.countP_nil]
      refine List.sum_eq_zero fun k hk => ?_
      obtain ⟨⟨d, ps⟩, he, rfl⟩ := List.mem_map.mp hk
      have hd : d ≠ c := by
        rintro rfl
        rw [(order.mem_entries _ d ps).mp he] at hl
        cases hl
      have hzero := hother d hd
      rwa [hpending he] at hzero
  | some ps =>
      have he : (c, ps) ∈ order.entries pool.mPendingRequestsByClient :=
        (order.mem_entries _ c ps).mpr hl
      have hone := @List.count_eq_one_of_mem _ instBEqOfDecidableEq _ (c, ps) _
        (order.nodup_entries _) he
      rw [List.sum_map_eq_nsmul_single (c, ps), hone, one_nsmul, Function.comp_apply, hpending he]
      rintro ⟨d, qs⟩ hne hmem
      have hd : d ≠ c := by
        rintro rfl
        exact hne (Prod.ext rfl ((hpending hmem).symm.trans (hpending he)))
      have hzero := hother d hd
      rwa [hpending hmem] at hzero

/-- A gathered request is one of some client. -/
theorem mem_entries_flatMap {order : Traversal ClientId} {pool : PendingRequestPool κ}
    {g : List (PendingRequest κ) → List (PendingRequest κ)} {p : PendingRequest κ}
    (hp : p ∈ (order.entries pool.mPendingRequestsByClient).flatMap fun e => g e.2) :
    ∃ c, p ∈ g (pool.pendingOf c) := by
  obtain ⟨⟨c, ps⟩, hentry, hmem⟩ := List.mem_flatMap.mp hp
  refine ⟨c, ?_⟩
  rwa [pendingOf, UnorderedMap.valueAt_of_lookup ((order.mem_entries _ c ps).mp hentry) []]

/-- The ids that are found are the pending ones. -/
theorem PoolStep.found_iff {c : ClientId} {requestIds foundIds : Finset Int}
    (h : PoolStep s (.tryFinishRequests c requestIds foundIds) t) (x : Int) :
    x ∈ foundIds ↔ x ∈ requestIds ∧ Pending (s.pool.pendingOf c) x := by
  cases h with
  | tryFinishRequests _ _ _ pool hlive heq =>
      have hfound := (tryFinishRequests_spec c requestIds s.pool).1 x
      rwa [heq] at hfound

/-- A pending request after a step: it was pending before, perhaps with more ids, or the step
has added it. -/
theorem PoolStep.pendingOf_cases (h : PoolStep s e t) {c : ClientId}
    {p : PendingRequest (Nat × Callback)} (hp : p ∈ t.pool.pendingOf c) :
    (∃ q ∈ s.pool.pendingOf c, p.callback = q.callback ∧
      p.timeoutTimestamp = q.timeoutTimestamp ∧ p.requestIds ⊆ q.requestIds ∧
      (p = q ∨ p.requestIds ≠ ∅)) ∨
    ∃ requestIds callback time, e = .addRequests s.calls c requestIds callback time (.ok ()) ∧
      p = ⟨requestIds, time + s.pool.mTimeoutInNano, (s.calls, callback)⟩ := by
  have hkept (hq : p ∈ s.pool.pendingOf c) :
      ∃ q ∈ s.pool.pendingOf c, p.callback = q.callback ∧
        p.timeoutTimestamp = q.timeoutTimestamp ∧ p.requestIds ⊆ q.requestIds ∧
        (p = q ∨ p.requestIds ≠ ∅) :=
    ⟨p, hq, rfl, rfl, Finset.Subset.refl _, Or.inl rfl⟩
  have hqueue := h.queue c
  generalize t.pool.pendingOf c = queue at hp hqueue
  cases hqueue with
  | kept => exact Or.inl (hkept hp)
  | added requestIds callback time _ _ =>
      rcases List.mem_append.mp hp with hold | hnew
      · exact Or.inl (hkept hold)
      · exact Or.inr ⟨requestIds, callback, time, rfl, List.mem_singleton.mp hnew⟩
  | finished requestIds foundIds =>
      obtain ⟨hne, q, hq, rfl⟩ := mem_finishLoop_left hp
      exact Or.inl ⟨q, hq, rfl, rfl, Finset.sdiff_subset, Or.inr hne⟩
  | swept time => exact Or.inl (hkept ((List.dropWhile_sublist _).subset hp))
  | destroyed => exact absurd hp List.not_mem_nil

/-- Finished ids are not pending any more. -/
theorem PoolStep.disjoint_of_finished {c : ClientId} {requestIds foundIds : Finset Int}
    (h : PoolStep s (.tryFinishRequests c requestIds foundIds) t)
    {p : PendingRequest (Nat × Callback)} (hp : p ∈ t.pool.pendingOf c) :
    Disjoint p.requestIds requestIds := by
  cases h with
  | tryFinishRequests _ _ _ pool hlive heq =>
      have hpool := (tryFinishRequests_spec c requestIds s.pool).2.2 c
      rw [heq, if_pos rfl] at hpool
      rw [hpool] at hp
      obtain ⟨_, q, _, rfl⟩ := mem_finishLoop_left hp
      exact Finset.sdiff_disjoint

/-- An invocation takes its ids from a sweep. -/
theorem PoolStep.invoke_mem {n : Nat} {callback : Callback} {requestIds : Finset Int}
    {time : Option Int} (h : PoolStep s (.invoke n callback requestIds time) t) :
    ∃ sweep ∈ s.sweeps, ∃ p ∈ sweep.2, p.requestIds = requestIds ∧ p.callback = (n, callback) := by
  cases h with
  | invoke before after time p rest heq =>
      refine ⟨(time, p :: rest), ?_, p, List.mem_cons_self .., rfl, rfl⟩
      rw [heq]
      exact List.mem_append_right _ (List.mem_cons_self ..)

/-- The operation that a sweep comes from. -/
def sweepEvent : Option Int → PoolEvent Callback
  | some time => .checkTimeout time
  | none => .destroy

/-- A sweep after a step: it was under way before, perhaps with more requests, or it begins
with requests that were pending. -/
theorem PoolStep.sweeps_cases (h : PoolStep s e t)
    {sweep : Option Int × List (PendingRequest (Nat × Callback))} (hsweep : sweep ∈ t.sweeps) :
    (∃ sweep' ∈ s.sweeps, sweep'.1 = sweep.1 ∧ ∀ p ∈ sweep.2, p ∈ sweep'.2) ∨
    e = sweepEvent sweep.1 ∧ ∀ p ∈ sweep.2, (∃ c, p ∈ s.pool.pendingOf c) ∧
      ∀ now, sweep.1 = some now → p.timeoutTimestamp < now := by
  have hkept (hmem : sweep ∈ s.sweeps) :
      ∃ sweep' ∈ s.sweeps, sweep'.1 = sweep.1 ∧ ∀ p ∈ sweep.2, p ∈ sweep'.2 :=
    ⟨sweep, hmem, rfl, fun p hp => hp⟩
  cases h with
  | addRequests => exact Or.inl (hkept hsweep)
  | tryFinishRequests => exact Or.inl (hkept hsweep)
  | checkTimeout order time timedOut pool hlive htime heq =>
      rcases List.mem_cons.mp hsweep with rfl | hold
      · have htimed := (checkTimeout_spec order time s.pool).1
        rw [heq] at htimed
        refine Or.inr ⟨rfl, fun p hp => ?_⟩
        simp only at htimed hp
        rw [htimed] at hp
        obtain ⟨c, hc⟩ := mem_entries_flatMap
          (g := fun ps => ps.takeWhile (expired time)) hp
        refine ⟨⟨c, List.takeWhile_subset _ hc⟩, fun now hnow => ?_⟩
        cases hnow
        simpa [expired] using List.mem_takeWhile_imp hc
      · exact Or.inl (hkept hold)
  | invoke before after time p rest heq =>
      refine Or.inl ?_
      rw [heq]
      rcases List.mem_append.mp hsweep with hb | hr
      · exact ⟨sweep, List.mem_append_left _ hb, rfl, fun q hq => hq⟩
      · rcases List.mem_cons.mp hr with rfl | ha
        · exact ⟨_, List.mem_append_right _ (List.mem_cons_self ..), rfl,
            fun q hq => List.mem_cons_of_mem _ hq⟩
        · exact ⟨sweep, List.mem_append_right _ (List.mem_cons_of_mem _ ha), rfl, fun q hq => hq⟩
  | destroy order timedOut pool hlive hjoined heq =>
      cases heq
      rw [List.mem_singleton.mp hsweep]
      refine Or.inr ⟨rfl, fun p hp => ⟨?_, fun now hnow => by cases hnow⟩⟩
      exact mem_entries_flatMap (g := id) hp

/-- The waiting requests of certain callbacks that hold an id: the pending ones of one client
and those in a sweep. -/
def waiting (s : PoolSystem Callback) (f : Nat × Callback → Bool) (c : ClientId) (x : Int) : Nat :=
  (s.pool.pendingOf c).countP (holdsFor f x) + (s.sweeps.flatMap Prod.snd).countP (holdsFor f x)

/-- How a step changes the number of waiting requests. -/
def waitingChange (s : PoolSystem Callback) (f : Nat × Callback → Bool) (c : ClientId) (x : Int) :
    PoolEvent Callback → Int
  | .addRequests n d requestIds callback _ (.ok _) =>
      if d = c ∧ f (n, callback) ∧ x ∈ requestIds then 1 else 0
  | .tryFinishRequests d requestIds _ =>
      if d = c ∧ x ∈ requestIds then -(s.pool.pendingOf c).countP (holdsFor f x) else 0
  | .invoke n callback requestIds _ => if f (n, callback) ∧ x ∈ requestIds then -1 else 0
  | _ => 0

private theorem waiting_taken (order : Traversal ClientId) (x : Int)
    (g left : List (PendingRequest (Nat × Callback)) → List (PendingRequest (Nat × Callback)))
    {f : Nat × Callback → Bool} {c : ClientId}
    (honly : ∀ d, d ≠ c → ∀ p ∈ s.pool.pendingOf d, f p.callback = false)
    (hperm : ∀ ps, g ps ++ left ps = ps) :
    (left (s.pool.pendingOf c)).countP (holdsFor f x) +
      ((order.entries s.pool.mPendingRequestsByClient).flatMap fun e => g e.2).countP
        (holdsFor f x) = (s.pool.pendingOf c).countP (holdsFor f x) := by
  have hnil : g [] = [] := (List.append_eq_nil_iff.mp (hperm [])).1
  have hcount := countP_entries order s.pool g hnil (holdsFor f x) c fun d hd => by
    rw [List.countP_eq_zero]
    intro p hp hholds
    have hmem : p ∈ s.pool.pendingOf d := by
      rw [← hperm (s.pool.pendingOf d)]
      exact List.mem_append_left _ hp
    have := honly d hd p hmem
    rw [((holdsFor_iff f x p).mp hholds).1] at this
    cases this
  rw [hcount]
  have hparts := congrArg (List.countP (holdsFor f x)) (hperm (s.pool.pendingOf c))
  rw [List.countP_append] at hparts
  omega

/-- Every step changes the number of waiting requests as its event says, for callbacks that
only one client has given. -/
theorem PoolStep.waiting_eq (h : PoolStep s e t) {f : Nat × Callback → Bool} {c : ClientId}
    (honly : ∀ d, d ≠ c → ∀ p ∈ s.pool.pendingOf d, f p.callback = false) (x : Int) :
    (waiting t f c x : Int) = waiting s f c x + waitingChange s f c x e := by
  cases h with
  | addRequests order d requestIds callback time r pool hlive htime heq =>
      rcases addRequests_cases order time d requestIds (s.calls, callback) s.pool with
        ⟨_, u, hu, _, _, _, hpool⟩ | ⟨_, ⟨u, hu, _, _, hpool⟩ | ⟨u, hu, _, _, hpool⟩⟩
      · cases heq.symm.trans hu
        simp only [waiting, hpool, waitingChange, add_zero]
      · cases heq.symm.trans hu
        simp only [waiting, hpool, waitingChange, add_zero]
      · cases heq.symm.trans hu
        simp only [waiting, hpool, waitingChange]
        by_cases hc : c = d
        · subst hc
          simp only [ite_true, List.countP_append, List.countP_singleton, holdsFor_iff, true_and]
          split <;> simp
          omega
        · simp [hc, Ne.symm hc]
  | tryFinishRequests d requestIds foundIds pool hlive heq =>
      have hpool := (tryFinishRequests_spec d requestIds s.pool).2.2 c
      rw [heq] at hpool
      simp only [waiting, hpool, waitingChange]
      by_cases hc : c = d
      · subst hc
        rw [if_pos rfl, countP_holdsFor_finishLoop]
        by_cases hx : x ∈ requestIds
        · simp only [hx, ite_true, and_self]
          omega
        · simp [hx]
      · simp [hc, Ne.symm hc]
  | checkTimeout order time timedOut pool hlive htime heq =>
      obtain ⟨htimed, _, hpool⟩ := checkTimeout_spec order time s.pool
      rw [heq] at htimed hpool
      have htaken := waiting_taken order x (fun ps => ps.takeWhile (expired time))
        (fun ps => ps.dropWhile (expired time)) honly
        fun ps => List.takeWhile_append_dropWhile
      simp only at htimed
      simp only [waiting, hpool, waitingChange, List.flatMap_cons, List.countP_append, htimed]
      omega
  | invoke before after time p rest heq =>
      simp only [waiting, heq, waitingChange, List.flatMap_append, List.flatMap_cons,
        List.countP_append, List.countP_cons, holdsFor_iff]
      split <;> omega
  | destroy order timedOut pool hlive hjoined heq =>
      have hpool : pool.pendingOf c = [] := by
        have hnil := pendingOf_destroy order s.pool c
        rwa [heq] at hnil
      have htimed : timedOut = (order.entries s.pool.mPendingRequestsByClient).flatMap
          fun e => id e.2 := (congrArg Prod.fst heq).symm
      have htaken := waiting_taken order x id (fun _ => []) honly
        fun ps => List.append_nil ps
      have hnone : s.sweeps.flatMap Prod.snd = [] := List.flatMap_eq_nil_iff.mpr hjoined
      simp only [waiting, hpool, waitingChange, hnone, List.flatMap_cons, List.flatMap_nil,
        List.append_nil, List.countP_nil, htimed]
      rw [List.countP_nil] at htaken
      omega

/-- No id is in two pending requests of a client. -/
def DisjointIds (s : PoolSystem Callback) : Prop :=
  ∀ c, (s.pool.pendingOf c).Pairwise fun p q => Disjoint p.requestIds q.requestIds

/-- Every step keeps the identities of the entries disjoint. -/
theorem PoolStep.disjointIds (hs : DisjointIds s) (h : PoolStep s e t) : DisjointIds t := by
  intro c
  have hqueue := h.queue c
  generalize t.pool.pendingOf c = queue at hqueue
  cases hqueue with
  | kept => exact hs c
  | added requestIds callback time hfree _ =>
      refine List.pairwise_append.mpr ⟨hs c, List.pairwise_singleton _ _, ?_⟩
      intro p hp q hq
      rw [List.mem_singleton.mp hq, Finset.disjoint_left]
      exact fun x hx hnew => hfree x hnew ⟨p, hp, hx⟩
  | finished requestIds foundIds =>
      rw [finishLoop_eq]
      refine List.Pairwise.filter _ (List.pairwise_map.mpr ?_)
      exact (hs c).imp fun hpq => hpq.mono Finset.sdiff_subset Finset.sdiff_subset
  | swept time => exact (hs c).sublist (List.dropWhile_sublist _)
  | destroyed => exact List.Pairwise.nil

end VhalCore.PendingRequests
