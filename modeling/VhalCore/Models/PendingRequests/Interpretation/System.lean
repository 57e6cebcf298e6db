import VhalCore.Core.Execution
import VhalCore.Models.PendingRequests.Native.Pool

/-!
# Runs of the pool

Every operation of the pool is one step: it holds the lock from its first to its last
use of the pool. The callbacks of a sweep are called after the lock is released, each
in a step of its own, so that other operations may come in between. The destructor
waits for the sweeping thread and then calls the callbacks of all that is pending.

The calls of `addRequests` are numbered, and the pool is handed the callback together
with the number of the call. The pool cannot look at either; the number only tells
which call an invocation belongs to.
-/

namespace VhalCore.PendingRequests

namespace PendingRequestPool

variable {κ : Type} {s : PendingRequestPool κ}

/-- The pending requests of a client. -/
def pendingOf (s : PendingRequestPool κ) (c : ClientId) : List (PendingRequest κ) :=
  s.mPendingRequestsByClient.valueAt c []

/-- The number of ids in a list of pending requests. -/
def idCount (ps : List (PendingRequest κ)) : Nat := (ps.map fun p => p.requestIds.card).sum

/-- An id is pending in a list of requests. -/
def Pending (ps : List (PendingRequest κ)) (x : Int) : Prop := ∃ p ∈ ps, x ∈ p.requestIds

/-- The entries of a client after an insertion. -/
theorem pendingOf_insert (m : UnorderedMap ClientId (List (PendingRequest κ))) (timeout : Int)
    (c d : ClientId) (ps : List (PendingRequest κ)) :
    pendingOf ⟨timeout, m.insert c ps⟩ d = if d = c then ps else pendingOf ⟨timeout, m⟩ d := by
  rw [pendingOf, UnorderedMap.valueAt, UnorderedMap.lookup_insert_eq]
  split
  · rw [Option.getD_some]
  · rfl

/-- Creating an empty list for a client is invisible to whoever reads its requests. -/
theorem pendingOf_touch (m : UnorderedMap ClientId (List (PendingRequest κ))) (timeout : Int)
    (c d : ClientId) : pendingOf ⟨timeout, m.touch c []⟩ d = pendingOf ⟨timeout, m⟩ d := by
  rw [UnorderedMap.touch_eq_insert, pendingOf_insert]
  split
  · next h => rw [h, pendingOf]
  · rfl

/-- A request is pending exactly if an entry of the client holds it. -/
theorem isRequestPending_iff (s : PendingRequestPool κ) (c : ClientId) (x : Int) :
    s.isRequestPending c x = true ↔ Pending (s.pendingOf c) x := by
  rw [isRequestPending, pendingOf, UnorderedMap.valueAt]
  cases s.mPendingRequestsByClient.lookup c with
  | none => simp [Pending]
  | some ps => simp [Pending]

/-- The counting loop fails exactly if some new id is pending, and names such an id. -/
theorem countPendingLoop_eq (order : Traversal Int) (requestIds : Finset Int) (count : Nat)
    (ps : List (PendingRequest κ)) :
    ((∀ x ∈ requestIds, ¬Pending ps x) ∧ countPendingLoop order requestIds count ps =
      .ok (ps.foldl (fun count p => sizeAdd count p.requestIds.card) count)) ∨
    ∃ x ∈ requestIds, Pending ps x ∧
      countPendingLoop order requestIds count ps = .error (.duplicateRequestId x) := by
  induction ps generalizing count with
  | nil => exact Or.inl ⟨fun x _ ⟨p, hp, _⟩ => absurd hp List.not_mem_nil, rfl⟩
  | cons p ps ih =>
      simp only [countPendingLoop]
      cases hfind : (order.visit requestIds).find? (· ∈ p.requestIds) with
      | some x =>
          have hx := List.find?_some hfind
          have hmem := (order.mem requestIds x).mp (List.mem_of_find?_eq_some hfind)
          exact Or.inr ⟨x, hmem, ⟨p, List.mem_cons_self .., by simpa using hx⟩, rfl⟩
      | none =>
          have hnone : ∀ x ∈ requestIds, x ∉ p.requestIds := fun x hx => by
            simpa using List.find?_eq_none.mp hfind x ((order.mem requestIds x).mpr hx)
          rcases ih (sizeAdd count p.requestIds.card) with ⟨hnot, hok⟩ | ⟨x, hx, ⟨q, hq, hxq⟩, herr⟩
          · refine Or.inl ⟨fun x hx ⟨q, hq, hxq⟩ => ?_, hok⟩
            rcases List.mem_cons.mp hq with rfl | hq
            · exact hnone x hx hxq
            · exact hnot x hx ⟨q, hq, hxq⟩
          · exact Or.inr ⟨x, hx, ⟨q, List.mem_cons_of_mem _ hq, hxq⟩, herr⟩

/-- The running number of the counting loops is the number of ids, modulo the size of its type. -/
theorem foldl_sizeAdd (count : Nat) (h : count < 2 ^ 64) (ps : List (PendingRequest κ)) :
    ps.foldl (fun count p => sizeAdd count p.requestIds.card) count =
      (count + idCount ps) % 2 ^ 64 := by
  induction ps generalizing count with
  | nil =>
      rw [List.foldl_nil, idCount, List.map_nil, List.sum_nil, Nat.add_zero, Nat.mod_eq_of_lt h]
  | cons p ps ih =>
      have hlt : sizeAdd count p.requestIds.card < 2 ^ 64 := Nat.mod_lt _ (by decide)
      rw [List.foldl_cons, ih _ hlt, sizeAdd, Nat.mod_add_mod, idCount, idCount, List.map_cons,
        List.sum_cons, Nat.add_assoc]

/-- The requests of a client are counted modulo the range of `size_t`. -/
theorem countPendingRequests_eq (s : PendingRequestPool κ) (c : ClientId) :
    s.countPendingRequests c = idCount (s.pendingOf c) % 2 ^ 64 := by
  rw [countPendingRequests, pendingOf, UnorderedMap.valueAt]
  cases s.mPendingRequestsByClient.lookup c with
  | none => rfl
  | some ps =>
      refine (foldl_sizeAdd 0 (by decide) ps).trans ?_
      rw [Nat.zero_add, Option.getD_some]

/-- What `addRequests` does: it fails for an id that is pending or for too many ids and
leaves the pending requests alone, or it appends the new request. -/
theorem addRequests_cases (order : Traversal Int) (currentTime : Int) (c : ClientId)
    (requestIds : Finset Int) (callback : κ) (s : PendingRequestPool κ) :
    (∃ x t, addRequests order currentTime c requestIds callback s =
        (.error (.duplicateRequestId x), t) ∧ x ∈ requestIds ∧ Pending (s.pendingOf c) x ∧
        t.mTimeoutInNano = s.mTimeoutInNano ∧ ∀ d, t.pendingOf d = s.pendingOf d) ∨
    (∀ x ∈ requestIds, ¬Pending (s.pendingOf c) x) ∧
      ((∃ t, addRequests order currentTime c requestIds callback s =
          (.error .tooManyPendingRequests, t) ∧
          sizeSub maxPendingRequestPerClient (s.countPendingRequests c) < requestIds.card ∧
          t.mTimeoutInNano = s.mTimeoutInNano ∧ ∀ d, t.pendingOf d = s.pendingOf d) ∨
        ∃ t, addRequests order currentTime c requestIds callback s = (.ok (), t) ∧
          requestIds.card ≤ sizeSub maxPendingRequestPerClient (s.countPendingRequests c) ∧
          t.mTimeoutInNano = s.mTimeoutInNano ∧
          ∀ d, t.pendingOf d = if d = c then s.pendingOf c ++
            [⟨requestIds, currentTime + s.mTimeoutInNano, callback⟩] else s.pendingOf d) := by
  have hcount : (s.pendingOf c).foldl (fun count p => sizeAdd count p.requestIds.card) 0 =
      s.countPendingRequests c := by
    rw [countPendingRequests_eq, foldl_sizeAdd 0 (by decide), Nat.zero_add]
  rcases countPendingLoop_eq order requestIds 0 (s.pendingOf c) with
    ⟨hnot, hok⟩ | ⟨x, hx, hpending, herr⟩
  · refine Or.inr ⟨hnot, ?_⟩
    rw [hcount] at hok
    simp only [addRequests]
    rw [show s.mPendingRequestsByClient.valueAt c [] = s.pendingOf c from rfl, hok]
    simp only
    by_cases hcard : requestIds.card >
        sizeSub maxPendingRequestPerClient (s.countPendingRequests c)
    · rw [if_pos hcard]
      exact Or.inl ⟨_, rfl, hcard, rfl, pendingOf_touch _ _ c⟩
    · rw [if_neg hcard]
      exact Or.inr ⟨_, rfl, not_lt.mp hcard, rfl, fun d => pendingOf_insert _ _ c d _⟩
  · refine Or.inl ⟨x, s, ?_, hx, hpending, rfl, fun _ => rfl⟩
    simp only [addRequests]
    rw [show s.mPendingRequestsByClient.valueAt c [] = s.pendingOf c from rfl, herr]

/-- A request is found exactly if it was asked for and is pending. -/
theorem mem_finishLoop (requestIds : Finset Int) (ps : List (PendingRequest κ)) (x : Int) :
    x ∈ (finishLoop requestIds ps).1 ↔ x ∈ requestIds ∧ Pending ps x := by
  induction ps with
  | nil => simp [finishLoop, Pending]
  | cons p ps ih =>
      simp only [finishLoop, Finset.mem_union, Finset.mem_inter, ih, Pending, List.mem_cons,
        exists_eq_or_imp]
      tauto

/-- What is left after finishing some ids: every request without them, unless it is empty. -/
theorem finishLoop_eq (requestIds : Finset Int) (ps : List (PendingRequest κ)) :
    (finishLoop requestIds ps).2 =
      (ps.map fun p => { p with requestIds := p.requestIds \ requestIds }).filter
        fun p => p.requestIds ≠ ∅ := by
  induction ps with
  | nil => rfl
  | cons p ps ih =>
      rw [List.map_cons, List.filter_cons, finishLoop, ih]
      by_cases h : p.requestIds \ requestIds = ∅
      · simp [h]
      · simp [h]

/-- What `tryFinishRequests` does: it reports the pending ones of the given ids. -/
theorem tryFinishRequests_spec (c : ClientId) (requestIds : Finset Int)
    (s : PendingRequestPool κ) :
    (∀ x, x ∈ (s.tryFinishRequests c requestIds).1 ↔ x ∈ requestIds ∧ Pending (s.pendingOf c) x) ∧
      (s.tryFinishRequests c requestIds).2.mTimeoutInNano = s.mTimeoutInNano ∧
      ∀ d, (s.tryFinishRequests c requestIds).2.pendingOf d =
        if d = c then (finishLoop requestIds (s.pendingOf c)).2 else s.pendingOf d := by
  rw [tryFinishRequests]
  cases h : s.mPendingRequestsByClient.lookup c with
  | none =>
      have hnil : s.pendingOf c = [] := by rw [pendingOf, UnorderedMap.valueAt, h, Option.getD_none]
      refine ⟨fun x => by simp [hnil, Pending], rfl, fun d => ?_⟩
      rw [hnil, finishLoop]
      by_cases hd : d = c
      · rw [if_pos hd, hd]
        exact hnil
      · rw [if_neg hd]
  | some ps =>
      have hps : s.pendingOf c = ps := by rw [pendingOf, UnorderedMap.valueAt, h, Option.getD_some]
      rw [hps]
      exact ⟨mem_finishLoop requestIds ps, rfl, fun d => pendingOf_insert _ _ c d _⟩

private theorem foldl_sweepClient (currentTime : Int)
    (entries : List (ClientId × List (PendingRequest κ))) (hn : (entries.map Prod.fst).Nodup)
    (acc : List (PendingRequest κ) × UnorderedMap ClientId (List (PendingRequest κ)))
    (hacc : ∀ e ∈ entries, acc.2.lookup e.1 = some e.2) (timeout : Int) :
    (entries.foldl (sweepClient currentTime) acc).1 =
        acc.1 ++ entries.flatMap (fun e => e.2.takeWhile (expired currentTime)) ∧
      ∀ d, pendingOf ⟨timeout, (entries.foldl (sweepClient currentTime) acc).2⟩ d =
        if d ∈ entries.map Prod.fst then
          (pendingOf ⟨timeout, acc.2⟩ d).dropWhile (expired currentTime)
        else pendingOf ⟨timeout, acc.2⟩ d := by
  induction entries generalizing acc with
  | nil => exact ⟨(List.append_nil _).symm, fun d => by simp⟩
  | cons e entries ih =>
      rw [List.map_cons, List.nodup_cons] at hn
      have hturn (d : ClientId) : pendingOf ⟨timeout, (sweepClient currentTime acc e).2⟩ d =
          if d = e.1 then e.2.dropWhile (expired currentTime)
          else pendingOf ⟨timeout, acc.2⟩ d := by
        simp only [sweepClient]
        by_cases hleft : e.2.dropWhile (expired currentTime) = []
        · rw [if_pos (List.isEmpty_iff.mpr hleft), hleft, pendingOf, UnorderedMap.valueAt,
            UnorderedMap.lookup_erase_eq]
          split
          · rw [Option.getD_none]
          · rfl
        · rw [if_neg (mt List.isEmpty_iff.mp hleft), pendingOf_insert]
      have hother : ∀ e' ∈ entries, (sweepClient currentTime acc e).2.lookup e'.1 = some e'.2 := by
        intro e' he'
        have hne : e'.1 ≠ e.1 := fun h => hn.1 (h ▸ List.mem_map_of_mem he')
        simp only [sweepClient]
        split
        · rw [Finmap.lookup_erase_ne hne]
          exact hacc e' (List.mem_cons_of_mem _ he')
        · rw [Finmap.lookup_insert_of_ne _ hne]
          exact hacc e' (List.mem_cons_of_mem _ he')
      obtain ⟨htimed, hleft⟩ := ih hn.2 (sweepClient currentTime acc e) hother
      rw [List.foldl_cons]
      refine ⟨?_, fun d => ?_⟩
      · rw [htimed, List.flatMap_cons, ← List.append_assoc]
        rfl
      · rw [hleft d, hturn d, List.map_cons]
        have hself : pendingOf ⟨timeout, acc.2⟩ e.1 = e.2 := by
          rw [pendingOf, UnorderedMap.valueAt, hacc e (List.mem_cons_self ..), Option.getD_some]
        by_cases hd : d = e.1
        · subst hd
          rw [if_neg hn.1, if_pos rfl, if_pos (List.mem_cons_self ..), hself]
        · simp only [hd, ite_false, List.mem_cons, false_or]

/-- The visited entries of a map have distinct keys. -/
theorem nodup_keys (order : Traversal ClientId)
    (m : UnorderedMap ClientId (List (PendingRequest κ))) :
    ((order.entries m).map Prod.fst).Nodup := by
  refine List.Nodup.map_on ?_ (order.nodup_entries m)
  rintro ⟨c, ps⟩ hc ⟨d, qs⟩ hd hcd
  cases hcd
  rw [Option.some.inj (((order.mem_entries m c ps).mp hc).symm.trans
    ((order.mem_entries m c qs).mp hd))]

/-- What a sweep does: the leading expired requests of every client are timed out. -/
theorem checkTimeout_spec (order : Traversal ClientId) (currentTime : Int)
    (s : PendingRequestPool κ) :
    (s.checkTimeout order currentTime).1 = (order.entries s.mPendingRequestsByClient).flatMap
        (fun e => e.2.takeWhile (expired currentTime)) ∧
      (s.checkTimeout order currentTime).2.mTimeoutInNano = s.mTimeoutInNano ∧
      ∀ d, (s.checkTimeout order currentTime).2.pendingOf d =
        (s.pendingOf d).dropWhile (expired currentTime) := by
  obtain ⟨htimed, hleft⟩ := foldl_sweepClient currentTime
    (order.entries s.mPendingRequestsByClient) (nodup_keys order _)
    ([], s.mPendingRequestsByClient)
    (fun e he => (order.mem_entries _ e.1 e.2).mp he) s.mTimeoutInNano
  refine ⟨htimed.trans (List.nil_append _), rfl, fun d => ?_⟩
  refine (hleft d).trans ?_
  split
  · rfl
  · next hd =>
    have hnil : s.pendingOf d = [] := by
      rw [pendingOf, UnorderedMap.valueAt]
      cases hl : s.mPendingRequestsByClient.lookup d with
      | none => rfl
      | some ps =>
          exact absurd (List.mem_map_of_mem (f := Prod.fst)
            ((order.mem_entries _ d ps).mpr hl)) hd
    rw [show pendingOf ⟨s.mTimeoutInNano, s.mPendingRequestsByClient⟩ d = s.pendingOf d from rfl,
      hnil, List.dropWhile_nil]

theorem pendingOf_destroy (order : Traversal ClientId) (s : PendingRequestPool κ) (d : ClientId) :
    (s.destroy order).2.pendingOf d = [] := by
  rw [destroy, pendingOf, UnorderedMap.valueAt, Finmap.lookup_empty, Option.getD_none]

end PendingRequestPool

/-- The pool with the clock, the number of calls so far and the sweeps under way: the time
of each, none for the one of the destructor, and the requests it has still to report. -/
structure PoolSystem (Callback : Type) where
  pool : PendingRequestPool (Nat × Callback)
  clock : Int
  calls : Nat := 0
  sweeps : List (Option Int × List (PendingRequest (Nat × Callback))) := []
  destroyed : Bool := false

/-- What can be seen of the pool: the operations with their results, and the invocations of
timeout callbacks with the time of their sweep. -/
inductive PoolEvent (Callback : Type) where
  | addRequests (call : Nat) (clientId : ClientId) (requestIds : Finset Int)
      (callback : Callback) (time : Int) (result : Except AddError Unit)
  | tryFinishRequests (clientId : ClientId) (requestIds foundIds : Finset Int)
  | checkTimeout (time : Int)
  | invoke (call : Nat) (callback : Callback) (requestIds : Finset Int) (time : Option Int)
  | destroy

section System

variable {Callback : Type}

open PendingRequestPool

/-- One step. The clock never goes back, and no operation follows the destructor. -/
inductive PoolStep : PoolSystem Callback → PoolEvent Callback → PoolSystem Callback → Prop
  | addRequests (s : PoolSystem Callback) (order : Traversal Int) (c : ClientId)
      (requestIds : Finset Int) (callback : Callback) (time : Int) (r : Except AddError Unit)
      (pool : PendingRequestPool (Nat × Callback)) (hlive : s.destroyed = false)
      (htime : s.clock ≤ time)
      (h : PendingRequestPool.addRequests order time c requestIds (s.calls, callback) s.pool =
        (r, pool)) :
      PoolStep s (.addRequests s.calls c requestIds callback time r)
        { s with pool := pool, clock := time, calls := s.calls + 1 }
  | tryFinishRequests (s : PoolSystem Callback) (c : ClientId) (requestIds foundIds : Finset Int)
      (pool : PendingRequestPool (Nat × Callback)) (hlive : s.destroyed = false)
      (h : s.pool.tryFinishRequests c requestIds = (foundIds, pool)) :
      PoolStep s (.tryFinishRequests c requestIds foundIds) { s with pool := pool }
  | checkTimeout (s : PoolSystem Callback) (order : Traversal ClientId) (time : Int)
      (timedOut : List (PendingRequest (Nat × Callback)))
      (pool : PendingRequestPool (Nat × Callback)) (hlive : s.destroyed = false)
      (htime : s.clock ≤ time) (h : s.pool.checkTimeout order time = (timedOut, pool)) :
      PoolStep s (.checkTimeout time)
        { s with pool := pool, clock := time, sweeps := (some time, timedOut) :: s.sweeps }
  | invoke (s : PoolSystem Callback)
      (before after : List (Option Int × List (PendingRequest (Nat × Callback))))
      (time : Option Int) (p : PendingRequest (Nat × Callback))
      (rest : List (PendingRequest (Nat × Callback)))
      (h : s.sweeps = before ++ (time, p :: rest) :: after) :
      PoolStep s (.invoke p.callback.1 p.callback.2 p.requestIds time)
        { s with sweeps := before ++ (time, rest) :: after }
  | destroy (s : PoolSystem Callback) (order : Traversal ClientId)
      (timedOut : List (PendingRequest (Nat × Callback)))
      (pool : PendingRequestPool (Nat × Callback)) (hlive : s.destroyed = false)
      (hjoined : ∀ sweep ∈ s.sweeps, sweep.2 = [])
      (h : s.pool.destroy order = (timedOut, pool)) :
      PoolStep s .destroy
        { s with pool := pool, sweeps := [(none, timedOut)], destroyed := true }

/-- A pool that has just been created. -/
def PoolSystem.start (timeoutInNano clock : Int) : PoolSystem Callback where
  pool := { mTimeoutInNano := timeoutInNano }
  clock := clock

/-- The pool is gone and every callback has been called. -/
structure PoolSystem.Ended (s : PoolSystem Callback) : Prop where
  destroyed : s.destroyed = true
  invoked : ∀ sweep ∈ s.sweeps, sweep.2 = []

@[simp] theorem pendingOf_start (timeoutInNano clock : Int) (c : ClientId) :
    (PoolSystem.start timeoutInNano clock : PoolSystem Callback).pool.pendingOf c = [] := by
  rw [PoolSystem.start, pendingOf, UnorderedMap.valueAt, Finmap.lookup_empty, Option.getD_none]

/-- The timeout of the pool never changes. -/
theorem PoolStep.timeout {s t : PoolSystem Callback} {e : PoolEvent Callback}
    (h : PoolStep s e t) : t.pool.mTimeoutInNano = s.pool.mTimeoutInNano := by
  cases h with
  | addRequests order c requestIds callback time r pool hlive htime h =>
      rcases addRequests_cases order time c requestIds (s.calls, callback) s.pool with
        ⟨x, t, heq, _, _, ht, _⟩ | ⟨_, ⟨t, heq, _, ht, _⟩ | ⟨t, heq, _, ht, _⟩⟩
      all_goals
        rw [h] at heq
        cases heq
        exact ht
  | tryFinishRequests c requestIds foundIds pool hlive h =>
      have ht := (tryFinishRequests_spec c requestIds s.pool).2.1
      rwa [h] at ht
  | checkTimeout order time timedOut pool hlive htime h =>
      have ht := (checkTimeout_spec order time s.pool).2.1
      rwa [h] at ht
  | invoke => rfl
  | destroy order timedOut pool hlive hjoined h =>
      cases h
      rfl

/-- The clock never goes back. -/
theorem PoolStep.clock_le {s t : PoolSystem Callback} {e : PoolEvent Callback}
    (h : PoolStep s e t) : s.clock ≤ t.clock := by
  cases h with
  | addRequests order c requestIds callback time r pool hlive htime _ => exact htime
  | checkTimeout order time timedOut pool hlive htime _ => exact htime
  | _ => exact le_rfl

theorem PoolStep.clock_of_addRequests {s t : PoolSystem Callback} {n : Nat} {c : ClientId}
    {requestIds : Finset Int} {callback : Callback} {time : Int} {r : Except AddError Unit}
    (h : PoolStep s (.addRequests n c requestIds callback time r) t) : t.clock = time := by
  cases h
  rfl

/-- What an event makes of the queue of a client. -/
inductive QueueStep (s : PoolSystem Callback) (c : ClientId) :
    PoolEvent Callback → List (PendingRequest (Nat × Callback)) → Prop
  | kept (e : PoolEvent Callback) : QueueStep s c e (s.pool.pendingOf c)
  | added (requestIds : Finset Int) (callback : Callback) (time : Int)
      (hfree : ∀ x ∈ requestIds, ¬Pending (s.pool.pendingOf c) x)
      (hcard : requestIds.card ≤
        sizeSub maxPendingRequestPerClient (s.pool.countPendingRequests c)) :
      QueueStep s c (.addRequests s.calls c requestIds callback time (.ok ()))
        (s.pool.pendingOf c ++
          [⟨requestIds, time + s.pool.mTimeoutInNano, (s.calls, callback)⟩])
  | finished (requestIds foundIds : Finset Int) :
      QueueStep s c (.tryFinishRequests c requestIds foundIds)
        (finishLoop requestIds (s.pool.pendingOf c)).2
  | swept (time : Int) :
      QueueStep s c (.checkTimeout time) ((s.pool.pendingOf c).dropWhile (expired time))
  | destroyed : QueueStep s c .destroy []

/-- Every step treats the queue of each client in one of these ways. -/
theorem PoolStep.queue {s t : PoolSystem Callback} {e : PoolEvent Callback}
    (h : PoolStep s e t) (c : ClientId) : QueueStep s c e (t.pool.pendingOf c) := by
  cases h with
  | addRequests order d requestIds callback time r pool hlive htime h =>
      rcases addRequests_cases order time d requestIds (s.calls, callback) s.pool with
        ⟨x, u, heq, _, _, _, hpool⟩ | ⟨hfree, ⟨u, heq, _, _, hpool⟩ | ⟨u, heq, hcard, _, hpool⟩⟩
      · cases h.symm.trans heq
        rw [hpool]
        exact .kept _
      · cases h.symm.trans heq
        rw [hpool]
        exact .kept _
      · cases h.symm.trans heq
        rw [hpool]
        split
        · next hc =>
          subst hc
          exact .added requestIds callback time hfree hcard
        · exact .kept _
  | tryFinishRequests d requestIds foundIds pool hlive h =>
      have hpool := (tryFinishRequests_spec d requestIds s.pool).2.2 c
      rw [h] at hpool
      rw [hpool]
      split
      · next hc =>
        subst hc
        exact .finished requestIds foundIds
      · exact .kept _
  | checkTimeout order time timedOut pool hlive htime h =>
      have hpool := (checkTimeout_spec order time s.pool).2.2 c
      rw [h] at hpool
      rw [hpool]
      exact .swept time
  | invoke => exact .kept _
  | destroy order timedOut pool hlive hjoined h =>
      have hpool := pendingOf_destroy order s.pool c
      rw [h] at hpool
      rw [hpool]
      exact .destroyed

end System

end VhalCore.PendingRequests
