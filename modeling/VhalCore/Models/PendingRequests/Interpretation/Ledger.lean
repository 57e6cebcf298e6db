import VhalCore.Models.PendingRequests.Interpretation.Entries

/-!
# The ledger of a run

Every accepted id is in exactly one place: reported by a `tryFinishRequests` of its
client, reported by an invocation of its callback, still pending, or taken by a sweep
that has not reported it yet. A report by `tryFinishRequests` carries no number, so it
counts for the latest call that added the id; it is in the term of that call, which
ends when the client adds the id again.
-/

namespace VhalCore.PendingRequests

open PendingRequestPool

variable {Callback : Type} {s t : PoolSystem Callback} {events : List (PoolEvent Callback)}

namespace PoolEvent

/-- The number of a call of `addRequests`. -/
def addNumber : PoolEvent Callback → Option Nat
  | .addRequests call _ _ _ _ _ => some call
  | _ => none

/-- A call of the client that added the id. -/
def adds (c : ClientId) (x : Int) : PoolEvent Callback → Bool
  | .addRequests _ d requestIds _ _ (.ok _) => d = c ∧ x ∈ requestIds
  | _ => false

/-- A report of the id to the client by `tryFinishRequests`. -/
def finishes (c : ClientId) (x : Int) : PoolEvent Callback → Bool
  | .tryFinishRequests d _ foundIds => d = c ∧ x ∈ foundIds
  | _ => false

/-- A report of the id by an invocation of the callback of a call. -/
def expires (n : Nat) (x : Int) : PoolEvent Callback → Bool
  | .invoke call _ requestIds _ => call = n ∧ x ∈ requestIds
  | _ => false

end PoolEvent

open PoolEvent

/-- The callbacks that were given with a call. -/
def ofCall (n : Nat) (callback : Nat × Callback) : Bool := callback.1 = n

/-- The reports of an id by `tryFinishRequests` before its client adds it again. -/
def finishedInTerm (c : ClientId) (x : Int) (after : List (PoolEvent Callback)) : Nat :=
  (after.takeWhile fun e => !e.adds c x).countP (finishes c x)

/-- The id is not added again. -/
def NotAddedAgain (c : ClientId) (x : Int) (after : List (PoolEvent Callback)) : Prop :=
  ∀ e ∈ after, e.adds c x = false

/-- The reports of an id of a call, and the places where it waits to be reported. -/
def account (s : PoolSystem Callback) (n : Nat) (c : ClientId) (x : Int)
    (after : List (PoolEvent Callback)) : Nat :=
  finishedInTerm c x after + after.countP (expires n x) + waiting s (ofCall n) c x

/-- A request that waits belongs to an accepted call. -/
def BelongsTo (events : List (PoolEvent Callback)) (timeoutInNano : Int) (c : ClientId)
    (p : PendingRequest (Nat × Callback)) : Prop :=
  ∃ requestIds time, .addRequests p.callback.1 c requestIds p.callback.2 time (.ok ()) ∈ events ∧
    p.requestIds ⊆ requestIds ∧ p.timeoutTimestamp = time + timeoutInNano

theorem BelongsTo.snoc {timeoutInNano : Int} {c : ClientId}
    {p : PendingRequest (Nat × Callback)} (h : BelongsTo events timeoutInNano c p)
    (e : PoolEvent Callback) : BelongsTo (events ++ [e]) timeoutInNano c p := by
  obtain ⟨requestIds, time, hadd, hrest⟩ := h
  exact ⟨requestIds, time, List.mem_append_left _ hadd, hrest⟩

/-- What relates a run to the state it has reached. -/
structure Ledger (timeoutInNano : Int) (events : List (PoolEvent Callback))
    (s : PoolSystem Callback) : Prop where
  timeout : s.pool.mTimeoutInNano = timeoutInNano
  numbered : events.filterMap addNumber = List.range s.calls
  pending : ∀ c, ∀ p ∈ s.pool.pendingOf c, BelongsTo events timeoutInNano c p
  swept : ∀ sweep ∈ s.sweeps, sweepEvent sweep.1 ∈ events
  sweeping : ∀ sweep ∈ s.sweeps, ∀ p ∈ sweep.2, (∃ c, BelongsTo events timeoutInNano c p) ∧
    ∀ now, sweep.1 = some now → p.timeoutTimestamp < now
  balance : ∀ before n c requestIds callback time after,
    events = before ++ .addRequests n c requestIds callback time (.ok ()) :: after →
    ∀ x ∈ requestIds, account s n c x after = 1 ∧
      ((s.pool.pendingOf c).countP (holdsFor (ofCall n) x) ≠ 0 → NotAddedAgain c x after)

/-- The ledger of a new pool is empty. -/
theorem ledger_start (timeoutInNano clock : Int) :
    Ledger timeoutInNano [] (.start timeoutInNano clock : PoolSystem Callback) where
  timeout := rfl
  numbered := rfl
  pending c p hp := by
    rw [pendingOf_start] at hp
    exact absurd hp List.not_mem_nil
  swept _ hsweep := absurd hsweep List.not_mem_nil
  sweeping _ hsweep := absurd hsweep List.not_mem_nil
  balance before n c requestIds callback time after h := by
    cases before <;> cases h

/-- A number stands for one call. -/
theorem Ledger.unique {timeoutInNano : Int} (h : Ledger timeoutInNano events s)
    {e e' : PoolEvent Callback} (he : e ∈ events) (he' : e' ∈ events) {n : Nat}
    (hn : e.addNumber = some n) (hn' : e'.addNumber = some n) : e = e' := by
  have hnodup : (events.filterMap addNumber).Nodup := by
    rw [h.numbered]
    exact List.nodup_range
  clear h
  induction events with
  | nil => exact absurd he List.not_mem_nil
  | cons a events ih =>
      have hlater {b : PoolEvent Callback} (hb : b ∈ events) (hbn : b.addNumber = some n)
          (han : a.addNumber = some n) : False := by
        rw [List.filterMap_cons_some han, List.nodup_cons] at hnodup
        exact hnodup.1 (List.mem_filterMap.mpr ⟨b, hb, hbn⟩)
      rcases List.mem_cons.mp he with heq | hmem
      · rcases List.mem_cons.mp he' with heq' | hmem'
        · rw [heq, heq']
        · exact (hlater hmem' hn' (heq ▸ hn)).elim
      · rcases List.mem_cons.mp he' with heq' | hmem'
        · exact (hlater hmem hn (heq' ▸ hn')).elim
        · refine ih hmem hmem' ?_
          cases ha : a.addNumber with
          | none => rwa [List.filterMap_cons_none ha] at hnodup
          | some m =>
              rw [List.filterMap_cons_some ha, List.nodup_cons] at hnodup
              exact hnodup.2

/-- The number of a call that has been made. -/
theorem Ledger.number_lt {timeoutInNano : Int} (h : Ledger timeoutInNano events s)
    {e : PoolEvent Callback} (he : e ∈ events) {n : Nat} (hn : e.addNumber = some n) :
    n < s.calls := by
  have hmem := List.mem_filterMap.mpr ⟨e, he, hn⟩
  rwa [h.numbered, List.mem_range] at hmem

/-- A pending request with the number of a call is one of the client that made it. -/
theorem Ledger.client_eq {timeoutInNano : Int} (h : Ledger timeoutInNano events s)
    {n : Nat} {c d : ClientId} {requestIds : Finset Int} {callback : Callback} {time : Int}
    (hadd : .addRequests n c requestIds callback time (.ok ()) ∈ events)
    {p : PendingRequest (Nat × Callback)} (hp : p ∈ s.pool.pendingOf d)
    (hn : ofCall n p.callback = true) : d = c := by
  obtain ⟨requestIds', time', hadd', _⟩ := h.pending d p hp
  have heq := h.unique hadd hadd' rfl (by rw [addNumber, of_decide_eq_true hn])
  injection heq with _ hc
  exact hc.symm

/-- An event counts for a request exactly if it finishes it in its term. -/
theorem finishedInTerm_snoc (c : ClientId) (x : Int) (after : List (PoolEvent Callback))
    (e : PoolEvent Callback) :
    (e.finishes c x = false → finishedInTerm c x (after ++ [e]) = finishedInTerm c x after) ∧
      (NotAddedAgain c x after → e.finishes c x = true →
        finishedInTerm c x (after ++ [e]) = finishedInTerm c x after + 1) ∧
      (¬NotAddedAgain c x after →
        finishedInTerm c x (after ++ [e]) = finishedInTerm c x after) := by
  have hall : NotAddedAgain c x after → after.takeWhile (fun e => !e.adds c x) = after :=
    fun h => List.takeWhile_eq_self_iff.mpr fun e he => by rw [h e he, Bool.not_false]
  have happend : NotAddedAgain c x after → (after ++ [e]).takeWhile (fun e => !e.adds c x) =
      after ++ [e].takeWhile (fun e => !e.adds c x) :=
    fun h => List.takeWhile_append_of_pos fun e he => by rw [h e he, Bool.not_false]
  have hstop : ¬NotAddedAgain c x after → (after ++ [e]).takeWhile (fun e => !e.adds c x) =
      after.takeWhile (fun e => !e.adds c x) := by
    intro h
    rw [List.takeWhile_append, if_neg]
    intro hlength
    refine h fun e he => ?_
    have heq : after.takeWhile (fun e => !e.adds c x) = after :=
      (List.takeWhile_prefix _).eq_of_length hlength
    simpa using List.takeWhile_eq_self_iff.mp heq e he
  have hadds : e.finishes c x = true → e.adds c x = false := by
    intro h
    cases e <;> first | rfl | cases h
  refine ⟨fun hfin => ?_, fun hnot hfin => ?_, fun hadded => ?_⟩
  · by_cases hnot : NotAddedAgain c x after
    · rw [finishedInTerm, finishedInTerm, happend hnot, hall hnot, List.countP_append]
      cases he : e.adds c x <;> simp [he, hfin]
    · rw [finishedInTerm, finishedInTerm, hstop hnot]
  · rw [finishedInTerm, finishedInTerm, happend hnot, hall hnot, List.countP_append]
    simp [hadds hfin, hfin]
  · rw [finishedInTerm, finishedInTerm, hstop hadded]

end VhalCore.PendingRequests
