import VhalCore.Models.PendingRequests.Interpretation.Ledger

/-!
# Every request is reported exactly once

Each step keeps the ledger of a run, so an accepted id is in one place at any time.
When the pool has ended nothing is pending and nothing is left to sweep, so the id
has been reported. The deadlines of a client are sorted, which is why a sweep may
stop at the first request whose time is not over.
-/

namespace VhalCore.PendingRequests

open PendingRequestPool PoolEvent

variable {Callback κ : Type} {s t : PoolSystem Callback} {events : List (PoolEvent Callback)}
  {timeoutInNano : Int}

/-- A request stays not added again by an event that does not add it. -/
theorem NotAddedAgain.snoc {c : ClientId} {x : Int} {after : List (PoolEvent Callback)}
    {e : PoolEvent Callback} (h : NotAddedAgain c x after) (he : e.adds c x = false) :
    NotAddedAgain c x (after ++ [e]) := by
  intro e' he'
  rcases List.mem_append.mp he' with hold | hnew
  · exact h e' hold
  · rwa [List.mem_singleton.mp hnew]

/-- A pending request of a call is counted for it. -/
theorem countP_ofCall_ne_zero {ps : List (PendingRequest (Nat × Callback))}
    {p : PendingRequest (Nat × Callback)} (hp : p ∈ ps) {x : Int} (hx : x ∈ p.requestIds) :
    ps.countP (holdsFor (ofCall p.callback.1) x) ≠ 0 := by
  intro hzero
  rw [List.countP_eq_zero] at hzero
  exact hzero p hp ((holdsFor_iff _ x p).mpr ⟨decide_eq_true rfl, hx⟩)

/-- The accepted call whose term a pending id is in: its client has not added the id since. -/
theorem Ledger.latest (h : Ledger timeoutInNano events s) {c : ClientId} {x : Int}
    {p : PendingRequest (Nat × Callback)} (hp : p ∈ s.pool.pendingOf c) (hx : x ∈ p.requestIds) :
    ∃ before requestIds time after, events = before ++
        .addRequests p.callback.1 c requestIds p.callback.2 time (.ok ()) :: after ∧
      x ∈ requestIds ∧ NotAddedAgain c x after := by
  obtain ⟨requestIds, time, hadd, hsub, _⟩ := h.pending c p hp
  obtain ⟨before, after, rfl⟩ := List.append_of_mem hadd
  refine ⟨before, requestIds, time, after, rfl, hsub hx, ?_⟩
  exact (h.balance before _ c requestIds _ time after rfl x (hsub hx)).2
    (countP_ofCall_ne_zero hp hx)

/-- A pending id of another call was added later. -/
theorem Ledger.added_again (h : Ledger timeoutInNano events s) {c : ClientId} {x : Int}
    {n : Nat} {requestIds : Finset Int} {callback : Callback} {time : Int}
    {before after : List (PoolEvent Callback)}
    (hsplit : events = before ++ .addRequests n c requestIds callback time (.ok ()) :: after)
    (hx : x ∈ requestIds) (hpending : Pending (s.pool.pendingOf c) x)
    (hzero : (s.pool.pendingOf c).countP (holdsFor (ofCall n) x) = 0) :
    ¬NotAddedAgain c x after := by
  intro hnot
  obtain ⟨p, hp, hxp⟩ := hpending
  obtain ⟨before', requestIds', time', after', hsplit', hx', hnot'⟩ := h.latest hp hxp
  have hne : p.callback.1 ≠ n := by
    rintro rfl
    exact countP_ofCall_ne_zero hp hxp hzero
  rw [hsplit'] at hsplit
  rcases List.append_eq_append_iff.mp hsplit with ⟨mid, hb, ha⟩ | ⟨mid, hb, ha⟩
  · cases mid with
    | nil =>
        rw [List.nil_append] at ha
        injection ha with hhead _
        injection hhead with hn
        exact hne hn
    | cons a mid =>
        rw [List.cons_append] at ha
        injection ha with _ htail
        have hmem : .addRequests n c requestIds callback time (.ok ()) ∈ after' := by
          rw [htail]
          exact List.mem_append_right _ (List.mem_cons_self ..)
        have := hnot' _ hmem
        simp [adds, hx] at this
  · cases mid with
    | nil =>
        rw [List.nil_append] at ha
        injection ha with hhead _
        injection hhead with hn
        exact hne hn.symm
    | cons a mid =>
        rw [List.cons_append] at ha
        injection ha with _ htail
        have hmem :
            .addRequests p.callback.1 c requestIds' p.callback.2 time' (.ok ()) ∈ after := by
          rw [htail]
          exact List.mem_append_right _ (List.mem_cons_self ..)
        have := hnot _ hmem
        simp [adds, hx'] at this

/-- No waiting request carries the number of the next call. -/
theorem Ledger.fresh (h : Ledger timeoutInNano events s) (c : ClientId) (x : Int) :
    waiting s (ofCall s.calls) c x = 0 := by
  have hnone {d : ClientId} {p : PendingRequest (Nat × Callback)}
      (hp : BelongsTo events timeoutInNano d p) : ¬holdsFor (ofCall s.calls) x p = true := by
    intro hx
    obtain ⟨requestIds, time, hadd, _⟩ := hp
    have hlt := h.number_lt hadd rfl
    rw [of_decide_eq_true ((holdsFor_iff _ x p).mp hx).1] at hlt
    exact lt_irrefl _ hlt
  have hpending : (s.pool.pendingOf c).countP (holdsFor (ofCall s.calls) x) = 0 := by
    rw [List.countP_eq_zero]
    exact fun p hp => hnone (h.pending c p hp)
  have hsweeping : (s.sweeps.flatMap Prod.snd).countP (holdsFor (ofCall s.calls) x) = 0 := by
    rw [List.countP_eq_zero]
    intro p hp
    obtain ⟨sweep, hsweep, hmem⟩ := List.mem_flatMap.mp hp
    obtain ⟨⟨d, hbelongs⟩, _⟩ := h.sweeping sweep hsweep p hmem
    exact hnone hbelongs
  rw [waiting, hpending, hsweeping]

/-- A step keeps the balance of an earlier call: what leaves the waiting ones is reported. -/
theorem Ledger.balance_step (h : Ledger timeoutInNano events s) {e : PoolEvent Callback}
    (hstep : PoolStep s e t) {before : List (PoolEvent Callback)} {n : Nat} {c : ClientId}
    {ids : Finset Int} {callback : Callback} {time : Int} {after : List (PoolEvent Callback)}
    (hsplit : events = before ++ .addRequests n c ids callback time (.ok ()) :: after) {x : Int}
    (hx : x ∈ ids) : account t n c x (after ++ [e]) = 1 := by
  obtain ⟨hone, hnot⟩ := h.balance before n c ids callback time after hsplit x hx
  have hadd : .addRequests n c ids callback time (.ok ()) ∈ events := by
    rw [hsplit]
    exact List.mem_append_right _ (List.mem_cons_self ..)
  have hwait := hstep.waiting_eq (f := ofCall n) (c := c) (fun d hd p hp => by
    by_contra hn
    exact hd (h.client_eq hadd hp (by simpa using hn))) x
  have hsnoc := finishedInTerm_snoc c x after e
  rw [account, List.countP_append, List.countP_singleton]
  rw [account] at hone
  cases hstep with
  | addRequests order d requestIds callback' time' r pool hlive htime heq =>
      have hnew : ofCall n (s.calls, callback') = false :=
        decide_eq_false (h.number_lt hadd rfl).ne'
      have hsame : waitingChange s (ofCall n) c x
          (.addRequests s.calls d requestIds callback' time' r) = 0 := by
        cases r with
        | error => rfl
        | ok => simp [waitingChange, hnew]
      rw [hsame] at hwait
      rw [hsnoc.1 rfl, if_neg (by exact Bool.false_ne_true)]
      omega
  | tryFinishRequests d requestIds foundIds pool hlive heq =>
      have hfound := (tryFinishRequests_spec d requestIds s.pool).1 x
      rw [heq] at hfound
      have hcount : (s.pool.pendingOf c).countP (holdsFor (ofCall n) x) ≤
          waiting s (ofCall n) c x := Nat.le_add_right _ _
      have hfinishes : finishes c x (.tryFinishRequests d requestIds foundIds :
          PoolEvent Callback) = decide (d = c ∧ x ∈ foundIds) := rfl
      rw [if_neg (by exact Bool.false_ne_true)]
      by_cases hasked : d = c ∧ x ∈ requestIds
      · obtain ⟨rfl, hxr⟩ := hasked
        rw [waitingChange, if_pos ⟨rfl, hxr⟩] at hwait
        by_cases hpending : Pending (s.pool.pendingOf d) x
        · by_cases hzero : (s.pool.pendingOf d).countP (holdsFor (ofCall n) x) = 0
          · rw [hsnoc.2.2 (h.added_again hsplit hx hpending hzero)]
            omega
          · rw [hsnoc.2.1 (hnot hzero) (decide_eq_true ⟨rfl, hfound.mpr ⟨hxr, hpending⟩⟩)]
            omega
        · rw [hsnoc.1 (by simp [hfinishes, hfound, hpending])]
          have hzero := countP_holdsFor_of_not_pending hpending (ofCall n)
          omega
      · rw [waitingChange, if_neg hasked] at hwait
        rw [hsnoc.1 (decide_eq_false fun hmem => hasked ⟨hmem.1, (hfound.mp hmem.2).1⟩)]
        omega
  | checkTimeout order time' timedOut pool hlive htime heq =>
      simp only [waitingChange] at hwait
      rw [hsnoc.1 rfl, if_neg (by exact Bool.false_ne_true)]
      omega
  | invoke before' after' time' p rest heq =>
      rw [hsnoc.1 rfl]
      simp only [waitingChange, ofCall, decide_eq_true_eq] at hwait
      simp only [expires, decide_eq_true_eq]
      by_cases hp : p.callback.1 = n ∧ x ∈ p.requestIds
      · rw [if_pos hp] at hwait ⊢
        omega
      · rw [if_neg hp] at hwait ⊢
        omega
  | destroy order timedOut pool hlive hjoined heq =>
      simp only [waitingChange] at hwait
      rw [hsnoc.1 rfl, if_neg (by exact Bool.false_ne_true)]
      omega

/-- An id that a call adds was not pending. -/
theorem PoolStep.not_pending_of_adds {e : PoolEvent Callback} (hstep : PoolStep s e t)
    {c : ClientId} {x : Int} (hadds : e.adds c x = true) : ¬Pending (s.pool.pendingOf c) x := by
  cases hstep with
  | addRequests order d requestIds callback time r pool hlive htime heq =>
      rcases addRequests_cases order time d requestIds (s.calls, callback) s.pool with
        ⟨_, u, hu, _⟩ | ⟨hfree, ⟨u, hu, _⟩ | ⟨u, hu, _⟩⟩
      · cases heq.symm.trans hu
        cases hadds
      · cases heq.symm.trans hu
        cases hadds
      · cases heq.symm.trans hu
        obtain ⟨rfl, hx⟩ := of_decide_eq_true hadds
        exact hfree x hx
  | _ => cases hadds

/-- Every step keeps the ledger. -/
theorem Ledger.step (h : Ledger timeoutInNano events s) {e : PoolEvent Callback}
    (hstep : PoolStep s e t) : Ledger timeoutInNano (events ++ [e]) t := by
  refine ⟨hstep.timeout.trans h.timeout, ?_, fun c p hp => ?_, fun sweep hsweep => ?_,
    fun sweep hsweep p hp => ?_, fun before n c ids callback time after hsplit x hx => ?_⟩
  · rw [List.filterMap_append, h.numbered]
    cases hstep with
    | addRequests => exact List.range_succ.symm
    | _ => exact List.append_nil _
  · rcases hstep.pendingOf_cases hp with
      ⟨q, hq, hcallback, htime, hsub, _⟩ | ⟨requestIds, callback, time, rfl, rfl⟩
    · obtain ⟨requestIds, time, hadd, hids, htime'⟩ := h.pending c q hq
      refine ⟨requestIds, time, List.mem_append_left _ ?_, hsub.trans hids, htime.trans htime'⟩
      rwa [hcallback]
    · exact ⟨requestIds, time, List.mem_append_right _ (List.mem_singleton_self _),
        Finset.Subset.refl _, by rw [h.timeout]⟩
  · rcases hstep.sweeps_cases hsweep with ⟨sweep', hmem, htime, _⟩ | ⟨rfl, _⟩
    · rw [← htime]
      exact List.mem_append_left _ (h.swept sweep' hmem)
    · exact List.mem_append_right _ (List.mem_singleton_self _)
  · rcases hstep.sweeps_cases hsweep with ⟨sweep', hmem, htime, hrest⟩ | ⟨_, htaken⟩
    · obtain ⟨⟨c, hbelongs⟩, hlate⟩ := h.sweeping sweep' hmem p (hrest p hp)
      exact ⟨⟨c, hbelongs.snoc e⟩, fun now hnow => hlate now (htime.trans hnow)⟩
    · obtain ⟨⟨c, hc⟩, hlate⟩ := htaken p hp
      exact ⟨⟨c, (h.pending c p hc).snoc e⟩, hlate⟩
  · rcases split_snoc hsplit with ⟨after', rfl, hold⟩ | ⟨rfl, rfl, hnew⟩
    · refine ⟨h.balance_step hstep hold hx, fun hne => ?_⟩
      have hlt : n < s.calls := h.number_lt (e := .addRequests n c ids callback time (.ok ()))
        (by rw [hold]; exact List.mem_append_right _ (List.mem_cons_self ..)) rfl
      obtain ⟨p, hp, hholds⟩ := List.countP_pos_iff.mp (Nat.pos_of_ne_zero hne)
      obtain ⟨hcall, hxp⟩ := (holdsFor_iff _ x p).mp hholds
      rcases hstep.pendingOf_cases hp with
        ⟨q, hq, hcallback, _, hsub, _⟩ | ⟨_, _, _, _, rfl⟩
      · rw [ofCall, decide_eq_true_eq, hcallback] at hcall
        subst hcall
        have hnot := (h.balance before _ c ids callback time after' hold x hx).2
        refine (hnot (countP_ofCall_ne_zero hq (hsub hxp))).snoc ?_
        rw [← Bool.not_eq_true]
        exact fun hadds => hstep.not_pending_of_adds hadds ⟨q, hq, hsub hxp⟩
      · exact absurd (of_decide_eq_true hcall) hlt.ne'
    · subst hnew
      have hn : n = s.calls := by
        cases hstep
        rfl
      subst hn
      have hwait := hstep.waiting_eq (f := ofCall s.calls) (c := c) (fun d _ p hp => by
        obtain ⟨_, _, hadd, _⟩ := h.pending d p hp
        exact decide_eq_false (h.number_lt hadd rfl).ne) x
      rw [h.fresh, waitingChange, if_pos ⟨rfl, decide_eq_true rfl, hx⟩] at hwait
      refine ⟨?_, fun _ e he => absurd he List.not_mem_nil⟩
      have hone : waiting t (ofCall s.calls) c x = 1 := by omega
      rw [account, hone]
      rfl

/-- The pending requests of every client are in the order of their deadlines, and none of
these is further away than the timeout. -/
structure InOrder (s : PoolSystem Callback) : Prop where
  sorted : ∀ c, (s.pool.pendingOf c).Pairwise fun p q => p.timeoutTimestamp ≤ q.timeoutTimestamp
  bounded : ∀ c, ∀ p ∈ s.pool.pendingOf c, p.timeoutTimestamp ≤ s.clock + s.pool.mTimeoutInNano

/-- A queue with its deadlines in order is left so by every step. -/
theorem PoolStep.sorted {e : PoolEvent Callback} (hs : InOrder s) (h : PoolStep s e t)
    (c : ClientId) :
    (t.pool.pendingOf c).Pairwise fun p q => p.timeoutTimestamp ≤ q.timeoutTimestamp := by
  have hclock := h.clock_le
  have hqueue := h.queue c
  generalize t.pool.pendingOf c = queue at hqueue
  cases hqueue with
  | kept => exact hs.sorted c
  | added requestIds callback time _ _ =>
      refine List.pairwise_append.mpr ⟨hs.sorted c, List.pairwise_singleton _ _, ?_⟩
      intro p hp q hq
      rw [List.mem_singleton.mp hq]
      have hbound := hs.bounded c p hp
      have htime := h.clock_of_addRequests
      simp only
      omega
  | finished requestIds foundIds =>
      rw [finishLoop_eq]
      refine List.Pairwise.filter _ (List.pairwise_map.mpr ?_)
      exact hs.sorted c
  | swept time => exact (hs.sorted c).sublist (List.dropWhile_sublist _)
  | destroyed => exact List.Pairwise.nil

/-- Every step keeps the deadlines in order. -/
theorem PoolStep.inOrder {e : PoolEvent Callback} (hs : InOrder s) (h : PoolStep s e t) :
    InOrder t := by
  refine ⟨h.sorted hs, fun c p hp => ?_⟩
  rw [h.timeout]
  rcases h.pendingOf_cases hp with
    ⟨q, hq, _, htime, _⟩ | ⟨requestIds, callback, time, rfl, rfl⟩
  · have hbound := hs.bounded c q hq
    have hclock := h.clock_le
    omega
  · rw [h.clock_of_addRequests]

/-- In a sorted list the requests up to the first one whose time is not over are all those
whose time is over. -/
theorem takeWhile_expired_of_sorted {ps : List (PendingRequest κ)} (now : Int)
    (h : ps.Pairwise fun p q => p.timeoutTimestamp ≤ q.timeoutTimestamp) :
    ps.takeWhile (expired now) = ps.filter (expired now) ∧
      ps.dropWhile (expired now) = ps.filter (fun p => !expired now p) := by
  induction ps with
  | nil => exact ⟨rfl, rfl⟩
  | cons p ps ih =>
      obtain ⟨hle, htail⟩ := List.pairwise_cons.mp h
      obtain ⟨htake, hdrop⟩ := ih htail
      cases hp : expired now p with
      | true =>
          rw [List.takeWhile_cons_of_pos hp, List.filter_cons_of_pos hp, htake,
            List.dropWhile_cons_of_pos hp, List.filter_cons_of_neg (by simp [hp]), hdrop]
          exact ⟨rfl, rfl⟩
      | false =>
          have hnone : ∀ q ∈ ps, expired now q = false := by
            intro q hq
            have := hle q hq
            simp only [expired, decide_eq_false_iff_not] at hp ⊢
            omega
          rw [List.takeWhile_cons_of_neg (by simp [hp]), List.dropWhile_cons_of_neg (by simp [hp]),
            List.filter_cons_of_neg (by simp [hp]), List.filter_cons_of_pos (by simp [hp])]
          refine ⟨?_, ?_⟩
          · rw [List.filter_eq_nil_iff.mpr]
            intro q hq
            rw [hnone q hq]
            exact Bool.false_ne_true
          · rw [List.filter_eq_self.mpr]
            intro q hq
            rw [hnone q hq]
            rfl

/-- What a run has left behind when it reaches a state. -/
theorem ledger_of_run {clock : Int}
    (h : Path PoolStep (.start timeoutInNano clock) events s) :
    Ledger timeoutInNano events s ∧ InOrder s := by
  induction h with
  | nil =>
      refine ⟨ledger_start timeoutInNano clock, ⟨fun c => ?_, fun c p hp => ?_⟩⟩
      · rw [pendingOf_start]
        exact List.Pairwise.nil
      · rw [pendingOf_start] at hp
        exact absurd hp List.not_mem_nil
  | snoc _ hstep ih => exact ⟨ih.1.step hstep, hstep.inOrder ih.2⟩

/-- After the destructor nothing is pending. -/
theorem pendingOf_of_destroyed {clock : Int}
    (h : Path PoolStep (.start timeoutInNano clock) events s) (hd : s.destroyed = true)
    (c : ClientId) : s.pool.pendingOf c = [] := by
  refine Path.invariant (P := fun s : PoolSystem Callback =>
    s.destroyed = true → s.pool.pendingOf c = []) h (fun hd => by cases hd) ?_ hd
  intro u e v hu hstep hv
  cases hstep with
  | addRequests _ _ _ _ _ _ _ hlive => exact absurd (hv.symm.trans hlive) (by decide)
  | tryFinishRequests _ _ _ _ hlive => exact absurd (hv.symm.trans hlive) (by decide)
  | checkTimeout _ _ _ _ hlive => exact absurd (hv.symm.trans hlive) (by decide)
  | invoke => exact hu hv
  | destroy order timedOut pool _ _ heq =>
      have hnil := pendingOf_destroy order u.pool c
      rwa [heq] at hnil

/-- The reports of a run: every accepted id of a run that has ended is reported once, by a
`tryFinishRequests` of its client or by the callback of its call. -/
def ReportedOnce (events : List (PoolEvent Callback)) : Prop :=
  ∀ before n c requestIds callback time after,
    events = before ++ .addRequests n c requestIds callback time (.ok ()) :: after →
    ∀ x ∈ requestIds, finishedInTerm c x after + after.countP (expires n x) = 1

/-- Every id that `tryFinishRequests` reports is one it was asked for, and in the term of an
accepted call of the client. -/
def FindsOnlyAccepted (events : List (PoolEvent Callback)) : Prop :=
  ∀ before c requestIds foundIds after,
    events = before ++ .tryFinishRequests c requestIds foundIds :: after →
    ∀ x ∈ foundIds, x ∈ requestIds ∧ ∃ earlier n ids callback time between,
      before = earlier ++ .addRequests n c ids callback time (.ok ()) :: between ∧ x ∈ ids ∧
        NotAddedAgain c x between

/-- Every invoked callback is that of an accepted call, with ids of this call, and it is
invoked by a sweep after the deadline or by the destructor. -/
def InvokesOnlyAccepted (timeoutInNano : Int) (events : List (PoolEvent Callback)) : Prop :=
  ∀ before n callback (ids : Finset Int) sweepTime after,
    events = before ++ .invoke n callback ids sweepTime :: after →
    ∃ c requestIds time, .addRequests n c requestIds callback time (.ok ()) ∈ before ∧
      ids ⊆ requestIds ∧ (sweepTime = none ∧ .destroy ∈ before ∨
        ∃ now, sweepTime = some now ∧ .checkTimeout now ∈ before ∧ time + timeoutInNano < now)

/-- A call that failed is never reported: no invocation carries its number. -/
def NeverReportsRejected (events : List (PoolEvent Callback)) : Prop :=
  ∀ n c requestIds callback time e,
    .addRequests n c requestIds callback time (.error e) ∈ events →
    ∀ callback' ids sweepTime, .invoke n callback' ids sweepTime ∉ events

/-- Only accepted requests are ever found. -/
theorem findsOnlyAccepted_of_run {clock : Int}
    (h : Path PoolStep (.start timeoutInNano clock) events s) : FindsOnlyAccepted events := by
  rintro before c requestIds foundIds after rfl x hx
  obtain ⟨u, v, hbefore, hstep, _⟩ := h.step_at
  have hledger := (ledger_of_run hbefore).1
  cases hstep with
  | tryFinishRequests _ _ _ pool _ heq =>
      have hfound := (tryFinishRequests_spec c requestIds u.pool).1 x
      rw [heq] at hfound
      obtain ⟨hrequested, p, hp, hxp⟩ := hfound.mp hx
      obtain ⟨earlier, ids, time, between, hsplit, hmem, hnot⟩ := hledger.latest hp hxp
      exact ⟨hrequested, earlier, _, ids, _, time, between, hsplit, hmem, hnot⟩

/-- Only accepted requests ever time out. -/
theorem invokesOnlyAccepted_of_run {clock : Int}
    (h : Path PoolStep (.start timeoutInNano clock) events s) :
    InvokesOnlyAccepted timeoutInNano events := by
  rintro before n callback ids sweepTime after rfl
  obtain ⟨u, v, hbefore, hstep, _⟩ := h.step_at
  have hledger := (ledger_of_run hbefore).1
  cases hstep with
  | invoke _ _ _ p rest heq =>
      have hsweep : (sweepTime, p :: rest) ∈ u.sweeps := by
        rw [heq]
        exact List.mem_append_right _ (List.mem_cons_self ..)
      have hevent := hledger.swept _ hsweep
      obtain ⟨⟨c, requestIds, time, hadd, hsub, hdeadline⟩, hlate⟩ :=
        hledger.sweeping _ hsweep p (List.mem_cons_self ..)
      refine ⟨c, requestIds, time, hadd, hsub, ?_⟩
      cases sweepTime with
      | none => exact Or.inl ⟨rfl, hevent⟩
      | some now => exact Or.inr ⟨now, rfl, hevent, by rw [← hdeadline]; exact hlate now rfl⟩

/-- Rejected requests are never reported. -/
theorem neverReportsRejected_of_run {clock : Int}
    (h : Path PoolStep (.start timeoutInNano clock) events s) : NeverReportsRejected events := by
  intro n c requestIds callback time e hfailed callback' ids sweepTime hinvoke
  obtain ⟨before, after, hsplit⟩ := List.append_of_mem hinvoke
  obtain ⟨c', requestIds', time', hadd, _⟩ :=
    invokesOnlyAccepted_of_run h before n callback' ids sweepTime after hsplit
  have hadd' : .addRequests n c' requestIds' callback' time' (.ok ()) ∈ events := by
    rw [hsplit]
    exact List.mem_append_left _ hadd
  have heq := (ledger_of_run h).1.unique hfailed hadd' rfl rfl
  injection heq with _ _ _ _ _ hr
  cases hr

/-- At the end every accepted request has been reported once. -/
theorem reportedOnce_of_run {clock : Int}
    (h : Path PoolStep (.start timeoutInNano clock) events s) (hend : s.Ended) :
    ReportedOnce events := by
  intro before n c requestIds callback time after hsplit x hx
  have hone := ((ledger_of_run h).1.balance before n c requestIds callback time after hsplit x hx).1
  rw [account, waiting, pendingOf_of_destroyed h hend.destroyed c,
    List.flatMap_eq_nil_iff.mpr hend.invoked] at hone
  exact hone

/-- Every request is resolved exactly once. In a run that has ended each accepted id has
been reported once, after its call. In every run only accepted ids are reported: to the
client that added them, or by the callback given for them and then after their deadline or
by the destructor. In every reachable state a failed call changes no pending request, and
a sweep takes exactly the requests whose deadline has passed. -/
theorem exactlyOnce_of_run {clock : Int}
    (h : Path PoolStep (.start timeoutInNano clock) events s) :
    (s.Ended → ReportedOnce events) ∧ FindsOnlyAccepted events ∧
      InvokesOnlyAccepted timeoutInNano events ∧ NeverReportsRejected events ∧
      (∀ order time c requestIds callback e pool,
        addRequests order time c requestIds callback s.pool = (.error e, pool) →
        ∀ d, pool.pendingOf d = s.pool.pendingOf d) ∧
      ∀ order time timedOut pool, s.pool.checkTimeout order time = (timedOut, pool) →
        (∀ p, p ∈ timedOut ↔ ∃ c, p ∈ s.pool.pendingOf c ∧ p.timeoutTimestamp < time) ∧
        ∀ c, pool.pendingOf c = (s.pool.pendingOf c).filter fun p => time ≤ p.timeoutTimestamp := by
  refine ⟨reportedOnce_of_run h, findsOnlyAccepted_of_run h, invokesOnlyAccepted_of_run h,
    neverReportsRejected_of_run h, ?_, ?_⟩
  · intro order time c requestIds callback e pool heq d
    rcases addRequests_cases order time c requestIds callback s.pool with
      ⟨x, u, hu, _, _, _, hpool⟩ | ⟨_, ⟨u, hu, _, _, hpool⟩ | ⟨u, hu, _⟩⟩
    · cases heq.symm.trans hu
      exact hpool d
    · cases heq.symm.trans hu
      exact hpool d
    · cases heq.symm.trans hu
  · intro order time timedOut pool heq
    have hsorted := (ledger_of_run h).2.sorted
    obtain ⟨htimed, _, hpool⟩ := checkTimeout_spec order time s.pool
    rw [heq] at htimed hpool
    refine ⟨fun p => ?_, fun c => ?_⟩
    · simp only at htimed
      rw [htimed, List.mem_flatMap]
      constructor
      · rintro ⟨⟨c, ps⟩, hentry, hp⟩
        have hps : s.pool.pendingOf c = ps :=
          UnorderedMap.valueAt_of_lookup ((order.mem_entries _ c ps).mp hentry) []
        refine ⟨c, hps ▸ List.takeWhile_subset _ hp, ?_⟩
        simpa [expired] using List.mem_takeWhile_imp hp
      · rintro ⟨c, hp, hlt⟩
        cases hl : s.pool.mPendingRequestsByClient.lookup c with
        | none =>
            rw [pendingOf, UnorderedMap.valueAt, hl] at hp
            exact absurd hp List.not_mem_nil
        | some ps =>
            have hps : s.pool.pendingOf c = ps := UnorderedMap.valueAt_of_lookup hl []
            refine ⟨(c, ps), (order.mem_entries _ c ps).mpr hl, ?_⟩
            simp only
            rw [← hps, (takeWhile_expired_of_sorted time (hsorted c)).1, List.mem_filter]
            exact ⟨hp, by simpa [expired] using hlt⟩
    · refine (hpool c).trans ?_
      rw [(takeWhile_expired_of_sorted time (hsorted c)).2]
      refine List.filter_congr fun p _ => ?_
      simp [expired, ← decide_not]

/-- Two clients have requests with the same id, of which one is finished in time. An id that is
pending is refused. -/
def twoClients : List (PoolEvent Unit) :=
  [.addRequests 0 1 {7, 8} () 0 (.ok ()), .addRequests 1 2 {7} () 0 (.ok ()),
    .addRequests 2 1 {8} () 5 (.error (.duplicateRequestId 8)), .tryFinishRequests 1 {7} {7},
    .checkTimeout 11, .invoke 0 () {8} (some 11), .invoke 1 () {7} (some 11), .destroy]

/-- A run in which two clients use the same request identity. -/
theorem path_twoClients : ∃ s : PoolSystem Unit, Path PoolStep (.start 10 0) twoClients s ∧
    s.Ended := by
  let pool₀ : PendingRequestPool (Nat × Unit) := { mTimeoutInNano := 10 }
  let pool₁ := (addRequests (.ascending _) 0 1 {7, 8} (0, ()) pool₀).2
  let pool₂ := (addRequests (.ascending _) 0 2 {7} (1, ()) pool₁).2
  let pool₃ := (addRequests (.ascending _) 5 1 {8} (2, ()) pool₂).2
  let pool₄ := (pool₃.tryFinishRequests 1 {7}).2
  let pool₅ := (pool₄.checkTimeout (.ascending _) 11).2
  let pool₆ := (pool₅.destroy (.ascending _)).2
  have hfirst : PoolStep (.start 10 0) (.addRequests 0 1 {7, 8} () 0 (.ok ()))
      (⟨pool₁, 0, 1, [], false⟩ : PoolSystem Unit) :=
    .addRequests (.start 10 0) (.ascending _) 1 {7, 8} () 0 (.ok ()) pool₁ rfl le_rfl
      (Prod.ext (by decide) rfl)
  have hsecond : PoolStep ⟨pool₁, 0, 1, [], false⟩ (.addRequests 1 2 {7} () 0 (.ok ()))
      (⟨pool₂, 0, 2, [], false⟩ : PoolSystem Unit) :=
    .addRequests _ (.ascending _) 2 {7} () 0 (.ok ()) pool₂ rfl le_rfl (Prod.ext (by decide) rfl)
  have hrefused : PoolStep ⟨pool₂, 0, 2, [], false⟩
      (.addRequests 2 1 {8} () 5 (.error (.duplicateRequestId 8)))
      (⟨pool₃, 5, 3, [], false⟩ : PoolSystem Unit) :=
    .addRequests _ (.ascending _) 1 {8} () 5 _ pool₃ rfl (show (0 : Int) ≤ 5 by decide)
      (Prod.ext (by decide) rfl)
  have hfinished : PoolStep ⟨pool₃, 5, 3, [], false⟩ (.tryFinishRequests 1 {7} {7})
      (⟨pool₄, 5, 3, [], false⟩ : PoolSystem Unit) :=
    .tryFinishRequests _ 1 {7} {7} pool₄ rfl (Prod.ext (by decide) rfl)
  have htimedOut : (pool₄.checkTimeout (.ascending _) 11).1 =
      [⟨{8}, 10, (0, ())⟩, ⟨{7}, 10, (1, ())⟩] := by rfl
  have hswept : PoolStep ⟨pool₄, 5, 3, [], false⟩ (.checkTimeout 11)
      (⟨pool₅, 11, 3, [(some 11, [⟨{8}, 10, (0, ())⟩, ⟨{7}, 10, (1, ())⟩])], false⟩ :
        PoolSystem Unit) :=
    .checkTimeout _ (.ascending _) 11 _ pool₅ rfl (show (5 : Int) ≤ 11 by decide)
      (Prod.ext htimedOut rfl)
  have hpath := ((((Path.single hfirst).snoc hsecond).snoc hrefused).snoc hfinished).snoc hswept
  have hpath := (hpath.snoc (.invoke _ [] [] (some 11) ⟨{8}, 10, (0, ())⟩ _ rfl)).snoc
    (.invoke _ [] [] (some 11) ⟨{7}, 10, (1, ())⟩ [] rfl)
  have hdestroyed := hpath.snoc (.destroy _ (.ascending _) [] pool₆ rfl
    (List.forall_mem_singleton.mpr rfl) (Prod.ext (by rfl) rfl))
  exact ⟨_, hdestroyed, rfl, List.forall_mem_singleton.mpr rfl⟩

/-- One id is reported to the client that finishes it, the others by their callbacks. -/
theorem exactlyOnce_of_two_clients : ∃ s : PoolSystem Unit,
    Path PoolStep (.start 10 0) twoClients s ∧ ReportedOnce twoClients ∧
      FindsOnlyAccepted twoClients ∧ InvokesOnlyAccepted 10 twoClients ∧
      NeverReportsRejected twoClients := by
  obtain ⟨s, hrun, hend⟩ := path_twoClients
  obtain ⟨hreported, hfinds, hinvokes, hrejected, -⟩ := exactlyOnce_of_run hrun
  exact ⟨s, hrun, hreported hend, hfinds, hinvokes, hrejected⟩

end VhalCore.PendingRequests
