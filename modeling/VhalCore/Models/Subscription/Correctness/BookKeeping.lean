import VhalCore.Models.Subscription.Interpretation.Clients

/-!
# Book-keeping of the clients and their pairs

The client map of each pair and the set of pairs held by each client are inverse
relations without empty members, as long as no `unsubscribe` of a whole client is
refused by the hardware after a pair has already been dropped. That overload drops
the pairs one by one but forgets them only at the end, so a late refusal leaves a
dropped pair in the held set; the overload with property ids forgets each pair at
once and has no such restriction.
-/

namespace VhalCore.Subscription.SubscriptionManager

variable {hw : Nat → StatusCode} {lib : MathLibrary} {s t : SubscriptionManager}

/-- The two maps are inverse relations and hold no empty inner collection. -/
structure BookKeeping (s : SubscriptionManager) : Prop where
  inverse : ∀ p c, s.client p c ≠ none ↔ p ∈ s.held c
  clientsNonempty : ∀ p, s.mClientsByPropIdAreaId.lookup p ≠ some ∅
  heldNonempty : ∀ c, s.mSubscribedPropsByClient.lookup c ≠ some ∅

theorem bookKeeping_empty : BookKeeping {} where
  inverse p c := by simp [client, held, UnorderedMap.valueAt]
  clientsNonempty p := by simp
  heldNonempty c := by simp

/-- No call leaves an empty client map behind. -/
theorem Operation.Effect.clientsNonempty {op : Operation} {r : VhalResult} {acts : List Act}
    (h : op.Effect hw lib s r t acts) (hs : ∀ p, s.mClientsByPropIdAreaId.lookup p ≠ some ∅) :
    ∀ p, t.mClientsByPropIdAreaId.lookup p ≠ some ∅ := fun p =>
  pair_invariant_of_acts (P := fun x => x.clients ≠ some ∅) (h.pairs hw) p (hs p)
    fun _ _ _ _ hx hstep => hstep.clients_ne hx

private theorem lookup_holdPair_ne_empty {m : HeldPairs} (hm : ∀ d, m.lookup d ≠ some ∅)
    (c : ClientIdType) (p : PropIdAreaId) (d : ClientIdType) :
    (holdPair c p m).lookup d ≠ some ∅ := by
  rw [holdPair, UnorderedMap.lookup_insert_eq]
  split
  · simp
  · exact hm d

private theorem lookup_foldl_holdPair_ne_empty {m : HeldPairs} (hm : ∀ d, m.lookup d ≠ some ∅)
    (c : ClientIdType) (turns : List (SubscribeOptions × Int)) (d : ClientIdType) :
    (turns.foldl (fun m turn => holdPair c ⟨turn.1.propId, turn.2⟩ m) m).lookup d ≠ some ∅ := by
  induction turns generalizing m with
  | nil => exact hm d
  | cons turn turns ih => exact ih (lookup_holdPair_ne_empty hm c _)

private theorem lookup_foldl_releasePair_of_ne {c d : ClientIdType} (hd : d ≠ c)
    (ps : List PropIdAreaId) (m : HeldPairs) :
    (ps.foldl (fun m p => releasePair c p m) m).lookup d = m.lookup d := by
  induction ps generalizing m with
  | nil => rfl
  | cons p ps ih => rw [List.foldl_cons, ih, releasePair, Finmap.lookup_insert_of_ne _ hd]

private theorem lookup_ne_empty_of_mem {m : HeldPairs} {c : ClientIdType} {p : PropIdAreaId}
    (h : p ∈ m.valueAt c ∅) : m.lookup c ≠ some ∅ := by
  intro he
  rw [UnorderedMap.valueAt_of_lookup he] at h
  exact Finset.notMem_empty p h

/-- A call of `subscribe` keeps the book-keeping, failed or not. -/
private theorem bookKeeping_subscribe (hs : BookKeeping s) {callback : CallbackType}
    {options : List SubscribeOptions} {isContinuousProperty : Bool} {r : VhalResult}
    {done : List (SubscribeOptions × Int)} {acts : List Act}
    (h : SubscribeEffect hw callback isContinuousProperty options s r t done acts)
    (hclients : ∀ p, t.mClientsByPropIdAreaId.lookup p ≠ some ∅) : BookKeeping t where
  inverse p c := by
    have hclient : t.client = Table.subscribeAll (fun k _ => k) callback isContinuousProperty done
        s.client := by
      rw [← foldl_act_subscribed, ← h.loop.foldl_act _ fun _ _ _ => rfl]
      exact client_of_acts h.pairs
    rw [hclient, subscribeAll_ne_none, held, h.held, mem_valueAt_foldl_holdPair, hs.inverse]
    rfl
  clientsNonempty := hclients
  heldNonempty c := by
    rw [h.held]
    exact lookup_foldl_holdPair_ne_empty hs.heldNonempty _ _ c

/-- A loop that unsubscribes pairs removes the client from those it completed. -/
theorem client_of_unsubscribe {c : ClientIdType} {book : PropIdAreaId → HeldPairs → HeldPairs}
    {xs done : List PropIdAreaId} {r : VhalResult} {acts : List Act}
    (h : LoopEffect hw (unsubscribedAct c) (unsubscribeFailedAct c) book xs s r t done acts) :
    t.client = Table.unsubscribe s.client c fun p => p ∈ done := by
  rw [← foldl_act_unsubscribed (fun k _ => k), ← h.loop.foldl_act _ fun _ _ _ => rfl]
  exact client_of_acts h.pairs

/-- A call of `unsubscribe` with property ids keeps the book-keeping, failed or not. -/
private theorem bookKeeping_unsubscribe (hs : BookKeeping s) {c : ClientIdType}
    {propIds : List Int} {order : Traversal PropIdAreaId} {r : VhalResult}
    {u : SubscriptionManager} {done : List PropIdAreaId} {acts : List Act}
    (h : ForgetEffect hw c (propIdAreaIdsToUnsubscribe propIds order (s.held c)) s r t done acts)
    (hu : u = if r = .ok () ∧ t.held c = ∅ then
      { t with mSubscribedPropsByClient := t.mSubscribedPropsByClient.erase c } else t)
    (hclients : ∀ p, u.mClientsByPropIdAreaId.lookup p ≠ some ∅) : BookKeeping u := by
  have hheld (p : PropIdAreaId) (d : ClientIdType) :
      p ∈ t.held d ↔ p ∈ s.held d ∧ ¬(d = c ∧ p ∈ done) := by
    rw [held, h.held, mem_valueAt_foldl_releasePair]
    rfl
  have hinverse (p : PropIdAreaId) (d : ClientIdType) : t.client p d ≠ none ↔ p ∈ t.held d := by
    rw [client_of_unsubscribe h, unsubscribe_ne_none, hheld, hs.inverse]
  have hother (d : ClientIdType) (hd : d ≠ c) : t.mSubscribedPropsByClient.lookup d ≠ some ∅ := by
    rw [h.held, lookup_foldl_releasePair_of_ne hd]
    exact hs.heldNonempty d
  subst hu
  split
  · next hempty =>
    refine ⟨fun p d => ?_, ?_, fun d => ?_⟩
    · rw [held, mem_valueAt_erase]
      refine (hinverse p d).trans ⟨fun hp => ⟨hp, ?_⟩, fun hp => hp.1⟩
      rintro rfl
      rw [hempty.2] at hp
      exact Finset.notMem_empty p hp
    · rwa [if_pos hempty] at hclients
    · rw [UnorderedMap.lookup_erase_eq]
      split
      · rintro ⟨⟩
      · next hd => exact hother d hd
  · next hnot =>
    refine ⟨hinverse, ?_, fun d => ?_⟩
    · rwa [if_neg hnot] at hclients
    · by_cases hd : d = c
      · subst hd
        rcases h.loop with _ | ⟨_, q, rest, first, e, hsplit⟩
        · intro he
          refine hnot ⟨rfl, ?_⟩
          exact UnorderedMap.valueAt_of_lookup he ∅
        · have hq : q ∈ propIdAreaIdsToUnsubscribe propIds order (s.held d) := by
            rw [hsplit]
            exact List.mem_append_right _ (List.mem_cons_self ..)
          have hnodup : (propIdAreaIdsToUnsubscribe propIds order (s.held d)).Nodup :=
            (order.nodup _).filter _
          rw [hsplit] at hnodup
          have hnew : q ∉ done := fun hd =>
            (List.nodup_append.mp hnodup).2.2 q hd q (List.mem_cons_self ..) rfl
          exact lookup_ne_empty_of_mem ((hheld q d).mpr
            ⟨(mem_propIdAreaIdsToUnsubscribe.mp hq).1, fun h => hnew h.2⟩)
      · exact hother d hd

/-- The hardware accepts every call that unsubscribing a pair makes. -/
def AcceptsUnsubscribe (hw : Nat → StatusCode) (c : ClientIdType) (s : SubscriptionManager)
    (p : PropIdAreaId) : Prop :=
  AllAccepted hw s.mVehicleHardware.length ((s.pairState p).unsubscribeCalls c)

/-- The hardware accepts an unsubscription exactly if the call succeeds. -/
theorem acceptsUnsubscribe_iff {c : ClientIdType} {p : PropIdAreaId} :
    AcceptsUnsubscribe hw c s p ↔ ∃ t, unsubscribePropIdAreaIdLocked hw c p s = (.ok (), t) := by
  rcases @unsubscribePropIdAreaIdLocked_cases hw c p s with
    ⟨t, h, _, _, haccept⟩ | ⟨e, t, h, _, _, hrefuse⟩
  · exact iff_of_true haccept ⟨t, h⟩
  · refine iff_of_false hrefuse ?_
    rintro ⟨u, hu⟩
    exact absurd (h.symm.trans hu) (by simp)

/-- When a whole client is unsubscribed and the hardware accepts the calls for the first
visited pair, it accepts those for every further pair. -/
def Operation.RefusedAtFirst (hw : Nat → StatusCode) (s : SubscriptionManager) : Operation → Prop
  | .unsubscribeClient c order =>
      ∀ p rest, order.visit (s.held c) = p :: rest → AcceptsUnsubscribe hw c s p →
        EachTurn (unsubscribePropIdAreaIdLocked hw c) (AcceptsUnsubscribe hw c) rest
          (unsubscribePropIdAreaIdLocked hw c p s).2
  | _ => True

/-- A loop that succeeds meets no refusal. -/
private theorem refusedAtFirst_of_ok {c : ClientIdType} {order : Traversal PropIdAreaId}
    (h : forEach (unsubscribePropIdAreaIdLocked hw c) (order.visit (s.held c)) s = (.ok (), t)) :
    Operation.RefusedAtFirst hw s (.unsubscribeClient c order) := by
  intro p rest hvisit haccept
  obtain ⟨u, hu⟩ := acceptsUnsubscribe_iff.mp haccept
  have hturns := eachTurn_of_forEach_ok h
  rw [hvisit] at hturns
  rw [hu]
  exact EachTurn.mono (P := fun _ => True) trivial (hturns.2 u hu) (fun _ _ _ _ _ => trivial)
    fun _ _ _ _ hok => acceptsUnsubscribe_iff.mpr hok

/-- A loop that fails keeps the book-keeping exactly when it failed in its first turn. -/
private theorem bookKeeping_of_failed (hs : BookKeeping s) {c : ClientIdType}
    {order : Traversal PropIdAreaId} {e : StatusError}
    (h : forEach (unsubscribePropIdAreaIdLocked hw c) (order.visit (s.held c)) s = (.error e, t)) :
    BookKeeping t ↔ Operation.RefusedAtFirst hw s (.unsubscribeClient c order) := by
  obtain ⟨done, p, rest, u, hvisit, hdone, hfail⟩ := forEach_error_split h
  obtain ⟨completed, acts, hloop⟩ := (takesTurns_drop hw c).forEach done s
  rw [hdone] at hloop
  obtain ⟨e', t', first, hfail', hacts, hheld, _⟩ :=
    (takesTurns_drop hw c p u).resolve_left (by rintro ⟨v, hv, _⟩; simp [hfail] at hv)
  cases hfail.symm.trans hfail'
  have hclient : t.client = Table.unsubscribe s.client c fun q => q ∈ done := by
    rw [← hloop.loop.done_eq, ← client_of_unsubscribe hloop]
    exact client_of_acts (.single hacts.pairs)
  have hheld' : t.mSubscribedPropsByClient = s.mSubscribedPropsByClient := by
    rw [hheld, hloop.held, foldl_book_id]
  cases hfirst : done with
  | nil =>
      subst hfirst
      cases hdone
      refine iff_of_true ⟨fun q d => ?_, fun q => ?_, fun d => ?_⟩ fun q rest' hq haccept => ?_
      · rw [hclient, unsubscribe_ne_none, held, hheld', hs.inverse]
        simp only [List.not_mem_nil, and_false, not_false_eq_true, and_true]
        rfl
      · exact pair_invariant_of_acts (P := fun x => x.clients ≠ some ∅) (.single hacts.pairs) q
          (hs.clientsNonempty q) fun _ _ _ _ hx hstep => hstep.clients_ne hx
      · rw [hheld']
        exact hs.heldNonempty d
      · cases hvisit.symm.trans hq
        obtain ⟨v, hv⟩ := acceptsUnsubscribe_iff.mp haccept
        exact absurd (hfail.symm.trans hv) (by simp)
  | cons q done' =>
      subst hfirst
      have hmem : q ∈ s.held c := by
        rw [← order.mem, hvisit]
        exact List.mem_append_left _ (List.mem_cons_self ..)
      refine iff_of_false (fun ht => ?_) fun hcond => ?_
      · have hnone : t.client q c = none := by
          rw [hclient, Table.unsubscribe, if_pos ⟨rfl, List.mem_cons_self ..⟩]
        refine (ht.inverse q c).mpr ?_ hnone
        rw [held, hheld']
        exact hmem
      · rcases outcome_cases (unsubscribePropIdAreaIdLocked hw c q s) with ⟨v, hv⟩ | ⟨e', v, hv⟩
        · have hturns := hcond q (done' ++ p :: rest) hvisit (acceptsUnsubscribe_iff.mpr ⟨v, hv⟩)
          rw [hv] at hturns
          rw [forEach_cons_ok hv] at hdone
          obtain ⟨w, hw'⟩ := acceptsUnsubscribe_iff.mp (hturns.at hdone)
          exact absurd (hfail.symm.trans hw') (by simp)
        · rw [forEach_cons_error hv] at hdone
          exact absurd hdone (by simp)

/-- The book-keeping depends on the pairs and the held pairs only. -/
private theorem BookKeeping.of_keepsPairs (hs : BookKeeping s) (h : KeepsPairs s t) :
    BookKeeping t where
  inverse p c := by
    have hclient : t.client p c = s.client p c := congrArg (fun x => (x p).client c) h.pairs
    rw [hclient, held, h.held]
    exact hs.inverse p c
  clientsNonempty p := by
    have hclients : t.mClientsByPropIdAreaId.lookup p = s.mClientsByPropIdAreaId.lookup p :=
      congrArg (fun x => (x p).clients) h.pairs
    rw [hclients]
    exact hs.clientsNonempty p
  heldNonempty c := by
    rw [h.held]
    exact hs.heldNonempty c

/-- A whole client that has been dropped is forgotten. -/
private theorem bookKeeping_unsubscribeClient (hs : BookKeeping s) {c : ClientIdType}
    {order : Traversal PropIdAreaId} {done : List PropIdAreaId} {acts : List Act}
    (h : DropEffect hw c (order.visit (s.held c)) s (.ok ()) t done acts) :
    BookKeeping { t with mSubscribedPropsByClient := t.mSubscribedPropsByClient.erase c } where
  inverse p d := by
    have hclient : t.client p d ≠ none ↔ p ∈ s.held d ∧ ¬(d = c ∧ p ∈ s.held c) := by
      rw [client_of_unsubscribe h, unsubscribe_ne_none, hs.inverse, h.loop.done_eq, order.mem]
    refine hclient.trans ?_
    change _ ↔ p ∈ UnorderedMap.valueAt (t.mSubscribedPropsByClient.erase c) d ∅
    rw [mem_valueAt_erase, h.held, foldl_book_id]
    refine and_congr_right fun hp => ⟨fun hn hd => hn ⟨hd, hd ▸ hp⟩, fun hd hn => hd hn.1⟩
  clientsNonempty p :=
    pair_invariant_of_acts (P := fun x => x.clients ≠ some ∅) h.pairs p (hs.clientsNonempty p)
      fun _ _ _ _ hx hstep => hstep.clients_ne hx
  heldNonempty d := by
    rw [h.held, foldl_book_id, UnorderedMap.lookup_erase_eq]
    split
    · exact nofun
    · exact hs.heldNonempty d

/-- A call keeps the book-keeping exactly when no refusal comes after a dropped pair. -/
theorem Operation.Effect.bookKeeping_iff {op : Operation} {r : VhalResult} {acts : List Act}
    (h : op.Effect hw lib s r t acts) (hs : BookKeeping s) :
    BookKeeping t ↔ op.RefusedAtFirst hw s := by
  have hclients := h.clientsNonempty hs.clientsNonempty
  cases h with
  | rejected => exact iff_of_true hs trivial
  | subscribe _ _ _ _ _ _ _ _ h => exact iff_of_true (bookKeeping_subscribe hs h hclients) trivial
  | unsubscribe _ _ _ _ _ _ _ _ h hu =>
      exact iff_of_true (bookKeeping_unsubscribe hs h hu hclients) trivial
  | unsubscribeClientFailed _ _ _ _ _ _ _ hloop => exact bookKeeping_of_failed hs hloop
  | unsubscribeClient c order _ u _ _ _ h hu hloop =>
      refine iff_of_true ?_ (refusedAtFirst_of_ok hloop)
      have hkeep := keepsPairs_unsubscribeSupportedValueChangeLocked hw c
        (order.visit (u.supportedHeld c))
        { u with mSubscribedPropsByClient := u.mSubscribedPropsByClient.erase c }
      rw [hu] at hkeep
      exact (bookKeeping_unsubscribeClient hs h).of_keepsPairs hkeep
  | getSubscribedClients _ _ _ _ _ h =>
      refine iff_of_true ⟨fun p c => ?_, hclients, fun c => ?_⟩ trivial
      · have hkeep := (keepsSubscriptions_getSubscribedClients h).1
        rw [SubscriptionManager.client, hkeep.clients, held, hkeep.held]
        exact hs.inverse p c
      · rw [(keepsSubscriptions_getSubscribedClients h).1.held]
        exact hs.heldNonempty c
  | subscribeSupportedValueChange callback propIdAreaIds _ _ h =>
      have hkeep := keepsPairs_subscribeSupportedValueChange hw callback propIdAreaIds s
      rw [h] at hkeep
      exact iff_of_true (hs.of_keepsPairs hkeep) trivial
  | unsubscribeSupportedValueChange c propIdAreaIds _ _ h =>
      have hkeep := keepsPairs_unsubscribeSupportedValueChangeLocked hw c propIdAreaIds s
      rw [h] at hkeep
      exact iff_of_true (hs.of_keepsPairs hkeep) trivial

/-- The runs that stay in consistent book-keeping are those in which every `unsubscribe`
of a whole client is refused, if at all, at the first pair it visits. -/
theorem bookKeeping_along_run_iff (hw : Nat → StatusCode) (lib : MathLibrary)
    (as : List (Operation × VhalResult)) (s : SubscriptionManager) :
    Path (fun s a t => Steps hw lib s a t ∧ BookKeeping t) {} as s ↔
      Path (fun s a t => Steps hw lib s a t ∧ a.1.RefusedAtFirst hw s) {} as s := by
  refine Path.restrict_iff bookKeeping_empty fun s a t hs hstep => ?_
  obtain ⟨acts, heff⟩ := step_effect hw hstep
  exact heff.bookKeeping_iff hs

/-- A hardware that refuses one call of the run. -/
def refusing (n : Nat) : Nat → StatusCode := fun i => if i = n then .internalError else .ok

/-- A client of two on-change pairs is unsubscribed and the hardware refuses the second
pair: the first one is dropped and still held. -/
theorem exists_run_not_bookKeeping :
    ∃ as s, Run (refusing 3) default {} as s ∧ ¬BookKeeping s := by
  obtain ⟨as, s, hrun, _, hclient, hheld⟩ := exists_run_of_execute (refusing 3) default
    [.subscribe ⟨0, 1⟩ [{ propId := 1, areaIds := [0] }, { propId := 2, areaIds := [0] }] false,
      .unsubscribeClient 1 (.ascending _)]
    (fun s => s.client ⟨1, 0⟩ 1 = none ∧ (⟨1, 0⟩ : PropIdAreaId) ∈ s.held 1) (by decide)
  exact ⟨as, s, hrun, fun hs => (hs.inverse _ _).mpr hheld hclient⟩

end VhalCore.Subscription.SubscriptionManager
