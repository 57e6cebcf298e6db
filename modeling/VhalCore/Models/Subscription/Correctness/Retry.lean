import VhalCore.Models.Subscription.Correctness.HardwareAgreement

/-!
# Retrying an unsubscription

A failed `unsubscribe` may be called again. A retry is safe if it leaves the hardware
subscribed to every on-change pair that another client holds, leaves the other clients
as they were, whether it succeeds or fails, and, once it succeeds, has removed its own
client. The last two always hold. The first fails where the client count of the pair no
longer includes the leaving client, because an earlier attempt already dropped it, and
where event delivery has given the pair a config entry.
-/

namespace VhalCore.Subscription

open SubscriptionManager

/-- No unsubscription is among the calls made since `old`. -/
def NoUnsubscribe (old new : List (PairCall × StatusCode)) : Prop :=
  ∃ made, new = made ++ old ∧ ∀ e ∈ made, e.1 ≠ .unsubscribe

/-- No call between two logs unsubscribes the pair. -/
theorem noUnsubscribe_append_iff {old made : List (PairCall × StatusCode)} :
    NoUnsubscribe old (made ++ old) ↔ ∀ e ∈ made, e.1 ≠ .unsubscribe := by
  constructor
  · rintro ⟨made', heq, hmade⟩
    rwa [List.append_cancel_right heq]
  · exact fun h => ⟨made, rfl, h⟩

theorem noUnsubscribe_refl (calls : List (PairCall × StatusCode)) : NoUnsubscribe calls calls :=
  ⟨[], rfl, fun _ h => absurd h List.not_mem_nil⟩

/-- The events of a turn of `unsubscribe`. -/
def PairEvent.Leaves (c : ClientIdType) (e : PairEvent) : Prop :=
  e = .unsubscribed c ∨ ∃ first, e = .unsubscribeFailed c first

namespace PairState

theorem calls_dropClient (x : PairState) (c : ClientIdType) : (x.dropClient c).calls = x.calls := by
  rw [dropClient]
  split <;> rfl

/-- A client other than `c` is subscribed. -/
def HeldByOther (x : PairState) (c : ClientIdType) : Prop := ∃ d, d ≠ c ∧ x.client d ≠ none

/-- The config of an on-change pair, as long as nothing has been removed from it. -/
def HasDefaultConfig (x : PairState) : Prop := x.config = none ∨ x.config = some {}

/-- If another client is subscribed, the pair has no config entry and more than one
client. -/
def CountsLeaver (x : PairState) (c : ClientIdType) : Prop :=
  x.HeldByOther c → x.config = none ∧ 1 < UnorderedMap.size (x.clients.getD ∅)

end PairState

/-- A turn of `unsubscribe` spares the hardware subscription of another client exactly
when the pair has no config entry and the client count exceeds one. -/
theorem PairStep.noUnsubscribe_iff {x y : PairState} {e : PairEvent} {c : ClientIdType}
    (h : PairStep x e y) (he : e.Leaves c) (hx : x.HasDefaultConfig) :
    x.CountsLeaver c ↔ (x.HeldByOther c → NoUnsubscribe x.calls y.calls) := by
  refine forall_congr' ?_
  rintro ⟨d, hd, hclient⟩
  have hsingle (status : StatusCode) : ¬NoUnsubscribe x.calls ((.unsubscribe, status) :: x.calls) :=
    fun hno => (@noUnsubscribe_append_iff _ [(.unsubscribe, status)]).mp hno _
      (List.mem_singleton_self _) rfl
  have hdefault {config : ContSubConfigs} (hc : x.config = some config) : config = {} :=
    Option.some.inj (hc.symm.trans (hx.resolve_left fun hn => by simp [hn] at hc))
  cases h with
  | removed c' config hc =>
      refine iff_of_false (fun h => ?_) (fun hno => ?_)
      · rw [h.1] at hc
        cases hc
      · rw [hdefault hc, updateCalls_default, PairState.calls_dropClient] at hno
        exact hsingle .ok hno
  | removeFailed c' config hc later done call hu status hs =>
      refine iff_of_false (fun h => ?_) (fun hno => ?_)
      · rw [h.1] at hc
        cases hc
      · rw [hdefault hc, updateCalls_default] at hu
        obtain ⟨rfl, hcons⟩ := List.singleton_eq_append_iff.mp hu |>.resolve_right (by simp)
        cases hcons
        exact hsingle status hno
  | notSubscribed c' hf hc =>
      refine absurd ?_ hclient
      rw [PairState.client, hc, Option.bind_none]
  | onChangeShared c' hf clients hc hs =>
      rw [PairState.calls_dropClient]
      refine iff_of_true ⟨hf, ?_⟩ (noUnsubscribe_refl _)
      rwa [hc, Option.getD_some]
  | onChangeLast c' hf clients hc hs =>
      rw [PairState.calls_dropClient, hc, Option.getD_some]
      exact iff_of_false (fun h => hs h.2) (hsingle .ok)
  | onChangeLastFailed c' hf clients hc hs status =>
      rw [hc, Option.getD_some]
      exact iff_of_false (fun h => hs h.2) (hsingle status)
  | _ => simp [PairEvent.Leaves] at he

/-- An on-change pair keeps the default config, unless a turn of `unsubscribe` meets the
config entry of a pair that another client holds. -/
theorem PairStep.hasDefaultConfig {x y : PairState} {e : PairEvent} (h : PairStep x e y)
    (hx : x.HasDefaultConfig) (he : ∀ callback config, e ≠ .subscribed callback (some config))
    (hc : ∀ c, e.Leaves c → x.CountsLeaver c) : y.HasDefaultConfig := by
  have hdefault : x.config.getD {} = {} := by
    rcases hx with h | h <;> rw [h] <;> rfl
  have hdrop {z : PairState} (hz : z.config = none) (c : ClientIdType) :
      (z.dropClient c).HasDefaultConfig := by
    rcases z.config_dropClient_cases c with ⟨_, h⟩ | h
    · exact Or.inl h
    · exact Or.inl (h.trans hz)
  cases h with
  | onChangeKnown => exact hx
  | onChangeNew => exact hx
  | onChangeFailed => exact hx
  | added callback config => exact absurd rfl (he callback config)
  | addFailed => exact Or.inr (congrArg some hdefault)
  | removed c config hconfig =>
      have halone : (x.clients.getD ∅).erase c = ∅ := by
        refine (x.erase_eq_empty_iff c).mpr fun d hd => ?_
        by_contra hne
        rw [(hc c (Or.inl rfl) ⟨d, hd, hne⟩).1] at hconfig
        cases hconfig
      refine Or.inl ?_
      simp only [PairState.dropClient, halone, ite_true]
  | removeFailed => exact hx
  | notSubscribed => exact hx
  | onChangeShared c hf => exact hdrop hf c
  | onChangeLast c hf =>
      refine hdrop ?_ c
      exact hf
  | onChangeLastFailed => exact hx
  | delivered => exact Or.inr (congrArg some hdefault)

namespace SubscriptionManager

variable {hw : Nat → StatusCode} {lib : MathLibrary} {kind : Int → Bool}
variable {s t : SubscriptionManager}

/-- The config that the client of a pair asked for. -/
def subConfig (s : SubscriptionManager) (p : PropIdAreaId) (c : ClientIdType) : Option SubConfig :=
  (s.configAt p).mConfigByClient.lookup c

/-- An attempt of client `c` to unsubscribe the requested pairs: no on-change pair of
another client is unsubscribed from the hardware, a successful attempt removes the client
from the requested pairs, and every attempt, also a failed one, leaves every other client
as it was. -/
structure SafeAttempt (kind : Int → Bool) (c : ClientIdType) (requested : PropIdAreaId → Prop)
    (s : SubscriptionManager) (r : VhalResult) (t : SubscriptionManager) : Prop where
  spared : ∀ p, kind p.propId = false → (∃ d, d ≠ c ∧ s.client p d ≠ none) →
    NoUnsubscribe (s.pairCalls p) (t.pairCalls p)
  gone : r = .ok () → ∀ p, requested p → t.client p c = none ∧ p ∉ t.held c
  others : ∀ d, d ≠ c → t.held d = s.held d ∧
    ∀ p, t.client p d = s.client p d ∧ t.subConfig p d = s.subConfig p d

/-- An attempt of an unsubscription is safe for the pairs it is about. -/
def Operation.AttemptsSafely (kind : Int → Bool) (s : SubscriptionManager) (r : VhalResult)
    (t : SubscriptionManager) : Operation → Prop
  | .unsubscribe c propIds _ => SafeAttempt kind c (fun p => p.propId ∈ propIds) s r t
  | .unsubscribeClient c _ => SafeAttempt kind c (fun _ => True) s r t
  | _ => True

/-- In its turn, an on-change pair of another client has no config entry and a client
count above one. -/
def CountsLeaver (kind : Int → Bool) (c : ClientIdType) (s : SubscriptionManager)
    (p : PropIdAreaId) : Prop :=
  kind p.propId = false → (s.pairState p).CountsLeaver c

/-- Every pair whose turn comes in an `unsubscribe` counts the leaving client. -/
def Operation.CountsLeaver (hw : Nat → StatusCode) (kind : Int → Bool) (s : SubscriptionManager) :
    Operation → Prop
  | .unsubscribe c propIds order =>
      EachTurn (unsubscribeAndForget hw c) (SubscriptionManager.CountsLeaver kind c)
        (propIdAreaIdsToUnsubscribe propIds order (s.held c)) s
  | .unsubscribeClient c order =>
      EachTurn (unsubscribePropIdAreaIdLocked hw c) (SubscriptionManager.CountsLeaver kind c)
        (order.visit (s.held c)) s
  | _ => True

/-- In a loop over distinct pairs, a condition on the turns is a relation between the
pairs before and after the loop, if it is one for a single turn. -/
private theorem eachTurn_iff {c : ClientIdType} {book : PropIdAreaId → HeldPairs → HeldPairs}
    {body : PropIdAreaId → SubscriptionManager → VhalResult × SubscriptionManager}
    (hbody : TakesTurns hw (unsubscribedAct c) (unsubscribeFailedAct c) book body)
    {Q : PropIdAreaId → PairState → Prop} {R : PropIdAreaId → PairState → PairState → Prop}
    (hrefl : ∀ p x, R p x x) {xs : List PropIdAreaId} (hn : xs.Nodup) (s : SubscriptionManager)
    (hstep : ∀ p ∈ xs, ∀ e y, e.Leaves c → PairStep (s.pairState p) e y →
      (Q p (s.pairState p) ↔ R p (s.pairState p) y)) :
    EachTurn body (fun u p => Q p (u.pairState p)) xs s ↔
      ∀ p, R p (s.pairState p) ((forEach body xs s).2.pairState p) := by
  induction xs generalizing s with
  | nil => exact iff_of_true trivial fun p => hrefl p _
  | cons q xs ih =>
      obtain ⟨hq, hn'⟩ := List.nodup_cons.mp hn
      rcases hbody q s with ⟨t, h, hacts, _⟩ | ⟨e, t, first, h, hacts, _⟩
      · have hturn := hstep q (List.mem_cons_self ..) _ _ (Or.inl rfl) hacts.step
        obtain ⟨done, acts, hrest⟩ := hbody.forEach xs t
        have hlast : (forEach body xs t).2.pairState q = t.pairState q :=
          hrest.frame (fun _ _ => rfl) fun x hx hxq => hq (hxq ▸ hx)
        have hframe (p : PropIdAreaId) (hp : p ≠ q) : t.pairState p = s.pairState p :=
          hacts.frame p hp
        have ih' := ih hn' t fun p hp e y => by
          rw [hframe p fun hpq => hq (hpq ▸ hp)]
          exact hstep p (List.mem_cons_of_mem _ hp) e y
        rw [forEach_cons_ok h]
        constructor
        · rintro ⟨hQ, hturns⟩ p
          by_cases hp : p = q
          · subst hp
            rw [hlast]
            exact hturn.mp hQ
          · rw [← hframe p hp]
            exact ih'.mp (hturns t h) p
        · intro hR
          refine ⟨hturn.mpr (hlast ▸ hR q), fun t' ht' => ?_⟩
          cases h.symm.trans ht'
          refine ih'.mpr fun p => ?_
          by_cases hp : p = q
          · subst hp
            rw [hlast]
            exact hrefl p _
          · rw [hframe p hp]
            exact hR p
      · have hturn := hstep q (List.mem_cons_self ..) _ _ (Or.inr ⟨first, rfl⟩) hacts.step
        rw [forEach_cons_error h]
        constructor
        · rintro ⟨hQ, _⟩ p
          by_cases hp : p = q
          · subst hp
            exact hturn.mp hQ
          · rw [hacts.frame p hp]
            exact hrefl p _
        · intro hR
          exact ⟨hturn.mpr (hR q), fun t' ht' => absurd (h.symm.trans ht') (by simp)⟩

/-- The manager represents a table and every on-change pair has the default config. -/
structure AttemptInvariant (kind : Int → Bool) (lib : MathLibrary) (s : SubscriptionManager) :
    Prop where
  table : ∃ T, Refines kind lib s T
  pairs : ∀ p, kind p.propId = false → (s.pairState p).HasDefaultConfig

/-- A new manager satisfies the invariant. -/
theorem attemptInvariant_empty (kind : Int → Bool) (lib : MathLibrary) :
    AttemptInvariant kind lib {} where
  table := ⟨_, refines_empty kind lib⟩
  pairs p _ := by
    rw [pairState_empty]
    exact Or.inl rfl

/-- The turns of an `unsubscribe` loop spare the other clients of the on-change pairs
exactly when they count the leaving client. -/
private theorem spared_iff {c : ClientIdType} {book : PropIdAreaId → HeldPairs → HeldPairs}
    {body : PropIdAreaId → SubscriptionManager → VhalResult × SubscriptionManager}
    (hbody : TakesTurns hw (unsubscribedAct c) (unsubscribeFailedAct c) book body)
    {xs : List PropIdAreaId} (hn : xs.Nodup)
    (hs : ∀ p, kind p.propId = false → (s.pairState p).HasDefaultConfig) {r : VhalResult}
    {u : SubscriptionManager} (hloop : forEach body xs s = (r, u))
    (ht : t.pairState = u.pairState) :
    EachTurn body (SubscriptionManager.CountsLeaver kind c) xs s ↔
      ∀ p, kind p.propId = false → (∃ d, d ≠ c ∧ s.client p d ≠ none) →
        NoUnsubscribe (s.pairCalls p) (t.pairCalls p) := by
  have hiff := eachTurn_iff hbody (Q := fun p x => kind p.propId = false → x.CountsLeaver c)
    (R := fun p x y => kind p.propId = false → x.HeldByOther c → NoUnsubscribe x.calls y.calls)
    (fun _ x _ _ => noUnsubscribe_refl x.calls) hn s
    fun p _ e y he hstep => forall_congr' fun hp => hstep.noUnsubscribe_iff he (hs p hp)
  rw [hloop] at hiff
  change _ ↔ ∀ p, kind p.propId = false → (s.pairState p).HeldByOther c →
    NoUnsubscribe (s.pairState p).calls (t.pairState p).calls
  rw [ht]
  exact hiff

/-- A loop whose turns count the leaving client keeps the default configs. -/
private theorem hasDefaultConfig_of_loop {c : ClientIdType}
    {book : PropIdAreaId → HeldPairs → HeldPairs}
    {body : PropIdAreaId → SubscriptionManager → VhalResult × SubscriptionManager}
    (hbody : TakesTurns hw (unsubscribedAct c) (unsubscribeFailedAct c) book body)
    {xs : List PropIdAreaId} {p : PropIdAreaId} (hp : kind p.propId = false)
    (hs : (s.pairState p).HasDefaultConfig)
    (hcount : EachTurn body (SubscriptionManager.CountsLeaver kind c) xs s) :
    ((forEach body xs s).2.pairState p).HasDefaultConfig := by
  refine forEach_invariant_of_eachTurn (P := fun u => (u.pairState p).HasDefaultConfig) hs hcount
    fun q _ u hu hq => ?_
  rcases hbody q u with ⟨v, h, hacts, _⟩ | ⟨e, v, first, h, hacts, _⟩
  · rw [h]
    by_cases hpq : p = q
    · subst hpq
      refine hacts.step.hasDefaultConfig hu nofun fun d hd => ?_
      rcases hd with hd | ⟨_, hd⟩
      · cases hd
        exact hq hp
      · cases hd
    · rw [hacts.frame p hpq]
      exact hu
  · rw [h]
    by_cases hpq : p = q
    · subst hpq
      refine hacts.step.hasDefaultConfig hu nofun fun d hd => ?_
      rcases hd with hd | ⟨_, hd⟩
      · cases hd
      · cases hd
        exact hq hp
    · rw [hacts.frame p hpq]
      exact hu

/-- A client whose entries are gone from the table has left the requested pairs. -/
private theorem gone_of_refines {c : ClientIdType} (requested : PropIdAreaId → Prop)
    [DecidablePred requested] {T : Table Registration}
    (ht : Refines kind lib t (T.unsubscribe c requested))
    (hheld : ∀ q, q ∈ t.held c ↔ q ∈ s.held c ∧ ¬requested q) :
    ∀ p, requested p → t.client p c = none ∧ p ∉ t.held c := by
  intro p hp
  refine ⟨?_, fun hmem => ((hheld p).mp hmem).2 hp⟩
  change (t.pairState p).client c = none
  rw [(ht.pairs p).client, Table.unsubscribe, if_pos ⟨rfl, hp⟩, Option.map_none]

/-- Whatever pairs a client leaves in the table, the others keep their callbacks and configs. -/
private theorem others_of_refines {c d : ClientIdType} (left : PropIdAreaId → Prop)
    [DecidablePred left] {T : Table Registration} (hs : Refines kind lib s T)
    (ht : Refines kind lib t (T.unsubscribe c left)) (hd : d ≠ c) (p : PropIdAreaId) :
    t.client p d = s.client p d ∧ t.subConfig p d = s.subConfig p d := by
  have hsame : T.unsubscribe c left p d = T p d := by
    rw [Table.unsubscribe, if_neg fun h => hd h.1]
  constructor
  · change (t.pairState p).client d = (s.pairState p).client d
    rw [(ht.pairs p).client, (hs.pairs p).client, hsame]
  · change ((t.pairState p).config.getD {}).mConfigByClient.lookup d =
      ((s.pairState p).config.getD {}).mConfigByClient.lookup d
    rw [(ht.pairs p).config, (hs.pairs p).config, hsame]

/-- The pairs held after the turns of an `unsubscribe` with property ids, completed or not. -/
private theorem mem_held_of_unsubscribe {c : ClientIdType} {xs : List PropIdAreaId}
    {r : VhalResult} {u : SubscriptionManager} {done : List PropIdAreaId} {acts : List Act}
    (h : ForgetEffect hw c xs s r u done acts)
    (hu : t = if r = .ok () ∧ u.held c = ∅ then
      { u with mSubscribedPropsByClient := u.mSubscribedPropsByClient.erase c } else u)
    (q : PropIdAreaId) (d : ClientIdType) :
    q ∈ t.held d ↔ q ∈ s.held d ∧ ¬(d = c ∧ q ∈ done) := by
  have hmem (d : ClientIdType) : q ∈ u.held d ↔ q ∈ s.held d ∧ ¬(d = c ∧ q ∈ done) := by
    rw [held, h.held, mem_valueAt_foldl_releasePair]
    rfl
  rw [← hmem]
  subst hu
  split
  · next hempty =>
    rw [held, mem_valueAt_erase]
    refine ⟨fun hq => hq.1, fun hq => ⟨hq, ?_⟩⟩
    rintro rfl
    rw [hempty.2] at hq
    exact Finset.notMem_empty q hq
  · exact Iff.rfl

/-- An attempt that removes its client, where it succeeds, and leaves the others is safe exactly
when the turns of its loop count the leaving client, and it then keeps the invariant. -/
private theorem safeAttempt_iff_of_loop {c : ClientIdType} {requested : PropIdAreaId → Prop}
    {book : PropIdAreaId → HeldPairs → HeldPairs}
    {body : PropIdAreaId → SubscriptionManager → VhalResult × SubscriptionManager}
    (hbody : TakesTurns hw (unsubscribedAct c) (unsubscribeFailedAct c) book body)
    {xs : List PropIdAreaId} (hn : xs.Nodup) (hs : AttemptInvariant kind lib s)
    {r r' : VhalResult} {u : SubscriptionManager} (hloop : forEach body xs s = (r', u))
    (ht : t.pairState = u.pairState) {T : Table Registration} (htable : Refines kind lib t T)
    (hgone : r = .ok () → ∀ p, requested p → t.client p c = none ∧ p ∉ t.held c)
    (hothers : ∀ d, d ≠ c → t.held d = s.held d ∧
      ∀ p, t.client p d = s.client p d ∧ t.subConfig p d = s.subConfig p d) :
    (SafeAttempt kind c requested s r t ↔
        EachTurn body (SubscriptionManager.CountsLeaver kind c) xs s) ∧
      (EachTurn body (SubscriptionManager.CountsLeaver kind c) xs s →
        AttemptInvariant kind lib t) := by
  have hiff := spared_iff hbody hn hs.pairs hloop ht
  refine ⟨⟨fun hsafe => hiff.mpr hsafe.spared, fun hcount => ⟨hiff.mp hcount, hgone, hothers⟩⟩,
    fun hcount => ⟨⟨T, htable⟩, fun p hp => ?_⟩⟩
  have hpair := hasDefaultConfig_of_loop hbody hp (hs.pairs p hp) hcount
  rwa [hloop, ← ht] at hpair

/-- From a state with the invariant, an attempt is safe exactly when its turns count the
leaving client, and it then keeps the invariant. -/
theorem Operation.Effect.attemptsSafely_iff {op : Operation} {r : VhalResult} {acts : List Act}
    (h : op.Effect hw lib s r t acts) (hk : op.RespectsKind kind)
    (hs : AttemptInvariant kind lib s) :
    (op.AttemptsSafely kind s r t ↔ op.CountsLeaver hw kind s) ∧
      (op.CountsLeaver hw kind s → AttemptInvariant kind lib t) := by
  obtain ⟨T, hT⟩ := hs.table
  have htable := h.refines hk hT
  have hacts := h.table Registration.mk hT.covers
  have hother (he : ∀ p e, (p, e) ∈ acts → kind p.propId = false →
      (∀ callback config, e ≠ .subscribed callback (some config)) ∧ ∀ c, ¬e.Leaves c) :
      AttemptInvariant kind lib t :=
    ⟨⟨_, htable⟩, fun p hp => pair_invariant_of_acts (h.pairs hw) p (hs.pairs p hp)
      fun x e y hmem hx hstep => hstep.hasDefaultConfig hx (he p e hmem hp).1
        fun c hc => absurd hc ((he p e hmem hp).2 c)⟩
  cases h with
  | rejected => exact ⟨Iff.rfl, fun _ => hs⟩
  | subscribe callback options isContinuousProperty _ _ done _ hcheck h =>
      refine ⟨Iff.rfl, fun _ => hother fun p e he hp => ?_⟩
      obtain ⟨turn, hturn, heq | ⟨_, first, heq⟩⟩ := h.loop.mem he
      · cases heq
        have hfalse : isContinuousProperty = false :=
          (hk turn.1 (mem_subscribeTurns.mp hturn).1).symm.trans hp
        subst hfalse
        refine ⟨fun _ _ hcontra => ?_, fun c hc => ?_⟩
        · cases hcontra
        · rcases hc with hc | ⟨_, hc⟩ <;> cases hc
      · cases heq
        refine ⟨fun _ _ hcontra => ?_, fun c hc => ?_⟩
        · cases hcontra
        · rcases hc with hc | ⟨_, hc⟩ <;> cases hc
  | unsubscribe c propIds order _ u _ done _ h hu hloop =>
      have hpairs : t.pairState = u.pairState := by
        subst hu
        split <;> rfl
      have hmem := mem_held_of_unsubscribe h hu
      refine safeAttempt_iff_of_loop (takesTurns_forget hw c) ((order.nodup _).filter _) hs hloop
        hpairs htable ?_ fun d hd => ?_
      · rintro rfl
        rw [hacts.resolve_right fun hfail => by simp at hfail] at htable
        refine gone_of_refines (s := s) _ htable fun q => ?_
        rw [hmem, h.loop.done_eq, mem_propIdAreaIdsToUnsubscribe]
        simp only [true_and, not_and]
        exact and_congr_right fun hq => ⟨fun hnot => hnot hq, fun hnot _ => hnot⟩
      · rw [h.loop.foldl_act Registration.mk (fun _ _ _ => rfl), foldl_act_unsubscribed] at htable
        refine ⟨Finset.ext fun q => ?_, others_of_refines _ hT htable hd⟩
        rw [hmem]
        exact ⟨fun hq => hq.1, fun hq => ⟨hq, fun hnot => hd hnot.1⟩⟩
  | unsubscribeClientFailed c order e _ done _ h hloop =>
      refine safeAttempt_iff_of_loop (takesTurns_drop hw c) (order.nodup _) hs hloop rfl htable ?_
        fun d hd => ?_
      · intro hr
        cases hr
      · rw [h.loop.foldl_act Registration.mk (fun _ _ _ => rfl), foldl_act_unsubscribed] at htable
        refine ⟨?_, others_of_refines _ hT htable hd⟩
        rw [held, held, h.held, foldl_book_id]
  | unsubscribeClient c order _ u _ done _ h hu hloop =>
      have hkeep := keepsPairs_unsubscribeSupportedValueChangeLocked hw c
        (order.visit (u.supportedHeld c))
        { u with mSubscribedPropsByClient := u.mSubscribedPropsByClient.erase c }
      rw [hu] at hkeep
      have hmem (q : PropIdAreaId) (d : ClientIdType) : q ∈ t.held d ↔ q ∈ s.held d ∧ d ≠ c := by
        rw [held, hkeep.held, mem_valueAt_erase, h.held, foldl_book_id]
        rfl
      refine safeAttempt_iff_of_loop (takesTurns_drop hw c) (order.nodup _) hs hloop hkeep.pairs
        htable ?_ fun d hd => ?_
      · rintro rfl
        rw [hacts.resolve_right fun hfail => by simp at hfail] at htable
        refine gone_of_refines (s := s) (fun _ => True) htable fun q => ?_
        rw [hmem]
        simp only [ne_eq, not_true_eq_false]
      · rw [h.loop.foldl_act Registration.mk (fun _ _ _ => rfl), foldl_act_unsubscribed] at htable
        refine ⟨Finset.ext fun q => ?_, others_of_refines _ hT htable hd⟩
        rw [hmem]
        exact ⟨fun hq => hq.1, fun hq => ⟨hq, hd⟩⟩
  | getSubscribedClients _ _ _ _ _ _ _ hdel =>
      refine ⟨Iff.rfl, fun _ => hother fun p e he _ => ?_⟩
      cases hdel (p, e) he
      refine ⟨fun _ _ hcontra => ?_, fun c hc => ?_⟩
      · cases hcontra
      · rcases hc with hc | ⟨_, hc⟩ <;> cases hc
  | subscribeSupportedValueChange =>
      exact ⟨Iff.rfl, fun _ => hother fun _ _ h => absurd h List.not_mem_nil⟩
  | unsubscribeSupportedValueChange =>
      exact ⟨Iff.rfl, fun _ => hother fun _ _ h => absurd h List.not_mem_nil⟩

/-- The runs in which every attempt to unsubscribe is safe are those in which, in every
turn of an attempt, an on-change pair of another client has no config entry and more than
one client. -/
theorem attemptsSafely_along_run_iff (hw : Nat → StatusCode) (lib : MathLibrary)
    (kind : Int → Bool) (as : List (Operation × VhalResult)) (s : SubscriptionManager) :
    KindRun hw lib kind (fun s a t => a.1.AttemptsSafely kind s a.2 t) {} as s ↔
      KindRun hw lib kind (fun s a _ => a.1.CountsLeaver hw kind s) {} as s := by
  refine Path.restrict_congr (I := AttemptInvariant kind lib) (attemptInvariant_empty kind lib) ?_
  rintro t a u hinv ⟨hstep, hka⟩
  obtain ⟨acts, heff⟩ := step_effect hw hstep
  exact heff.attemptsSafely_iff hka hinv

/-- Client 1 shares one on-change pair with client 2 and holds another one alone. The
hardware refuses the second pair, after client 1 was dropped from the first; the retry
finds one client left there and takes it for its own. -/
theorem exists_retry_not_safe :
    ∃ as s r t, Run (refusing 2) default {} as s ∧
      (∃ bs e, as = bs ++ [(.unsubscribeClient 1 (.ascending _), .error e)]) ∧
      Steps (refusing 2) default s (.unsubscribeClient 1 (.ascending _), r) t ∧
      ¬SafeAttempt (fun _ => false) 1 (fun _ => True) s r t := by
  let attempt (s : SubscriptionManager) := unsubscribeClient (refusing 2) 1 (.ascending _) s
  obtain ⟨bs, s, hrun, _, herror, hclient, hcalls⟩ := exists_run_of_execute (refusing 2) default
    [.subscribe ⟨0, 1⟩ [{ propId := 1, areaIds := [0] }, { propId := 2, areaIds := [0] }] false,
      .subscribe ⟨0, 2⟩ [{ propId := 1, areaIds := [0] }] false]
    (fun s => (attempt s).1 ≠ .ok () ∧ (attempt s).2.client ⟨1, 0⟩ 2 ≠ none ∧
      (attempt (attempt s).2).2.pairCalls ⟨1, 0⟩ =
        [(.unsubscribe, .ok)] ++ (attempt s).2.pairCalls ⟨1, 0⟩) (by decide)
  obtain ⟨u, hu⟩ | ⟨e, u, hu⟩ := outcome_cases (attempt s)
  · rw [hu] at herror
    exact absurd rfl herror
  · rw [hu] at hclient hcalls
    have hstep : Steps (refusing 2) default s (.unsubscribeClient 1 (.ascending _), .error e) u :=
      congrArg some hu
    refine ⟨_, u, _, _, .snoc hrun hstep, ⟨bs, e, rfl⟩, rfl, fun hsafe => ?_⟩
    have hspared := hsafe.spared ⟨1, 0⟩ rfl ⟨2, by decide, hclient⟩
    change NoUnsubscribe _ ((attempt u).2.pairCalls ⟨1, 0⟩) at hspared
    rw [hcalls, noUnsubscribe_append_iff] at hspared
    exact hspared _ (List.mem_singleton_self _) rfl

end SubscriptionManager

end VhalCore.Subscription
