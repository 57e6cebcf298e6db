import VhalCore.Models.Subscription.Interpretation.Clients

/-!
# Supported-value subscriptions

The two supported-value maps are inverse relations in every reachable state, and
the hardware is asked to unsubscribe a pair only when its sole client leaves. The
effect of a call on this part of the manager is one of five cases; each of the
results follows from them.
-/

namespace VhalCore.Subscription

/-- What a call asks the hardware about the supported values of a pair: to report their
changes or to stop. -/
def HardwareCall.supportedRequest (p : PropIdAreaId) : HardwareCall → Option Bool
  | .subscribeSupportedValueChange ps => if p ∈ ps then some true else none
  | .unsubscribeSupportedValueChange ps => if p ∈ ps then some false else none
  | _ => none

namespace SubscriptionManager

variable {hw : Nat → StatusCode} {lib : MathLibrary} {s t : SubscriptionManager}

/-- The two maps of the supported-value subscriptions. -/
def supportedMaps (s : SubscriptionManager) :
    UnorderedMap PropIdAreaId (UnorderedMap ClientIdType CallbackType) × HeldPairs :=
  (s.mSupportedValueChangeClientsByPropIdAreaId, s.mSupportedValueChangePropIdAreaIdsByClient)

/-- The callback of a client of the supported values of a pair. -/
def supportedClient (s : SubscriptionManager) (p : PropIdAreaId) (c : ClientIdType) :
    Option CallbackType :=
  (s.mSupportedValueChangeClientsByPropIdAreaId.lookup p).bind fun clients => clients.lookup c

theorem supportedClient_congr (h : t.supportedMaps = s.supportedMaps) (p : PropIdAreaId)
    (c : ClientIdType) : t.supportedClient p c = s.supportedClient p c := by
  rw [supportedClient, supportedClient, (Prod.mk.inj h).1]

/-- The two maps are inverse relations and hold no empty inner collection. -/
structure SupportedBookKeeping (s : SubscriptionManager) : Prop where
  inverse : ∀ p c, s.supportedClient p c ≠ none ↔ p ∈ s.supportedHeld c
  clientsNonempty : ∀ p, s.mSupportedValueChangeClientsByPropIdAreaId.lookup p ≠ some ∅
  heldNonempty : ∀ c, s.mSupportedValueChangePropIdAreaIdsByClient.lookup c ≠ some ∅

/-- The bookkeeping depends on the two maps only. -/
theorem SupportedBookKeeping.congr (hs : SupportedBookKeeping s)
    (h : t.supportedMaps = s.supportedMaps) : SupportedBookKeeping t := by
  obtain ⟨hclients, hpairs⟩ := Prod.mk.inj h
  refine ⟨fun p c => ?_, fun p => ?_, fun c => ?_⟩
  · rw [supportedClient_congr h, supportedHeld, hpairs]
    exact hs.inverse p c
  · rw [hclients]
    exact hs.clientsNonempty p
  · rw [hpairs]
    exact hs.heldNonempty c

theorem supportedBookKeeping_empty : SupportedBookKeeping {} where
  inverse p c := by simp [supportedClient, supportedHeld, UnorderedMap.valueAt]
  clientsNonempty p := by simp
  heldNonempty c := by simp

section Hold

variable (callback : CallbackType) (p : PropIdAreaId)

/-- A held pair is seen at its client only. -/
theorem supportedClient_hold (s : SubscriptionManager) (q : PropIdAreaId) (d : ClientIdType) :
    (holdSupportedValueChange callback s p).supportedClient q d =
      if q = p ∧ d = callback.asBinder then some callback else s.supportedClient q d := by
  simp only [supportedClient, holdSupportedValueChange, UnorderedMap.lookup_insert_eq]
  by_cases hq : q = p
  · subst hq
    rw [if_pos rfl, Option.bind_some, UnorderedMap.lookup_insert_eq]
    simp only [true_and]
    refine if_congr Iff.rfl rfl ?_
    rw [UnorderedMap.valueAt]
    cases s.mSupportedValueChangeClientsByPropIdAreaId.lookup q with
    | none => exact Finmap.lookup_empty d
    | some clients => rfl
  · simp only [hq, ite_false, false_and]

/-- Holding a pair keeps the book-keeping. -/
theorem SupportedBookKeeping.hold (hs : SupportedBookKeeping s) :
    SupportedBookKeeping (holdSupportedValueChange callback s p) where
  inverse q d := by
    have hheld : q ∈ (holdSupportedValueChange callback s p).supportedHeld d ↔
        q ∈ s.supportedHeld d ∨ d = callback.asBinder ∧ q = p :=
      mem_valueAt_holdPair callback.asBinder d p q _
    rw [hheld, supportedClient_hold, ← hs.inverse]
    split
    · next h => exact iff_of_true (Option.some_ne_none _) (Or.inr ⟨h.2, h.1⟩)
    · next h => exact ⟨Or.inl, fun hor => hor.resolve_right fun hr => h ⟨hr.2, hr.1⟩⟩
  clientsNonempty q := by
    simp only [holdSupportedValueChange, UnorderedMap.lookup_insert_eq]
    split
    · rw [Ne, Option.some.injEq, ← Ne, UnorderedMap.ne_empty_iff]
      exact ⟨_, _, Finmap.lookup_insert _⟩
    · exact hs.clientsNonempty q
  heldNonempty d := by
    simp only [holdSupportedValueChange, UnorderedMap.lookup_insert_eq]
    split
    · rw [Ne, Option.some.injEq]
      exact Finset.insert_ne_empty _ _
    · exact hs.heldNonempty d

end Hold

/-- The client maps after the pairs of a list are held. -/
theorem supportedClient_foldl_hold (callback : CallbackType) (ps : List PropIdAreaId)
    (s : SubscriptionManager) (q : PropIdAreaId) (d : ClientIdType) :
    (ps.foldl (holdSupportedValueChange callback) s).supportedClient q d =
      if q ∈ ps ∧ d = callback.asBinder then some callback else s.supportedClient q d := by
  induction ps generalizing s with
  | nil => simp only [List.foldl_nil, List.not_mem_nil, false_and, ite_false]
  | cons p ps ih =>
      rw [List.foldl_cons, ih, supportedClient_hold]
      by_cases hd : d = callback.asBinder
      · by_cases hq : q ∈ ps
        · simp only [hq, hd, List.mem_cons, or_true, and_self, ite_true]
        · simp only [hq, hd, List.mem_cons, or_false, and_true, ite_false]
      · simp only [hd, and_false, ite_false]

section Forget

variable (c : ClientIdType) (p : PropIdAreaId)

/-- The clients of a pair after one of them has gone, with no empty map left behind. -/
private theorem lookup_forget (s : SubscriptionManager) (q : PropIdAreaId) :
    (forgetSupportedValueChange c s p).mSupportedValueChangeClientsByPropIdAreaId.lookup q =
      if q = p then
        if (s.mSupportedValueChangeClientsByPropIdAreaId.valueAt p ∅).erase c = ∅ then none
        else some ((s.mSupportedValueChangeClientsByPropIdAreaId.valueAt p ∅).erase c)
      else s.mSupportedValueChangeClientsByPropIdAreaId.lookup q := by
  have herase : Finmap.erase c (∅ : UnorderedMap ClientIdType CallbackType) = ∅ :=
    (UnorderedMap.eq_empty_iff _).mpr fun d => by
      rw [UnorderedMap.lookup_erase_eq, Finmap.lookup_empty, ite_self]
  cases hp : s.mSupportedValueChangeClientsByPropIdAreaId.lookup p with
  | none =>
      have hvalue : s.mSupportedValueChangeClientsByPropIdAreaId.valueAt p ∅ = ∅ := by
        rw [UnorderedMap.valueAt, hp, Option.getD_none]
      have htouch : UnorderedMap.valueAt
          (s.mSupportedValueChangeClientsByPropIdAreaId.touch p ∅) p ∅ = ∅ := by
        rw [UnorderedMap.touch_eq_insert, UnorderedMap.valueAt_insert_self, hvalue]
      simp only [forgetSupportedValueChange, hp, htouch, ite_true, UnorderedMap.erase_touch,
        UnorderedMap.lookup_erase_eq, hvalue, herase]
  | some clients =>
      have hvalue := UnorderedMap.valueAt_of_lookup hp ∅
      simp only [forgetSupportedValueChange, hp, hvalue, UnorderedMap.touch_eq_insert,
        UnorderedMap.valueAt_insert_self, Finmap.insert_insert]
      by_cases hc : Finmap.erase c clients = ∅
      · simp only [hc, ite_true, UnorderedMap.lookup_erase_eq, UnorderedMap.lookup_insert_eq]
        by_cases hq : q = p <;> simp only [hq, ite_true, ite_false]
      · simp only [hc, ite_false, UnorderedMap.lookup_insert_eq]

/-- A forgotten pair is gone at its client only. -/
theorem supportedClient_forget (s : SubscriptionManager) (q : PropIdAreaId) (d : ClientIdType) :
    (forgetSupportedValueChange c s p).supportedClient q d =
      if q = p ∧ d = c then none else s.supportedClient q d := by
  rw [supportedClient, lookup_forget]
  by_cases hq : q = p
  · subst hq
    have hlookup : Finmap.lookup d
        ((s.mSupportedValueChangeClientsByPropIdAreaId.valueAt q ∅).erase c) =
        if q = q ∧ d = c then none else s.supportedClient q d := by
      rw [UnorderedMap.lookup_erase_eq, supportedClient, UnorderedMap.valueAt]
      simp only [true_and]
      refine if_congr Iff.rfl rfl ?_
      cases s.mSupportedValueChangeClientsByPropIdAreaId.lookup q with
      | none => exact Finmap.lookup_empty d
      | some clients => rfl
    rw [← hlookup, if_pos rfl]
    split
    · next he => rw [he, Finmap.lookup_empty, Option.bind_none]
    · rfl
  · simp only [hq, ite_false, false_and]
    rfl

/-- The pairs of a client after one of them is given up. -/
private theorem lookup_pairs_forget (s : SubscriptionManager) (d : ClientIdType) :
    (forgetSupportedValueChange c s p).mSupportedValueChangePropIdAreaIdsByClient.lookup d =
      if d = c then if (s.supportedHeld c).erase p = ∅ then none
        else some ((s.supportedHeld c).erase p)
      else s.mSupportedValueChangePropIdAreaIdsByClient.lookup d := by
  simp only [forgetSupportedValueChange, UnorderedMap.valueAt_insert_self]
  rw [← supportedHeld]
  by_cases he : (s.supportedHeld c).erase p = ∅
  · simp only [he, ite_true, UnorderedMap.lookup_erase_eq, UnorderedMap.lookup_insert_eq]
    by_cases hd : d = c <;> simp only [hd, ite_true, ite_false]
  · simp only [he, ite_false, UnorderedMap.lookup_insert_eq]

/-- A client holds all of its pairs but the forgotten one. -/
theorem mem_supportedHeld_forget (s : SubscriptionManager) (q : PropIdAreaId)
    (d : ClientIdType) :
    q ∈ (forgetSupportedValueChange c s p).supportedHeld d ↔
      q ∈ s.supportedHeld d ∧ ¬(d = c ∧ q = p) := by
  rw [supportedHeld, UnorderedMap.valueAt, lookup_pairs_forget]
  by_cases hd : d = c
  · subst hd
    have hmem : q ∈ (s.supportedHeld d).erase p ↔ q ∈ s.supportedHeld d ∧ ¬(d = d ∧ q = p) := by
      rw [Finset.mem_erase, and_comm]
      simp only [ne_eq, true_and]
    rw [if_pos rfl, ← hmem]
    split
    · next he => rw [he, Option.getD_none]
    · rw [Option.getD_some]
  · simp only [hd, ite_false, false_and, not_false_eq_true, and_true]
    rfl

/-- Giving a pair up keeps the book-keeping, also for a client that does not hold it. -/
theorem SupportedBookKeeping.forget (hs : SupportedBookKeeping s) :
    SupportedBookKeeping (forgetSupportedValueChange c s p) where
  inverse q d := by
    rw [mem_supportedHeld_forget, supportedClient_forget, ← hs.inverse]
    split
    · next h => exact iff_of_false (fun hn => hn rfl) fun hr => hr.2 ⟨h.2, h.1⟩
    · next h => exact ⟨fun hq => ⟨hq, fun hr => h ⟨hr.2, hr.1⟩⟩, fun hq => hq.1⟩
  clientsNonempty q := by
    rw [lookup_forget]
    split
    · split
      · simp only [ne_eq, reduceCtorEq, not_false_eq_true]
      · next hne => rwa [Ne, Option.some.injEq]
    · exact hs.clientsNonempty q
  heldNonempty d := by
    rw [lookup_pairs_forget]
    split
    · split
      · simp only [ne_eq, reduceCtorEq, not_false_eq_true]
      · next hne => rwa [Ne, Option.some.injEq]
    · exact hs.heldNonempty d

end Forget

/-- The client maps after the pairs of a list are given up. -/
theorem supportedClient_foldl_forget (c : ClientIdType) (ps : List PropIdAreaId)
    (s : SubscriptionManager) (q : PropIdAreaId) (d : ClientIdType) :
    (ps.foldl (forgetSupportedValueChange c) s).supportedClient q d =
      if q ∈ ps ∧ d = c then none else s.supportedClient q d := by
  induction ps generalizing s with
  | nil => simp only [List.foldl_nil, List.not_mem_nil, false_and, ite_false]
  | cons p ps ih =>
      rw [List.foldl_cons, ih, supportedClient_forget]
      by_cases hd : d = c
      · by_cases hq : q ∈ ps
        · simp only [hq, hd, List.mem_cons, or_true, and_self, ite_true]
        · simp only [hq, hd, List.mem_cons, or_false, and_true, ite_false]
      · simp only [hd, and_false, ite_false]

/-- A client is the only one of a pair. -/
def SoleSupportedClient (s : SubscriptionManager) (p : PropIdAreaId) (c : ClientIdType) : Prop :=
  ∀ d, s.supportedClient p d ≠ none ↔ d = c

/-- The pairs for which the hardware is asked to unsubscribe. -/
theorem mem_soleSupportedValueChangePairs {c : ClientIdType} {ps : List PropIdAreaId}
    {p : PropIdAreaId} :
    p ∈ soleSupportedValueChangePairs c ps s ↔ p ∈ ps ∧ s.SoleSupportedClient p c := by
  rw [soleSupportedValueChangePairs, List.mem_filter]
  refine and_congr_right fun _ => ?_
  simp only [SoleSupportedClient, supportedClient]
  cases s.mSupportedValueChangeClientsByPropIdAreaId.lookup p with
  | none =>
      simp only [Bool.false_eq_true, Option.bind_none, ne_eq, not_true_eq_false, false_iff]
      exact fun h => h c rfl
  | some clients =>
      simp only [Option.bind_some]
      rw [← UnorderedMap.size_eq_one_and_bound_iff, Bool.and_eq_true, beq_iff_eq,
        Option.isSome_iff_ne_none]

/-- The client that a call removes. -/
def Operation.leavingClient : Operation → Option ClientIdType
  | .unsubscribe c _ _ => some c
  | .unsubscribeClient c _ => some c
  | .unsubscribeSupportedValueChange c _ => some c
  | _ => none

/-- What a call did to the supported-value subscriptions: nothing, or one hardware call
followed on success by the book-keeping of the listed pairs. No call is needed where no
pair loses its only client. -/
inductive SupportedEffect (s : SubscriptionManager) (op : Operation) :
    VhalResult → SubscriptionManager → Prop
  | kept (r : VhalResult) (t : SubscriptionManager) (hmaps : t.supportedMaps = s.supportedMaps)
      (hcalls : t.supportedCalls = s.supportedCalls) : SupportedEffect s op r t
  | subscribed (callback : CallbackType) (ps : List PropIdAreaId) (u t : SubscriptionManager)
      (hu : u.supportedMaps = s.supportedMaps)
      (hmaps : t.supportedMaps = (ps.foldl (holdSupportedValueChange callback) u).supportedMaps)
      (hcalls : t.supportedCalls =
        (.subscribeSupportedValueChange ps, .ok) :: s.supportedCalls) :
      SupportedEffect s op (.ok ()) t
  | subscribeFailed (ps : List PropIdAreaId) (status : StatusCode) (e : StatusError)
      (t : SubscriptionManager) (hmaps : t.supportedMaps = s.supportedMaps)
      (hs : status ≠ .ok)
      (hcalls : t.supportedCalls =
        (.subscribeSupportedValueChange ps, status) :: s.supportedCalls) :
      SupportedEffect s op (.error e) t
  | unsubscribed (c : ClientIdType) (ps : List PropIdAreaId) (u t : SubscriptionManager)
      (hc : op.leavingClient = some c) (hu : u.supportedMaps = s.supportedMaps)
      (hmaps : t.supportedMaps = (ps.foldl (forgetSupportedValueChange c) u).supportedMaps)
      (hcalls : soleSupportedValueChangePairs c ps s = [] ∧
          t.supportedCalls = s.supportedCalls ∨
        t.supportedCalls = (.unsubscribeSupportedValueChange
          (soleSupportedValueChangePairs c ps s), .ok) :: s.supportedCalls) :
      SupportedEffect s op (.ok ()) t
  | unsubscribeFailed (c : ClientIdType) (ps : List PropIdAreaId) (status : StatusCode)
      (e : StatusError) (t : SubscriptionManager) (hc : op.leavingClient = some c)
      (hmaps : t.supportedMaps = s.supportedMaps) (hs : status ≠ .ok)
      (hcalls : t.supportedCalls = (.unsubscribeSupportedValueChange
        (soleSupportedValueChangePairs c ps s), status) :: s.supportedCalls) :
      SupportedEffect s op (.error e) t

private theorem supportedCalls_logHardware {call : HardwareCall}
    (hcall : call.isSupportedValueChange = true) (status : StatusCode) (s : SubscriptionManager) :
    (s.logHardware call status).supportedCalls = (call, status) :: s.supportedCalls := by
  simp only [supportedCalls, logHardware, List.filter_cons, hcall, ite_true]

/-- The book-keeping of the pairs makes no hardware call. -/
private theorem supportedCalls_foldl {f : SubscriptionManager → PropIdAreaId → SubscriptionManager}
    (hf : ∀ s p, (f s p).mVehicleHardware = s.mVehicleHardware) (ps : List PropIdAreaId)
    (s : SubscriptionManager) : (ps.foldl f s).supportedCalls = s.supportedCalls := by
  have hlog : (ps.foldl f s).mVehicleHardware = s.mVehicleHardware :=
    List.foldlRecOn (motive := fun t => t.mVehicleHardware = s.mVehicleHardware) ps f rfl
      fun t ht p _ => (hf t p).trans ht
  rw [supportedCalls, supportedCalls, hlog]

private theorem supportedEffect_unsubscribe {op : Operation} {c : ClientIdType}
    (hc : op.leavingClient = some c) (ps : List PropIdAreaId) {u : SubscriptionManager}
    (hmaps : u.supportedMaps = s.supportedMaps) (hcalls : u.supportedCalls = s.supportedCalls)
    {r : VhalResult} (h : unsubscribeSupportedValueChangeLocked hw c ps u = (r, t)) :
    SupportedEffect s op r t := by
  have hsole : soleSupportedValueChangePairs c ps u = soleSupportedValueChangePairs c ps s := by
    rw [soleSupportedValueChangePairs, soleSupportedValueChangePairs, (Prod.mk.inj hmaps).1]
  have hfold (v : SubscriptionManager) :=
    supportedCalls_foldl (f := forgetSupportedValueChange c) (fun _ _ => rfl) ps v
  rcases unsubscribeSupportedValueChangeLocked_cases hw c ps u with
    ⟨hnil, heq⟩ | ⟨_, heq⟩ | ⟨status, e, _, hs, _, heq⟩
  · cases heq.symm.trans h
    refine .unsubscribed c ps u _ hc hmaps rfl (Or.inl ⟨hsole ▸ hnil, ?_⟩)
    rw [hfold, hcalls]
  · cases heq.symm.trans h
    refine .unsubscribed c ps _ _ hc ?_ rfl (Or.inr ?_)
    · exact hmaps
    · rw [hfold, supportedCalls_logHardware rfl, hcalls, hsole]
  · cases heq.symm.trans h
    refine .unsubscribeFailed c ps status e _ hc hmaps hs ?_
    rw [supportedCalls_logHardware rfl, hcalls, hsole]

private theorem supportedEffect_of_aside {op : Operation} {r : VhalResult}
    (h : t.aside = s.aside) : SupportedEffect s op r t :=
  .kept r t (Prod.ext (congrArg Aside.supportedClients h) (congrArg Aside.supportedPairs h))
    (congrArg Aside.supportedCalls h)

/-- Every call acts on the supported-value subscriptions in one of these ways. -/
theorem Operation.Effect.supported {op : Operation} {r : VhalResult} {acts : List Act}
    (h : op.Effect hw lib s r t acts) : SupportedEffect s op r t := by
  cases h with
  | rejected => exact .kept _ _ rfl rfl
  | subscribe _ _ _ _ _ _ _ _ h => exact supportedEffect_of_aside h.aside
  | unsubscribe c _ _ _ u _ _ _ h hu =>
      refine supportedEffect_of_aside (Eq.trans ?_ h.aside)
      subst hu
      split <;> rfl
  | unsubscribeClientFailed _ _ _ _ _ _ h => exact supportedEffect_of_aside h.aside
  | unsubscribeClient c order _ u _ _ _ h hu =>
      refine supportedEffect_unsubscribe rfl _ ?_ ?_ hu
      · exact Prod.ext (congrArg Aside.supportedClients h.aside)
          (congrArg Aside.supportedPairs h.aside)
      · exact congrArg Aside.supportedCalls h.aside
  | getSubscribedClients _ _ _ _ _ h =>
      have hkeep := (keepsSubscriptions_getSubscribedClients h).1
      refine .kept _ _ (Prod.ext hkeep.supportedClients hkeep.supportedPairs) ?_
      rw [supportedCalls, hkeep.hardware]
      rfl
  | subscribeSupportedValueChange callback ps _ _ h =>
      rcases subscribeSupportedValueChange_cases hw callback ps s with
        heq | ⟨status, e, hs, _, heq⟩
      · cases heq.symm.trans h
        refine .subscribed callback ps (s.logHardware _ .ok) _ rfl rfl ?_
        rw [supportedCalls_foldl (f := holdSupportedValueChange callback) (fun _ _ => rfl),
          supportedCalls_logHardware rfl]
      · cases heq.symm.trans h
        exact .subscribeFailed ps status e _ rfl hs (supportedCalls_logHardware rfl status s)
  | unsubscribeSupportedValueChange c ps _ _ h => exact supportedEffect_unsubscribe rfl ps rfl rfl h

/-- The book-keeping of the supported values survives every call, failed or not. -/
theorem SupportedEffect.bookKeeping {op : Operation} {r : VhalResult}
    (h : SupportedEffect s op r t) (hs : SupportedBookKeeping s) : SupportedBookKeeping t := by
  cases h with
  | kept _ _ hmaps => exact hs.congr hmaps
  | subscribed callback ps u _ hu hmaps =>
      exact (List.foldlRecOn (motive := SupportedBookKeeping) ps _ (hs.congr hu)
        fun _ hv p _ => hv.hold callback p).congr hmaps
  | subscribeFailed _ _ _ _ hmaps => exact hs.congr hmaps
  | unsubscribed c ps u _ _ hu hmaps =>
      exact (List.foldlRecOn (motive := SupportedBookKeeping) ps _ (hs.congr hu)
        fun _ hv p _ => hv.forget c p).congr hmaps
  | unsubscribeFailed _ _ _ _ _ _ hmaps => exact hs.congr hmaps

/-- The hardware reports the changes of the supported values of a pair: the last call that
names the pair asked it to. -/
def SupportedSubscribed (s : SubscriptionManager) (p : PropIdAreaId) : Prop :=
  s.supportedCalls.findSome? (fun e => e.1.supportedRequest p) = some true

/-- The hardware reports for exactly the pairs that have a client. -/
def SupportedAgrees (s : SubscriptionManager) : Prop :=
  ∀ p, s.SupportedSubscribed p ↔ ∃ c, s.supportedClient p c ≠ none

/-- A call whose hardware call succeeds keeps the agreement with the hardware. -/
theorem SupportedEffect.agrees {op : Operation} {r : VhalResult} (h : SupportedEffect s op r t)
    (hs : SupportedAgrees s) (hok : ∀ e ∈ t.supportedCalls, e.2 = .ok) : SupportedAgrees t := by
  intro p
  cases h with
  | kept _ _ hmaps hcalls =>
      rw [SupportedSubscribed, hcalls]
      simp only [supportedClient_congr hmaps]
      exact hs p
  | subscribed callback ps u _ hu hmaps hcalls =>
      rw [SupportedSubscribed, hcalls, List.findSome?_cons]
      simp only [supportedClient_congr hmaps, supportedClient_foldl_hold, supportedClient_congr hu,
        HardwareCall.supportedRequest]
      by_cases hp : p ∈ ps
      · simp only [hp, ite_true, true_and, true_iff]
        exact ⟨callback.asBinder, by simp only [ite_true, ne_eq, reduceCtorEq, not_false_eq_true]⟩
      · simp only [hp, ite_false, false_and]
        exact hs p
  | subscribeFailed _ _ _ _ _ hst hcalls =>
      rw [hcalls] at hok
      exact absurd (hok _ (List.mem_cons_self ..)) hst
  | unsubscribed c ps u _ _ hu hmaps hcalls =>
      have hlast : t.SupportedSubscribed p ↔
          s.SupportedSubscribed p ∧ p ∉ soleSupportedValueChangePairs c ps s := by
        rcases hcalls with ⟨hnil, hsame⟩ | hcalls
        · rw [SupportedSubscribed, hsame, hnil]
          exact ⟨fun h => ⟨h, List.not_mem_nil⟩, fun h => h.1⟩
        · rw [SupportedSubscribed, hcalls, List.findSome?_cons]
          by_cases hp : p ∈ soleSupportedValueChangePairs c ps s
          · simp only [HardwareCall.supportedRequest, hp, ite_true, not_true_eq_false, and_false,
              Option.some.injEq, Bool.false_eq_true]
          · simp only [HardwareCall.supportedRequest, hp, ite_false, not_false_eq_true, and_true]
            rfl
      rw [hlast, hs p, mem_soleSupportedValueChangePairs]
      simp only [supportedClient_congr hmaps, supportedClient_foldl_forget,
        supportedClient_congr hu]
      by_cases hp : p ∈ ps
      · simp only [hp, true_and]
        constructor
        · rintro ⟨⟨d, hd⟩, hnot⟩
          obtain ⟨x, hx⟩ := not_forall.mp hnot
          by_cases hdc : d = c
          · subst hdc
            have hxd : x ≠ d := by
              rintro rfl
              exact hx (iff_of_true hd rfl)
            have hbound : s.supportedClient p x ≠ none := fun hnone =>
              hx (iff_of_false (fun h => h hnone) hxd)
            exact ⟨x, by rwa [if_neg hxd]⟩
          · exact ⟨d, by rwa [if_neg hdc]⟩
        · rintro ⟨d, hd⟩
          have hdc : d ≠ c := by
            rintro rfl
            exact hd (if_pos rfl)
          rw [if_neg hdc] at hd
          exact ⟨⟨d, hd⟩, fun hsole => hdc ((hsole d).mp hd)⟩
      · simp only [hp, false_and, ite_false, not_false_eq_true, and_true]
  | unsubscribeFailed _ _ _ _ _ _ _ hst hcalls =>
      rw [hcalls] at hok
      exact absurd (hok _ (List.mem_cons_self ..)) hst

/-- A failed call leaves the two maps as they were, a failed hardware call fails the call,
and the hardware is asked to unsubscribe only what its sole client gives up. -/
structure Operation.KeepsSupportedValues (op : Operation) (s : SubscriptionManager)
    (r : VhalResult) (t : SubscriptionManager) : Prop where
  unchanged : ∀ e, r = .error e → t.supportedMaps = s.supportedMaps
  calls : ∃ new, t.supportedCalls = new ++ s.supportedCalls ∧
    ((∃ e ∈ new, e.2 ≠ .ok) → ∃ e, r = .error e) ∧
    ∀ ps status, (HardwareCall.unsubscribeSupportedValueChange ps, status) ∈ new →
      ∃ c, op.leavingClient = some c ∧ ∀ p ∈ ps, s.SoleSupportedClient p c

/-- The effect of an operation is the one that is asked for. -/
theorem SupportedEffect.keepsSupportedValues {op : Operation} {r : VhalResult}
    (h : SupportedEffect s op r t) : op.KeepsSupportedValues s r t := by
  cases h with
  | kept _ _ hmaps hcalls =>
      refine ⟨fun _ _ => hmaps, [], hcalls, ?_, fun _ _ hmem => absurd hmem List.not_mem_nil⟩
      rintro ⟨e, he, _⟩
      exact absurd he List.not_mem_nil
  | subscribed callback ps u _ _ _ hcalls =>
      refine ⟨fun e he => ?_, [_], hcalls, ?_, fun qs status hmem => ?_⟩
      · cases he
      · rintro ⟨e, he, hst⟩
        rw [List.mem_singleton.mp he] at hst
        exact absurd rfl hst
      · rw [List.mem_singleton] at hmem
        cases hmem
  | subscribeFailed ps status e _ hmaps _ hcalls =>
      refine ⟨fun _ _ => hmaps, [_], hcalls, fun _ => ⟨e, rfl⟩, fun qs status hmem => ?_⟩
      rw [List.mem_singleton] at hmem
      cases hmem
  | unsubscribed c ps u _ hc _ _ hcalls =>
      refine ⟨fun e he => absurd he (by simp), ?_⟩
      rcases hcalls with ⟨_, hsame⟩ | hcalls
      · refine ⟨[], hsame, ?_, fun _ _ hmem => absurd hmem List.not_mem_nil⟩
        rintro ⟨e, he, _⟩
        exact absurd he List.not_mem_nil
      · refine ⟨[_], hcalls, ?_, fun qs status hmem => ⟨c, hc, fun p hp => ?_⟩⟩
        · rintro ⟨e, he, hst⟩
          rw [List.mem_singleton.mp he] at hst
          exact absurd rfl hst
        · rw [List.mem_singleton] at hmem
          cases hmem
          exact (mem_soleSupportedValueChangePairs.mp hp).2
  | unsubscribeFailed c ps status e _ hc hmaps _ hcalls =>
      refine ⟨fun _ _ => hmaps, [_], hcalls, fun _ => ⟨e, rfl⟩,
        fun qs status hmem => ⟨c, hc, fun p hp => ?_⟩⟩
      rw [List.mem_singleton] at hmem
      cases hmem
      exact (mem_soleSupportedValueChangePairs.mp hp).2

/-- In every reachable state the supported-value maps are inverse relations, every call
treats them as it should, and they agree with a hardware that refused nothing. -/
theorem supportedValues_of_run {as : List (Operation × VhalResult)} (h : Run hw lib {} as s) :
    SupportedBookKeeping s ∧
      (∀ op r t, Steps hw lib s (op, r) t → op.KeepsSupportedValues s r t) ∧
      ((∀ e ∈ s.supportedCalls, e.2 = .ok) → SupportedAgrees s) := by
  refine ⟨?_, fun op r t hstep => ?_, ?_⟩
  · refine Path.invariant h supportedBookKeeping_empty fun s a t hs hstep => ?_
    obtain ⟨acts, heff⟩ := step_effect hw hstep
    exact heff.supported.bookKeeping hs
  · obtain ⟨acts, heff⟩ := step_effect hw hstep
    exact heff.supported.keepsSupportedValues
  · refine Path.invariant (P := fun s => (∀ e ∈ s.supportedCalls, e.2 = .ok) → SupportedAgrees s)
      h (fun _ p => ?_) fun s a t hs hstep hok => ?_
    · simp [SupportedSubscribed, supportedCalls, supportedClient]
    · obtain ⟨acts, heff⟩ := step_effect hw hstep
      obtain ⟨new, hnew, _⟩ := heff.supported.keepsSupportedValues.calls
      refine heff.supported.agrees (hs fun e he => hok e ?_) hok
      rw [hnew]
      exact List.mem_append_right _ he

/-- One of two clients gives a pair up, in a list that repeats it and names a pair nobody
holds: the hardware still reports for the pair. -/
theorem supportedValues_of_two_clients :
    ∃ as s, Run (fun _ => .ok) default {} as s ∧ s.supportedHeld 2 = {⟨1, 0⟩} ∧
      SupportedBookKeeping s ∧ s.SupportedSubscribed ⟨1, 0⟩ := by
  obtain ⟨as, s, hrun, _, hheld, hcalls⟩ := exists_run_of_execute (fun _ => .ok) default
    [.subscribeSupportedValueChange ⟨0, 1⟩ [⟨1, 0⟩, ⟨1, 0⟩],
      .subscribeSupportedValueChange ⟨0, 2⟩ [⟨1, 0⟩],
      .unsubscribeSupportedValueChange 1 [⟨1, 0⟩, ⟨2, 0⟩, ⟨1, 0⟩]]
    (fun s => s.supportedHeld 2 = {⟨1, 0⟩} ∧ ∀ e ∈ s.supportedCalls, e.2 = .ok) (by decide)
  obtain ⟨hbook, _, hagrees⟩ := supportedValues_of_run hrun
  refine ⟨as, s, hrun, hheld, hbook, (hagrees hcalls _).mpr ⟨2, ?_⟩⟩
  rw [hbook.inverse, hheld]
  exact Finset.mem_singleton_self _

end SubscriptionManager

end VhalCore.Subscription
