import VhalCore.Models.Subscription.Correctness.Aggregation
import VhalCore.Models.Subscription.Correctness.BookKeeping

/-!
# Agreement between the manager and the hardware

With a hardware that accepts every call, the hardware is subscribed to a pair
exactly when some client is, except for one defect: event delivery gives an
on-change pair a config entry, and an `unsubscribe` then takes the pair for a
continuous one and unsubscribes it from the hardware although another client still
holds it. The runs that agree in every state are those in which no `unsubscribe`
meets such an entry on a shared on-change pair.
-/

namespace VhalCore.Subscription

open SubscriptionManager

/-- The latest call that subscribed or unsubscribed. -/
def lastRequest (calls : List (PairCall × StatusCode)) : Option PairCall :=
  calls.findSome? fun e => match e.1 with
    | .updateSampleRate _ => none
    | call => some call

/-- A client-free on-change pair is unsubscribed and without a config; with clients it is
subscribed and has at most the default config. -/
structure PairState.OnChangeInStep (x : PairState) : Prop where
  idle : x.clients = none → x.config = none ∧
    ∀ call, lastRequest x.calls = some call → call = .unsubscribe
  active : ∀ clients, x.clients = some clients → (x.config = none ∨ x.config = some {}) ∧
    lastRequest x.calls = some (.subscribe onChangeConfig)

/-- Subscribing and delivering keep an on-change pair in step. -/
theorem PairStep.onChangeInStep {x y : PairState} {e : PairEvent} (h : PairStep x e y)
    (hs : x.OnChangeInStep)
    (he : (∃ callback, e = .subscribed callback none) ∨ e = .delivered) : y.OnChangeInStep := by
  cases h with
  | onChangeKnown callback clients hc =>
      exact ⟨fun h => absurd h nofun, fun _ _ => hs.active clients hc⟩
  | onChangeNew callback hc =>
      exact ⟨fun h => absurd h nofun, fun _ _ => ⟨Or.inl (hs.idle hc).1, rfl⟩⟩
  | added callback config => simp at he
  | delivered clients hc =>
      obtain ⟨hconfig, hlast⟩ := hs.active clients hc
      refine ⟨fun h => absurd (h.symm.trans hc) nofun, fun _ _ => ⟨Or.inr ?_, hlast⟩⟩
      rcases hconfig with h | h <;> rw [h] <;> rfl
  | _ => simp at he

/-- The config left by a delivery looks unsubscribed once a client is removed from it. -/
theorem updateCalls_default (c : ClientIdType) :
    updateCalls {} (({} : ContSubConfigs).removeClient c) = [.unsubscribe] := by
  have hremove : ({} : ContSubConfigs).removeClient c =
      { mMaxSampleRateHz := .zero, mMinRequiredResolution := .maxFinite, mEnableVur := true } := by
    have hempty : Finmap.erase c (∅ : UnorderedMap ClientIdType SubConfig) = ∅ :=
      (UnorderedMap.eq_empty_iff _).mpr fun d => by
        rw [UnorderedMap.lookup_erase_eq, Finmap.lookup_empty, ite_self]
    simp only [ContSubConfigs.removeClient, ContSubConfigs.refreshCombinedConfig, hempty,
      combine_empty]
  rw [hremove]
  decide

/-- The client map without a client is empty exactly when no other client is there. -/
theorem PairState.erase_eq_empty_iff (x : PairState) (c : ClientIdType) :
    (x.clients.getD ∅).erase c = ∅ ↔ ∀ d, d ≠ c → x.client d = none := by
  rw [UnorderedMap.eq_empty_iff]
  refine forall_congr' fun d => ?_
  have hlookup : Finmap.lookup d (x.clients.getD ∅) = x.client d := by
    rw [PairState.client]
    cases x.clients <;> rfl
  rw [UnorderedMap.lookup_erase_eq, hlookup]
  split
  · next h => exact iff_of_true rfl fun hne => absurd h hne
  · next h => exact ⟨fun hx _ => hx, fun hx => hx h⟩

/-- A client that leaves an on-change pair keeps it in step, if the pair has no config or
no other client. -/
theorem PairStep.onChangeInStep_unsubscribed {x y : PairState} {c : ClientIdType}
    (h : PairStep x (.unsubscribed c) y) (hs : x.OnChangeInStep) (hc : x.client c ≠ none)
    (hcond : (∃ d, d ≠ c ∧ x.client d ≠ none) → x.config = none) : y.OnChangeInStep := by
  cases h with
  | removed _ config hconfig =>
      have halone : (x.clients.getD ∅).erase c = ∅ := by
        refine (x.erase_eq_empty_iff c).mpr fun d hd => ?_
        by_contra hne
        exact absurd ((hcond ⟨d, hd, hne⟩).symm.trans hconfig) (by rintro ⟨⟩)
      cases hclients : x.clients with
      | none => exact absurd ((hs.idle hclients).1.symm.trans hconfig) (by rintro ⟨⟩)
      | some clients =>
          have hdefault : config = {} := by
            rcases (hs.active clients hclients).1 with h | h
            · exact absurd (h.symm.trans hconfig) (by rintro ⟨⟩)
            · exact Option.some.inj (hconfig.symm.trans h)
          subst hdefault
          rw [hclients] at halone
          rw [updateCalls_default, PairState.dropClient]
          simp only [halone, ite_true]
          refine ⟨fun _ => ⟨rfl, fun call hcall => ?_⟩, fun _ h => absurd h (by rintro ⟨⟩)⟩
          cases hcall
          rfl
  | notSubscribed _ hf hn =>
      refine absurd ?_ hc
      rw [PairState.client, hn, Option.bind_none]
  | onChangeShared _ hf clients hclients hsize =>
      have hshared : (x.clients.getD ∅).erase c ≠ ∅ := by
        obtain ⟨a, b, hab, ⟨ka, ha⟩, kb, hb⟩ := (UnorderedMap.one_lt_size_iff clients).mp hsize
        have hclient (d : ClientIdType) : x.client d = clients.lookup d := by
          rw [PairState.client, hclients, Option.bind_some]
        rw [Ne, PairState.erase_eq_empty_iff, not_forall]
        by_cases hca : a = c
        · exact ⟨b, fun h => absurd ((hclient b).symm.trans (h fun hb => hab (hca.trans hb.symm)))
            (by rw [hb]; rintro ⟨⟩)⟩
        · exact ⟨a, fun h => absurd ((hclient a).symm.trans (h hca)) (by rw [ha]; rintro ⟨⟩)⟩
      rw [PairState.dropClient]
      simp only [hshared, ite_false]
      exact ⟨fun h => absurd h (by rintro ⟨⟩), fun _ _ => hs.active clients hclients⟩
  | onChangeLast _ hf clients hclients hsize =>
      have halone : (x.clients.getD ∅).erase c = ∅ := by
        refine (x.erase_eq_empty_iff c).mpr fun d hd => ?_
        by_contra hne
        refine hsize ((UnorderedMap.one_lt_size_iff clients).mpr ⟨c, d, Ne.symm hd, ?_, ?_⟩)
        · rw [PairState.client, hclients, Option.bind_some] at hc
          exact Option.ne_none_iff_exists'.mp hc
        · rw [PairState.client, hclients, Option.bind_some] at hne
          exact Option.ne_none_iff_exists'.mp hne
      rw [PairState.dropClient]
      simp only [halone, ite_true]
      refine ⟨fun _ => ⟨rfl, fun call hcall => ?_⟩, fun _ h => absurd h (by rintro ⟨⟩)⟩
      cases hcall
      rfl

/-- A client that leaves a shared on-change pair with a config takes the hardware
subscription of the others along. -/
theorem PairStep.unsubscribed_shared {x y : PairState} {c d : ClientIdType}
    (h : PairStep x (.unsubscribed c) y) (hs : x.OnChangeInStep) (hd : d ≠ c)
    (hclient : x.client d ≠ none) (hconfig : x.config ≠ none) :
    lastRequest y.calls = some .unsubscribe ∧ y.client d ≠ none := by
  have hy : y.client d = x.client d := by
    rw [h.client]
    simp only [PairEvent.update, Function.update_of_ne hd]
  rw [hy]
  refine ⟨?_, hclient⟩
  cases h with
  | removed _ config hc =>
      cases hclients : x.clients with
      | none => exact absurd (hs.idle hclients).1 hconfig
      | some clients =>
          have hdefault : config = {} :=
            Option.some.inj (hc.symm.trans ((hs.active clients hclients).1.resolve_left hconfig))
          subst hdefault
          rw [updateCalls_default, PairState.dropClient]
          simp only
          split <;> rfl
  | notSubscribed _ hf => exact absurd hf hconfig
  | onChangeShared _ hf => exact absurd hf hconfig
  | onChangeLast _ hf => exact absurd hf hconfig

namespace SubscriptionManager

/-- The hardware accepts every call. -/
def accepting : Nat → StatusCode := fun _ => .ok

/-- The last request made to the hardware for a pair was to subscribe. -/
def HardwareSubscribed (s : SubscriptionManager) (p : PropIdAreaId) : Prop :=
  ∃ config, lastRequest (s.pairCalls p) = some (.subscribe config)

/-- The hardware is subscribed to exactly the pairs that have a client. -/
def AgreesWithHardware (s : SubscriptionManager) : Prop :=
  ∀ p, s.HardwareSubscribed p ↔ ∃ c, s.client p c ≠ none

/-- No on-change pair that the call drops has both a config entry and another client. -/
def Operation.SparesSharedPairs (kind : Int → Bool) (s : SubscriptionManager) :
    Operation → Prop
  | .unsubscribe c propIds _ =>
      ∀ p ∈ s.held c, p.propId ∈ propIds → kind p.propId = false →
        (∃ d, d ≠ c ∧ s.client p d ≠ none) → s.mContSubConfigsByPropIdArea.lookup p = none
  | .unsubscribeClient c _ =>
      ∀ p ∈ s.held c, kind p.propId = false →
        (∃ d, d ≠ c ∧ s.client p d ≠ none) → s.mContSubConfigsByPropIdArea.lookup p = none
  | _ => True

variable {lib : MathLibrary} {kind : Int → Bool} {s t : SubscriptionManager}

/-- The book-keeping is right and every on-change pair is in step with the hardware. -/
structure OnChangeInvariant (kind : Int → Bool) (s : SubscriptionManager) : Prop where
  bookKeeping : BookKeeping s
  pairs : ∀ p, kind p.propId = false → (s.pairState p).OnChangeInStep

theorem onChangeInvariant_empty (kind : Int → Bool) : OnChangeInvariant kind {} where
  bookKeeping := bookKeeping_empty
  pairs p _ := by
    rw [pairState_empty]
    exact ⟨fun _ => ⟨rfl, nofun⟩, nofun⟩

/-- An on-change pair in step agrees with the hardware. -/
theorem OnChangeInvariant.agrees (hs : OnChangeInvariant kind s) {p : PropIdAreaId}
    (hp : kind p.propId = false) : s.HardwareSubscribed p ↔ ∃ c, s.client p c ≠ none := by
  have hstep := hs.pairs p hp
  cases hclients : (s.pairState p).clients with
  | none =>
      refine iff_of_false ?_ ?_
      · rintro ⟨config, hlast⟩
        exact absurd ((hstep.idle hclients).2 _ hlast) (by rintro ⟨⟩)
      · rintro ⟨c, hc⟩
        refine hc ?_
        change (s.pairState p).client c = none
        rw [PairState.client, hclients, Option.bind_none]
  | some clients =>
      refine iff_of_true ⟨_, (hstep.active clients hclients).2⟩ ?_
      have hne : clients ≠ ∅ := fun h => hs.bookKeeping.clientsNonempty p (h ▸ hclients)
      obtain ⟨c, k, hk⟩ := (UnorderedMap.ne_empty_iff clients).mp hne
      refine ⟨c, ?_⟩
      change (s.pairState p).client c ≠ none
      rw [PairState.client, hclients, Option.bind_some, hk]
      rintro ⟨⟩

/-- With an accepting hardware the book-keeping is always right. -/
theorem refusedAtFirst_accepting (op : Operation) : op.RefusedAtFirst accepting s := by
  cases op with
  | unsubscribeClient c order =>
      exact fun p rest _ _ => EachTurn.of_forall (fun _ _ _ _ => rfl) rest _
  | _ => trivial

/-- One call of a loop that unsubscribes pairs: each pair is left alone or dropped once,
in the state it had when the loop began. -/
private theorem unsubscribe_pair {c : ClientIdType} {book : PropIdAreaId → HeldPairs → HeldPairs}
    {xs done : List PropIdAreaId} {r : VhalResult} {acts : List Act}
    (h : LoopEffect accepting (unsubscribedAct c) (unsubscribeFailedAct c) book xs s r t done acts)
    (hn : xs.Nodup) (p : PropIdAreaId) :
    (p ∉ xs ∧ t.pairState p = s.pairState p) ∨
      p ∈ xs ∧ PairStep (s.pairState p) (.unsubscribed c) (t.pairState p) := by
  have hr : r = .ok () := by
    cases r with
    | ok u => rfl
    | error e =>
        obtain ⟨n, hn⟩ := h.failed e rfl
        exact absurd rfl hn
  subst hr
  have hloop := h.loop
  cases hloop with
  | completed =>
      have hpath := h.pairs
      rcases pair_step_of_nodup hpath (by
        rw [List.map_map]
        exact (List.map_id' xs).symm ▸ hn) p with ⟨hnone, heq⟩ | ⟨e, he, hstep⟩
      · refine Or.inl ⟨fun hp => hnone (.unsubscribed c) ?_, heq⟩
        exact List.mem_map.mpr ⟨p, hp, rfl⟩
      · obtain ⟨q, hq, heq⟩ := List.mem_map.mp he
        cases heq
        exact Or.inr ⟨hq, hstep⟩

/-- A loop that spares the shared pairs with a config keeps the on-change pairs in step. -/
private theorem onChangeInStep_of_spared {u : SubscriptionManager}
    (hs : OnChangeInvariant kind s) {c : ClientIdType}
    {book : PropIdAreaId → HeldPairs → HeldPairs} {xs done : List PropIdAreaId} {r : VhalResult}
    {acts : List Act}
    (h : LoopEffect accepting (unsubscribedAct c) (unsubscribeFailedAct c) book xs s r t done acts)
    (hn : xs.Nodup) (hheld : ∀ p ∈ xs, p ∈ s.held c) (hu : u.pairState = t.pairState)
    (hspare : ∀ p ∈ xs, kind p.propId = false → (∃ d, d ≠ c ∧ s.client p d ≠ none) →
      s.mContSubConfigsByPropIdArea.lookup p = none) :
    ∀ p, kind p.propId = false → (u.pairState p).OnChangeInStep := by
  intro p hp
  rw [hu]
  rcases unsubscribe_pair h hn p with ⟨_, heq⟩ | ⟨hmem, hstep⟩
  · rw [heq]
    exact hs.pairs p hp
  · exact hstep.onChangeInStep_unsubscribed (hs.pairs p hp)
      ((hs.bookKeeping.inverse p c).mpr (hheld p hmem)) (hspare p hmem hp)

/-- A loop that meets a shared pair with a config breaks the agreement. -/
private theorem not_agrees_of_shared {u : SubscriptionManager} (hs : OnChangeInvariant kind s)
    {c : ClientIdType} {book : PropIdAreaId → HeldPairs → HeldPairs} {xs done : List PropIdAreaId}
    {r : VhalResult} {acts : List Act}
    (h : LoopEffect accepting (unsubscribedAct c) (unsubscribeFailedAct c) book xs s r t done acts)
    (hn : xs.Nodup) (hu : u.pairState = t.pairState) {p : PropIdAreaId} (hmem : p ∈ xs)
    (hp : kind p.propId = false) (hshared : ∃ d, d ≠ c ∧ s.client p d ≠ none)
    (hconfig : s.mContSubConfigsByPropIdArea.lookup p ≠ none) : ¬AgreesWithHardware u := by
  intro hagree
  obtain ⟨d, hd, hclient⟩ := hshared
  have hstep := ((unsubscribe_pair h hn p).resolve_left fun hleft => hleft.1 hmem).2
  rw [← hu] at hstep
  obtain ⟨hlast, hstill⟩ := hstep.unsubscribed_shared (hs.pairs p hp) hd hclient hconfig
  obtain ⟨config, hsub⟩ := (hagree p).mpr ⟨d, hstill⟩
  exact absurd (hlast.symm.trans hsub) nofun

/-- A call keeps the invariant if it spares the shared pairs with a config; otherwise it
breaks the agreement with the hardware. -/
theorem Operation.Effect.onChange_cases {op : Operation} {r : VhalResult} {acts : List Act}
    (h : op.Effect accepting lib s r t acts) (hk : op.RespectsKind kind)
    (hs : OnChangeInvariant kind s) :
    (op.SparesSharedPairs kind s → OnChangeInvariant kind t) ∧
      (¬op.SparesSharedPairs kind s → ¬AgreesWithHardware t) := by
  have hbook : BookKeeping t := (h.bookKeeping_iff hs.bookKeeping).mpr (refusedAtFirst_accepting op)
  have hother (hacts : ∀ a ∈ acts, kind a.1.propId = false →
      (∃ callback, a.2 = .subscribed callback none) ∨ a.2 = .delivered) :
      OnChangeInvariant kind t :=
    ⟨hbook, fun p hp => pair_invariant_of_acts (h.pairs accepting) p (hs.pairs p hp)
      fun x e y he hx hstep => hstep.onChangeInStep hx (hacts (p, e) he hp)⟩
  cases h with
  | rejected => exact ⟨fun _ => hs, fun hn => absurd trivial hn⟩
  | subscribe callback options isContinuousProperty _ _ done _ hcheck h =>
      refine ⟨fun _ => hother fun a ha hp => Or.inl ⟨callback, ?_⟩, fun hn => absurd trivial hn⟩
      obtain ⟨turn, hturn, rfl | ⟨⟨e, he⟩, _⟩⟩ := h.loop.mem ha
      · have hkind := hk turn.1 (mem_subscribeTurns.mp hturn).1
        have hfalse : isContinuousProperty = false := hkind.symm.trans hp
        rw [hfalse]
        rfl
      · obtain ⟨n, hn⟩ := h.failed e he
        exact absurd rfl hn
  | unsubscribe c propIds order _ u _ done _ h hu =>
      have hn : (propIdAreaIdsToUnsubscribe propIds order (s.held c)).Nodup :=
        (order.nodup _).filter _
      have hpairs : t.pairState = u.pairState := by
        subst hu
        split <;> rfl
      refine ⟨fun hspare => ⟨hbook, onChangeInStep_of_spared hs h hn
        (fun p hp => (mem_propIdAreaIdsToUnsubscribe.mp hp).1) hpairs fun p hp => ?_⟩,
        fun hnot => ?_⟩
      · have hmem := mem_propIdAreaIdsToUnsubscribe.mp hp
        exact hspare p hmem.1 hmem.2
      · simp only [SparesSharedPairs, not_forall] at hnot
        obtain ⟨p, hheld, hreq, hp, hshared, hconfig⟩ := hnot
        exact not_agrees_of_shared hs h hn hpairs
          (mem_propIdAreaIdsToUnsubscribe.mpr ⟨hheld, hreq⟩) hp hshared hconfig
  | unsubscribeClientFailed c order e _ done _ h =>
      obtain ⟨n, hn⟩ := h.failed e rfl
      exact absurd rfl hn
  | unsubscribeClient c order _ u _ done _ h hu =>
      have hpairs := (keepsPairs_unsubscribeSupportedValueChangeLocked accepting c
        (order.visit (u.supportedHeld c))
        { u with mSubscribedPropsByClient := u.mSubscribedPropsByClient.erase c }).pairs
      rw [hu] at hpairs
      refine ⟨fun hspare => ⟨hbook, onChangeInStep_of_spared hs h (order.nodup _)
        (fun p hp => (order.mem _ p).mp hp) hpairs fun p hp =>
          hspare p ((order.mem _ p).mp hp)⟩, fun hnot => ?_⟩
      simp only [SparesSharedPairs, not_forall] at hnot
      obtain ⟨p, hheld, hp, hshared, hconfig⟩ := hnot
      exact not_agrees_of_shared hs h (order.nodup _) hpairs ((order.mem _ p).mpr hheld) hp hshared
        hconfig
  | getSubscribedClients _ _ _ _ _ _ _ hacts =>
      exact ⟨fun _ => hother fun a ha _ => Or.inr (hacts a ha), fun hn => absurd trivial hn⟩
  | subscribeSupportedValueChange =>
      exact ⟨fun _ => hother fun _ h => absurd h List.not_mem_nil, fun hn => absurd trivial hn⟩
  | unsubscribeSupportedValueChange =>
      exact ⟨fun _ => hother fun _ h => absurd h List.not_mem_nil, fun hn => absurd trivial hn⟩

/-- A continuous pair always agrees with an accepting hardware. -/
theorem Run.continuous_agrees {as : List (Operation × VhalResult)}
    (h : Run accepting lib {} as s) (hk : ∀ a ∈ as, a.1.RespectsKind kind) {p : PropIdAreaId}
    (hp : kind p.propId = true) : s.HardwareSubscribed p ↔ ∃ c, s.client p c ≠ none := by
  have hstep := Run.inStep h hk (fun _ => rfl) hp
  obtain ⟨T, _, hT⟩ := Run.refines h hk
  have hhead {e : PairCall × StatusCode} (hcalls : (s.pairState p).calls.head? = some e)
      (he : ∀ rate, e.1 ≠ .updateSampleRate rate) : lastRequest (s.pairCalls p) = some e.1 := by
    change (s.pairCalls p).head? = some e at hcalls
    cases hc : s.pairCalls p with
    | nil =>
        rw [hc] at hcalls
        exact absurd hcalls (by rintro ⟨⟩)
    | cons a calls =>
        rw [hc] at hcalls
        cases hcalls
        rcases e with ⟨call, status⟩
        cases call with
        | updateSampleRate rate => exact absurd rfl (he rate)
        | subscribe config => rfl
        | unsubscribe => rfl
  cases hconfig : (s.pairState p).config with
  | none =>
      obtain ⟨hclients, hlast⟩ := hstep.idle hconfig
      refine iff_of_false ?_ ?_
      · rintro ⟨config, hsub⟩
        cases hcalls : (s.pairState p).calls.head? with
        | none =>
            change (s.pairCalls p).head? = none at hcalls
            rw [List.head?_eq_none_iff.mp hcalls] at hsub
            exact absurd hsub (by rintro ⟨⟩)
        | some e =>
            have he := hlast e hcalls
            have hreq := hhead hcalls fun rate h => absurd (he.symm.trans h) (by rintro ⟨⟩)
            rw [he] at hreq
            exact absurd (hreq.symm.trans hsub) (by rintro ⟨⟩)
      · rintro ⟨c, hc⟩
        refine hc ?_
        change (s.pairState p).client c = none
        rw [PairState.client, hclients, Option.bind_none]
  | some config =>
      obtain ⟨hne, hcalls, _⟩ := hstep.active config hconfig
      refine iff_of_true ⟨_, hhead hcalls (by rintro _ ⟨⟩)⟩ ?_
      obtain ⟨c, sub, hsub⟩ := (UnorderedMap.ne_empty_iff _).mp hne
      have hlookup := (hT.pairs p).config c
      rw [hconfig, Option.getD_some, hsub] at hlookup
      obtain ⟨r, hr, _⟩ := Option.bind_eq_some_iff.mp hlookup.symm
      refine ⟨c, ?_⟩
      change (s.pairState p).client c ≠ none
      rw [(hT.pairs p).client c, hr]
      rintro ⟨⟩

/-- What the runs keep that agree with the hardware. -/
structure Agreeing (lib : MathLibrary) (kind : Int → Bool) (s : SubscriptionManager) : Prop where
  onChange : OnChangeInvariant kind s
  run : ∃ as, Run accepting lib {} as s ∧ ∀ a ∈ as, a.1.RespectsKind kind

theorem agreeing_empty (lib : MathLibrary) (kind : Int → Bool) : Agreeing lib kind {} :=
  ⟨onChangeInvariant_empty kind, [], .nil _, fun _ h => absurd h List.not_mem_nil⟩

/-- The invariant implies the agreement with the hardware. -/
theorem Agreeing.agrees (h : Agreeing lib kind s) : AgreesWithHardware s := by
  obtain ⟨as, hrun, hk⟩ := h.run
  intro p
  cases hp : kind p.propId with
  | true => exact Run.continuous_agrees hrun hk hp
  | false => exact h.onChange.agrees hp

/-- A step agrees with the hardware exactly if it spares the shared pairs. -/
theorem Agreeing.step {a : Operation × VhalResult} (h : Agreeing lib kind s)
    (hstep : Steps accepting lib s a t) (hka : a.1.RespectsKind kind) :
    (AgreesWithHardware t ↔ a.1.SparesSharedPairs kind s) ∧
      (a.1.SparesSharedPairs kind s → Agreeing lib kind t) := by
  obtain ⟨bs, hrun, hk⟩ := h.run
  obtain ⟨acts, heff⟩ := step_effect accepting hstep
  obtain ⟨hkeep, hbreak⟩ := heff.onChange_cases hka h.onChange
  have hk' : ∀ b ∈ bs ++ [a], b.1.RespectsKind kind := by
    intro b hb
    rcases List.mem_append.mp hb with hb | hb
    · exact hk b hb
    · rwa [List.mem_singleton.mp hb]
  have hnext (hspare : a.1.SparesSharedPairs kind s) : Agreeing lib kind t :=
    ⟨hkeep hspare, bs ++ [a], .snoc hrun hstep, hk'⟩
  refine ⟨⟨fun hagrees => ?_, fun hspare => (hnext hspare).agrees⟩, hnext⟩
  by_contra hnot
  exact hbreak hnot hagrees

/-- The runs that agree with the hardware in every state are those in which no
`unsubscribe` meets a config entry on an on-change pair of another client. -/
theorem agreesWithHardware_along_run_iff (lib : MathLibrary) (kind : Int → Bool)
    (as : List (Operation × VhalResult)) (s : SubscriptionManager) :
    KindRun accepting lib kind (fun _ _ t => AgreesWithHardware t) {} as s ↔
      KindRun accepting lib kind (fun s a _ => a.1.SparesSharedPairs kind s) {} as s :=
  Path.restrict_congr (I := Agreeing lib kind) (agreeing_empty lib kind)
    fun _ _ _ h hstep => h.step hstep.1 hstep.2

/-- Two clients of an on-change pair, an event for it, and one client leaves: the hardware
is unsubscribed and the other client is left without events. -/
theorem exists_run_not_agreesWithHardware :
    ∃ as s, Run accepting default {} as s ∧ (∀ a ∈ as, a.1.RespectsKind fun _ => false) ∧
      ¬AgreesWithHardware s := by
  obtain ⟨as, s, hrun, hops, hlast, hclient⟩ := exists_run_of_execute accepting default
    [.subscribe ⟨0, 1⟩ [{ propId := 1, areaIds := [0] }] false,
      .subscribe ⟨0, 2⟩ [{ propId := 1, areaIds := [0] }] false,
      .getSubscribedClients [{ prop := 1 }] (.ascending _),
      .unsubscribe 1 [1] (.ascending _)]
    (fun s => lastRequest (s.pairCalls ⟨1, 0⟩) = some .unsubscribe ∧ s.client ⟨1, 0⟩ 2 ≠ none)
    (by decide)
  refine ⟨as, s, hrun, fun a ha => ?_, fun hagree => ?_⟩
  · have hop := List.mem_map_of_mem (f := Prod.fst) ha
    rw [hops] at hop
    simp only [List.mem_cons, List.not_mem_nil, or_false] at hop
    rcases hop with h | h | h | h
    · rw [h]
      exact fun _ _ => rfl
    · rw [h]
      exact fun _ _ => rfl
    · rw [h]
      trivial
    · rw [h]
      trivial
  · obtain ⟨config, hsub⟩ := (hagree ⟨1, 0⟩).mpr ⟨2, hclient⟩
    exact absurd (hlast.symm.trans hsub) nofun

end SubscriptionManager

end VhalCore.Subscription
