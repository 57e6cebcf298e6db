import VhalCore.Models.Subscription.Interpretation.Combination

/-!
# Aggregation of continuous subscriptions

While the hardware accepts every call, a continuous pair with a client is known to
the hardware by the aggregate of its clients' latest subscriptions, although it is
called only when a combined value changes; a pair without a client was last
unsubscribed. The step lemma is about one event of a pair, the run lemma about the
subscription table that the calls of the run build.
-/

namespace VhalCore.Subscription

open SubscriptionManager

/-- The options of the latest `subscribe` call. -/
def lastOptions (calls : List (PairCall × StatusCode)) : Option SubConfig :=
  calls.findSome? fun e => match e.1 with
    | .subscribe config => some config
    | _ => none

/-- The rate of the latest `updateSampleRate` call. -/
def lastSampleRate (calls : List (PairCall × StatusCode)) : Option Binary32 :=
  calls.findSome? fun e => match e.1 with
    | .updateSampleRate sampleRateHz => some sampleRateHz
    | _ => none

/-- An event in which the hardware refused a call. -/
def PairEvent.failed : PairEvent → Bool
  | .subscribeFailed _ _ _ => true
  | .unsubscribeFailed _ _ => true
  | _ => false

/-- Without a hardware failure no act fails. -/
theorem SubscriptionManager.Operation.Effect.not_failed {hw : Nat → StatusCode}
    {lib : MathLibrary} {s t : SubscriptionManager} {op : Operation} {r : VhalResult}
    {acts : List Act} (h : op.Effect hw lib s r t acts) (hok : ∀ n, hw n = .ok) :
    ∀ a ∈ acts, a.2.failed = false := by
  have hloop {α : Type} {good : α → Act} {bad : α → Bool → Act}
      {book : α → HeldPairs → HeldPairs} {xs done : List α} {r' : VhalResult}
      {u : SubscriptionManager} (h : LoopEffect hw good bad book xs s r' u done acts)
      (hgood : ∀ x, (good x).2.failed = false) : ∀ a ∈ acts, a.2.failed = false := by
    intro a ha
    obtain ⟨x, _, rfl | ⟨⟨e, he⟩, _⟩⟩ := h.loop.mem ha
    · exact hgood x
    · obtain ⟨n, hn⟩ := h.failed e he
      exact absurd (hok n) hn
  cases h with
  | rejected => exact fun _ h => absurd h List.not_mem_nil
  | subscribe _ _ _ _ _ _ _ _ h => exact hloop h fun _ => rfl
  | unsubscribe _ _ _ _ _ _ _ _ h => exact hloop h fun _ => rfl
  | unsubscribeClientFailed _ _ _ _ _ _ h => exact hloop h fun _ => rfl
  | unsubscribeClient _ _ _ _ _ _ _ h => exact hloop h fun _ => rfl
  | getSubscribedClients _ _ _ _ _ _ _ hacts =>
      intro a ha
      rw [hacts a ha]
      rfl
  | subscribeSupportedValueChange => exact fun _ h => absurd h List.not_mem_nil
  | unsubscribeSupportedValueChange => exact fun _ h => absurd h List.not_mem_nil

/-- The calls of an update: none if no combined value changes, else the new options and,
before them, the new rate if it is another one. -/
theorem updateCalls_eq {old new : ContSubConfigs}
    (hnew : new.mMaxSampleRateHz ≠ .nan ∧ new.mMinRequiredResolution ≠ .nan) :
    updateCalls old new =
      if new.combined = old.combined then []
      else (if new.mMaxSampleRateHz = .zero then .unsubscribe else .subscribe new.combined) ::
        if new.mMaxSampleRateHz = old.mMaxSampleRateHz then []
        else [.updateSampleRate new.mMaxSampleRateHz] := by
  have heq (a b : Binary32) (ha : a ≠ .nan) : a.eq b = true ↔ a = b := by
    rw [Binary32.eq_iff, and_iff_left ha]
  simp only [updateCalls, ContSubConfigs.getMaxSampleRateHz,
    ContSubConfigs.getMinRequiredResolution, ContSubConfigs.isVurEnabled, Bool.and_eq_true,
    heq _ _ hnew.1, heq _ _ hnew.2, beq_iff_eq, ContSubConfigs.combined, SubConfig.mk.injEq,
    and_assoc]

/-- A continuous pair in step with the hardware. -/
structure PairState.InStep (x : PairState) : Prop where
  idle : x.config = none → x.clients = none ∧ ∀ e, x.calls.head? = some e → e.1 = .unsubscribe
  active : ∀ config, x.config = some config → config.mConfigByClient ≠ ∅ ∧
    x.calls.head? = some (.subscribe config.combined, .ok) ∧
    lastSampleRate x.calls = some config.mMaxSampleRateHz

/-- The registrations of a continuous pair. -/
def ContinuousClients (lib : MathLibrary) (f : ClientIdType → Option Registration) : Prop :=
  ∀ c r, f c = some r → ∃ config, r.config = some config ∧ config.Accepted lib

/-- After a successful update to a config with clients, the pair is in step with it. -/
private theorem inStep_update {old new : ContSubConfigs} {calls : List (PairCall × StatusCode)}
    (hnew : new.mMaxSampleRateHz ≠ .nan ∧ new.mMinRequiredResolution ≠ .nan)
    (hrate : new.mMaxSampleRateHz ≠ .zero)
    (hold : old.mMaxSampleRateHz = .zero ∨
      calls.head? = some (.subscribe old.combined, .ok) ∧
        lastSampleRate calls = some old.mMaxSampleRateHz) :
    (succeeded (updateCalls old new) ++ calls).head? = some (.subscribe new.combined, .ok) ∧
      lastSampleRate (succeeded (updateCalls old new) ++ calls) =
        some new.mMaxSampleRateHz := by
  have hsame (h : new.mMaxSampleRateHz = old.mMaxSampleRateHz) :
      calls.head? = some (.subscribe old.combined, .ok) ∧
        lastSampleRate calls = some new.mMaxSampleRateHz := by
    rw [h]
    exact hold.resolve_left fun hz => hrate (h.trans hz)
  rw [updateCalls_eq hnew]
  by_cases hcombined : new.combined = old.combined
  · rw [if_pos hcombined, hcombined]
    exact hsame (congrArg SubConfig.sampleRateHz hcombined)
  · rw [if_neg hcombined, if_neg hrate]
    refine ⟨rfl, ?_⟩
    by_cases hr : new.mMaxSampleRateHz = old.mMaxSampleRateHz
    · rw [if_pos hr]
      exact (hsame hr).2
    · rw [if_neg hr]
      rfl

/-- The configs of a pair with continuous clients are those of its clients. -/
private theorem aggregate_of_clients {lib : MathLibrary} {f : ClientIdType → Option Registration}
    (hf : ContinuousClients lib f) {config : ContSubConfigs}
    (hlookup : ∀ c, config.mConfigByClient.lookup c = (f c).bind Registration.config)
    (hne : config.mConfigByClient ≠ ∅) (hrefresh : config.refreshCombinedConfig = config) :
    IsAggregate (fun c => (f c).bind Registration.config) config.combined ∧
      config.mMaxSampleRateHz ≠ .zero := by
  have hacc (c : ClientIdType) (sub : SubConfig)
      (h : config.mConfigByClient.lookup c = some sub) : sub.Accepted lib := by
    rw [hlookup] at h
    obtain ⟨r, hr, hsub⟩ := Option.bind_eq_some_iff.mp h
    obtain ⟨sub', hsub', haccept⟩ := hf c r hr
    cases hsub.symm.trans hsub'
    exact haccept
  have hagg := isAggregate_combine hne hacc
  rw [ContSubConfigs.combined, ← hrefresh, ← funext hlookup]
  exact hagg

theorem ContSubConfigs.addClient_ne_empty (config : ContSubConfigs) (c : ClientIdType)
    (subConfig : SubConfig) : (config.addClient c subConfig).mConfigByClient ≠ ∅ :=
  (UnorderedMap.ne_empty_iff _).mpr
    ⟨c, subConfig, by rw [ContSubConfigs.lookup_addClient, if_pos rfl]⟩

/-- A pair that a continuous client joins has a positive rate. -/
theorem addClient_rate_ne_zero {lib : MathLibrary} {x : PairState}
    {f : ClientIdType → Option Registration} (hx : x.Refines f) {callback : CallbackType}
    {config : SubConfig} (hf : ContinuousClients lib
      (PairEvent.update Registration.mk (.subscribed callback (some config)) f)) :
    ((x.config.getD {}).addClient callback.asBinder config).mMaxSampleRateHz ≠ .zero := by
  refine (aggregate_of_clients hf (fun c => ?_)
    (ContSubConfigs.addClient_ne_empty (x.config.getD {}) callback.asBinder config) rfl).2
  simp only [ContSubConfigs.lookup_addClient, PairEvent.update, Function.update_apply]
  split
  · rfl
  · exact hx.config c

/-- A client that leaves a continuous pair takes the last config along, and the rate
drops to zero, or leaves some client behind, and the rate stays positive. -/
theorem removeClient_cases {lib : MathLibrary} {x : PairState}
    {f : ClientIdType → Option Registration} {old : ContSubConfigs} (c : ClientIdType)
    (hx : x.Refines f) (hf : ContinuousClients lib f) (hc : x.config = some old)
    (hne : old.mConfigByClient ≠ ∅) :
    ((x.clients.getD ∅).erase c = ∅ ∧ (old.removeClient c).mMaxSampleRateHz = .zero ∧
      (old.removeClient c).combined ≠ old.combined) ∨
    (x.clients.getD ∅).erase c ≠ ∅ ∧ (old.removeClient c).mConfigByClient ≠ ∅ ∧
      (old.removeClient c).mMaxSampleRateHz ≠ .zero := by
  have hlookupOld (d : ClientIdType) :
      old.mConfigByClient.lookup d = (f d).bind Registration.config := by
    have h := hx.config d
    rwa [hc] at h
  have hrefresh : old.refreshCombinedConfig = old :=
    (hx.combined old hc).resolve_left fun h => hne (h ▸ rfl)
  have hf' : ContinuousClients lib (Function.update f c none) := by
    intro d r hr
    rw [Function.update_apply] at hr
    split at hr
    · exact absurd hr nofun
    · exact hf d r hr
  have hlookup (d : ClientIdType) : (old.removeClient c).mConfigByClient.lookup d =
      (Function.update f c none d).bind Registration.config := by
    rw [ContSubConfigs.lookup_removeClient, Function.update_apply]
    split
    · rfl
    · exact hlookupOld d
  have hclient (d : ClientIdType) : Finmap.lookup d ((x.clients.getD ∅).erase c) =
      (Function.update f c none d).map Registration.callback := by
    rw [UnorderedMap.lookup_erase_eq, Function.update_apply]
    split
    · rfl
    · rw [← hx.client d, PairState.client]
      cases x.clients <;> rfl
  by_cases hempty : (x.clients.getD ∅).erase c = ∅
  · have hnone (d : ClientIdType) : Function.update f c none d = none := by
      have h := hclient d
      rw [hempty, Finmap.lookup_empty] at h
      exact Option.map_eq_none_iff.mp h.symm
    have hnoConfig : old.mConfigByClient.erase c = ∅ := by
      refine (UnorderedMap.eq_empty_iff _).mpr fun d => ?_
      have h := hlookup d
      rwa [hnone d] at h
    have hzero : (old.removeClient c).mMaxSampleRateHz = .zero := by
      change (combine (old.mConfigByClient.erase c)).maxSampleRateHz = .zero
      rw [hnoConfig, combine_empty]
    have hpos := (aggregate_of_clients hf hlookupOld hne hrefresh).2
    exact Or.inl ⟨hempty, hzero, fun h =>
      hpos ((congrArg SubConfig.sampleRateHz h).symm.trans hzero)⟩
  · obtain ⟨d, k, hd⟩ := (UnorderedMap.ne_empty_iff _).mp hempty
    rw [hclient] at hd
    obtain ⟨r, hr, _⟩ := Option.map_eq_some_iff.mp hd
    obtain ⟨config, hconfig, _⟩ := hf' d r hr
    have hne' : (old.removeClient c).mConfigByClient ≠ ∅ := by
      refine (UnorderedMap.ne_empty_iff _).mpr ⟨d, config, ?_⟩
      rw [hlookup, hr, Option.bind_some, hconfig]
    exact Or.inr ⟨hempty, hne', (aggregate_of_clients hf' hlookup hne' rfl).2⟩

/-- A client that leaves a pair in step takes the pair along or leaves it in step. -/
private theorem inStep_removed {lib : MathLibrary} {x : PairState}
    {f : ClientIdType → Option Registration} {c : ClientIdType} {old : ContSubConfigs}
    (hx : x.Refines f) (hf : ContinuousClients lib f) (hs : x.InStep) (hc : x.config = some old) :
    (PairState.dropClient { x with
      config := some (old.removeClient c)
      calls := succeeded (updateCalls old (old.removeClient c)) ++ x.calls } c).InStep := by
  obtain ⟨hne, hhead, hlast⟩ := hs.active old hc
  have hnew := combine_ne_nan (old.mConfigByClient.erase c)
  rcases removeClient_cases c hx hf hc hne with
    ⟨hempty, hzero, hchange⟩ | ⟨hempty, hne', hrate⟩
  · simp only [PairState.dropClient, hempty, ite_true]
    refine ⟨fun _ => ⟨rfl, fun e he => ?_⟩, fun config hconfig => absurd hconfig (by rintro ⟨⟩)⟩
    rw [updateCalls_eq hnew, if_neg hchange, if_pos hzero] at he
    cases he
    rfl
  · simp only [PairState.dropClient, hempty, ite_false]
    refine ⟨fun h => absurd h (by rintro ⟨⟩), fun config hconfig => ?_⟩
    cases hconfig
    exact ⟨hne', inStep_update hnew hrate (Or.inr ⟨hhead, hlast⟩)⟩

/-- A successful event of a continuous pair keeps it in step with the hardware. -/
theorem PairStep.inStep {lib : MathLibrary} {x y : PairState} {e : PairEvent}
    (h : PairStep x e y) {f : ClientIdType → Option Registration} (hx : x.Refines f)
    (hf : ContinuousClients lib f) (hf' : ContinuousClients lib (e.update Registration.mk f))
    (hfail : e.failed = false) (hkind : ∀ callback, e ≠ .subscribed callback none)
    (hs : x.InStep) : y.InStep := by
  cases h with
  | onChangeKnown callback => exact absurd rfl (hkind callback)
  | onChangeNew callback => exact absurd rfl (hkind callback)
  | onChangeFailed => exact absurd hfail nofun
  | added callback config =>
      have hne := ContSubConfigs.addClient_ne_empty (x.config.getD {}) callback.asBinder config
      refine ⟨fun h => absurd h nofun, fun new hnew => ?_⟩
      cases hnew
      refine ⟨hne, inStep_update (combine_ne_nan _) (addClient_rate_ne_zero hx hf') ?_⟩
      cases hc : x.config with
      | none => exact Or.inl rfl
      | some old => exact Or.inr (hs.active old hc).2
  | addFailed => exact absurd hfail nofun
  | removed c old hc => exact inStep_removed hx hf hs hc
  | removeFailed => exact absurd hfail nofun
  | notSubscribed => exact hs
  | onChangeShared c hn clients hc => exact absurd ((hs.idle hn).1.symm.trans hc) nofun
  | onChangeLast c hn clients hc => exact absurd ((hs.idle hn).1.symm.trans hc) nofun
  | onChangeLastFailed => exact absurd hfail nofun
  | delivered clients hc =>
      cases hconfig : x.config with
      | none => exact absurd ((hs.idle hconfig).1.symm.trans hc) nofun
      | some config =>
          refine ⟨fun h => absurd h nofun, fun new hnew => ?_⟩
          cases hnew
          exact hs.active config hconfig

namespace SubscriptionManager

variable {hw : Nat → StatusCode} {lib : MathLibrary} {kind : Int → Bool}
variable {s : SubscriptionManager}

/-- The registrations of a continuous pair stay continuous under sound events. -/
theorem continuousClients_update {f : ClientIdType → Option Registration}
    (hf : ContinuousClients lib f) {p : PropIdAreaId} (hp : kind p.propId = true) {e : PairEvent}
    (he : Act.Sound kind lib (p, e)) : ContinuousClients lib (e.update Registration.mk f) := by
  cases e with
  | subscribed callback config =>
      intro c r hr
      simp only [PairEvent.update, Function.update_apply] at hr
      split at hr
      · cases hr
        have hsound := he callback config rfl
        have hsome := hsound.kind
        rw [hp] at hsome
        obtain ⟨config', hconfig'⟩ := Option.isSome_iff_exists.mp hsome
        exact ⟨config', hconfig', hsound.accepted config' hconfig'⟩
      · exact hf c r hr
  | unsubscribed d =>
      intro c r hr
      simp only [PairEvent.update, Function.update_apply] at hr
      split at hr
      · exact absurd hr (by rintro ⟨⟩)
      · exact hf c r hr
  | subscribeFailed => exact hf
  | unsubscribeFailed => exact hf
  | delivered => exact hf

/-- Without a hardware failure every continuous pair is in step with the hardware. -/
theorem Run.inStep {as : List (Operation × VhalResult)} (h : Run hw lib {} as s)
    (hk : ∀ a ∈ as, a.1.RespectsKind kind) (hok : ∀ n, hw n = .ok) {p : PropIdAreaId}
    (hp : kind p.propId = true) : (s.pairState p).InStep := by
  have hinv : ∃ f, (s.pairState p).Refines f ∧ ContinuousClients lib f ∧
      (s.pairState p).InStep := by
    refine Run.pair_invariant hw h p (P := fun x => ∃ f, x.Refines f ∧ ContinuousClients lib f ∧
      x.InStep) ⟨fun _ => none, ?_, nofun, ?_⟩ ?_
    · rw [← pairState_empty p]
      exact (refines_empty kind lib).pairs p
    · exact ⟨fun _ => ⟨rfl, nofun⟩, nofun⟩
    · rintro a ha s r t acts heff x e y he ⟨f, hx, hf, hs⟩ hstep
      have hsound := heff.sound (hk a ha) (p, e) he
      have hf' := continuousClients_update hf hp hsound
      have hkind (callback : CallbackType) : e ≠ .subscribed callback none := by
        intro hcontra
        have h := (hsound callback none hcontra).kind
        rw [hp] at h
        exact absurd h nofun
      exact ⟨_, hstep.refines hx fun callback hcontra => absurd hcontra (hkind callback), hf',
        hstep.inStep hx hf hf' (heff.not_failed hok (p, e) he) hkind hs⟩
  obtain ⟨_, _, _, h⟩ := hinv
  exact h

/-- In every run without a hardware failure, a continuous pair with a client is
subscribed with the aggregate of its clients' latest subscriptions, at the rate last
passed to the hardware; the last call for a pair without a client was to unsubscribe. -/
theorem hardware_options_of_run (hw : Nat → StatusCode) (lib : MathLibrary) (kind : Int → Bool)
    (as : List (Operation × VhalResult)) (s : SubscriptionManager)
    (h : Run hw lib {} as s) (hk : ∀ a ∈ as, a.1.RespectsKind kind) (hok : ∀ n, hw n = .ok)
    (p : PropIdAreaId) (hp : kind p.propId = true) :
    let T := as.foldl (fun T a => T.apply Registration.mk lib a.1) Table.empty
    (∀ c, s.client p c = (T p c).map Registration.callback) ∧
    ((∃ c, s.client p c ≠ none) → ∃ combined,
      IsAggregate (fun c => (T p c).bind Registration.config) combined ∧
      (s.pairCalls p).head? = some (.subscribe combined, .ok) ∧
      lastOptions (s.pairCalls p) = some combined ∧
      lastSampleRate (s.pairCalls p) = some combined.sampleRateHz) ∧
    ((∀ c, s.client p c = none) →
      ∀ e, (s.pairCalls p).head? = some e → e.1 = .unsubscribe) := by
  intro T
  have hT : Refines kind lib s T := Run.refines_ok h hk hok
  have hstep := Run.inStep h hk hok hp
  have hf : ContinuousClients lib (T p) := by
    intro c r hr
    have hsound := hT.sound p c r hr
    have hsome := hsound.kind
    rw [hp] at hsome
    obtain ⟨config, hconfig⟩ := Option.isSome_iff_exists.mp hsome
    exact ⟨config, hconfig, hsound.accepted config hconfig⟩
  refine ⟨(hT.pairs p).client, ?_, ?_⟩
  · rintro ⟨c, hc⟩
    cases hconfig : (s.pairState p).config with
    | none =>
        refine absurd ?_ hc
        change (s.pairState p).client c = none
        rw [PairState.client, (hstep.idle hconfig).1, Option.bind_none]
    | some config =>
        obtain ⟨hne, hhead, hrate⟩ := hstep.active config hconfig
        have hlookup (d : ClientIdType) :
            config.mConfigByClient.lookup d = (T p d).bind Registration.config := by
          have h := (hT.pairs p).config d
          rwa [hconfig] at h
        have hrefresh := ((hT.pairs p).combined config hconfig).resolve_left fun h => hne (h ▸ rfl)
        refine ⟨config.combined, (aggregate_of_clients hf hlookup hne hrefresh).1, hhead, ?_, hrate⟩
        change (s.pairCalls p).head? = _ at hhead
        cases hcalls : s.pairCalls p with
        | nil =>
            rw [hcalls] at hhead
            exact absurd hhead (by rintro ⟨⟩)
        | cons e calls =>
            rw [hcalls] at hhead
            cases hhead
            rfl
  · intro hnone
    cases hconfig : (s.pairState p).config with
    | none => exact (hstep.idle hconfig).2
    | some config =>
        obtain ⟨hne, _⟩ := hstep.active config hconfig
        obtain ⟨c, sub, hsub⟩ := (UnorderedMap.ne_empty_iff _).mp hne
        have h := (hT.pairs p).config c
        rw [hconfig, Option.getD_some, hsub] at h
        obtain ⟨r, hr, _⟩ := Option.bind_eq_some_iff.mp h.symm
        have hclient := (hT.pairs p).client c
        rw [hr] at hclient
        exact absurd ((hnone c).symm.trans hclient) (by rintro ⟨⟩)

/-- Two clients of one pair, the first of which subscribes again at a higher rate. -/
theorem hardware_options_of_two_clients :
    ∃ as s combined, Run (fun _ => .ok) default {} as s ∧
      lastOptions (s.pairCalls ⟨1, 0⟩) = some combined ∧
      IsAggregate (fun c => (as.foldl (fun T a => T.apply Registration.mk default a.1)
        Table.empty ⟨1, 0⟩ c).bind Registration.config) combined := by
  obtain ⟨as, s, hrun, hops, hclient⟩ := exists_run_of_execute (fun _ => .ok) default
    [.subscribe ⟨0, 1⟩ [newSubscribeOptions 1 0 (.ofInt 10) .zero false] true,
      .subscribe ⟨0, 2⟩ [newSubscribeOptions 1 0 (.ofInt 20) .zero true] true,
      .subscribe ⟨0, 1⟩ [newSubscribeOptions 1 0 (.ofInt 30) .zero false] true]
    (fun s => s.client ⟨1, 0⟩ 1 ≠ none) (by decide)
  have hk : ∀ a ∈ as, a.1.RespectsKind fun _ => true := by
    intro a ha
    have hop := List.mem_map_of_mem (f := Prod.fst) ha
    rw [hops] at hop
    simp only [List.mem_cons, List.not_mem_nil, or_false] at hop
    rcases hop with h | h | h <;> (rw [h]; exact fun _ _ => rfl)
  obtain ⟨_, hactive, _⟩ := hardware_options_of_run (fun _ => .ok) default (fun _ => true) as s
    hrun hk (fun _ => rfl) ⟨1, 0⟩ rfl
  obtain ⟨combined, hagg, _, hoptions, _⟩ := hactive ⟨1, hclient⟩
  exact ⟨as, s, combined, hrun, hoptions, hagg⟩

end SubscriptionManager

end VhalCore.Subscription
