import VhalCore.Models.Subscription.Interpretation.Clients

/-!
# The manager refines the subscription table

The client maps and the configs by client together are the table of the latest
subscriptions, provided every property is always used as the same kind, continuous
or on-change. The relation is kept by the event of a single pair, hence by the acts
of an operation, hence along every run, whatever the hardware answers. In a run
without a hardware failure the table is a function of the calls alone.
-/

namespace VhalCore.Subscription

open SubscriptionManager

/-- Every property named by the call is used as the kind it has. -/
def SubscriptionManager.Operation.RespectsKind (kind : Int → Bool) : Operation → Prop
  | .subscribe _ options isContinuousProperty =>
      ∀ option ∈ options, kind option.propId = isContinuousProperty
  | _ => True

/-- The checks a continuous config has passed. -/
structure SubConfig.Accepted (lib : MathLibrary) (config : SubConfig) : Prop where
  sampleRate : ∃ interval, getIntervalNanos config.sampleRateHz = some (.ok interval)
  resolution : checkResolution lib config.resolution = true

/-- An entry of the table that some call can have made. -/
structure Registration.Sound (kind : Int → Bool) (lib : MathLibrary) (p : PropIdAreaId)
    (c : ClientIdType) (r : Registration) : Prop where
  binder : r.callback.asBinder = c
  kind : r.config.isSome = kind p.propId
  accepted : ∀ config, r.config = some config → config.Accepted lib

/-- All registrations of a table are sound. -/
def Table.Sound (kind : Int → Bool) (lib : MathLibrary) (T : Table Registration) : Prop :=
  ∀ p c r, T p c = some r → r.Sound kind lib p c

/-- The state of a pair represents the entries of the clients. -/
structure PairState.Refines (x : PairState) (f : ClientIdType → Option Registration) : Prop where
  client : ∀ c, x.client c = (f c).map Registration.callback
  config : ∀ c, (x.config.getD {}).mConfigByClient.lookup c = (f c).bind Registration.config
  nonempty : x.clients ≠ some ∅
  combined : ∀ config, x.config = some config →
    config = {} ∨ config.refreshCombinedConfig = config

/-- The callbacks of a table change as the table does. -/
theorem PairEvent.map_update (e : PairEvent) (f : ClientIdType → Option Registration)
    (c : ClientIdType) :
    (e.update Registration.mk f c).map Registration.callback =
      e.update (fun callback _ => callback) (fun c => (f c).map Registration.callback) c := by
  cases e with
  | subscribed callback config | unsubscribed d =>
      simp only [update, Function.update_apply]
      split <;> rfl
  | _ => rfl

theorem ContSubConfigs.lookup_addClient (config : ContSubConfigs) (c d : ClientIdType)
    (subConfig : SubConfig) :
    (config.addClient c subConfig).mConfigByClient.lookup d =
      if d = c then some subConfig else config.mConfigByClient.lookup d :=
  UnorderedMap.lookup_insert_eq config.mConfigByClient c d subConfig

theorem ContSubConfigs.lookup_removeClient (config : ContSubConfigs) (c d : ClientIdType) :
    (config.removeClient c).mConfigByClient.lookup d =
      if d = c then none else config.mConfigByClient.lookup d :=
  UnorderedMap.lookup_erase_eq config.mConfigByClient c d

/-- The config of a pair goes with its last client. -/
theorem PairState.config_dropClient_cases (x : PairState) (c : ClientIdType) :
    ((x.dropClient c).clients = none ∧ (x.dropClient c).config = none) ∨
      (x.dropClient c).config = x.config := by
  by_cases he : (x.clients.getD ∅).erase c = ∅
  · exact Or.inl (by simp only [PairState.dropClient, he, ite_true, and_self])
  · exact Or.inr (by simp only [PairState.dropClient, he, ite_false])

/-- The configs after an event. An on-change subscription must not meet a continuous one
of the same client. -/
private theorem PairStep.config {x y : PairState} {e : PairEvent} (h : PairStep x e y)
    {f : ClientIdType → Option Registration} (hx : x.Refines f)
    (hy : ∀ c, y.client c = (e.update Registration.mk f c).map Registration.callback)
    (hkind : ∀ callback, e = .subscribed callback none →
      ∀ r, f callback.asBinder = some r → r.config = none) (c : ClientIdType) :
    (y.config.getD {}).mConfigByClient.lookup c =
      (e.update Registration.mk f c).bind Registration.config := by
  have honChange (callback : CallbackType)
      (hk : ∀ r, f callback.asBinder = some r → r.config = none) :
      (x.config.getD {}).mConfigByClient.lookup c =
        (PairEvent.update Registration.mk (.subscribed callback none) f c).bind
          Registration.config := by
    rw [hx.config]
    simp only [PairEvent.update, Function.update_apply]
    split
    · next hc =>
      subst hc
      exact Option.bind_eq_none_iff.mpr hk
    · rfl
  have hempty (hnone : y.clients = none) (hc : y.config = none) :
      (y.config.getD {}).mConfigByClient.lookup c =
        (e.update Registration.mk f c).bind Registration.config := by
    have hcl := hy c
    rw [PairState.client, hnone, Option.bind_none] at hcl
    rw [Option.map_eq_none_iff.mp hcl.symm, hc]
    rfl
  have hdropped (d : ClientIdType) (hf : x.config = none) (hc : y.config = none) :
      (y.config.getD {}).mConfigByClient.lookup c =
        (PairEvent.update Registration.mk (.unsubscribed d) f c).bind Registration.config := by
    have hcfg := hx.config c
    rw [hf] at hcfg
    rw [hc, hcfg]
    simp only [PairEvent.update, Function.update_apply]
    split
    · rw [← hcfg]
      rfl
    · rfl
  cases h with
  | onChangeKnown callback clients hc => exact honChange callback (hkind callback rfl)
  | onChangeNew callback hc => exact honChange callback (hkind callback rfl)
  | onChangeFailed => exact hx.config c
  | added callback config =>
      simp only [Option.getD_some, ContSubConfigs.lookup_addClient, PairEvent.update,
        Function.update_apply]
      split
      · rfl
      · exact hx.config c
  | addFailed => exact hx.config c
  | removed d config hc =>
      rcases PairState.config_dropClient_cases { x with
          config := some (config.removeClient d)
          calls := succeeded (updateCalls config (config.removeClient d)) ++ x.calls } d with
        ⟨h1, h2⟩ | h
      · exact hempty h1 h2
      · have hcfg := hx.config c
        rw [hc, Option.getD_some] at hcfg
        rw [h]
        simp only [Option.getD_some, ContSubConfigs.lookup_removeClient, PairEvent.update,
          Function.update_apply]
        split
        · rfl
        · exact hcfg
  | removeFailed => exact hx.config c
  | notSubscribed d hf hc => exact hdropped d hf hf
  | onChangeShared d hf clients hc hs =>
      rcases PairState.config_dropClient_cases x d with ⟨_, h⟩ | h
      · exact hdropped d hf h
      · exact hdropped d hf (h.trans hf)
  | onChangeLast d hf clients hc hs =>
      rcases PairState.config_dropClient_cases
        { x with calls := (.unsubscribe, .ok) :: x.calls } d with
        ⟨_, h⟩ | h
      · exact hdropped d hf h
      · exact hdropped d hf (h.trans hf)
  | onChangeLastFailed => exact hx.config c
  | delivered => exact hx.config c

/-- The combined values of a recorded config stay those of its clients. -/
private theorem PairStep.combined {x y : PairState} {e : PairEvent} (h : PairStep x e y)
    (hx : ∀ config, x.config = some config →
      config = {} ∨ config.refreshCombinedConfig = config) :
    ∀ config, y.config = some config → config = {} ∨ config.refreshCombinedConfig = config := by
  have hget (config : ContSubConfigs) (h : some (x.config.getD {}) = some config) :
      config = {} ∨ config.refreshCombinedConfig = config := by
    cases hc : x.config with
    | none =>
        rw [hc] at h
        exact Or.inl (Option.some.inj h).symm
    | some old =>
        rw [hc] at h
        cases h
        exact hx old hc
  have hdrop (z : PairState) (c : ClientIdType) (config : ContSubConfigs)
      (hz : ∀ config, z.config = some config →
        config = {} ∨ config.refreshCombinedConfig = config)
      (h : (z.dropClient c).config = some config) :
      config = {} ∨ config.refreshCombinedConfig = config := by
    rcases PairState.config_dropClient_cases z c with ⟨_, hn⟩ | he
    · exact absurd (hn.symm.trans h) nofun
    · exact hz config (he.symm.trans h)
  intro config hy
  cases h with
  | onChangeKnown => exact hx config hy
  | onChangeNew => exact hx config hy
  | onChangeFailed => exact hx config hy
  | added =>
      cases hy
      exact Or.inr rfl
  | addFailed => exact hget config hy
  | removed c old hc =>
      refine hdrop _ c config (fun new hnew => ?_) hy
      cases hnew
      exact Or.inr rfl
  | removeFailed => exact hx config hy
  | notSubscribed => exact hx config hy
  | onChangeShared c => exact hdrop x c config hx hy
  | onChangeLast c =>
      refine hdrop _ c config ?_ hy
      exact hx
  | onChangeLastFailed => exact hx config hy
  | delivered => exact hget config hy

/-- An event of a pair keeps the relation to the table. -/
theorem PairStep.refines {x y : PairState} {e : PairEvent} (h : PairStep x e y)
    {f : ClientIdType → Option Registration} (hx : x.Refines f)
    (hkind : ∀ callback, e = .subscribed callback none →
      ∀ r, f callback.asBinder = some r → r.config = none) :
    y.Refines (e.update Registration.mk f) := by
  have hclient (c : ClientIdType) :
      y.client c = (e.update Registration.mk f c).map Registration.callback := by
    rw [PairEvent.map_update, h.client, funext hx.client]
  exact ⟨hclient, h.config hx hclient hkind, h.clients_ne hx.nonempty, h.combined hx.combined⟩

/-- An act that can only make sound entries. -/
def Act.Sound (kind : Int → Bool) (lib : MathLibrary) (a : Act) : Prop :=
  ∀ callback config, a.2 = .subscribed callback config →
    (Registration.mk callback config).Sound kind lib a.1 callback.asBinder

/-- A sound act keeps a table sound. -/
theorem Table.Sound.act {kind : Int → Bool} {lib : MathLibrary} {T : Table Registration}
    (hT : T.Sound kind lib) {a : Act} (ha : Act.Sound kind lib a) :
    (T.act Registration.mk a).Sound kind lib := by
  intro p c r hr
  by_cases hp : p = a.1
  · subst hp
    rw [Table.act_self] at hr
    rcases a with ⟨p, e⟩
    cases e with
    | subscribed callback config =>
        simp only [PairEvent.update, Function.update_apply] at hr
        split at hr
        · next hc =>
          cases hr
          subst hc
          exact ha callback config rfl
        · exact hT p c r hr
    | unsubscribed d =>
        simp only [PairEvent.update, Function.update_apply] at hr
        split at hr
        · exact absurd hr (by rintro ⟨⟩)
        · exact hT p c r hr
    | _ => exact hT p c r hr
  · rw [Table.act_of_ne _ _ hp] at hr
    exact hT p c r hr

/-- Sound acts keep the relation between the pairs and the table. -/
theorem refines_of_acts {kind : Int → Bool} {lib : MathLibrary}
    {X Y : PropIdAreaId → PairState} {acts : List Act} (h : Path PairsStep X acts Y)
    {T : Table Registration} (hX : ∀ p, (X p).Refines (T p)) (hT : T.Sound kind lib)
    (ha : ∀ a ∈ acts, Act.Sound kind lib a) :
    (∀ p, (Y p).Refines (acts.foldl (Table.act Registration.mk) T p)) ∧
      (acts.foldl (Table.act Registration.mk) T).Sound kind lib := by
  induction h with
  | nil => exact ⟨hX, hT⟩
  | @snoc Y Z acts a _ hr ih =>
      obtain ⟨hY, hT'⟩ := ih fun b hb => ha b (List.mem_append_left _ hb)
      have hsound := ha a (List.mem_append_right _ (List.mem_singleton_self a))
      rw [List.foldl_append, List.foldl_cons, List.foldl_nil]
      refine ⟨fun p => ?_, hT'.act hsound⟩
      by_cases hp : p = a.1
      · subst hp
        rw [Table.act_self]
        refine hr.step.refines (hY a.1) fun callback hcallback r hreg => ?_
        have hk := (hsound callback none hcallback).kind
        have hk' := (hT' a.1 callback.asBinder r hreg).kind
        rw [← hk] at hk'
        exact Option.not_isSome_iff_eq_none.mp (by rw [hk']; exact nofun)
      · rw [Table.act_of_ne _ _ hp, hr.frame p hp]
        exact hY p

/-- Accepted options have accepted rates and resolutions. -/
theorem checkOptions_accepted {lib : MathLibrary} {options : List SubscribeOptions}
    (h : checkOptions lib true options = some (.ok ())) :
    ∀ option ∈ options, SubConfig.Accepted lib
      ⟨option.sampleRate, option.resolution, option.enableVariableUpdateRate⟩ := by
  induction options with
  | nil => exact nofun
  | cons option options ih =>
      simp only [checkOptions, ite_true] at h
      obtain ⟨checked, hchecked, hrest⟩ := Option.bind_eq_some_iff.mp h
      cases checked with
      | error e => exact absurd hrest nofun
      | ok u =>
          simp only at hrest
          split at hrest
          · exact absurd hrest nofun
          · intro o ho
            rcases List.mem_cons.mp ho with rfl | ho
            · rw [checkContinuousOption] at hchecked
              obtain ⟨interval, hinterval, hres⟩ := Option.map_eq_some_iff.mp hchecked
              cases interval with
              | error message => exact absurd hres nofun
              | ok interval =>
                  simp only at hres
                  split at hres
                  · next hr => exact ⟨⟨interval, hinterval⟩, hr⟩
                  · exact absurd hres nofun
            · exact ih hrest o ho

namespace SubscriptionManager

variable {hw : Nat → StatusCode} {lib : MathLibrary} {kind : Int → Bool}
variable {s t : SubscriptionManager}

/-- The turns are the areas of the options. -/
theorem mem_subscribeTurns {options : List SubscribeOptions} {turn : SubscribeOptions × Int} :
    turn ∈ subscribeTurns options ↔ turn.1 ∈ options ∧ turn.2 ∈ turn.1.areaIds := by
  simp only [subscribeTurns, List.mem_flatMap, List.mem_map]
  constructor
  · rintro ⟨option, hoption, areaId, harea, rfl⟩
    exact ⟨hoption, harea⟩
  · rintro ⟨hoption, harea⟩
    exact ⟨turn.1, hoption, turn.2, harea, rfl⟩

/-- A turn of an accepted `subscribe` that respects the kinds makes a sound entry. -/
theorem sound_subscribedAct {callback : CallbackType} {options : List SubscribeOptions}
    {isContinuousProperty : Bool}
    (hk : Operation.RespectsKind kind (.subscribe callback options isContinuousProperty))
    (hcheck : checkOptions lib isContinuousProperty options = some (.ok ()))
    {turn : SubscribeOptions × Int} (hturn : turn ∈ subscribeTurns options) :
    Act.Sound kind lib (subscribedAct callback isContinuousProperty turn) := by
  intro callback' config he
  cases he
  have hoption := (mem_subscribeTurns.mp hturn).1
  have hkind := hk turn.1 hoption
  refine ⟨rfl, ?_, fun config hconfig => ?_⟩
  · simp only [requestedConfig, subscribedAct, hkind]
    cases isContinuousProperty <;> rfl
  · cases isContinuousProperty with
    | true =>
        cases hconfig
        exact checkOptions_accepted hcheck turn.1 hoption
    | false => exact absurd hconfig (by rintro ⟨⟩)

/-- Only a turn of an accepted `subscribe` makes an entry. -/
theorem Operation.Effect.subscribed_act {op : Operation} {r : VhalResult} {acts : List Act}
    (h : op.Effect hw lib s r t acts) {a : Act} (ha : a ∈ acts) {callback : CallbackType}
    {config : Option SubConfig} (he : a.2 = .subscribed callback config) :
    ∃ options isContinuousProperty turn, op = .subscribe callback options isContinuousProperty ∧
      checkOptions lib isContinuousProperty options = some (.ok ()) ∧
      turn ∈ subscribeTurns options ∧ a = subscribedAct callback isContinuousProperty turn := by
  have hunsubscribe {c : ClientIdType} {book : PropIdAreaId → HeldPairs → HeldPairs}
      {xs done : List PropIdAreaId} {r' : VhalResult} {u : SubscriptionManager}
      (h : LoopEffect hw (unsubscribedAct c) (unsubscribeFailedAct c) book xs s r' u done acts) :
      False := by
    obtain ⟨p, _, rfl | ⟨_, first, rfl⟩⟩ := h.loop.mem ha
    · exact absurd he nofun
    · exact absurd he nofun
  cases h with
  | rejected => exact absurd ha List.not_mem_nil
  | subscribe callback' options isContinuousProperty _ _ done _ hcheck h =>
      obtain ⟨turn, hturn, rfl | ⟨_, first, rfl⟩⟩ := h.loop.mem ha
      · cases he
        exact ⟨options, isContinuousProperty, turn, rfl, hcheck, hturn, rfl⟩
      · exact absurd he nofun
  | unsubscribe _ _ _ _ _ _ _ _ h _ => exact (hunsubscribe h).elim
  | unsubscribeClientFailed _ _ _ _ _ _ h => exact (hunsubscribe h).elim
  | unsubscribeClient _ _ _ _ _ _ _ h _ => exact (hunsubscribe h).elim
  | getSubscribedClients _ _ _ _ _ _ _ hacts =>
      rw [hacts a ha] at he
      exact absurd he nofun
  | subscribeSupportedValueChange => exact absurd ha List.not_mem_nil
  | unsubscribeSupportedValueChange => exact absurd ha List.not_mem_nil

/-- A call that respects the kinds makes sound entries only. -/
theorem Operation.Effect.sound {op : Operation} {r : VhalResult} {acts : List Act}
    (h : op.Effect hw lib s r t acts) (hk : op.RespectsKind kind) :
    ∀ a ∈ acts, Act.Sound kind lib a := by
  intro a ha callback config he
  obtain ⟨options, isContinuousProperty, turn, rfl, hcheck, hturn, rfl⟩ := h.subscribed_act ha he
  exact sound_subscribedAct hk hcheck hturn callback config he

/-- The manager represents a table of sound entries. -/
structure Refines (kind : Int → Bool) (lib : MathLibrary) (s : SubscriptionManager)
    (T : Table Registration) : Prop where
  pairs : ∀ p, (s.pairState p).Refines (T p)
  covers : s.Covers T
  sound : T.Sound kind lib

/-- A new manager refines the empty table. -/
theorem refines_empty (kind : Int → Bool) (lib : MathLibrary) :
    Refines kind lib {} Table.empty where
  pairs p :=
    { client := fun c => by simp [pairState, PairState.client, Table.empty]
      config := fun c => by simp [pairState, Table.empty]
      nonempty := by simp [pairState]
      combined := fun config h => by simp [pairState] at h }
  covers _ _ h := absurd rfl h
  sound _ _ _ h := absurd h nofun

/-- A call keeps the relation to the table. -/
theorem Operation.Effect.refines {op : Operation} {r : VhalResult} {acts : List Act}
    (h : op.Effect hw lib s r t acts) (hk : op.RespectsKind kind) {T : Table Registration}
    (hs : Refines kind lib s T) :
    Refines kind lib t (acts.foldl (Table.act Registration.mk) T) := by
  obtain ⟨hpairs, hsound⟩ := refines_of_acts (h.pairs hw) hs.pairs hs.sound (h.sound hk)
  exact ⟨hpairs, h.covers Registration.mk hs.covers, hsound⟩

/-- Runs in which every property keeps its kind and every step satisfies `Q`. -/
abbrev KindRun (hw : Nat → StatusCode) (lib : MathLibrary) (kind : Int → Bool)
    (Q : SubscriptionManager → Operation × VhalResult → SubscriptionManager → Prop) :=
  Path fun s a t => (Steps hw lib s a t ∧ a.1.RespectsKind kind) ∧ Q s a t

/-- Along every run the manager refines the table, whatever the hardware answers. -/
theorem Run.refines {as : List (Operation × VhalResult)} (h : Run hw lib {} as s)
    (hk : ∀ a ∈ as, a.1.RespectsKind kind) :
    ∃ T, Path (Table.Step Registration.mk lib) Table.empty as T ∧ Refines kind lib s T := by
  induction h with
  | nil => exact ⟨Table.empty, .nil _, refines_empty kind lib⟩
  | @snoc u v as a _ hr ih =>
      obtain ⟨T, hpath, hT⟩ := ih fun b hb => hk b (List.mem_append_left _ hb)
      obtain ⟨acts, heff⟩ := step_effect hw hr
      have hka := hk a (List.mem_append_right _ (List.mem_singleton_self a))
      refine ⟨_, .snoc hpath ?_, heff.refines hka hT⟩
      rcases a with ⟨op, r⟩
      rcases heff.table Registration.mk hT.covers with hfull | ⟨_, ⟨e, he⟩, hpart⟩
      · rw [hfull]
        exact .complete op r
      · cases he
        exact .interrupted op e _ hpart

/-- Without a hardware failure the table is a function of the calls. -/
theorem Run.refines_ok {as : List (Operation × VhalResult)} (h : Run hw lib {} as s)
    (hk : ∀ a ∈ as, a.1.RespectsKind kind) (hok : ∀ n, hw n = .ok) :
    Refines kind lib s (as.foldl (fun T a => T.apply Registration.mk lib a.1) Table.empty) := by
  induction h with
  | nil => exact refines_empty kind lib
  | @snoc u v as a _ hr ih =>
      have hT := ih fun b hb => hk b (List.mem_append_left _ hb)
      obtain ⟨acts, heff⟩ := step_effect hw hr
      have hka := hk a (List.mem_append_right _ (List.mem_singleton_self a))
      have hnext := heff.refines hka hT
      rw [List.foldl_append, List.foldl_cons, List.foldl_nil]
      rcases heff.table Registration.mk hT.covers with hfull | ⟨⟨n, hn⟩, _⟩
      · rwa [hfull] at hnext
      · exact absurd (hok n) hn

end SubscriptionManager

end VhalCore.Subscription
