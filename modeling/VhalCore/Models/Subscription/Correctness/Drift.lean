import VhalCore.Models.Subscription.Correctness.Aggregation
import VhalCore.Models.Subscription.Correctness.BookKeeping

/-!
# Drift between the recorded and the accepted options

A turn of a continuous pair makes up to two hardware calls and records the new config
only after both. If the first call is refused and the pair has an entry, nothing has
changed on either side. Otherwise the two sides drift apart: the rate accepted by the
first call is not recorded, or the entry created for the pair stays behind.
-/

namespace VhalCore.Subscription

open SubscriptionManager

/-- The options the hardware has for a pair from the calls it accepted. -/
def acceptedConfig : List (PairCall × StatusCode) → Option SubConfig
  | [] => none
  | (call, status) :: calls =>
      if status = .ok then
        match call with
        | .subscribe config => some config
        | .unsubscribe => none
        | .updateSampleRate sampleRateHz =>
            (acceptedConfig calls).map fun config => { config with sampleRateHz := sampleRateHz }
      else acceptedConfig calls

/-- A refused call changes nothing in the hardware. -/
theorem acceptedConfig_refused {status : StatusCode} (hs : status ≠ .ok) (call : PairCall)
    (calls : List (PairCall × StatusCode)) :
    acceptedConfig ((call, status) :: calls) = acceptedConfig calls := by
  cases call <;> simp only [acceptedConfig, if_neg hs]

/-- An update whose calls are all accepted brings the hardware to the new config. -/
theorem acceptedConfig_update {old new : ContSubConfigs} {calls : List (PairCall × StatusCode)}
    (hnew : new.mMaxSampleRateHz ≠ .nan ∧ new.mMinRequiredResolution ≠ .nan)
    (hold : acceptedConfig calls =
      if old.mMaxSampleRateHz = .zero then none else some old.combined) :
    acceptedConfig (succeeded (updateCalls old new) ++ calls) =
      if new.mMaxSampleRateHz = .zero then none else some new.combined := by
  rw [updateCalls_eq hnew]
  by_cases hcombined : new.combined = old.combined
  · have hrate : new.mMaxSampleRateHz = old.mMaxSampleRateHz :=
      congrArg SubConfig.sampleRateHz hcombined
    rw [if_pos hcombined, hcombined, hrate]
    exact hold
  · rw [if_neg hcombined]
    by_cases hz : new.mMaxSampleRateHz = .zero
    · rw [if_pos hz, if_pos hz]
      rfl
    · rw [if_neg hz, if_neg hz]
      rfl

/-- The calls made before a refused one: none, or the change of the rate alone. -/
theorem updateCalls_split {old new : ContSubConfigs} {later done : List PairCall}
    {call : PairCall}
    (hnew : new.mMaxSampleRateHz ≠ .nan ∧ new.mMinRequiredResolution ≠ .nan)
    (hu : updateCalls old new = later ++ call :: done) :
    done = [] ∨ done = [.updateSampleRate new.mMaxSampleRateHz] ∧
      new.mMaxSampleRateHz ≠ old.mMaxSampleRateHz := by
  rw [updateCalls_eq hnew] at hu
  split at hu
  · exact absurd hu (by simp)
  · cases later with
    | nil =>
        have htail := (List.cons.inj hu).2
        split at htail
        · exact Or.inl htail.symm
        · next hrate => exact Or.inr ⟨htail.symm, hrate⟩
    | cons first later =>
        have htail := (List.cons.inj hu).2
        split at htail
        · exact absurd htail (by simp)
        · cases later with
          | nil => exact Or.inl (List.cons.inj htail).2.symm
          | cons second later => exact absurd (List.cons.inj htail).2 (by simp)

/-- A continuous pair whose recorded options are those of the hardware. -/
structure PairState.Tracked (x : PairState) : Prop where
  idle : x.config = none → x.clients = none
  active : ∀ config, x.config = some config →
    config.mConfigByClient ≠ ∅ ∧ config.mMaxSampleRateHz ≠ .zero
  hardware : acceptedConfig x.calls = x.config.map ContSubConfigs.combined

/-- A failure left the entry of the pair as it was and equal to the options of the
hardware. -/
structure PairState.KeptOnFailure (x y : PairState) : Prop where
  entry : y.config = x.config
  recorded : y.config.map ContSubConfigs.combined = acceptedConfig y.calls

/-- Whether the refused call was the first one of its turn. -/
def PairEvent.first : PairEvent → Bool
  | .subscribeFailed _ _ first => first
  | .unsubscribeFailed _ first => first
  | _ => true

private theorem kept_iff_isEmpty {x y : PairState} {old new : ContSubConfigs}
    {later done : List PairCall} {call : PairCall} {status : StatusCode} (hs : x.Tracked)
    (hc : x.config = some old) (hst : status ≠ .ok)
    (hnew : new.mMaxSampleRateHz ≠ .nan ∧ new.mMinRequiredResolution ≠ .nan)
    (hu : updateCalls old new = later ++ call :: done) (hy : y.config = some old)
    (hcalls : y.calls = (call, status) :: (succeeded done ++ x.calls)) :
    x.KeptOnFailure y ↔ done.isEmpty = true := by
  have hold : acceptedConfig x.calls = some old.combined := by
    rw [hs.hardware, hc, Option.map_some]
  have haccepted : acceptedConfig y.calls = acceptedConfig (succeeded done ++ x.calls) := by
    rw [hcalls, acceptedConfig_refused hst]
  rcases updateCalls_split hnew hu with rfl | ⟨rfl, hrate⟩
  · refine iff_of_true ⟨hy.trans hc.symm, ?_⟩ rfl
    rw [hy, haccepted]
    exact hold.symm
  · refine iff_of_false (fun hkept => ?_) (by simp)
    have hrecorded := hkept.recorded
    rw [hy, haccepted] at hrecorded
    have hupdate : acceptedConfig (succeeded [.updateSampleRate new.mMaxSampleRateHz] ++ x.calls) =
        some { old.combined with sampleRateHz := new.mMaxSampleRateHz } := by
      rw [succeeded, List.map_cons, List.map_nil, List.singleton_append, acceptedConfig,
        if_pos rfl, hold, Option.map_some]
    rw [hupdate, Option.map_some, Option.some.injEq] at hrecorded
    exact hrate (congrArg SubConfig.sampleRateHz hrecorded).symm

/-- A failed turn of a continuous pair causes no drift exactly when the pair had an entry
and the first call was refused. -/
theorem PairStep.keptOnFailure_iff {x y : PairState} {e : PairEvent} (h : PairStep x e y)
    (hs : x.Tracked) (hfail : e.failed = true)
    (hkind : ∀ callback first, e ≠ .subscribeFailed callback none first) :
    x.KeptOnFailure y ↔ x.config ≠ none ∧ e.first = true := by
  cases h with
  | onChangeFailed callback => exact absurd rfl (hkind callback true)
  | addFailed callback config later done call hu status hst =>
      cases hc : x.config with
      | none =>
          refine iff_of_false (fun hkept => ?_) fun hn => hn.1 rfl
          have hentry := hkept.entry
          rw [hc] at hentry
          cases hentry
      | some old =>
          rw [hc] at hu
          refine (kept_iff_isEmpty hs hc hst (combine_ne_nan _) hu rfl rfl).trans ?_
          simp [PairEvent.first]
  | removeFailed c old hc later done call hu status hst =>
      refine (kept_iff_isEmpty (y := { x with
        calls := (call, status) :: (succeeded done ++ x.calls) }) hs hc hst (combine_ne_nan _) hu hc
        rfl).trans ?_
      simp [PairEvent.first, hc]
  | onChangeLastFailed c hf clients hc =>
      rw [hs.idle hf] at hc
      cases hc
  | _ => simp [PairEvent.failed] at hfail

/-- An event of a continuous pair keeps the recorded options those of the hardware, if it
succeeds or fails without drift. -/
theorem PairStep.tracked {lib : MathLibrary} {x y : PairState} {e : PairEvent}
    (h : PairStep x e y) {f : ClientIdType → Option Registration} (hx : x.Refines f)
    (hf : ContinuousClients lib f) (hf' : ContinuousClients lib (e.update Registration.mk f))
    (hkind : ∀ callback, e ≠ .subscribed callback none)
    (hkept : e.failed = true → x.KeptOnFailure y) (hs : x.Tracked) : y.Tracked := by
  have hfailed (hfail : e.failed = true) (hclients : y.clients = x.clients) : y.Tracked := by
    have hk := hkept hfail
    refine ⟨fun hn => ?_, fun config hc => ?_, hk.recorded.symm⟩
    · rw [hclients]
      exact hs.idle (hk.entry ▸ hn)
    · exact hs.active config (hk.entry ▸ hc)
  cases h with
  | onChangeKnown callback => exact absurd rfl (hkind callback)
  | onChangeNew callback => exact absurd rfl (hkind callback)
  | onChangeFailed => exact hfailed rfl rfl
  | added callback config =>
      have hrate := addClient_rate_ne_zero hx hf'
      refine ⟨fun hn => absurd hn (by simp), fun new hnew => ?_, ?_⟩
      · cases hnew
        exact ⟨ContSubConfigs.addClient_ne_empty _ _ _, hrate⟩
      · refine (acceptedConfig_update (combine_ne_nan _) ?_).trans (if_neg hrate)
        rw [hs.hardware]
        cases hc : x.config with
        | none => rfl
        | some old =>
            rw [Option.getD_some, if_neg (hs.active old hc).2, Option.map_some]
  | addFailed => exact hfailed rfl rfl
  | removed c old hc =>
      obtain ⟨hne, hrateOld⟩ := hs.active old hc
      have haccepted : acceptedConfig x.calls =
          if old.mMaxSampleRateHz = .zero then none else some old.combined := by
        rw [hs.hardware, hc, if_neg hrateOld, Option.map_some]
      have hupdate := @acceptedConfig_update _ (old.removeClient c) _ (combine_ne_nan _) haccepted
      rcases removeClient_cases c hx hf hc hne with ⟨hempty, hzero, _⟩ | ⟨hempty, hne', hrate⟩
      · simp only [PairState.dropClient, hempty, ite_true]
        refine ⟨fun _ => rfl, fun config hconfig => absurd hconfig (by simp), ?_⟩
        rw [hupdate, if_pos hzero, Option.map_none]
      · simp only [PairState.dropClient, hempty, ite_false]
        refine ⟨fun hn => absurd hn (by simp), fun config hconfig => ?_, ?_⟩
        · cases hconfig
          exact ⟨hne', hrate⟩
        · rw [hupdate, if_neg hrate, Option.map_some]
  | removeFailed => exact hfailed rfl rfl
  | notSubscribed => exact hs
  | onChangeShared c hn clients hc => exact absurd ((hs.idle hn).symm.trans hc) (by rintro ⟨⟩)
  | onChangeLast c hn clients hc => exact absurd ((hs.idle hn).symm.trans hc) (by rintro ⟨⟩)
  | onChangeLastFailed => exact hfailed rfl rfl
  | delivered clients hc =>
      cases hconfig : x.config with
      | none => exact absurd ((hs.idle hconfig).symm.trans hc) (by rintro ⟨⟩)
      | some config =>
          refine ⟨fun hn => absurd hn (by simp), fun new hnew => ?_, ?_⟩
          · cases hnew
            exact hs.active config hconfig
          · rw [hs.hardware, hconfig]
            rfl

namespace SubscriptionManager

variable {hw : Nat → StatusCode} {lib : MathLibrary} {kind : Int → Bool}
variable {s t : SubscriptionManager}

/-- Every turn of the call satisfies `Q`: the state in which the turn begins, its pair, the
hardware calls it has to make (latest first) and its outcome. -/
def Operation.EveryTurn (hw : Nat → StatusCode) (lib : MathLibrary)
    (Q : SubscriptionManager → PropIdAreaId → List PairCall →
      VhalResult × SubscriptionManager → Prop) (s : SubscriptionManager) : Operation → Prop
  | .subscribe callback options isContinuousProperty =>
      checkOptions lib isContinuousProperty options = some (.ok ()) →
        EachTurn (fun turn => subscribePropIdAreaId hw callback isContinuousProperty turn.1 turn.2)
          (fun u turn => Q u ⟨turn.1.propId, turn.2⟩
            ((u.pairState ⟨turn.1.propId, turn.2⟩).subscribeCalls callback.asBinder
              (requestedConfig isContinuousProperty turn.1))
            (subscribePropIdAreaId hw callback isContinuousProperty turn.1 turn.2 u))
          (subscribeTurns options) s
  | .unsubscribe c propIds order =>
      EachTurn (unsubscribeAndForget hw c)
        (fun u p => Q u p ((u.pairState p).unsubscribeCalls c) (unsubscribeAndForget hw c p u))
        (propIdAreaIdsToUnsubscribe propIds order (s.held c)) s
  | .unsubscribeClient c order =>
      EachTurn (unsubscribePropIdAreaIdLocked hw c)
        (fun u p => Q u p ((u.pairState p).unsubscribeCalls c)
          (unsubscribePropIdAreaIdLocked hw c p u))
        (order.visit (s.held c)) s
  | _ => True

/-- A failed turn of a continuous pair leaves its entry as it was and equal to the options
of the hardware. -/
def FailsWithoutDrift (kind : Int → Bool) (s : SubscriptionManager) (p : PropIdAreaId)
    (outcome : VhalResult × SubscriptionManager) : Prop :=
  kind p.propId = true → ∀ e, outcome.1 = .error e →
    (s.pairState p).KeptOnFailure (outcome.2.pairState p)

/-- The hardware accepts all calls of the turn, or refuses the first one and the pair has
an entry. -/
def RefusedAtOnce (hw : Nat → StatusCode) (kind : Int → Bool) (s : SubscriptionManager)
    (p : PropIdAreaId) (calls : List PairCall) : Prop :=
  kind p.propId = true → AllAccepted hw s.mVehicleHardware.length calls ∨
    s.mContSubConfigsByPropIdArea.lookup p ≠ none ∧ hw s.mVehicleHardware.length ≠ .ok

/-- Every continuous pair represents the subscriptions of its clients and is tracked. -/
def TracksHardware (kind : Int → Bool) (lib : MathLibrary) (s : SubscriptionManager) : Prop :=
  ∀ p, kind p.propId = true → ∃ f, (s.pairState p).Refines f ∧ ContinuousClients lib f ∧
    (s.pairState p).Tracked

/-- A new manager tracks the hardware. -/
theorem tracksHardware_empty (kind : Int → Bool) (lib : MathLibrary) :
    TracksHardware kind lib {} := by
  intro p _
  refine ⟨fun _ => none, (refines_empty kind lib).pairs p, fun _ _ h => absurd h (by simp), ?_⟩
  rw [pairState_empty]
  exact ⟨fun _ => rfl, fun _ h => absurd h (by simp), rfl⟩

/-- A sound act that succeeds or fails without drift keeps every pair tracked. -/
private theorem TracksHardware.actsOn (hs : TracksHardware kind lib s) {p : PropIdAreaId}
    {e : PairEvent} (h : ActsOn p e s t) (hsound : Act.Sound kind lib (p, e))
    (hkept : kind p.propId = true → e.failed = true →
      (s.pairState p).KeptOnFailure (t.pairState p)) : TracksHardware kind lib t := by
  intro q hq
  obtain ⟨f, hx, hf, htracked⟩ := hs q hq
  by_cases hqp : q = p
  · subst hqp
    have hf' := continuousClients_update hf hq hsound
    have hkind (callback : CallbackType) : e ≠ .subscribed callback none := by
      intro hcontra
      have hk := (hsound callback none hcontra).kind
      rw [hq] at hk
      exact absurd hk (by simp)
    exact ⟨_, h.step.refines hx fun callback hcontra => absurd hcontra (hkind callback), hf',
      h.step.tracked hx hf hf' hkind (hkept hq) htracked⟩
  · rw [h.frame q hqp]
    exact ⟨f, hx, hf, htracked⟩

/-- The outcome of a turn: its act, or its failed act if the hardware does not accept all
calls. -/
def TurnOutcome (hw : Nat → StatusCode) (p : PropIdAreaId) (good : PairEvent)
    (bad : Bool → PairEvent) (calls : List PairCall) (s : SubscriptionManager)
    (outcome : VhalResult × SubscriptionManager) : Prop :=
  (∃ t, outcome = (.ok (), t) ∧ ActsOn p good s t ∧
      AllAccepted hw s.mVehicleHardware.length calls) ∨
    ∃ e t, outcome = (.error e, t) ∧
      ActsOn p (bad (decide (hw s.mVehicleHardware.length ≠ .ok))) s t ∧
      ¬AllAccepted hw s.mVehicleHardware.length calls

/-- A turn causes no drift exactly when the hardware accepts all its calls or refuses the
first one for a pair with an entry; the pairs then stay tracked. -/
private theorem TurnOutcome.drift_iff {p : PropIdAreaId} {good : PairEvent}
    {bad : Bool → PairEvent} {calls : List PairCall} {outcome : VhalResult × SubscriptionManager}
    (h : TurnOutcome hw p good bad calls s outcome) (hs : TracksHardware kind lib s)
    (hgood : good.failed = false) (hsound : Act.Sound kind lib (p, good))
    (hbad : ∀ first, (bad first).failed = true ∧ (bad first).first = first)
    (hkind : kind p.propId = true →
      ∀ first callback first', bad first ≠ .subscribeFailed callback none first') :
    (FailsWithoutDrift kind s p outcome ↔ RefusedAtOnce hw kind s p calls) ∧
      (RefusedAtOnce hw kind s p calls → TracksHardware kind lib outcome.2) := by
  rcases h with ⟨t, rfl, hacts, haccept⟩ | ⟨e, t, rfl, hacts, hrefuse⟩
  · refine ⟨iff_of_true (fun _ e he => absurd he (by simp)) fun _ => Or.inl haccept, fun _ => ?_⟩
    refine hs.actsOn hacts hsound fun _ hfail => absurd hfail ?_
    rw [hgood]
    exact Bool.false_ne_true
  · have hfails : FailsWithoutDrift kind s p (.error e, t) ↔
        (kind p.propId = true → (s.pairState p).KeptOnFailure (t.pairState p)) :=
      forall_congr' fun _ => ⟨fun hk => hk e rfl, fun hk _ _ => hk⟩
    have hrefused : RefusedAtOnce hw kind s p calls ↔
        (kind p.propId = true → (s.pairState p).KeptOnFailure (t.pairState p)) := by
      refine forall_congr' fun hp => ?_
      obtain ⟨f, hx, hf, htracked⟩ := hs p hp
      rw [hacts.step.keptOnFailure_iff htracked (hbad _).1 (hkind hp _), (hbad _).2,
        decide_eq_true_iff]
      exact ⟨fun hor => hor.resolve_left hrefuse, Or.inr⟩
    refine ⟨hfails.trans hrefused.symm, fun hcond => ?_⟩
    refine hs.actsOn hacts (fun callback config hcontra => ?_) fun hp _ => hrefused.mp hcond hp
    have hfail := (hbad (decide (hw s.mVehicleHardware.length ≠ .ok))).1
    change bad _ = _ at hcontra
    rw [hcontra] at hfail
    cases hfail

private theorem turnOutcome_subscribe (callback : CallbackType) (isContinuousProperty : Bool)
    (option : SubscribeOptions) (areaId : Int) (s : SubscriptionManager) :
    TurnOutcome hw ⟨option.propId, areaId⟩
      (.subscribed callback (requestedConfig isContinuousProperty option))
      (.subscribeFailed callback (requestedConfig isContinuousProperty option))
      ((s.pairState ⟨option.propId, areaId⟩).subscribeCalls callback.asBinder
        (requestedConfig isContinuousProperty option)) s
      (subscribePropIdAreaId hw callback isContinuousProperty option areaId s) := by
  rcases @subscribePropIdAreaId_cases hw callback isContinuousProperty option areaId s with
    ⟨t, h, hacts, _, haccept⟩ | ⟨e, t, h, hacts, _, hrefuse⟩
  · exact Or.inl ⟨t, h, hacts, haccept⟩
  · exact Or.inr ⟨e, t, h, hacts, hrefuse⟩

private theorem turnOutcome_drop (c : ClientIdType) (p : PropIdAreaId) (s : SubscriptionManager) :
    TurnOutcome hw p (.unsubscribed c) (.unsubscribeFailed c) ((s.pairState p).unsubscribeCalls c)
      s (unsubscribePropIdAreaIdLocked hw c p s) := by
  rcases @unsubscribePropIdAreaIdLocked_cases hw c p s with
    ⟨t, h, hacts, _, haccept⟩ | ⟨e, t, h, hacts, _, hrefuse⟩
  · exact Or.inl ⟨t, h, hacts, haccept⟩
  · exact Or.inr ⟨e, t, h, hacts, hrefuse⟩

private theorem turnOutcome_forget (c : ClientIdType) (p : PropIdAreaId)
    (s : SubscriptionManager) :
    TurnOutcome hw p (.unsubscribed c) (.unsubscribeFailed c) ((s.pairState p).unsubscribeCalls c)
      s (unsubscribeAndForget hw c p s) := by
  rcases @turnOutcome_drop hw c p s with ⟨t, h, hacts, haccept⟩ | ⟨e, t, h, hacts, hrefuse⟩
  · refine Or.inl ⟨{ t with
      mSubscribedPropsByClient := releasePair c p t.mSubscribedPropsByClient }, ?_,
      ⟨hacts.step, hacts.frame, hacts.aside⟩, haccept⟩
    simp only [unsubscribeAndForget, h, releasePair]
  · exact Or.inr ⟨e, t, by simp only [unsubscribeAndForget, h], hacts, hrefuse⟩

/-- A turn of either `unsubscribe` causes no drift under the same condition. -/
private theorem drift_iff_unsubscribe {c : ClientIdType} {p : PropIdAreaId}
    {outcome : VhalResult × SubscriptionManager}
    (h : TurnOutcome hw p (.unsubscribed c) (.unsubscribeFailed c)
      ((s.pairState p).unsubscribeCalls c) s outcome) (hs : TracksHardware kind lib s) :
    (FailsWithoutDrift kind s p outcome ↔
      RefusedAtOnce hw kind s p ((s.pairState p).unsubscribeCalls c)) ∧
    (RefusedAtOnce hw kind s p ((s.pairState p).unsubscribeCalls c) →
      TracksHardware kind lib outcome.2) := by
  refine h.drift_iff hs rfl (fun callback config hcontra => ?_) (fun _ => ⟨rfl, rfl⟩)
    fun _ first callback first' hcontra => ?_
  · cases hcontra
  · cases hcontra

/-- So does the loop of either `unsubscribe`. -/
private theorem drift_iff_unsubscribe_loop {c : ClientIdType} {ps : List PropIdAreaId}
    {body : PropIdAreaId → SubscriptionManager → VhalResult × SubscriptionManager} {r : VhalResult}
    (hbody : ∀ p u, TurnOutcome hw p (.unsubscribed c) (.unsubscribeFailed c)
      ((u.pairState p).unsubscribeCalls c) u (body p u))
    (hs : TracksHardware kind lib s) (hloop : forEach body ps s = (r, t)) :
    (EachTurn body (fun u p => FailsWithoutDrift kind u p (body p u)) ps s ↔
      EachTurn body (fun u p => RefusedAtOnce hw kind u p ((u.pairState p).unsubscribeCalls c))
        ps s) ∧
    (EachTurn body (fun u p => RefusedAtOnce hw kind u p ((u.pairState p).unsubscribeCalls c))
      ps s → TracksHardware kind lib t) :=
  EachTurn.congr_and_invariant hs (fun p _ u hu => drift_iff_unsubscribe (hbody p u) hu) hloop

private theorem TracksHardware.congr (hs : TracksHardware kind lib s)
    (h : t.pairState = s.pairState) : TracksHardware kind lib t := by
  intro p hp
  rw [h]
  exact hs p hp

/-- A call causes no drift exactly when each of its turns is accepted or refused at once,
and then keeps the continuous pairs tracked. -/
theorem Operation.Effect.drift_iff {op : Operation} {r : VhalResult} {acts : List Act}
    (h : op.Effect hw lib s r t acts) (hk : op.RespectsKind kind)
    (hs : TracksHardware kind lib s) :
    (op.EveryTurn hw lib (fun s p _ outcome => FailsWithoutDrift kind s p outcome) s ↔
      op.EveryTurn hw lib (fun s p calls _ => RefusedAtOnce hw kind s p calls) s) ∧
    (op.EveryTurn hw lib (fun s p calls _ => RefusedAtOnce hw kind s p calls) s →
      TracksHardware kind lib t) := by
  cases h with
  | rejected callback options isContinuousProperty e hcheck =>
      have hno (hok : checkOptions lib isContinuousProperty options = some (.ok ())) : False := by
        rw [hcheck] at hok
        cases hok
      exact ⟨iff_of_true (fun hok => (hno hok).elim) fun hok => (hno hok).elim, fun _ => hs⟩
  | subscribe callback options isContinuousProperty _ _ done _ hcheck h hloop =>
      have hnone (turn : SubscribeOptions × Int) (hmem : turn ∈ subscribeTurns options)
          (hp : kind turn.1.propId = true) :
          requestedConfig isContinuousProperty turn.1 ≠ none := by
        rw [← hk turn.1 (mem_subscribeTurns.mp hmem).1, hp]
        exact Option.some_ne_none _
      have hturn (turn : SubscribeOptions × Int) (hmem : turn ∈ subscribeTurns options)
          (u : SubscriptionManager) (hu : TracksHardware kind lib u) :=
        (@turnOutcome_subscribe hw callback isContinuousProperty turn.1 turn.2 u).drift_iff hu rfl
          (sound_subscribedAct hk hcheck hmem) (fun _ => ⟨rfl, rfl⟩)
          fun hp _ _ _ hcontra => hnone turn hmem hp (PairEvent.subscribeFailed.inj hcontra).2.1
      obtain ⟨hiff, hend⟩ :=
        EachTurn.congr_and_invariant (P := TracksHardware kind lib) hs hturn hloop
      exact ⟨forall_congr' fun _ => hiff, fun hcond => hend (hcond hcheck)⟩
  | unsubscribe c propIds order _ u _ done _ h hu hloop =>
      obtain ⟨hiff, hend⟩ := drift_iff_unsubscribe_loop (turnOutcome_forget c) hs hloop
      refine ⟨hiff, fun hcond => (hend hcond).congr ?_⟩
      subst hu
      split <;> rfl
  | unsubscribeClientFailed c order e _ done _ h hloop =>
      exact drift_iff_unsubscribe_loop (turnOutcome_drop c) hs hloop
  | unsubscribeClient c order _ u _ done _ h hu hloop =>
      obtain ⟨hiff, hend⟩ := drift_iff_unsubscribe_loop (turnOutcome_drop c) hs hloop
      have hkeep := (keepsPairs_unsubscribeSupportedValueChangeLocked hw c
        (order.visit (u.supportedHeld c))
        { u with mSubscribedPropsByClient := u.mSubscribedPropsByClient.erase c }).pairs
      rw [hu] at hkeep
      exact ⟨hiff, fun hcond => (hend hcond).congr hkeep⟩
  | getSubscribedClients _ _ _ _ _ _ hpairs hdel =>
      refine ⟨Iff.rfl, fun _ p hp => ?_⟩
      refine pair_invariant_of_acts (P := fun x => ∃ f, x.Refines f ∧ ContinuousClients lib f ∧
        x.Tracked) hpairs p (hs p hp) ?_
      rintro x e y he ⟨f, hx, hf, htracked⟩ hstep
      cases hdel (p, e) he
      have hother (callback : CallbackType) (config : Option SubConfig) :
          PairEvent.delivered ≠ .subscribed callback config := fun hcontra => by cases hcontra
      exact ⟨f, hstep.refines hx fun callback hcontra => absurd hcontra (hother callback none), hf,
        hstep.tracked hx hf hf (fun callback => hother callback none)
          (fun hfail => absurd hfail (by simp [PairEvent.failed])) htracked⟩
  | subscribeSupportedValueChange callback ps _ _ h =>
      have hkeep := (keepsPairs_subscribeSupportedValueChange hw callback ps s).pairs
      rw [h] at hkeep
      exact ⟨Iff.rfl, fun _ => hs.congr hkeep⟩
  | unsubscribeSupportedValueChange c ps _ _ h =>
      have hkeep := (keepsPairs_unsubscribeSupportedValueChangeLocked hw c ps s).pairs
      rw [h] at hkeep
      exact ⟨Iff.rfl, fun _ => hs.congr hkeep⟩

/-- The runs in which no failure makes the recorded and the accepted options of a
continuous pair drift apart are those in which every turn of a continuous pair is
accepted, or refused at its first call with an entry already there. -/
theorem failsWithoutDrift_along_run_iff (hw : Nat → StatusCode) (lib : MathLibrary)
    (kind : Int → Bool) (as : List (Operation × VhalResult)) (s : SubscriptionManager) :
    KindRun hw lib kind (fun s a _ => a.1.EveryTurn hw lib
        (fun s p _ outcome => FailsWithoutDrift kind s p outcome) s) {} as s ↔
      KindRun hw lib kind (fun s a _ => a.1.EveryTurn hw lib
        (fun s p calls _ => RefusedAtOnce hw kind s p calls) s) {} as s := by
  refine Path.restrict_congr (I := TracksHardware kind lib) (tracksHardware_empty kind lib) ?_
  rintro t a u hinv ⟨hstep, hka⟩
  obtain ⟨acts, heff⟩ := step_effect hw hstep
  exact heff.drift_iff hka hinv

/-- A client asks for a higher rate; the hardware accepts the rate and refuses the options.
The manager keeps the old rate on record. -/
theorem exists_run_drift :
    ∃ as s e t, Run (refusing 3) default {} as s ∧
      Steps (refusing 3) default s
        (.subscribe ⟨0, 1⟩ [newSubscribeOptions 1 0 (.ofInt 20) .zero false] true, .error e) t ∧
      ¬(s.pairState ⟨1, 0⟩).KeptOnFailure (t.pairState ⟨1, 0⟩) := by
  let again := Operation.subscribe ⟨0, 1⟩ [newSubscribeOptions 1 0 (.ofInt 20) .zero false] true
  obtain ⟨as, s, hrun, _, hstep⟩ := exists_run_of_execute (refusing 3) default
    [.subscribe ⟨0, 1⟩ [newSubscribeOptions 1 0 (.ofInt 10) .zero false] true]
    (fun s => (step (refusing 3) default s again).any (fun r => decide (r.1 ≠ .ok () ∧
      (r.2.pairState ⟨1, 0⟩).config.map ContSubConfigs.combined ≠
        acceptedConfig (r.2.pairState ⟨1, 0⟩).calls)) = true) (by decide)
  obtain ⟨⟨r, t⟩, hr, hdrift⟩ := (Option.any_eq_true _ _).mp hstep
  obtain ⟨hfail, hne⟩ := of_decide_eq_true hdrift
  cases r with
  | ok u => exact absurd rfl hfail
  | error e => exact ⟨as, s, e, t, hrun, hr, fun hkept => hne hkept.recorded⟩

end SubscriptionManager

end VhalCore.Subscription
