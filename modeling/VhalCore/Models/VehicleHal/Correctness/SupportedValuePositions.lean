import VhalCore.Models.VehicleHal.Native.SupportedValues

/-!
# The positions of supported values

Each result of a query stands at the position of its pair, whether the service gives it itself
or the hardware does. A pair that occurs twice is forwarded twice, and each occurrence has the
result that the hardware gives for it.
-/

namespace VhalCore.VehicleHal

namespace SupportedValueQuery

variable {Result : Type} (query : SupportedValueQuery Result)
  (getConfig : Int32 → Except ConfigError ProtoMsgConverter.Aidl.VehiclePropConfig)

/-- The result that the service gives itself, none for a pair that is forwarded. -/
def ownResult (pair : ProtoMsgConverter.Aidl.PropIdAreaId) : Option Result :=
  match getHasSupportedValueInfo getConfig pair.propId pair.areaId with
  | .error _ => some query.invalidArg
  | .ok info => if query.asksFor info then none else some query.notSpecified

/-- The hardware is asked about the pair. -/
def isForwarded (pair : ProtoMsgConverter.Aidl.PropIdAreaId) : Bool :=
  (query.ownResult getConfig pair).isNone

/-- The results in the order of the pairs: those that the service gives and, for the others, the
results of the hardware one after the other. -/
def merge : List ProtoMsgConverter.Aidl.PropIdAreaId → List Result → List Result
  | [], _ => []
  | pair :: pairs, fromHardware =>
      match query.ownResult getConfig pair with
      | some result => result :: merge pairs fromHardware
      | none => fromHardware.headD query.initial :: merge pairs fromHardware.tail

/-- The positions of the pairs that are forwarded, counted from `k`. -/
def countersFrom : Nat → List ProtoMsgConverter.Aidl.PropIdAreaId → List Nat
  | _, [] => []
  | k, pair :: pairs =>
      if query.isForwarded getConfig pair then k :: countersFrom (k + 1) pairs
      else countersFrom (k + 1) pairs

/-- A turn of the loop answers by itself or asks the hardware. -/
theorem turn_eq (loop : QueryLoop Result) (pair : ProtoMsgConverter.Aidl.PropIdAreaId) (k : Nat) :
    query.turn getConfig loop (pair, k) =
      match query.ownResult getConfig pair with
      | some result => { loop with results := loop.results.set k result }
      | none => { loop with
          toHardwarePropIdAreaIds := loop.toHardwarePropIdAreaIds ++ [pair]
          toHardwareRequestCounters := loop.toHardwareRequestCounters ++ [k] } := by
  rw [turn, ownResult]
  cases getHasSupportedValueInfo getConfig pair.propId pair.areaId with
  | error e => rfl
  | ok info =>
      simp only
      split <;> rfl

theorem set_append_cons (before : List Result) (old new : Result) (after : List Result) :
    (before ++ old :: after).set before.length new = before ++ new :: after := by
  rw [List.set_append_right _ _ le_rfl, Nat.sub_self, List.set_cons_zero]

/-- The loop collects the forwarded pairs with their positions and fills in the other results. -/
theorem foldl_turn (pairs : List ProtoMsgConverter.Aidl.PropIdAreaId) (counters : List Nat)
    (forwarded : List ProtoMsgConverter.Aidl.PropIdAreaId) (before : List Result) :
    (pairs.zipIdx before.length).foldl (query.turn getConfig)
        ⟨counters, forwarded, before ++ .replicate pairs.length query.initial⟩ =
      ⟨counters ++ query.countersFrom getConfig before.length pairs,
        forwarded ++ pairs.filter (query.isForwarded getConfig),
        before ++ query.merge getConfig pairs []⟩ := by
  induction pairs generalizing counters forwarded before with
  | nil => simp [countersFrom, merge]
  | cons pair pairs ih =>
      rw [List.zipIdx_cons, List.foldl_cons, turn_eq]
      cases hown : query.ownResult getConfig pair with
      | some result =>
          have hnot : query.isForwarded getConfig pair = false := by simp [isForwarded, hown]
          have hrest := ih counters forwarded (before ++ [result])
          simp only [List.length_cons, List.replicate_succ, set_append_cons]
          rw [List.length_append, List.length_singleton, List.append_assoc] at hrest
          simp only [List.singleton_append, List.append_assoc] at hrest
          rw [hrest]
          simp [countersFrom, merge, hown, hnot]
      | none =>
          have hfwd : query.isForwarded getConfig pair = true := by simp [isForwarded, hown]
          have hrest := ih (counters ++ [before.length]) (forwarded ++ [pair])
            (before ++ [query.initial])
          simp only [List.length_append, List.length_singleton, List.append_assoc,
            List.singleton_append] at hrest
          simp only [List.length_cons, List.replicate_succ]
          rw [hrest]
          simp [countersFrom, merge, hown, hfwd]

/-- The results of the hardware fill the positions that the loop has left. -/
theorem placeResults_merge (pairs : List ProtoMsgConverter.Aidl.PropIdAreaId)
    (before fromHardware : List Result) :
    placeResults (before ++ query.merge getConfig pairs [])
        (query.countersFrom getConfig before.length pairs) fromHardware =
      before ++ query.merge getConfig pairs fromHardware := by
  induction pairs generalizing before fromHardware with
  | nil => rfl
  | cons pair pairs ih =>
      cases hown : query.ownResult getConfig pair with
      | some result =>
          have hnot : query.isForwarded getConfig pair = false := by simp [isForwarded, hown]
          have hrest := ih (before ++ [result]) fromHardware
          rw [List.length_append, List.length_singleton] at hrest
          simp only [List.append_assoc, List.singleton_append] at hrest
          simp only [merge, countersFrom, hown, hnot, Bool.false_eq_true, ite_false]
          exact hrest
      | none =>
          have hfwd : query.isForwarded getConfig pair = true := by simp [isForwarded, hown]
          simp only [merge, countersFrom, hown, hfwd, ite_true]
          cases fromHardware with
          | nil =>
              rw [placeResults, List.zip_nil_right]
              rfl
          | cons result fromHardware =>
              have hrest := ih (before ++ [result]) fromHardware
              rw [List.length_append, List.length_singleton] at hrest
              simp only [List.append_assoc, List.singleton_append] at hrest
              rw [placeResults, List.zip_cons_cons, List.foldl_cons]
              simp only [set_append_cons]
              exact hrest

/-- There is a counter for each forwarded pair. -/
theorem length_countersFrom (k : Nat) (pairs : List ProtoMsgConverter.Aidl.PropIdAreaId) :
    (query.countersFrom getConfig k pairs).length =
      (pairs.filter (query.isForwarded getConfig)).length := by
  induction pairs generalizing k with
  | nil => rfl
  | cons pair pairs ih =>
      rw [countersFrom, List.filter_cons]
      split
      · rw [List.length_cons, List.length_cons, ih]
      · exact ih _

/-- There is a result for each pair. -/
theorem length_merge (pairs : List ProtoMsgConverter.Aidl.PropIdAreaId)
    (fromHardware : List Result) :
    (query.merge getConfig pairs fromHardware).length = pairs.length := by
  induction pairs generalizing fromHardware with
  | nil => rfl
  | cons pair pairs ih =>
      rw [merge]
      split <;> rw [List.length_cons, List.length_cons, ih]

/-- The place of the pair at a position among those that are forwarded. -/
def place (pairs : List ProtoMsgConverter.Aidl.PropIdAreaId) (i : Nat) : Nat :=
  (pairs.take i).countP (query.isForwarded getConfig)

/-- An own result stands at the position of its pair. -/
theorem merge_of_own {pairs : List ProtoMsgConverter.Aidl.PropIdAreaId}
    (fromHardware : List Result) {i : Nat} {pair : ProtoMsgConverter.Aidl.PropIdAreaId}
    {result : Result} (hpair : pairs[i]? = some pair)
    (hown : query.ownResult getConfig pair = some result) :
    (query.merge getConfig pairs fromHardware)[i]? = some result := by
  induction pairs generalizing fromHardware i with
  | nil => cases hpair
  | cons first pairs ih =>
      rw [merge]
      cases i with
      | zero =>
          cases hpair
          rw [hown]
          rfl
      | succ i => split <;> exact ih _ hpair

/-- A forwarded result stands at the position of its pair. -/
theorem merge_of_forwarded {pairs : List ProtoMsgConverter.Aidl.PropIdAreaId}
    {fromHardware : List Result} {i : Nat} {pair : ProtoMsgConverter.Aidl.PropIdAreaId}
    (hlength : fromHardware.length = (pairs.filter (query.isForwarded getConfig)).length)
    (hpair : pairs[i]? = some pair) (hfwd : query.isForwarded getConfig pair = true) :
    (pairs.filter (query.isForwarded getConfig))[query.place getConfig pairs i]? = some pair ∧
      (query.merge getConfig pairs fromHardware)[i]? =
        fromHardware[query.place getConfig pairs i]? := by
  induction pairs generalizing fromHardware i with
  | nil => cases hpair
  | cons first pairs ih =>
      cases hown : query.ownResult getConfig first with
      | some result =>
          have hnot : query.isForwarded getConfig first = false := by simp [isForwarded, hown]
          cases i with
          | zero =>
              cases hpair
              rw [hnot] at hfwd
              cases hfwd
          | succ i =>
              rw [List.filter_cons_of_neg (by simp [hnot])] at hlength ⊢
              simp only [place, List.take_succ_cons, List.countP_cons, hnot, merge, hown]
              exact ih hlength hpair
      | none =>
          have hfirst : query.isForwarded getConfig first = true := by simp [isForwarded, hown]
          rw [List.filter_cons_of_pos hfirst] at hlength ⊢
          cases fromHardware with
          | nil => cases hlength
          | cons result fromHardware =>
              simp only [merge, hown]
              cases i with
              | zero =>
                  cases hpair
                  exact ⟨rfl, rfl⟩
              | succ i =>
                  simp only [place, List.take_succ_cons, List.countP_cons, hfirst, ite_true,
                    List.getElem?_cons_succ]
                  exact ih (Nat.succ.inj hlength) hpair

/-- The query asks about the forwarded pairs, and merges the results. -/
theorem run_eq (hardware : List ProtoMsgConverter.Aidl.PropIdAreaId → List Result)
    (pairs : List ProtoMsgConverter.Aidl.PropIdAreaId) :
    query.run getConfig hardware pairs =
      if pairs.filter (query.isForwarded getConfig) = [] then
        .ok (query.merge getConfig pairs [])
      else if (hardware (pairs.filter (query.isForwarded getConfig))).length =
          (pairs.filter (query.isForwarded getConfig)).length then
        .ok (query.merge getConfig pairs (hardware (pairs.filter (query.isForwarded getConfig))))
      else .error (.internalError, ⟨(hardware (pairs.filter (query.isForwarded getConfig))).length,
        (pairs.filter (query.isForwarded getConfig)).length⟩) := by
  have hloop := query.foldl_turn getConfig pairs [] [] []
  have hplace := query.placeResults_merge getConfig pairs []
  simp only [List.length_nil, List.nil_append] at hloop hplace
  rw [run]
  simp only [hloop, hplace, length_countersFrom, List.length_eq_zero_iff, ne_eq, ite_not]

end SupportedValueQuery

section Positions

variable (getConfig : Int32 → Except ConfigError ProtoMsgConverter.Aidl.VehiclePropConfig)

/-- What the config of a pair says about its supported values, if it has a config that says
something. Every area of a global property stands for its first area config. -/
def supportedValueInfo (pair : ProtoMsgConverter.Aidl.PropIdAreaId) :
    Option ProtoMsgConverter.Aidl.HasSupportedValueInfo :=
  (getConfig pair.propId).toOption.bind fun config =>
    (config.areaConfigs.find? fun areaConfig =>
      isGlobalProp pair.propId.toInt || areaConfig.areaId = pair.areaId).bind fun areaConfig =>
        areaConfig.hasSupportedValueInfo

/-- The service finds what the config says. -/
theorem toOption_getHasSupportedValueInfo (pair : ProtoMsgConverter.Aidl.PropIdAreaId) :
    (getHasSupportedValueInfo getConfig pair.propId pair.areaId).toOption =
      supportedValueInfo getConfig pair := by
  rw [getHasSupportedValueInfo, getAreaConfigForPropIdAreaId, supportedValueInfo]
  have herror {global : Bool} {e e' : SupportedValueInfoError} :
      (if global = true then Except.error e else Except.error e' :
        Except SupportedValueInfoError ProtoMsgConverter.Aidl.HasSupportedValueInfo).toOption =
        none := by
    cases global <;> rfl
  cases getConfig pair.propId with
  | error e => exact herror
  | ok config =>
      have hfind : findAreaConfig pair.propId pair.areaId config =
          config.areaConfigs.find? fun areaConfig =>
            isGlobalProp pair.propId.toInt || areaConfig.areaId = pair.areaId := by
        rw [findAreaConfig]
        cases isGlobalProp pair.propId.toInt with
        | false => rfl
        | true => cases config.areaConfigs <;> rfl
      change _ = Option.bind (config.areaConfigs.find? _) _
      rw [← hfind]
      dsimp only
      cases findAreaConfig pair.propId pair.areaId config with
      | none => exact herror
      | some areaConfig =>
          dsimp only [Option.bind_some]
          cases areaConfig.hasSupportedValueInfo with
          | none => rfl
          | some info => rfl

variable {Result : Type} {getConfig}

/-- What the service answers itself depends on what the config says. -/
theorem ownResult_eq (query : SupportedValueQuery Result)
    (pair : ProtoMsgConverter.Aidl.PropIdAreaId) :
    query.ownResult getConfig pair = (supportedValueInfo getConfig pair).elim
      (some query.invalidArg) fun info =>
        if query.asksFor info then none else some query.notSpecified := by
  rw [← toOption_getHasSupportedValueInfo, SupportedValueQuery.ownResult]
  cases getHasSupportedValueInfo getConfig pair.propId pair.areaId with
  | error e => rfl
  | ok info => rfl

/-- A pair is forwarded exactly if its configuration says that there are supported values. -/
theorem isForwarded_eq (query : SupportedValueQuery Result) :
    query.isForwarded getConfig = fun pair =>
      (supportedValueInfo getConfig pair).any query.asksFor := by
  funext pair
  rw [SupportedValueQuery.isForwarded, ownResult_eq]
  cases supportedValueInfo getConfig pair with
  | none => rfl
  | some info =>
      rw [Option.elim_some, Option.any_some]
      cases query.asksFor info <;> rfl

/-- A query keeps the positions of the pairs if the hardware gives one result for each pair that
is forwarded, and fails as a whole with `INTERNAL_ERROR` otherwise. Forwarded are the pairs whose
info says that something is specified, each as often as it occurs. -/
def KeepsPositions (infoOf : ProtoMsgConverter.Aidl.PropIdAreaId →
      Option ProtoMsgConverter.Aidl.HasSupportedValueInfo)
    (isSpecified : ProtoMsgConverter.Aidl.HasSupportedValueInfo → Bool)
    (invalidArg notSpecified : Result)
    (ask : (List ProtoMsgConverter.Aidl.PropIdAreaId → List Result) →
      List ProtoMsgConverter.Aidl.PropIdAreaId →
      Except (StatusCode × UnexpectedResultsSize) (List Result)) : Prop :=
  ∀ (hardware : List ProtoMsgConverter.Aidl.PropIdAreaId → List Result)
    (pairs : List ProtoMsgConverter.Aidl.PropIdAreaId),
    let forwarded := pairs.filter fun pair => (infoOf pair).any isSpecified
    ((hardware forwarded).length = forwarded.length →
      ∃ results, ask hardware pairs = .ok results ∧ results.length = pairs.length ∧
        ∀ i pair, pairs[i]? = some pair →
          (infoOf pair = none → results[i]? = some invalidArg) ∧
          (∀ info, infoOf pair = some info → isSpecified info = false →
            results[i]? = some notSpecified) ∧
          ∀ info, infoOf pair = some info → isSpecified info = true →
            let place := (pairs.take i).countP fun pair => (infoOf pair).any isSpecified
            forwarded[place]? = some pair ∧ results[i]? = (hardware forwarded)[place]?) ∧
    (forwarded ≠ [] → (hardware forwarded).length ≠ forwarded.length →
      ask hardware pairs =
        .error (.internalError, ⟨(hardware forwarded).length, forwarded.length⟩))

/-- Every query keeps the positions. -/
theorem keepsPositions_run (query : SupportedValueQuery Result) :
    KeepsPositions (supportedValueInfo getConfig) query.asksFor query.invalidArg
      query.notSpecified (query.run getConfig) := by
  intro hardware pairs
  simp only [← isForwarded_eq query]
  have hmerge : ∀ fromHardware, fromHardware.length =
        (pairs.filter (query.isForwarded getConfig)).length →
      ∀ i pair, pairs[i]? = some pair →
        (supportedValueInfo getConfig pair = none →
          (query.merge getConfig pairs fromHardware)[i]? = some query.invalidArg) ∧
        (∀ info, supportedValueInfo getConfig pair = some info → query.asksFor info = false →
          (query.merge getConfig pairs fromHardware)[i]? = some query.notSpecified) ∧
        ∀ info, supportedValueInfo getConfig pair = some info → query.asksFor info = true →
          (pairs.filter (query.isForwarded getConfig))[query.place getConfig pairs i]? =
              some pair ∧
            (query.merge getConfig pairs fromHardware)[i]? =
              fromHardware[query.place getConfig pairs i]? := by
    intro fromHardware hlength i pair hpair
    refine ⟨fun hnone => ?_, fun info hinfo hasks => ?_, fun info hinfo hasks => ?_⟩
    · exact query.merge_of_own getConfig _ hpair (by rw [ownResult_eq, hnone]; rfl)
    · exact query.merge_of_own getConfig _ hpair (by simp [ownResult_eq, hinfo, hasks])
    · refine query.merge_of_forwarded getConfig hlength hpair ?_
      simp [isForwarded_eq, hinfo, hasks]
  rw [SupportedValueQuery.run_eq]
  refine ⟨fun hlength => ?_, fun hne hlength => ?_⟩
  · by_cases hempty : pairs.filter (query.isForwarded getConfig) = []
    · have hnone : hardware (pairs.filter (query.isForwarded getConfig)) = [] := by
        rw [hempty] at hlength ⊢
        exact List.length_eq_zero_iff.mp hlength
      rw [if_pos hempty, hnone]
      exact ⟨_, rfl, query.length_merge getConfig pairs _, hmerge [] (by rw [hempty]; rfl)⟩
    · rw [if_neg hempty, if_pos hlength]
      exact ⟨_, rfl, query.length_merge getConfig pairs _, hmerge _ hlength⟩
  · rw [if_neg hne, if_neg hlength]

/-- Both queries keep the positions: a pair without an info gets `INVALID_ARG`, one for which
nothing is specified gets `OK` without a value, and any other the result of the hardware. -/
theorem supportedValues_keep_positions
    (getConfig : Int32 → Except ConfigError ProtoMsgConverter.Aidl.VehiclePropConfig) :
    KeepsPositions (supportedValueInfo getConfig) (fun info => info.hasSupportedValuesList)
        ⟨statusInvalidArg, none⟩ ⟨ProtoMsgConverter.statusOk, none⟩
        (getSupportedValuesLists getConfig) ∧
      KeepsPositions (supportedValueInfo getConfig)
        (fun info => info.hasMinSupportedValue || info.hasMaxSupportedValue)
        ⟨statusInvalidArg, none, none⟩ ⟨ProtoMsgConverter.statusOk, none, none⟩
        (getMinMaxSupportedValue getConfig) :=
  ⟨keepsPositions_run supportedValuesListsQuery, keepsPositions_run minMaxSupportedValueQuery⟩

/-- A config of one area, for every property. -/
def areaFour (info : Option ProtoMsgConverter.Aidl.HasSupportedValueInfo) (propId : Int32) :
    Except ConfigError ProtoMsgConverter.Aidl.VehiclePropConfig :=
  .ok { prop := propId, areaConfigs := [{ areaId := 4, hasSupportedValueInfo := info }] }

/-- A list is specified for the first property and none for the second. -/
def listForFirst (propId : Int32) :
    Except ConfigError ProtoMsgConverter.Aidl.VehiclePropConfig :=
  areaFour (some { hasSupportedValuesList := propId = 0x13400bc0 }) propId

/-- The hardware numbers its results. -/
def numberedLists (pairs : List ProtoMsgConverter.Aidl.PropIdAreaId) :
    List ProtoMsgConverter.Aidl.SupportedValuesListResult :=
  pairs.zipIdx.map fun entry => ⟨0, some (.replicate entry.2 none)⟩

/-- A pair, one of another area, one without a list, and the first one again. -/
def mixedPairs : List ProtoMsgConverter.Aidl.PropIdAreaId :=
  [⟨0x13400bc0, 4⟩, ⟨0x13400bc0, 8⟩, ⟨0x13400bc1, 4⟩, ⟨0x13400bc0, 4⟩]

/-- Four pairs, of which the hardware is asked about two. -/
theorem mixedPairs_keep_positions :
    (∃ results, getSupportedValuesLists listForFirst numberedLists mixedPairs = .ok results ∧
      results.length = 4 ∧ results[0]? = some ⟨0, some []⟩ ∧ results[1]? = some ⟨2, none⟩ ∧
      results[2]? = some ⟨0, none⟩ ∧ results[3]? = some ⟨0, some [none]⟩) ∧
    getSupportedValuesLists listForFirst (fun _ => []) mixedPairs =
      .error (.internalError, ⟨0, 2⟩) := by
  have hkeep := (supportedValues_keep_positions listForFirst).1
  refine ⟨?_, (hkeep (fun _ => []) mixedPairs).2 (by decide) (by decide)⟩
  obtain ⟨results, hresults, hlength, hall⟩ := (hkeep numberedLists mixedPairs).1 (by decide)
  refine ⟨results, hresults, hlength, ?_, ?_, ?_, ?_⟩
  · exact ((hall 0 ⟨0x13400bc0, 4⟩ rfl).2.2 { hasSupportedValuesList := true } (by decide) rfl).2
  · exact (hall 1 ⟨0x13400bc0, 8⟩ rfl).1 (by decide)
  · exact (hall 2 ⟨0x13400bc1, 4⟩ rfl).2.1 {} (by decide) rfl
  · exact ((hall 3 ⟨0x13400bc0, 4⟩ rfl).2.2 { hasSupportedValuesList := true } (by decide) rfl).2

end Positions

end VhalCore.VehicleHal
