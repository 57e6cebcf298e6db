import VhalCore.Models.VehicleHal.Native.SubscribeOptions

/-!
# The expansion of subscribe options

The expanded options of a subscription that passes the check say the same as the given ones:
they have one entry for each option and each area that is meant. A rate of a continuous property
is in its range, and a variable update rate is asked for where it is supported. The manager takes
the expanded options unless one of them has no area.
-/

namespace VhalCore.VehicleHal

open Subscription (MathLibrary)

/-- One property in one area, with what is asked for. -/
structure SubscriptionEntry where
  propId : Int
  areaId : Int
  sampleRate : Binary32
  resolution : Binary32
  enableVariableUpdateRate : Bool
  deriving DecidableEq

/-- The entries of some options, area by area. -/
def entriesOf (options : List SubscribeOptions) : List SubscriptionEntry :=
  options.flatMap fun option => option.areaIds.map fun areaId =>
    ⟨option.propId, areaId, option.sampleRate, option.resolution, option.enableVariableUpdateRate⟩

theorem entriesOf_append (as bs : List SubscribeOptions) :
    entriesOf (as ++ bs) = entriesOf as ++ entriesOf bs := List.flatMap_append

/-- The areas that an option means: the one area of a global property, the listed areas, or all
areas if none is listed. -/
def meantAreaIds (option : SubscribeOptions) (config : VehiclePropConfig) : List Int :=
  if isGlobalProp option.propId then [0]
  else if option.areaIds ≠ [] then option.areaIds
  else config.areaConfigs.map VehicleAreaConfig.areaId

/-- A rate outside of the range of a property becomes the end of the range that it is beyond. -/
def meantRate (sampleRate : Binary32) (config : VehiclePropConfig) : Binary32 :=
  if sampleRate.lt config.minSampleRate then config.minSampleRate
  else if config.maxSampleRate.lt sampleRate then config.maxSampleRate
  else sampleRate

/-- The config of the area, which is the only one of a global property, supports a variable
update rate. -/
def supportsVaryingRate (propId areaId : Int) (config : VehiclePropConfig) : Bool :=
  (if isGlobalProp propId then config.areaConfigs.head?
    else config.areaConfigs.find? fun areaConfig => areaConfig.areaId = areaId).any
      (·.supportVariableUpdateRate)

/-- The entry that an option means in an area. For an on-change property rate and flag are as
they were asked for. -/
def meantEntry (option : SubscribeOptions) (config : VehiclePropConfig) (areaId : Int) :
    SubscriptionEntry where
  propId := option.propId
  areaId := areaId
  sampleRate :=
    if config.changeMode = .continuous then meantRate option.sampleRate config
    else option.sampleRate
  resolution := option.resolution
  enableVariableUpdateRate :=
    if config.changeMode = .continuous then
      option.enableVariableUpdateRate && supportsVaryingRate option.propId areaId config
    else option.enableVariableUpdateRate

/-- The entries that an option means if its property has a change mode. -/
def meantByOption (configsByPropId : UnorderedMap Int VehiclePropConfig)
    (mode : VehiclePropertyChangeMode) (option : SubscribeOptions) : List SubscriptionEntry :=
  match configsByPropId.lookup option.propId with
  | none => []
  | some config =>
      if config.changeMode = mode then
        (meantAreaIds option config).map (meantEntry option config)
      else []

/-- The entries that some options mean for the properties of a change mode. -/
def meantEntries (configsByPropId : UnorderedMap Int VehiclePropConfig)
    (mode : VehiclePropertyChangeMode) (options : List SubscribeOptions) :
    List SubscriptionEntry :=
  options.flatMap (meantByOption configsByPropId mode)

/-- The code expands an option to the areas that it means. -/
theorem expandedAreaIds_eq (option : SubscribeOptions) (config : VehiclePropConfig) :
    expandedAreaIds option config = meantAreaIds option config := by
  rw [expandedAreaIds, meantAreaIds]
  by_cases hlisted : option.areaIds = [] <;> simp [hlisted]

/-- The code looks at the config of the area. -/
theorem isVurSupported_eq (propId areaId : Int) (config : VehiclePropConfig) :
    isVurSupported propId areaId config = supportsVaryingRate propId areaId config := by
  rw [isVurSupported, supportsVaryingRate, getAreaConfig]
  generalize (if isGlobalProp propId then config.areaConfigs.head?
    else config.areaConfigs.find? fun areaConfig => areaConfig.areaId = areaId) = found
  cases found <;> rfl

section Rate

variable {rate min max : Binary32}

/-- A rate that is a number is moved into the range. -/
theorem getDefaultSampleRateHz_mem (hrate : rate ≠ .nan) (hrange : min.le max = true) :
    min.le (getDefaultSampleRateHz rate min max) = true ∧
      (getDefaultSampleRateHz rate min max).le max = true := by
  have hmin : min ≠ .nan := by
    rintro rfl
    cases hrange
  have hmax : max ≠ .nan := by
    rintro rfl
    cases min <;> cases hrange
  rw [getDefaultSampleRateHz]
  split
  · exact ⟨Binary32.le_refl_of_ne_nan hmin, hrange⟩
  · next hlow =>
    split
    · exact ⟨hrange, Binary32.le_refl_of_ne_nan hmax⟩
    · next hhigh =>
      exact ⟨Binary32.le_of_lt_eq_false hrate hmin (Bool.eq_false_iff.mpr hlow),
        Binary32.le_of_lt_eq_false hmax hrate (Bool.eq_false_iff.mpr hhigh)⟩

/-- A rate in the range stays. -/
theorem getDefaultSampleRateHz_of_mem (hlow : rate.lt min = false) (hhigh : max.lt rate = false) :
    getDefaultSampleRateHz rate min max = rate := by
  rw [getDefaultSampleRateHz, hlow, hhigh, if_neg Bool.false_ne_true, if_neg Bool.false_ne_true]

end Rate

section Check

variable {lib : MathLibrary} {configsByPropId : UnorderedMap Int VehiclePropConfig}

/-- What an option that passes the check is known to be. -/
theorem config_of_checkSubscribeOption {option : SubscribeOptions}
    (h : checkSubscribeOption lib configsByPropId option = .ok ()) :
    ∃ config, configsByPropId.lookup option.propId = some config ∧
      (config.changeMode = .onChange ∨ config.changeMode = .continuous ∧
        checkContinuousRate lib option config = .ok ()) := by
  rw [checkSubscribeOption] at h
  cases hconfig : configsByPropId.lookup option.propId with
  | none =>
      rw [hconfig] at h
      cases h
  | some config =>
      refine ⟨config, rfl, ?_⟩
      rw [hconfig] at h
      simp only at h
      rcases hareas : checkedAreaConfigs option config with e | areaConfigs
      · rw [hareas] at h
        cases h
      · rw [hareas] at h
        simp only [Bind.bind, Except.bind] at h
        split at h
        · cases h
        · next hmode =>
          split at h
          · cases h
          · split at h
            · next hcontinuous => exact Or.inr ⟨hcontinuous, h⟩
            · next hcontinuous =>
              refine Or.inl ?_
              by_contra honChange
              exact hmode ⟨honChange, hcontinuous⟩

/-- If a list passes the check, so does each of its options. -/
theorem checkSubscribeOption_of_mem {options : List SubscribeOptions}
    (h : checkSubscribeOptions lib configsByPropId options = .ok ()) :
    ∀ option ∈ options, checkSubscribeOption lib configsByPropId option = .ok () := by
  induction options with
  | nil => exact fun _ hin => absurd hin List.not_mem_nil
  | cons first options ih =>
      rw [checkSubscribeOptions] at h
      cases hfirst : checkSubscribeOption lib configsByPropId first with
      | error e =>
          rw [hfirst] at h
          cases h
      | ok u =>
          rw [hfirst] at h
          intro option hin
          rcases List.mem_cons.mp hin with rfl | hin
          · exact hfirst
          · exact ih h option hin

end Check

/-- The options that go to the manager with a given value of `isContinuousProperty`. -/
def ParsedOptions.options (parsed : ParsedOptions) : Bool → List SubscribeOptions
  | true => parsed.continuousSubscriptions
  | false => parsed.onChangeSubscriptions

/-- The change mode of a continuous or an on-change property. -/
def changeModeOf : Bool → VehiclePropertyChangeMode
  | true => .continuous
  | false => .onChange

section Parse

variable {option : SubscribeOptions} {config : VehiclePropConfig}

/-- The options made from one option are appended to those there are. -/
theorem parseSubscribeOption_options (parsed : ParsedOptions) (isContinuousProperty : Bool) :
    (parseSubscribeOption option config parsed).options isContinuousProperty =
      parsed.options isContinuousProperty ++
        (parseSubscribeOption option config {}).options isContinuousProperty := by
  rw [parseSubscribeOption, parseSubscribeOption]
  by_cases hmode : config.changeMode = .continuous
  · simp only [if_pos hmode, List.nil_append]
    cases isContinuousProperty with
    | true => rfl
    | false => exact (List.append_nil _).symm
  · simp only [if_neg hmode, List.nil_append]
    cases isContinuousProperty with
    | true => exact (List.append_nil _).symm
    | false => rfl

/-- The two halves of a split option have the areas of the option. -/
theorem entriesOf_splitByVur (optionCopy : SubscribeOptions) :
    (entriesOf (splitByVur optionCopy config)).Perm (optionCopy.areaIds.map fun areaId =>
      ⟨optionCopy.propId, areaId, optionCopy.sampleRate, optionCopy.resolution,
        isVurSupported optionCopy.propId areaId config⟩) := by
  let entry (areaId : Int) : SubscriptionEntry :=
    ⟨optionCopy.propId, areaId, optionCopy.sampleRate, optionCopy.resolution,
      isVurSupported optionCopy.propId areaId config⟩
  have hsplit : entriesOf (splitByVur optionCopy config) =
      (optionCopy.areaIds.filter fun areaId =>
        isVurSupported optionCopy.propId areaId config).map entry ++
      (optionCopy.areaIds.filter fun areaId =>
        !isVurSupported optionCopy.propId areaId config).map entry := by
    rw [splitByVur, entriesOf_append]
    congr 1
    · split
      · next hnone =>
        rw [hnone]
        rfl
      · refine (List.flatMap_singleton _ _).trans (List.map_congr_left ?_)
        intro areaId hin
        have hvur := (List.mem_filter.mp hin).2
        exact congrArg (SubscriptionEntry.mk _ _ _ _) hvur.symm
    · split
      · next hnone =>
        rw [hnone]
        rfl
      · refine (List.flatMap_singleton _ _).trans (List.map_congr_left ?_)
        intro areaId hin
        have hvur := (List.mem_filter.mp hin).2
        rw [Bool.not_eq_true'] at hvur
        exact congrArg (SubscriptionEntry.mk _ _ _ _) hvur.symm
  rw [hsplit, ← List.map_append]
  exact (List.filter_append_perm _ _).map entry

/-- One option has an entry for each of its areas. -/
theorem entriesOf_parseSubscribeOption (isContinuousProperty : Bool)
    (hmode : config.changeMode = .onChange ∨ config.changeMode = .continuous) :
    (entriesOf ((parseSubscribeOption option config {}).options isContinuousProperty)).Perm
      (if config.changeMode = changeModeOf isContinuousProperty then
        (meantAreaIds option config).map (meantEntry option config) else []) := by
  rw [parseSubscribeOption, expandedAreaIds_eq]
  by_cases hcontinuous : config.changeMode = .continuous
  · simp only [if_pos hcontinuous, List.nil_append]
    cases isContinuousProperty with
    | false =>
        have hother : config.changeMode ≠ changeModeOf false := by
          rw [hcontinuous]
          exact nofun
        rw [if_neg hother]
        exact List.Perm.refl _
    | true =>
        rw [changeModeOf, if_pos hcontinuous, ParsedOptions.options]
        by_cases hvur : option.enableVariableUpdateRate = true
        · simp only [hvur, Bool.not_true, Bool.false_eq_true, if_false]
          refine (entriesOf_splitByVur _).trans (List.Perm.of_eq ?_)
          refine List.map_congr_left fun areaId _ => ?_
          simp only [meantEntry, if_pos hcontinuous, hvur, Bool.true_and, isVurSupported_eq]
          rfl
        · simp only [hvur, Bool.not_false, if_true]
          refine List.Perm.of_eq ((List.flatMap_singleton _ _).trans ?_)
          refine List.map_congr_left fun areaId _ => ?_
          simp only [meantEntry, if_pos hcontinuous, hvur, Bool.false_and]
          rfl
  · have honChange := hmode.resolve_right hcontinuous
    simp only [if_neg hcontinuous, List.nil_append]
    cases isContinuousProperty with
    | true =>
        rw [changeModeOf, if_neg hcontinuous]
        exact List.Perm.refl _
    | false =>
        rw [changeModeOf, if_pos honChange, ParsedOptions.options]
        refine List.Perm.of_eq ((List.flatMap_singleton _ _).trans ?_)
        refine List.map_congr_left fun areaId _ => ?_
        simp only [meantEntry, if_neg hcontinuous]

variable {configsByPropId : UnorderedMap Int VehiclePropConfig}

/-- Options whose properties have configs are parsed, and their entries are the meant ones. -/
theorem exists_parseSubscribeOptions {options : List SubscribeOptions}
    (h : ∀ option ∈ options, ∃ config, configsByPropId.lookup option.propId = some config ∧
      (config.changeMode = .onChange ∨ config.changeMode = .continuous)) :
    ∀ parsed : ParsedOptions, ∃ parsed',
      parseSubscribeOptions configsByPropId options parsed = some parsed' ∧
      ∀ isContinuousProperty, (entriesOf (parsed'.options isContinuousProperty)).Perm
        (entriesOf (parsed.options isContinuousProperty) ++
          meantEntries configsByPropId (changeModeOf isContinuousProperty) options) := by
  induction options with
  | nil =>
      intro parsed
      refine ⟨parsed, rfl, fun isContinuousProperty => ?_⟩
      rw [meantEntries, List.flatMap_nil, List.append_nil]
  | cons option options ih =>
      intro parsed
      obtain ⟨config, hconfig, hmode⟩ := h option List.mem_cons_self
      obtain ⟨parsed', hparsed, hentries⟩ :=
        ih (fun o hin => h o (List.mem_cons_of_mem _ hin))
          (parseSubscribeOption option config parsed)
      refine ⟨parsed', ?_, fun isContinuousProperty => ?_⟩
      · rw [parseSubscribeOptions, hconfig]
        exact hparsed
      · refine (hentries isContinuousProperty).trans ?_
        rw [parseSubscribeOption_options, entriesOf_append, List.append_assoc]
        rw [meantEntries, meantEntries, List.flatMap_cons]
        refine List.Perm.append_left _ (List.Perm.append_right _ ?_)
        rw [meantByOption, hconfig]
        exact entriesOf_parseSubscribeOption isContinuousProperty hmode

/-- A parsed option was there before or is made from one of the given options. -/
theorem mem_options_of_parse {options : List SubscribeOptions} {o : SubscribeOptions}
    {isContinuousProperty : Bool} :
    ∀ {parsed parsed' : ParsedOptions},
      parseSubscribeOptions configsByPropId options parsed = some parsed' →
      o ∈ parsed'.options isContinuousProperty →
      o ∈ parsed.options isContinuousProperty ∨ ∃ option ∈ options, ∃ config,
        configsByPropId.lookup option.propId = some config ∧
        o ∈ (parseSubscribeOption option config {}).options isContinuousProperty := by
  induction options with
  | nil =>
      intro parsed parsed' h hin
      cases h
      exact Or.inl hin
  | cons option options ih =>
      intro parsed parsed' h hin
      rw [parseSubscribeOptions] at h
      cases hconfig : configsByPropId.lookup option.propId with
      | none =>
          rw [hconfig] at h
          cases h
      | some config =>
          rw [hconfig] at h
          rcases ih h hin with hold | ⟨option', hin', hmade⟩
          · rw [parseSubscribeOption_options] at hold
            rcases List.mem_append.mp hold with hold | hnew
            · exact Or.inl hold
            · exact Or.inr ⟨option, List.mem_cons_self, config, hconfig, hnew⟩
          · exact Or.inr ⟨option', List.mem_cons_of_mem _ hin', hmade⟩

end Parse

section Manager

open Subscription.SubscriptionManager (checkOptions checkContinuousOption)

variable {lib : MathLibrary}

/-- An option that the manager does not refuse. -/
structure Acceptable (lib : MathLibrary) (isContinuousProperty : Bool)
    (option : SubscribeOptions) : Prop where
  areaIds : option.areaIds ≠ []
  sampleRate : isContinuousProperty = true → checkSampleRateHz option.sampleRate = true
  resolution : isContinuousProperty = true →
    Subscription.checkResolution lib option.resolution = true

/-- A checked rate and resolution are never refused. -/
theorem checkContinuousOption_ne_error {option : SubscribeOptions}
    (hrate : checkSampleRateHz option.sampleRate = true)
    (hresolution : Subscription.checkResolution lib option.resolution = true)
    (e : Subscription.StatusError) : checkContinuousOption lib option ≠ some (.error e) := by
  rw [checkSampleRateHz] at hrate
  rw [checkContinuousOption]
  rcases hinterval : Subscription.getIntervalNanos option.sampleRate with _ | message | interval
  · exact nofun
  · rw [hinterval] at hrate
    cases hrate
  · rw [Option.map_some, if_pos hresolution]
    exact nofun

/-- The manager refuses no list of acceptable options. -/
theorem checkOptions_ne_error {isContinuousProperty : Bool} {options : List SubscribeOptions}
    (h : ∀ option ∈ options, Acceptable lib isContinuousProperty option)
    (e : Subscription.StatusError) :
    checkOptions lib isContinuousProperty options ≠ some (.error e) := by
  induction options with
  | nil => exact nofun
  | cons option options ih =>
      have hoption := h option List.mem_cons_self
      have hrest := ih fun o hin => h o (List.mem_cons_of_mem _ hin)
      have hareas : option.areaIds.isEmpty = false := by
        rw [Bool.eq_false_iff, ne_eq, List.isEmpty_iff]
        exact hoption.areaIds
      rw [checkOptions]
      cases isContinuousProperty with
      | false =>
          simp only [Bool.false_eq_true, if_false, Option.bind_some, hareas]
          exact hrest
      | true =>
          have hfirst := checkContinuousOption_ne_error (hoption.sampleRate rfl)
            (hoption.resolution rfl)
          rcases hchecked : checkContinuousOption lib option with _ | e' | u
          · exact nofun
          · exact absurd hchecked (hfirst e')
          · simp only [if_true, Option.bind_some, hareas, Bool.false_eq_true, if_false]
            exact hrest

variable {option : SubscribeOptions} {config : VehiclePropConfig}

/-- A half of a split option has an area. -/
theorem areaIds_of_mem_splitByVur {o optionCopy : SubscribeOptions}
    (h : o ∈ splitByVur optionCopy config) :
    o.areaIds ≠ [] ∧ o.sampleRate = optionCopy.sampleRate ∧
      o.resolution = optionCopy.resolution := by
  rw [splitByVur] at h
  rcases List.mem_append.mp h with h | h
  · split at h
    · cases h
    · next hareas =>
      rw [List.mem_singleton.mp h]
      exact ⟨hareas, rfl, rfl⟩
  · split at h
    · cases h
    · next hareas =>
      rw [List.mem_singleton.mp h]
      exact ⟨hareas, rfl, rfl⟩

/-- The rate that passes the check is the one in the bounds. -/
theorem acceptable_of_checkContinuousRate
    (h : checkContinuousRate lib option config = .ok ()) :
    checkSampleRateHz (getDefaultSampleRateHz option.sampleRate config.minSampleRate
      config.maxSampleRate) = true ∧ Subscription.checkResolution lib option.resolution = true := by
  rw [checkContinuousRate] at h
  split at h
  · cases h
  · next hrate =>
    split at h
    · cases h
    · next hresolution =>
      exact ⟨Bool.eq_true_of_not_eq_false hrate, Bool.eq_true_of_not_eq_false hresolution⟩

/-- An option made from a checked option with an area is acceptable. -/
theorem acceptable_of_mem_parseSubscribeOption {isContinuousProperty : Bool} {o : SubscribeOptions}
    (hmode : config.changeMode = .onChange ∨ config.changeMode = .continuous ∧
      checkContinuousRate lib option config = .ok ())
    (hareas : meantAreaIds option config ≠ [])
    (h : o ∈ (parseSubscribeOption option config {}).options isContinuousProperty) :
    Acceptable lib isContinuousProperty o := by
  rw [parseSubscribeOption] at h
  rcases hmode with honChange | ⟨hcontinuous, hchecked⟩
  · have hcontinuous : config.changeMode ≠ .continuous := by
      rw [honChange]
      exact nofun
    simp only [if_neg hcontinuous, List.nil_append] at h
    cases isContinuousProperty with
    | true => cases h
    | false =>
        rw [List.mem_singleton.mp h]
        exact ⟨expandedAreaIds_eq option config ▸ hareas, nofun, nofun⟩
  · obtain ⟨hrate, hresolution⟩ := acceptable_of_checkContinuousRate hchecked
    simp only [if_pos hcontinuous, List.nil_append] at h
    cases isContinuousProperty with
    | false => cases h
    | true =>
        rw [ParsedOptions.options] at h
        simp only at h
        split at h
        · rw [List.mem_singleton.mp h]
          exact ⟨expandedAreaIds_eq option config ▸ hareas, fun _ => hrate, fun _ => hresolution⟩
        · obtain ⟨hsome, hsame, hsame'⟩ := areaIds_of_mem_splitByVur h
          refine ⟨hsome, fun _ => ?_, fun _ => ?_⟩
          · rw [hsame]
            exact hrate
          · rw [hsame']
            exact hresolution

end Manager

section Expansion

open Subscription.SubscriptionManager (checkOptions)

/-- An option means an area if its property is global, or it lists one, or the config does. -/
theorem meantAreaIds_ne_nil {option : SubscribeOptions} {config : VehiclePropConfig}
    (h : isGlobalProp option.propId = true ∨ option.areaIds ≠ [] ∨ config.areaConfigs ≠ []) :
    meantAreaIds option config ≠ [] := by
  rw [meantAreaIds]
  split
  · exact List.cons_ne_nil _ _
  · next hglobal =>
    split
    · next hlisted => exact hlisted
    · next hnone =>
      rw [ne_eq, List.map_eq_nil_iff]
      exact (h.resolve_left hglobal).resolve_left hnone

/-- Checked options are parsed. The parsed options of each kind say what the given ones mean,
and the manager refuses none of them if every option has an area. The rate of a continuous
property is in its range, and stays if it is there already. -/
theorem subscribeOptions_expanded (lib : MathLibrary)
    (configsByPropId : UnorderedMap Int VehiclePropConfig) (options : List SubscribeOptions)
    (h : checkSubscribeOptions lib configsByPropId options = .ok ()) :
    (∃ parsed, parseSubscribeOptions configsByPropId options {} = some parsed ∧
      ∀ isContinuousProperty,
        (entriesOf (parsed.options isContinuousProperty)).Perm
          (meantEntries configsByPropId (changeModeOf isContinuousProperty) options) ∧
        ((∀ option ∈ options, ∀ config, configsByPropId.lookup option.propId = some config →
          isGlobalProp option.propId = true ∨ option.areaIds ≠ [] ∨ config.areaConfigs ≠ []) →
          ∀ e, checkOptions lib isContinuousProperty (parsed.options isContinuousProperty) ≠
            some (.error e))) ∧
    ∀ option config areaId, config.changeMode = .continuous →
      (option.sampleRate ≠ .nan → config.minSampleRate.le config.maxSampleRate = true →
        config.minSampleRate.le (meantEntry option config areaId).sampleRate = true ∧
        (meantEntry option config areaId).sampleRate.le config.maxSampleRate = true) ∧
      (option.sampleRate.lt config.minSampleRate = false →
        config.maxSampleRate.lt option.sampleRate = false →
        (meantEntry option config areaId).sampleRate = option.sampleRate) := by
  refine ⟨?_, ?_⟩
  swap
  · intro option config areaId hcontinuous
    have hrate : (meantEntry option config areaId).sampleRate =
        getDefaultSampleRateHz option.sampleRate config.minSampleRate config.maxSampleRate :=
      if_pos hcontinuous
    rw [hrate]
    exact ⟨getDefaultSampleRateHz_mem, getDefaultSampleRateHz_of_mem⟩
  have hconfigs := fun option hin =>
    config_of_checkSubscribeOption (checkSubscribeOption_of_mem h option hin)
  have hmodes : ∀ option ∈ options, ∃ config,
      configsByPropId.lookup option.propId = some config ∧
      (config.changeMode = .onChange ∨ config.changeMode = .continuous) := by
    intro option hin
    obtain ⟨config, hconfig, hmode⟩ := hconfigs option hin
    exact ⟨config, hconfig, hmode.imp_right And.left⟩
  obtain ⟨parsed, hparsed, hentries⟩ := exists_parseSubscribeOptions hmodes {}
  refine ⟨parsed, hparsed, fun isContinuousProperty => ⟨?_, fun hareas => ?_⟩⟩
  · have hnone : entriesOf ((ParsedOptions.mk [] []).options isContinuousProperty) = [] := by
      cases isContinuousProperty <;> rfl
    have hperm := hentries isContinuousProperty
    rw [hnone] at hperm
    exact hperm
  · refine checkOptions_ne_error fun o hin => ?_
    rcases mem_options_of_parse hparsed hin with hold | ⟨option, hin', config, hconfig, hmade⟩
    · cases isContinuousProperty <;> cases hold
    · obtain ⟨config', hconfig', hmode⟩ := hconfigs option hin'
      rw [hconfig] at hconfig'
      cases hconfig'
      exact acceptable_of_mem_parseSubscribeOption hmode
        (meantAreaIds_ne_nil (hareas option hin' config hconfig)) hmade

/-- A continuous property with one seat that supports a variable update rate. -/
def seatConfig : VehiclePropConfig where
  prop := 0x15600100
  access := .read
  changeMode := .continuous
  areaConfigs := [{ areaId := 1, supportVariableUpdateRate := true }, { areaId := 4 }]
  minSampleRate := .ofInt 1
  maxSampleRate := .ofInt 10

/-- An option for all seats that asks for too high a rate. -/
def seatOption : SubscribeOptions where
  propId := 0x15600100
  areaIds := []
  sampleRate := .ofInt 20
  enableVariableUpdateRate := true

theorem seatOption_checked :
    checkSubscribeOptions default (Finmap.singleton 0x15600100 seatConfig) [seatOption] =
      .ok () := by
  decide +kernel

/-- An option for two seats is split by their variable update rate. -/
theorem seatOption_expanded :
    ∃ parsed, parseSubscribeOptions (Finmap.singleton 0x15600100 seatConfig) [seatOption] {} =
        some parsed ∧
      (entriesOf (parsed.options true)).Perm
        [⟨0x15600100, 1, .ofInt 10, .zero, true⟩, ⟨0x15600100, 4, .ofInt 10, .zero, false⟩] := by
  obtain ⟨⟨parsed, hparsed, hentries⟩, -⟩ := subscribeOptions_expanded default
    (Finmap.singleton 0x15600100 seatConfig) [seatOption] seatOption_checked
  refine ⟨parsed, hparsed, ?_⟩
  have hmeant : meantEntries (Finmap.singleton 0x15600100 seatConfig) (changeModeOf true)
      [seatOption] =
      [⟨0x15600100, 1, .ofInt 10, .zero, true⟩, ⟨0x15600100, 4, .ofInt 10, .zero, false⟩] := by
    decide +kernel
  rw [← hmeant]
  exact (hentries true).1

/-- An on-change property of seats. It has no area configs, or one without a variable update
rate. -/
def onChangeConfig (areaConfigs : List VehicleAreaConfig) : VehiclePropConfig where
  prop := 0x15400200
  access := .read
  changeMode := .onChange
  areaConfigs := areaConfigs

/-- The option for all areas of a property without area configs passes the check and is refused
by the manager. The option for an on-change property keeps its variable update rate where the
area does not support it. -/
theorem onChange_options_differ :
    (checkSubscribeOptions default (Finmap.singleton 0x15400200 (onChangeConfig []))
      [⟨0x15400200, [], .zero, .zero, false⟩] = .ok () ∧
    (parseSubscribeOptions (Finmap.singleton 0x15400200 (onChangeConfig []))
      [⟨0x15400200, [], .zero, .zero, false⟩] {}).bind
        (fun parsed => checkOptions default false (parsed.options false)) =
      some (.error ⟨.invalidArg, .emptyAreaIds⟩)) ∧
    (checkSubscribeOptions default (Finmap.singleton 0x15400200 (onChangeConfig [{ areaId := 1 }]))
      [⟨0x15400200, [1], .zero, .zero, true⟩] = .ok () ∧
    (parseSubscribeOptions (Finmap.singleton 0x15400200 (onChangeConfig [{ areaId := 1 }]))
      [⟨0x15400200, [1], .zero, .zero, true⟩] {}).map
        (fun parsed => entriesOf (parsed.options false)) =
      some [⟨0x15400200, 1, .zero, .zero, true⟩] ∧
    isVurSupported 0x15400200 1 (onChangeConfig [{ areaId := 1 }]) = false) := by
  decide +kernel

end Expansion

end VhalCore.VehicleHal
