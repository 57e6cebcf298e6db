import VhalCore.Core.Execution
import VhalCore.Models.VehicleHal.Native.ConfigCache

/-!
# Cached and uncached configs

Reading the configs again adds to the map what the hardware has now and takes nothing out,
and a file with configs is replaced only by another file. The cache then agrees with the
hardware exactly if every property in the map is still one that the hardware has and that is
supported, and no file stays behind that has other contents.
-/

namespace VhalCore.VehicleHal

variable {ctx : ConfigContext} {s t : ConfigState} {e : ConfigEvent}

/-- Configs stay inline or go into a file that contains them. -/
def ConfigContext.KeepsContents (ctx : ConfigContext) : Prop :=
  ∀ configs, ctx.parcelableToStableLargeParcelable configs = .ok none ∨
    ctx.parcelableToStableLargeParcelable configs = .ok (some configs)

/-- The cache as it would be if it had not been initialised. -/
def ConfigCache.uninitialised (cache : ConfigCache) : ConfigCache :=
  { cache with mConfigInit := false }

/-- The operation initialises the cache or reads the configs again. -/
def Refreshes (s : ConfigState) : ConfigEvent → Prop
  | .hardwareChanges _ => False
  | .getAllPropConfigs | .subscribe => s.cache.mConfigInit = false
  | .dump refreshPropertyConfigs callerShouldDumpState =>
      refreshPropertyConfigs = true ∨
        callerShouldDumpState = true ∧ s.cache.mConfigInit = false

/-- The answers for every property are those that come from the hardware without the cache. -/
structure AgreesWithHardware (ctx : ConfigContext) (s : ConfigState) : Prop where
  config : ∀ prop config, getConfig ctx s.hardware s.cache prop = .ok config ↔
    getConfig ctx s.hardware s.cache.uninitialised prop = .ok config
  configs : ∀ props, getPropConfigs ctx s.hardware s.cache props =
    getPropConfigs ctx s.hardware s.cache.uninitialised props
  all : ∀ order, ∃ output, getAllPropConfigs ctx s.hardware order s.cache = some (output, s.cache) ∧
    ∀ config, config ∈ output.contents ↔
      getConfig ctx s.hardware s.cache.uninitialised config.prop = .ok config

/-- Nothing in the cache is out of date: the hardware has a supported config for every property
in the map, and a file that stays has the contents that a new one would have. -/
structure NothingStale (ctx : ConfigContext) (s : ConfigState) : Prop where
  map : ∀ prop config, s.cache.mConfigsByPropId.lookup prop = some config →
    ∃ current ∈ filteredConfigs ctx s.hardware, current.prop = prop
  file : ctx.parcelableToStableLargeParcelable (filteredConfigs ctx s.hardware) = .ok none →
    ∀ file, s.cache.mConfigFile = some file →
      ∀ config, config ∈ file ↔ config ∈ filteredConfigs ctx s.hardware

/-- Storing configs of distinct properties replaces these and leaves the others. -/
theorem lookup_storeConfigs (configs : List VehiclePropConfig)
    (hn : (configs.map VehiclePropConfig.prop).Nodup) (m : UnorderedMap Int VehiclePropConfig)
    (prop : Int) :
    (storeConfigs configs m).lookup prop =
      (configs.find? fun config => config.prop = prop).or (m.lookup prop) := by
  induction configs generalizing m with
  | nil => rfl
  | cons config configs ih =>
      rw [List.map_cons, List.nodup_cons] at hn
      rw [storeConfigs, List.foldl_cons]
      refine (ih hn.2 (m.insert config.prop config)).trans ?_
      rw [UnorderedMap.lookup_insert_eq, List.find?_cons]
      by_cases hprop : prop = config.prop
      · have hnone : (configs.find? fun other => other.prop = prop) = none := by
          rw [List.find?_eq_none]
          intro other hother heq
          rw [decide_eq_true_eq] at heq
          exact hn.1 (hprop ▸ heq ▸ List.mem_map_of_mem hother)
        rw [hnone, if_pos hprop, decide_eq_true hprop.symm]
        rfl
      · rw [if_neg hprop, decide_eq_false (Ne.symm hprop)]

/-- Among distinct properties a config is found exactly by its own. -/
theorem find?_prop_eq_some {configs : List VehiclePropConfig}
    (hn : (configs.map VehiclePropConfig.prop).Nodup) (prop : Int) (config : VehiclePropConfig) :
    (configs.find? fun other => other.prop = prop) = some config ↔
      config ∈ configs ∧ config.prop = prop := by
  induction configs with
  | nil => simp
  | cons other configs ih =>
      rw [List.map_cons, List.nodup_cons] at hn
      rw [List.find?_cons]
      by_cases hprop : other.prop = prop
      · rw [decide_eq_true hprop, Option.some_inj, List.mem_cons]
        constructor
        · rintro rfl
          exact ⟨Or.inl rfl, hprop⟩
        · rintro ⟨rfl | hmem, heq⟩
          · rfl
          · exact absurd (hprop.trans heq.symm ▸ List.mem_map_of_mem hmem) hn.1
      · rw [decide_eq_false hprop]
        refine (ih hn.2).trans ⟨fun h => ⟨List.mem_cons_of_mem _ h.1, h.2⟩, fun h => ⟨?_, h.2⟩⟩
        rcases List.mem_cons.mp h.1 with rfl | hmem
        · exact absurd h.2 hprop
        · exact hmem

theorem nodup_filteredConfigs (ctx : ConfigContext) (hardware : HardwareConfigs) :
    ((filteredConfigs ctx hardware).map VehiclePropConfig.prop).Nodup :=
  hardware.distinct.sublist (List.filter_sublist.map _)

/-- Without the cache the supported configs of the hardware are found. -/
theorem getConfig_uninitialised (ctx : ConfigContext) (hardware : HardwareConfigs)
    (cache : ConfigCache) (prop : Int) (config : VehiclePropConfig) :
    getConfig ctx hardware cache.uninitialised prop = .ok config ↔
      config ∈ filteredConfigs ctx hardware ∧ config.prop = prop := by
  have hfind := find?_prop_eq_some hardware.distinct prop
  rw [filteredConfigs, List.mem_filter, getConfig, ConfigCache.uninitialised, if_pos rfl,
    HardwareConfigs.getPropertyConfig]
  cases h : hardware.getAllPropertyConfigs.find? fun config => config.prop = prop with
  | none =>
      refine iff_of_false nofun fun hmem => ?_
      have := (hfind config).mpr ⟨hmem.1.1, hmem.2⟩
      rw [h] at this
      cases this
  | some found =>
      simp only
      obtain ⟨hmem, hprop⟩ := (hfind found).mp h
      have hsame : config ∈ hardware.getAllPropertyConfigs ∧ config.prop = prop ↔
          found = config := by rw [← hfind config, h, Option.some_inj]
      split
      · next hsupported =>
        refine iff_of_false nofun fun hc => ?_
        rw [hsame.mp ⟨hc.1.1, hc.2⟩, hc.1.2] at hsupported
        cases hsupported
      · next hsupported =>
        rw [Except.ok.injEq]
        constructor
        · rintro rfl
          exact ⟨⟨hmem, eq_true_of_ne_false hsupported⟩, hprop⟩
        · rintro ⟨⟨hc, _⟩, hcprop⟩
          exact hsame.mp ⟨hc, hcprop⟩

/-- The configuration of a supported property is the first of the filtered ones. -/
theorem filter_getPropertyConfig (ctx : ConfigContext) (hardware : HardwareConfigs) (prop : Int) :
    (hardware.getPropertyConfig prop).filter (isConfigSupportedForCurrentVhalVersion ctx) =
      (filteredConfigs ctx hardware).find? fun config => config.prop = prop := by
  refine Option.ext fun config => ?_
  rw [Option.filter_eq_some_iff, HardwareConfigs.getPropertyConfig,
    find?_prop_eq_some hardware.distinct, find?_prop_eq_some (nodup_filteredConfigs ctx hardware),
    filteredConfigs, List.mem_filter]
  exact and_right_comm

/-- With the cache the configs of the map are found. -/
theorem getConfig_initialised (ctx : ConfigContext) (hardware : HardwareConfigs)
    {cache : ConfigCache} (h : cache.mConfigInit = true) (prop : Int)
    (config : VehiclePropConfig) :
    getConfig ctx hardware cache prop = .ok config ↔
      cache.mConfigsByPropId.lookup prop = some config := by
  rw [getConfig, if_neg (by rw [h]; exact Bool.noConfusion)]
  cases cache.mConfigsByPropId.lookup prop with
  | none => exact iff_of_false nofun nofun
  | some found => exact ⟨fun heq => by cases heq; rfl, fun heq => by cases heq; rfl⟩

/-- What reading the configs again makes of the cache. -/
theorem getAllPropConfigsFromHardwareLocked_eq (hctx : ctx.KeepsContents)
    (hardware : HardwareConfigs) (cache : ConfigCache) :
    ∃ file, getAllPropConfigsFromHardwareLocked ctx hardware cache =
        (true, ⟨true, storeConfigs (filteredConfigs ctx hardware) cache.mConfigsByPropId, file⟩) ∧
      (ctx.parcelableToStableLargeParcelable (filteredConfigs ctx hardware) = .ok none ∧
          file = cache.mConfigFile ∨
        ctx.parcelableToStableLargeParcelable (filteredConfigs ctx hardware) ≠ .ok none ∧
          file = some (filteredConfigs ctx hardware)) := by
  rw [getAllPropConfigsFromHardwareLocked]
  rcases hctx (filteredConfigs ctx hardware) with hinline | hfile
  · rw [hinline]
    exact ⟨_, rfl, Or.inl ⟨rfl, rfl⟩⟩
  · rw [hfile]
    exact ⟨_, rfl, Or.inr ⟨nofun, rfl⟩⟩

/-- The configs that a client gets: those of the file, if there is one, else those of the map. -/
theorem mem_contents_allConfigs (order : Traversal Int) (cache : ConfigCache)
    (config : VehiclePropConfig) :
    config ∈ (allConfigs order cache).contents ↔
      match cache.mConfigFile with
      | some file => config ∈ file
      | none => ∃ prop, cache.mConfigsByPropId.lookup prop = some config := by
  rw [allConfigs]
  cases cache.mConfigFile with
  | some file => exact Iff.rfl
  | none =>
      simp only [VehiclePropConfigs.contents, Option.getD_none, List.mem_map, Prod.exists,
        order.mem_entries]
      constructor
      · rintro ⟨prop, _, hlookup, rfl⟩
        exact ⟨prop, hlookup⟩
      · rintro ⟨prop, hlookup⟩
        exact ⟨prop, config, hlookup, rfl⟩

/-- The state after the configs have been read again. -/
def refreshed (ctx : ConfigContext) (s : ConfigState) : ConfigState :=
  { s with cache := (getAllPropConfigsFromHardwareLocked ctx s.hardware s.cache).2 }

/-- An operation that refreshes the cache reads the configs again and does nothing else. -/
theorem configStep_of_refreshes (hctx : ctx.KeepsContents) (h : Refreshes s e)
    (hstep : configStep ctx s e = some t) : t = refreshed ctx s := by
  obtain ⟨file, heq, _⟩ := getAllPropConfigsFromHardwareLocked_eq hctx s.hardware s.cache
  have hinit (hnot : s.cache.mConfigInit = false) :
      initConfigs ctx s.hardware s.cache = some (refreshed ctx s).cache := by
    rw [initConfigs, hnot, refreshed, heq]
    rfl
  have hkept :
      initConfigs ctx s.hardware (refreshed ctx s).cache = some (refreshed ctx s).cache := by
    rw [initConfigs, refreshed, heq]
    rfl
  cases e with
  | hardwareChanges hardware => exact h.elim
  | getAllPropConfigs | subscribe =>
      rw [configStep, hinit h, Option.map_some, Option.some_inj] at hstep
      exact hstep.symm
  | dump refreshPropertyConfigs callerShouldDumpState =>
      rw [configStep] at hstep
      cases refreshPropertyConfigs with
      | true =>
          cases callerShouldDumpState with
          | true =>
              refine (Option.some.inj (hstep.symm.trans ?_))
              exact congrArg (Option.map _) hkept
          | false => exact (Option.some.inj hstep).symm
      | false =>
          obtain ⟨rfl, hnot⟩ := h.resolve_left Bool.noConfusion
          refine (Option.some.inj (hstep.symm.trans ?_))
          exact congrArg (Option.map _) (hinit hnot)

section Refreshed

variable (hctx : ctx.KeepsContents)
include hctx

theorem mConfigInit_refreshed (s : ConfigState) : (refreshed ctx s).cache.mConfigInit = true := by
  obtain ⟨file, heq, _⟩ := getAllPropConfigsFromHardwareLocked_eq hctx s.hardware s.cache
  rw [refreshed, heq]

/-- A refreshed cache has the configurations of the hardware, and older ones beside them. -/
theorem lookup_refreshed (s : ConfigState) (prop : Int) :
    (refreshed ctx s).cache.mConfigsByPropId.lookup prop =
      ((filteredConfigs ctx s.hardware).find? fun config => config.prop = prop).or
        (s.cache.mConfigsByPropId.lookup prop) := by
  obtain ⟨file, heq, _⟩ := getAllPropConfigsFromHardwareLocked_eq hctx s.hardware s.cache
  rw [refreshed, heq]
  exact lookup_storeConfigs _ (nodup_filteredConfigs ctx s.hardware) _ prop

/-- A refreshed cache keeps its file where the configurations fit the message, and gets a new one
elsewhere. -/
theorem mConfigFile_refreshed (s : ConfigState) :
    ctx.parcelableToStableLargeParcelable (filteredConfigs ctx s.hardware) = .ok none ∧
        (refreshed ctx s).cache.mConfigFile = s.cache.mConfigFile ∨
      ctx.parcelableToStableLargeParcelable (filteredConfigs ctx s.hardware) ≠ .ok none ∧
        (refreshed ctx s).cache.mConfigFile = some (filteredConfigs ctx s.hardware) := by
  obtain ⟨file, heq, hfile⟩ := getAllPropConfigsFromHardwareLocked_eq hctx s.hardware s.cache
  rw [refreshed, heq]
  exact hfile

theorem getAllPropConfigs_refreshed (s : ConfigState) (order : Traversal Int) :
    getAllPropConfigs ctx s.hardware order (refreshed ctx s).cache =
      some (allConfigs order (refreshed ctx s).cache, (refreshed ctx s).cache) := by
  rw [getAllPropConfigs, initConfigs, if_pos (mConfigInit_refreshed hctx s), Option.map_some]

/-- Where the cache agrees with the hardware after a refresh nothing was stale before. -/
theorem nothingStale_of_agrees (s : ConfigState)
    (h : AgreesWithHardware ctx (refreshed ctx s)) : NothingStale ctx s := by
  have hcached := getConfig_initialised ctx s.hardware (mConfigInit_refreshed hctx s)
  have huncached := getConfig_uninitialised ctx s.hardware (refreshed ctx s).cache
  have hfind := find?_prop_eq_some (nodup_filteredConfigs ctx s.hardware)
  refine ⟨fun prop config hold => ?_, fun hinline file hfile config => ?_⟩
  · cases hcurrent : (filteredConfigs ctx s.hardware).find? fun config => config.prop = prop with
    | some current =>
        obtain ⟨hmem, hprop⟩ := (hfind prop current).mp hcurrent
        exact ⟨current, hmem, hprop⟩
    | none =>
        have hnew := lookup_refreshed hctx s prop
        rw [hcurrent, hold, Option.none_or] at hnew
        have hanswer := (h.config prop config).mp ((hcached prop config).mpr hnew)
        obtain ⟨hmem, hprop⟩ := (huncached prop config).mp hanswer
        exact ⟨config, hmem, hprop⟩
  · obtain ⟨output, hout, hcontents⟩ := h.all (.ascending _)
    cases (getAllPropConfigs_refreshed hctx s _).symm.trans hout
    have hstays : (refreshed ctx s).cache.mConfigFile = some file := by
      rcases mConfigFile_refreshed hctx s with ⟨_, hkept⟩ | ⟨hnot, _⟩
      · exact hkept.trans hfile
      · exact absurd hinline hnot
    have hmem := mem_contents_allConfigs (.ascending _) (refreshed ctx s).cache config
    rw [hstays] at hmem
    refine hmem.symm.trans ((hcontents config).trans ((huncached config.prop config).trans ?_))
    exact and_iff_left rfl

/-- Where nothing is stale the cache agrees with the hardware after a refresh. -/
theorem agrees_of_nothingStale (s : ConfigState) (h : NothingStale ctx s) :
    AgreesWithHardware ctx (refreshed ctx s) := by
  have hinit := mConfigInit_refreshed hctx s
  have huncached := getConfig_uninitialised ctx s.hardware (refreshed ctx s).cache
  have hfind := find?_prop_eq_some (nodup_filteredConfigs ctx s.hardware)
  have hmap (prop : Int) : (refreshed ctx s).cache.mConfigsByPropId.lookup prop =
      (filteredConfigs ctx s.hardware).find? fun config => config.prop = prop := by
    rw [lookup_refreshed hctx]
    cases hold : s.cache.mConfigsByPropId.lookup prop with
    | none => rw [Option.or_none]
    | some config =>
        obtain ⟨current, hcurrent⟩ := h.map prop config hold
        rw [(hfind prop current).mpr hcurrent]
        rfl
  refine ⟨fun prop config => ?_, fun props => ?_,
    fun order => ⟨_, getAllPropConfigs_refreshed hctx s order, fun config => ?_⟩⟩
  · refine (getConfig_initialised ctx s.hardware hinit prop config).trans ?_
    rw [hmap, hfind]
    exact (huncached prop config).symm
  · rw [getPropConfigs, getPropConfigs, if_neg (by rw [hinit]; exact Bool.noConfusion),
      ConfigCache.uninitialised, if_pos rfl]
    refine congrArg (fun find => (collectConfigs find props).map _) (funext fun prop => ?_)
    rw [hmap]
    exact (filter_getPropertyConfig ctx s.hardware prop).symm
  · refine ((mem_contents_allConfigs order _ config).trans ?_).trans
      (huncached config.prop config).symm
    rw [and_iff_left rfl]
    have hinmap : (∃ prop, (refreshed ctx s).cache.mConfigsByPropId.lookup prop = some config) ↔
        config ∈ filteredConfigs ctx s.hardware := by
      constructor
      · rintro ⟨prop, hfound⟩
        rw [hmap] at hfound
        exact ((hfind prop config).mp hfound).1
      · intro hmem
        exact ⟨config.prop, (hmap _).trans ((hfind config.prop config).mpr ⟨hmem, rfl⟩)⟩
    rcases mConfigFile_refreshed hctx s with ⟨hinline, hkept⟩ | ⟨_, hnew⟩
    · rw [hkept]
      cases hold : s.cache.mConfigFile with
      | some file => exact h.file hinline file hold config
      | none => exact hinmap
    · rw [hnew]

end Refreshed

/-- Right after each initialisation or refresh in a run the cache agrees with the hardware, if
and only if nothing in the cache was stale before any of them. -/
theorem agreesWithHardware_iff_nothingStale (hctx : ctx.KeepsContents)
    {hardware : HardwareConfigs} {events : List ConfigEvent} :
    Path (fun s e t => configStep ctx s e = some t ∧ (Refreshes s e → AgreesWithHardware ctx t))
        ⟨hardware, {}⟩ events s ↔
      Path (fun s e t => configStep ctx s e = some t ∧ (Refreshes s e → NothingStale ctx s))
        ⟨hardware, {}⟩ events s := by
  refine Path.restrict_congr (I := fun _ => True) trivial
    fun s e t _ hstep => ⟨?_, fun _ => trivial⟩
  refine imp_congr_right fun hrefresh => ?_
  rw [configStep_of_refreshes hctx hrefresh hstep]
  exact ⟨nothingStale_of_agrees hctx s, agrees_of_nothingStale hctx s⟩

/-- Configs stay inline, as they do on the gRPC path. -/
def inlineContext : ConfigContext where
  versionForVehicleProperty := fun _ => none
  getVhalInterfaceVersion := 4
  parcelableToStableLargeParcelable := fun _ => .ok none

private theorem keepsContents_inline : inlineContext.KeepsContents := fun _ => Or.inl rfl

/-- A hardware with no property. -/
def noConfigs : HardwareConfigs := ⟨[], List.nodup_nil⟩

/-- The configuration of a vendor property, which every version supports. -/
def vendorConfig : VehiclePropConfig := { prop := 0x21405000, access := .readWrite }

/-- A hardware with one vendor property. -/
def vendorConfigs : HardwareConfigs := ⟨[vendorConfig], List.nodup_singleton _⟩

/-- The service once the vendor property has been read. -/
private def vendorRead : ConfigState := refreshed inlineContext ⟨vendorConfigs, {}⟩

/-- A vendor property that is gone is still answered for after a refresh. -/
theorem stale_after_restore :
    ∃ hardware events s t, Path (fun s e t => configStep inlineContext s e = some t)
        ⟨hardware, {}⟩ events s ∧
      configStep inlineContext s (.dump true false) = some t ∧
      Refreshes s (.dump true false) ∧
      getConfig inlineContext t.hardware t.cache 0x21405000 = .ok vendorConfig ∧
      getConfig inlineContext t.hardware t.cache.uninitialised 0x21405000 =
        .error (.noConfig 0x21405000) ∧
      ¬AgreesWithHardware inlineContext t := by
  have h1 : configStep inlineContext ⟨vendorConfigs, {}⟩ (.dump true false) = some vendorRead := rfl
  have h2 : configStep inlineContext vendorRead (.hardwareChanges noConfigs) =
      some { vendorRead with hardware := noConfigs } := rfl
  have hcached : getConfig inlineContext noConfigs
      (refreshed inlineContext { vendorRead with hardware := noConfigs }).cache 0x21405000 =
        .ok vendorConfig := by decide
  refine ⟨vendorConfigs, _, _, refreshed inlineContext { vendorRead with hardware := noConfigs },
    (Path.single h1).snoc h2, rfl, Or.inl rfl, hcached, by decide, fun h => ?_⟩
  have huncached := (h.config _ _).mp hcached
  exact absurd huncached (by decide)

/-- A refresh after a property has been added finds nothing stale. -/
theorem agrees_after_property_added :
    ∃ hardware events s, Path (fun s e t => configStep inlineContext s e = some t ∧
        (Refreshes s e → AgreesWithHardware inlineContext t)) ⟨hardware, {}⟩ events s ∧
      getConfig inlineContext s.hardware s.cache 0x21405000 = .ok vendorConfig ∧
      events = [.getAllPropConfigs, .hardwareChanges vendorConfigs, .dump true false] := by
  have h1 : configStep inlineContext ⟨noConfigs, {}⟩ .getAllPropConfigs =
      some (refreshed inlineContext ⟨noConfigs, {}⟩) := rfl
  have h2 : configStep inlineContext (refreshed inlineContext ⟨noConfigs, {}⟩)
      (.hardwareChanges vendorConfigs) =
        some { refreshed inlineContext ⟨noConfigs, {}⟩ with hardware := vendorConfigs } := rfl
  have hempty : ∀ hardware, NothingStale inlineContext
      { refreshed inlineContext ⟨noConfigs, {}⟩ with hardware := hardware } := by
    refine fun hardware => ⟨fun prop config h => ?_, fun _ file h => by cases h⟩
    exact absurd (h.symm.trans (Finmap.lookup_empty prop)) nofun
  have hstart : NothingStale inlineContext ⟨noConfigs, {}⟩ := by
    refine ⟨fun prop config h => ?_, fun _ file h => by cases h⟩
    exact absurd (h.symm.trans (Finmap.lookup_empty prop)) nofun
  have hrun : Path (fun s e t => configStep inlineContext s e = some t ∧
      (Refreshes s e → NothingStale inlineContext s)) ⟨noConfigs, {}⟩ _ _ :=
    ((Path.single ⟨h1, fun _ => hstart⟩).snoc ⟨h2, fun h => h.elim⟩).snoc
      ⟨(rfl : configStep inlineContext _ (.dump true false) = some (refreshed inlineContext _)),
        fun _ => hempty vendorConfigs⟩
  exact ⟨noConfigs, _, _, (agreesWithHardware_iff_nothingStale keepsContents_inline).mpr hrun,
    by decide, rfl⟩

end VhalCore.VehicleHal
