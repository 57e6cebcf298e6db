import VhalCore.Models.Subscription.Interpretation.Refinement

/-!
# The combined config of a continuous pair

The combining loop computes the largest sample rate, the smallest resolution and
the conjunction of the update-rate flags. The checks of `subscribe` leave only
positive rates and finite resolutions, so both extremes are taken from a client
and a pair with a client never has the rate zero, the sign of an unsubscribed pair.
-/

namespace VhalCore.Subscription

open SubscriptionManager

/-- The options a pair with the given client configs needs from the hardware. -/
structure IsAggregate (configs : ClientIdType → Option SubConfig) (combined : SubConfig) :
    Prop where
  rate_mem : ∃ c config, configs c = some config ∧ config.sampleRateHz = combined.sampleRateHz
  rate_max : ∀ c config, configs c = some config →
    config.sampleRateHz.le combined.sampleRateHz = true
  resolution_mem : ∃ c config, configs c = some config ∧ config.resolution = combined.resolution
  resolution_min : ∀ c config, configs c = some config →
    combined.resolution.le config.resolution = true
  enableVur : combined.enableVur = true ↔
    ∀ c config, configs c = some config → config.enableVur = true

/-- The options the manager asks the hardware for. -/
def ContSubConfigs.combined (config : ContSubConfigs) : SubConfig :=
  ⟨config.mMaxSampleRateHz, config.mMinRequiredResolution, config.mEnableVur⟩

/-- An accepted rate is a positive number. -/
theorem SubConfig.Accepted.rate {lib : MathLibrary} {config : SubConfig}
    (h : config.Accepted lib) :
    config.sampleRateHz ≠ .nan ∧ config.sampleRateHz.le .zero = false := by
  obtain ⟨interval, hi⟩ := h.sampleRate
  rw [getIntervalNanos] at hi
  split at hi
  · exact absurd hi nofun
  · next hz =>
    refine ⟨fun hn => ?_, by simpa using hz⟩
    rw [hn] at hi
    split at hi
    · exact absurd hi nofun
    · rw [Binary32.div_nan, Binary32.toInt_nan] at hi
      exact absurd hi nofun

/-- An accepted resolution is a finite number. -/
theorem SubConfig.Accepted.resolution_finite {lib : MathLibrary} {config : SubConfig}
    (h : config.Accepted lib) :
    config.resolution ≠ .nan ∧ config.resolution.le .maxFinite = true := by
  have hr := h.resolution
  rw [checkResolution] at hr
  have hnan : config.resolution ≠ .nan := by
    intro hn
    rw [hn] at hr
    simp only [lib.log10_nan] at hr
    exact absurd hr (by decide)
  refine ⟨hnan, Binary32.le_maxFinite hnan fun hi => ?_⟩
  rw [hi] at hr
  have hround : Binary32.infinity.round = .infinity := by decide
  simp only [lib.log10_infinity, hround, Binary32.sub_infinity_infinity] at hr
  exact absurd hr (by decide)

private theorem foldl_add (l : List (ClientIdType × SubConfig)) (acc : CombinedConfig) :
    l.foldl (fun acc e => acc.add e.2) acc =
      ⟨(l.map fun e => e.2.sampleRateHz).foldl Binary32.keepMax acc.maxSampleRateHz,
        (l.map fun e => e.2.resolution).foldl Binary32.keepMin acc.minRequiredResolution,
        acc.enableVur && l.all fun e => e.2.enableVur⟩ := by
  induction l generalizing acc with
  | nil => simp
  | cons e l ih =>
      rw [List.foldl_cons, ih]
      simp only [CombinedConfig.add, List.map_cons, List.foldl_cons, List.all_cons,
        CombinedConfig.mk.injEq, true_and]
      cases e.2.enableVur <;> simp

/-- The result of the combining loop, over a list of the configs. -/
private theorem combine_eq_list (m : UnorderedMap ClientIdType SubConfig) :
    ∃ l : List (ClientIdType × SubConfig), (∀ c config, (c, config) ∈ l ↔
        m.lookup c = some config) ∧
      combine m = ⟨(l.map fun e => e.2.sampleRateHz).foldl Binary32.keepMax .zero,
        (l.map fun e => e.2.resolution).foldl Binary32.keepMin .maxFinite,
        l.all fun e => e.2.enableVur⟩ := by
  obtain ⟨l, hl, hfold⟩ := m.foldl_eq_list (fun acc _ subConfig => acc.add subConfig)
    (fun acc _ x _ y => acc.add_right_comm x y) (⟨.zero, .maxFinite, true⟩ : CombinedConfig)
  refine ⟨l, hl, ?_⟩
  rw [combine, hfold, foldl_add]
  simp only [Bool.true_and]

private theorem foldl_ne_nan {keep : Binary32 → Binary32 → Binary32}
    (hkeep : ∀ m x, m ≠ .nan → keep m x ≠ .nan) (xs : List Binary32) {m : Binary32}
    (hm : m ≠ .nan) : xs.foldl keep m ≠ .nan := by
  induction xs generalizing m with
  | nil => exact hm
  | cons x xs ih => exact ih (hkeep m x hm)

/-- The combined values are never not-a-number, whatever the clients asked for. -/
theorem combine_ne_nan (m : UnorderedMap ClientIdType SubConfig) :
    (combine m).maxSampleRateHz ≠ .nan ∧ (combine m).minRequiredResolution ≠ .nan := by
  obtain ⟨l, _, h⟩ := combine_eq_list m
  rw [h]
  exact ⟨foldl_ne_nan (fun _ x hm => Binary32.keepMax_ne_nan hm x) _ nofun,
    foldl_ne_nan (fun _ x hm => Binary32.keepMin_ne_nan hm x) _ nofun⟩

/-- The combined flag is the conjunction of the flags. -/
theorem combine_enableVur_iff (m : UnorderedMap ClientIdType SubConfig) :
    (combine m).enableVur = true ↔
      ∀ c config, m.lookup c = some config → config.enableVur = true := by
  obtain ⟨l, hl, h⟩ := combine_eq_list m
  rw [h, List.all_eq_true]
  exact ⟨fun hall c config hc => hall (c, config) ((hl c config).mpr hc),
    fun hall e he => hall e.1 e.2 ((hl e.1 e.2).mp he)⟩

theorem combine_empty : combine ∅ = ⟨.zero, .maxFinite, true⟩ := rfl

/-- The combination of accepted configs is their aggregate, with a positive rate. -/
theorem isAggregate_combine {lib : MathLibrary} {m : UnorderedMap ClientIdType SubConfig}
    (hm : m ≠ ∅) (haccepted : ∀ c config, m.lookup c = some config → config.Accepted lib) :
    IsAggregate (fun c => m.lookup c) ⟨(combine m).maxSampleRateHz,
      (combine m).minRequiredResolution, (combine m).enableVur⟩ ∧
    (combine m).maxSampleRateHz ≠ .zero := by
  obtain ⟨l, hl, h⟩ := combine_eq_list m
  rw [h]
  have hacc (e : ClientIdType × SubConfig) (he : e ∈ l) : e.2.Accepted lib :=
    haccepted e.1 e.2 ((hl e.1 e.2).mp he)
  have hrates : ∀ x ∈ l.map (fun e => e.2.sampleRateHz), x ≠ .nan := by
    intro x hx
    obtain ⟨e, he, rfl⟩ := List.mem_map.mp hx
    exact (hacc e he).rate.1
  have hres : ∀ x ∈ l.map (fun e => e.2.resolution), x ≠ .nan := by
    intro x hx
    obtain ⟨e, he, rfl⟩ := List.mem_map.mp hx
    exact (hacc e he).resolution_finite.1
  obtain ⟨_, hmax, hmaxMem⟩ := Binary32.foldl_keepMax_spec hrates (m := .zero) nofun
  obtain ⟨hminStart, hmin, hminMem⟩ := Binary32.foldl_keepMin_spec hres (m := .maxFinite) nofun
  obtain ⟨c₀, config₀, hc₀⟩ := (UnorderedMap.ne_empty_iff m).mp hm
  have hmem₀ : (c₀, config₀) ∈ l := (hl c₀ config₀).mpr hc₀
  have hrate₀ := hmax config₀.sampleRateHz (List.mem_map.mpr ⟨_, hmem₀, rfl⟩)
  have hres₀ := hmin config₀.resolution (List.mem_map.mpr ⟨_, hmem₀, rfl⟩)
  have hpos : (l.map fun e => e.2.sampleRateHz).foldl Binary32.keepMax .zero ≠ .zero := by
    intro hz
    rw [hz, (hacc _ hmem₀).rate.2] at hrate₀
    exact absurd hrate₀ nofun
  refine ⟨⟨?_, fun c config hc => ?_, ?_, fun c config hc => ?_, ?_⟩, hpos⟩
  · obtain ⟨e, he, heq⟩ := List.mem_map.mp (hmaxMem.resolve_left hpos)
    exact ⟨e.1, e.2, (hl e.1 e.2).mp he, heq⟩
  · exact hmax _ (List.mem_map.mpr ⟨_, (hl c config).mpr hc, rfl⟩)
  · rcases hminMem with hfirst | hmem
    · refine ⟨c₀, config₀, hc₀, ?_⟩
      rw [hfirst] at hres₀ ⊢
      exact Binary32.le_antisymm (hacc _ hmem₀).resolution_finite.2 hres₀
    · obtain ⟨e, he, heq⟩ := List.mem_map.mp hmem
      exact ⟨e.1, e.2, (hl e.1 e.2).mp he, heq⟩
  · exact hmin _ (List.mem_map.mpr ⟨_, (hl c config).mpr hc, rfl⟩)
  · rw [← combine_enableVur_iff, h]

end VhalCore.Subscription
