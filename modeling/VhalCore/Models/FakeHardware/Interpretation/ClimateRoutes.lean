import VhalCore.Models.FakeHardware.Interpretation.SparedProperties
import VhalCore.Models.FakeHardware.Interpretation.ZonedRecords

/-!
# The routes of the climate

A property with areas has no branch of its own in a set, but for the switch of the power, the
temperature and the dual mode. These three read the stored values of a property and
write some of them again, with another status or another temperature: the writes are a round,
and what they leave is told by `Rewrites`.
-/

namespace VhalCore.FakeHardware

open PropertyStore VehiclePropertyStore

/-- The bits of an area. -/
def areaBits (areaId : Int) : BitVec 32 := BitVec.ofInt 32 areaId

/-- The switch of the power has a value for an area. -/
def PowerIs (store : VehiclePropertyStore) (areaId hvacPowerOnVal : Int) : Prop :=
  ∃ x, store.stored hvacPowerOnId ⟨areaId, 0⟩ = some x ∧
    x.value.int32Values = [hvacPowerOnVal]

/-- The dual mode is on for an area. -/
def DualOn (store : VehiclePropertyStore) (areaId : Int) : Prop :=
  ∃ recId x, store.stored hvacDualOnId recId = some x ∧ x.areaId = areaId ∧
    x.value.int32Values = [1]

/-- Stored values are written again, each changed in the same way and at some time, and told
one after the other. -/
structure Rewrites (change : VehiclePropValue → VehiclePropValue) (xs : List VehiclePropValue)
    (a b : Board) : Prop where
  rewritten : ∀ x ∈ xs, ∃ t, b.store.stored x.prop ⟨x.areaId, 0⟩ =
    some { change x with timestamp := t }
  others : ∀ propId recId, (∀ x ∈ xs, x.prop = propId → recId ≠ ⟨x.areaId, 0⟩) →
    b.store.stored propId recId = a.store.stored propId recId
  told : ∃ news : List VehiclePropValue,
    b.emitted = a.emitted ++ news.map (fun w => .onValuesChange [w]) ∧
    news.map VehiclePropValue.propIdAreaId = xs.map VehiclePropValue.propIdAreaId ∧
    ∀ w ∈ news, b.store.stored w.prop ⟨w.areaId, 0⟩ = some w

section Areas

variable {p q a b c : Int}

theorem ne_of_isGlobalProp (h : isGlobalProp p = false) (hq : isGlobalProp q = true) : p ≠ q := by
  rintro rfl
  cases h.symm.trans hq

theorem isGlobalProp_power : isGlobalProp hvacPowerOnId = false := by decide

theorem isGlobalProp_temperature : isGlobalProp hvacTemperatureSetId = false := by decide

theorem isGlobalProp_dual : isGlobalProp hvacDualOnId = false := by decide

theorem not_vendorCode (h : isGlobalProp p = false) :
    ¬(startingVendorCodePropertiesForTest ≤ p ∧ p < endingVendorCodePropertiesForTest) := by
  intro hvendor
  cases (PropertyState.isGlobalProp_of_vendorCode hvendor).symm.trans h

theorem not_isSupported (h : isGlobalProp p = false) : ¬FakeUserHal.isSupported p = true := by
  intro huser
  cases (PropertyState.isGlobalProp_of_isSupported huser).symm.trans h

theorem coversArea_iff (outer inner : Int) :
    coversArea outer inner = true ↔ areaBits outer &&& areaBits inner = areaBits inner :=
  beq_iff_eq

/-- Areas without a common bit cover no area with a bit in common. -/
theorem areaBits_eq_zero_of_covers (ha : coversArea a c = true) (hb : coversArea b c = true)
    (hdisjoint : areaBits a &&& areaBits b = 0) : areaBits c = 0 := by
  rw [coversArea_iff] at ha hb
  calc areaBits c = areaBits a &&& (areaBits b &&& areaBits c) := by rw [hb, ha]
    _ = (areaBits a &&& areaBits b) &&& areaBits c := (BitVec.and_assoc ..).symm
    _ = 0 := by rw [hdisjoint, BitVec.ofNat_eq_ofNat, BitVec.zero_and]

end Areas

section Rounds

variable {env : Environment} {k : Nat} {b : Board} {xs : List VehiclePropValue}
variable {change : VehiclePropValue → VehiclePropValue}

/-- A round of stored values. -/
theorem rewrites_attemptAll (hzoned : Zoned b.store)
    (hcallback : b.store.mOnValuesChangeCallback = true)
    (hchange : ∀ x, (change x).propIdAreaId = x.propIdAreaId)
    (hround : Round b.store (env.stampFrom k (xs.map change))) :
    Rewrites change xs b (b.attemptAll (env.stampFrom k (xs.map change))) := by
  have hprop (x : VehiclePropValue) : (change x).prop = x.prop :=
    congrArg PropIdAreaId.propId (hchange x)
  have harea (x : VehiclePropValue) : (change x).areaId = x.areaId :=
    congrArg PropIdAreaId.areaId (hchange x)
  refine ⟨fun x hx => ?_, fun propId recId hnot => ?_, _, Board.emitted_round hround hcallback,
    ?_, fun w => Board.stored_round_of_mem hzoned hround⟩
  · obtain ⟨i, _, hmem⟩ := env.exists_stamped k
      (List.mem_map_of_mem (f := change) hx)
    have hstored := Board.stored_round_of_mem hzoned hround hmem
    refine ⟨env.clock i, ?_⟩
    rw [← hprop, ← harea]
    exact hstored
  · refine Board.stored_round_of_not hzoned hround fun w hw hwprop => ?_
    obtain ⟨y, hy, i, _, _, rfl⟩ := Environment.mem_stampFrom hw
    obtain ⟨x, hx, rfl⟩ := List.mem_map.mp hy
    have hthis := hnot x hx ((hprop x).symm.trans hwprop)
    rwa [← harea] at hthis
  · rw [Environment.map_stampFrom, List.map_map]
    exact List.map_congr_left fun x _ => hchange x

/-- A rewrite of one property leaves the other ones. -/
theorem Rewrites.other_prop {a b : Board} (h : Rewrites change xs a b) {p q : Int}
    (hprop : ∀ x ∈ xs, x.prop = p) (hne : p ≠ q) (recId : RecordId) :
    b.store.stored q recId = a.store.stored q recId :=
  h.others q recId fun x hx hxprop => absurd ((hprop x hx).symm.trans hxprop) hne

/-- What is told of a rewrite is one value for each that is written again. -/
theorem Rewrites.told_iff {a b : Board} (h : Rewrites change xs a b) :
    ∃ news : List VehiclePropValue,
      b.emitted = a.emitted ++ news.map (fun w => .onValuesChange [w]) ∧
      news.map VehiclePropValue.propIdAreaId = xs.map VehiclePropValue.propIdAreaId ∧
      ∀ w, w ∈ news ↔ ∃ x ∈ xs, b.store.stored x.prop ⟨x.areaId, 0⟩ = some w ∧
        w.propIdAreaId = x.propIdAreaId := by
  obtain ⟨news, hemitted, hpairs, hstored⟩ := h.told
  refine ⟨news, hemitted, hpairs, fun w => ⟨fun hw => ?_, ?_⟩⟩
  · have hmem := List.mem_map_of_mem (f := VehiclePropValue.propIdAreaId) hw
    rw [hpairs] at hmem
    obtain ⟨x, hx, hpair⟩ := List.mem_map.mp hmem
    have hprop : x.prop = w.prop := congrArg PropIdAreaId.propId hpair
    have harea : x.areaId = w.areaId := congrArg PropIdAreaId.areaId hpair
    exact ⟨x, hx, by rw [hprop, harea]; exact hstored w hw, hpair.symm⟩
  · rintro ⟨x, hx, hw, hpair⟩
    have hmem := List.mem_map_of_mem (f := VehiclePropValue.propIdAreaId) hx
    rw [← hpairs] at hmem
    obtain ⟨y, hy, hyx⟩ := List.mem_map.mp hmem
    have hprop : y.prop = x.prop := congrArg PropIdAreaId.propId hyx
    have harea : y.areaId = x.areaId := congrArg PropIdAreaId.areaId hyx
    have hthis := hstored y hy
    rw [hprop, harea, hw] at hthis
    cases hthis
    exact hy

/-- A round is made of stored values that are not after the first moment. -/
theorem round_of_stored (hzoned : Zoned b.store)
    (hchange : ∀ x, (change x).propIdAreaId = x.propIdAreaId)
    (hzone : ∀ x ∈ xs, isGlobalProp x.prop = false)
    (hstored : ∀ x ∈ xs, ∃ recId, b.store.stored x.prop recId = some x)
    (htimely : ∀ x ∈ xs, x.timestamp ≤ env.clock k)
    (hdistinct : (xs.map VehiclePropValue.propIdAreaId).Nodup) :
    Round b.store (env.stampFrom k (xs.map change)) := by
  have hprop (x : VehiclePropValue) : (change x).prop = x.prop :=
    congrArg PropIdAreaId.propId (hchange x)
  have harea (x : VehiclePropValue) : (change x).areaId = x.areaId :=
    congrArg PropIdAreaId.areaId (hchange x)
  have hfrom : ∀ w ∈ env.stampFrom k (xs.map change), ∃ x ∈ xs, ∃ i, k ≤ i ∧
      w = env.stamped i (change x) := by
    intro w hw
    obtain ⟨y, hy, i, hi, _, rfl⟩ := Environment.mem_stampFrom hw
    obtain ⟨x, hx, rfl⟩ := List.mem_map.mp hy
    exact ⟨x, hx, i, hi, rfl⟩
  refine ⟨fun w hw => ?_, fun w hw => ?_, PropertyState.stampFrom_sorted env k _, ?_⟩
  · obtain ⟨x, hx, i, _, rfl⟩ := hfrom w hw
    exact (congrArg isGlobalProp (hprop x)).trans (hzone x hx)
  · obtain ⟨x, hx, i, hi, rfl⟩ := hfrom w hw
    obtain ⟨recId, hrec⟩ := hstored x hx
    have hkey := hzoned.key (hzone x hx) hrec
    have hthis : b.store.stored (change x).prop ⟨(change x).areaId, 0⟩ = some x := by
      rw [hprop, harea, ← hkey, hrec]
    refine hzoned.writable ?_ hthis ((htimely x hx).trans (env.monotone hi))
    exact (congrArg isGlobalProp (hprop x)).trans (hzone x hx)
  · rw [Environment.map_stampFrom, List.map_map]
    have hsame : VehiclePropValue.propIdAreaId ∘ change = VehiclePropValue.propIdAreaId :=
      funext hchange
    rw [hsame]
    exact hdistinct

end Rounds

/-- The part that is reached is the whole if every write of it succeeds. -/
theorem reached_eq_self {store : VehiclePropertyStore} {ws rs : List VehiclePropValue}
    (h : reached store ws = .ok rs)
    (hwritable : (∀ w ∈ rs, store.Writable w) ∨ ∀ w ∈ ws, store.Writable w) :
    rs = ws ∧ ∀ w ∈ ws, w.value.floatValues ≠ [] := by
  induction ws generalizing rs with
  | nil =>
      cases h
      exact ⟨rfl, by simp⟩
  | cons w ws ih =>
      by_cases hne : w.value.floatValues = []
      · rw [reached, if_pos hne] at h
        cases h
      · by_cases hw : store.Writable w
        · rw [PropertyState.reached_cons_of_writable hne hw] at h
          rcases hrest : reached store ws with f | rest
          · rw [hrest] at h
            cases h
          · rw [hrest] at h
            cases h
            obtain ⟨rfl, hplaces⟩ := ih hrest (hwritable.imp
              (fun hall x hx => hall x (List.mem_cons_of_mem _ hx))
              fun hall x hx => hall x (List.mem_cons_of_mem _ hx))
            exact ⟨rfl, List.forall_mem_cons.mpr ⟨hne, hplaces⟩⟩
        · rw [PropertyState.reached_cons_of_not_writable hne hw] at h
          cases h
          rcases hwritable with hall | hall
          · exact absurd (hall w (List.mem_singleton_self w)) hw
          · exact absurd (hall w (List.mem_cons_self ..)) hw

section Synchronisation

variable {env : Environment} {s : PropertyState} {values : List VehiclePropValue}
variable {dualAreaId : Int}

/-- No stored value of a property is after the current moment. -/
def TimelyFor (env : Environment) (s : PropertyState) (propId : Int) : Prop :=
  ∀ recId x, s.mServerSidePropStore.stored propId recId = some x →
    x.timestamp ≤ env.clock s.moments

theorem mem_syncTargets_iff (x : VehiclePropValue) : x ∈ syncTargets dualAreaId values ↔
    x ∈ values ∧ coversArea dualAreaId x.areaId = true ∧ x.status = .available := by
  rw [syncTargets, List.mem_filter, Bool.and_eq_true, beq_iff_eq]

/-- The temperatures that a synchronisation concerns are stored under their areas. -/
theorem stored_of_mem_syncTargets (hzoned : Zoned s.mServerSidePropStore)
    (hread : s.readValuesForProperty env hvacTemperatureSetId = .ok values) {x : VehiclePropValue}
    (hx : x ∈ syncTargets dualAreaId values) : x.prop = hvacTemperatureSetId ∧
      s.mServerSidePropStore.stored x.prop ⟨x.areaId, 0⟩ = some x := by
  obtain ⟨recId, hstored⟩ := (mem_readValues_iff hread x).mp ((mem_syncTargets_iff x).mp hx).1
  have hprop := (hzoned.valid.keyed _ recId x hstored).1
  rw [hzoned.key isGlobalProp_temperature hstored] at hstored
  exact ⟨hprop, hprop.symm ▸ hstored⟩

/-- A synchronisation that ends well, or that no stored value is in the way of, writes the
temperature to all values that it concerns. -/
theorem rewrites_of_reached (hzoned : Zoned s.mServerSidePropStore)
    (hcallback : s.mServerSidePropStore.mOnValuesChangeCallback = true)
    (hread : s.readValuesForProperty env hvacTemperatureSetId = .ok values)
    {xs : List VehiclePropValue} (hsub : xs.Sublist (syncTargets dualAreaId values))
    {temp : Binary32} {rs : List VehiclePropValue}
    (hreached : reached s.mServerSidePropStore
      (env.stampFrom s.moments (xs.map (setTemp temp))) = .ok rs)
    (hall : (s.board.attemptUntil rs).1 = .ok () ∨ TimelyFor env s hvacTemperatureSetId) :
    s.board.attemptUntil rs = (.ok (), s.board.attemptAll rs) ∧
      Rewrites (setTemp temp) xs s.board (s.board.attemptAll rs) ∧
      ∀ x ∈ xs, x.value.floatValues ≠ [] := by
  have hsource : ∀ x ∈ xs, x.prop = hvacTemperatureSetId ∧
      s.mServerSidePropStore.stored x.prop ⟨x.areaId, 0⟩ = some x := fun x hx =>
    stored_of_mem_syncTargets hzoned hread (hsub.subset hx)
  have hzone : ∀ x ∈ xs, isGlobalProp x.prop = false := fun x hx =>
    (hsource x hx).1 ▸ isGlobalProp_temperature
  have hdistinct : (xs.map VehiclePropValue.propIdAreaId).Nodup := by
    have hareas : (xs.map VehiclePropValue.areaId).Nodup :=
      (nodup_readValues hzoned isGlobalProp_temperature hread).sublist
        ((hsub.trans List.filter_sublist).map _)
    rw [show VehiclePropValue.areaId = PropIdAreaId.areaId ∘ VehiclePropValue.propIdAreaId
      from rfl, ← List.map_map] at hareas
    exact hareas.of_map
  have hround : Round s.board.store (env.stampFrom s.moments (xs.map (setTemp temp))) ∧
      rs = env.stampFrom s.moments (xs.map (setTemp temp)) ∧
      ∀ w ∈ env.stampFrom s.moments (xs.map (setTemp temp)), w.value.floatValues ≠ [] := by
    rcases hall with hok | htimely
    · have hwritable : ∀ w ∈ rs, s.board.store.Writable w := by
        by_contra hnot
        have hsorted := (PropertyState.stampFrom_sorted env s.moments
          (xs.map (setTemp temp))).sublist (isPrefix_of_reached hreached).sublist
        obtain ⟨_, _, _, e, _, _, _, he⟩ := Board.attemptUntil_of_not_forall hsorted hnot
        rw [he] at hok
        cases hok
      obtain ⟨rfl, hplaces⟩ := reached_eq_self hreached (Or.inl hwritable)
      refine ⟨⟨fun w hw => ?_, hwritable, PropertyState.stampFrom_sorted env _ _, ?_⟩, rfl,
        hplaces⟩
      · obtain ⟨y, hy, i, _, _, rfl⟩ := Environment.mem_stampFrom hw
        obtain ⟨x, hx, rfl⟩ := List.mem_map.mp hy
        exact hzone x hx
      · rw [Environment.map_stampFrom, List.map_map]
        exact hdistinct
    · have hround : Round s.board.store (env.stampFrom s.moments (xs.map (setTemp temp))) := by
        refine round_of_stored hzoned (fun _ => rfl) hzone (fun x hx => ⟨_, (hsource x hx).2⟩)
          (fun x hx => ?_) hdistinct
        obtain ⟨hprop, hstored⟩ := hsource x hx
        rw [hprop] at hstored
        exact htimely _ x hstored
      obtain ⟨rfl, hplaces⟩ := reached_eq_self hreached (Or.inr hround.writable)
      exact ⟨hround, rfl, hplaces⟩
  obtain ⟨hround, rfl, hplaces⟩ := hround
  refine ⟨Board.attemptUntil_of_forall_writable hround.sorted hround.writable,
    rewrites_attemptAll hzoned hcallback (fun _ => rfl) hround, fun x hx hempty => ?_⟩
  obtain ⟨i, _, hmem⟩ := env.exists_stamped s.moments
    (List.mem_map_of_mem (f := setTemp temp) hx)
  refine hplaces _ hmem ?_
  change x.value.floatValues.set 0 temp = []
  rw [hempty, List.set_nil]

end Synchronisation

namespace PropertyState

variable {env : Environment} {s : PropertyState} {v : VehiclePropValue} {areaId : Int}

/-- A property with areas is refused or has the route of its own property. -/
theorem route_zoned (hzone : isGlobalProp v.prop = false) :
    s.route env v = if s.isHvacPropAndHvacNotAvailable env v.prop v.areaId then
      .refused .hvacNotAvailable else s.propertyRoute env v := by
  have hadas : mAdasEnabledPropToAdasPropWithErrorState.lookup v.prop = none := by
    have hkeys : ∀ e ∈ mAdasEnabledPropToAdasPropWithErrorState, isGlobalProp e.1 = true := by
      decide
    rcases hlookup : mAdasEnabledPropToAdasPropWithErrorState.lookup v.prop with _ | ids
    · rfl
    · obtain ⟨l₁, l₂, hl, _⟩ := List.lookup_eq_some_iff.mp hlookup
      cases hzone.symm.trans (hkeys (v.prop, ids) (by rw [hl]; simp))
  unfold route
  rw [if_neg (not_vendorCode hzone), if_neg (not_isSupported hzone), hadas]

/-- The route for the power of an area tells all values that depend on it. -/
theorem propertyRoute_power (hprop : v.prop = hvacPowerOnId) {hvacPowerOnVal : Int}
    (hints : v.value.int32Values = [hvacPowerOnVal]) :
    s.propertyRoute env v = s.plainRoute env v
      ((env.propOrder.visit s.hvacPowerDependentProps).flatMap
        (s.powerWrites env v.areaId hvacPowerOnVal)) := by
  rw [propertyRoute, hprop, hints]
  rfl

/-- The route for the dual mode. -/
theorem propertyRoute_dual_eq (hprop : v.prop = hvacDualOnId) :
    s.propertyRoute env v = match v.value.int32Values with
      | [1] => s.dualRoute env v
      | [_] => s.plainRoute env v []
      | _ => .refused .hvacDualOnSize := by
  rw [propertyRoute, hprop]
  rfl

/-- A dual mode that is not switched on is just written, or refused. -/
theorem propertyRoute_dual_off (hprop : v.prop = hvacDualOnId)
    (hoff : v.value.int32Values ≠ [1]) : s.propertyRoute env v = s.plainRoute env v [] ∨
      s.propertyRoute env v = .refused .hvacDualOnSize := by
  rw [propertyRoute_dual_eq hprop]
  split
  · rename_i hone
    exact absurd hone hoff
  · exact Or.inl rfl
  · exact Or.inr rfl

/-- The other properties with areas are just written. -/
theorem propertyRoute_zoned (hzone : isGlobalProp v.prop = false)
    (hpower : v.prop ≠ hvacPowerOnId) (htemp : v.prop ≠ hvacTemperatureSetId)
    (hdual : v.prop ≠ hvacDualOnId) : s.propertyRoute env v = s.plainRoute env v [] := by
  have hne {p : Int} (hp : isGlobalProp p = true) : ¬v.prop = p := ne_of_isGlobalProp hzone hp
  unfold propertyRoute
  rw [if_neg (not_or.mpr ⟨hne (by decide), hne (by decide)⟩), if_neg (hne (by decide)),
    if_neg (hne (by decide)), if_neg (hne (by decide)), if_neg (hne (by decide)),
    if_neg (hne (by decide)), if_neg hpower, if_neg (hne (by decide)), if_neg htemp,
    if_neg hdual, if_neg (hne (by decide)), if_neg (hne (by decide)), if_neg (hne (by decide))]

/-- The area that is found is one of the dual mode. -/
theorem dualOn_of_getSynced {dualAreaId : Int}
    (h : s.getSyncedAreaIdIfHvacDualOn env areaId = some dualAreaId) :
    DualOn s.mServerSidePropStore dualAreaId ∧ coversArea dualAreaId areaId = true := by
  unfold getSyncedAreaIdIfHvacDualOn at h
  rcases hread : s.readValuesForProperty env hvacDualOnId with e | values
  · rw [hread] at h
    cases h
  · rw [hread] at h
    obtain ⟨x, hfind, rfl⟩ := Option.map_eq_some_iff.mp h
    obtain ⟨recId, hstored⟩ := (mem_readValues_iff hread x).mp (List.mem_of_find?_eq_some hfind)
    have hfound := List.find?_some hfind
    obtain ⟨hcovers, hone⟩ := Bool.and_eq_true_iff.mp hfound
    exact ⟨⟨recId, x, hstored, rfl, of_decide_eq_true hone⟩, hcovers⟩

/-- Without a found area the dual mode is off for all areas around. -/
theorem not_dualOn_of_getSynced (h : s.getSyncedAreaIdIfHvacDualOn env areaId = none)
    {dualAreaId : Int} (hdual : DualOn s.mServerSidePropStore dualAreaId) :
    ¬coversArea dualAreaId areaId = true := by
  obtain ⟨recId, x, hstored, rfl, hone⟩ := hdual
  unfold getSyncedAreaIdIfHvacDualOn at h
  rcases hread : s.readValuesForProperty env hvacDualOnId with e | values
  · cases (stored_of_readValues_error hread recId).symm.trans hstored
  · rw [hread] at h
    have hmem := (mem_readValues_iff hread x).mpr ⟨recId, hstored⟩
    have hnot := List.find?_eq_none.mp (Option.map_eq_none_iff.mp h) x hmem
    intro hcovers
    exact hnot (Bool.and_eq_true_iff.mpr ⟨hcovers, decide_eq_true hone⟩)

/-- The switch of the power around an area decides on a property that depends on it. -/
theorem notAvailable_iff {propId areaId powerAreaId hvacPowerOnVal : Int}
    (hdepends : propId ∈ s.hvacPowerDependentProps)
    (hpower : PowerIs s.mServerSidePropStore powerAreaId hvacPowerOnVal)
    (hzoned : Zoned s.mServerSidePropStore) (hcovers : coversArea powerAreaId areaId = true)
    (honly : ∀ recId x, s.mServerSidePropStore.stored hvacPowerOnId recId = some x →
      coversArea x.areaId areaId = true → x.areaId = powerAreaId) :
    s.isHvacPropAndHvacNotAvailable env propId areaId = true ↔ hvacPowerOnVal = 0 := by
  obtain ⟨x, hstored, hints⟩ := hpower
  have harea : powerAreaId = x.areaId :=
    congrArg RecordId.area (hzoned.key isGlobalProp_power hstored)
  unfold isHvacPropAndHvacNotAvailable
  rw [if_pos hdepends]
  rcases hread : s.readValuesForProperty env hvacPowerOnId with e | values
  · cases (stored_of_readValues_error hread _).symm.trans hstored
  · have hmem := (mem_readValues_iff hread x).mpr ⟨_, hstored⟩
    rcases hfind : values.find? fun value => coversArea value.areaId areaId with _ | y
    · exact absurd (harea ▸ hcovers) (List.find?_eq_none.mp hfind x hmem)
    · obtain ⟨recId, hy⟩ := (mem_readValues_iff hread y).mp (List.mem_of_find?_eq_some hfind)
      have hfound := List.find?_some hfind
      have hyarea := honly recId y hy hfound
      obtain rfl : y = x := hzoned.eq_of_area isGlobalProp_power hy hstored (hyarea.trans harea)
      simp [hfind, hints]

end PropertyState

end VhalCore.FakeHardware
