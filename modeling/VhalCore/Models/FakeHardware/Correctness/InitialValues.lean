import VhalCore.Core.Outcomes
import VhalCore.Models.FakeHardware.Correctness.ReadBack
import VhalCore.Models.FakeHardware.Native.Initialization

/-!
# What the hardware has when it is constructed

The constructor goes through the declarations in the order of a hash map. Each of them concerns
one property, so the order does not matter: after the construction a property is registered if and
only if it is declared, its areas have the declared values and no others, and the bounds and lists
of supported values are the declared ones. All its writes succeed and nothing is notified.

A run of sets may begin with any hardware that is constructed.
-/

namespace VhalCore.FakeHardware

open PropertyStore VehiclePropertyStore

/-- What the hardware has of one property. -/
@[ext]
structure PropertyView where
  registration : Option (VehiclePropConfig × Option TokenFunction) := none
  stored : RecordId → Option VehiclePropValue := fun _ => none
  dependents : Finset Int := ∅
  minValue : Int → Option RawPropValues := fun _ => none
  maxValue : Int → Option RawPropValues := fun _ => none
  supportedValues : Int → Option (List RawPropValues) := fun _ => none

/-- What the state holds about a single property. -/
def HardwareState.view (propId : Int) (s : HardwareState) : PropertyView where
  registration := s.properties.mServerSidePropStore.registration propId
  stored := s.properties.mServerSidePropStore.stored propId
  dependents := if propId = hvacPowerOnId then s.properties.hvacPowerDependentProps else ∅
  minValue areaId := s.supported.mMinSupportedValueByPropIdAreaId.lookup ⟨propId, areaId⟩
  maxValue areaId := s.supported.mMaxSupportedValueByPropIdAreaId.lookup ⟨propId, areaId⟩
  supportedValues areaId := s.supported.mSupportedValuesByPropIdAreaId.lookup ⟨propId, areaId⟩

/-- What holds at every moment of the construction. -/
structure Constructing (clock : Nat → Int) (s : PropertyState) : Prop where
  reached : StoreReached s.mServerSidePropStore
  timely : ∀ propId recId x, s.mServerSidePropStore.stored propId recId = some x →
    x.timestamp ≤ clock s.moments
  callbacks : s.mServerSidePropStore.mOnValueChangeCallback = false ∧
    s.mServerSidePropStore.mOnValuesChangeCallback = false
  emitted : s.emitted = []
  userHal : s.mFakeUserHal = {}

/-- A value without its time. -/
def VehiclePropValue.untimed (v : VehiclePropValue) : VehiclePropValue := { v with timestamp := 0 }

/-- The payload that is declared for an area: that of the area where the declaration has payloads
of areas, else that of the property, unless it is empty. -/
def ConfigDeclaration.declaredPayload (d : ConfigDeclaration) (areaId : Int) :
    Option RawPropValues :=
  if d.initialAreaValues = ∅ then
    if d.initialValue = {} then none else some d.initialValue
  else d.initialAreaValues.lookup areaId

/-- The areas of a declaration; a global property has the area 0 only. -/
def ConfigDeclaration.DeclaresArea (d : ConfigDeclaration) (areaId : Int) : Prop :=
  if isGlobalProp d.config.prop = true then areaId = 0
  else ∃ areaConfig ∈ d.areas, areaConfig.areaId = areaId

instance (d : ConfigDeclaration) (areaId : Int) : Decidable (d.DeclaresArea areaId) := by
  unfold ConfigDeclaration.DeclaresArea
  infer_instance

/-- The value that is declared for an area. -/
def ConfigDeclaration.declaredValue (d : ConfigDeclaration) (areaId : Int) :
    Option VehiclePropValue :=
  if d.DeclaresArea areaId then
    (d.declaredPayload areaId).map fun value => { prop := d.config.prop, areaId, value }
  else none

/-- An empty payload is the only one that equals an empty one. -/
theorem eq_empty_iff (value : RawPropValues) : value.eq {} = true ↔ value = {} := by
  constructor
  · intro h
    obtain ⟨int32Values, floatValues, int64Values, byteValues, stringValue⟩ := value
    simp only [RawPropValues.eq, Bool.and_eq_true, beq_iff_eq] at h
    obtain ⟨⟨⟨⟨rfl, hfloat⟩, rfl⟩, rfl⟩, rfl⟩ := h
    cases floatValues with
    | nil => rfl
    | cons x xs => cases hfloat
  · rintro rfl
    rfl

/-- The code computes the payload that is declared for an area. -/
theorem valueForArea_eq (d : ConfigDeclaration) (areaId : Int) :
    d.valueForArea areaId = d.declaredPayload areaId := by
  rw [ConfigDeclaration.valueForArea, ConfigDeclaration.declaredPayload]
  exact if_congr Iff.rfl (if_congr (eq_empty_iff d.initialValue) rfl rfl) rfl

/-- Values are stored for the areas that a declaration declares. -/
theorem mem_initialAreas_iff (d : ConfigDeclaration) (areaId : Int) :
    areaId ∈ d.initialAreas ↔ d.DeclaresArea areaId := by
  rw [ConfigDeclaration.initialAreas, ConfigDeclaration.DeclaresArea, d.areaConfigs]
  split
  · exact List.mem_singleton
  · rw [List.map_map, List.mem_map]
    rfl

/-- The value of an area is the one with which the construction writes it. -/
theorem declaredValue_eq (d : ConfigDeclaration) (areaId : Int) :
    d.declaredValue areaId = if areaId ∈ d.initialAreas then
      (d.valueForArea areaId).map fun value => { prop := d.config.prop, areaId, value }
    else none := by
  rw [ConfigDeclaration.declaredValue, valueForArea_eq]
  exact if_congr (mem_initialAreas_iff d areaId).symm rfl rfl

section Writes

variable {env : Environment} {s t : PropertyState} {v : VehiclePropValue} {d : ConfigDeclaration}
  {config : VehiclePropConfig} {areaId : Int}

/-- A store without callbacks calls none. -/
theorem callbacksOf_of_unset {store : VehiclePropertyStore}
    (h : store.mOnValueChangeCallback = false ∧ store.mOnValuesChangeCallback = false)
    (updateStatus : Bool) (eventMode : PropertyStore.EventMode) :
    store.callbacksOf updateStatus eventMode v = [] := by
  rw [callbacksOf, h.1, h.2]
  split <;> rfl

/-- A write of the construction succeeds without an event or does nothing. -/
theorem Constructing.board_write (h : Constructing env.clock s) (v : VehiclePropValue)
    (updateStatus : Bool) (eventMode : PropertyStore.EventMode) :
    (s.board.write v updateStatus eventMode).2 =
      ⟨if s.mServerSidePropStore.Writable v then
        s.mServerSidePropStore.put v (s.mServerSidePropStore.written updateStatus v)
      else s.mServerSidePropStore, []⟩ := by
  by_cases hw : s.mServerSidePropStore.Writable v
  · rw [Board.write_of_writable (b := s.board) hw, if_pos hw]
    change Board.mk _ (s.emitted ++ s.mServerSidePropStore.callbacksOf updateStatus eventMode v) = _
    rw [callbacksOf_of_unset h.callbacks, h.emitted]
    rfl
  · obtain ⟨e, he⟩ := Board.write_of_not_writable (b := s.board) hw updateStatus eventMode
    rw [he, if_neg hw]
    exact congrArg (Board.mk s.mServerSidePropStore) h.emitted

/-- A write keeps a state under construction. -/
theorem Constructing.writeNow (h : Constructing env.clock s) (v : VehiclePropValue)
    (updateStatus : Bool) (eventMode : PropertyStore.EventMode) :
    Constructing env.clock (PropertyState.writeNow env v updateStatus eventMode s).2 := by
  have hmono := env.monotone (Nat.le_succ s.moments)
  have hadv := Board.write_advances updateStatus eventMode s.board (env.stamped s.moments v)
  have hboard := h.board_write (env.stamped s.moments v) updateStatus eventMode
  refine ⟨@StoreReached.call _ (.writeValue (env.clock s.moments) (env.stamped s.moments v)
      updateStatus eventMode false) h.reached ⟨trivial, fun _ _ hop => by cases hop⟩,
    fun propId recId x hx => ?_, ?_, ?_, h.userHal⟩
  · rcases hadv.stored propId recId with hsame | ⟨⟨new, hnew, hle⟩, _⟩
    · exact (h.timely propId recId x (hsame.symm.trans hx)).trans hmono
    · cases hnew.symm.trans hx
      exact hle.trans hmono
  · rw [PropertyState.writeNow_eq, PropertyState.store_withBoard, hboard]
    split
    · rw [VehiclePropertyStore.put]
      split <;> exact h.callbacks
    · exact h.callbacks
  · exact congrArg Board.emitted hboard

/-- A write of the construction concerns its own property. -/
theorem Constructing.stored_writeNow_of_ne (h : Constructing env.clock s) {propId : Int}
    (hne : propId ≠ v.prop) (updateStatus : Bool) (eventMode : PropertyStore.EventMode)
    (recId : RecordId) :
    (PropertyState.writeNow env v updateStatus eventMode s).2.mServerSidePropStore.stored propId
      recId = s.mServerSidePropStore.stored propId recId := by
  rw [PropertyState.writeNow_eq, PropertyState.store_withBoard, h.board_write]
  split
  · next hw => rw [stored_put hw.registered, if_neg fun hkey => hne hkey.1]
  · rfl

/-- A write changes no registration. -/
theorem registration_writeNow (updateStatus : Bool) (eventMode : PropertyStore.EventMode)
    (propId : Int) :
    (PropertyState.writeNow env v updateStatus eventMode s).2.mServerSidePropStore.registration
      propId = s.mServerSidePropStore.registration propId :=
  (Board.write_advances updateStatus eventMode s.board (env.stamped s.moments v)).registration _

/-- The areas of a declaration are those of the registered config, each with its own record. -/
theorem recordId_of_initialArea (hreg : s.mServerSidePropStore.registration d.config.prop =
      some (config, none))
    (hareas : config.areaConfigs = d.config.areaConfigs) (harea : areaId ∈ d.initialAreas)
    (hprop : v.prop = d.config.prop) (hv : v.areaId = areaId) :
    s.mServerSidePropStore.IsRegistered v.prop ∧
      ¬s.mServerSidePropStore.LacksAreaConfig v ∧
      s.mServerSidePropStore.recordIdOf v = some ⟨areaId, 0⟩ := by
  obtain ⟨record, hrecord, hpair⟩ := Option.map_eq_some_iff.mp (hprop ▸ hreg)
  obtain ⟨rfl, htoken⟩ := Prod.mk.inj hpair
  refine ⟨Option.isSome_iff_exists.mpr ⟨record, hrecord⟩, ?_, ?_⟩
  · rintro ⟨hzone, other, hother, hnone⟩
    cases hrecord.symm.trans hother
    rw [ConfigDeclaration.initialAreas, if_neg (by rw [← hprop, hzone]; decide)] at harea
    obtain ⟨c, hc, hid⟩ := List.mem_map.mp harea
    rw [getAreaConfig, if_neg (by rw [hzone]; decide), hareas, List.find?_eq_none] at hnone
    exact hnone c hc (decide_eq_true (hid.trans hv.symm))
  · rw [recordIdOf_of_record hrecord, getRecordIdLocked, Record.tokenOf, htoken, recordArea, hv]
    rw [ConfigDeclaration.initialAreas] at harea
    split
    · next hglobal =>
        rw [← hprop, if_pos hglobal, List.mem_singleton] at harea
        rw [harea]
    · rfl

/-- Some areas of a property got their declared values, and nothing else changed. -/
structure Fills (d : ConfigDeclaration) (areas : List Int) (a b : VehiclePropertyStore) : Prop where
  registration : ∀ propId, b.registration propId = a.registration propId
  others : ∀ propId, propId ≠ d.config.prop → ∀ recId,
    b.stored propId recId = a.stored propId recId
  own : ∀ areaId, (b.stored d.config.prop ⟨areaId, 0⟩).map VehiclePropValue.untimed =
    if areaId ∈ areas then
      (d.declaredValue areaId).or
        ((a.stored d.config.prop ⟨areaId, 0⟩).map VehiclePropValue.untimed)
    else (a.stored d.config.prop ⟨areaId, 0⟩).map VehiclePropValue.untimed

/-- The write of an area succeeds: its record is of an earlier time, if there is one. -/
theorem Constructing.fills_area (h : Constructing env.clock s)
    (hreg : s.mServerSidePropStore.registration d.config.prop = some (config, none))
    (hareas : config.areaConfigs = d.config.areaConfigs) (harea : areaId ∈ d.initialAreas) :
    Constructing env.clock (PropertyState.storeAreaInitialValue env d s areaId) ∧
      Fills d [areaId] s.mServerSidePropStore
        (PropertyState.storeAreaInitialValue env d s areaId).mServerSidePropStore := by
  cases hvalue : d.valueForArea areaId with
  | none =>
      rw [PropertyState.storeAreaInitialValue, hvalue]
      refine ⟨⟨h.reached, fun propId recId x hx => (h.timely propId recId x hx).trans
        (env.monotone (Nat.le_succ _)), h.callbacks, h.emitted, h.userHal⟩,
        fun _ => rfl, fun _ _ _ => rfl, fun b => ?_⟩
      by_cases hb : b ∈ [areaId]
      · rw [if_pos hb, declaredValue_eq, List.mem_singleton.mp hb, hvalue, Option.map_none,
          ite_self, Option.none_or]
      · rw [if_neg hb]
  | some value =>
      have heq : PropertyState.storeAreaInitialValue env d s areaId =
          (PropertyState.writeNow env { areaId, prop := d.config.prop, value } true
            .onValueChange s).2 := by
        rw [PropertyState.storeAreaInitialValue, hvalue]
      let v : VehiclePropValue := { areaId, prop := d.config.prop, value }
      obtain ⟨hregistered, hconfigured, hid⟩ := recordId_of_initialArea
        (v := env.stamped s.moments v) hreg hareas harea rfl rfl
      have hw : s.mServerSidePropStore.Writable (env.stamped s.moments v) := by
        refine ⟨hregistered, hconfigured, ?_⟩
        rintro ⟨old, hold, hlt⟩
        rw [storedFor, hid, Option.bind_some] at hold
        exact absurd (h.timely _ _ old hold) (not_le.mpr hlt)
      rw [heq]
      refine ⟨h.writeNow v true .onValueChange, registration_writeNow true .onValueChange,
        fun propId hne => h.stored_writeNow_of_ne hne true .onValueChange, fun b => ?_⟩
      rw [PropertyState.writeNow_eq, PropertyState.store_withBoard, h.board_write, if_pos hw,
        stored_put hregistered, hid]
      by_cases hb : b = areaId
      · subst hb
        rw [if_pos ⟨rfl, rfl⟩, if_pos (List.mem_singleton_self b), declaredValue_eq, if_pos harea,
          hvalue]
        rfl
      · rw [if_neg fun hkey => hb (congrArg RecordId.area (Option.some.inj hkey.2)).symm,
          if_neg fun hmem => hb (List.mem_singleton.mp hmem)]

/-- Filling an area and then others fills all of them. -/
theorem Fills.cons {areas : List Int} {a b c : VehiclePropertyStore} (h₁ : Fills d [areaId] a b)
    (h₂ : Fills d areas b c) : Fills d (areaId :: areas) a c := by
  refine ⟨fun propId => (h₂.registration propId).trans (h₁.registration propId),
    fun propId hne recId => (h₂.others propId hne recId).trans (h₁.others propId hne recId),
    fun x => ?_⟩
  rw [h₂.own, h₁.own]
  by_cases hx : x = areaId
  · subst hx
    simp only [List.mem_cons, true_or, if_true]
    split
    · cases d.declaredValue x <;> rfl
    · rfl
  · simp only [List.mem_cons, hx, List.not_mem_nil, or_self, false_or, if_false]

/-- The loop over the areas of a property. -/
theorem Constructing.fills (h : Constructing env.clock s)
    (hreg : s.mServerSidePropStore.registration d.config.prop = some (config, none))
    (hareas : config.areaConfigs = d.config.areaConfigs) {areas : List Int}
    (hmem : ∀ a ∈ areas, a ∈ d.initialAreas) :
    let t := areas.foldl (PropertyState.storeAreaInitialValue env d) s
    Constructing env.clock t ∧ Fills d areas s.mServerSidePropStore t.mServerSidePropStore ∧
      t.hvacPowerDependentProps = s.hvacPowerDependentProps := by
  induction areas generalizing s with
  | nil => exact ⟨h, ⟨fun _ => rfl, fun _ _ _ => rfl, fun _ => rfl⟩, rfl⟩
  | cons a areas ih =>
      rw [List.forall_mem_cons] at hmem
      obtain ⟨ht, hfills⟩ := h.fills_area hreg hareas hmem.1
      obtain ⟨hu, hrest, hdependents⟩ := ih ht ((hfills.registration _).trans hreg) hmem.2
      refine ⟨hu, hfills.cons hrest, hdependents.trans ?_⟩
      rw [PropertyState.storeAreaInitialValue]
      split <;> rfl

end Writes

section Areas

variable {d : ConfigDeclaration} {t u : SupportedValues} {areaConfig : AreaDeclaration}

/-- The least value that is declared for an area of a property with bounds. -/
def AreaDeclaration.declaredMin (propertyType : Option VehiclePropertyType)
    (areaConfig : AreaDeclaration) : Option RawPropValues :=
  if areaConfig.hasSupportedValueInfo.any HasSupportedValueInfo.hasMinSupportedValue then
    if propertyType = some .int32 then some { int32Values := [areaConfig.minInt32Value] }
    else if propertyType = some .int64 then some { int64Values := [areaConfig.minInt64Value] }
    else if propertyType = some .float then some { floatValues := [areaConfig.minFloatValue] }
    else none
  else none

/-- The greatest value that is declared for an area of a property with bounds. -/
def AreaDeclaration.declaredMax (propertyType : Option VehiclePropertyType)
    (areaConfig : AreaDeclaration) : Option RawPropValues :=
  if areaConfig.hasSupportedValueInfo.any HasSupportedValueInfo.hasMaxSupportedValue then
    if propertyType = some .int32 then some { int32Values := [areaConfig.maxInt32Value] }
    else if propertyType = some .int64 then some { int64Values := [areaConfig.maxInt64Value] }
    else if propertyType = some .float then some { floatValues := [areaConfig.maxFloatValue] }
    else none
  else none

/-- The numbers that are listed for an area: the floats, without their fractions if the property
has whole numbers, or else the values of the enumeration, in the range of the property. -/
def ConfigDeclaration.listed (d : ConfigDeclaration) (areaConfig : AreaDeclaration) :
    List RawPropValues :=
  match d.supportedValuesForAreaId.lookup areaConfig.areaId, getPropType d.config.prop with
  | some floats, some .int32 => floats.map fun x => { int32Values := [x.wholePart] }
  | some floats, some .int64 => floats.map fun x => { int64Values := [x.wholePart] }
  | some floats, some .float => floats.map fun x => { floatValues := [x] }
  | none, some .int32 => (areaConfig.supportedEnumValues.getD []).map fun n =>
      { int32Values := [n.bmod (2 ^ 32)] }
  | none, some .int64 => (areaConfig.supportedEnumValues.getD []).map fun n =>
      { int64Values := [n] }
  | _, _ => []

/-- The floats that are listed for an area fit the type of the property. -/
def ConfigDeclaration.ListFits (d : ConfigDeclaration) (areaConfig : AreaDeclaration) : Prop :=
  ∀ floats, d.supportedValuesForAreaId.lookup areaConfig.areaId = some floats → ∀ x ∈ floats,
    (getPropType d.config.prop = some .int32 → x.FitsIn (-2 ^ 31) (2 ^ 31 - 1)) ∧
      (getPropType d.config.prop = some .int64 → x.FitsIn (-2 ^ 63) (2 ^ 63 - 1))

/-- The list that is declared for an area; an empty list is none. -/
def ConfigDeclaration.declaredList (d : ConfigDeclaration) (areaConfig : AreaDeclaration) :
    Option (List RawPropValues) :=
  if areaConfig.hasSupportedValueInfo.any HasSupportedValueInfo.hasSupportedValuesList = true ∧
      d.listed areaConfig ≠ [] then some (d.listed areaConfig)
  else none

/-- The declared minimum is the one the code computes, where the declaration specifies one. -/
theorem minValue_eq (areaConfig : AreaDeclaration) (propertyType : Option VehiclePropertyType) :
    areaConfig.declaredMin propertyType =
      if areaConfig.hasSupportedValueInfo.any HasSupportedValueInfo.hasMinSupportedValue then
        areaConfig.minValue propertyType
      else none := by
  rw [AreaDeclaration.declaredMin]
  rcases propertyType with _ | type
  · rfl
  · cases type <;> rfl

/-- The declared maximum is the one the code computes, where the declaration specifies one. -/
theorem maxValue_eq (areaConfig : AreaDeclaration) (propertyType : Option VehiclePropertyType) :
    areaConfig.declaredMax propertyType =
      if areaConfig.hasSupportedValueInfo.any HasSupportedValueInfo.hasMaxSupportedValue then
        areaConfig.maxValue propertyType
      else none := by
  rw [AreaDeclaration.declaredMax]
  rcases propertyType with _ | type
  · rfl
  · cases type <;> rfl

/-- A float is converted exactly if it fits, and to its whole part. -/
theorem castFloat_eq_ok_iff {min max n : Int} {x : Binary32} :
    castFloat min max x = .ok n ↔ x.FitsIn min max ∧ x.wholePart = n := by
  rw [← Binary32.toInt_eq_some_iff, castFloat]
  cases x.toInt min max with
  | none => exact iff_of_false (fun h => by cases h) fun h => by cases h
  | some m => rw [Except.ok.injEq, Option.some.injEq]

/-- The conversion of a list of floats succeeds if each of them fits. -/
theorem mapM_castFloat_eq_ok_iff {min max : Int} {wrap : Int → RawPropValues}
    {floats : List Binary32} {list : List RawPropValues} :
    (floats.mapM fun x => (castFloat min max x).map wrap) = .ok list ↔
      (∀ x ∈ floats, x.FitsIn min max) ∧ (floats.map fun x => wrap x.wholePart) = list := by
  rw [mapM_eq_ok_iff]
  simp only [map_eq_ok_iff, castFloat_eq_ok_iff]
  constructor
  · intro h
    induction h with
    | nil => exact ⟨fun x hx => absurd hx List.not_mem_nil, rfl⟩
    | cons hx _ ih =>
        obtain ⟨n, ⟨hfits, rfl⟩, rfl⟩ := hx
        exact ⟨List.forall_mem_cons.mpr ⟨hfits, ih.1⟩, congrArg _ ih.2⟩
  · rintro ⟨hfits, rfl⟩
    exact List.forall₂_map_right_iff.mpr (List.forall₂_same.mpr fun x hx =>
      ⟨x.wholePart, ⟨hfits x hx, rfl⟩, rfl⟩)

/-- The list of an area is the declared one, and there is one if the declared floats fit. -/
theorem supportedValuesList_eq_ok_iff {list : List RawPropValues} :
    d.supportedValuesList areaConfig (getPropType d.config.prop) = .ok list ↔
      d.ListFits areaConfig ∧ d.listed areaConfig = list := by
  rw [ConfigDeclaration.supportedValuesList, ConfigDeclaration.ListFits, ConfigDeclaration.listed]
  cases d.supportedValuesForAreaId.lookup areaConfig.areaId with
  | none =>
      refine Iff.trans ?_ (and_iff_right fun _ h => by cases h).symm
      simp only [Except.ok.injEq]
      rcases getPropType d.config.prop with _ | type
      · rfl
      · cases type <;> rfl
  | some floats =>
      rcases getPropType d.config.prop with _ | type
      · simp [listOfSupportedValues]
      · cases type with
        | int32 =>
            refine mapM_castFloat_eq_ok_iff.trans (and_congr_left fun _ => ?_)
            simp
        | int64 =>
            refine mapM_castFloat_eq_ok_iff.trans (and_congr_left fun _ => ?_)
            simp
        | _ => simp [listOfSupportedValues]

/-- There is a list of supported values exactly if the floats of an area fit the type. -/
theorem exists_supportedValuesList_iff :
    (∃ list, d.supportedValuesList areaConfig (getPropType d.config.prop) = .ok list) ↔
      d.ListFits areaConfig := by
  simp only [supportedValuesList_eq_ok_iff, exists_and_left, exists_eq', and_true]

/-- What is declared for an area; the last declaration of an area counts. -/
def ConfigDeclaration.declaredFor {T : Type} (d : ConfigDeclaration)
    (declared : AreaDeclaration → Option T) (areaId : Int) : Option T :=
  (d.areas.filterMap fun areaConfig =>
    if areaConfig.areaId = areaId then declared areaConfig else none).getLast?

/-- What is given is noted under a pair, in place of what was noted before. -/
structure Notes (p : PropIdAreaId) (min max : Option RawPropValues)
    (list : Option (List RawPropValues)) (t u : SupportedValues) : Prop where
  minValue : ∀ q, u.mMinSupportedValueByPropIdAreaId.lookup q =
    (if q = p then min else none).or (t.mMinSupportedValueByPropIdAreaId.lookup q)
  maxValue : ∀ q, u.mMaxSupportedValueByPropIdAreaId.lookup q =
    (if q = p then max else none).or (t.mMaxSupportedValueByPropIdAreaId.lookup q)
  supportedValues : ∀ q, u.mSupportedValuesByPropIdAreaId.lookup q =
    (if q = p then list else none).or (t.mSupportedValuesByPropIdAreaId.lookup q)

/-- An insertion is what is new at its key. -/
theorem lookup_insert_or {T : Type} (m : UnorderedMap PropIdAreaId T) (p q : PropIdAreaId)
    (value : T) : Finmap.lookup q (m.insert p value) =
      (if q = p then some value else none).or (m.lookup q) := by
  rw [UnorderedMap.lookup_insert_eq]
  split <;> rfl

/-- Nothing is new anywhere. -/
theorem lookup_or {T : Type} (m : UnorderedMap PropIdAreaId T) (p q : PropIdAreaId) :
    m.lookup q = (if q = p then none else none).or (m.lookup q) := by
  rw [ite_self, Option.none_or]

/-- Nothing is noted. -/
theorem Notes.refl (p : PropIdAreaId) (t : SupportedValues) : Notes p none none none t t :=
  ⟨fun q => lookup_or _ p q, fun q => lookup_or _ p q, fun q => lookup_or _ p q⟩

/-- A minimum is noted. -/
theorem notes_setMin (p : PropIdAreaId) (min : RawPropValues) (t : SupportedValues) :
    Notes p (some min) none none t (t.setMinSupportedValueLocked p min) :=
  ⟨fun q => lookup_insert_or _ p q min, fun q => lookup_or _ p q, fun q => lookup_or _ p q⟩

/-- A maximum is noted. -/
theorem notes_setMax (p : PropIdAreaId) (max : RawPropValues) (t : SupportedValues) :
    Notes p none (some max) none t (t.setMaxSupportedValueLocked p max) :=
  ⟨fun q => lookup_or _ p q, fun q => lookup_insert_or _ p q max, fun q => lookup_or _ p q⟩

/-- A list is noted. -/
theorem notes_setSupportedValues (p : PropIdAreaId) (list : List RawPropValues)
    (t : SupportedValues) : Notes p none none (some list) t (t.setSupportedValues p list) :=
  ⟨fun q => lookup_or _ p q, fun q => lookup_or _ p q, fun q => lookup_insert_or _ p q list⟩

/-- Of two notes about a pair the later one counts. -/
theorem Notes.trans {p : PropIdAreaId} {min max min' max' : Option RawPropValues}
    {list list' : Option (List RawPropValues)} {v : SupportedValues} (h₁ : Notes p min max list t u)
    (h₂ : Notes p min' max' list' u v) :
    Notes p (min'.or min) (max'.or max) (list'.or list) t v := by
  refine ⟨fun q => ?_, fun q => ?_, fun q => ?_⟩
  · rw [h₂.minValue, h₁.minValue, ← Option.or_assoc]
    split <;> rfl
  · rw [h₂.maxValue, h₁.maxValue, ← Option.or_assoc]
    split <;> rfl
  · rw [h₂.supportedValues, h₁.supportedValues, ← Option.or_assoc]
    split <;> rfl

/-- A type has both bounds, or no bounds and no list of supported values. -/
theorem bounded_or_not (areaConfig : AreaDeclaration) (propertyType : Option VehiclePropertyType) :
    (∃ min max, areaConfig.minValue propertyType = some min ∧
      areaConfig.maxValue propertyType = some max) ∨
    areaConfig.minValue propertyType = none ∧ areaConfig.maxValue propertyType = none ∧
      ∀ d : ConfigDeclaration, d.supportedValuesList areaConfig propertyType = .ok [] := by
  rcases propertyType with _ | type
  · refine Or.inr ⟨rfl, rfl, fun d => ?_⟩
    rw [ConfigDeclaration.supportedValuesList]
    split <;> rfl
  · cases type with
    | int32 | int64 | float => exact Or.inl ⟨_, _, rfl, rfl⟩
    | _ =>
        refine Or.inr ⟨rfl, rfl, fun d => ?_⟩
        rw [ConfigDeclaration.supportedValuesList]
        split <;> rfl

/-- A bound is set where it is specified. -/
theorem initBound_some (specified : Bool) (bound : RawPropValues)
    (set : RawPropValues → SupportedValues → SupportedValues) (t : SupportedValues) :
    SupportedValues.initBound specified (some bound) set t =
      some (if specified then set bound t else t) := by
  rw [SupportedValues.initBound]
  split <;> rfl

/-- One area; that the rest of an area without bounds is skipped makes no difference. -/
theorem notes_of_initArea (h : SupportedValues.initArea d t areaConfig = .ok u) :
    Notes ⟨d.config.prop, areaConfig.areaId⟩
      (areaConfig.declaredMin (getPropType d.config.prop))
      (areaConfig.declaredMax (getPropType d.config.prop)) (d.declaredList areaConfig) t u := by
  rw [minValue_eq, maxValue_eq, ConfigDeclaration.declaredList]
  rw [SupportedValues.initArea] at h
  generalize (⟨d.config.prop, areaConfig.areaId⟩ : PropIdAreaId) = p at h ⊢
  cases hinfo : areaConfig.hasSupportedValueInfo with
  | none =>
      rw [hinfo] at h
      cases h
      exact Notes.refl p t
  | some info =>
      obtain ⟨hasMin, hasMax, hasList⟩ := info
      rw [hinfo] at h
      simp only [Option.any_some]
      rcases bounded_or_not areaConfig (getPropType d.config.prop) with
        ⟨min, max, hmin, hmax⟩ | ⟨hmin, hmax, hlist⟩
      · simp only [hmin, hmax, initBound_some] at h ⊢
        have ha : Notes p (if hasMin then some min else none) none none t
            (if hasMin then t.setMinSupportedValueLocked p min else t) := by
          cases hasMin with
          | true => exact notes_setMin p min t
          | false => exact Notes.refl p t
        generalize (if hasMin then t.setMinSupportedValueLocked p min else t) = a at h ha
        have hb : Notes p none (if hasMax then some max else none) none a
            (if hasMax then a.setMaxSupportedValueLocked p max else a) := by
          cases hasMax with
          | true => exact notes_setMax p max a
          | false => exact Notes.refl p a
        generalize (if hasMax then a.setMaxSupportedValueLocked p max else a) = b at h hb
        have hbounds := ha.trans hb
        rw [Option.none_or, Option.none_or, Option.or_none] at hbounds
        split at h
        · next hlists =>
            cases hlist : d.supportedValuesList areaConfig (getPropType d.config.prop) with
            | error e =>
                rw [hlist] at h
                cases h
            | ok list =>
                rw [hlist] at h
                obtain rfl := Except.ok.inj h
                rw [(supportedValuesList_eq_ok_iff.mp hlist).2]
                change Notes p _ _ _ t (if list = [] then b else b.setSupportedValues p list)
                by_cases hempty : list = []
                · have hnone : (if hasList = true ∧ list ≠ [] then some list else none) = none :=
                    if_neg fun h => h.2 hempty
                  rw [if_pos hempty, hnone]
                  exact hbounds
                · have hall := hbounds.trans (notes_setSupportedValues p list b)
                  rw [Option.none_or, Option.none_or, Option.or_none] at hall
                  have hsome : (if hasList = true ∧ list ≠ [] then some list else none) =
                      some list :=
                    if_pos ⟨hlists, hempty⟩
                  rw [if_neg hempty, hsome]
                  exact hall
        · next hlists =>
            obtain rfl := Except.ok.inj h
            have hnone : (if hasList = true ∧ d.listed areaConfig ≠ [] then
                some (d.listed areaConfig) else none) = none :=
              if_neg fun h => hlists h.1
            rw [hnone]
            exact hbounds
      · have hsame : t = u := by
          simp only [hmin, hmax, hlist, SupportedValues.initBound] at h
          cases hasMin <;> cases hasMax <;> cases hasList <;> exact Except.ok.inj h
        rw [(supportedValuesList_eq_ok_iff.mp (hlist d)).2, hmin, hmax, ite_self, ite_self, hsame,
          if_neg fun h => h.2 rfl]
        exact Notes.refl p u

/-- An area only fails at a number in its list that does not fit. -/
theorem exists_initArea_iff (t : SupportedValues) :
    (∃ u, SupportedValues.initArea d t areaConfig = .ok u) ↔
      (areaConfig.hasSupportedValueInfo.any HasSupportedValueInfo.hasSupportedValuesList = true →
        d.ListFits areaConfig) := by
  rw [← exists_supportedValuesList_iff, SupportedValues.initArea]
  cases areaConfig.hasSupportedValueInfo with
  | none => exact iff_of_true ⟨t, rfl⟩ fun h => absurd h (by simp)
  | some info =>
      obtain ⟨hasMin, hasMax, hasList⟩ := info
      simp only [Option.any_some]
      rcases bounded_or_not areaConfig (getPropType d.config.prop) with
        ⟨min, max, hmin, hmax⟩ | ⟨hmin, hmax, hlist⟩
      · simp only [hmin, hmax, initBound_some]
        cases hasList with
        | false => exact iff_of_true ⟨_, rfl⟩ fun h => absurd h (by simp)
        | true =>
            cases d.supportedValuesList areaConfig (getPropType d.config.prop) with
            | error e =>
                refine iff_of_false ?_ fun h => ?_
                · rintro ⟨_, ⟨⟩⟩
                · obtain ⟨_, ⟨⟩⟩ := h rfl
            | ok list => exact iff_of_true ⟨_, rfl⟩ fun _ => ⟨list, rfl⟩
      · refine iff_of_true ?_ fun _ => ⟨[], hlist d⟩
        simp only [hmin, hmax, hlist, SupportedValues.initBound]
        cases hasMin <;> cases hasMax <;> cases hasList <;> exact ⟨_, rfl⟩

/-- The turns that are about a pair are those of its area, if it is of the property. -/
theorem getLast?_filterMap_pair {T : Type} (d : ConfigDeclaration)
    (declared : AreaDeclaration → Option T) (q : PropIdAreaId) :
    (d.areas.filterMap fun areaConfig =>
      if q = ⟨d.config.prop, areaConfig.areaId⟩ then declared areaConfig else none).getLast? =
      if q.propId = d.config.prop then d.declaredFor declared q.areaId else none := by
  split
  · next hprop =>
      rw [ConfigDeclaration.declaredFor]
      congr 2
      funext areaConfig
      exact if_congr ⟨fun h => (congrArg PropIdAreaId.areaId h).symm,
        fun h => congrArg₂ PropIdAreaId.mk hprop h.symm⟩ rfl rfl
  · next hprop =>
      rw [List.getLast?_eq_none_iff, List.filterMap_eq_nil_iff]
      exact fun areaConfig _ => if_neg fun h => hprop (congrArg PropIdAreaId.propId h)

/-- The loop over the areas notes what is declared for each of them. -/
theorem tables_of_areas (h : d.areas.foldlM (SupportedValues.initArea d) t = .ok u)
    (q : PropIdAreaId) :
    u.mMinSupportedValueByPropIdAreaId.lookup q =
        (if q.propId = d.config.prop then
          d.declaredFor (AreaDeclaration.declaredMin (getPropType d.config.prop)) q.areaId
        else none).or (t.mMinSupportedValueByPropIdAreaId.lookup q) ∧
      u.mMaxSupportedValueByPropIdAreaId.lookup q =
        (if q.propId = d.config.prop then
          d.declaredFor (AreaDeclaration.declaredMax (getPropType d.config.prop)) q.areaId
        else none).or (t.mMaxSupportedValueByPropIdAreaId.lookup q) ∧
      u.mSupportedValuesByPropIdAreaId.lookup q =
        (if q.propId = d.config.prop then d.declaredFor d.declaredList q.areaId else none).or
          (t.mSupportedValuesByPropIdAreaId.lookup q) := by
  simp only [← getLast?_filterMap_pair]
  refine ⟨
    foldlM_lastWord (O := fun t : SupportedValues => t.mMinSupportedValueByPropIdAreaId.lookup q)
      (fun t areaConfig u hstep => ?_) h,
    foldlM_lastWord (O := fun t : SupportedValues => t.mMaxSupportedValueByPropIdAreaId.lookup q)
      (fun t areaConfig u hstep => ?_) h,
    foldlM_lastWord (O := fun t : SupportedValues => t.mSupportedValuesByPropIdAreaId.lookup q)
      (fun t areaConfig u hstep => ?_) h⟩
  · exact (notes_of_initArea hstep).minValue q
  · exact (notes_of_initArea hstep).maxValue q
  · exact (notes_of_initArea hstep).supportedValues q

end Areas

/-- The config that is declared, but for the first entry for the requests of the power state. -/
def ConfigDeclaration.declaredConfig (d : ConfigDeclaration) (s2rS2dConfig : Int) :
    VehiclePropConfig :=
  if d.config.prop = apPowerStateReqId then
    { d.config with configArray := d.config.configArray.set 0 s2rS2dConfig }
  else d.config

/-- The hardware has of a property what is declared for it. -/
structure Declares (s2rS2dConfig : Int) (d : ConfigDeclaration) (view : PropertyView) : Prop where
  registration : view.registration = some (d.declaredConfig s2rS2dConfig, none)
  stored : ∀ areaId, (view.stored ⟨areaId, 0⟩).map VehiclePropValue.untimed =
    d.declaredValue areaId
  dependents : view.dependents =
    if d.config.prop = hvacPowerOnId then d.config.configArray.toFinset else ∅
  minValue : ∀ areaId, view.minValue areaId =
    d.declaredFor (AreaDeclaration.declaredMin (getPropType d.config.prop)) areaId
  maxValue : ∀ areaId, view.maxValue areaId =
    d.declaredFor (AreaDeclaration.declaredMax (getPropType d.config.prop)) areaId
  supportedValues : ∀ areaId, view.supportedValues areaId = d.declaredFor d.declaredList areaId

/-- The properties of the diagnosis. -/
def IsDiagnostic (propId : Int) : Prop :=
  propId = obd2LiveFrameId ∨ propId = obd2FreezeFrameId ∨ propId = obd2FreezeFrameClearId ∨
    propId = obd2FreezeFrameInfoId

instance (propId : Int) : Decidable (IsDiagnostic propId) := inferInstanceAs (Decidable (_ ∨ _))

section Turns

variable {env : Environment} {s2rS2dConfig : Int} {s t : HardwareState} {d : ConfigDeclaration}
  {config : VehiclePropConfig} {propId : Int}

/-- The decision is that of the predicate. -/
theorem isDiagnosticProperty_iff (config : VehiclePropConfig) :
    isDiagnosticProperty config = true ↔ IsDiagnostic config.prop := by
  simp only [isDiagnosticProperty, IsDiagnostic, Bool.or_eq_true, decide_eq_true_eq, or_assoc]

/-- The registered config is the declared one. -/
theorem eq_of_registeredConfig (h : d.registeredConfig s2rS2dConfig = .ok config) :
    config = d.declaredConfig s2rS2dConfig := by
  rw [ConfigDeclaration.registeredConfig] at h
  rw [ConfigDeclaration.declaredConfig]
  split at h
  · next hprop =>
    rw [if_pos hprop]
    obtain ⟨configArray, harray, rfl⟩ := map_eq_ok_iff.mp h
    rw [assignAt] at harray
    split at harray
    · cases harray
      rfl
    · cases harray
  · next hprop =>
    rw [if_neg hprop]
    exact (Except.ok.inj h).symm

/-- Only the config array may be another one. -/
theorem of_registeredConfig (h : d.registeredConfig s2rS2dConfig = .ok config) :
    config.prop = d.config.prop ∧ config.areaConfigs = d.config.areaConfigs := by
  rw [eq_of_registeredConfig h, ConfigDeclaration.declaredConfig]
  split <;> exact ⟨rfl, rfl⟩

/-- A declared property is registered with its configuration. -/
theorem registration_registerDeclared (s : PropertyState) :
    (s.registerDeclared config).mServerSidePropStore.registration propId =
      if propId = config.prop then some (config, tokenFunctionOf config.prop)
      else s.mServerSidePropStore.registration propId :=
  registration_withRecord ..

/-- A newly registered property has no values. -/
theorem stored_registerDeclared (s : PropertyState) (recId : RecordId) :
    (s.registerDeclared config).mServerSidePropStore.stored propId recId =
      if propId = config.prop then none
      else s.mServerSidePropStore.stored propId recId := by
  rw [PropertyState.registerDeclared, VehiclePropertyStore.registerProperty, stored_withRecord]
  rfl

/-- A registration keeps a state under construction. -/
theorem Constructing.registerDeclared {s : PropertyState} (h : Constructing env.clock s)
    (config : VehiclePropConfig) : Constructing env.clock (s.registerDeclared config) := by
  refine ⟨@StoreReached.call _ (.registerProperty config (tokenFunctionOf config.prop)) h.reached
    ⟨?_, ?_⟩, fun propId recId x hx => ?_, h.callbacks, h.emitted, h.userHal⟩
  · change IsTokenFunction (tokenFunctionOf config.prop)
    rw [tokenFunctionOf]
    split
    · exact Or.inr rfl
    · exact Or.inl rfl
  · rintro _ _ ⟨⟩
    rfl
  · rw [stored_registerDeclared] at hx
    split at hx
    · cases hx
    · exact h.timely propId recId x hx

/-- What a turn is made of. -/
theorem initProperty_cases {entry : Int × ConfigDeclaration}
    (h : HardwareState.initProperty env s2rS2dConfig s entry = .ok t) :
    ∃ config, entry.2.registeredConfig s2rS2dConfig = .ok config ∧
      (IsDiagnostic config.prop ∧
          t = { s with properties := s.properties.registerDeclared config } ∨
        ¬IsDiagnostic config.prop ∧ ∃ supported,
          entry.2.areas.foldlM (SupportedValues.initArea entry.2) s.supported = .ok supported ∧
          t = ⟨(s.properties.registerDeclared config).storePropInitialValue env entry.2,
            supported⟩) := by
  obtain ⟨config, hconfig, h⟩ := bind_eq_ok_iff.mp h
  refine ⟨config, hconfig, ?_⟩
  by_cases hdiagnostic : isDiagnosticProperty config = true
  · rw [if_pos hdiagnostic] at h
    exact Or.inl ⟨(isDiagnosticProperty_iff config).mp hdiagnostic, (Except.ok.inj h).symm⟩
  · rw [if_neg hdiagnostic] at h
    obtain ⟨supported, hsupported, h⟩ := bind_eq_ok_iff.mp h
    exact Or.inr ⟨mt (isDiagnosticProperty_iff config).mpr hdiagnostic, supported, hsupported,
      (Except.ok.inj h).symm⟩

/-- A configuration is registered unless it is that of the power request without an array. -/
theorem exists_registeredConfig_iff :
    (∃ config, d.registeredConfig s2rS2dConfig = .ok config) ↔
      (d.config.prop = apPowerStateReqId → d.config.configArray ≠ []) := by
  rw [ConfigDeclaration.registeredConfig]
  split
  · next hprop =>
      rw [assignAt]
      split
      · next hlength => exact iff_of_true ⟨_, rfl⟩ fun _ => List.ne_nil_of_length_pos hlength
      · next hlength =>
          refine iff_of_false ?_ fun h => hlength (List.length_pos_of_ne_nil (h hprop))
          rintro ⟨config, h⟩
          cases h
  · next hprop => exact iff_of_true ⟨_, rfl⟩ fun h => absurd h hprop

/-- The turn of a declaration may be undefined for two reasons. -/
theorem exists_initProperty_iff (s : HardwareState) (entry : Int × ConfigDeclaration) :
    (∃ t, HardwareState.initProperty env s2rS2dConfig s entry = .ok t) ↔
      (entry.2.config.prop = apPowerStateReqId → entry.2.config.configArray ≠ []) ∧
      (¬IsDiagnostic entry.2.config.prop → ∀ areaConfig ∈ entry.2.areas,
        areaConfig.hasSupportedValueInfo.any HasSupportedValueInfo.hasSupportedValuesList = true →
          entry.2.ListFits areaConfig) := by
  have hareas := exists_foldlM_eq_ok_iff (P := fun areaConfig : AreaDeclaration =>
      areaConfig.hasSupportedValueInfo.any HasSupportedValueInfo.hasSupportedValuesList = true →
        entry.2.ListFits areaConfig) (fun areaConfig (_ : areaConfig ∈ entry.2.areas) t =>
          exists_initArea_iff t) s.supported
  rw [← exists_registeredConfig_iff, ← hareas, HardwareState.initProperty]
  simp only [bind_eq_ok_iff]
  constructor
  · rintro ⟨t, config, hok, h⟩
    refine ⟨⟨config, hok⟩, fun hnot => ?_⟩
    rw [← (of_registeredConfig hok).1, ← isDiagnosticProperty_iff] at hnot
    rw [if_neg hnot] at h
    obtain ⟨supported, hsupported, -⟩ := bind_eq_ok_iff.mp h
    exact ⟨supported, hsupported⟩
  · rintro ⟨⟨config, hok⟩, hsupported⟩
    by_cases hdiagnostic : isDiagnosticProperty config = true
    · exact ⟨_, config, hok, by rw [if_pos hdiagnostic]; rfl⟩
    · have hnot := mt (isDiagnosticProperty_iff config).mpr hdiagnostic
      obtain ⟨supported, hsupported⟩ := hsupported ((of_registeredConfig hok).1 ▸ hnot)
      exact ⟨_, config, hok, by rw [if_neg hdiagnostic, hsupported]; rfl⟩

/-- The initial values of a registered property. -/
theorem Constructing.storePropInitialValue {s : PropertyState} (h : Constructing env.clock s)
    (hreg : s.mServerSidePropStore.registration d.config.prop = some (config, none))
    (hareas : config.areaConfigs = d.config.areaConfigs) :
    let t := s.storePropInitialValue env d
    Constructing env.clock t ∧
      Fills d d.initialAreas s.mServerSidePropStore t.mServerSidePropStore ∧
      t.hvacPowerDependentProps = if d.config.prop = hvacPowerOnId then
        s.hvacPowerDependentProps ∪ d.config.configArray.toFinset
      else s.hvacPowerDependentProps := by
  intro t
  unfold t PropertyState.storePropInitialValue
  split
  · let u : PropertyState := { s with
      hvacPowerDependentProps := s.hvacPowerDependentProps ∪ d.config.configArray.toFinset }
    have hu : Constructing env.clock u :=
      ⟨h.reached, h.timely, h.callbacks, h.emitted, h.userHal⟩
    exact hu.fills hreg hareas fun a ha => ha
  · exact h.fills hreg hareas fun a ha => ha

/-- A turn keeps what holds during the construction and leaves other properties alone; from
nothing, it makes of its own property what is declared. -/
theorem initProperty_spec {entry : Int × ConfigDeclaration}
    (h : HardwareState.initProperty env s2rS2dConfig s entry = .ok t)
    (hs : Constructing env.clock s.properties) (hkey : entry.2.config.prop = entry.1) :
    Constructing env.clock t.properties ∧ (∀ k, k ≠ entry.1 → t.view k = s.view k) ∧
      (∃ config, entry.2.registeredConfig s2rS2dConfig = .ok config ∧
        (t.view entry.1).registration = some (config, tokenFunctionOf entry.1)) ∧
      (¬IsDiagnostic entry.1 → s.view entry.1 = {} →
        Declares s2rS2dConfig entry.2 (t.view entry.1)) := by
  obtain ⟨propId, d⟩ := entry
  change d.config.prop = propId at hkey
  subst hkey
  obtain ⟨config, hconfig, hcases⟩ := initProperty_cases h
  obtain ⟨hprop, hareas⟩ := of_registeredConfig hconfig
  have hregistered := hs.registerDeclared config
  have hothers (k : Int) (hk : k ≠ d.config.prop) :
      (s.properties.registerDeclared config).mServerSidePropStore.registration k =
          s.properties.mServerSidePropStore.registration k ∧
        (s.properties.registerDeclared config).mServerSidePropStore.stored k =
          s.properties.mServerSidePropStore.stored k := by
    rw [← hprop] at hk
    exact ⟨(registration_registerDeclared _).trans (if_neg hk),
      funext fun recId => (stored_registerDeclared _ recId).trans (if_neg hk)⟩
  rcases hcases with ⟨hdiagnostic, rfl⟩ | ⟨hdiagnostic, supported, hsupported, rfl⟩
  · refine ⟨hregistered, fun k hk => ?_, ⟨config, hconfig, ?_⟩,
      fun hnot => absurd (hprop ▸ hdiagnostic) hnot⟩
    · ext1
      · exact (hothers k hk).1
      · exact (hothers k hk).2
      all_goals rfl
    · refine (registration_registerDeclared _).trans ?_
      rw [if_pos hprop.symm, hprop]
  · have htoken : tokenFunctionOf d.config.prop = none :=
      if_neg fun hframe => hdiagnostic (Or.inr (Or.inl (hprop.trans hframe)))
    have hreg : (s.properties.registerDeclared config).mServerSidePropStore.registration
        d.config.prop = some (config, none) := by
      rw [registration_registerDeclared, if_pos hprop.symm, hprop, htoken]
    obtain ⟨ht, hfills, hdependents⟩ := hregistered.storePropInitialValue hreg hareas
    have htables := tables_of_areas hsupported
    refine ⟨ht, fun k hk => ?_, ⟨config, hconfig, ?_⟩, fun _ hfresh => ?_⟩
    · ext1
      · exact (hfills.registration k).trans (hothers k hk).1
      · exact funext fun recId => (hfills.others k hk recId).trans
          (congrFun (hothers k hk).2 recId)
      · rw [HardwareState.view, HardwareState.view]
        split
        · next hpower => exact hdependents.trans (if_neg fun hd => hk (hpower.trans hd.symm))
        · rfl
      · exact funext fun a => (htables ⟨k, a⟩).1.trans (by rw [if_neg hk]; rfl)
      · exact funext fun a => (htables ⟨k, a⟩).2.1.trans (by rw [if_neg hk]; rfl)
      · exact funext fun a => (htables ⟨k, a⟩).2.2.trans (by rw [if_neg hk]; rfl)
    · rw [htoken]
      exact (hfills.registration _).trans hreg
    · have hnone {T : Type} (f : PropertyView → Int → Option T) (hf : ∀ a, f {} a = none)
          (a : Int) : f (s.view d.config.prop) a = none :=
        (congrArg (f · a) hfresh).trans (hf a)
      have hmin := hnone PropertyView.minValue fun _ => rfl
      have hmax := hnone PropertyView.maxValue fun _ => rfl
      have hlist := hnone PropertyView.supportedValues fun _ => rfl
      refine ⟨?_, fun a => ?_, ?_, fun a => ?_, fun a => ?_, fun a => ?_⟩
      · rw [← eq_of_registeredConfig hconfig]
        exact (hfills.registration _).trans hreg
      · refine (hfills.own a).trans ?_
        rw [stored_registerDeclared, if_pos hprop.symm, Option.map_none, Option.or_none,
          declaredValue_eq]
        split <;> rfl
      · have hempty := congrArg PropertyView.dependents hfresh
        rw [HardwareState.view] at hempty ⊢
        by_cases hpower : d.config.prop = hvacPowerOnId
        · rw [if_pos hpower] at hempty ⊢ hdependents
          rw [if_pos hpower]
          exact hdependents.trans ((congrArg (· ∪ _) hempty).trans (Finset.empty_union _))
        · rw [if_neg hpower, if_neg hpower]
      · exact (htables ⟨_, a⟩).1.trans
          ((congrArg₂ Option.or (if_pos rfl) (hmin a)).trans Option.or_none)
      · exact (htables ⟨_, a⟩).2.1.trans
          ((congrArg₂ Option.or (if_pos rfl) (hmax a)).trans Option.or_none)
      · exact (htables ⟨_, a⟩).2.2.trans
          ((congrArg₂ Option.or (if_pos rfl) (hlist a)).trans Option.or_none)

end Turns

section Frames

variable {env : Environment} {clock : Nat → Int} {s t u : PropertyState} {prop : Int}
  {config : VehiclePropConfig}

/-- Only values of one property are written. -/
structure AddsFrames (clock : Nat → Int) (prop : Int) (s t : PropertyState) : Prop where
  constructing : Constructing clock t
  registration : ∀ propId, t.mServerSidePropStore.registration propId =
    s.mServerSidePropStore.registration propId
  others : ∀ propId, propId ≠ prop →
    t.mServerSidePropStore.stored propId = s.mServerSidePropStore.stored propId
  dependents : t.hvacPowerDependentProps = s.hvacPowerDependentProps

/-- Nothing is added. -/
theorem AddsFrames.refl (h : Constructing clock s) (prop : Int) : AddsFrames clock prop s s :=
  ⟨h, fun _ => rfl, fun _ _ => rfl, rfl⟩

/-- Two steps that add frames add those of both. -/
theorem AddsFrames.trans (h₁ : AddsFrames clock prop s t) (h₂ : AddsFrames clock prop t u) :
    AddsFrames clock prop s u :=
  ⟨h₂.constructing, fun propId => (h₂.registration propId).trans (h₁.registration propId),
    fun propId hne => (h₂.others propId hne).trans (h₁.others propId hne),
    h₂.dependents.trans h₁.dependents⟩

/-- A frame needs the two numbers of sensors. -/
theorem exists_writeFrame_iff {dtc : String} :
    (∃ t, PropertyState.writeFrame env prop config s dtc = .ok t) ↔
      2 ≤ config.configArray.length := by
  rw [PropertyState.writeFrame]
  rcases config.configArray with _ | ⟨integers, _ | ⟨floats, _⟩⟩
  · exact iff_of_false (fun ⟨_, h⟩ => by cases h) (by simp)
  · exact iff_of_false (fun ⟨_, h⟩ => by cases h) (by simp)
  · exact iff_of_true ⟨_, rfl⟩ (by simp)

/-- Storing a frame adds that frame. -/
theorem Constructing.addsFrames_writeFrame (h : Constructing env.clock s) {dtc : String}
    (hframe : PropertyState.writeFrame env prop config s dtc = .ok t) :
    AddsFrames env.clock prop s t := by
  obtain ⟨integers, -, hframe⟩ := bind_eq_ok_iff.mp hframe
  obtain ⟨floats, -, hframe⟩ := bind_eq_ok_iff.mp hframe
  cases hframe
  exact ⟨h.writeNow _ true .onValueChange, registration_writeNow true .onValueChange,
    fun propId hne => funext (h.stored_writeNow_of_ne hne true .onValueChange), rfl⟩

/-- Storing frames adds these frames. -/
theorem Constructing.addsFrames_foldlM (h : Constructing env.clock s) {dtcs : List String}
    (hframes : dtcs.foldlM (PropertyState.writeFrame env prop config) s = .ok t) :
    AddsFrames env.clock prop s t := by
  induction dtcs generalizing s with
  | nil =>
      cases hframes
      exact .refl h prop
  | cons dtc dtcs ih =>
      rw [List.foldlM_cons] at hframes
      obtain ⟨u, hu, hframes⟩ := bind_eq_ok_iff.mp hframes
      have hframe := h.addsFrames_writeFrame hu
      exact hframe.trans (ih hframe.constructing hframes)

/-- The frames of a property, if it is configured. -/
theorem Constructing.addsFrames_initFrames (h : Constructing env.clock s)
    {initFrame : VehiclePropConfig → PropertyState → Except Fault PropertyState}
    (hframe : ∀ config t, initFrame config s = .ok t → AddsFrames env.clock prop s t)
    (hinit : s.initFrames prop initFrame = .ok t) : AddsFrames env.clock prop s t := by
  rw [PropertyState.initFrames] at hinit
  split at hinit
  · next config _ => exact hframe config t hinit
  · cases hinit
    exact .refl h prop

/-- The frames of a configured property need the numbers of sensors in its config. -/
theorem exists_initFrames_iff
    {initFrame : VehiclePropConfig → PropertyState → Except Fault PropertyState}
    (hframe : ∀ config, (∃ t, initFrame config s = .ok t) ↔ 2 ≤ config.configArray.length) :
    (∃ t, s.initFrames prop initFrame = .ok t) ↔ ∀ config tokenFunction,
      s.mServerSidePropStore.registration prop = some (config, tokenFunction) →
        2 ≤ config.configArray.length := by
  rw [PropertyState.initFrames, VehiclePropertyStore.getPropConfig,
    VehiclePropertyStore.registration]
  cases s.mServerSidePropStore.getRecordLocked prop with
  | none => exact iff_of_true ⟨s, rfl⟩ fun _ _ h => by cases h
  | some record =>
      refine (hframe record.propConfig).trans ⟨fun hlength _ _ h => ?_, fun h => h _ _ rfl⟩
      obtain ⟨rfl, -⟩ := Prod.mk.inj (Option.some.inj h)
      exact hlength

end Frames

section Init

variable {env : Environment} {order : Traversal Int} {s2rS2dConfig : Int}
  {declarations : ConfigDeclarations} {s : HardwareState}

/-- The hardware before the loop over the declarations. -/
def HardwareState.empty : HardwareState := ⟨{ mServerSidePropStore := {} }, {}⟩

/-- An empty state is under construction. -/
theorem constructing_empty : Constructing env.clock HardwareState.empty.properties :=
  ⟨.empty, fun _ _ _ hx => (by cases hx), ⟨rfl, rfl⟩, rfl, rfl⟩

/-- An empty state knows nothing of any property. -/
theorem view_empty (propId : Int) : HardwareState.empty.view propId = {} := by
  ext1
  case dependents => exact ite_self _
  all_goals rfl

/-- After the loop over the declarations. -/
theorem initProperties_spec
    (h : HardwareState.initProperties env order s2rS2dConfig declarations .empty = .ok s) :
    Constructing env.clock s.properties ∧
      (∀ propId, declarations.byPropId.lookup propId = none → s.view propId = {}) ∧
      ∀ propId d, declarations.byPropId.lookup propId = some d →
        (∃ config, d.registeredConfig s2rS2dConfig = .ok config ∧
          (s.view propId).registration = some (config, tokenFunctionOf propId)) ∧
        (¬IsDiagnostic propId → Declares s2rS2dConfig d (s.view propId)) := by
  have hkey {e : Int × ConfigDeclaration} (he : e ∈ order.entries declarations.byPropId) :
      e.2.config.prop = e.1 :=
    declarations.keyed e.1 e.2 ((order.mem_entries _ e.1 e.2).mp he)
  obtain ⟨hs, hothers, howns⟩ := foldlM_keyed (O := HardwareState.view)
    (P := fun s => Constructing env.clock s.properties)
    (fun e he s t hs hstep => (initProperty_spec hstep hs (hkey he)).1)
    (fun e he s t k hs hstep => (initProperty_spec hstep hs (hkey he)).2.1 k)
    (order.nodup_map_fst_entries _) constructing_empty h
  refine ⟨hs, fun propId hnone => ?_, fun propId d hd => ?_⟩
  · rw [hothers propId fun hmem => (order.mem_map_fst_entries _ _).mp hmem hnone, view_empty]
  · have hmem := (order.mem_entries _ propId d).mpr hd
    obtain ⟨u, w, hu, hfresh, hstep, hend⟩ := howns _ hmem
    rw [hend]
    obtain ⟨-, -, hregistration, hdeclares⟩ := initProperty_spec hstep hu (hkey hmem)
    exact ⟨hregistration, fun hp => hdeclares hp (hfresh.trans (view_empty propId))⟩

/-- The frames are made up after the loop: other properties do not see it. -/
theorem init_spec (h : HardwareState.init env order s2rS2dConfig declarations = .ok s) :
    (∃ u, HardwareState.initProperties env order s2rS2dConfig declarations .empty = .ok u ∧
      ∀ propId, ¬IsDiagnostic propId → s.view propId = u.view propId) ∧
      Running env.clock s.properties s.properties ∧ s.properties.emitted = [] := by
  obtain ⟨u, hloop, h⟩ := bind_eq_ok_iff.mp h
  obtain ⟨live, hlive, h⟩ := bind_eq_ok_iff.mp h
  obtain ⟨frozen, hfrozen, h⟩ := bind_eq_ok_iff.mp h
  cases h
  have hu := (initProperties_spec hloop).1
  have hlives := hu.addsFrames_initFrames (fun _ _ => hu.addsFrames_writeFrame) hlive
  have hfreezes := hlives.constructing.addsFrames_initFrames
    (fun _ _ => hlives.constructing.addsFrames_foldlM) hfrozen
  have hend := hfreezes.constructing
  refine ⟨⟨u, hloop, fun propId hp => ?_⟩, ?_, hend.emitted⟩
  · ext1
    · exact (hfreezes.registration propId).trans (hlives.registration propId)
    · exact (hfreezes.others propId fun h => hp (Or.inr (Or.inl h))).trans
        (hlives.others propId fun h => hp (Or.inl h))
    · exact congrArg (if propId = hvacPowerOnId then · else ∅)
        (hfreezes.dependents.trans hlives.dependents)
    all_goals rfl
  · exact running_start (.setOnValuesChangeCallback hend.reached) hend.timely rfl
      (hend.userHal ▸ .start)

/-- The hardware knows nothing of a property that is not declared. -/
theorem view_of_undeclared
    (h : HardwareState.init env order s2rS2dConfig declarations = .ok s) {propId : Int}
    (hp : ¬IsDiagnostic propId) (hnone : declarations.byPropId.lookup propId = none) :
    s.view propId = {} := by
  obtain ⟨⟨u, hloop, hview⟩, -⟩ := init_spec h
  rw [hview propId hp]
  exact (initProperties_spec hloop).2.1 propId hnone

/-- The hardware holds what a declaration declares. -/
theorem declares_of_declared
    (h : HardwareState.init env order s2rS2dConfig declarations = .ok s) {propId : Int}
    {d : ConfigDeclaration} (hp : ¬IsDiagnostic propId)
    (hd : declarations.byPropId.lookup propId = some d) :
    Declares s2rS2dConfig d (s.view propId) := by
  obtain ⟨⟨u, hloop, hview⟩, -⟩ := init_spec h
  rw [hview propId hp]
  exact ((initProperties_spec hloop).2.2 propId d hd).2 hp

/-- The hardware as it is declared, before the first call. -/
structure Constructed (clock : Nat → Int) (s2rS2dConfig : Int) (declarations : ConfigDeclarations)
    (s : HardwareState) : Prop where
  undeclared : ∀ propId, ¬IsDiagnostic propId → declarations.byPropId.lookup propId = none →
    s.view propId = {}
  declared : ∀ propId d, ¬IsDiagnostic propId → declarations.byPropId.lookup propId = some d →
    Declares s2rS2dConfig d (s.view propId)
  running : Running clock s.properties s.properties
  silent : s.properties.emitted = []

/-- Whatever the order of the declarations, the constructed hardware has exactly what they say. -/
theorem constructed_of_init
    (h : HardwareState.init env order s2rS2dConfig declarations = .ok s) :
    Constructed env.clock s2rS2dConfig declarations s := by
  obtain ⟨-, hrunning, hsilent⟩ := init_spec h
  exact ⟨fun _ hp hnone => view_of_undeclared h hp hnone,
    fun _ _ hp hd => declares_of_declared h hp hd, hrunning, hsilent⟩

/-- The speed of the fan in two rows, of which one has a value from the start. -/
def fanSpeeds : ConfigDeclaration where
  config := {
    prop := hvacFanSpeedId
    areaConfigs := [{ areaId := 1, minInt32Value := 1, maxInt32Value := 7 }, { areaId := 4 }] }
  areas := [
    { areaId := 1, minInt32Value := 1, maxInt32Value := 7
      hasSupportedValueInfo := some ⟨true, true, false⟩ },
    { areaId := 4 }]
  initialAreaValues := Finmap.singleton 1 { int32Values := [3] }

/-- A value of the fan speed in an area. -/
def fanSpeed (areaId speed : Int) : VehiclePropValue :=
  { prop := hvacFanSpeedId, areaId, value := { int32Values := [speed] } }

/-- Declarations of the fan speed alone. -/
def fanDeclarations : ConfigDeclarations where
  byPropId := Finmap.singleton hvacFanSpeedId fanSpeeds
  keyed propId declaration h := by
    by_cases hprop : propId = hvacFanSpeedId
    · subst hprop
      rw [Finmap.lookup_singleton_eq, Option.some.injEq] at h
      rw [← h]
      rfl
    · rw [Finmap.lookup_eq_none.mpr (by simpa using hprop)] at h
      cases h

/-- The first row has its declared speed and bounds, the second one has none. -/
theorem fans_constructed : ∃ s,
    HardwareState.init .still (.ascending Int) 0 fanDeclarations = .ok s ∧
      Constructed (fun _ => 5) 0 fanDeclarations s ∧
      ((s.view hvacFanSpeedId).stored ⟨1, 0⟩).map VehiclePropValue.untimed = some (fanSpeed 1 3) ∧
      ((s.view hvacFanSpeedId).stored ⟨4, 0⟩).map VehiclePropValue.untimed = none ∧
      (s.view hvacFanSpeedId).minValue 1 = some { int32Values := [1] } ∧
      (s.view hvacFanSpeedId).maxValue 1 = some { int32Values := [7] } ∧
      (s.view hvacFanSpeedId).minValue 4 = none := by
  obtain ⟨s, hs⟩ : ∃ s, HardwareState.init .still (.ascending Int) 0 fanDeclarations = .ok s :=
    ⟨_, rfl⟩
  have hconstructed := constructed_of_init hs
  have hfans : Declares 0 fanSpeeds (s.view hvacFanSpeedId) :=
    hconstructed.declared hvacFanSpeedId fanSpeeds (by decide) rfl
  exact ⟨s, hs, hconstructed, hfans.stored 1, hfans.stored 4, hfans.minValue 1, hfans.maxValue 1,
    hfans.minValue 4⟩

/-- A declaration with which the construction goes on. -/
structure ConfigDeclaration.WellFormed (d : ConfigDeclaration) : Prop where
  powerState : d.config.prop = apPowerStateReqId → d.config.configArray ≠ []
  lists : ¬IsDiagnostic d.config.prop → ∀ areaConfig ∈ d.areas,
    areaConfig.hasSupportedValueInfo.any HasSupportedValueInfo.hasSupportedValuesList = true →
      d.ListFits areaConfig
  sensors : d.config.prop = obd2LiveFrameId ∨ d.config.prop = obd2FreezeFrameId →
    2 ≤ d.config.configArray.length

/-- The registered config of a property with frames has the array that is declared. -/
theorem forall_registration_iff {propId : Int} (hframes : propId = obd2LiveFrameId ∨
      propId = obd2FreezeFrameId)
    (h : HardwareState.initProperties env order s2rS2dConfig declarations .empty = .ok s) :
    (∀ config tokenFunction, s.properties.mServerSidePropStore.registration propId =
        some (config, tokenFunction) → 2 ≤ config.configArray.length) ↔
      ∀ d, declarations.byPropId.lookup propId = some d → 2 ≤ d.config.configArray.length := by
  obtain ⟨-, hundeclared, hdeclared⟩ := initProperties_spec h
  cases hd : declarations.byPropId.lookup propId with
  | none =>
      have hnone : s.properties.mServerSidePropStore.registration propId = none :=
        congrArg PropertyView.registration (hundeclared propId hd)
      rw [hnone]
      exact iff_of_true (fun _ _ h => by cases h) fun _ h => by cases h
  | some d =>
      obtain ⟨⟨config, hconfig, hregistration⟩, -⟩ := hdeclared propId d hd
      have hne : d.config.prop ≠ apPowerStateReqId := by
        rw [declarations.keyed propId d hd]
        rcases hframes with rfl | rfl <;> decide
      rw [ConfigDeclaration.registeredConfig, if_neg hne] at hconfig
      obtain rfl := Except.ok.inj hconfig
      change s.properties.mServerSidePropStore.registration propId = _ at hregistration
      rw [hregistration]
      constructor
      · rintro h _ ⟨⟩
        exact h _ _ rfl
      · rintro h _ _ ⟨⟩
        exact h d rfl

/-- The construction is defined if and only if each declaration is well formed, whatever their
order. -/
theorem exists_init_iff :
    (∃ s, HardwareState.init env order s2rS2dConfig declarations = .ok s) ↔
      ∀ propId d, declarations.byPropId.lookup propId = some d → d.WellFormed := by
  have hloop : (∃ s, HardwareState.initProperties env order s2rS2dConfig declarations .empty =
      .ok s) ↔ _ :=
    exists_foldlM_eq_ok_iff (fun e _ s => exists_initProperty_iff s e) .empty
  have hlive (s : PropertyState) : (∃ t, s.initFrames obd2LiveFrameId
      (PropertyState.initObd2LiveFrame env) = .ok t) ↔ _ :=
    exists_initFrames_iff fun _ => exists_writeFrame_iff
  have hfreeze (s : PropertyState) : (∃ t, s.initFrames obd2FreezeFrameId
      (PropertyState.initObd2FreezeFrame env) = .ok t) ↔ _ :=
    exists_initFrames_iff fun _ =>
      (exists_foldlM_eq_ok_iff (fun _ _ _ => exists_writeFrame_iff) s).trans (by simp)
  have hregistration {u : HardwareState} {live : PropertyState}
      (hu : HardwareState.initProperties env order s2rS2dConfig declarations .empty = .ok u)
      (hl : u.properties.initFrames obd2LiveFrameId (PropertyState.initObd2LiveFrame env) =
        .ok live) :
      live.mServerSidePropStore.registration obd2FreezeFrameId =
        u.properties.mServerSidePropStore.registration obd2FreezeFrameId :=
    have hs := (initProperties_spec hu).1
    (hs.addsFrames_initFrames (fun _ _ => hs.addsFrames_writeFrame) hl).registration _
  change (∃ s, (HardwareState.initProperties env order s2rS2dConfig declarations .empty >>= _) =
    .ok s) ↔ _
  simp only [bind_eq_ok_iff]
  constructor
  · rintro ⟨s, u, hu, live, hl, frozen, hf, -⟩ propId d hd
    obtain rfl := declarations.keyed propId d hd
    obtain ⟨hpower, hlists⟩ := hloop.mp ⟨u, hu⟩ _ ((order.mem_entries _ _ d).mpr hd)
    refine ⟨hpower, hlists, fun hframes => ?_⟩
    refine (forall_registration_iff hframes hu).mp ?_ d hd
    rcases hframes with hprop | hprop
    · rw [hprop]
      exact (hlive _).mp ⟨live, hl⟩
    · rw [hprop, ← hregistration hu hl]
      exact (hfreeze _).mp ⟨frozen, hf⟩
  · intro h
    have hsensors {propId : Int} (hframes : propId = obd2LiveFrameId ∨ propId = obd2FreezeFrameId)
        (d : ConfigDeclaration) (hd : declarations.byPropId.lookup propId = some d) :
        2 ≤ d.config.configArray.length :=
      (h propId d hd).sensors (declarations.keyed propId d hd ▸ hframes)
    obtain ⟨u, hu⟩ := hloop.mpr fun e he =>
      have hwell := h e.1 e.2 ((order.mem_entries _ e.1 e.2).mp he)
      ⟨hwell.powerState, hwell.lists⟩
    obtain ⟨live, hl⟩ := (hlive u.properties).mpr
      ((forall_registration_iff (Or.inl rfl) hu).mpr (hsensors (Or.inl rfl)))
    obtain ⟨frozen, hf⟩ := (hfreeze live).mpr (by
      rw [hregistration hu hl]
      exact (forall_registration_iff (Or.inr rfl) hu).mpr (hsensors (Or.inr rfl)))
    exact ⟨_, u, hu, live, hl, frozen, hf, rfl⟩

/-- The speeds that a row of fans supports, as floats. -/
def fanSpeedsFrom (floats : List Binary32) : ConfigDeclaration where
  config := { prop := hvacFanSpeedId, areaConfigs := [{ areaId := 1 }] }
  areas := [{ areaId := 1, hasSupportedValueInfo := some ⟨false, false, true⟩ }]
  supportedValuesForAreaId := Finmap.singleton 1 floats

/-- Declarations of the fan speed alone, with a list of floats in its payload. -/
def listedFans (floats : List Binary32) : ConfigDeclarations where
  byPropId := Finmap.singleton hvacFanSpeedId (fanSpeedsFrom floats)
  keyed propId declaration h := by
    by_cases hprop : propId = hvacFanSpeedId
    · subst hprop
      rw [Finmap.lookup_singleton_eq, Option.some.injEq] at h
      rw [← h]
      rfl
    · rw [Finmap.lookup_eq_none.mpr (by simpa using hprop)] at h
      cases h

/-- A listed speed of 2.5 is one of 2; an infinite one is no speed. -/
theorem fans_listed :
    (∃ s, HardwareState.init .still (.ascending Int) 0
        (listedFans [(Binary32.ofInt 5).div (.ofInt 2)]) = .ok s ∧
      (s.view hvacFanSpeedId).supportedValues 1 = some [{ int32Values := [2] }]) ∧
    ¬∃ s, HardwareState.init .still (.ascending Int) 0 (listedFans [.infinity]) = .ok s := by
  have hwell {floats : List Binary32} {propId : Int} {d : ConfigDeclaration}
      (hd : (listedFans floats).byPropId.lookup propId = some d) : d = fanSpeedsFrom floats := by
    have hprop := (listedFans floats).keyed propId d hd
    by_cases hfans : propId = hvacFanSpeedId
    · rw [hfans] at hd
      exact (Option.some.inj ((Finmap.lookup_singleton_eq ..).symm.trans hd)).symm
    · rw [listedFans, Finmap.lookup_eq_none.mpr (by simpa using hfans)] at hd
      cases hd
  constructor
  · have hfits : (fanSpeedsFrom [(Binary32.ofInt 5).div (.ofInt 2)]).WellFormed := by
      refine ⟨fun h => absurd h (by decide), fun _ areaConfig harea _ floats hfloats x hx => ?_,
        fun h => absurd h (by decide)⟩
      rw [List.mem_singleton.mp harea] at hfloats
      cases hfloats
      rw [List.mem_singleton.mp hx]
      exact ⟨fun _ => by decide, fun h => absurd h (by decide)⟩
    obtain ⟨s, hs⟩ : ∃ s, HardwareState.init .still (.ascending Int) 0
        (listedFans [(Binary32.ofInt 5).div (.ofInt 2)]) = .ok s :=
      exists_init_iff.mpr fun propId d hd => hwell hd ▸ hfits
    have hfans := declares_of_declared hs (by decide : ¬IsDiagnostic hvacFanSpeedId) rfl
    exact ⟨s, hs, (hfans.supportedValues 1).trans (by decide)⟩
  · intro h
    have hfits := (exists_init_iff.mp h hvacFanSpeedId (fanSpeedsFrom [.infinity]) rfl).lists
      (by decide) _ (List.mem_singleton_self _) rfl _ rfl .infinity (List.mem_singleton_self _)
    exact absurd (hfits.1 (by decide)).2.1 (by decide)

end Init

section SinceInit

variable {env : Environment} {order : Traversal Int} {s2rS2dConfig : Int}
  {declarations : ConfigDeclarations} {hardware : HardwareState} {s : PropertyState}
  {calls : List (VehiclePropValue × Except SetValueError Unit)} {p : PropIdAreaId}
  {d : ConfigDeclaration}

/-- A register is no diagnostic property. -/
theorem IsRegister.not_diagnostic {propId : Int} (h : IsRegister propId) :
    ¬IsDiagnostic propId := by
  rintro (rfl | rfl | rfl | rfl) <;> exact absurd h.zone (by decide)

/-- The properties that depend on the power are the declared ones. -/
theorem dependents_of_init
    (hinit : HardwareState.init env order s2rS2dConfig declarations = .ok hardware)
    (hdependents : ∀ d, declarations.byPropId.lookup hvacPowerOnId = some d →
      ∀ q ∈ d.config.configArray, isGlobalProp q = false) :
    ∀ q ∈ hardware.properties.hvacPowerDependentProps, isGlobalProp q = false := by
  have hpower : ¬IsDiagnostic hvacPowerOnId := by decide
  intro q hq
  change q ∈ (hardware.view hvacPowerOnId).dependents at hq
  cases hdeclared : declarations.byPropId.lookup hvacPowerOnId with
  | none =>
      rw [view_of_undeclared hinit hpower hdeclared] at hq
      cases hq
  | some e =>
      rw [(declares_of_declared hinit hpower hdeclared).dependents,
        if_pos (declarations.keyed _ e hdeclared), List.mem_toFinset] at hq
      exact hdependents e hdeclared q hq

/-- A declared property is registered. -/
theorem isRegistered_of_declared
    (hinit : HardwareState.init env order s2rS2dConfig declarations = .ok hardware)
    (hp : ¬IsDiagnostic p.propId) (hd : declarations.byPropId.lookup p.propId = some d) :
    hardware.properties.mServerSidePropStore.IsRegistered p.propId := by
  obtain ⟨record, hrecord, -⟩ :=
    Option.map_eq_some_iff.mp (declares_of_declared hinit hp hd).registration
  exact Option.isSome_iff_exists.mpr ⟨record, hrecord⟩

/-- From the construction on, a property with areas has in each of them the payload that was
accepted last, or else the declared one. -/
theorem getValue_since_init
    (hinit : HardwareState.init env order s2rS2dConfig declarations = .ok hardware)
    (hdependents : ∀ d, declarations.byPropId.lookup hvacPowerOnId = some d →
      ∀ q ∈ d.config.configArray, isGlobalProp q = false)
    (hp : IsRegister p.propId) (hd : declarations.byPropId.lookup p.propId = some d)
    (hrun : Path (SetAttempt env.clock) hardware.properties calls s) (context : GetContext)
    (request : VehiclePropValue) (hrequest : request.propIdAreaId = p) :
    (s.getValue context request).map (Except.map fun value => (value.propIdAreaId, value.value)) =
      .ok (if s.isHvacPropAndHvacNotAvailable context.env p.propId p.areaId then
        .error .hvacNotAvailable
      else (((calls.filterMap (acceptedPayload p)).getLast?).or
        ((d.declaredValue p.areaId).map VehiclePropValue.value)).elim (.error .notSet)
          fun payload => .ok (p, payload)) := by
  have hdeclares := declares_of_declared hinit hp.not_diagnostic hd
  have hpayload : hardware.properties.payloadAt p =
      (d.declaredValue p.areaId).map VehiclePropValue.value := by
    rw [← hdeclares.stored, Option.map_map]
    rfl
  obtain ⟨hrunning, hlast⟩ := payload_of_run (init_spec hinit).2.1
    (dependents_of_init hinit hdependents) hp hrun
  rw [getValue_of_running hrunning hp (isRegistered_of_declared hinit hp.not_diagnostic hd)
    context hrequest, hlast, hpayload]

/-- The speed of the row that has none at first is set, the declared one of the other row stays. -/
theorem fans_read_since_init : ∃ hardware s,
    HardwareState.init .still (.ascending Int) 0 fanDeclarations = .ok hardware ∧
    Path (SetAttempt fun _ => 5) hardware.properties [(fanSpeed 4 6, .ok ())] s ∧ ∀ context,
      (s.getValue context (fanSpeed 1 0)).map
          (Except.map fun value => (value.propIdAreaId, value.value)) =
        .ok (if s.isHvacPropAndHvacNotAvailable context.env hvacFanSpeedId 1 then
          .error .hvacNotAvailable
        else .ok (⟨hvacFanSpeedId, 1⟩, { int32Values := [3] })) := by
  obtain ⟨hardware, s, hinit, hset⟩ : ∃ hardware s,
      HardwareState.init .still (.ascending Int) 0 fanDeclarations = .ok hardware ∧
        hardware.properties.setValue .still (fanSpeed 4 6) = .ok (.ok (), s) :=
    ⟨_, _, rfl, rfl⟩
  have hrun : Path (SetAttempt fun _ => 5) hardware.properties [(fanSpeed 4 6, .ok ())] s :=
    .single ⟨.still, rfl, hset⟩
  have hdependents : ∀ d, fanDeclarations.byPropId.lookup hvacPowerOnId = some d →
      ∀ q ∈ d.config.configArray, isGlobalProp q = false := by
    intro d hd
    cases hd
  have hp : IsRegister (⟨hvacFanSpeedId, 1⟩ : PropIdAreaId).propId :=
    ⟨by decide, by decide, by decide⟩
  have hd : fanDeclarations.byPropId.lookup (⟨hvacFanSpeedId, 1⟩ : PropIdAreaId).propId =
      some fanSpeeds := rfl
  exact ⟨hardware, s, hinit, hrun, fun context =>
    getValue_since_init hinit hdependents hp hd hrun context _ rfl⟩

end SinceInit

end VhalCore.FakeHardware
