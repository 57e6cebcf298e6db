import VhalCore.Core.Collects
import VhalCore.Models.Config.Interpretation.ConfigDocument

/-!
# Loading the areas of a property

Every part of the loader collects an error exactly where what it reads is not well formed, and
yields what is declared there otherwise. This holds of the fields, of the payloads, of the areas
one by one and of all areas of a property.
-/

namespace VhalCore.JsonConfigLoader

open ProtoMsgConverter

variable {Value T : Type} {env : Environment Value}

section Fields

variable {parse : String → Value → Except (ConfigError Value) T} {read : Value → Option T}

/-- A constant is read exactly where its type has it. -/
theorem parseConstantValue_toOption (env : Environment Value) (type valueName : CharString) :
    (parseConstantValue env type valueName).toOption =
      (env.constantParsersByType type).bind fun parser => parser valueName := by
  rw [parseConstantValue]
  cases hparser : env.constantParsersByType type with
  | none => rfl
  | some parser =>
      simp only [Option.bind_some]
      cases parser valueName <;> rfl

/-- A value is parsed as it is read. -/
theorem parseValue_toOption (env : Environment Value) (type : FieldType Value T)
    (fieldName : String) (value : Value) :
    (parseValue env type fieldName value).toOption = valueOf env type value := by
  have hconvert : (convertValueToType type fieldName value).toOption = type.convert value := by
    rw [convertValueToType]
    cases type.convert value <;> rfl
  rw [parseValue, valueOf]
  cases type.ofConstant with
  | none => exact hconvert
  | some ofConstant =>
      cases env.toText value with
      | none => exact hconvert
      | some text =>
          simp only [maybeGetTypeAndValueName, constantOf]
          rcases splitAtDelimiter text with _ | ⟨typeName, valueName⟩
          · rfl
          · have hconstant := parseConstantValue_toOption env typeName valueName
            simp only [Option.bind_some]
            by_cases hunknown : typeName ≠ chars "Constants" ∧
                env.constantParsersByType typeName = none
            · rw [if_pos hunknown, hunknown.2]
              rfl
            · rw [if_neg hunknown]
              simp only
              rw [← hconstant]
              cases parseConstantValue env typeName valueName <;> rfl

/-- Without their errors, the outcomes of a map are a map without errors. -/
theorem mapM_toOption {ε α β : Type} (f : α → Except ε β) (items : List α) :
    (items.mapM f).toOption = items.mapM fun item => (f item).toOption := by
  induction items with
  | nil => rfl
  | cons item items ih =>
      rw [List.mapM_cons, List.mapM_cons, ← ih]
      cases f item with
      | error e => rfl
      | ok b => cases items.mapM f <;> rfl

/-- An array is read as what it denotes. -/
theorem parseArray_toOption (type : FieldType Value T) (fieldName : String) (value : Value) :
    (parseArray env type fieldName value).toOption = arrayOf env type value := by
  rw [parseArray, arrayOf]
  cases env.elements value with
  | none => rfl
  | some elements =>
      simp only [Option.bind_some]
      rw [mapM_toOption]
      simp only [parseValue_toOption]

theorem eq_error_of_toOption {ε α : Type} {m : Except ε α} (h : m.toOption = none) :
    ∃ e, m = .error e := by
  cases m with
  | error e => exact ⟨e, rfl⟩
  | ok a => cases h

theorem eq_ok_of_toOption {ε α : Type} {m : Except ε α} {a : α} (h : m.toOption = some a) :
    m = .ok a := by
  cases m with
  | error e => cases h
  | ok b => rw [Option.some.inj h]

/-- An optional field is collected if it is readable. -/
theorem tryParseJson_collects (env : Environment Value)
    (hparse : ∀ name value, (parse name value).toOption = read value)
    (node : Value) (fieldName : String) (out : T) :
    Collects (tryParseJson env parse node fieldName true out)
      (env.isObject node = true ∧ Readable read (env.member node fieldName))
      ⟨true, (env.member node fieldName).isSome, fieldOr read (env.member node fieldName) out⟩ := by
  unfold tryParseJson
  cases hobject : env.isObject node with
  | false => exact (Collects.report _ _ _).congr (by simp)
  | true =>
      cases hmember : env.member node fieldName with
      | none => exact (Collects.pure _).congr (by simp [Readable])
      | some value =>
          have hvalue := hparse fieldName value
          cases hread : read value with
          | none =>
              obtain ⟨e, he⟩ := eq_error_of_toOption (hvalue.trans hread)
              simp only [he]
              exact (Collects.report _ _ _).congr (by simp [Readable, hread])
          | some result =>
              simp only [eq_ok_of_toOption (hvalue.trans hread)]
              exact ((Collects.pure _).congr (by simp [Readable, hread])).congr_value fun _ => by
                simp [fieldOr, hread]

/-- A required field is collected if it is there and readable. -/
theorem tryParseJson_required_collects
    (hparse : ∀ name value, (parse name value).toOption = read value) (node : Value)
    (fieldName : String) (out : T) :
    Collects (tryParseJson env parse node fieldName false out)
      (env.isObject node = true ∧ ((env.member node fieldName).bind read).isSome = true)
      ⟨true, true, ((env.member node fieldName).bind read).getD out⟩ := by
  unfold tryParseJson
  cases hobject : env.isObject node with
  | false => exact (Collects.report _ _ _).congr (by simp)
  | true =>
      cases hmember : env.member node fieldName with
      | none => exact (Collects.report _ _ _).congr (by simp)
      | some value =>
          have hvalue := hparse fieldName value
          cases hread : read value with
          | none =>
              obtain ⟨e, he⟩ := eq_error_of_toOption (hvalue.trans hread)
              simp only [he]
              exact (Collects.report _ _ _).congr (by simp [hread])
          | some result =>
              simp only [eq_ok_of_toOption (hvalue.trans hread)]
              exact ((Collects.pure _).congr (by simp [hread])).congr_value fun _ => by
                simp [hread]

/-- The last node that is tried. -/
theorem tryParseLast_collects (hparse : ∀ name value, (parse name value).toOption = read value)
    {property : Value} (hproperty : env.isObject property = true) (nodes : List Value)
    (fieldName : String) (out : T) :
    Collects (tryParseJsonInNodes env parse nodes fieldName true out [property])
      (Readable read (env.member property fieldName))
      ⟨true, (env.member property fieldName).isSome,
        fieldOr read (env.member property fieldName) out⟩ := by
  have hend : tryParseJsonInNodes env parse nodes fieldName true out [] =
      pure ⟨true, false, out⟩ := by simp [tryParseJsonInNodes]
  have hfirst := tryParseJson_collects env hparse property fieldName out
  rw [tryParseJsonInNodes]
  refine (hfirst.bind_of_ok (q := True) (fun _ => ?_) fun attempt => ?_).congr
    (by simp [hproperty])
  · cases hmember : env.member property fieldName with
    | none =>
        rw [hend]
        exact Collects.pure _
    | some value => exact Collects.pure _
  · rw [hend]
    exact Appends.ite (Appends.pure _) (Appends.pure _)

/-- A required id. -/
theorem requiredId_collects (env : Environment Value) (node : Value) (fieldName : String) :
    Collects (tryParseJsonValueToVariable env (intType env) node fieldName false 0)
      (env.isObject node = true ∧
        ((env.member node fieldName).bind (valueOf env (intType env))).isSome = true)
      ⟨true, true, ((env.member node fieldName).bind (valueOf env (intType env))).getD 0⟩ :=
  tryParseJson_required_collects (parseValue_toOption env (intType env)) node fieldName 0

/-- A field that may stand in the property, too. -/
theorem tryParseJsonInNodes_collects
    (hparse : ∀ name value, (parse name value).toOption = read value) {property : Value}
    (hproperty : env.isObject property = true) (area : Value) (fieldName : String) (out : T) :
    Collects (tryParseJsonInNodes env parse [area, property] fieldName true out [area, property])
      (env.isObject area = true ∧ Readable read (inherited env property area fieldName))
      ⟨true, (inherited env property area fieldName).isSome,
        fieldOr read (inherited env property area fieldName) out⟩ := by
  have hlast := tryParseLast_collects hparse hproperty [area, property] fieldName out
  have hfirst := tryParseJson_collects env hparse area fieldName out
  rw [tryParseJsonInNodes, inherited]
  cases hmember : env.member area fieldName with
  | none =>
      rw [hmember] at hfirst
      refine (hfirst.bind_of_ok (fun _ => hlast) fun attempt => ?_).congr ?_
      · exact Appends.ite (Appends.pure _) hlast.appends
      · simp [Readable]
  | some value =>
      rw [hmember] at hfirst
      refine (hfirst.bind_of_ok (q := True) (fun _ => ?_) fun attempt => ?_).congr ?_
      · exact Collects.pure _
      · exact Appends.ite (Appends.pure _) hlast.appends
      · simp

/-- A field of an area is taken from the property where the area lacks it. -/
theorem inheritValue_collects {property : Value} (hproperty : env.isObject property = true)
    (type : FieldType Value T) (area : Value) (fieldName : String) (out : T) :
    Collects (inheritValue env type [area, property] fieldName out)
      (env.isObject area = true ∧
        Readable (valueOf env type) (inherited env property area fieldName))
      (fieldOr (valueOf env type) (inherited env property area fieldName) out) :=
  ((tryParseJsonInNodes_collects (parseValue_toOption env type) hproperty area fieldName out).bind
    fun attempt => Collects.pure attempt.out).congr (iff_of_eq (and_true _))

/-- An array of an area is taken from the property where the area lacks it. -/
theorem inheritArray_collects {property : Value} (hproperty : env.isObject property = true)
    (type : FieldType Value T) (area : Value) (fieldName : String) (out : List T) :
    Collects (inheritArray env type [area, property] fieldName out)
      (env.isObject area = true ∧
        Readable (arrayOf env type) (inherited env property area fieldName))
      (fieldOr (arrayOf env type) (inherited env property area fieldName) out) :=
  ((tryParseJsonInNodes_collects (parseArray_toOption type) hproperty area fieldName out).bind
    fun attempt => Collects.pure attempt.out).congr (iff_of_eq (and_true _))

/-- A field of a single value is read as what it denotes, with an error where it denotes nothing. -/
theorem tryParseJsonValueToVariable_collects (env : Environment Value) (type : FieldType Value T)
    (node : Value) (fieldName : String) (out : T) :
    Collects (tryParseJsonValueToVariable env type node fieldName true out)
      (env.isObject node = true ∧ Readable (valueOf env type) (env.member node fieldName))
      ⟨true, (env.member node fieldName).isSome,
        fieldOr (valueOf env type) (env.member node fieldName) out⟩ :=
  tryParseJson_collects env (parseValue_toOption env type) node fieldName out

/-- A field of an array is read as what it denotes, with an error where it denotes nothing. -/
theorem tryParseJsonArrayToVariable_collects (env : Environment Value) (type : FieldType Value T)
    (node : Value) (fieldName : String) (out : List T) :
    Collects (tryParseJsonArrayToVariable env type node fieldName true out)
      (env.isObject node = true ∧ Readable (arrayOf env type) (env.member node fieldName))
      ⟨true, (env.member node fieldName).isSome,
        fieldOr (arrayOf env type) (env.member node fieldName) out⟩ :=
  tryParseJson_collects env (parseArray_toOption type) node fieldName out

/-- A mode is read from its field, or is the default one where the field is absent. -/
theorem parseAccessChangeMode_collects (env : Environment Value) (node : Value)
    (fieldName : String) (property : Option Value) (defaultMode : Option Int32) (out : Int32) :
    Collects (parseAccessChangeMode env node fieldName property defaultMode out)
      (env.isObject node = true ∧
        (modeOf env (env.member node fieldName) defaultMode).isSome = true)
      ((modeOf env (env.member node fieldName) defaultMode).getD out) := by
  unfold parseAccessChangeMode
  cases hobject : env.isObject node with
  | false => exact (Collects.report _ _ _).congr (by simp)
  | true =>
      cases hmember : env.member node fieldName with
      | none =>
          cases defaultMode with
          | none => exact (Collects.report _ _ _).congr (by simp [modeOf])
          | some mode => exact (Collects.pure _).congr (by simp [modeOf])
      | some value =>
          have hvalue := parseValue_toOption env (intType env) fieldName value
          cases hread : valueOf env (intType env) value with
          | none =>
              obtain ⟨e, he⟩ := eq_error_of_toOption (hvalue.trans hread)
              simp only [he]
              exact (Collects.report _ _ _).congr (by simp [modeOf, hread])
          | some result =>
              simp only [eq_ok_of_toOption (hvalue.trans hread)]
              exact ((Collects.pure _).congr (by simp [modeOf, hread])).congr_value fun _ => by
                simp [modeOf, hread]

end Fields

section Payloads

/-- A payload is collected if it is one, and counts as read if it is there. -/
theorem parsePropValues_collects (env : Environment Value) (node : Value) (fieldName : String) :
    Collects (parsePropValues env node fieldName {})
      (env.isObject node = true ∧ ∀ value ∈ env.member node fieldName, IsPropValues env value)
      ((env.member node fieldName).isSome,
        ((env.member node fieldName).map (propValuesOf env)).getD {}) := by
  unfold parsePropValues
  cases hobject : env.isObject node with
  | false => exact (Collects.report _ _ _).congr (by simp)
  | true =>
      cases hmember : env.member node fieldName with
      | none => exact (Collects.pure _).congr (by simp)
      | some value =>
          refine Collects.congr_value (Collects.congr
            (Collects.bind (tryParseJsonArrayToVariable_collects env _ value _ _) fun _ =>
              Collects.bind (tryParseJsonArrayToVariable_collects env _ value _ _) fun _ =>
              Collects.bind (tryParseJsonArrayToVariable_collects env _ value _ _) fun _ =>
              Collects.bind (tryParseJsonValueToVariable_collects env _ value _ _) fun _ =>
              Collects.pure _) ⟨?_, ?_⟩) fun _ => rfl
          · rintro ⟨⟨hvalue, hint32⟩, ⟨-, hfloat⟩, ⟨-, hint64⟩, ⟨-, hstring⟩, -⟩
            refine ⟨rfl, fun value' hvalue' => ?_⟩
            rw [← Option.mem_some_iff.mp hvalue']
            exact ⟨hvalue, hint32, hfloat, hint64, hstring⟩
          · rintro ⟨-, hall⟩
            obtain ⟨hvalue, hint32, hfloat, hint64, hstring⟩ := hall value rfl
            exact ⟨⟨hvalue, hint32⟩, ⟨hvalue, hfloat⟩, ⟨hvalue, hint64⟩, ⟨hvalue, hstring⟩, trivial⟩

/-- What an area says of its supported values is read, or taken from the property. -/
theorem parseHasSupportedValueInfo_collects (env : Environment Value) (property area : Value) :
    Collects (parseHasSupportedValueInfo env area property)
      (∀ value ∈ inherited env property area "hasSupportedValueInfo",
        IsSupportedValueInfo env value)
      ((inherited env property area "hasSupportedValueInfo").map (supportedValueInfoOf env)) := by
  have hnode : (env.member area "hasSupportedValueInfo").or
      (env.member property "hasSupportedValueInfo") =
      inherited env property area "hasSupportedValueInfo" := rfl
  simp only [parseHasSupportedValueInfo, hnode]
  cases hinherited : inherited env property area "hasSupportedValueInfo" with
  | none => exact (Collects.pure _).congr (by simp)
  | some value =>
      refine Collects.congr_value (Collects.congr
        (Collects.bind (tryParseJsonValueToVariable_collects env _ value _ _) fun _ =>
          Collects.bind (tryParseJsonValueToVariable_collects env _ value _ _) fun _ =>
          Collects.bind (tryParseJsonValueToVariable_collects env _ value _ _) fun _ =>
          Collects.pure _) ⟨?_, ?_⟩) fun _ => rfl
      · rintro ⟨⟨hvalue, hminimum⟩, ⟨-, hmaximum⟩, ⟨-, hlist⟩, -⟩ value' hvalue'
        rw [← Option.mem_some_iff.mp hvalue']
        exact ⟨hvalue, hminimum, hmaximum, hlist⟩
      · intro hall
        obtain ⟨hvalue, hminimum, hmaximum, hlist⟩ := hall value rfl
        exact ⟨⟨hvalue, hminimum⟩, ⟨hvalue, hmaximum⟩, ⟨hvalue, hlist⟩, trivial⟩

end Payloads

section Areas

variable {property : Value}

/-- The access of an area has a default, so that it need only be readable. -/
theorem modeOf_isSome_iff (field : Option Value) (mode : Int32) :
    (modeOf env field (some mode)).isSome = true ↔ Readable (valueOf env (intType env)) field := by
  cases field <;> simp [modeOf, Readable]

/-- A readable mode is that of the field, or the default. -/
theorem modeOf_getD (field : Option Value) (mode out : Int32)
    (h : Readable (valueOf env (intType env)) field) :
    (modeOf env field (some mode)).getD out = fieldOr (valueOf env (intType env)) field mode := by
  cases field with
  | none => rfl
  | some value =>
      obtain ⟨result, hresult⟩ := Option.isSome_iff_exists.mp (h value rfl)
      simp [modeOf, fieldOr, hresult]

/-- The fields of an area are collected if each of them is readable. -/
theorem parseAreaConfig_collects (hproperty : env.isObject property = true) (area : Value)
    (access areaId : Int32) :
    Collects (parseAreaConfig env property area access areaId) (IsAreaConfig env property area)
      ({ areaConfigOf env property area access with areaId },
        fieldOr (arrayOf env (floatType env)) (inherited env property area "supportedValues")
          []) := by
  unfold parseAreaConfig
  refine Collects.congr_value (Collects.congr
    (Collects.bind (parseAccessChangeMode_collects env area _ _ _ _) fun _ =>
      Collects.bind (inheritValue_collects hproperty _ area _ _) fun _ =>
      Collects.bind (inheritValue_collects hproperty _ area _ _) fun _ =>
      Collects.bind (inheritValue_collects hproperty _ area _ _) fun _ =>
      Collects.bind (inheritValue_collects hproperty _ area _ _) fun _ =>
      Collects.bind (inheritValue_collects hproperty _ area _ _) fun _ =>
      Collects.bind (inheritValue_collects hproperty _ area _ _) fun _ =>
      Collects.bind (inheritValue_collects hproperty _ area _ _) fun _ =>
      Collects.bind (inheritArray_collects hproperty _ area _ _) fun _ =>
      Collects.bind (inheritArray_collects hproperty _ area _ _) fun _ =>
      Collects.bind (parseHasSupportedValueInfo_collects env property area) fun _ =>
      Collects.pure _) ⟨?_, ?_⟩) fun h => ?_
  · rintro ⟨⟨hobject, haccess⟩, ⟨-, hmin32⟩, ⟨-, hmax32⟩, ⟨-, hmin64⟩, ⟨-, hmax64⟩, ⟨-, hminf⟩,
      ⟨-, hmaxf⟩, ⟨-, hrate⟩, ⟨-, henum⟩, ⟨-, hvalues⟩, hinfo, -⟩
    exact ⟨hobject, (modeOf_isSome_iff _ _).mp haccess, hmin32, hmax32, hmin64, hmax64, hminf,
      hmaxf, hrate, henum, hvalues, hinfo⟩
  · rintro ⟨hobject, haccess, hmin32, hmax32, hmin64, hmax64, hminf, hmaxf, hrate, henum, hvalues,
      hinfo⟩
    exact ⟨⟨hobject, (modeOf_isSome_iff _ _).mpr haccess⟩, ⟨hobject, hmin32⟩, ⟨hobject, hmax32⟩,
      ⟨hobject, hmin64⟩, ⟨hobject, hmax64⟩, ⟨hobject, hminf⟩, ⟨hobject, hmaxf⟩, ⟨hobject, hrate⟩,
      ⟨hobject, henum⟩, ⟨hobject, hvalues⟩, hinfo, trivial⟩
  · rw [modeOf_getD _ _ _ h.access]
    rfl

/-- A declaration after one more area. -/
def withArea (env : Environment Value) (property : Value) (config : ConfigDeclaration)
    (area : Value) : ConfigDeclaration :=
  let areaId := (areaIdOf env area).getD 0
  { config with
    config := { config.config with
      areaConfigs := config.config.areaConfigs ++
        [areaConfigOf env property area config.config.access] }
    initialAreaValues :=
      match initialValueOf env area config.initialValue with
      | none => config.initialAreaValues
      | some value => config.initialAreaValues.insert areaId value
    supportedValuesForAreaId :=
      match supportedValuesOf env property area with
      | none => config.supportedValuesForAreaId
      | some values => config.supportedValuesForAreaId.insert areaId values }

/-- An area is collected if it is one, and is added to the declaration. -/
theorem parseArea_collects (hproperty : env.isObject property = true)
    (config : ConfigDeclaration) (area : Value) :
    Collects (parseArea env property config area) (IsAreaEntry env property area)
      (withArea env property config area) := by
  have hread (areaId : Int32) :=
    (parseAreaConfig_collects hproperty area config.config.access areaId).bind fun result =>
      (parsePropValues_collects env area "defaultValue").bind fun areaValue =>
        Collects.pure ({ config with
          config := { config.config with areaConfigs := config.config.areaConfigs ++ [result.1] }
          supportedValuesForAreaId :=
            if result.2.isEmpty then config.supportedValuesForAreaId
            else config.supportedValuesForAreaId.insert areaId result.2
          initialAreaValues :=
            if areaValue.1 then config.initialAreaValues.insert areaId areaValue.2
            else if config.initialValue ≠ {} then
              config.initialAreaValues.insert areaId config.initialValue
            else config.initialAreaValues } : ConfigDeclaration)
  have hid := requiredId_collects env area "areaId"
  unfold parseArea
  refine Collects.congr_value (Collects.congr (hid.bind_of_ok (fun _ => hread _)
    fun attempt => Appends.ite (Appends.pure _) (hread attempt.out).appends) ⟨?_, ?_⟩) fun h => ?_
  · rintro ⟨⟨-, hareaId⟩, hconfig, ⟨-, hvalue⟩, -⟩
    exact ⟨hconfig, hareaId, hvalue⟩
  · rintro ⟨hconfig, hareaId, hvalue⟩
    exact ⟨⟨hconfig.isObject, hareaId⟩, hconfig, ⟨hconfig.isObject, hvalue⟩, trivial⟩
  · unfold withArea initialValueOf supportedValuesOf nonEmpty
    congr 1
    · cases env.member area "defaultValue" with
      | none =>
          simp only [Option.isSome_none, Bool.false_eq_true, if_false]
          split_ifs <;> rfl
      | some value => rfl
    · dsimp only
      split_ifs <;> rfl

/-- The areas of a property are collected one after the other. -/
theorem parseAreas_collects (hproperty : env.isObject property = true)
    (config : ConfigDeclaration) :
    Collects (parseAreas env property "areas" config)
      (∀ value ∈ env.member property "areas",
        ∃ areas, env.elements value = some areas ∧ ∀ area ∈ areas, IsAreaEntry env property area)
      ((areasOf env property).foldl (withArea env property) config) := by
  unfold parseAreas areasOf
  rw [hproperty]
  cases hmember : env.member property "areas" with
  | none => exact (Collects.pure _).congr (by simp)
  | some value =>
      cases helements : env.elements value with
      | none =>
          simp only [helements]
          exact (Collects.report _ _ _).congr (by simp [helements])
      | some areas =>
          simp only [helements, Option.bind_some, Option.getD_some]
          refine (Collects.foldlM (parseArea_collects hproperty) areas config).congr ?_
          simp [helements]

/-- What the areas add. -/
theorem foldl_withArea (env : Environment Value) (property : Value) (areas : List Value)
    (config : ConfigDeclaration) :
    let after := areas.foldl (withArea env property) config
    after.config = { config.config with
      areaConfigs := config.config.areaConfigs ++
        areas.map (areaConfigOf env property · config.config.access) } ∧
    after.initialValue = config.initialValue := by
  induction areas generalizing config with
  | nil => simp
  | cons area areas ih =>
      obtain ⟨hconfig, hinitial⟩ := ih (withArea env property config area)
      refine ⟨?_, hinitial⟩
      rw [List.foldl_cons, hconfig]
      simp [withArea]

/-- What the areas leave of a map that some of them add to, the last of them first. -/
theorem lookup_foldl_withArea (of : ConfigDeclaration → UnorderedMap Int32 T)
    (added : Value → Option T) (areas : List Value) (config : ConfigDeclaration)
    (hareas : ∀ area ∈ areas, (areaIdOf env area).isSome = true)
    (hadd : ∀ area before, before.initialValue = config.initialValue →
      of (withArea env property before area) = match added area with
        | none => of before
        | some value => (of before).insert ((areaIdOf env area).getD 0) value) (areaId : Int32) :
    (of (areas.foldl (withArea env property) config)).lookup areaId =
      (areas.reverse.findSome? fun area =>
        if areaIdOf env area = some areaId then added area else none).or
          ((of config).lookup areaId) := by
  induction areas using List.reverseRecOn with
  | nil => simp
  | append_singleton areas area ih =>
      have hfront := ih fun area' harea' => hareas area' (by simp [harea'])
      obtain ⟨id, hid⟩ := Option.isSome_iff_exists.mp (hareas area (by simp))
      rw [List.foldl_append, List.foldl_cons, List.foldl_nil,
        hadd area _ (foldl_withArea env property areas config).2, List.reverse_append,
        List.reverse_singleton, List.singleton_append, List.findSome?_cons, hid]
      cases hadded : added area with
      | none => simpa using hfront
      | some value =>
          simp only [Option.getD_some, UnorderedMap.lookup_insert_eq, Option.some.injEq]
          by_cases heq : id = areaId
          · simp [heq]
          · simpa [heq, Ne.symm heq] using hfront

end Areas

end VhalCore.JsonConfigLoader
