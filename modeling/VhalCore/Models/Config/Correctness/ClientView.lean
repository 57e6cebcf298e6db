import VhalCore.Core.Yields
import VhalCore.Models.Config.Native.JsonConfigLoader
import VhalCore.Models.Proto.Correctness.RoundTrip

/-!
# A client sees the loaded configs

A message does not tell an empty list of enum values from none. The loader never yields
an empty list, at neither of the two places where the list may stand, so every config it
yields survives the conversion to a message and back.
-/

namespace VhalCore.JsonConfigLoader

open ProtoMsgConverter

variable {Value : Type} (env : Environment Value)

/-- No area config holds an empty list of enum values. -/
def NoEmptyEnumValues (configDecl : ConfigDeclaration) : Prop :=
  ∀ areaConfig ∈ configDecl.config.areaConfigs, areaConfig.supportedEnumValues ≠ some []

theorem nonEmpty_ne {T : Type} (values : List T) : nonEmpty values ≠ some [] := by
  cases values with
  | nil => exact Option.some_ne_none _ ∘ Eq.symm
  | cons x xs => simp [nonEmpty]

/-- The list of an area is set only if it has an element, wherever it was read. -/
theorem parseAreaConfig_yields (parentJsonNode jsonAreaConfig : Value) (access areaId : Int32) :
    Yields (parseAreaConfig env parentJsonNode jsonAreaConfig access areaId)
      fun result => result.1.supportedEnumValues ≠ some [] := by
  unfold parseAreaConfig
  iterate 11
    apply Yields.bind_any
    intro _
  apply Yields.pure
  exact nonEmpty_ne _

/-- A turn of the loop over the areas adds no empty list. -/
theorem parseArea_yields (parentJsonNode : Value) (config : ConfigDeclaration)
    (jsonAreaConfig : Value) (h : NoEmptyEnumValues config) :
    Yields (parseArea env parentJsonNode config jsonAreaConfig) NoEmptyEnumValues := by
  unfold parseArea
  apply Yields.bind_any
  intro areaId
  apply Yields.ite (Yields.pure h)
  apply Yields.bind (parseAreaConfig_yields env parentJsonNode jsonAreaConfig _ _)
  rintro ⟨areaConfig, supportedValues⟩ hareaConfig
  apply Yields.bind_any
  rintro ⟨parsed, areaValue⟩
  apply Yields.pure
  intro other hmem
  rcases List.mem_append.mp hmem with hold | hnew
  · exact h other hold
  · rw [List.mem_singleton.mp hnew]
    exact hareaConfig

/-- Loading areas adds no empty list of supported enumerators. -/
theorem parseAreas_yields (parentJsonNode : Value) (fieldName : String) (config : ConfigDeclaration)
    (h : NoEmptyEnumValues config) :
    Yields (parseAreas env parentJsonNode fieldName config) NoEmptyEnumValues := by
  unfold parseAreas
  apply Yields.ite
  · apply Yields.bind_any
    intro _
    exact Yields.pure h
  · cases env.member parentJsonNode fieldName with
    | none => exact Yields.pure h
    | some value =>
        cases henv : env.elements value with
        | none =>
            simp only [henv]
            apply Yields.bind_any
            intro _
            exact Yields.pure h
        | some areas =>
            simp only [henv]
            exact Yields.foldlM (fun config area => parseArea_yields env parentJsonNode config area)
              areas h

/-- Before its areas are read a config has none. -/
theorem parseProperty_yields (propJsonValue : Value) (propId : Int32) :
    Yields (parseProperty env propJsonValue propId) NoEmptyEnumValues := by
  unfold parseProperty
  iterate 7
    apply Yields.bind_any
    intro _
  apply Yields.pure
  intro areaConfig hmem
  cases hmem

/-- The area added to a global property has no empty list of supported enumerators. -/
theorem addGlobalAreaConfig_noEmptyEnumValues (configDecl : ConfigDeclaration)
    (h : NoEmptyEnumValues configDecl) : NoEmptyEnumValues (addGlobalAreaConfig configDecl) := by
  unfold addGlobalAreaConfig
  by_cases hsize : configDecl.config.areaConfigs.length = 0
  · rw [if_pos hsize]
    intro areaConfig hmem
    rw [List.mem_singleton.mp hmem]
    exact (Option.some_ne_none _).symm
  · rwa [if_neg hsize]

/-- Loading a property adds no empty list of supported enumerators. -/
theorem parseEachProperty_yields (propJsonValue : Value) :
    Yields (parseEachProperty env propJsonValue)
      fun result => ∀ configDecl, result = some configDecl → NoEmptyEnumValues configDecl := by
  have hnone : ∀ configDecl : ConfigDeclaration, none = some configDecl →
      NoEmptyEnumValues configDecl := fun _ h => absurd h.symm (Option.some_ne_none _)
  unfold parseEachProperty
  apply Yields.bind_any
  intro errors
  apply Yields.bind_any
  intro propId
  apply Yields.ite (Yields.pure hnone)
  apply Yields.bind (parseProperty_yields env propJsonValue propId.out)
  intro configDecl hconfig
  apply Yields.bind (parseAreas_yields env propJsonValue "areas" configDecl hconfig)
  intro configDecl hareas
  apply Yields.bind_any
  intro errors'
  apply Yields.ite (Yields.pure hnone)
  apply Yields.pure
  intro yielded hyielded
  rw [← Option.some.inj hyielded]
  exact addGlobalAreaConfig_noEmptyEnumValues configDecl hareas

/-- Every config of the map that is being built is free of empty lists. -/
theorem addProperty_yields (configsByPropId : UnorderedMap Int32 ConfigDeclaration)
    (propJsonValue : Value)
    (h : ∀ propId configDecl, configsByPropId.lookup propId = some configDecl →
      NoEmptyEnumValues configDecl) :
    Yields (addProperty env configsByPropId propJsonValue) fun configs =>
      ∀ propId configDecl, configs.lookup propId = some configDecl →
        NoEmptyEnumValues configDecl := by
  unfold addProperty
  apply Yields.bind (parseEachProperty_yields env propJsonValue)
  intro result hresult
  cases result with
  | none => exact Yields.pure h
  | some added =>
      apply Yields.pure
      intro propId configDecl hlookup
      rw [UnorderedMap.lookup_insert_eq] at hlookup
      split at hlookup
      · exact hresult configDecl hlookup
      · exact h propId configDecl hlookup

/-- A document with configs was read without an error. -/
theorem parseJsonConfig_ok {document : Except String Value}
    {configs : UnorderedMap Int32 ConfigDeclaration}
    (h : parseJsonConfig env document = some (.ok configs)) :
    ∃ properties, configs = ((List.foldlM (addProperty env) ∅ properties).run []).1 := by
  cases document with
  | error error => cases h
  | ok root =>
      simp only [parseJsonConfig] at h
      split at h
      · cases h
      · obtain ⟨version, -, h⟩ := Option.map_eq_some_iff.mp h
        split at h
        · cases h
        · unfold parseProperties at h
          cases hproperties : (env.member root "properties").bind env.elements with
          | none =>
              rw [hproperties] at h
              cases h
          | some properties =>
              rw [hproperties] at h
              refine ⟨properties, ?_⟩
              simp only at h
              split at h
              · cases h
              · exact (Except.ok.inj h).symm

/-- Every config that is loaded from a document reaches a client as it was loaded. -/
theorem loaded_config_roundTrip (document : Except String Value)
    (configs : UnorderedMap Int32 ConfigDeclaration)
    (h : parseJsonConfig env document = some (.ok configs)) (propId : Int32)
    (configDecl : ConfigDeclaration) (hlookup : configs.lookup propId = some configDecl) :
    (configDecl.config.aidlToProto {}).protoToAidl {} = configDecl.config := by
  obtain ⟨properties, rfl⟩ := parseJsonConfig_ok env h
  have hloop : Yields (properties.foldlM (addProperty env) ∅)
      fun configs => ∀ propId configDecl, configs.lookup propId = some configDecl →
        NoEmptyEnumValues configDecl := by
    apply Yields.foldlM (addProperty_yields env) properties
    intro propId configDecl hempty
    rw [Finmap.lookup_empty] at hempty
    cases hempty
  rw [vehiclePropConfig_roundTrip_iff]
  exact hloop.run [] propId configDecl hlookup

/-- Documents whose numbers are integers. -/
inductive Json where
  | int (value : Int64)
  | text (value : CharString)
  | array (elements : List Json)
  | object (members : List (String × Json))

/-- An integer in the range of the type. -/
def intInRange (value : Int64) : Option Int32 :=
  if value.toInt32.toInt64 = value then some value.toInt32 else none

/-- The library on documents whose numbers are integers, with no constants and no default
modes. -/
def jsonEnvironment : Environment Json where
  isObject
    | .object _ => true
    | _ => false
  member node name :=
    match node with
    | .object members => (members.find? fun entry => entry.1 = name).map Prod.snd
    | _ => none
  elements
    | .array elements => some elements
    | _ => none
  toBool _ := none
  toInt
    | .int value => intInRange value
    | _ => none
  toFloat
    | .int value => (intInRange value).map floatOfInt
    | _ => none
  toInt64
    | .int value => some value
    | _ => none
  toText
    | .text value => some value
    | _ => none
  asInt
    | .int value => intInRange value
    | _ => none
  constantParsersByType _ := none
  defaultAccessForVehicleProperty _ := none
  changeModeForVehicleProperty _ := none

/-- A property with a list of enum values for its two areas, of which the first has an empty
list of its own. -/
def twoAreaProperty : Json :=
  .object [("properties", .array [.object [("property", .int 291504647), ("access", .int 1),
    ("changeMode", .int 1), ("supportedEnumValues", .array [.int 4, .int 8]),
    ("areas", .array [.object [("areaId", .int 1), ("supportedEnumValues", .array [])],
      .object [("areaId", .int 2)]])]])]

/-- What the document yields. -/
def twoAreaConfig : Aidl.VehiclePropConfig :=
  { prop := 291504647
    access := 1
    changeMode := 1
    areaConfigs := [
      { areaId := 1, access := 1, supportVariableUpdateRate := true },
      { areaId := 2, access := 1, supportVariableUpdateRate := true,
        supportedEnumValues := some [4, 8] }] }

/-- A property with two areas loads and keeps its configuration across the conversions. -/
theorem twoAreaProperty_roundTrip :
    (parseJsonConfig jsonEnvironment (.ok twoAreaProperty) =
      some (.ok (Finmap.singleton 291504647 { config := twoAreaConfig }))) ∧
    (twoAreaConfig.aidlToProto {}).protoToAidl {} = twoAreaConfig := by
  have hload : parseJsonConfig jsonEnvironment (.ok twoAreaProperty) =
      some (.ok (Finmap.singleton 291504647 { config := twoAreaConfig })) := by rfl
  exact ⟨hload, loaded_config_roundTrip jsonEnvironment (.ok twoAreaProperty) _ hload 291504647
    { config := twoAreaConfig } (Finmap.lookup_singleton_eq)⟩

end VhalCore.JsonConfigLoader
