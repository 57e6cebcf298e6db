import VhalCore.Models.Config.Correctness.AreaLoading
import VhalCore.Models.Config.Correctness.ClientView

/-!
# Documents are loaded as a whole or not at all

A document yields the configs of all its entries if it is well formed, and no config at all if it
is not. Of the entries with one id the last one counts.
-/

namespace VhalCore.JsonConfigLoader

open ProtoMsgConverter

variable {Value : Type} {env : Environment Value}

section Properties

variable {property : Value} {propId : Int32}

/-- The declaration of a property before its areas. -/
def declaredProperty (env : Environment Value) (property : Value) (propId : Int32) :
    ConfigDeclaration where
  config := {
    prop := propId
    access := (modeOf env (env.member property "access")
      (env.defaultAccessForVehicleProperty propId)).getD 0
    changeMode := (modeOf env (env.member property "changeMode")
      (env.changeModeForVehicleProperty propId)).getD 0
    configString := fieldOr (valueOf env (stringType env)) (env.member property "configString") []
    configArray := fieldOr (arrayOf env (intType env)) (env.member property "configArray") []
    minSampleRate :=
      fieldOr (valueOf env (floatType env)) (env.member property "minSampleRate") 0
    maxSampleRate :=
      fieldOr (valueOf env (floatType env)) (env.member property "maxSampleRate") 0 }
  initialValue := defaultValueOf env property

/-- What the entry of a property declares. -/
def declarationOf (env : Environment Value) (property : Value) : ConfigDeclaration :=
  addGlobalAreaConfig ((areasOf env property).foldl (withArea env property)
    (declaredProperty env property ((propIdOf env property).getD 0)))

/-- A property is read as the document declares it. -/
theorem parseProperty_collects (hproperty : env.isObject property = true) (propId : Int32) :
    Collects (parseProperty env property propId) (IsPropertyConfig env property propId)
      (declaredProperty env property propId) := by
  unfold parseProperty
  refine Collects.congr_value (Collects.congr
    (Collects.bind (parseAccessChangeMode_collects env property _ _ _ _) fun _ =>
      Collects.bind (parseAccessChangeMode_collects env property _ _ _ _) fun _ =>
      Collects.bind (tryParseJsonValueToVariable_collects env _ property _ _) fun _ =>
      Collects.bind (tryParseJsonArrayToVariable_collects env _ property _ _) fun _ =>
      Collects.bind (parsePropValues_collects env property _) fun _ =>
      Collects.bind (tryParseJsonValueToVariable_collects env _ property _ _) fun _ =>
      Collects.bind (tryParseJsonValueToVariable_collects env _ property _ _) fun _ =>
      Collects.pure _) ⟨?_, ?_⟩) fun _ => rfl
  · rintro ⟨⟨-, haccess⟩, ⟨-, hmode⟩, ⟨-, hstring⟩, ⟨-, harray⟩, ⟨-, hvalue⟩, ⟨-, hmin⟩,
      ⟨-, hmax⟩, -⟩
    exact ⟨hproperty, haccess, hmode, hstring, harray, hvalue, hmin, hmax⟩
  · rintro ⟨-, haccess, hmode, hstring, harray, hvalue, hmin, hmax⟩
    exact ⟨⟨hproperty, haccess⟩, ⟨hproperty, hmode⟩, ⟨hproperty, hstring⟩, ⟨hproperty, harray⟩,
      ⟨hproperty, hvalue⟩, ⟨hproperty, hmin⟩, ⟨hproperty, hmax⟩, trivial⟩

/-- An entry is read before its errors are counted. -/
def readEntry (env : Environment Value) (property : Value) :
    Loading Value (Option ConfigDeclaration) := do
  let propId ← tryParseJsonValueToVariable env (intType env) property "property" false 0
  if !propId.success then return none
  let configDecl ← parseProperty env property propId.out
  let configDecl ← parseAreas env property "areas" configDecl
  return some (addGlobalAreaConfig configDecl)

/-- An entry is read as the document declares it. -/
theorem readEntry_collects (property : Value) :
    Collects (readEntry env property) (IsPropertyEntry env property)
      (some (declarationOf env property)) := by
  unfold readEntry
  cases hobject : env.isObject property with
  | false =>
      simp only [tryParseJsonValueToVariable, tryParseJson, hobject]
      refine (Collects.report _ _ _).congr ⟨False.elim, fun h => ?_⟩
      obtain ⟨_, _, hconfig⟩ := h.config
      simpa [hobject] using hconfig.isObject
  | true =>
      have hrest (propId : Int32) :=
        (parseProperty_collects hobject propId).bind fun configDecl =>
          (parseAreas_collects hobject configDecl).bind fun configDecl =>
            Collects.pure (some (addGlobalAreaConfig configDecl))
      refine Collects.congr ((requiredId_collects env property "property").bind_of_ok
        (fun _ => hrest _)
        fun attempt => Appends.ite (Appends.pure _) (hrest attempt.out).appends) ⟨?_, ?_⟩
      · rintro ⟨⟨-, hid⟩, hconfig, hareas, -⟩
        obtain ⟨propId, hpropId⟩ := Option.isSome_iff_exists.mp hid
        rw [hpropId] at hconfig
        exact ⟨⟨propId, hpropId, hconfig⟩, hareas⟩
      · rintro ⟨⟨propId, hpropId, hconfig⟩, hareas⟩
        rw [propIdOf] at hpropId
        rw [hpropId]
        exact ⟨⟨hobject, rfl⟩, hconfig, hareas, trivial⟩

/-- The config of an entry counts if reading it has appended nothing. -/
theorem parseEachProperty_run (property : Value) (errors : List (ConfigError Value)) :
    (parseEachProperty env property).run errors =
      (if ((readEntry env property).run errors).2.length ≠ errors.length then none
        else ((readEntry env property).run errors).1, ((readEntry env property).run errors).2) := by
  rcases hid : (tryParseJsonValueToVariable env (intType env) property "property" false 0).run
    errors with ⟨⟨_ | _, found, propId⟩, after⟩
  · have hread : (readEntry env property).run errors = (none, after) := by
      rw [readEntry, StateT.run_bind, hid]
      rfl
    have heach : (parseEachProperty env property).run errors = (none, after) := by
      rw [parseEachProperty, StateT.run_bind]
      change (tryParseJsonValueToVariable env (intType env) property "property" false 0 >>= _).run
        errors = _
      rw [StateT.run_bind, hid]
      rfl
    rw [heach, hread, ite_self]
  · obtain ⟨configDecl, next, hareas⟩ : ∃ configDecl next,
        (parseProperty env property propId >>= parseAreas env property "areas").run after =
          (configDecl, next) := ⟨_, _, rfl⟩
    have hread : (readEntry env property).run errors =
        (some (addGlobalAreaConfig configDecl), next) := by
      rw [readEntry, StateT.run_bind, hid]
      change (parseProperty env property propId >>= fun configDecl =>
        parseAreas env property "areas" configDecl >>= _).run after = _
      rw [← bind_assoc, StateT.run_bind, hareas]
      rfl
    have heach : (parseEachProperty env property).run errors =
        (if next.length ≠ errors.length then none else some (addGlobalAreaConfig configDecl),
          next) := by
      rw [parseEachProperty, StateT.run_bind]
      change (tryParseJsonValueToVariable env (intType env) property "property" false 0 >>= _).run
        errors = _
      rw [StateT.run_bind, hid]
      change (parseProperty env property propId >>= fun configDecl =>
        parseAreas env property "areas" configDecl >>= _).run after = _
      rw [← bind_assoc, StateT.run_bind, hareas]
      change (if next.length ≠ errors.length then pure none
        else pure (some (addGlobalAreaConfig configDecl)) :
          Loading Value (Option ConfigDeclaration)).run next = _
      split_ifs <;> rfl
    rw [heach, hread]

/-- An entry is stored as the document declares it. -/
theorem parseEachProperty_collects (property : Value) :
    Collects (parseEachProperty env property) (IsPropertyEntry env property)
      (some (declarationOf env property)) := by
  constructor
  intro errors
  obtain ⟨result, more, hrun, hmore, hresult⟩ := (readEntry_collects property).run errors
  rw [parseEachProperty_run, hrun]
  refine ⟨_, more, rfl, hmore, fun h => ?_⟩
  rw [hmore.mpr h, if_neg (by simp), hresult h]

/-- An entry is added to the configs. -/
theorem addProperty_collects (configs : UnorderedMap Int32 ConfigDeclaration) (property : Value) :
    Collects (addProperty env configs property) (IsPropertyEntry env property)
      (configs.insert (declarationOf env property).config.prop (declarationOf env property)) := by
  unfold addProperty
  refine Collects.congr ((parseEachProperty_collects property).bind_of_ok
    (fun _ => Collects.pure _) fun result => ?_) (iff_of_eq (and_true _))
  cases result with
  | none => exact Appends.pure _
  | some configDecl => exact Appends.pure _

theorem declarationOf_prop (property : Value) :
    (declarationOf env property).config.prop = (propIdOf env property).getD 0 := by
  rw [declarationOf, addGlobalAreaConfig]
  split_ifs <;> rw [(foldl_withArea ..).1] <;> rfl

/-- The areas that an entry lists are areas. -/
theorem IsPropertyEntry.area (h : IsPropertyEntry env property) :
    ∀ area ∈ areasOf env property, IsAreaEntry env property area := by
  intro area harea
  unfold areasOf at harea
  cases hmember : env.member property "areas" with
  | none => simp [hmember] at harea
  | some value =>
      obtain ⟨areas, helements, hall⟩ := h.areas value hmember
      exact hall area (by simpa [hmember, helements] using harea)

/-- The global area is added where there is no other. -/
theorem declarationOf_eq (hpropId : propIdOf env property = some propId) :
    declarationOf env property =
      let base := declaredProperty env property propId
      let after := (areasOf env property).foldl (withArea env property) base
      { after with
        config := { base.config with
          areaConfigs := if areasOf env property = [] then
            [{ areaId := 0, access := base.config.access, supportVariableUpdateRate := true }]
          else (areasOf env property).map (areaConfigOf env property · base.config.access) } } := by
  obtain ⟨hconfig, _⟩ := foldl_withArea env property
    (areasOf env property) (declaredProperty env property propId)
  rw [declarationOf, hpropId, Option.getD_some, addGlobalAreaConfig, hconfig]
  generalize areasOf env property = areas at hconfig ⊢
  cases areas with
  | nil => rfl
  | cons area areas =>
      dsimp only
      rw [if_neg (by simp), if_neg (List.cons_ne_nil _ _)]
      exact congrArg (fun config => { (area :: areas).foldl (withArea env property)
        (declaredProperty env property propId) with config := config }) hconfig

theorem eq_some_getD {mode : Option Int32} (h : mode.isSome = true) :
    mode = some (mode.getD 0) := by
  obtain ⟨value, rfl⟩ := Option.isSome_iff_exists.mp h
  rfl

/-- The declaration of an entry is what the entry says. -/
theorem declarationOf_declares (h : IsPropertyEntry env property) :
    Declares env property (declarationOf env property) := by
  obtain ⟨propId, hpropId, hentry⟩ := h.config
  have hids : ∀ area ∈ areasOf env property, (areaIdOf env area).isSome = true :=
    fun area harea => (h.area area harea).areaId
  have hinitial := (foldl_withArea env property (areasOf env property)
    (declaredProperty env property propId)).2
  have hdefault : (declaredProperty env property propId).initialValue =
      defaultValueOf env property := rfl
  rw [declarationOf_eq hpropId]
  constructor
  case prop => exact hpropId
  case access => exact eq_some_getD hentry.access
  case changeMode => exact eq_some_getD hentry.changeMode
  case configString => rfl
  case configArray => rfl
  case minSampleRate => rfl
  case maxSampleRate => rfl
  case initialValue => exact hinitial
  case areaConfigs => rfl
  case initialAreaValues =>
    intro areaId
    refine (lookup_foldl_withArea ConfigDeclaration.initialAreaValues
      (fun area => initialValueOf env area (defaultValueOf env property)) _ _ hids
      (fun area before hbefore => ?_) areaId).trans (Option.or_none)
    rw [withArea, hbefore, hdefault]
    cases initialValueOf env area (defaultValueOf env property) <;> rfl
  case supportedValuesForAreaId =>
    intro areaId
    refine (lookup_foldl_withArea ConfigDeclaration.supportedValuesForAreaId
      (supportedValuesOf env property) _ _ hids (fun area before _ => ?_) areaId).trans
      Option.or_none
    rw [withArea]
    cases supportedValuesOf env property area <;> rfl

end Properties

section Documents

variable {entries : List Value}

/-- The configs of some entries, one after the other. -/
def declarationsOf (env : Environment Value) (entries : List Value) :
    UnorderedMap Int32 ConfigDeclaration :=
  entries.foldl (fun configs entry =>
    configs.insert (declarationOf env entry).config.prop (declarationOf env entry)) ∅

/-- The last entry of a property counts. -/
theorem lookup_declarationsOf (h : ∀ entry ∈ entries, IsPropertyEntry env entry) (propId : Int32) :
    (declarationsOf env entries).lookup propId =
      (lastEntry env entries propId).map (declarationOf env) := by
  unfold declarationsOf lastEntry
  induction entries using List.reverseRecOn with
  | nil => rfl
  | append_singleton entries entry ih =>
      have hfront := ih fun entry' hentry' => h entry' (by simp [hentry'])
      obtain ⟨id, hid, _⟩ := (h entry (by simp)).config
      rw [List.foldl_append, List.foldl_cons, List.foldl_nil, UnorderedMap.lookup_insert_eq,
        hfront, declarationOf_prop, List.reverse_append, List.reverse_singleton,
        List.singleton_append, List.find?_cons, hid]
      by_cases heq : propId = id
      · simp [heq]
      · simp [heq, Ne.symm heq]

/-- A property never has no area. -/
theorem Declares.areaConfigs_ne_nil {property : Value} {configDecl : ConfigDeclaration}
    (h : Declares env property configDecl) : configDecl.config.areaConfigs ≠ [] := by
  rw [h.areaConfigs]
  split_ifs with hareas
  · exact List.cons_ne_nil _ _
  · simpa using hareas

/-- The declarations are those of the entries. -/
theorem declarationsOf_areConfigsOf (h : ∀ entry ∈ entries, IsPropertyEntry env entry) :
    AreConfigsOf env entries (declarationsOf env entries) := by
  constructor
  case absent =>
    intro propId hlast
    rw [lookup_declarationsOf h, hlast]
    rfl
  case present =>
    intro propId entry hlast
    have hentry : entry ∈ entries := List.mem_reverse.mp (List.mem_of_find?_eq_some hlast)
    have hdeclares := declarationOf_declares (h entry hentry)
    refine ⟨_, ?_, hdeclares, hdeclares.areaConfigs_ne_nil⟩
    rw [lookup_declarationsOf h, hlast]
    rfl

/-- The entries are loaded if all of them can be read. -/
theorem parseProperties_eq {root : Value}
    (h : (env.member root "properties").bind env.elements = some entries) :
    ((∀ entry ∈ entries, IsPropertyEntry env entry) →
      parseProperties env root = .ok (declarationsOf env entries)) ∧
    ((¬∀ entry ∈ entries, IsPropertyEntry env entry) →
      ∃ error, parseProperties env root = .error error) := by
  obtain ⟨configs, errors, hrun, herrors, hconfigs⟩ :=
    (Collects.foldlM addProperty_collects entries ∅).run []
  rw [parseProperties, h]
  dsimp only
  rw [hrun, List.nil_append]
  constructor
  · intro hall
    rw [herrors.mpr hall, hconfigs hall]
    rfl
  · intro hnot
    refine ⟨.fields errors, if_pos ?_⟩
    simpa using mt herrors.mp hnot

/-- A document whose version converts is loaded as a whole if it is well formed, and for every id
there is what the last entry with it says; otherwise there is an error and no config. -/
theorem parseJsonConfig_loads (env : Environment Value) (document : Except String Value)
    (hversion : ∀ root, document = .ok root → env.isObject root = true →
      (apiVersion env root).isSome = true) :
    (∀ entries, IsConfigDocument env document entries →
      ∃ configs, parseJsonConfig env document = some (.ok configs) ∧
        AreConfigsOf env entries configs) ∧
    ((¬∃ entries, IsConfigDocument env document entries) →
      ∃ error, parseJsonConfig env document = some (.error error)) := by
  constructor
  · rintro entries ⟨⟨root, rfl, hobject, ⟨version, hcompatible, hv⟩, hentries⟩, hreadable⟩
    refine ⟨declarationsOf env entries, ?_, declarationsOf_areConfigsOf hreadable⟩
    have hcontains : compatibleApiVersions.contains version = true :=
      List.contains_iff_mem.mpr hcompatible
    simp only [parseJsonConfig, hobject, hv, hcontains, Option.map_some,
      (parseProperties_eq hentries).1 hreadable, Bool.not_true, Bool.false_eq_true, if_false]
  · intro hnot
    cases document with
    | error e => exact ⟨.notJson e, rfl⟩
    | ok root =>
        cases hobject : env.isObject root with
        | false => exact ⟨.rootNotAnObject, by simp [parseJsonConfig, hobject]⟩
        | true =>
            obtain ⟨version, hv⟩ := Option.isSome_iff_exists.mp (hversion root rfl hobject)
            by_cases hcompatible : version ∈ compatibleApiVersions
            · have hcontains : compatibleApiVersions.contains version = true :=
                List.contains_iff_mem.mpr hcompatible
              simp only [parseJsonConfig, hobject, hv, hcontains, Option.map_some, Bool.not_true,
                Bool.false_eq_true, if_false, Option.some.injEq]
              cases hentries : (env.member root "properties").bind env.elements with
              | none => exact ⟨.missingProperties, by rw [parseProperties, hentries]⟩
              | some entries =>
                  refine (parseProperties_eq hentries).2 fun hreadable =>
                    hnot ⟨entries, ?_, hreadable⟩
                  exact ⟨root, rfl, hobject, ⟨version, hcompatible, hv⟩, hentries⟩
            · exact ⟨.notCompatible, by simp [parseJsonConfig, hobject, hv, hcompatible]⟩

end Documents

section Example

/-- A document with a property of two areas loads. -/
theorem twoAreaProperty_loads :
    ∃ entries configs, IsConfigDocument jsonEnvironment (.ok twoAreaProperty) entries ∧
      parseJsonConfig jsonEnvironment (.ok twoAreaProperty) = some (.ok configs) ∧
      AreConfigsOf jsonEnvironment entries configs := by
  have hload : parseJsonConfig jsonEnvironment (.ok twoAreaProperty) =
      some (.ok (Finmap.singleton 291504647 { config := twoAreaConfig })) := by rfl
  obtain ⟨hok, herror⟩ := parseJsonConfig_loads jsonEnvironment (.ok twoAreaProperty)
    fun root hroot _ => by cases hroot; rfl
  by_cases h : ∃ entries, IsConfigDocument jsonEnvironment (.ok twoAreaProperty) entries
  · obtain ⟨entries, hentries⟩ := h
    obtain ⟨configs, hconfigs⟩ := hok entries hentries
    exact ⟨entries, configs, hentries, hconfigs⟩
  · obtain ⟨error, he⟩ := herror h
    cases hload.symm.trans he

/-- A property without areas that has a minimum. -/
def globalProperty (minimum : Json) : Json :=
  .object [("properties", .array [.object [("property", .int 291504647), ("access", .int 1),
    ("changeMode", .int 1), ("minInt32Value", minimum)]])]

/-- What is loaded for it. -/
def globalConfig : Aidl.VehiclePropConfig :=
  { prop := 291504647
    access := 1
    changeMode := 1
    areaConfigs := [{ areaId := 0, access := 1, supportVariableUpdateRate := true }] }

/-- The global area of a property without areas has no minimum, whether the one of the property is
a number or not even one. -/
theorem globalProperty_not_inherited :
    parseJsonConfig jsonEnvironment (.ok (globalProperty (.int 5))) =
      some (.ok (Finmap.singleton 291504647 { config := globalConfig })) ∧
    globalConfig.areaConfigs.map (·.minInt32Value) = [0] ∧
    valueOf jsonEnvironment (intType jsonEnvironment) (.int 5) = some 5 ∧
    parseJsonConfig jsonEnvironment (.ok (globalProperty (.array []))) =
      some (.ok (Finmap.singleton 291504647 { config := globalConfig })) ∧
    valueOf jsonEnvironment (intType jsonEnvironment) (.array []) = none :=
  ⟨rfl, rfl, rfl, rfl, rfl⟩

end Example

end VhalCore.JsonConfigLoader
