import VhalCore.Models.FakeHardware.Correctness.InitialValues
import VhalCore.Models.FakeHardware.Native.DumpCommands

/-!
# What the debug commands do

The options of a property value have a grammar: groups of a name and its texts. The parser accepts
exactly the texts of that grammar, and the order of the groups does not matter.

The supported values of a property in an area are those that a command gave last. A value that a
command saves and another restores makes each property a register with a saved copy, which the
hardware refines in every run of sets, events and commands.
-/

namespace VhalCore.FakeHardware

open PropertyStore VehiclePropertyStore

/-- The name of an option with the texts that are given for it. -/
structure OptionGroup where
  name : String
  texts : List String

/-- The texts of a group on the command line: its option and what follows it. -/
def OptionGroup.render (group : OptionGroup) : List String := group.name :: group.texts

/-- The options of a property value. -/
inductive OptionKind where
  | int32
  | int64
  | float
  | string
  | bytes
  | area
  | timestamp
  deriving DecidableEq

/-- The text of an option on the command line. -/
def OptionKind.name : OptionKind → String
  | .int32 => "-i"
  | .int64 => "-i64"
  | .float => "-f"
  | .string => "-s"
  | .bytes => "-b"
  | .area => "-a"
  | .timestamp => "-t"

/-- What an option gives. The text of an area is read later. -/
inductive OptionValue where
  | int32Values (values : List Int)
  | int64Values (values : List Int)
  | floatValues (values : List Binary32)
  | stringValue (s : String)
  | byteValues (bytes : List UInt8)
  | areaIdStr (s : String)
  | timestamp (time : Int)

/-- The option that a value is given with. -/
def OptionValue.kind : OptionValue → OptionKind
  | .int32Values _ => .int32
  | .int64Values _ => .int64
  | .floatValues _ => .float
  | .stringValue _ => .string
  | .byteValues _ => .bytes
  | .areaIdStr _ => .area
  | .timestamp _ => .timestamp

/-- The texts stand for a value. -/
def OptionValue.Matches (readers : OptionReaders) : OptionValue → List String → Prop
  | .int32Values values, texts => texts ≠ [] ∧
      List.Forall₂ (fun s n => parseInt (-2 ^ 31) (2 ^ 31 - 1) s = some n) texts values
  | .int64Values values, texts => texts ≠ [] ∧
      List.Forall₂ (fun s n => parseInt (-2 ^ 63) (2 ^ 63 - 1) s = some n) texts values
  | .floatValues values, texts => texts ≠ [] ∧
      List.Forall₂ (fun s value => readers.parseFloat s = some value) texts values
  | .stringValue s, texts => texts = [s]
  | .byteValues bytes, texts =>
      ∃ s, texts = [s] ∧ parseHexString (s.toList.flatMap String.utf8EncodeChar) = .ok bytes
  | .areaIdStr s, texts => texts = [s]
  | .timestamp time, texts =>
      ∃ s, texts = [s] ∧ parseInt (-2 ^ 63) (2 ^ 63 - 1) s = some time

/-- A group stands for a value; the case of its name does not matter. -/
structure OptionGroup.Reads (readers : OptionReaders) (group : OptionGroup)
    (value : OptionValue) : Prop where
  name : equalsIgnoreCase group.name value.kind.name = true
  texts : value.Matches readers group.texts

/-- A property value whose area is not read yet. -/
structure UnplacedValue where
  prop : VehiclePropValue
  areaIdStr : Option String := none

/-- An option replaces its part of the value. -/
def OptionValue.assign (v : UnplacedValue) : OptionValue → UnplacedValue
  | .int32Values values =>
      { v with prop := { v.prop with value := { v.prop.value with int32Values := values } } }
  | .int64Values values =>
      { v with prop := { v.prop with value := { v.prop.value with int64Values := values } } }
  | .floatValues values =>
      { v with prop := { v.prop with value := { v.prop.value with floatValues := values } } }
  | .stringValue s =>
      { v with prop := { v.prop with value := { v.prop.value with stringValue := s } } }
  | .byteValues bytes =>
      { v with prop := { v.prop with value := { v.prop.value with byteValues := bytes } } }
  | .areaIdStr s => { v with areaIdStr := some s }
  | .timestamp time => { v with prop := { v.prop with timestamp := time } }

/-- The area of the value is read. -/
def UnplacedValue.PlacedAs (readers : OptionReaders) (v : UnplacedValue)
    (w : VehiclePropValue) : Prop :=
  ∃ areaId, w = { v.prop with areaId } ∧
    v.areaIdStr.elim (areaId = v.prop.areaId) fun s =>
      readers.parseAreaId 0 s v.prop.prop = .ok areaId

/-- A text ends where the name of an option comes, and no name comes twice. -/
structure Grammatical (groups : List OptionGroup) : Prop where
  texts : ∀ group ∈ groups, ∀ s ∈ group.texts, s ∉ setPropOptions
  names : ∀ group ∈ groups.tail, group.name ∈ setPropOptions
  nodup : (groups.map OptionGroup.name).Nodup

section Groups

/-- The texts before the first name, and the groups. -/
def splitGroups : List String → List String × List OptionGroup
  | [] => ([], [])
  | s :: options =>
      if s ∈ setPropOptions then ([], ⟨s, (splitGroups options).1⟩ :: (splitGroups options).2)
      else (s :: (splitGroups options).1, (splitGroups options).2)

/-- Whatever comes first is taken for a name. -/
def groupsOf : List String → List OptionGroup
  | [] => []
  | name :: options => ⟨name, (splitGroups options).1⟩ :: (splitGroups options).2

/-- The texts before the first option come first, and then the groups. -/
theorem splitGroups_eq (options : List String) :
    splitGroups options = (options.takeWhile (· ∉ setPropOptions),
      groupsOf (options.dropWhile (· ∉ setPropOptions))) := by
  induction options with
  | nil => rfl
  | cons s options ih =>
      by_cases hs : s ∈ setPropOptions
      · rw [splitGroups, if_pos hs, List.takeWhile_cons_of_neg (by simpa using hs),
          List.dropWhile_cons_of_neg (by simpa using hs), groupsOf]
      · rw [splitGroups, if_neg hs, List.takeWhile_cons_of_pos (by simpa using hs),
          List.dropWhile_cons_of_pos (by simpa using hs), ih]

/-- Splitting loses no text. -/
theorem render_splitGroups (options : List String) :
    (splitGroups options).1 ++ (splitGroups options).2.flatMap OptionGroup.render = options := by
  induction options with
  | nil => rfl
  | cons s options ih =>
      rw [splitGroups]
      split
      · rw [List.nil_append, List.flatMap_cons, OptionGroup.render, List.cons_append, ih]
      · rw [List.cons_append, ih]

/-- The groups are the only ones that have the texts of the options. -/
theorem groupsOf_render {groups : List OptionGroup}
    (htexts : ∀ group ∈ groups, ∀ s ∈ group.texts, s ∉ setPropOptions)
    (hnames : ∀ group ∈ groups.tail, group.name ∈ setPropOptions) :
    groupsOf (groups.flatMap OptionGroup.render) = groups := by
  induction groups with
  | nil => rfl
  | cons group groups ih =>
      rw [List.forall_mem_cons] at htexts
      rw [List.flatMap_cons, OptionGroup.render, List.cons_append, groupsOf, splitGroups_eq]
      have hall : ∀ s ∈ group.texts, decide (s ∉ setPropOptions) = true := fun s hs =>
        decide_eq_true (htexts.1 s hs)
      have hrest : (groups.flatMap OptionGroup.render).takeWhile (· ∉ setPropOptions) = [] ∧
          (groups.flatMap OptionGroup.render).dropWhile (· ∉ setPropOptions) =
            groups.flatMap OptionGroup.render := by
        cases groups with
        | nil => exact ⟨rfl, rfl⟩
        | cons next groups =>
            have hname := hnames next (List.mem_cons_self ..)
            rw [List.flatMap_cons, OptionGroup.render, List.cons_append]
            exact ⟨List.takeWhile_cons_of_neg (by simpa using hname),
              List.dropWhile_cons_of_neg (by simpa using hname)⟩
      rw [List.takeWhile_append_of_pos hall, List.dropWhile_append_of_pos hall, hrest.1, hrest.2,
        List.append_nil, ih htexts.2 fun g hg => hnames g (List.mem_of_mem_tail hg)]

/-- The groups are all of the texts that they were made of. -/
theorem render_groupsOf (options : List String) :
    (groupsOf options).flatMap OptionGroup.render = options := by
  cases options with
  | nil => rfl
  | cons name options =>
      rw [groupsOf, List.flatMap_cons, OptionGroup.render, List.cons_append, render_splitGroups]

/-- An option begins each group, and stands nowhere else. -/
theorem texts_splitGroups (options : List String) :
    (∀ s ∈ (splitGroups options).1, s ∉ setPropOptions) ∧
      ∀ group ∈ (splitGroups options).2,
        group.name ∈ setPropOptions ∧ ∀ s ∈ group.texts, s ∉ setPropOptions := by
  induction options with
  | nil => exact ⟨fun _ h => absurd h List.not_mem_nil, fun _ h => absurd h List.not_mem_nil⟩
  | cons s options ih =>
      rw [splitGroups]
      split
      · next hs =>
          exact ⟨fun _ h => absurd h List.not_mem_nil, List.forall_mem_cons.mpr ⟨⟨hs, ih.1⟩, ih.2⟩⟩
      · next hs => exact ⟨List.forall_mem_cons.mpr ⟨hs, ih.1⟩, ih.2⟩

/-- Options are the texts of their groups. -/
theorem eq_render_iff {options : List String} {groups : List OptionGroup} :
    groupsOf options = groups ↔ options = groups.flatMap OptionGroup.render ∧
      (∀ group ∈ groups, ∀ s ∈ group.texts, s ∉ setPropOptions) ∧
      ∀ group ∈ groups.tail, group.name ∈ setPropOptions := by
  constructor
  · rintro rfl
    refine ⟨(render_groupsOf options).symm, ?_⟩
    cases options with
    | nil => exact ⟨fun _ h => absurd h List.not_mem_nil, fun _ h => absurd h List.not_mem_nil⟩
    | cons name options =>
        obtain ⟨hfirst, hrest⟩ := texts_splitGroups options
        exact ⟨List.forall_mem_cons.mpr ⟨hfirst, fun g hg => (hrest g hg).2⟩,
          fun g hg => (hrest g hg).1⟩
  · rintro ⟨rfl, htexts, hnames⟩
    exact groupsOf_render htexts hnames

end Groups

section Options

variable {readers : OptionReaders} {argType : String} {currentIndex : Nat}
  {argValues : List String} {parsed next : ParsedOptions}

/-- An integer is read exactly where the text denotes one in the bounds. -/
theorem safelyParseInt_eq_ok_iff {min max : Int} {index : Nat} {s : String} {n : Int} :
    safelyParseInt min max index s = .ok n ↔ parseInt min max s = some n := by
  rw [safelyParseInt]
  cases parseInt min max s with
  | none => exact iff_of_false (by simp) (by simp)
  | some m => simp

/-- An `int32_t` is read exactly where the text denotes one. -/
theorem safelyParseInt32_eq_ok_iff (index : Nat) (s : String) (n : Int) :
    safelyParseInt32 index s = .ok n ↔ parseInt (-2 ^ 31) (2 ^ 31 - 1) s = some n :=
  safelyParseInt_eq_ok_iff

/-- An `int64_t` is read exactly where the text denotes one. -/
theorem safelyParseInt64_eq_ok_iff (index : Nat) (s : String) (n : Int) :
    safelyParseInt64 index s = .ok n ↔ parseInt (-2 ^ 63) (2 ^ 63 - 1) s = some n :=
  safelyParseInt_eq_ok_iff

/-- A float is read exactly where the text denotes one. -/
theorem safelyParseFloat_eq_ok_iff (index : Nat) (s : String) (value : Binary32) :
    readers.safelyParseFloat index s = .ok value ↔ readers.parseFloat s = some value := by
  rw [OptionReaders.safelyParseFloat]
  cases readers.parseFloat s with
  | none => exact iff_of_false (by simp) (by simp)
  | some _ => simp

/-- The position of an area does not matter. -/
theorem parseAreaId_eq_ok_iff {index : Nat} {s : String} {propId areaId : Int} :
    readers.parseAreaId index s propId = .ok areaId ↔
      readers.parseAreaId 0 s propId = .ok areaId := by
  simp only [OptionReaders.parseAreaId, safelyParseInt32, safelyParseInt]
  cases parseInt (-2 ^ 31) (2 ^ 31 - 1) s with
  | some n => rfl
  | none =>
      dsimp only
      split
      · rfl
      · exact iff_of_false (by simp) (by simp)

/-- Values are read each on its own, at whatever position. -/
theorem forall₂_zipIdx_iff {α : Type} {R : String → α → Prop} {texts : List String}
    {values : List α} (index : Nat) :
    List.Forall₂ (fun (p : String × Nat) a => R p.1 a) (texts.zipIdx index) values ↔
      List.Forall₂ R texts values := by
  induction texts generalizing index values with
  | nil => simp
  | cons s texts ih => simp only [List.zipIdx_cons, List.forall₂_cons_left_iff, ih]

/-- Values are read exactly where there are some, and each of them is read. -/
theorem parseValues_eq_ok_iff {α : Type} {option : String}
    {parse : Nat → String → Except NumberError α} {read : String → Option α}
    (hread : ∀ i s a, parse i s = .ok a ↔ read s = some a) {values : List α} :
    parseValues option parse currentIndex argValues = .ok values ↔
      argValues ≠ [] ∧ List.Forall₂ (fun s a => read s = some a) argValues values := by
  rw [parseValues]
  split
  · next h => exact iff_of_false (by simp) (by simp [h])
  · next h =>
      rw [mapM_eq_ok_iff, ← forall₂_zipIdx_iff currentIndex]
      simp only [mapError_eq_ok_iff, hread, ne_eq, h, not_false_eq_true, true_and]

/-- A single value is read exactly where there is one text and it is read. -/
theorem parseSingle_eq_ok_iff {α : Type} {option : String}
    {parse : String → Except OptionError α} {a : α} :
    parseSingle option parse argValues = .ok a ↔ ∃ s, argValues = [s] ∧ parse s = .ok a := by
  unfold parseSingle
  split
  · simp
  · next hne =>
      refine iff_of_false (by simp) ?_
      rintro ⟨s, hs, -⟩
      exact hne s hs

/-- Two texts are the same but for their case exactly if they are in lower case. -/
theorem equalsIgnoreCase_iff {a b : String} :
    equalsIgnoreCase a b = true ↔ a.toList.map Char.toLower = b.toList.map Char.toLower :=
  decide_eq_true_iff

/-- The names of two options differ in more than their case. -/
theorem kind_unique {j k : OptionKind} (hj : equalsIgnoreCase argType j.name = true)
    (hk : equalsIgnoreCase argType k.name = true) : j = k := by
  rw [equalsIgnoreCase_iff] at hj hk
  have h := hj.symm.trans hk
  revert h
  cases j <;> cases k <;> decide

/-- A value is noted, an area by its index. -/
def OptionValue.store (currentIndex : Nat) (parsed : ParsedOptions) (value : OptionValue) :
    ParsedOptions :=
  { parsed with
    prop := (value.assign { prop := parsed.prop }).prop
    areaIdIndex := if value.kind = .area then some currentIndex else parsed.areaIdIndex }

/-- The values of one option are those of its constructor. -/
theorem exists_reads_iff {k : OptionKind} (hk : equalsIgnoreCase argType k.name = true)
    {P : OptionValue → Prop} :
    (∃ value, (⟨argType, argValues⟩ : OptionGroup).Reads readers value ∧ P value) ↔
      ∃ value : OptionValue, value.kind = k ∧ value.Matches readers argValues ∧ P value := by
  constructor
  · rintro ⟨value, ⟨hname, htexts⟩, hp⟩
    exact ⟨value, kind_unique hname hk, htexts, hp⟩
  · rintro ⟨value, rfl, htexts, hp⟩
    exact ⟨value, ⟨hk, htexts⟩, hp⟩

/-- A branch of `parseOption` reads the values of its option. -/
theorem branch_iff {α : Type} {k : OptionKind} (hk : equalsIgnoreCase argType k.name = true)
    {parse : Except OptionError α} {note : α → ParsedOptions} (wrap : α → OptionValue)
    (hkind : ∀ value : OptionValue, value.kind = k ↔ ∃ a, value = wrap a)
    (hparse : ∀ a, parse = .ok a ↔ (wrap a).Matches readers argValues)
    (hnote : ∀ a, note a = (wrap a).store currentIndex parsed) :
    parse.map note = .ok next ↔
      ∃ value, (⟨argType, argValues⟩ : OptionGroup).Reads readers value ∧
        next = value.store currentIndex parsed := by
  rw [map_eq_ok_iff, exists_reads_iff hk]
  constructor
  · rintro ⟨a, ha, rfl⟩
    exact ⟨wrap a, (hkind _).mpr ⟨a, rfl⟩, (hparse a).mp ha, hnote a⟩
  · rintro ⟨value, hvalue, hmatches, rfl⟩
    obtain ⟨a, rfl⟩ := (hkind value).mp hvalue
    exact ⟨a, (hparse a).mpr hmatches, (hnote a).symm⟩

/-- One turn of the loop reads a group. -/
theorem parseOption_eq_ok_iff :
    parseOption readers argType currentIndex argValues parsed = .ok next ↔
      ∃ value, (⟨argType, argValues⟩ : OptionGroup).Reads readers value ∧
        next = value.store currentIndex parsed := by
  unfold parseOption
  simp only
  split_ifs with hint32 hint64 hfloat hstring hbytes harea htimestamp
  · refine branch_iff (k := .int32) hint32 .int32Values (fun value => ?_) (fun values => ?_)
      fun _ => rfl
    · cases value <;> simp [OptionValue.kind]
    · exact parseValues_eq_ok_iff safelyParseInt32_eq_ok_iff
  · refine branch_iff (k := .int64) hint64 .int64Values (fun value => ?_) (fun values => ?_)
      fun _ => rfl
    · cases value <;> simp [OptionValue.kind]
    · exact parseValues_eq_ok_iff safelyParseInt64_eq_ok_iff
  · refine branch_iff (k := .float) hfloat .floatValues (fun value => ?_) (fun values => ?_)
      fun _ => rfl
    · cases value <;> simp [OptionValue.kind]
    · exact parseValues_eq_ok_iff safelyParseFloat_eq_ok_iff
  · refine branch_iff (k := .string) hstring .stringValue (fun value => ?_) (fun values => ?_)
      fun _ => rfl
    · cases value <;> simp [OptionValue.kind]
    · rw [parseSingle_eq_ok_iff, OptionValue.Matches]
      simp
  · refine branch_iff (k := .bytes) hbytes .byteValues (fun value => ?_) (fun values => ?_)
      fun _ => rfl
    · cases value <;> simp [OptionValue.kind]
    · rw [parseSingle_eq_ok_iff, OptionValue.Matches]
      simp only [mapError_eq_ok_iff]
  · refine branch_iff (k := .area) harea .areaIdStr (fun value => ?_) (fun values => ?_)
      fun _ => rfl
    · cases value <;> simp [OptionValue.kind]
    · rw [parseSingle_eq_ok_iff, OptionValue.Matches]
      simp
  · refine branch_iff (k := .timestamp) htimestamp .timestamp (fun value => ?_) (fun values => ?_)
      fun _ => rfl
    · cases value <;> simp [OptionValue.kind]
    · rw [parseSingle_eq_ok_iff, OptionValue.Matches]
      simp only [mapError_eq_ok_iff, safelyParseInt64_eq_ok_iff]
  · refine iff_of_false (by simp) ?_
    rintro ⟨value, ⟨hname, -⟩, -⟩
    cases value <;> simp_all [OptionValue.kind, OptionKind.name]

/-- What has been read, with the text of the area in place of its index. -/
def ParsedOptions.unplaced (options : List String) (parsed : ParsedOptions) : UnplacedValue where
  prop := parsed.prop
  areaIdStr := parsed.areaIdIndex.map fun index => options.getD index ""

/-- Storing a value of an option assigns it to the value that is being built. -/
theorem unplaced_store (options : List String) (parsed : ParsedOptions) {value : OptionValue}
    (hmatches : value.Matches readers (getOptionValues options currentIndex)) :
    (value.store currentIndex parsed).unplaced options =
      value.assign (parsed.unplaced options) := by
  cases value with
  | areaIdStr s =>
      have htexts : getOptionValues options currentIndex = [s] := hmatches
      have hget : options.getD currentIndex "" = s := by
        rw [List.getD_eq_getElem?_getD, ← List.head?_drop]
        rw [getOptionValues] at htexts
        cases hdrop : options.drop currentIndex with
        | nil =>
            rw [hdrop] at htexts
            cases htexts
        | cons t rest =>
            rw [hdrop, List.takeWhile_cons] at htexts
            split at htexts
            · exact (List.cons.inj htexts).1
            · cases htexts
      simp only [OptionValue.store, ParsedOptions.unplaced, OptionValue.assign, OptionValue.kind,
        if_true, Option.map_some, hget]
  | _ => rfl

/-- Behind the texts of an option the next option stands. -/
theorem drop_getOptionValues (options : List String) (index : Nat) :
    options.drop (index + (getOptionValues options index).length) =
      (options.drop index).dropWhile (· ∉ setPropOptions) := by
  rw [← List.drop_drop, getOptionValues]
  generalize options.drop index = rest
  calc rest.drop (rest.takeWhile (· ∉ setPropOptions)).length
      = (rest.takeWhile (· ∉ setPropOptions) ++ rest.dropWhile (· ∉ setPropOptions)).drop
          (rest.takeWhile (· ∉ setPropOptions)).length := by
        rw [List.takeWhile_append_dropWhile]
    _ = rest.dropWhile (· ∉ setPropOptions) := List.drop_left

/-- The loop reads the groups from an index on. -/
theorem parseOptions_iff (readers : OptionReaders) (options : List String) {v : UnplacedValue}
    (optionIndex : Nat) (parsed : ParsedOptions) :
    (∃ next, parseOptions readers options optionIndex parsed = .ok next ∧
        next.unplaced options = v) ↔
      ((groupsOf (options.drop optionIndex)).map OptionGroup.name).Nodup ∧
      (∀ group ∈ groupsOf (options.drop optionIndex), group.name ∉ parsed.parsedOptions) ∧
      ∃ values, List.Forall₂ (OptionGroup.Reads readers) (groupsOf (options.drop optionIndex))
          values ∧
        v = values.foldl OptionValue.assign (parsed.unplaced options) := by
  induction hn : options.length - optionIndex using Nat.strong_induction_on
    generalizing optionIndex parsed with
  | _ n ih =>
  rw [parseOptions]
  by_cases h : optionIndex < options.length
  · rw [dif_pos h, List.drop_eq_getElem_cons h, groupsOf, splitGroups_eq]
    simp only
    rw [← drop_getOptionValues, ← getOptionValues]
    set argValues := getOptionValues options (optionIndex + 1) with hvalues
    rw [List.map_cons, List.nodup_cons, List.forall_mem_cons]
    simp only [List.forall₂_cons_left_iff]
    split
    · next hmem =>
        refine iff_of_false (by simp) ?_
        rintro ⟨-, ⟨hnot, -⟩, -⟩
        exact hnot hmem
    · next hmem =>
        simp only [bind_eq_ok_iff, parseOption_eq_ok_iff]
        have hlt : options.length - (optionIndex + 1 + argValues.length) < n := by omega
        constructor
        · rintro ⟨next, ⟨_, ⟨value, hreads, rfl⟩, hparse⟩, hv⟩
          obtain ⟨hnodup, hfresh, values, hall, rfl⟩ := (ih _ hlt _ _ rfl).mp ⟨next, hparse, hv⟩
          refine ⟨⟨fun hin => ?_, hnodup⟩, ⟨hmem, fun g hg hold => ?_⟩, value :: values,
            ⟨value, values, hreads, hall, rfl⟩, ?_⟩
          · obtain ⟨g, hg, hname⟩ := List.mem_map.mp hin
            exact hfresh g hg (hname ▸ List.mem_cons_self ..)
          · exact hfresh g hg (List.mem_cons_of_mem _ hold)
          · rw [List.foldl_cons, unplaced_store _ _ hreads.texts]
            rfl
        · rintro ⟨⟨hname, hnodup⟩, ⟨-, hold⟩, _, ⟨value, values, hreads, hall, rfl⟩, rfl⟩
          have hassign := unplaced_store options { parsed with
            parsedOptions := options[optionIndex] :: parsed.parsedOptions } hreads.texts
          have hfresh : ∀ g ∈ groupsOf (options.drop (optionIndex + 1 + argValues.length)),
              g.name ∉ options[optionIndex] :: parsed.parsedOptions := by
            intro g hg hin
            rcases List.mem_cons.mp hin with heq | hin
            · exact hname (heq ▸ List.mem_map_of_mem hg)
            · exact hold g hg hin
          obtain ⟨next, hparse, hv⟩ := (ih _ hlt _ (value.store (optionIndex + 1)
            { parsed with
              parsedOptions := options[optionIndex] :: parsed.parsedOptions }) rfl).mpr
            ⟨hnodup, hfresh, values, hall, by rw [hassign]; rfl⟩
          exact ⟨next, ⟨_, ⟨value, hreads, rfl⟩, hparse⟩, hv⟩
  · rw [dif_neg h, List.drop_eq_nil_of_le (not_lt.mp h), groupsOf]
    simp only [List.map_nil, List.nodup_nil, true_and, List.not_mem_nil, false_imp_iff,
      implies_true, List.forall₂_nil_left_iff, exists_eq_left, List.foldl_nil, Except.ok.injEq,
      exists_eq_left']
    exact eq_comm

/-- A value comes out exactly where its area is found. -/
theorem place_eq_ok_iff {options : List String} {w : VehiclePropValue} :
    parsed.place readers options = .ok w ↔ (parsed.unplaced options).PlacedAs readers w := by
  rw [ParsedOptions.place, UnplacedValue.PlacedAs, ParsedOptions.unplaced]
  cases parsed.areaIdIndex with
  | none =>
      simp only [Option.map_none, Option.elim_none, Except.ok.injEq, exists_eq_right]
      exact eq_comm
  | some index =>
      simp only [Option.map_some, Option.elim_some]
      rw [map_eq_ok_iff]
      simp only [mapError_eq_ok_iff]
      rw [exists_congr fun areaId => and_congr_left' parseAreaId_eq_ok_iff]
      exact exists_congr fun areaId => and_comm

/-- The parser reads the groups of the options, whatever the positions. -/
theorem parse_groupsOf_iff {command propIdStr : String} {rest : List String}
    (hsize : 2 ≤ (command :: propIdStr :: rest).length) {w : VehiclePropValue} :
    parsePropOptions readers (command :: propIdStr :: rest) hsize = .ok w ↔
      ∃ propId values, readers.parsePropId 1 propIdStr = .ok propId ∧
        ((groupsOf rest).map OptionGroup.name).Nodup ∧
        List.Forall₂ (OptionGroup.Reads readers) (groupsOf rest) values ∧
        (values.foldl OptionValue.assign { prop := { prop := propId } }).PlacedAs readers w := by
  have hdrop : (command :: propIdStr :: rest).drop 2 = rest := rfl
  rw [parsePropOptions]
  simp only [bind_eq_ok_iff, mapError_eq_ok_iff, List.getElem_cons_succ, List.getElem_cons_zero,
    place_eq_ok_iff]
  constructor
  · rintro ⟨propId, hpropId, parsed, hparse, hplaced⟩
    obtain ⟨hnodup, -, values, hall, hvalues⟩ :=
      (parseOptions_iff readers _ 2 _).mp ⟨parsed, hparse, rfl⟩
    rw [hvalues] at hplaced
    exact ⟨propId, values, hpropId, hdrop ▸ hnodup, hdrop ▸ hall, hplaced⟩
  · rintro ⟨propId, values, hpropId, hnodup, hall, hplaced⟩
    obtain ⟨parsed, hparse, hunplaced⟩ := (parseOptions_iff readers
      (command :: propIdStr :: rest) 2 { prop := { prop := propId } }).mpr
        ⟨hdrop ▸ hnodup, fun _ _ => List.not_mem_nil, values, hdrop ▸ hall, rfl⟩
    exact ⟨propId, hpropId, parsed, hparse, hunplaced ▸ hplaced⟩

/-- The parser accepts the texts of the grammar and no others. The values of the options replace
each other in their order. -/
theorem parsePropOptions_eq_ok_iff (readers : OptionReaders) (options : List String)
    (hsize : 2 ≤ options.length) (w : VehiclePropValue) :
    parsePropOptions readers options hsize = .ok w ↔
      ∃ command propIdStr groups propId values,
        options = command :: propIdStr :: groups.flatMap OptionGroup.render ∧
        Grammatical groups ∧ readers.parsePropId 1 propIdStr = .ok propId ∧
        List.Forall₂ (OptionGroup.Reads readers) groups values ∧
        (values.foldl OptionValue.assign { prop := { prop := propId } }).PlacedAs readers w := by
  obtain ⟨command, propIdStr, rest, rfl⟩ : ∃ command propIdStr rest,
      options = command :: propIdStr :: rest := by
    rcases options with _ | ⟨command, _ | ⟨propIdStr, rest⟩⟩
    · exact absurd hsize (by simp)
    · exact absurd hsize (by simp)
    · exact ⟨command, propIdStr, rest, rfl⟩
  rw [parse_groupsOf_iff]
  constructor
  · rintro ⟨propId, values, hpropId, hnodup, hall, hplaced⟩
    obtain ⟨hrender, htexts, hnames⟩ := eq_render_iff.mp (rfl : groupsOf rest = groupsOf rest)
    exact ⟨command, propIdStr, groupsOf rest, propId, values, by rw [← hrender],
      ⟨htexts, hnames, hnodup⟩, hpropId, hall, hplaced⟩
  · rintro ⟨_, _, groups, propId, values, heq, hgrammar, hpropId, hall, hplaced⟩
    obtain ⟨-, heq⟩ := List.cons.inj heq
    obtain ⟨rfl, hrest⟩ := List.cons.inj heq
    have hgroups := eq_render_iff.mpr ⟨hrest, hgrammar.texts, hgrammar.names⟩
    exact ⟨propId, values, hpropId, hgroups ▸ hgrammar.nodup, hgroups ▸ hall, hplaced⟩

/-- The names of the fan and of two of its rows. -/
def fanReaders : OptionReaders where
  stringToPropId s := if s = "HVAC_FAN_SPEED" then some hvacFanSpeedId else none
  stringToArea s _ :=
    if s = "ROW_1_LEFT" then some 1 else if s = "ROW_1_RIGHT" then some 4 else none
  parseFloat _ := none

/-- A command with an area and an integer gives a value of the fan speed. -/
theorem fan_options_parsed :
    parsePropOptions fanReaders ["--set", "HVAC_FAN_SPEED", "-A", "4", "-i", "6"] (by decide) =
      .ok (fanSpeed 4 6) := by
  refine (parsePropOptions_eq_ok_iff _ _ _ _).mpr ⟨"--set", "HVAC_FAN_SPEED",
    [⟨"-A", ["4"]⟩, ⟨"-i", ["6"]⟩], hvacFanSpeedId, [.areaIdStr "4", .int32Values [6]], rfl,
    ⟨by decide, by decide, by decide⟩, rfl, ?_, 4, rfl, rfl⟩
  exact .cons ⟨by decide, rfl⟩
    (.cons ⟨by decide, List.cons_ne_nil _ _, .cons (by decide) .nil⟩ .nil)

/-- A name in lower case is the one of its option. -/
theorem eq_name_of_mem {name : String} (hname : name ∈ setPropOptions) {k : OptionKind}
    (hk : equalsIgnoreCase name k.name = true) : name = k.name := by
  obtain ⟨j, rfl⟩ : ∃ j : OptionKind, name = j.name := by
    simp only [setPropOptions, List.mem_cons, List.not_mem_nil, or_false] at hname
    rcases hname with rfl | rfl | rfl | rfl | rfl | rfl | rfl
    · exact ⟨.int32, rfl⟩
    · exact ⟨.int64, rfl⟩
    · exact ⟨.float, rfl⟩
    · exact ⟨.string, rfl⟩
    · exact ⟨.bytes, rfl⟩
    · exact ⟨.area, rfl⟩
    · exact ⟨.timestamp, rfl⟩
  exact congrArg OptionKind.name (kind_unique (equalsIgnoreCase_iff.mpr rfl) hk)

/-- Two options replace different parts. -/
theorem assign_comm {a b : OptionValue} (hne : a.kind ≠ b.kind) (v : UnplacedValue) :
    b.assign (a.assign v) = a.assign (b.assign v) := by
  cases a <;> cases b <;> first | rfl | exact absurd rfl hne

/-- Groups with different names stand for values of different options. -/
theorem pairwise_kind {groups : List OptionGroup} {values : List OptionValue}
    (hnames : ∀ group ∈ groups, group.name ∈ setPropOptions)
    (hnodup : (groups.map OptionGroup.name).Nodup)
    (hall : List.Forall₂ (OptionGroup.Reads readers) groups values) :
    values.Pairwise fun a b => a.kind ≠ b.kind := by
  have hsame : groups.map OptionGroup.name = values.map fun value => value.kind.name := by
    induction hall with
    | nil => rfl
    | cons hread _ ih =>
        rw [List.forall_mem_cons] at hnames
        rw [List.map_cons, List.nodup_cons] at hnodup
        rw [List.map_cons, List.map_cons, ih hnames.2 hnodup.2,
          eq_name_of_mem hnames.1 hread.name]
  rw [hsame, List.Nodup, List.pairwise_map] at hnodup
  exact hnodup.imp fun hne heq => hne (congrArg OptionKind.name heq)

/-- Values of different options may be assigned in any order. -/
theorem foldl_assign_perm {values values' : List OptionValue} (hperm : values.Perm values')
    (hkinds : values.Pairwise fun a b => a.kind ≠ b.kind) (v : UnplacedValue) :
    values.foldl OptionValue.assign v = values'.foldl OptionValue.assign v := by
  have hsymm : Std.Symm fun a b : OptionValue => a.kind ≠ b.kind := ⟨fun _ _ h => h.symm⟩
  refine hperm.foldl_eq' (fun a ha b hb w => ?_) v
  by_cases heq : a = b
  · rw [heq]
  · exact assign_comm (hkinds.forall ha hb heq) w

/-- The groups of a command may stand in any order. -/
theorem parse_of_perm {command propIdStr : String} {groups groups' : List OptionGroup}
    (hperm : groups.Perm groups') (hnames : ∀ group ∈ groups, group.name ∈ setPropOptions)
    (htexts : ∀ group ∈ groups, ∀ s ∈ group.texts, s ∉ setPropOptions) {w : VehiclePropValue}
    (h : parsePropOptions readers (command :: propIdStr :: groups.flatMap OptionGroup.render)
      (Nat.le_add_left 2 _) = .ok w) :
    parsePropOptions readers (command :: propIdStr :: groups'.flatMap OptionGroup.render)
      (Nat.le_add_left 2 _) = .ok w := by
  have htail {l : List OptionGroup} (hl : ∀ group ∈ l, group.name ∈ setPropOptions) :
      ∀ group ∈ l.tail, group.name ∈ setPropOptions := fun g hg => hl g (List.mem_of_mem_tail hg)
  have hnames' : ∀ group ∈ groups', group.name ∈ setPropOptions := fun g hg =>
    hnames g (hperm.mem_iff.mpr hg)
  have htexts' : ∀ group ∈ groups', ∀ s ∈ group.texts, s ∉ setPropOptions := fun g hg =>
    htexts g (hperm.mem_iff.mpr hg)
  rw [parse_groupsOf_iff, groupsOf_render htexts (htail hnames)] at h
  obtain ⟨propId, values, hpropId, hnodup, hall, hplaced⟩ := h
  obtain ⟨values', hall', hvalues⟩ := List.perm_comp_forall₂ hperm.symm hall
  rw [parse_groupsOf_iff, groupsOf_render htexts' (htail hnames')]
  refine ⟨propId, values', hpropId, (hperm.map _).nodup_iff.mp hnodup, hall', ?_⟩
  rwa [foldl_assign_perm hvalues.symm (pairwise_kind hnames hnodup hall)] at hplaced

/-- The order of the options does not matter. -/
theorem toOption_parse_perm (readers : OptionReaders) (command propIdStr : String)
    {groups groups' : List OptionGroup} (hperm : groups.Perm groups')
    (hnames : ∀ group ∈ groups, group.name ∈ setPropOptions)
    (htexts : ∀ group ∈ groups, ∀ s ∈ group.texts, s ∉ setPropOptions) :
    (parsePropOptions readers (command :: propIdStr :: groups.flatMap OptionGroup.render)
      (Nat.le_add_left 2 _)).toOption =
    (parsePropOptions readers (command :: propIdStr :: groups'.flatMap OptionGroup.render)
      (Nat.le_add_left 2 _)).toOption := by
  refine toOption_congr fun w => ⟨parse_of_perm hperm hnames htexts, ?_⟩
  exact parse_of_perm hperm.symm (fun g hg => hnames g (hperm.mem_iff.mpr hg))
    fun g hg => htexts g (hperm.mem_iff.mpr hg)

/-- The area and the integer of a command may be swapped. -/
theorem fan_options_swapped :
    (parsePropOptions fanReaders ["--set", "HVAC_FAN_SPEED", "-a", "4", "-i", "6"]
      (by decide)).toOption =
    (parsePropOptions fanReaders ["--set", "HVAC_FAN_SPEED", "-i", "6", "-a", "4"]
      (by decide)).toOption := by
  have hswap : List.Perm [OptionGroup.mk "-a" ["4"], ⟨"-i", ["6"]⟩]
      [⟨"-i", ["6"]⟩, ⟨"-a", ["4"]⟩] := .swap ..
  exact toOption_parse_perm fanReaders "--set" "HVAC_FAN_SPEED" hswap (by decide) (by decide)

end Options

section Steps

/-- The answers of commands that leave the state as it is, whatever it is. -/
def DumpReply.Quiet : DumpReply → Prop
  | .shown | .invalidOption _ | .tooFewArguments _ _ | .optionError _ | .got _ _ | .notSaved _
  | .inputError _ | .minMaxValueNotSet _ | .supportedValuesNotSet _ => True
  | _ => False

/-- The event that a command injects. -/
def injectedValue (readers : OptionReaders) (options : List String) : Option VehiclePropValue :=
  if h : 2 ≤ options.length then (parsePropOptions readers options h).toOption else none

/-- What a command does. -/
inductive DumpStep (readers : OptionReaders) (env : Environment) (s : DebugState)
    (options : List String) : DumpReply → DebugState → Prop
  | quiet {reply : DumpReply} (hquiet : reply.Quiet) : DumpStep readers env s options reply s
  | set {prop : VehiclePropValue} {result : Except SetValueError Unit} {properties : PropertyState}
      (hset : s.properties.setByDump env prop = .ok (result, properties)) :
      DumpStep readers env s options (.set prop result) { s with properties }
  | save {value readValue : VehiclePropValue}
      (hread : s.properties.mServerSidePropStore.readValue value = .ok readValue) :
      DumpStep readers env s options (.saved value.propIdAreaId) { s with
        mSavedProps := s.mSavedProps.insert value.propIdAreaId readValue }
  | nothingSaved {p : PropIdAreaId} (hlookup : s.mSavedProps.lookup p = none) :
      DumpStep readers env s options (.nothingSaved p) s
  | restore {p : PropIdAreaId} {savedValue : VehiclePropValue} {properties : PropertyState}
      (hlookup : s.mSavedProps.lookup p = some savedValue)
      (hwrite : s.properties.writeNow env savedValue false .onValueChange =
        (.ok (), properties)) :
      DumpStep readers env s options (.restored p)
        { s with properties, mSavedProps := s.mSavedProps.erase p }
  | notRestored {p : PropIdAreaId} {savedValue : VehiclePropValue} {properties : PropertyState}
      {error : SetValueError} (hlookup : s.mSavedProps.lookup p = some savedValue)
      (hwrite : s.properties.writeNow env savedValue false .onValueChange =
        (.error error, properties)) :
      DumpStep readers env s options (.notRestored error)
        { s with properties, mSavedProps := s.mSavedProps.erase p }
  | inject {prop : VehiclePropValue} (hparse : injectedValue readers options = some prop) :
      DumpStep readers env s options (.injected prop.prop)
        { s with properties := s.properties.eventFromVehicleBus env prop }
  | generate {command : String} {input : FakeInput} (hcommand : options[1]? = some command)
      (hparse : parseInput readers options command = some (.ok input)) :
      DumpStep readers env s options (.generated input)
        { s with properties := s.properties.generate env input }
  | vendorConfigs (mAddExtraTestVendorConfigs : Bool) :
      DumpStep readers env s options .refreshPropertyConfigs { s with mAddExtraTestVendorConfigs }
  | minMaxValue {p : PropIdAreaId} {minValue maxValue : RawPropValues}
      (hparse : DebugState.parseSetMinMaxValue readers s.properties.mServerSidePropStore options =
        .ok (p, minValue, maxValue)) :
      DumpStep readers env s options (.minMaxValueSet p)
        (DebugState.triggerSupportedValueChange p { s with
          supported := (s.supported.setMinSupportedValueLocked p
            minValue).setMaxSupportedValueLocked p maxValue })
  | supportedValues {p : PropIdAreaId} {list : List RawPropValues}
      (hparse : DebugState.parseSetSupportedValues readers s.properties.mServerSidePropStore
        options = .ok (p, list)) :
      DumpStep readers env s options (.supportedValuesSet p)
        (DebugState.triggerSupportedValueChange p { s with
          supported := s.supported.setSupportedValues p list })

variable {readers : OptionReaders} {context : GetContext} {s t : DebugState}
  {options : List String} {reply : DumpReply}

/-- A command with a property value is refused without an effect, or runs. -/
theorem withPropOptions_cases {minSize : Nat} {hmin : 2 ≤ minSize}
    {command : VehiclePropValue → DebugState → DebugState.Dumped}
    (h : DebugState.withPropOptions readers minSize hmin options command s = .ok (reply, t)) :
    (reply.Quiet ∧ t = s) ∨
      ∃ prop, injectedValue readers options = some prop ∧ command prop s = .ok (reply, t) := by
  rw [DebugState.withPropOptions] at h
  split at h
  · next hsize =>
      split at h
      · cases h
        exact Or.inl ⟨trivial, rfl⟩
      · next prop hparse =>
          refine Or.inr ⟨prop, ?_, h⟩
          rw [injectedValue, dif_pos (hmin.trans hsize), hparse]
          rfl
  · cases h
    exact Or.inl ⟨trivial, rfl⟩

/-- The command for bounds takes a debug step. -/
theorem dumpStep_of_minMaxValue
    (h : DebugState.dumpSetMinMaxValue readers options s = (reply, t)) :
    DumpStep readers context.env s options reply t := by
  rw [DebugState.dumpSetMinMaxValue] at h
  split at h
  · cases h
    exact .quiet trivial
  · next hparse =>
      cases h
      exact .minMaxValue hparse

/-- The command for a list of supported values takes a debug step. -/
theorem dumpStep_of_supportedValues
    (h : DebugState.dumpSetSupportedValues readers options s = (reply, t)) :
    DumpStep readers context.env s options reply t := by
  rw [DebugState.dumpSetSupportedValues] at h
  split at h
  · cases h
    exact .quiet trivial
  · next hparse =>
      cases h
      exact .supportedValues hparse

/-- The command that restores a value takes a debug step. -/
theorem dumpStep_of_restore {value : VehiclePropValue}
    (h : DebugState.restoreProperty context value s = .ok (reply, t)) :
    DumpStep readers context.env s options reply t := by
  rw [DebugState.restoreProperty] at h
  split at h
  · next hlookup =>
      cases h
      exact .nothingSaved hlookup
  · next savedValue hlookup =>
      rcases hwrite : s.properties.writeNow context.env savedValue false .onValueChange with
        ⟨e | _, properties⟩
      · rw [hwrite] at h
        cases h
        exact .notRestored hlookup hwrite
      · rw [hwrite] at h
        cases h
        exact .restore hlookup hwrite

/-- The command for fake data takes a debug step. -/
theorem dumpStep_of_genFakeData
    (h : DebugState.genFakeDataCommand readers context options s = (reply, t)) :
    DumpStep readers context.env s options reply t := by
  rw [DebugState.genFakeDataCommand] at h
  split at h
  · cases h
    exact .quiet trivial
  · next command hcommand =>
      rcases hparse : parseInput readers options command with _ | ⟨e | input⟩
      · rw [hparse] at h
        cases h
        exact .quiet trivial
      · rw [hparse] at h
        cases h
        exact .quiet trivial
      · rw [hparse] at h
        cases h
        exact .generate hcommand hparse

/-- The command that reads a value takes a debug step. -/
theorem dumpStep_of_get {prop : VehiclePropValue}
    (h : DebugState.getPropertyWithArg context prop s = .ok (reply, t)) :
    DumpStep readers context.env s options reply t := by
  obtain ⟨result, -, hreply⟩ := bind_eq_ok_iff.mp h
  cases hreply
  exact .quiet trivial

/-- The command that sets a value takes a debug step. -/
theorem dumpStep_of_set {prop : VehiclePropValue}
    (h : DebugState.setProperty context prop s = .ok (reply, t)) :
    DumpStep readers context.env s options reply t := by
  obtain ⟨⟨result, properties⟩, hset, hreply⟩ := bind_eq_ok_iff.mp h
  cases hreply
  exact .set hset

/-- The command that saves a value takes a debug step. -/
theorem dumpStep_of_save {value : VehiclePropValue}
    (h : DebugState.saveProperty value s = .ok (reply, t)) :
    DumpStep readers context.env s options reply t := by
  rw [DebugState.saveProperty] at h
  split at h
  · cases h
    exact .quiet trivial
  · next hread =>
      cases h
      exact .save hread

/-- A command with a property value does one of the steps if it does so where it runs. -/
theorem dumpStep_of_withPropOptions {minSize : Nat} {hmin : 2 ≤ minSize}
    {command : VehiclePropValue → DebugState → DebugState.Dumped}
    (hcommand : ∀ prop, injectedValue readers options = some prop →
      command prop s = .ok (reply, t) → DumpStep readers context.env s options reply t)
    (h : DebugState.withPropOptions readers minSize hmin options command s = .ok (reply, t)) :
    DumpStep readers context.env s options reply t := by
  rcases withPropOptions_cases h with ⟨hquiet, rfl⟩ | ⟨prop, hparse, hrun⟩
  · exact .quiet hquiet
  · exact hcommand prop hparse hrun

/-- A command does one of the steps if it does so in both branches. -/
theorem dumpStep_of_ite {c : Prop} [Decidable c] {first second : DebugState.Dumped}
    (hfirst : first = .ok (reply, t) → DumpStep readers context.env s options reply t)
    (hsecond : second = .ok (reply, t) → DumpStep readers context.env s options reply t)
    (h : (if c then first else second) = .ok (reply, t)) :
    DumpStep readers context.env s options reply t := by
  split at h
  · exact hfirst h
  · exact hsecond h

/-- A reply that changes nothing is a debug step. -/
theorem dumpStep_of_quiet {r : DumpReply} (hr : r.Quiet)
    (h : (.ok (r, s) : DebugState.Dumped) = .ok (reply, t)) :
    DumpStep readers context.env s options reply t := by
  cases h
  exact .quiet hr

/-- A command does one of the steps. -/
theorem dumpStep_of_dump (h : s.dump readers context options = .ok (reply, t)) :
    DumpStep readers context.env s options reply t := by
  rcases options with _ | ⟨option, rest⟩
  · exact dumpStep_of_quiet (r := .shown) trivial h
  revert h
  rw [DebugState.dump]
  refine dumpStep_of_ite (dumpStep_of_quiet trivial) ?_
  refine dumpStep_of_ite (dumpStep_of_withPropOptions fun _ _ => dumpStep_of_get) ?_
  refine dumpStep_of_ite (dumpStep_of_withPropOptions fun _ _ => dumpStep_of_set) ?_
  refine dumpStep_of_ite (dumpStep_of_withPropOptions fun _ _ => dumpStep_of_save) ?_
  refine dumpStep_of_ite (dumpStep_of_withPropOptions fun _ _ => dumpStep_of_restore) ?_
  refine dumpStep_of_ite (dumpStep_of_withPropOptions fun prop hparse hinject => ?_) ?_
  · cases hinject
    exact .inject hparse
  refine dumpStep_of_ite (fun h => dumpStep_of_genFakeData (Except.ok.inj h)) ?_
  refine dumpStep_of_ite (fun h => ?_) ?_
  · cases h
    exact .vendorConfigs true
  refine dumpStep_of_ite (fun h => ?_) ?_
  · cases h
    exact .vendorConfigs false
  refine dumpStep_of_ite (fun h => dumpStep_of_minMaxValue (Except.ok.inj h)) ?_
  exact dumpStep_of_ite (fun h => dumpStep_of_supportedValues (Except.ok.inj h))
    (dumpStep_of_quiet trivial)

end Steps

section Inputs

variable {env : Environment} {s : PropertyState}

/-- The values that tell the callback of an input that is made up at a moment. -/
def FakeInput.values (clock : Nat → Int) (k : Nat) : FakeInput → List VehiclePropValue
  | .keyPress keyCode display =>
      [{ timestamp := clock k, prop := hwKeyInputId,
         value := { int32Values := [0, keyCode, display] } },
        { timestamp := clock (k + 1), prop := hwKeyInputId,
          value := { int32Values := [1, keyCode, display] } }]
  | .keyInputV2 area display keyCode action repeatCount =>
      [{ timestamp := clock k, areaId := area, prop := hwKeyInputV2Id,
         value := { int32Values := [display, keyCode, action, repeatCount]
                    int64Values := [clock (k + 1)] } }]
  | .motionInput area display inputType action buttonState pointers =>
      [{ timestamp := clock k, areaId := area, prop := hwMotionInputId,
         value := { int32Values := [display, inputType, action, buttonState, pointers.length] ++
                      pointers.map Pointer.pointerId ++ pointers.map Pointer.toolType
                    floatValues := pointers.map Pointer.xData ++ pointers.map Pointer.yData ++
                      pointers.map Pointer.pressure ++ pointers.map Pointer.size
                    int64Values := [clock (k + 1)] } }]

/-- An input is told to the callback, one value at a time, and nothing is stored. -/
theorem generate_eq (env : Environment) (input : FakeInput) (s : PropertyState) :
    s.generate env input = { s with
      emitted := s.emitted ++ (input.values env.clock s.moments).map fun v => .onValuesChange [v]
      moments := s.moments + 2 } := by
  cases input with
  | keyPress keyCode display =>
      rw [PropertyState.generate]
      simp only [PropertyState.createHwInputKeyProp, PropertyState.elapsedRealtimeNano,
        PropertyState.onValueChangeCallback, List.append_assoc, FakeInput.values]
      rfl
  | keyInputV2 | motionInput => rfl

end Inputs

/-- What changes the hardware: sets of the clients, events of the generators and debug commands,
each with its result. -/
inductive HardwareCall where
  | set (value : VehiclePropValue) (result : Except SetValueError Unit)
  | event (value : VehiclePropValue)
  | dump (options : List String) (reply : DumpReply)

/-- A call of a run, at any time that the clock allows and whatever the orders of containers. -/
inductive HardwareStep (readers : OptionReaders) (clock : Nat → Int) :
    DebugState → HardwareCall → DebugState → Prop
  | set {s : DebugState} {env : Environment} {value : VehiclePropValue}
      {result : Except SetValueError Unit} {properties : PropertyState} (hclock : env.clock = clock)
      (hset : s.properties.setValue env value = .ok (result, properties)) :
      HardwareStep readers clock s (.set value result) { s with properties }
  | event {s : DebugState} {env : Environment} {value : VehiclePropValue}
      (hclock : env.clock = clock) :
      HardwareStep readers clock s (.event value)
        { s with properties := s.properties.eventFromVehicleBus env value }
  | dump {s t : DebugState} {context : GetContext} {options : List String} {reply : DumpReply}
      (hclock : context.env.clock = clock)
      (hdump : s.dump readers context options = .ok (reply, t)) :
      HardwareStep readers clock s (.dump options reply) t

section Registrations

variable {readers : OptionReaders} {clock : Nat → Int} {env : Environment}
  {start s t : DebugState} {v : VehiclePropValue} {call : HardwareCall}

/-- An event of the vehicle bus is a write to the board. -/
theorem eventFromVehicleBus_eq (env : Environment) (v : VehiclePropValue) (s : PropertyState) :
    s.eventFromVehicleBus env v =
      s.withBoard (s.board.write v false .onValueChange).2 s.moments := rfl

/-- The registrations are those of the start. -/
def SameConfigs (start s : PropertyState) : Prop :=
  ∀ propId, s.mServerSidePropStore.registration propId =
    start.mServerSidePropStore.registration propId

/-- No change of the store changes a configuration. -/
theorem sameConfigs_keptByChanges (env : Environment) (start : PropertyState) :
    KeptByChanges env (SameConfigs start) where
  write _ updateStatus eventMode h propId :=
    (registration_writeNow updateStatus eventMode propId).trans (h propId)
  userHal h _ := h
  removeValue value h propId :=
    ((loses_removeValue _ value).registration propId).trans (h propId)
  removeValues removed h propId :=
    ((loses_removeValuesForProperty _ removed).registration propId).trans (h propId)

/-- A request changes no configuration. -/
theorem SameConfigs.setValue {start s t : PropertyState} {result : Except SetValueError Unit}
    (h : SameConfigs start s) (hset : s.setValue env v = .ok (result, t)) : SameConfigs start t :=
  PropertyState.leaves_setValue (sameConfigs_keptByChanges env start) v h result t hset

/-- A write changes no configuration. -/
theorem SameConfigs.writeNow {start s t : PropertyState} {result : Except SetValueError Unit}
    (h : SameConfigs start s) (hwrite : s.writeNow env v false .onValueChange = (result, t)) :
    SameConfigs start t := by
  have hkept := (sameConfigs_keptByChanges env start).write v false .onValueChange h
  rwa [hwrite] at hkept

/-- An event of the vehicle bus changes no configuration. -/
theorem SameConfigs.event {start s : PropertyState} (h : SameConfigs start s) :
    SameConfigs start (s.eventFromVehicleBus env v) := fun propId =>
  ((Board.write_advances false .onValueChange s.board v).registration propId).trans (h propId)

/-- A generated input changes no configuration. -/
theorem SameConfigs.generate {start s : PropertyState} (h : SameConfigs start s)
    (input : FakeInput) : SameConfigs start (s.generate env input) := by
  rw [generate_eq]
  exact h

/-- No call changes a configuration. -/
theorem SameConfigs.step (h : SameConfigs start.properties s.properties)
    (hstep : HardwareStep readers clock s call t) :
    SameConfigs start.properties t.properties := by
  cases hstep with
  | set _ hset => exact h.setValue hset
  | event _ => exact h.event
  | dump _ hdump =>
      cases dumpStep_of_dump hdump with
      | quiet _ | save _ | nothingSaved _ | vendorConfigs _ => exact h
      | set hset => exact h.setValue hset
      | restore _ hwrite | notRestored _ hwrite => exact h.writeNow hwrite
      | inject _ => exact h.event
      | generate _ _ => exact h.generate _
      | minMaxValue _ | supportedValues _ =>
          rw [DebugState.triggerSupportedValueChange]
          split <;> exact h

/-- A command is read alike where the same properties are registered. -/
theorem parsePair_congr {a b : VehiclePropertyStore}
    (h : ∀ propId, b.registration propId = a.registration propId) (options : List String) :
    parseDumpOptionPropIdAreaId readers b options =
      parseDumpOptionPropIdAreaId readers a options := by
  have hconfig (propId : Int) : b.getPropConfig propId = a.getPropConfig propId := by
    have hsame := h propId
    rw [registration, registration] at hsame
    rw [getPropConfig, getPropConfig]
    cases hb : b.getRecordLocked propId with
    | none =>
        rw [hb, Option.map_none, eq_comm, Option.map_eq_none_iff] at hsame
        rw [hsame]
    | some record =>
        rw [hb, Option.map_some, eq_comm, Option.map_eq_some_iff] at hsame
        obtain ⟨other, hother, hpair⟩ := hsame
        rw [hother]
        exact congrArg Except.ok (congrArg Prod.fst hpair).symm
  simp only [parseDumpOptionPropIdAreaId, hconfig]

end Registrations

/-- The bounds that a call gives, if it is a command that was accepted. -/
def boundsGiven (readers : OptionReaders) (store : VehiclePropertyStore) :
    HardwareCall → Option (PropIdAreaId × RawPropValues × RawPropValues)
  | .dump options (.minMaxValueSet _) =>
      (DebugState.parseSetMinMaxValue readers store options).toOption
  | _ => none

/-- The list of supported values that a call gives, if it is a command that was accepted. -/
def listGiven (readers : OptionReaders) (store : VehiclePropertyStore) :
    HardwareCall → Option (PropIdAreaId × List RawPropValues)
  | .dump options (.supportedValuesSet _) =>
      (DebugState.parseSetSupportedValues readers store options).toOption
  | _ => none

/-- The pair whose supported values a call changes. -/
def changedPair : HardwareCall → Option PropIdAreaId
  | .dump _ (.minMaxValueSet p) => some p
  | .dump _ (.supportedValuesSet p) => some p
  | _ => none

/-- What is given for a pair. -/
def givenFor {T : Type} (q : PropIdAreaId) (given : Option (PropIdAreaId × T)) : Option T :=
  given.bind fun e => if q = e.1 then some e.2 else none

section Supported

variable {readers : OptionReaders} {clock : Nat → Int} {start s t : DebugState}
  {call : HardwareCall} {calls : List HardwareCall}

/-- Telling of a change leaves the supported values. -/
@[simp] theorem trigger_supported (p : PropIdAreaId) (s : DebugState) :
    (DebugState.triggerSupportedValueChange p s).supported = s.supported := by
  rw [DebugState.triggerSupportedValueChange]
  split <;> rfl

/-- Telling of a change leaves the callback. -/
@[simp] theorem trigger_callback (p : PropIdAreaId) (s : DebugState) :
    (DebugState.triggerSupportedValueChange p s).mOnSupportedValueChangeCallback =
      s.mOnSupportedValueChangeCallback := by
  rw [DebugState.triggerSupportedValueChange]
  split <;> rfl

/-- The callback is told of a change where it is set. -/
@[simp] theorem trigger_changes (p : PropIdAreaId) (s : DebugState) :
    (DebugState.triggerSupportedValueChange p s).supportedValueChanges =
      s.supportedValueChanges ++ if s.mOnSupportedValueChangeCallback then [p] else [] := by
  rw [DebugState.triggerSupportedValueChange]
  split
  · rfl
  · rw [List.append_nil]

/-- What one call does to the supported values of all pairs. -/
structure GivesSupported (readers : OptionReaders) (store : VehiclePropertyStore)
    (call : HardwareCall) (s t : DebugState) : Prop where
  minValue : ∀ q, t.supported.mMinSupportedValueByPropIdAreaId.lookup q =
    ((givenFor q (boundsGiven readers store call)).map Prod.fst).or
      (s.supported.mMinSupportedValueByPropIdAreaId.lookup q)
  maxValue : ∀ q, t.supported.mMaxSupportedValueByPropIdAreaId.lookup q =
    ((givenFor q (boundsGiven readers store call)).map Prod.snd).or
      (s.supported.mMaxSupportedValueByPropIdAreaId.lookup q)
  supportedValues : ∀ q, t.supported.mSupportedValuesByPropIdAreaId.lookup q =
    (givenFor q (listGiven readers store call)).or
      (s.supported.mSupportedValuesByPropIdAreaId.lookup q)
  callback : t.mOnSupportedValueChangeCallback = s.mOnSupportedValueChangeCallback
  changes : t.supportedValueChanges = s.supportedValueChanges ++
    if s.mOnSupportedValueChangeCallback then (changedPair call).toList else []

/-- A call that gives nothing. -/
theorem givesSupported_of_none {store : VehiclePropertyStore}
    (hbounds : boundsGiven readers store call = none) (hlist : listGiven readers store call = none)
    (hpair : changedPair call = none) (hsupported : t.supported = s.supported)
    (hcallback : t.mOnSupportedValueChangeCallback = s.mOnSupportedValueChangeCallback)
    (hchanges : t.supportedValueChanges = s.supportedValueChanges) :
    GivesSupported readers store call s t := by
  refine ⟨fun q => ?_, fun q => ?_, fun q => ?_, hcallback, ?_⟩
  · rw [hbounds, hsupported]
    rfl
  · rw [hbounds, hsupported]
    rfl
  · rw [hlist, hsupported]
    rfl
  · rw [hpair, hchanges, Option.toList_none, ite_self, List.append_nil]

/-- What is given for a pair is given for no other. -/
theorem givenFor_some {T : Type} (p q : PropIdAreaId) (x : T) :
    givenFor q (some (p, x)) = if q = p then some x else none := rfl

/-- A part of what is given for a pair is given for no other. -/
theorem map_givenFor_some {T U : Type} (p q : PropIdAreaId) (x : T) (f : T → U) :
    (givenFor q (some (p, x))).map f = if q = p then some (f x) else none := by
  rw [givenFor_some]
  split <;> rfl

/-- The bounds that a command sets are those its texts give. -/
theorem boundsGiven_of_parse (hconfigs : SameConfigs start.properties s.properties)
    {options : List String} {p : PropIdAreaId} {bounds : RawPropValues × RawPropValues}
    (hparse : DebugState.parseSetMinMaxValue readers s.properties.mServerSidePropStore options =
      .ok (p, bounds)) :
    boundsGiven readers start.properties.mServerSidePropStore
      (.dump options (.minMaxValueSet p)) = some (p, bounds) := by
  rw [DebugState.parseSetMinMaxValue, parsePair_congr hconfigs] at hparse
  rw [boundsGiven, DebugState.parseSetMinMaxValue, hparse]
  rfl

/-- The list that a command sets is the one its texts give. -/
theorem listGiven_of_parse (hconfigs : SameConfigs start.properties s.properties)
    {options : List String} {p : PropIdAreaId} {list : List RawPropValues}
    (hparse : DebugState.parseSetSupportedValues readers s.properties.mServerSidePropStore
      options = .ok (p, list)) :
    listGiven readers start.properties.mServerSidePropStore
      (.dump options (.supportedValuesSet p)) = some (p, list) := by
  rw [DebugState.parseSetSupportedValues, parsePair_congr hconfigs] at hparse
  rw [listGiven, DebugState.parseSetSupportedValues, hparse]
  rfl

/-- A debug step sets the supported values that its texts give. -/
theorem givesSupported_of_dump {env : Environment} {options : List String} {reply : DumpReply}
    (hconfigs : SameConfigs start.properties s.properties)
    (hstep : DumpStep readers env s options reply t) :
    GivesSupported readers start.properties.mServerSidePropStore (.dump options reply) s t := by
  cases hstep with
  | quiet hquiet =>
      cases reply
      case shown | invalidOption | tooFewArguments | optionError | got | notSaved
        | inputError | minMaxValueNotSet | supportedValuesNotSet =>
        exact givesSupported_of_none rfl rfl rfl rfl rfl rfl
      all_goals exact hquiet.elim
  | set _ | save _ | nothingSaved _ | restore _ _ | notRestored _ _ | inject _ | generate _ _
  | vendorConfigs _ => exact givesSupported_of_none rfl rfl rfl rfl rfl rfl
  | @minMaxValue p minValue maxValue hparse =>
      refine ⟨fun q => ?_, fun q => ?_, fun q => ?_, trigger_callback .., trigger_changes ..⟩
      · rw [boundsGiven_of_parse hconfigs hparse, trigger_supported, map_givenFor_some]
        exact lookup_insert_or _ p q minValue
      · rw [boundsGiven_of_parse hconfigs hparse, trigger_supported, map_givenFor_some]
        exact lookup_insert_or _ p q maxValue
      · rw [trigger_supported]
        rfl
  | @supportedValues p list hparse =>
      refine ⟨fun q => ?_, fun q => ?_, fun q => ?_, trigger_callback .., trigger_changes ..⟩
      · rw [trigger_supported]
        rfl
      · rw [trigger_supported]
        rfl
      · rw [listGiven_of_parse hconfigs hparse, trigger_supported, givenFor_some]
        exact lookup_insert_or _ p q list

/-- Every step sets the supported values that its texts give. -/
theorem GivesSupported.of_step (hconfigs : SameConfigs start.properties s.properties)
    (hstep : HardwareStep readers clock s call t) :
    GivesSupported readers start.properties.mServerSidePropStore call s t := by
  cases hstep with
  | set _ _ | event _ => exact givesSupported_of_none rfl rfl rfl rfl rfl rfl
  | dump _ hdump => exact givesSupported_of_dump hconfigs (dumpStep_of_dump hdump)

/-- The bounds that were given last for a pair. -/
def lastBounds (readers : OptionReaders) (store : VehiclePropertyStore) (q : PropIdAreaId)
    (calls : List HardwareCall) : Option (RawPropValues × RawPropValues) :=
  (calls.filterMap fun call => givenFor q (boundsGiven readers store call)).getLast?

/-- The list that was given last for a pair. -/
def lastList (readers : OptionReaders) (store : VehiclePropertyStore) (q : PropIdAreaId)
    (calls : List HardwareCall) : Option (List RawPropValues) :=
  (calls.filterMap fun call => givenFor q (listGiven readers store call)).getLast?

/-- The callback is told of each change, in the order of the changes. -/
theorem changes_of_run (hrun : Path (HardwareStep readers clock) start calls s) :
    s.mOnSupportedValueChangeCallback = start.mOnSupportedValueChangeCallback ∧
      s.supportedValueChanges = start.supportedValueChanges ++
        if start.mOnSupportedValueChangeCallback then calls.filterMap changedPair else [] := by
  induction hrun with
  | nil => exact ⟨rfl, by simp⟩
  | @snoc s t calls call hrun hstep ih =>
      obtain ⟨hcallback, hchanges⟩ := ih
      have hconfigs := hrun.invariant (P := fun s => SameConfigs start.properties s.properties)
        (fun _ => rfl) fun _ _ _ h hstep => h.step hstep
      have hgives := GivesSupported.of_step hconfigs hstep
      refine ⟨hgives.callback.trans hcallback, ?_⟩
      rw [hgives.changes, hchanges, hcallback, List.append_assoc, List.filterMap_append]
      split
      · cases hpair : changedPair call with
        | none => rw [List.filterMap_cons_none hpair]; rfl
        | some p => rw [List.filterMap_cons_some hpair]; rfl
      · rw [List.append_nil]

/-- What a text says about a value of a type that can be supported. -/
def SaysValue (readers : OptionReaders) (propertyType : Option VehiclePropertyType)
    (text : String) (value : RawPropValues) : Prop :=
  match propertyType with
  | some .int32 => ∃ n, parseInt (-2 ^ 31) (2 ^ 31 - 1) text = some n ∧
      value = { int32Values := [n] }
  | some .int64 => ∃ n, parseInt (-2 ^ 63) (2 ^ 63 - 1) text = some n ∧
      value = { int64Values := [n] }
  | some .float => ∃ x, readers.parseFloat text = some x ∧ value = { floatValues := [x] }
  | _ => False

/-- A minimum that is not above a maximum. -/
def NotAbove (minValue maxValue : RawPropValues) : Prop :=
  (∀ min ∈ minValue.int32Values, ∀ max ∈ maxValue.int32Values, min ≤ max) ∧
    (∀ min ∈ minValue.int64Values, ∀ max ∈ maxValue.int64Values, min ≤ max) ∧
    ∀ min ∈ minValue.floatValues, ∀ max ∈ maxValue.floatValues, max.lt min = false

/-- The texts of a command: its name, a registered property, its area, which may be left out if
the next text is not the name of the option, and more texts. -/
def SaysPair (readers : OptionReaders) (store : VehiclePropertyStore) (options : List String)
    (p : PropIdAreaId) (texts : List String) : Prop :=
  ∃ command propIdStr, readers.parsePropId 1 propIdStr = .ok p.propId ∧
    store.IsRegistered p.propId ∧
    ((∃ flag areaIdStr, options = command :: propIdStr :: flag :: areaIdStr :: texts ∧
        equalsIgnoreCase flag "-a" = true ∧
        readers.parseAreaId 0 areaIdStr p.propId = .ok p.areaId) ∨
      options = command :: propIdStr :: texts ∧ p.areaId = 0 ∧
        ∀ text ∈ texts.head?, equalsIgnoreCase text "-a" = false)

/-- The texts of a command give a minimum and a maximum; what follows does not matter. -/
def SaysBounds (readers : OptionReaders) (store : VehiclePropertyStore) (options : List String)
    (p : PropIdAreaId) (minValue maxValue : RawPropValues) : Prop :=
  ∃ min max rest, SaysPair readers store options p (min :: max :: rest) ∧
    SaysValue readers (getPropType p.propId) min minValue ∧
    SaysValue readers (getPropType p.propId) max maxValue ∧ NotAbove minValue maxValue

/-- The texts of a command give one value or more. -/
def SaysList (readers : OptionReaders) (store : VehiclePropertyStore) (options : List String)
    (p : PropIdAreaId) (list : List RawPropValues) : Prop :=
  ∃ texts, texts ≠ [] ∧ SaysPair readers store options p texts ∧
    List.Forall₂ (SaysValue readers (getPropType p.propId)) texts list

/-- An integer that is read lies in the bounds. -/
theorem parseInt_bounds {min max : Int} {text : String} {n : Int}
    (h : parseInt min max text = some n) : min ≤ n ∧ n ≤ max := by
  rw [parseInt, Option.ite_none_left_eq_some] at h
  obtain ⟨hnot, h⟩ := h
  cases h
  omega

section Grammar

variable {store : VehiclePropertyStore} {options : List String} {index : Nat} {p : PropIdAreaId}

/-- Values are read exactly where there are enough texts, and each of them is read. -/
theorem parseOptionValues_eq_ok_iff {α : Type} {type : SupportedType α} {read : String → Option α}
    (hread : ∀ i s a, type.parse i s = .ok a ↔ read s = some a) {count : Nat} {values : List α} :
    parseOptionValues type options index count = .ok values ↔
      index + count ≤ options.length ∧
        List.Forall₂ (fun s a => read s = some a) ((options.drop index).take count) values := by
  rw [parseOptionValues]
  split
  · next h => exact iff_of_false (by simp) fun hall => absurd hall.1 (not_le.mpr h)
  · next h =>
      rw [mapM_eq_ok_iff, ← forall₂_zipIdx_iff index]
      simp only [mapError_eq_ok_iff, hread, not_lt.mp h, true_and]

/-- A minimum and a maximum are the first two texts. -/
theorem parseMinMaxValue_eq_ok_iff {α : Type} {type : SupportedType α} {read : String → Option α}
    (hread : ∀ i s a, type.parse i s = .ok a ↔ read s = some a)
    {minValue maxValue : RawPropValues} :
    parseMinMaxValue type options index = .ok (minValue, maxValue) ↔
      ∃ minStr maxStr rest min max, options.drop index = minStr :: maxStr :: rest ∧
        read minStr = some min ∧ read maxStr = some max ∧ type.above min max = false ∧
        minValue = type.createRawPropValues min ∧ maxValue = type.createRawPropValues max := by
  rw [parseMinMaxValue, bind_eq_ok_iff]
  simp only [parseOptionValues_eq_ok_iff hread]
  constructor
  · rintro ⟨values, ⟨hlength, hall⟩, h⟩
    rcases hdrop : options.drop index with _ | ⟨minStr, _ | ⟨maxStr, rest⟩⟩
    case cons.cons =>
      rw [hdrop] at hall
      obtain ⟨min, _, hmin, hrest, rfl⟩ := List.forall₂_cons_left_iff.mp hall
      obtain ⟨max, _, hmax, hnil, rfl⟩ := List.forall₂_cons_left_iff.mp hrest
      cases hnil
      simp only at h
      split at h
      · cases h
      · next habove =>
          cases h
          exact ⟨minStr, maxStr, rest, min, max, rfl, hmin, hmax, Bool.eq_false_iff.mpr habove,
            rfl, rfl⟩
    all_goals
      have hshort := congrArg List.length hdrop
      simp only [List.length_drop, List.length_nil, List.length_cons] at hshort
      omega
  · rintro ⟨minStr, maxStr, rest, min, max, hdrop, hmin, hmax, habove, rfl, rfl⟩
    refine ⟨[min, max], ⟨?_, ?_⟩, ?_⟩
    · have hlong := congrArg List.length hdrop
      simp only [List.length_drop, List.length_cons] at hlong
      omega
    · rw [hdrop]
      exact .cons hmin (.cons hmax .nil)
    · simp only [habove, Bool.false_eq_true, if_false]

/-- What is related to the elements by way of other elements is made of these. -/
theorem exists_map_of_forall₂ {α β γ : Type} {R : α → β → Prop} {f : β → γ} {xs : List α}
    {zs : List γ} (h : List.Forall₂ (fun x z => ∃ y, R x y ∧ z = f y) xs zs) :
    ∃ ys, List.Forall₂ R xs ys ∧ zs = ys.map f := by
  induction h with
  | nil => exact ⟨[], .nil, rfl⟩
  | cons hx _ ih =>
      obtain ⟨y, hy, rfl⟩ := hx
      obtain ⟨ys, hys, rfl⟩ := ih
      exact ⟨y :: ys, .cons hy hys, rfl⟩

/-- A list is made of all the texts. -/
theorem parseOptionsToSupportedValuesList_eq_ok_iff {α : Type} {type : SupportedType α}
    {read : String → Option α} (hread : ∀ i s a, type.parse i s = .ok a ↔ read s = some a)
    {list : List RawPropValues} :
    parseOptionsToSupportedValuesList type options index = .ok list ↔
      options.drop index ≠ [] ∧ List.Forall₂
        (fun s value => ∃ a, read s = some a ∧ value = type.createRawPropValues a)
        (options.drop index) list := by
  rw [parseOptionsToSupportedValuesList, bind_eq_ok_iff]
  simp only [parseOptionValues_eq_ok_iff hread]
  have htake : (options.drop index).take (options.length - index) = options.drop index :=
    List.take_of_length_le (List.length_drop ..).le
  rw [htake]
  constructor
  · rintro ⟨values, ⟨-, hall⟩, h⟩
    split at h
    · cases h
    · next hne =>
        cases h
        refine ⟨fun hnil => hne ?_, List.forall₂_map_right_iff.mpr
          (hall.imp fun s a hs => ⟨a, hs, rfl⟩)⟩
        rw [hnil] at hall
        exact List.forall₂_nil_left_iff.mp hall
  · rintro ⟨hne, hall⟩
    have hindex : index < options.length := by
      by_contra hle
      exact hne (List.drop_eq_nil_of_le (not_lt.mp hle))
    obtain ⟨values, hvalues, rfl⟩ := exists_map_of_forall₂ hall
    refine ⟨values, ⟨by omega, hvalues⟩, ?_⟩
    have hvaluesNe : values ≠ [] := by
      rintro rfl
      exact hne (List.forall₂_nil_right_iff.mp hvalues)
    rw [if_neg hvaluesNe]
    rfl

/-- Nothing is said of values of other types. -/
theorem not_saysValue {propertyType : Option VehiclePropertyType} {text : String}
    {value : RawPropValues} (h32 : propertyType = some .int32 → False)
    (h64 : propertyType = some .int64 → False) (hfloat : propertyType = some .float → False) :
    ¬SaysValue readers propertyType text value := by
  unfold SaysValue
  split
  · exact (h32 rfl).elim
  · exact (h64 rfl).elim
  · exact (hfloat rfl).elim
  · exact id

/-- The bounds are read by the type of the property. -/
theorem parseBoundsOf_eq_ok_iff {propertyType : Option VehiclePropertyType}
    {minValue maxValue : RawPropValues} :
    DebugState.parseBoundsOf readers propertyType options index = .ok (minValue, maxValue) ↔
      ∃ min max rest, options.drop index = min :: max :: rest ∧
        SaysValue readers propertyType min minValue ∧
        SaysValue readers propertyType max maxValue ∧ NotAbove minValue maxValue := by
  unfold DebugState.parseBoundsOf
  split
  · rw [parseMinMaxValue_eq_ok_iff safelyParseInt32_eq_ok_iff]
    constructor
    · rintro ⟨minStr, maxStr, rest, min, max, hdrop, hmin, hmax, habove, rfl, rfl⟩
      have hle : min ≤ max := not_lt.mp (of_decide_eq_false habove)
      exact ⟨minStr, maxStr, rest, hdrop, ⟨min, hmin, rfl⟩, ⟨max, hmax, rfl⟩,
        by simpa [NotAbove, SupportedType.int32] using hle⟩
    · rintro ⟨minStr, maxStr, rest, hdrop, ⟨min, hmin, rfl⟩, ⟨max, hmax, rfl⟩, hle⟩
      refine ⟨minStr, maxStr, rest, min, max, hdrop, hmin, hmax, decide_eq_false ?_, rfl, rfl⟩
      exact not_lt.mpr (hle.1 min (List.mem_singleton_self _) max (List.mem_singleton_self _))
  · rw [parseMinMaxValue_eq_ok_iff safelyParseInt64_eq_ok_iff]
    constructor
    · rintro ⟨minStr, maxStr, rest, min, max, hdrop, hmin, hmax, habove, rfl, rfl⟩
      have hle : min ≤ max := not_lt.mp (of_decide_eq_false habove)
      exact ⟨minStr, maxStr, rest, hdrop, ⟨min, hmin, rfl⟩, ⟨max, hmax, rfl⟩,
        by simpa [NotAbove, SupportedType.int64] using hle⟩
    · rintro ⟨minStr, maxStr, rest, hdrop, ⟨min, hmin, rfl⟩, ⟨max, hmax, rfl⟩, hle⟩
      refine ⟨minStr, maxStr, rest, min, max, hdrop, hmin, hmax, decide_eq_false ?_, rfl, rfl⟩
      exact not_lt.mpr (hle.2.1 min (List.mem_singleton_self _) max (List.mem_singleton_self _))
  · rw [parseMinMaxValue_eq_ok_iff safelyParseFloat_eq_ok_iff]
    constructor
    · rintro ⟨minStr, maxStr, rest, min, max, hdrop, hmin, hmax, habove, rfl, rfl⟩
      exact ⟨minStr, maxStr, rest, hdrop, ⟨min, hmin, rfl⟩, ⟨max, hmax, rfl⟩,
        by simpa [NotAbove, SupportedType.float] using habove⟩
    · rintro ⟨minStr, maxStr, rest, hdrop, ⟨min, hmin, rfl⟩, ⟨max, hmax, rfl⟩, hle⟩
      exact ⟨minStr, maxStr, rest, min, max, hdrop, hmin, hmax,
        hle.2.2 min (List.mem_singleton_self _) max (List.mem_singleton_self _), rfl, rfl⟩
  · next h32 h64 hfloat =>
      refine iff_of_false (by simp) ?_
      rintro ⟨_, _, _, -, hmin, -⟩
      exact not_saysValue h32 h64 hfloat hmin

/-- A list is read exactly where there are texts, and each of them says a value. -/
theorem parseListOf_eq_ok_iff {propertyType : Option VehiclePropertyType}
    {list : List RawPropValues} :
    DebugState.parseListOf readers propertyType options index = .ok list ↔
      options.drop index ≠ [] ∧
        List.Forall₂ (SaysValue readers propertyType) (options.drop index) list := by
  unfold DebugState.parseListOf
  split
  · exact parseOptionsToSupportedValuesList_eq_ok_iff safelyParseInt32_eq_ok_iff
  · exact parseOptionsToSupportedValuesList_eq_ok_iff safelyParseInt64_eq_ok_iff
  · exact parseOptionsToSupportedValuesList_eq_ok_iff safelyParseFloat_eq_ok_iff
  · next h32 h64 hfloat =>
      refine iff_of_false (by simp) ?_
      rintro ⟨hne, hall⟩
      obtain ⟨text, texts, hdrop⟩ := List.exists_cons_of_ne_nil hne
      rw [hdrop] at hall
      obtain ⟨value, _, hvalue, -⟩ := List.forall₂_cons_left_iff.mp hall
      exact not_saysValue h32 h64 hfloat hvalue

/-- The config of a property is found exactly if the property is registered. -/
theorem exists_getPropConfig_iff {propId : Int} :
    (∃ config, store.getPropConfig propId = .ok config) ↔ store.IsRegistered propId := by
  rw [getPropConfig, IsRegistered]
  cases store.getRecordLocked propId with
  | none =>
      refine iff_of_false ?_ (by simp)
      rintro ⟨config, h⟩
      cases h
  | some record => exact iff_of_true ⟨_, rfl⟩ rfl

/-- The pair of a command, with the texts that follow it. -/
theorem parsePair_eq_ok_iff {texts : List String} (hsize : 2 ≤ options.length) :
    (∃ index, parseDumpOptionPropIdAreaId readers store options = .ok (p, index) ∧
      options.drop index = texts) ↔ SaysPair readers store options p texts := by
  obtain ⟨command, propIdStr, rest, rfl⟩ : ∃ command propIdStr rest,
      options = command :: propIdStr :: rest := by
    rcases options with _ | ⟨command, _ | ⟨propIdStr, rest⟩⟩
    · exact absurd hsize (by simp)
    · exact absurd hsize (by simp)
    · exact ⟨command, propIdStr, rest, rfl⟩
  obtain ⟨propId, areaId⟩ := p
  constructor
  · rintro ⟨index, h, rfl⟩
    rw [parseDumpOptionPropIdAreaId] at h
    simp only [List.getD_cons_succ, List.getD_cons_zero] at h
    split at h
    · cases h
    next id hid =>
    split at h
    · cases h
    next config hconfig =>
    have hregistered := exists_getPropConfig_iff.mp ⟨config, hconfig⟩
    split at h
    · next hflag =>
        rcases rest with _ | ⟨flag, _ | ⟨areaIdStr, texts⟩⟩
        · exact absurd hflag (by decide)
        · exact absurd h (by simp)
        · simp only [List.length_cons, List.getD_cons_succ, List.getD_cons_zero] at h hflag
          rw [if_pos (by omega)] at h
          split at h
          · cases h
          · next areaId' harea =>
              cases h
              exact ⟨command, propIdStr, hid, hregistered,
                Or.inl ⟨flag, areaIdStr, rfl, hflag, parseAreaId_eq_ok_iff.mp harea⟩⟩
    · next hflag =>
        cases h
        refine ⟨command, propIdStr, hid, hregistered, Or.inr ⟨rfl, rfl, fun text htext => ?_⟩⟩
        rcases rest with _ | ⟨flag, texts⟩
        · cases htext
        · cases htext
          exact Bool.eq_false_iff.mpr hflag
  · rintro ⟨_, _, hid, hregistered, ⟨flag, areaIdStr, heq, hflag, harea⟩ | ⟨heq, hzero, hnone⟩⟩
    · cases heq
      obtain ⟨config, hconfig⟩ := exists_getPropConfig_iff.mpr hregistered
      refine ⟨4, ?_, rfl⟩
      simp [parseDumpOptionPropIdAreaId, hid, hconfig, hflag, parseAreaId_eq_ok_iff.mpr harea]
    · cases heq
      cases hzero
      obtain ⟨config, hconfig⟩ := exists_getPropConfig_iff.mpr hregistered
      have hflag : equalsIgnoreCase (texts[0]?.getD "") "-a" = false := by
        cases texts with
        | nil => decide
        | cons text texts => exact hnone text rfl
      refine ⟨2, ?_, rfl⟩
      simp [parseDumpOptionPropIdAreaId, hid, hconfig, hflag]

/-- A command for a pair has two texts more. -/
theorem SaysPair.length_le {texts : List String} (h : SaysPair readers store options p texts) :
    texts.length + 2 ≤ options.length := by
  obtain ⟨_, _, _, _, ⟨_, _, rfl, _⟩ | ⟨rfl, _⟩⟩ := h
  · simp
  · simp

/-- The command is accepted exactly if its texts give a minimum and a maximum. -/
theorem parseSetMinMaxValue_eq_ok_iff {minValue maxValue : RawPropValues} :
    DebugState.parseSetMinMaxValue readers store options = .ok (p, minValue, maxValue) ↔
      SaysBounds readers store options p minValue maxValue := by
  rw [DebugState.parseSetMinMaxValue]
  split
  · next hsize =>
      refine iff_of_false (by simp) ?_
      rintro ⟨min, max, rest, hpair, -⟩
      have hlong := hpair.length_le
      simp only [List.length_cons] at hlong
      omega
  · next hsize =>
      constructor
      · intro h
        obtain ⟨⟨q, index⟩, hpair, h⟩ := bind_eq_ok_iff.mp h
        obtain ⟨bounds, hbounds, h⟩ := bind_eq_ok_iff.mp h
        cases h
        obtain ⟨min, max, rest, hdrop, hmin, hmax, hle⟩ := parseBoundsOf_eq_ok_iff.mp hbounds
        exact ⟨min, max, rest, (parsePair_eq_ok_iff (by omega)).mp ⟨index, hpair, hdrop⟩, hmin,
          hmax, hle⟩
      · rintro ⟨min, max, rest, hpair, hmin, hmax, hle⟩
        obtain ⟨index, hparse, hdrop⟩ := (parsePair_eq_ok_iff (by omega)).mpr hpair
        have hbounds := parseBoundsOf_eq_ok_iff.mpr ⟨min, max, rest, hdrop, hmin, hmax, hle⟩
        exact bind_eq_ok_iff.mpr ⟨_, hparse, bind_eq_ok_iff.mpr ⟨_, hbounds, rfl⟩⟩

/-- The command is accepted exactly if its texts give one value or more. -/
theorem parseSetSupportedValues_eq_ok_iff {list : List RawPropValues} :
    DebugState.parseSetSupportedValues readers store options = .ok (p, list) ↔
      SaysList readers store options p list := by
  rw [DebugState.parseSetSupportedValues]
  split
  · next hsize =>
      refine iff_of_false (by simp) ?_
      rintro ⟨texts, hne, hpair, -⟩
      have hlong := hpair.length_le
      have hpos := List.length_pos_iff.mpr hne
      omega
  · next hsize =>
      constructor
      · intro h
        obtain ⟨⟨q, index⟩, hpair, h⟩ := bind_eq_ok_iff.mp h
        obtain ⟨list, hlist, h⟩ := bind_eq_ok_iff.mp h
        cases h
        obtain ⟨hne, hall⟩ := parseListOf_eq_ok_iff.mp hlist
        exact ⟨_, hne, (parsePair_eq_ok_iff (by omega)).mp ⟨index, hpair, rfl⟩, hall⟩
      · rintro ⟨texts, hne, hpair, hall⟩
        obtain ⟨index, hparse, rfl⟩ := (parsePair_eq_ok_iff (by omega)).mpr hpair
        have hlist := parseListOf_eq_ok_iff.mpr ⟨hne, hall⟩
        exact bind_eq_ok_iff.mpr ⟨_, hparse, bind_eq_ok_iff.mpr ⟨_, hlist, rfl⟩⟩

/-- An accepted command gives the bounds that its texts say. -/
theorem boundsGiven_eq_some_iff {minValue maxValue : RawPropValues} :
    boundsGiven readers store call = some (p, minValue, maxValue) ↔
      ∃ options q, call = .dump options (.minMaxValueSet q) ∧
        SaysBounds readers store options p minValue maxValue := by
  unfold boundsGiven
  split
  · next options q =>
      rw [toOption_eq_some_iff, parseSetMinMaxValue_eq_ok_iff]
      constructor
      · exact fun h => ⟨options, q, rfl, h⟩
      · rintro ⟨_, _, heq, h⟩
        cases heq
        exact h
  · next hother =>
      refine iff_of_false (by simp) ?_
      rintro ⟨options, q, heq, -⟩
      exact hother options q heq

/-- An accepted command gives the list that its texts say. -/
theorem listGiven_eq_some_iff {list : List RawPropValues} :
    listGiven readers store call = some (p, list) ↔
      ∃ options q, call = .dump options (.supportedValuesSet q) ∧
        SaysList readers store options p list := by
  unfold listGiven
  split
  · next options q =>
      rw [toOption_eq_some_iff, parseSetSupportedValues_eq_ok_iff]
      constructor
      · exact fun h => ⟨options, q, rfl, h⟩
      · rintro ⟨_, _, heq, h⟩
        cases heq
        exact h
  · next hother =>
      refine iff_of_false (by simp) ?_
      rintro ⟨options, q, heq, -⟩
      exact hother options q heq

end Grammar

/-- A single value of a type that can be supported. -/
def IsSupportedValue (propertyType : Option VehiclePropertyType) (value : RawPropValues) : Prop :=
  match propertyType with
  | some .int32 => ∃ n : Int, value = { int32Values := [n] } ∧ -2 ^ 31 ≤ n ∧ n ≤ 2 ^ 31 - 1
  | some .int64 => ∃ n : Int, value = { int64Values := [n] } ∧ -2 ^ 63 ≤ n ∧ n ≤ 2 ^ 63 - 1
  | some .float => ∃ x, value = { floatValues := [x] }
  | _ => False

/-- What a text says has the type of the property. -/
theorem isSupportedValue_of_said {propertyType : Option VehiclePropertyType} {text : String}
    {value : RawPropValues} (h : SaysValue readers propertyType text value) :
    IsSupportedValue propertyType value := by
  unfold SaysValue at h
  split at h
  · obtain ⟨n, hn, rfl⟩ := h
    exact ⟨n, rfl, parseInt_bounds hn⟩
  · obtain ⟨n, hn, rfl⟩ := h
    exact ⟨n, rfl, parseInt_bounds hn⟩
  · obtain ⟨x, -, rfl⟩ := h
    exact ⟨x, rfl⟩
  · exact h.elim

/-- The values of a list fit the type of the property. -/
theorem SaysList.isSupported {store : VehiclePropertyStore} {options : List String}
    {p : PropIdAreaId} {list : List RawPropValues} (h : SaysList readers store options p list) :
    list ≠ [] ∧ ∀ value ∈ list, IsSupportedValue (getPropType p.propId) value := by
  obtain ⟨texts, hne, -, hall⟩ := h
  constructor
  · rintro rfl
    exact hne (List.forall₂_nil_right_iff.mp hall)
  · clear hne
    induction hall with
    | nil => exact fun _ h => absurd h List.not_mem_nil
    | cons hsays _ ih => exact List.forall_mem_cons.mpr ⟨isSupportedValue_of_said hsays, ih⟩

/-- What was given last for a pair was given for it by a call. -/
theorem exists_of_getLast? {T : Type} {q : PropIdAreaId} {x : T}
    {given : HardwareCall → Option (PropIdAreaId × T)}
    (h : (calls.filterMap fun call => givenFor q (given call)).getLast? = some x) :
    ∃ call ∈ calls, given call = some (q, x) := by
  obtain ⟨call, hcall, hgiven⟩ := List.mem_filterMap.mp (List.mem_of_getLast? h)
  obtain ⟨⟨p, y⟩, hsome, hif⟩ := Option.bind_eq_some_iff.mp hgiven
  split at hif
  · next hq =>
      cases hif
      exact ⟨call, hcall, hq ▸ hsome⟩
  · cases hif

/-- The supported values after some calls. -/
structure SupportedAfter (readers : OptionReaders) (start : DebugState) (calls : List HardwareCall)
    (s : DebugState) : Prop where
  minValue : ∀ q, s.supported.mMinSupportedValueByPropIdAreaId.lookup q =
    ((lastBounds readers start.properties.mServerSidePropStore q calls).map Prod.fst).or
      (start.supported.mMinSupportedValueByPropIdAreaId.lookup q)
  maxValue : ∀ q, s.supported.mMaxSupportedValueByPropIdAreaId.lookup q =
    ((lastBounds readers start.properties.mServerSidePropStore q calls).map Prod.snd).or
      (start.supported.mMaxSupportedValueByPropIdAreaId.lookup q)
  supportedValues : ∀ q, s.supported.mSupportedValuesByPropIdAreaId.lookup q =
    (lastList readers start.properties.mServerSidePropStore q calls).or
      (start.supported.mSupportedValuesByPropIdAreaId.lookup q)
  bounds : ∀ q minValue maxValue,
    lastBounds readers start.properties.mServerSidePropStore q calls = some (minValue, maxValue) →
      s.supported.getMinMaxSupportedValue q = .ok (some minValue, some maxValue) ∧
        IsSupportedValue (getPropType q.propId) minValue ∧
        IsSupportedValue (getPropType q.propId) maxValue ∧ NotAbove minValue maxValue ∧
        ∃ options p, .dump options (.minMaxValueSet p) ∈ calls ∧
          SaysBounds readers start.properties.mServerSidePropStore options q minValue maxValue
  list : ∀ q list, lastList readers start.properties.mServerSidePropStore q calls = some list →
    s.supported.getSupportedValuesLists [q] = [.ok list] ∧ list ≠ [] ∧
      (∀ value ∈ list, IsSupportedValue (getPropType q.propId) value) ∧
      ∃ options p, .dump options (.supportedValuesSet p) ∈ calls ∧
        SaysList readers start.properties.mServerSidePropStore options q list
  changes : s.supportedValueChanges = start.supportedValueChanges ++
    if start.mOnSupportedValueChangeCallback then calls.filterMap changedPair else []

/-- After a run of any calls, the bounds and the list of a pair are those that a command gave
last, which have the type of the property, or else those of the start; and the callback was told
of each of the changes. -/
theorem supported_of_run (hrun : Path (HardwareStep readers clock) start calls s) :
    SupportedAfter readers start calls s := by
  have hlast {T : Type} {O : DebugState → Option T} {word : HardwareCall → Option T}
      (hword : ∀ t call u, GivesSupported readers start.properties.mServerSidePropStore call t u →
        O u = (word call).or (O t)) : O s = ((calls.filterMap word).getLast?).or (O start) :=
    hrun.lastWord (I := fun s => SameConfigs start.properties s.properties) (fun _ => rfl)
      (fun _ _ _ h hstep => h.step hstep)
      fun _ _ _ h hstep => hword _ _ _ (GivesSupported.of_step h hstep)
  have hmin (q : PropIdAreaId) : s.supported.mMinSupportedValueByPropIdAreaId.lookup q =
      ((lastBounds readers start.properties.mServerSidePropStore q calls).map Prod.fst).or
        (start.supported.mMinSupportedValueByPropIdAreaId.lookup q) := by
    rw [lastBounds, ← List.getLast?_map, List.map_filterMap]
    exact hlast fun _ _ _ h => h.minValue q
  have hmax (q : PropIdAreaId) : s.supported.mMaxSupportedValueByPropIdAreaId.lookup q =
      ((lastBounds readers start.properties.mServerSidePropStore q calls).map Prod.snd).or
        (start.supported.mMaxSupportedValueByPropIdAreaId.lookup q) := by
    rw [lastBounds, ← List.getLast?_map, List.map_filterMap]
    exact hlast fun _ _ _ h => h.maxValue q
  have hlist (q : PropIdAreaId) : s.supported.mSupportedValuesByPropIdAreaId.lookup q =
      (lastList readers start.properties.mServerSidePropStore q calls).or
        (start.supported.mSupportedValuesByPropIdAreaId.lookup q) :=
    hlast fun _ _ _ h => h.supportedValues q
  refine ⟨hmin, hmax, hlist, fun q minValue maxValue h => ⟨?_, ?_⟩, fun q list h => ⟨?_, ?_⟩,
    (changes_of_run hrun).2⟩
  · have hmin := hmin q
    have hmax := hmax q
    rw [h, Option.map_some, Option.some_or] at hmin hmax
    rw [SupportedValues.getMinMaxSupportedValue, hmin, hmax]
  · obtain ⟨call, hcall, hgiven⟩ := exists_of_getLast? h
    obtain ⟨options, p, rfl, hsays⟩ := boundsGiven_eq_some_iff.mp hgiven
    obtain ⟨_, _, _, _, hmin, hmax, hle⟩ := id hsays
    exact ⟨isSupportedValue_of_said hmin, isSupportedValue_of_said hmax, hle, options, p, hcall,
      hsays⟩
  · have hlist := hlist q
    rw [h, Option.some_or] at hlist
    rw [SupportedValues.getSupportedValuesLists, List.map_singleton, hlist]
  · obtain ⟨call, hcall, hgiven⟩ := exists_of_getLast? h
    obtain ⟨options, p, rfl, hsays⟩ := listGiven_eq_some_iff.mp hgiven
    obtain ⟨hne, hvalues⟩ := SaysList.isSupported hsays
    exact ⟨hne, hvalues, options, p, hcall, hsays⟩

/-- A call of the debug command whose names are those of the fan. -/
def fanContext : GetContext := { now := 5, env := .still }

/-- A command gives the fan of a row new bounds, and the callback is told. The other row keeps
those of its declaration. -/
theorem fan_bounds_after_command : ∃ hardware t,
    HardwareState.init .still (.ascending Int) 0 fanDeclarations = .ok hardware ∧
    DebugState.dump fanReaders fanContext
      ["--set-minmaxvalue", "HVAC_FAN_SPEED", "-a", "4", "2", "5"] ⟨hardware, ∅, true, [], false⟩ =
        .ok (.minMaxValueSet ⟨hvacFanSpeedId, 4⟩, t) ∧
    SupportedAfter fanReaders ⟨hardware, ∅, true, [], false⟩
      [.dump ["--set-minmaxvalue", "HVAC_FAN_SPEED", "-a", "4", "2", "5"]
        (.minMaxValueSet ⟨hvacFanSpeedId, 4⟩)] t ∧
    t.supported.getMinMaxSupportedValue ⟨hvacFanSpeedId, 4⟩ =
      .ok (some { int32Values := [2] }, some { int32Values := [5] }) ∧
    t.supported.getMinMaxSupportedValue ⟨hvacFanSpeedId, 1⟩ =
      .ok (some { int32Values := [1] }, some { int32Values := [7] }) ∧
    t.supportedValueChanges = [⟨hvacFanSpeedId, 4⟩] := by
  obtain ⟨hardware, t, hinit, hdump, hset, hkept, hchanges⟩ : ∃ hardware t,
      HardwareState.init .still (.ascending Int) 0 fanDeclarations = .ok hardware ∧
      DebugState.dump fanReaders fanContext
        ["--set-minmaxvalue", "HVAC_FAN_SPEED", "-a", "4", "2", "5"]
        ⟨hardware, ∅, true, [], false⟩ = .ok (.minMaxValueSet ⟨hvacFanSpeedId, 4⟩, t) ∧
      t.supported.getMinMaxSupportedValue ⟨hvacFanSpeedId, 4⟩ =
        .ok (some { int32Values := [2] }, some { int32Values := [5] }) ∧
      t.supported.getMinMaxSupportedValue ⟨hvacFanSpeedId, 1⟩ =
        .ok (some { int32Values := [1] }, some { int32Values := [7] }) ∧
      t.supportedValueChanges = [⟨hvacFanSpeedId, 4⟩] :=
    ⟨_, _, rfl, rfl, rfl, rfl, rfl⟩
  exact ⟨hardware, t, hinit, hdump, supported_of_run (.single (.dump rfl hdump)), hset, hkept,
    hchanges⟩

end Supported

/-- A register with a saved copy of its content. -/
structure Clipboard where
  current : Option RawPropValues
  saved : Option RawPropValues

/-- What a call does to the register of a property in an area. -/
def Clipboard.next (p : PropIdAreaId) (c : Clipboard) : HardwareCall → Clipboard
  | .set value result => { c with current := (acceptedPayload p (value, result)).or c.current }
  | .dump _ (.set prop result) =>
      { c with current := (acceptedPayload p (prop, result)).or c.current }
  | .dump _ (.saved q) => if q = p then { c with saved := c.current } else c
  | .dump _ (.restored q) => if q = p then { current := c.saved, saved := none } else c
  | _ => c

/-- The answers that the register allows: what is there can be saved, what is saved can be
restored, and a restore fails only where nothing is saved. -/
def Clipboard.Allows (p : PropIdAreaId) (c : Clipboard) : HardwareCall → Prop
  | .dump _ (.saved q) => q = p → c.current.isSome
  | .dump _ (.restored q) => q = p → c.saved.isSome
  | .dump _ (.nothingSaved q) => q = p → c.saved = none
  | .dump _ (.notRestored _) => False
  | _ => True

/-- A step of the register. -/
structure ClipboardStep (p : PropIdAreaId) (c : Clipboard) (call : HardwareCall)
    (d : Clipboard) : Prop where
  allows : c.Allows p call
  next : d = c.next p call

/-- The register of a property in an area, with what is saved of it. -/
def DebugState.clipboard (p : PropIdAreaId) (s : DebugState) : Clipboard where
  current := s.properties.payloadAt p
  saved := (s.mSavedProps.lookup p).map VehiclePropValue.value

/-- The event that a call brings to the store with its own time. -/
def eventOf (readers : OptionReaders) : HardwareCall → Option VehiclePropValue
  | .event value => some value
  | .dump options (.injected _) => injectedValue readers options
  | _ => none

/-- Events are of other properties and not later than the present. -/
def EventsElsewhere (readers : OptionReaders) (clock : Nat → Int) (p : PropIdAreaId)
    (s : DebugState) (call : HardwareCall) : Prop :=
  ∀ v, eventOf readers call = some v → v.prop ≠ p.propId ∧ v.timestamp ≤ clock s.properties.moments

/-- What holds in a run of calls: the saved values are of configured areas of their properties. -/
structure Debugging (clock : Nat → Int) (start s : DebugState) : Prop where
  running : Running clock start.properties s.properties
  saved : ∀ q x, s.mSavedProps.lookup q = some x → x.prop = q.propId ∧
    HasArea start.properties x.prop x.areaId ∧ (isGlobalProp q.propId = false → x.areaId = q.areaId)

section Clipboards

variable {readers : OptionReaders} {clock : Nat → Int} {env : Environment}
  {base s t : PropertyState} {v x : VehiclePropValue} {p : PropIdAreaId}

/-- An event of the vehicle bus that is not from the future keeps a running state. -/
theorem Running.event (h : Running clock base s) (hv : v.timestamp ≤ clock s.moments) :
    Running clock base (s.eventFromVehicleBus env v) := by
  have hadv := Board.write_advances false .onValueChange s.board v
  rw [eventFromVehicleBus_eq]
  refine ⟨Board.zoned_write h.zoned false .onValueChange v, fun propId recId y hy => ?_,
    hadv.callback.trans h.callback, h.userHal,
    fun propId => (hadv.registration propId).trans (h.registration propId), h.dependents⟩
  rcases hadv.stored propId recId with hsame | ⟨⟨new, hnew, hle⟩, -⟩
  · exact h.timely propId recId y (hsame.symm.trans hy)
  · cases hnew.symm.trans hy
    exact hle.trans hv

/-- An input only takes some time. -/
theorem Running.generate (h : Running env.clock base s) (input : FakeInput) :
    Running env.clock base (s.generate env input) := by
  rw [generate_eq]
  have hmono := env.monotone (Nat.le_add_right s.moments 2)
  exact ⟨h.zoned, fun propId recId x hx => (h.timely propId recId x hx).trans hmono, h.callback,
    h.userHal, h.registration, h.dependents⟩

/-- A generated input leaves the stored payloads. -/
theorem payloadAt_generate (input : FakeInput) :
    (s.generate env input).payloadAt p = s.payloadAt p := by
  rw [generate_eq]
  rfl

/-- An event leaves the payloads of other properties. -/
theorem payloadAt_event (hne : v.prop ≠ p.propId) :
    (s.eventFromVehicleBus env v).payloadAt p = s.payloadAt p :=
  payloadAt_of_stored ((Board.spares_write hne false .onValueChange s.board).stored _)

/-- A value that is read is stored. -/
theorem stored_of_readValue (h : s.mServerSidePropStore.readValue v = .ok x) :
    ∃ recId, s.mServerSidePropStore.recordIdOf v = some recId ∧
      s.mServerSidePropStore.stored v.prop recId = some x := by
  rw [readValue] at h
  rcases hrecord : s.mServerSidePropStore.getRecordLocked v.prop with _ | record
  · rw [hrecord] at h
    cases h
  · rw [hrecord] at h
    refine ⟨getRecordIdLocked v record, recordIdOf_of_record hrecord, ?_⟩
    rw [stored_of_record hrecord]
    simp only [readValueLocked] at h
    split at h
    · next hlookup =>
        cases h
        exact hlookup
    · cases h

/-- A value of a configured area can be written at any later moment, also one with a token. -/
theorem Running.writable_now (h : Running env.clock base s) (harea : HasArea base v.prop v.areaId) :
    s.mServerSidePropStore.Writable (env.stamped s.moments v) := by
  have harea := (h.hasArea_iff v.prop v.areaId).mpr harea
  refine ⟨harea.registered, harea.configured, ?_⟩
  rintro ⟨old, hold, hlt⟩
  rw [storedFor] at hold
  obtain ⟨recId, -, hold⟩ := Option.bind_eq_some_iff.mp hold
  exact absurd hlt (not_lt.mpr (h.timely _ _ _ hold))

/-- A saved value is written as any other value, and it is always accepted. -/
theorem Running.restores (h : Running env.clock base s) (harea : HasArea base x.prop x.areaId) :
    ∃ u, s.writeNow env x false .onValueChange = (.ok (), u) ∧ Running env.clock base u ∧
      ∀ p : PropIdAreaId, isGlobalProp p.propId = false →
        u.payloadAt p = if x.propIdAreaId = p then some x.value else s.payloadAt p := by
  have hw := h.writable_now harea
  refine ⟨_, ?_, (running_keptByChanges env base).write x false .onValueChange h, fun p hp => ?_⟩
  · rw [PropertyState.writeNow_eq, Board.write_of_writable hw]
  · change ((s.board.own env s.moments x).store.stored p.propId ⟨p.areaId, 0⟩).map _ = _
    by_cases hprop : x.prop = p.propId
    · rw [stored_own h.zoned (hprop ▸ hp) hw]
      by_cases hx : x.propIdAreaId = p
      · subst hx
        rw [if_pos ⟨rfl, rfl⟩, if_pos rfl]
        rfl
      · rw [if_neg hx, if_neg fun hkey => hx ?_]
        · rfl
        · exact (congrArg₂ PropIdAreaId.mk hkey.1 (congrArg RecordId.area hkey.2)).symm
    · rw [stored_own_of_ne hprop, if_neg fun hx => hprop (congrArg PropIdAreaId.propId hx)]
      rfl

end Clipboards

section ClipboardSteps

variable {readers : OptionReaders} {clock : Nat → Int} {env : Environment}
  {start s t : DebugState} {properties : PropertyState} {v x : VehiclePropValue}
  {result : Except SetValueError Unit} {p q : PropIdAreaId} {call : HardwareCall}

/-- A set, by a client or by a command. -/
theorem Debugging.set (h : Debugging env.clock start s)
    (hdependents : ∀ q ∈ start.properties.hvacPowerDependentProps, isGlobalProp q = false)
    (hp : IsRegister p.propId) (hset : s.properties.setValue env v = .ok (result, properties)) :
    Debugging env.clock start { s with properties } ∧
      DebugState.clipboard p { s with properties } =
        { s.clipboard p with
          current := (acceptedPayload p (v, result)).or (s.clipboard p).current } := by
  have hpayload := payload_of_setValue h.running (h.running.dependents ▸ hdependents) hp hset
  refine ⟨⟨?_, h.saved⟩, congrArg₂ Clipboard.mk hpayload rfl⟩
  exact PropertyState.leaves_setValue (running_keptByChanges env start.properties) v h.running
    result properties hset

/-- An event of another property. -/
theorem Debugging.event (h : Debugging clock start s) (hprop : v.prop ≠ p.propId)
    (htime : v.timestamp ≤ clock s.properties.moments) :
    Debugging clock start { s with properties := s.properties.eventFromVehicleBus env v } ∧
      DebugState.clipboard p { s with properties := s.properties.eventFromVehicleBus env v } =
        s.clipboard p :=
  ⟨⟨h.running.event htime, h.saved⟩, congrArg₂ Clipboard.mk (payloadAt_event hprop) rfl⟩

/-- What is stored is saved. -/
theorem Debugging.save (h : Debugging clock start s) (hzone : isGlobalProp p.propId = false)
    (hread : s.properties.mServerSidePropStore.readValue v = .ok x) (options : List String) :
    Debugging clock start { s with mSavedProps := s.mSavedProps.insert v.propIdAreaId x } ∧
      ClipboardStep p (s.clipboard p) (.dump options (.saved v.propIdAreaId))
        (DebugState.clipboard p { s with
          mSavedProps := s.mSavedProps.insert v.propIdAreaId x }) := by
  obtain ⟨recId, hid, hstored⟩ := stored_of_readValue hread
  have hprop := (h.running.zoned.valid.keyed v.prop recId x hstored).1
  have hrecord : isGlobalProp v.prop = false → recId = ⟨v.areaId, 0⟩ ∧ x.areaId = v.areaId := by
    intro hv
    rw [h.running.zoned.recordIdOf_eq (Zoned.isRegistered_of_stored hstored) hv,
      Option.some.injEq] at hid
    have harea := congrArg RecordId.area (hid.trans (h.running.zoned.key hv hstored))
    exact ⟨hid.symm, harea.symm⟩
  have hpayload (heq : v.propIdAreaId = p) : (s.clipboard p).current = some x.value := by
    subst heq
    obtain ⟨rfl, -⟩ := hrecord hzone
    exact congrArg (Option.map VehiclePropValue.value) hstored
  refine ⟨⟨h.running, fun q y hq => ?_⟩, fun heq => ?_, ?_⟩
  · change Finmap.lookup q (Finmap.insert v.propIdAreaId x s.mSavedProps) = some y at hq
    rw [UnorderedMap.lookup_insert_eq] at hq
    split at hq
    · next heq =>
        subst heq
        cases hq
        exact ⟨hprop, hprop ▸ h.running.hasArea_of_stored hstored, fun hv => (hrecord hv).2⟩
    · exact h.saved q y hq
  · rw [hpayload heq]
    rfl
  · rw [Clipboard.next]
    have hlookup : Finmap.lookup p (Finmap.insert v.propIdAreaId x s.mSavedProps) =
        if p = v.propIdAreaId then some x else s.mSavedProps.lookup p :=
      UnorderedMap.lookup_insert_eq ..
    split
    · next heq =>
        rw [if_pos heq.symm] at hlookup
        refine congrArg₂ Clipboard.mk rfl ?_
        rw [hpayload heq]
        exact congrArg (Option.map VehiclePropValue.value) hlookup
    · next hne =>
        rw [if_neg (Ne.symm hne)] at hlookup
        exact congrArg₂ Clipboard.mk rfl (congrArg (Option.map VehiclePropValue.value) hlookup)

/-- What was saved is restored, and no longer saved. -/
theorem Debugging.restore (h : Debugging env.clock start s) (hzone : isGlobalProp p.propId = false)
    (hlookup : s.mSavedProps.lookup q = some x)
    (hwrite : s.properties.writeNow env x false .onValueChange = (result, properties))
    (options : List String) : result = .ok () ∧
      Debugging env.clock start { s with properties, mSavedProps := s.mSavedProps.erase q } ∧
      ClipboardStep p (s.clipboard p) (.dump options (.restored q))
        (DebugState.clipboard p { s with properties, mSavedProps := s.mSavedProps.erase q }) := by
  obtain ⟨hprop, harea, hsaved⟩ := h.saved q x hlookup
  obtain ⟨u, hok, hrunning, hpayload⟩ := h.running.restores harea
  obtain ⟨rfl, rfl⟩ := Prod.mk.inj (hwrite.symm.trans hok)
  have herase (r : PropIdAreaId) : Finmap.lookup r (Finmap.erase q s.mSavedProps) =
      if r = q then none else s.mSavedProps.lookup r := UnorderedMap.lookup_erase_eq ..
  have hpair : x.propIdAreaId = p ↔ q = p := by
    constructor
    · rintro rfl
      exact (congrArg₂ PropIdAreaId.mk hprop (hsaved (hprop ▸ hzone))).symm
    · rintro rfl
      exact congrArg₂ PropIdAreaId.mk hprop (hsaved hzone)
  have hcopy (heq : q = p) : (s.clipboard p).saved = some x.value := by
    subst heq
    exact congrArg (Option.map VehiclePropValue.value) hlookup
  refine ⟨rfl, ⟨hrunning, fun r y hr => ?_⟩, fun heq => ?_, ?_⟩
  · change Finmap.lookup r (Finmap.erase q s.mSavedProps) = some y at hr
    rw [herase] at hr
    split at hr
    · cases hr
    · exact h.saved r y hr
  · rw [hcopy heq]
    rfl
  · have hpayload := hpayload p hzone
    have herase := herase p
    rw [Clipboard.next]
    split
    · next heq =>
        rw [if_pos (hpair.mpr heq)] at hpayload
        rw [if_pos heq.symm] at herase
        refine congrArg₂ Clipboard.mk (hpayload.trans (hcopy heq).symm) ?_
        exact congrArg (Option.map VehiclePropValue.value) herase
    · next hne =>
        rw [if_neg (mt hpair.mp hne)] at hpayload
        rw [if_neg (Ne.symm hne)] at herase
        exact congrArg₂ Clipboard.mk hpayload
          (congrArg (Option.map VehiclePropValue.value) herase)

/-- A command does to the register what its answer says. -/
theorem Debugging.dump (h : Debugging env.clock start s)
    (hdependents : ∀ q ∈ start.properties.hvacPowerDependentProps, isGlobalProp q = false)
    (hp : IsRegister p.propId) {options : List String} {reply : DumpReply}
    (hevents : EventsElsewhere readers env.clock p s (.dump options reply))
    (hstep : DumpStep readers env s options reply t) :
    Debugging env.clock start t ∧
      ClipboardStep p (s.clipboard p) (.dump options reply) (t.clipboard p) := by
  cases hstep with
  | quiet hquiet =>
      cases reply
      case shown | invalidOption | tooFewArguments | optionError | got | notSaved
        | inputError | minMaxValueNotSet | supportedValuesNotSet => exact ⟨h, trivial, rfl⟩
      all_goals exact hquiet.elim
  | set hset =>
      obtain ⟨hdebugging, hclipboard⟩ := h.set hdependents hp hset
      exact ⟨hdebugging, trivial, hclipboard⟩
  | save hread => exact h.save hp.zone hread options
  | nothingSaved hlookup =>
      refine ⟨h, fun heq => ?_, rfl⟩
      subst heq
      exact congrArg (Option.map VehiclePropValue.value) hlookup
  | restore hlookup hwrite => exact (h.restore hp.zone hlookup hwrite options).2
  | notRestored hlookup hwrite => cases (h.restore hp.zone hlookup hwrite options).1
  | inject hparse =>
      obtain ⟨hprop, htime⟩ := hevents _ hparse
      exact ⟨(h.event hprop htime).1, trivial, (h.event hprop htime).2⟩
  | generate _ _ =>
      exact ⟨⟨h.running.generate _, h.saved⟩, trivial,
        congrArg₂ Clipboard.mk (payloadAt_generate _) rfl⟩
  | vendorConfigs _ => exact ⟨⟨h.running, h.saved⟩, trivial, rfl⟩
  | minMaxValue _ | supportedValues _ =>
      rw [DebugState.triggerSupportedValueChange]
      split <;> exact ⟨⟨h.running, h.saved⟩, trivial, rfl⟩

/-- Every step keeps the invariant, and is a step of the clipboard. -/
theorem Debugging.step (h : Debugging clock start s)
    (hdependents : ∀ q ∈ start.properties.hvacPowerDependentProps, isGlobalProp q = false)
    (hp : IsRegister p.propId) (hstep : HardwareStep readers clock s call t)
    (hevents : EventsElsewhere readers clock p s call) :
    Debugging clock start t ∧ ClipboardStep p (s.clipboard p) call (t.clipboard p) := by
  cases hstep with
  | set hclock hset =>
      subst hclock
      obtain ⟨hdebugging, hclipboard⟩ := h.set hdependents hp hset
      exact ⟨hdebugging, trivial, hclipboard⟩
  | event hclock =>
      obtain ⟨hprop, htime⟩ := hevents _ rfl
      exact ⟨(h.event hprop htime).1, trivial, (h.event hprop htime).2⟩
  | dump hclock hdump =>
      subst hclock
      exact h.dump hdependents hp hevents (dumpStep_of_dump hdump)

end ClipboardSteps

section ClipboardRuns

variable {readers : OptionReaders} {clock : Nat → Int} {start s t : DebugState} {p : PropIdAreaId}
  {calls : List HardwareCall}

/-- A call of a run in which events are of other properties. -/
def CallElsewhere (readers : OptionReaders) (clock : Nat → Int) (p : PropIdAreaId)
    (s : DebugState) (call : HardwareCall) (t : DebugState) : Prop :=
  HardwareStep readers clock s call t ∧ EventsElsewhere readers clock p s call

/-- The hardware refines the register with a saved copy, from any state of a run on. -/
theorem Debugging.simulates (h : Debugging clock start s)
    (hdependents : ∀ q ∈ start.properties.hvacPowerDependentProps, isGlobalProp q = false)
    (hp : IsRegister p.propId) (hrun : Path (CallElsewhere readers clock p) s calls t) :
    Debugging clock start t ∧ Path (ClipboardStep p) (s.clipboard p) calls (t.clipboard p) :=
  have hkept : ∀ u call v, Debugging clock start u → CallElsewhere readers clock p u call v →
      Debugging clock start v := fun _ _ _ h hcall => (h.step hdependents hp hcall.1 hcall.2).1
  ⟨hrun.invariant h hkept,
    hrun.simulated h hkept fun _ _ _ h hcall => (h.step hdependents hp hcall.1 hcall.2).2⟩

/-- A get gives what the register has. -/
theorem Debugging.getValue (h : Debugging clock start s) (hp : IsRegister p.propId)
    (hregistered : start.properties.mServerSidePropStore.IsRegistered p.propId)
    (context : GetContext) {request : VehiclePropValue} (hrequest : request.propIdAreaId = p) :
    (s.properties.getValue context request).map
        (Except.map fun value => (value.propIdAreaId, value.value)) =
      .ok (if s.properties.isHvacPropAndHvacNotAvailable context.env p.propId p.areaId then
        .error .hvacNotAvailable
      else (s.clipboard p).current.elim (.error .notSet) fun payload => .ok (p, payload)) :=
  getValue_of_running h.running hp hregistered context hrequest

/-- The hardware before the first call. -/
def DebugState.ofHardware (hardware : HardwareState) : DebugState :=
  { toHardwareState := hardware }

/-- The initialised state satisfies the invariant. -/
theorem debugging_of_init {env : Environment} {order : Traversal Int} {s2rS2dConfig : Int}
    {declarations : ConfigDeclarations} {hardware : HardwareState}
    (hinit : HardwareState.init env order s2rS2dConfig declarations = .ok hardware) :
    Debugging env.clock (.ofHardware hardware) (.ofHardware hardware) :=
  ⟨(init_spec hinit).2.1, fun _ _ h => by cases h⟩

/-- In every run of sets, events of other properties and debug commands, the hardware does with a
property of an area what a register with a saved copy does, and a get gives the content of the
register. -/
theorem clipboard_of_run (hstart : Debugging clock start start)
    (hdependents : ∀ q ∈ start.properties.hvacPowerDependentProps, isGlobalProp q = false)
    (hp : IsRegister p.propId)
    (hregistered : start.properties.mServerSidePropStore.IsRegistered p.propId)
    (hrun : Path (CallElsewhere readers clock p) start calls s) :
    Path (ClipboardStep p) (start.clipboard p) calls (s.clipboard p) ∧
      ∀ context (request : VehiclePropValue), request.propIdAreaId = p →
        (s.properties.getValue context request).map
            (Except.map fun value => (value.propIdAreaId, value.value)) =
          .ok (if s.properties.isHvacPropAndHvacNotAvailable context.env p.propId p.areaId then
            .error .hvacNotAvailable
          else (s.clipboard p).current.elim (.error .notSet) fun payload => .ok (p, payload)) := by
  obtain ⟨hdebugging, hpath⟩ := hstart.simulates hdependents hp hrun
  exact ⟨hpath, fun context _ hrequest => hdebugging.getValue hp hregistered context hrequest⟩

/-- A command for the fan speed of an area calls its function with that area. -/
theorem dump_fan_row (option : String) (command : VehiclePropValue → DebugState → DebugState.Dumped)
    (s : DebugState) :
    DebugState.withPropOptions fanReaders 2 (by decide) [option, "HVAC_FAN_SPEED", "-a", "1"]
      command s = command { prop := hvacFanSpeedId, areaId := 1 } s := by
  have hsize : 2 ≤ [option, "HVAC_FAN_SPEED", "-a", "1"].length := Nat.le_add_left 2 2
  have hparse : parsePropOptions fanReaders [option, "HVAC_FAN_SPEED", "-a", "1"] hsize =
      .ok { prop := hvacFanSpeedId, areaId := 1 } := by
    refine (parse_groupsOf_iff hsize).mpr
      ⟨hvacFanSpeedId, [.areaIdStr "1"], rfl, by decide, ?_, 1, rfl, rfl⟩
    exact .cons ⟨by decide, rfl⟩ .nil
  rw [DebugState.withPropOptions, dif_pos hsize, hparse]

/-- The speed of a row is saved, set and restored. -/
def fanCalls : List HardwareCall :=
  [.dump ["--save-prop", "HVAC_FAN_SPEED", "-a", "1"] (.saved ⟨hvacFanSpeedId, 1⟩),
    .set (fanSpeed 1 6) (.ok ()),
    .dump ["--restore-prop", "HVAC_FAN_SPEED", "-a", "1"] (.restored ⟨hvacFanSpeedId, 1⟩)]

/-- A run that saves the fan speed, changes it and restores it. -/
theorem path_fanCalls : ∃ hardware s,
    HardwareState.init .still (.ascending Int) 0 fanDeclarations = .ok hardware ∧
    Path (CallElsewhere fanReaders Environment.still.clock ⟨hvacFanSpeedId, 1⟩)
      (.ofHardware hardware) fanCalls s := by
  obtain ⟨hardware, hinit, kept, hkept, changed, hset, s, hs⟩ : ∃ hardware,
      HardwareState.init .still (.ascending Int) 0 fanDeclarations = .ok hardware ∧ ∃ kept,
      DebugState.saveProperty { prop := hvacFanSpeedId, areaId := 1 } (.ofHardware hardware) =
        .ok (.saved ⟨hvacFanSpeedId, 1⟩, kept) ∧
      ∃ changed, kept.properties.setValue .still (fanSpeed 1 6) = .ok (.ok (), changed) ∧
      ∃ s, DebugState.restoreProperty fanContext { prop := hvacFanSpeedId, areaId := 1 }
        { kept with properties := changed } = .ok (.restored ⟨hvacFanSpeedId, 1⟩, s) :=
    ⟨_, rfl, _, rfl, _, rfl, _, rfl⟩
  have hsave : (DebugState.ofHardware hardware).dump fanReaders fanContext
      ["--save-prop", "HVAC_FAN_SPEED", "-a", "1"] = .ok (.saved ⟨hvacFanSpeedId, 1⟩, kept) :=
    (dump_fan_row "--save-prop" DebugState.saveProperty _).trans hkept
  have hrestore : ({ kept with properties := changed } : DebugState).dump fanReaders fanContext
      ["--restore-prop", "HVAC_FAN_SPEED", "-a", "1"] =
        .ok (.restored ⟨hvacFanSpeedId, 1⟩, s) :=
    (dump_fan_row "--restore-prop" (DebugState.restoreProperty fanContext) _).trans hs
  refine ⟨hardware, s, hinit, ?_⟩
  have hsaved : Path (CallElsewhere fanReaders Environment.still.clock ⟨hvacFanSpeedId, 1⟩)
      (.ofHardware hardware) [.dump _ (.saved ⟨hvacFanSpeedId, 1⟩)] kept :=
    .single ⟨.dump rfl hsave, fun v hv => by cases hv⟩
  exact (hsaved.snoc ⟨.set rfl hset, fun v hv => by cases hv⟩).snoc
    ⟨.dump rfl hrestore, fun v hv => by cases hv⟩

/-- The run is one of the clipboard. -/
theorem fan_clipboard_of_run : ∃ hardware, ∃ s : DebugState,
    HardwareState.init .still (.ascending Int) 0 fanDeclarations = .ok hardware ∧
    Path (ClipboardStep ⟨hvacFanSpeedId, 1⟩)
      ((DebugState.ofHardware hardware).clipboard ⟨hvacFanSpeedId, 1⟩) fanCalls
      (s.clipboard ⟨hvacFanSpeedId, 1⟩) := by
  obtain ⟨hardware, s, hinit, hrun⟩ := path_fanCalls
  have hdependents : ∀ d, fanDeclarations.byPropId.lookup hvacPowerOnId = some d →
      ∀ q ∈ d.config.configArray, isGlobalProp q = false := by
    intro d hd
    cases hd
  have hp : IsRegister (⟨hvacFanSpeedId, 1⟩ : PropIdAreaId).propId :=
    ⟨by decide, by decide, by decide⟩
  have hd : fanDeclarations.byPropId.lookup (⟨hvacFanSpeedId, 1⟩ : PropIdAreaId).propId =
      some fanSpeeds := rfl
  have hregistered := isRegistered_of_declared hinit hp.not_diagnostic hd
  exact ⟨hardware, s, hinit, (clipboard_of_run (debugging_of_init hinit)
    (dependents_of_init hinit hdependents) hp hregistered hrun).1⟩

/-- The calls that do not touch the saved copy of a pair. -/
def KeepsSaved (p : PropIdAreaId) : HardwareCall → Prop
  | .dump _ (.saved q) => q ≠ p
  | .dump _ (.restored q) => q ≠ p
  | _ => True

/-- Only a command that saves the pair changes what is saved of it. -/
theorem ClipboardStep.saved {c d : Clipboard} {call : HardwareCall} (h : ClipboardStep p c call d)
    (hkeeps : KeepsSaved p call) : d.saved = c.saved := by
  rw [h.next]
  unfold Clipboard.next
  split
  · rfl
  · rfl
  · rw [if_neg hkeeps]
  · rw [if_neg hkeeps]
  · rfl

/-- What a command saved is what a get gives after the command that restores it, whatever was
called in between. -/
theorem getValue_of_restored {env : Environment} {order : Traversal Int} {s2rS2dConfig : Int}
    {declarations : ConfigDeclarations} {hardware : HardwareState} {d : ConfigDeclaration}
    {before between : List HardwareCall} {saveOptions restoreOptions : List String}
    (hinit : HardwareState.init env order s2rS2dConfig declarations = .ok hardware)
    (hdependents : ∀ d, declarations.byPropId.lookup hvacPowerOnId = some d →
      ∀ q ∈ d.config.configArray, isGlobalProp q = false)
    (hp : IsRegister p.propId) (hd : declarations.byPropId.lookup p.propId = some d)
    (hrun : Path (CallElsewhere readers env.clock p) (.ofHardware hardware)
      (before ++ .dump saveOptions (.saved p) ::
        (between ++ [.dump restoreOptions (.restored p)])) s)
    (hbetween : ∀ call ∈ between, KeepsSaved p call) :
    ∃ savedAt payload,
      Path (CallElsewhere readers env.clock p) (.ofHardware hardware) before savedAt ∧
      savedAt.properties.payloadAt p = some payload ∧
      ∀ context (request : VehiclePropValue), request.propIdAreaId = p →
        (s.properties.getValue context request).map
            (Except.map fun value => (value.propIdAreaId, value.value)) =
          .ok (if s.properties.isHvacPropAndHvacNotAvailable context.env p.propId p.areaId then
            .error .hvacNotAvailable
          else .ok (p, payload)) := by
  have hzones := dependents_of_init hinit hdependents
  have hregistered := isRegistered_of_declared hinit hp.not_diagnostic hd
  obtain ⟨savedAt, kept, hbefore, hsave, hafter⟩ := hrun.step_at
  obtain ⟨restoring, hkept, hrestore⟩ := hafter.split between
  have hrestore := hrestore.of_singleton
  obtain ⟨hsavedAt, -⟩ := (debugging_of_init hinit).simulates hzones hp hbefore
  obtain ⟨hdebugging, hsaved⟩ := hsavedAt.step hzones hp hsave.1 hsave.2
  obtain ⟨hrestoring, hbetween'⟩ := hdebugging.simulates hzones hp hkept
  obtain ⟨hend, hrestored⟩ := hrestoring.step hzones hp hrestore.1 hrestore.2
  obtain ⟨payload, hpayload⟩ := Option.isSome_iff_exists.mp (hsaved.allows rfl)
  have hcopy : (restoring.clipboard p).saved = (kept.clipboard p).saved :=
    hbetween'.invariant_of_mem (P := fun c => c.saved = (kept.clipboard p).saved) rfl
      fun c call d hcall hc hstep => (hstep.saved (hbetween call hcall)).trans hc
  have hcurrent : (s.clipboard p).current = some payload := by
    rw [hrestored.next, Clipboard.next, if_pos rfl]
    rw [hcopy, hsaved.next, Clipboard.next, if_pos rfl]
    exact hpayload
  refine ⟨savedAt, payload, hbefore, hpayload, fun context request hrequest => ?_⟩
  rw [hend.getValue hp hregistered context hrequest, hcurrent]
  rfl

/-- After the run the fan speed is what was saved. -/
theorem fan_restored : ∃ hardware, ∃ s : DebugState, ∃ payload,
    HardwareState.init .still (.ascending Int) 0 fanDeclarations = .ok hardware ∧
    Path (CallElsewhere fanReaders Environment.still.clock ⟨hvacFanSpeedId, 1⟩)
      (.ofHardware hardware) fanCalls s ∧
    ∀ context, (s.properties.getValue context (fanSpeed 1 0)).map
        (Except.map fun value => (value.propIdAreaId, value.value)) =
      .ok (if s.properties.isHvacPropAndHvacNotAvailable context.env hvacFanSpeedId 1 then
        .error .hvacNotAvailable
      else .ok (⟨hvacFanSpeedId, 1⟩, payload)) := by
  obtain ⟨hardware, s, hinit, hrun⟩ := path_fanCalls
  have hdependents : ∀ d, fanDeclarations.byPropId.lookup hvacPowerOnId = some d →
      ∀ q ∈ d.config.configArray, isGlobalProp q = false := by
    intro d hd
    cases hd
  have hp : IsRegister (⟨hvacFanSpeedId, 1⟩ : PropIdAreaId).propId :=
    ⟨by decide, by decide, by decide⟩
  have hd : fanDeclarations.byPropId.lookup (⟨hvacFanSpeedId, 1⟩ : PropIdAreaId).propId =
      some fanSpeeds := rfl
  have hkeeps : ∀ call ∈ [HardwareCall.set (fanSpeed 1 6) (.ok ())],
      KeepsSaved ⟨hvacFanSpeedId, 1⟩ call := by
    intro call hcall
    rw [List.mem_singleton.mp hcall]
    trivial
  have hcalls : fanCalls = [] ++ .dump _ (.saved ⟨hvacFanSpeedId, 1⟩) ::
      ([.set (fanSpeed 1 6) (.ok ())] ++ [.dump _ (.restored ⟨hvacFanSpeedId, 1⟩)]) := rfl
  obtain ⟨-, payload, -, -, hget⟩ :=
    getValue_of_restored hinit hdependents hp hd (hcalls ▸ hrun) hkeeps
  exact ⟨hardware, s, payload, hinit, hrun, fun context => hget context _ rfl⟩

end ClipboardRuns

end VhalCore.FakeHardware
