import VhalCore.Models.Proto.Native.SupportedValues
import Mathlib.Logic.Function.Basic

/-!
# What a conversion to a message and back keeps

Values, subscription requests, pairs and ranges of supported values come back as they
were. A config comes back as it was if and only if no area config holds an empty list of
enum values, since a message does not tell an empty list from none. A list of supported
values comes back without its absent elements, and only under the status `OK`.
-/

namespace VhalCore.ProtoMsgConverter

/-- Bytes come back as they were. -/
@[simp] theorem pushBytes_setBytes (bytes : List UInt8) :
    pushBytes (setBytes bytes) [] = bytes := by
  have hid : Int8.toUInt8 ∘ UInt8.toInt8 = id := by
    funext b
    exact UInt8.toUInt8_toInt8 b
  rw [pushBytes, addAll_nil, setBytes, List.map_map, hid, List.map_id]

@[simp] theorem addAll_id_nil {α : Type} (xs : List α) : addAll id xs [] = xs := by
  rw [addAll_nil, List.map_id]

theorem rawPropValues_roundTrip (x : Aidl.RawPropValues) :
    (x.aidlToProto {}).protoToAidl {} = x := by
  cases x
  simp only [Aidl.RawPropValues.aidlToProto, Proto.RawPropValues.protoToAidl, castCopy_id,
    addAll_id_nil, pushBytes_setBytes]

theorem vehiclePropValue_roundTrip (x : Aidl.VehiclePropValue) :
    (x.aidlToProto {}).protoToAidl {} = x := by
  cases x
  simp only [Aidl.VehiclePropValue.aidlToProto, Proto.VehiclePropValue.protoToAidl, castCopy_id,
    addAll_id_nil, pushBytes_setBytes]

theorem subscribeOptions_roundTrip (x : Aidl.SubscribeOptions) :
    (x.aidlToProto {}).protoToAidl {} = x := by
  cases x
  simp only [Aidl.SubscribeOptions.aidlToProto, Proto.SubscribeOptions.protoToAidl, castCopy_id,
    addAll_id_nil]

theorem propIdAreaId_roundTrip (x : Aidl.PropIdAreaId) :
    (x.aidlToProto {}).protoToAidl {} = x := by
  rfl

/-- A result with bounds comes back as it was. -/
theorem minMaxSupportedValueResult_roundTrip (x : Aidl.MinMaxSupportedValueResult) :
    (x.aidlToProto {}).protoToAidl {} = x := by
  rcases x with ⟨status, minimum, maximum⟩
  cases minimum <;> cases maximum <;>
    simp only [Aidl.MinMaxSupportedValueResult.aidlToProto,
      Proto.MinMaxSupportedValueResult.protoToAidl, Option.getD_none, rawPropValues_roundTrip]

/-- Conversion to a message loses nothing of a value, a payload, a subscription request, a
pair or a range of supported values. -/
theorem conversion_loses_nothing :
    (Function.LeftInverse (fun y : Proto.VehiclePropValue => y.protoToAidl {})
        (fun x : Aidl.VehiclePropValue => x.aidlToProto {}) ∧
      Function.Injective fun x : Aidl.VehiclePropValue => x.aidlToProto {}) ∧
    (Function.LeftInverse (fun y : Proto.RawPropValues => y.protoToAidl {})
        (fun x : Aidl.RawPropValues => x.aidlToProto {}) ∧
      Function.Injective fun x : Aidl.RawPropValues => x.aidlToProto {}) ∧
    (Function.LeftInverse (fun y : Proto.SubscribeOptions => y.protoToAidl {})
        (fun x : Aidl.SubscribeOptions => x.aidlToProto {}) ∧
      Function.Injective fun x : Aidl.SubscribeOptions => x.aidlToProto {}) ∧
    (Function.LeftInverse (fun y : Proto.PropIdAreaId => y.protoToAidl {})
        (fun x : Aidl.PropIdAreaId => x.aidlToProto {}) ∧
      Function.Injective fun x : Aidl.PropIdAreaId => x.aidlToProto {}) ∧
    (Function.LeftInverse (fun y : Proto.MinMaxSupportedValueResult => y.protoToAidl {})
        (fun x : Aidl.MinMaxSupportedValueResult => x.aidlToProto {}) ∧
      Function.Injective fun x : Aidl.MinMaxSupportedValueResult => x.aidlToProto {}) := by
  have hvalue : Function.LeftInverse (fun y : Proto.VehiclePropValue => y.protoToAidl {})
      fun x : Aidl.VehiclePropValue => x.aidlToProto {} := vehiclePropValue_roundTrip
  have hraw : Function.LeftInverse (fun y : Proto.RawPropValues => y.protoToAidl {})
      fun x : Aidl.RawPropValues => x.aidlToProto {} := rawPropValues_roundTrip
  have hoptions : Function.LeftInverse (fun y : Proto.SubscribeOptions => y.protoToAidl {})
      fun x : Aidl.SubscribeOptions => x.aidlToProto {} := subscribeOptions_roundTrip
  have hpair : Function.LeftInverse (fun y : Proto.PropIdAreaId => y.protoToAidl {})
      fun x : Aidl.PropIdAreaId => x.aidlToProto {} := propIdAreaId_roundTrip
  have hrange : Function.LeftInverse (fun y : Proto.MinMaxSupportedValueResult => y.protoToAidl {})
      fun x : Aidl.MinMaxSupportedValueResult => x.aidlToProto {} :=
    minMaxSupportedValueResult_roundTrip
  exact ⟨⟨hvalue, hvalue.injective⟩, ⟨hraw, hraw.injective⟩, ⟨hoptions, hoptions.injective⟩,
    ⟨hpair, hpair.injective⟩, ⟨hrange, hrange.injective⟩⟩

/-- The elements that a list of optional values adds to a message are its present ones. -/
private theorem foldl_present (list : List (Option Aidl.RawPropValues))
    (added : List Proto.RawPropValues) :
    list.foldl addSupportedValue added =
      added ++ (list.filterMap id).map fun value => value.aidlToProto {} := by
  induction list generalizing added with
  | nil => simp
  | cons value list ih =>
      rw [List.foldl_cons, ih]
      cases value with
      | none => simp [addSupportedValue]
      | some value => simp [addSupportedValue]

/-- A present list comes back as the list of its present elements. -/
theorem supportedValuesListResult_of_some (list : List (Option Aidl.RawPropValues)) :
    ((⟨statusOk, some list⟩ : Aidl.SupportedValuesListResult).aidlToProto {}).protoToAidl {} =
      ⟨statusOk, some (list.filter Option.isSome)⟩ := by
  have hpresent : (list.filterMap id).map some = list.filter Option.isSome := by
    induction list with
    | nil => rfl
    | cons value list ih =>
        cases value with
        | none => exact ih
        | some value => exact congrArg (some value :: ·) ih
  have hvalues : (fun value : Proto.RawPropValues => some (value.protoToAidl {})) ∘
      (fun value : Aidl.RawPropValues => value.aidlToProto {}) = some := by
    funext value
    exact congrArg some (rawPropValues_roundTrip value)
  simp only [Aidl.SupportedValuesListResult.aidlToProto, foldl_present,
    Proto.SupportedValuesListResult.protoToAidl, ne_eq, not_true_eq_false, if_false,
    List.nil_append, addAll_nil, List.map_map, hvalues, hpresent]

/-- An absent list comes back as an empty one under the status `OK`. -/
theorem supportedValuesListResult_of_none :
    ((⟨statusOk, none⟩ : Aidl.SupportedValuesListResult).aidlToProto {}).protoToAidl {} =
      ⟨statusOk, some []⟩ := by
  rfl

/-- A status other than `OK` comes back without a list. -/
theorem supportedValuesListResult_of_not_ok (x : Aidl.SupportedValuesListResult)
    (h : x.status ≠ statusOk) : (x.aidlToProto {}).protoToAidl {} = ⟨x.status, none⟩ := by
  have hstatus : (x.aidlToProto {}).status = x.status := by
    unfold Aidl.SupportedValuesListResult.aidlToProto
    cases x.supportedValuesList <;> rfl
  simp only [Proto.SupportedValuesListResult.protoToAidl, hstatus, ne_eq, h, not_false_eq_true,
    if_true]

/-- A result loses nothing: it has a list of values under the status `OK`, and no list under
any other status. -/
def Aidl.SupportedValuesListResult.Lossless (x : Aidl.SupportedValuesListResult) : Prop :=
  x.status = statusOk ∧ (∃ list, x.supportedValuesList = some list ∧ none ∉ list) ∨
    x.status ≠ statusOk ∧ x.supportedValuesList = none

/-- Exactly the lossless results come back as they were. -/
theorem supportedValuesListResult_eq_iff (x : Aidl.SupportedValuesListResult) :
    (x.aidlToProto {}).protoToAidl {} = x ↔ x.Lossless := by
  rw [Aidl.SupportedValuesListResult.Lossless]
  rcases x with ⟨status, list⟩
  by_cases hok : status = statusOk
  · subst hok
    cases list with
    | none => simp [supportedValuesListResult_of_none]
    | some list =>
        rw [supportedValuesListResult_of_some]
        simp only [Aidl.SupportedValuesListResult.mk.injEq, Option.some.injEq, true_and,
          List.filter_eq_self, exists_eq_left', ne_eq, not_true_eq_false, false_and, or_false]
        constructor
        · intro h hmem
          exact absurd (h none hmem) (by decide)
        · intro h value hmem
          cases value with
          | none => exact absurd hmem h
          | some value => rfl
  · rw [supportedValuesListResult_of_not_ok _ hok]
    simp [hok, eq_comm]

/-- A query over the proxy gives the results of the hardware, converted and converted back. -/
theorem querySupportedValues_eq {AidlResult ProtoResult : Type}
    (aidlToProto : AidlResult → ProtoResult) (protoToAidl : ProtoResult → AidlResult)
    (internalError : AidlResult) (hardware : List Aidl.PropIdAreaId → List AidlResult)
    (propIdAreaIds : List Aidl.PropIdAreaId) :
    querySupportedValues protoToAidl internalError
        (fun request => some (serveSupportedValues aidlToProto hardware request)) propIdAreaIds =
      (hardware propIdAreaIds).map fun result => protoToAidl (aidlToProto result) := by
  have hids : (propIdAreaIds.map fun x => x.aidlToProto {}).map (fun y => y.protoToAidl {}) =
      propIdAreaIds := by
    rw [List.map_map]
    exact List.map_id propIdAreaIds
  simp only [querySupportedValues, serveSupportedValues, fillPropIdAreaIdsToProtoRequest,
    getPropIdAreaIdsFromProtoRequest, aidlResultsToProtoResults,
    convertSupportedValueProtoResultToAidlResults, addAll_nil, hids, List.map_map]
  rfl

/-- The ranges of supported values reach the client as the hardware gave them. -/
theorem getMinMaxSupportedValues_eq
    (hardware : List Aidl.PropIdAreaId → List Aidl.MinMaxSupportedValueResult)
    (propIdAreaIds : List Aidl.PropIdAreaId) :
    getMinMaxSupportedValues (fun request => some (serveMinMaxSupportedValues hardware request))
      propIdAreaIds = hardware propIdAreaIds := by
  refine (querySupportedValues_eq _ _ _ hardware propIdAreaIds).trans ?_
  rw [List.map_congr_left fun x _ => minMaxSupportedValueResult_roundTrip x]
  exact List.map_id _

/-- What a client sees of the lists of supported values: the results of the hardware, converted
and converted back. -/
theorem getSupportedValuesLists_eq
    (hardware : List Aidl.PropIdAreaId → List Aidl.SupportedValuesListResult)
    (propIdAreaIds : List Aidl.PropIdAreaId) :
    getSupportedValuesLists (fun request => some (serveSupportedValuesLists hardware request))
        propIdAreaIds =
      (hardware propIdAreaIds).map fun x => (x.aidlToProto {}).protoToAidl {} :=
  querySupportedValues_eq _ _ _ hardware propIdAreaIds

/-- A result comes back as it was if and only if it has a list without absent elements under
the status `OK`, and no list under any other status. A client gets the results of the hardware
if and only if all of them are such. -/
theorem supportedValuesListResult_roundTrip_iff (x : Aidl.SupportedValuesListResult)
    (hardware : List Aidl.PropIdAreaId → List Aidl.SupportedValuesListResult)
    (propIdAreaIds : List Aidl.PropIdAreaId) :
    ((x.aidlToProto {}).protoToAidl {} = x ↔
      x.status = statusOk ∧ (∃ list, x.supportedValuesList = some list ∧ none ∉ list) ∨
        x.status ≠ statusOk ∧ x.supportedValuesList = none) ∧
    (getSupportedValuesLists (fun request => some (serveSupportedValuesLists hardware request))
        propIdAreaIds = hardware propIdAreaIds ↔
      ∀ y ∈ hardware propIdAreaIds,
        y.status = statusOk ∧ (∃ list, y.supportedValuesList = some list ∧ none ∉ list) ∨
          y.status ≠ statusOk ∧ y.supportedValuesList = none) := by
  refine ⟨supportedValuesListResult_eq_iff x, ?_⟩
  have hmap := List.map_inj_left (l := hardware propIdAreaIds) (g := id)
    (f := fun y => (y.aidlToProto {}).protoToAidl {})
  rw [List.map_id] at hmap
  rw [getSupportedValuesLists_eq, hmap]
  exact forall₂_congr fun y _ => supportedValuesListResult_eq_iff y

/-- An absent list under the status `OK` comes back as an empty one, so that a client cannot tell
them apart. A list under the status `TRY_AGAIN` and an absent element do not come back either. -/
theorem supportedValuesList_lost :
    ¬ (∀ x : Aidl.SupportedValuesListResult, (x.aidlToProto {}).protoToAidl {} = x) ∧
    ((⟨statusOk, none⟩ : Aidl.SupportedValuesListResult).aidlToProto {}).protoToAidl {} =
      ⟨statusOk, some []⟩ ∧
    getSupportedValuesLists (fun request => some (serveSupportedValuesLists
        (fun _ => [⟨statusOk, none⟩]) request)) [⟨1, 0⟩] =
      getSupportedValuesLists (fun request => some (serveSupportedValuesLists
        (fun _ => [⟨statusOk, some []⟩]) request)) [⟨1, 0⟩] ∧
    ((⟨1, some []⟩ : Aidl.SupportedValuesListResult).aidlToProto {}).protoToAidl {} =
      ⟨1, none⟩ ∧
    ((⟨statusOk, some [none]⟩ : Aidl.SupportedValuesListResult).aidlToProto {}).protoToAidl {} =
      ⟨statusOk, some []⟩ := by
  refine ⟨fun h => ?_, by decide, ?_, by decide, by decide⟩
  · exact absurd (h ⟨statusOk, none⟩) (by decide)
  · rw [getSupportedValuesLists_eq, getSupportedValuesLists_eq]
    decide

/-- An area config comes back as it was unless its list of enum values is empty. -/
theorem castToAcfg_aidlToProto_iff (x : Aidl.VehicleAreaConfig) :
    castToAcfg (x.aidlToProto {}) = x ↔ x.supportedEnumValues ≠ some [] := by
  rcases x with ⟨_, _, _, _, _, _, _, enumValues, _, _, info⟩
  have hinfo : ∀ info : Aidl.HasSupportedValueInfo, (info.aidlToProto {}).protoToAidl {} = info :=
    fun _ => rfl
  cases enumValues with
  | none => cases info <;> simp [castToAcfg, Aidl.VehicleAreaConfig.aidlToProto, hinfo]
  | some values =>
      cases info <;>
        simp [castToAcfg, Aidl.VehicleAreaConfig.aidlToProto, hinfo, castCopy_id]

/-- A config comes back as it was if and only if no area has an empty list of enum values. -/
theorem vehiclePropConfig_roundTrip_iff (x : Aidl.VehiclePropConfig) :
    (x.aidlToProto {}).protoToAidl {} = x ↔
      ∀ areaConfig ∈ x.areaConfigs, areaConfig.supportedEnumValues ≠ some [] := by
  rcases x with ⟨_, _, _, areaConfigs, _, _, _, _⟩
  simp only [Aidl.VehiclePropConfig.aidlToProto, Proto.VehiclePropConfig.protoToAidl, addAll_nil,
    castCopy_eq_map, List.map_map, List.map_id, Aidl.VehiclePropConfig.mk.injEq,
    true_and, and_true]
  constructor
  · intro h areaConfig hmem
    rw [← castToAcfg_aidlToProto_iff]
    exact List.map_inj_left.mp (h.trans (List.map_id areaConfigs).symm) areaConfig hmem
  · intro h
    refine (List.map_congr_left fun areaConfig hmem => ?_).trans (List.map_id areaConfigs)
    exact (castToAcfg_aidlToProto_iff areaConfig).mpr (h areaConfig hmem)

end VhalCore.ProtoMsgConverter
