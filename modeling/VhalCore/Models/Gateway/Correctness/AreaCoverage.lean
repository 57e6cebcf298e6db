import VhalCore.Models.Gateway.Correctness.DeliveryOrder
import VhalCore.Models.Gateway.Native.LocalVhal
import VhalCore.Models.Vehicle.Order

/-!
# The areas that are polled

The gateway asks for each configured property in area zero only, and it remembers one value for
each property. A value of another area is never read, so a change of it reaches no node. A
change in area zero, which is where the store keeps a global property, reaches every node that
lists the property.
-/

namespace VhalCore.Gateway

open Grpc (GetValueRequest GetValueResult)
open PropertyStore (VehiclePropertyStore RecordId Operation recordArea)
open NodeForwarder (batches)

namespace LocalVhal

/-- What a poll reads of a property. -/
def reading (vhal : LocalVhal) (stamp : VehiclePropValue → Int) (propId : Int) :
    Option VehiclePropValue :=
  (vhal.getValue { prop := propId, areaId := 0 }).toOption.map fun value =>
    { value with timestamp := stamp value }

variable {vhal : LocalVhal} {stamp : VehiclePropValue → Int} {propId : Int}

/-- A poll of area zero gets the reading of the property. -/
theorem polledValue_handleGetValueRequest (vhal : LocalVhal) (stamp : VehiclePropValue → Int)
    (requestId propId : Int) :
    polledValue (vhal.handleGetValueRequest stamp
      ⟨requestId, { prop := propId, areaId := 0 }⟩) = vhal.reading stamp propId := by
  rw [handleGetValueRequest, reading]
  rcases vhal.getValue { prop := propId, areaId := 0 } with code | value
  · simp only [polledValue, Except.toOption, Option.map_none]
    split <;> rfl
  · simp only [polledValue, Except.toOption, Option.map_some, ite_true]

/-- A value that is read is of the requested property. -/
theorem getValue_prop {request value : VehiclePropValue}
    (h : vhal.getValue request = .ok value) : value.prop = request.prop := by
  rw [getValue] at h
  split at h
  · rename_i result hspecial
    rw [h] at hspecial
    exact vhal.special_prop request value hspecial
  · rcases hr : vhal.mServerSidePropStore.getRecordLocked request.prop with _ | record
    · simp only [VehiclePropertyStore.readValue, hr, Except.mapError] at h
      cases h
    · simp only [VehiclePropertyStore.readValue, hr, PropertyStore.readValueLocked] at h
      split at h
      · rename_i stored hstored
        cases h
        have hkey := VehiclePropertyStore.stored_of_record hr
          (PropertyStore.getRecordIdLocked request record)
        exact (vhal.reachable.valid.keyed request.prop _ value (hkey.trans hstored)).1
      · cases h

/-- A reading is of its property. -/
theorem reading_prop {value : VehiclePropValue} (h : vhal.reading stamp propId = some value) :
    value.prop = propId := by
  rw [reading] at h
  obtain ⟨read, hread, rfl⟩ := Option.map_eq_some_iff.mp h
  rcases hget : vhal.getValue { prop := propId, areaId := 0 } with code | value
  · rw [hget] at hread
    cases hread
  · rw [hget] at hread
    cases hread
    exact getValue_prop hget

/-- A property without a getter is read from area zero of the store. -/
theorem reading_of_plain
    (h : vhal.maybeGetSpecialValue { prop := propId, areaId := 0 } = none) :
    vhal.reading stamp propId = (vhal.mServerSidePropStore.stored propId ⟨0, 0⟩).map fun value =>
      { value with timestamp := stamp value } := by
  simp only [reading, getValue, h]
  rcases hr : vhal.mServerSidePropStore.getRecordLocked propId with _ | record
  · simp only [VehiclePropertyStore.readValue, VehiclePropertyStore.stored, hr]
    rfl
  · have htoken : record.tokenFunction = none := by
      by_contra hsome
      exact vhal.special_of_token { prop := propId, areaId := 0 } record hr hsome h
    have hid : PropertyStore.getRecordIdLocked { prop := propId, areaId := 0 } record = ⟨0, 0⟩ := by
      simp [PropertyStore.getRecordIdLocked, recordArea, PropertyStore.Record.tokenOf, htoken]
    have hread : vhal.mServerSidePropStore.readValue { prop := propId, areaId := 0 } =
        PropertyStore.readValueLocked ⟨0, 0⟩ record := by
      simp only [VehiclePropertyStore.readValue, hr]
      rw [hid]
    rw [hread, VehiclePropertyStore.stored_of_record hr, PropertyStore.readValueLocked]
    split
    · rename_i value hvalue
      rw [hvalue]
      rfl
    · rename_i hvalue
      rw [hvalue]
      rfl

/-- A property without a getter has its values under the token zero. -/
theorem recordId_of_stored (h : vhal.maybeGetSpecialValue { prop := propId, areaId := 0 } = none)
    {recId : RecordId} {value : VehiclePropValue}
    (hstored : vhal.mServerSidePropStore.stored propId recId = some value) :
    recId = ⟨recordArea propId value.areaId, 0⟩ := by
  obtain ⟨hprop, hid⟩ := vhal.reachable.valid.keyed propId recId value hstored
  rcases hr : vhal.mServerSidePropStore.getRecordLocked value.prop with _ | record
  · rw [VehiclePropertyStore.recordIdOf, hr] at hid
    cases hid
  · have htoken : record.tokenFunction = none := by
      by_contra hsome
      exact vhal.special_of_token { prop := propId, areaId := 0 } record (hprop ▸ hr) hsome h
    rw [VehiclePropertyStore.recordIdOf_of_record hr, Option.some.injEq] at hid
    rw [← hid, PropertyStore.getRecordIdLocked, PropertyStore.Record.tokenOf, htoken, hprop]

/-- A stored value is what a poll reads of its property exactly if no getter answers and the
value is in area zero, or the getter answers with the same area and payload. -/
theorem readsAs_iff {recId : RecordId} {new : VehiclePropValue}
    (hstored : vhal.mServerSidePropStore.stored propId recId = some new) :
    (∃ read, vhal.reading stamp propId = some read ∧ read.areaId = new.areaId ∧
        read.value = new.value) ↔
      (vhal.maybeGetSpecialValue { prop := propId, areaId := 0 } = none ∧ recId.area = 0) ∨
        ∃ read, vhal.maybeGetSpecialValue { prop := propId, areaId := 0 } = some (.ok read) ∧
          read.areaId = new.areaId ∧ read.value = new.value := by
  cases hspecial : vhal.maybeGetSpecialValue { prop := propId, areaId := 0 } with
  | none =>
      have hid := recordId_of_stored hspecial hstored
      rw [reading_of_plain hspecial]
      constructor
      · rintro ⟨read, hread, harea, -⟩
        obtain ⟨old, hold, rfl⟩ := Option.map_eq_some_iff.mp hread
        have hzero := congrArg RecordId.area (recordId_of_stored hspecial hold)
        refine Or.inl ⟨rfl, ?_⟩
        rw [hid, ← harea]
        exact hzero.symm
      · rintro (⟨-, hzero⟩ | ⟨_, hnone, -⟩)
        · have hrecord : recId = ⟨0, 0⟩ := by
            rw [hid] at hzero ⊢
            exact congrArg (RecordId.mk · 0) hzero
          rw [hrecord] at hstored
          exact ⟨{ new with timestamp := stamp new }, by rw [hstored]; rfl, rfl, rfl⟩
        · cases hnone
  | some result =>
      rw [reading, getValue, hspecial]
      cases result with
      | error code =>
          refine iff_of_false ?_ ?_
          · rintro ⟨read, hread, -⟩
            cases hread
          · rintro (⟨hnone, -⟩ | ⟨read, hread, -⟩)
            · cases hnone
            · cases hread
      | ok read =>
          constructor
          · rintro ⟨stamped, hstamped, harea, hvalue⟩
            cases hstamped
            exact Or.inr ⟨read, rfl, harea, hvalue⟩
          · rintro (⟨hnone, -⟩ | ⟨_, hread, harea, hvalue⟩)
            · cases hnone
            · cases hread
              exact ⟨_, rfl, harea, hvalue⟩

end LocalVhal

/-- Of distinct properties one reading is that of a given property. -/
theorem ofProp_filterMap {reading : Int → Option VehiclePropValue}
    (hreading : ∀ q v, reading q = some v → v.prop = q) {ids : List Int} (hnodup : ids.Nodup)
    {propId : Int} (hmem : propId ∈ ids) :
    ofProp propId (ids.filterMap reading) = (reading propId).toList := by
  have hother (ids : List Int) (hnot : propId ∉ ids) :
      ofProp propId (ids.filterMap reading) = [] := by
    refine List.filter_eq_nil_iff.mpr fun v hv => ?_
    obtain ⟨q, hq, hread⟩ := List.mem_filterMap.mp hv
    simp only [decide_eq_true_eq, hreading q v hread]
    rintro rfl
    exact hnot hq
  obtain ⟨before, after, rfl⟩ := List.append_of_mem hmem
  have hsplit := List.nodup_cons.mp (List.nodup_middle.mp hnodup)
  rw [List.filterMap_append, ofProp_append,
    hother before fun h => hsplit.1 (List.mem_append_left _ h), List.nil_append,
    List.filterMap_cons]
  have hafter := hother after fun h => hsplit.1 (List.mem_append_right _ h)
  rcases hread : reading propId with _ | v
  · exact hafter
  · simp only [Option.toList_some]
    rw [ofProp_cons, if_pos (hreading propId v hread), hafter]

/-- A poll gets one reading of each configured property. -/
theorem LocalVhal.Answers.ofProp_polled {vhal : LocalVhal} {stamp : VehiclePropValue → Int}
    {config : GatewayConfig} {order : Traversal Int} {results : List GetValueResult}
    (h : vhal.Answers stamp (.ofConfig config order) results) {propId : Int}
    (hconfigured : propId ∈ allPropIds (config.nodes.flatMap GatewayNodeConfig.messages)) :
    ofProp propId (results.filterMap polledValue) = (vhal.reading stamp propId).toList := by
  have hall : ((VhalGateway.ofConfig config order).mGetRequests.map
      (vhal.handleGetValueRequest stamp)).filterMap polledValue =
        (order.visit (allPropIds (config.nodes.flatMap GatewayNodeConfig.messages))).filterMap
          (vhal.reading stamp) := by
    rw [VhalGateway.ofConfig, List.map_map, List.filterMap_map]
    conv_rhs => rw [← List.zipIdx_map_fst 0 (order.visit _), List.filterMap_map]
    exact List.filterMap_congr fun request _ =>
      polledValue_handleGetValueRequest vhal stamp request.2 request.1
  have hperm : (ofProp propId (results.filterMap polledValue)).Perm
      (vhal.reading stamp propId).toList := by
    rw [← ofProp_filterMap (fun q v => reading_prop) (order.nodup _)
      ((order.mem _ _).mpr hconfigured), ← hall]
    exact (h.filterMap polledValue).filter _
  rcases hread : vhal.reading stamp propId with _ | v
  · rw [hread] at hperm
    exact hperm.eq_nil
  · rw [hread] at hperm
    exact hperm.eq_singleton

/-- A changed value was polled. -/
theorem mem_polled_of_mem_changed {results : List GetValueResult}
    {previous : UnorderedMap Int VehiclePropValue} {v : VehiclePropValue}
    (h : v ∈ (detectChanges results previous).1) : v ∈ results.filterMap polledValue := by
  induction results generalizing previous with
  | nil => cases h
  | cons result results ih =>
      rcases hval : polledValue result with _ | val
      · simp only [detectChanges, hval] at h
        rw [List.filterMap_cons_none hval]
        exact ih h
      · simp only [detectChanges, hval] at h
        rw [List.filterMap_cons_some hval]
        rcases hchanged : isChanged previous val
        · rw [hchanged] at h
          exact List.mem_cons_of_mem _ (ih h)
        · rw [hchanged] at h
          rcases List.mem_cons.mp h with rfl | h
          · exact List.mem_cons_self ..
          · exact List.mem_cons_of_mem _ (ih h)

/-- A single reading of a property is a changed value if it differs from what is remembered. -/
theorem ofProp_changed {events : List GatewayEvent} {results : List GetValueResult}
    {propId : Int} {v : VehiclePropValue}
    (hpolled : ofProp propId (results.filterMap polledValue) = [v]) :
    ofProp propId (detectChanges results (history events).previous).1 =
      if isChanged (history events).previous v then [v] else [] := by
  have hprop : v.prop = propId := by
    have hmem : v ∈ ofProp propId (results.filterMap polledValue) := by
      rw [hpolled]
      exact List.mem_singleton_self v
    simpa using (List.mem_filter.mp hmem).2
  subst hprop
  have hprevious := (history_spec events v.prop).2
  obtain ⟨hspec, -⟩ := detectChanges_spec v.prop results _ _ hprevious
  rw [hpolled, destutter_concat_polled hprevious] at hspec
  split at hspec
  · next hchanged =>
    rw [if_pos hchanged]
    exact (List.append_cancel_left hspec).symm
  · next hchanged =>
    rw [if_neg hchanged]
    exact List.append_right_eq_self.mp hspec.symm

/-- The present cycle hands a value to every node that lists its property; the timestamp is one
of the client. -/
def HandedToNodes (config : GatewayConfig) (g : VhalGateway) (value : VehiclePropValue) : Prop :=
  ∀ n node, config.nodes[n]? = some node → value.prop ∈ allPropIds node.messages →
    ∃ b ∈ batches (node.messages.map GatewayMessage.filter) (g.pendingFor n), ∃ v ∈ b.values,
      v.prop = value.prop ∧ v.areaId = value.areaId ∧ v.value = value.value

/-- A configured property is handed over exactly if it is a changed value. -/
theorem handedToNodes_iff {config : GatewayConfig} {g : VhalGateway} {value : VehiclePropValue}
    {changed : List VehiclePropValue} (hpending : ∀ n, g.pendingFor n = changed)
    (hconfigured : value.prop ∈ allPropIds (config.nodes.flatMap GatewayNodeConfig.messages)) :
    HandedToNodes config g value ↔
      ∃ v ∈ ofProp value.prop changed, v.areaId = value.areaId ∧ v.value = value.value := by
  constructor
  · intro h
    rw [allPropIds, List.mem_toFinset] at hconfigured
    obtain ⟨msg, hmsg, hmem⟩ := List.mem_flatMap.mp hconfigured
    obtain ⟨node, hnode, hmsg⟩ := List.mem_flatMap.mp hmsg
    obtain ⟨n, hn⟩ := List.getElem?_of_mem hnode
    obtain ⟨b, hb, v, hv, hprop, harea, hvalue⟩ := h n node hn (by
      rw [allPropIds, List.mem_toFinset]
      exact List.mem_flatMap.mpr ⟨msg, hmsg, hmem⟩)
    have hall : v ∈ (batches (node.messages.map GatewayMessage.filter)
        (g.pendingFor n)).flatMap ForwardBatch.values := List.mem_flatMap.mpr ⟨b, hb, hv⟩
    rw [NodeForwarder.flatMap_values_batches, hpending n] at hall
    obtain ⟨_, _, hfilter⟩ := List.mem_flatMap.mp hall
    refine ⟨v, List.mem_filter.mpr ⟨(List.mem_filter.mp hfilter).1, ?_⟩, harea, hvalue⟩
    exact decide_eq_true hprop
  · rintro ⟨v, hv, harea, hvalue⟩ n node hn hlisted
    obtain ⟨hmem, hprop⟩ := List.mem_filter.mp hv
    have hprop := of_decide_eq_true hprop
    rw [allPropIds, List.mem_toFinset] at hlisted
    obtain ⟨msg, hmsg, hid⟩ := List.mem_flatMap.mp hlisted
    have hall : v ∈ (batches (node.messages.map GatewayMessage.filter)
        (g.pendingFor n)).flatMap ForwardBatch.values := by
      rw [NodeForwarder.flatMap_values_batches, hpending n]
      refine List.mem_flatMap.mpr ⟨msg.filter, List.mem_map_of_mem hmsg, ?_⟩
      refine List.mem_filter.mpr ⟨hmem, decide_eq_true ?_⟩
      rw [hprop]
      exact List.mem_toFinset.mpr hid
    obtain ⟨b, hb, hv⟩ := List.mem_flatMap.mp hall
    exact ⟨b, hb, v, hv, hprop, harea, hvalue⟩

/-- Without a successful poll nothing was polled. -/
theorem polledOf_of_not_successful {events : List GatewayEvent}
    (h : ∀ e ∈ events, ∀ results, e ≠ .poll statusOk results) (propId : Int) :
    polledOf events propId = [] := by
  have hnone : events.flatMap GatewayEvent.polled = [] := by
    refine List.flatMap_eq_nil_iff.mpr fun e he => ?_
    cases e with
    | poll status results =>
        rw [GatewayEvent.polled, if_neg]
        rintro rfl
        exact h _ he results rfl
    | _ => rfl
  rw [polledOf, hnone]
  rfl

/-- What was read of a property in the last successful poll decides whether a later reading is
a change. -/
theorem isChanged_iff_last_reading {events between : List GatewayEvent}
    {results : List GetValueResult} {propId : Int} {old new : VehiclePropValue}
    (hbetween : ∀ e ∈ between, ∀ results, e ≠ .poll statusOk results)
    (hpolled : ofProp propId (results.filterMap polledValue) = [old]) (hprop : new.prop = propId) :
    isChanged (history (events ++ .poll statusOk results :: between)).previous new = true ↔
      Differs old new := by
  have hseen : (polledOf (events ++ .poll statusOk results :: between) propId).getLast? =
      some old := by
    have hpoll : polledOf (.poll statusOk results :: between) propId = [old] := by
      rw [← List.singleton_append, polledOf_append, polledOf_of_not_successful hbetween,
        List.append_nil, ← hpolled, polledOf, List.flatMap_singleton, GatewayEvent.polled,
        if_pos rfl]
    rw [polledOf_append, hpoll, List.getLast?_concat]
  obtain ⟨it, hit, hkept⟩ := exists_kept_of_getLast? hseen
  rw [isChanged, hprop, (history_spec _ propId).2, hit]
  have hpayload : it.value = old.value := by
    rcases hkept with rfl | hsame
    · rfl
    · rw [Differs, Bool.not_eq_false] at hsame
      exact RawPropValues.eq_of_eq hsame
  simp only [hpayload, Differs, Bool.not_eq_true']

/-- A stored value of some area is handed to every node that lists its property exactly if the
second poll reads it, and it differs from what the first poll read or, if that read nothing,
from what is remembered. The second poll reads it exactly if no getter of the property answers
and the area is zero, or the getter answers with the same area and payload. -/
theorem area_change_handed_iff {config : GatewayConfig} {order : Traversal Int}
    {before after : LocalVhal} {stamp stamp' : VehiclePropValue → Int}
    {events between : List GatewayEvent} {results results' : List GetValueResult}
    {g g' : VhalGateway} {propId : Int} {recId : RecordId} {new : VehiclePropValue}
    (hpath : Path GatewayStep (.ofConfig config order)
      (events ++ .poll statusOk results :: between) g)
    (hbetween : ∀ e ∈ between, ∀ results, e ≠ .poll statusOk results)
    (hpoll : GatewayStep g (.poll statusOk results') g')
    (hanswers : before.Answers stamp (.ofConfig config order) results)
    (hanswers' : after.Answers stamp' (.ofConfig config order) results')
    (hconfigured : propId ∈ allPropIds (config.nodes.flatMap GatewayNodeConfig.messages))
    (hnew : after.mServerSidePropStore.stored propId recId = some new) :
    HandedToNodes config g' new ↔
      ((after.maybeGetSpecialValue { prop := propId, areaId := 0 } = none ∧ recId.area = 0) ∨
        ∃ read, after.maybeGetSpecialValue { prop := propId, areaId := 0 } = some (.ok read) ∧
          read.areaId = new.areaId ∧ read.value = new.value) ∧
      (∀ old, before.getValue { prop := propId, areaId := 0 } = .ok old → Differs old new) ∧
      ((∀ old, before.getValue { prop := propId, areaId := 0 } ≠ .ok old) →
        isChanged g.mPreviousValues new = true) := by
  have hprop : new.prop = propId := (after.reachable.valid.keyed propId _ new hnew).1
  have hpending (n : Nat) : g'.pendingFor n = (detectChanges results' g.mPreviousValues).1 := by
    cases hpoll with
    | poll status results hidle hopen => exact g.pendingFor_pollOnce results' n
  have hreads : (∃ read, after.reading stamp' propId = some read ∧ read.areaId = new.areaId ∧
      read.value = new.value) ↔ _ := LocalVhal.readsAs_iff hnew
  rw [handedToNodes_iff hpending (hprop ▸ hconfigured), hprop,
    (VhalGateway.follows_of_path hpath).previous, ← hreads]
  have hread := hanswers'.ofProp_polled hconfigured
  have hbefore := hanswers.ofProp_polled hconfigured
  have hchanged : isChanged (history (events ++ .poll statusOk results :: between)).previous new =
      true ↔
      (∀ old, before.getValue { prop := propId, areaId := 0 } = .ok old → Differs old new) ∧
      ((∀ old, before.getValue { prop := propId, areaId := 0 } ≠ .ok old) →
        isChanged (history (events ++ .poll statusOk results :: between)).previous new = true) := by
    rw [LocalVhal.reading] at hbefore
    cases hget : before.getValue { prop := propId, areaId := 0 } with
    | error code => simp
    | ok old =>
        rw [hget] at hbefore
        rw [isChanged_iff_last_reading hbetween hbefore hprop]
        simp [Differs]
  rw [← hchanged]
  constructor
  · rintro ⟨v, hv, harea, hvalue⟩
    have hpolled : v ∈ ofProp propId (results'.filterMap polledValue) := by
      obtain ⟨hmem, hv⟩ := List.mem_filter.mp hv
      exact List.mem_filter.mpr ⟨mem_polled_of_mem_changed hmem, hv⟩
    rw [hread] at hpolled
    have hreading := Option.mem_toList.mp hpolled
    rw [hreading] at hread
    refine ⟨⟨v, hreading, harea, hvalue⟩, ?_⟩
    rw [ofProp_changed hread] at hv
    split at hv
    · next hchanged' =>
      rwa [isChanged, LocalVhal.reading_prop hreading, hvalue, ← hprop] at hchanged'
    · cases hv
  · rintro ⟨⟨read, hreading, harea, hvalue⟩, hnew⟩
    rw [hreading] at hread
    refine ⟨read, ?_, harea, hvalue⟩
    have hchanged' : isChanged
        (history (events ++ .poll statusOk results :: between)).previous read = true := by
      rw [isChanged, LocalVhal.reading_prop hreading, hvalue, ← hprop]
      exact hnew
    rw [ofProp_changed hread, if_pos hchanged']
    exact List.mem_singleton_self _

/-- A local VHAL whose store has one property with one value. -/
def vhalWith (config : VehiclePropConfig) (value : VehiclePropValue) : LocalVhal where
  mServerSidePropStore := Operation.run
    [.registerProperty config none, .writeValue 0 value false .never false] {}
  maybeGetSpecialValue _ := none
  reachable := by
    refine PropertyStore.Reachable.empty.run fun op hop store => ?_
    rcases List.mem_cons.mp hop with rfl | hop
    · exact Or.inl rfl
    · rw [List.mem_singleton.mp hop]
      trivial
  special_prop _ _ h := nomatch h
  special_of_token v record hrecord htoken := by
    refine absurd ?_ htoken
    have hreg := VehiclePropertyStore.registration_writeValue
      (VehiclePropertyStore.registerProperty config none {}) 0 value false .never false v.prop
    rw [VehiclePropertyStore.registerProperty, VehiclePropertyStore.registration_withRecord,
      VehiclePropertyStore.registration] at hreg
    have hsome := (congrArg (Option.map fun r : PropertyStore.Record =>
      (r.propConfig, r.tokenFunction)) hrecord).symm.trans hreg
    split at hsome
    · exact congrArg Prod.snd (Option.some.inj hsome)
    · cases hsome

/-- One node with one group, which lists the position of the windows. -/
def windowConfig : GatewayConfig where
  nodes := [⟨"192.168.10.20:50051", [⟨"ivi-basic", [⟨0x13400bc0, "WINDOW_POS"⟩]⟩]⟩]

/-- The local VHAL with a position of the window in area sixteen. -/
def windowVhal (position timestamp : Int) : LocalVhal :=
  vhalWith { prop := 0x13400bc0, areaConfigs := [{ areaId := 0x10 }] }
    { prop := 0x13400bc0, areaId := 0x10, timestamp, value := { int32Values := [position] } }

/-- The local VHAL with a reading of the gear. -/
def gearVhal (value timestamp : Int) : LocalVhal :=
  vhalWith { prop := 0x11400400, areaConfigs := [{}] } (gear value timestamp)

/-- A config with one property has one request. -/
theorem mGetRequests_of_singleton {config : GatewayConfig} (propId : Int)
    (h : allPropIds (config.nodes.flatMap GatewayNodeConfig.messages) = {propId})
    (order : Traversal Int) :
    (VhalGateway.ofConfig config order).mGetRequests =
      [⟨0, { prop := propId, areaId := 0 }⟩] := by
  rw [VhalGateway.ofConfig, h, order.visit_singleton]
  rfl

/-- The gear changes between two polls, and the node is told. -/
theorem gear_change_handed :
    ∃ g g', Path GatewayStep (.ofConfig gearConfig (Traversal.ascending Int))
        [.poll 0 [⟨0, 0, some (gear 4 0)⟩], .forward, .done] g ∧
      GatewayStep g (.poll 0 [⟨0, 0, some (gear 8 0)⟩]) g' ∧
      HandedToNodes gearConfig g' (gear 8 2) := by
  have hanswers (value timestamp : Int)
      (hread : (gearVhal value timestamp).getValue { prop := 0x11400400, areaId := 0 } =
        .ok (gear value timestamp)) :
      (gearVhal value timestamp).Answers (fun _ => 0)
        (.ofConfig gearConfig (Traversal.ascending Int)) [⟨0, 0, some (gear value 0)⟩] := by
    refine List.Perm.of_eq ?_
    rw [mGetRequests_of_singleton 0x11400400 (by decide), List.map_singleton,
      LocalVhal.handleGetValueRequest, hread]
    rfl
  have hpath := Path.single (GatewayStep.poll
    (g := .ofConfig gearConfig (Traversal.ascending Int)) 0 [⟨0, 0, some (gear 4 0)⟩] rfl rfl)
  have hpath := hpath.snoc (.forward rfl Nat.zero_lt_one)
  have hpath := hpath.snoc (.done rfl (Nat.le_refl 1))
  refine ⟨_, _, hpath, .poll 0 [⟨0, 0, some (gear 8 0)⟩] rfl rfl, ?_⟩
  refine (@area_change_handed_iff gearConfig (Traversal.ascending Int) (gearVhal 4 1)
    (gearVhal 8 2) (fun _ => 0) (fun _ => 0) [] [.forward, .done] _ _ _ _ 0x11400400 ⟨0, 0⟩ _
    hpath (by simp) (.poll 0 _ rfl rfl) (hanswers 4 1 rfl) (hanswers 8 2 rfl) (by decide)
    rfl).mpr ⟨Or.inl ⟨rfl, rfl⟩, ?_, fun hnone => absurd rfl (hnone _)⟩
  intro old hold
  cases hold
  decide

/-- The window moves between two polls, and no node is told. -/
theorem window_change_not_handed :
    ¬∀ (config : GatewayConfig) (order : Traversal Int) (before after : LocalVhal)
      (stamp stamp' : VehiclePropValue → Int) (events between : List GatewayEvent)
      (results results' : List GetValueResult) (g g' : VhalGateway) (propId area : Int)
      (new : VehiclePropValue),
      Path GatewayStep (.ofConfig config order)
        (events ++ .poll statusOk results :: between) g →
      (∀ e ∈ between, ∀ results, e ≠ .poll statusOk results) →
      GatewayStep g (.poll statusOk results') g' →
      before.Answers stamp (.ofConfig config order) results →
      after.Answers stamp' (.ofConfig config order) results' →
      propId ∈ allPropIds (config.nodes.flatMap GatewayNodeConfig.messages) →
      before.maybeGetSpecialValue { prop := propId, areaId := 0 } = none →
      after.maybeGetSpecialValue { prop := propId, areaId := 0 } = none →
      after.mServerSidePropStore.stored propId ⟨area, 0⟩ = some new →
      (∃ old, before.mServerSidePropStore.stored propId ⟨area, 0⟩ = some old ∧
        Differs old new) →
      HandedToNodes config g' new := by
  intro hall
  have hanswers (position timestamp : Int)
      (hread : (windowVhal position timestamp).getValue { prop := 0x13400bc0, areaId := 0 } =
        .error 3) :
      (windowVhal position timestamp).Answers (fun _ => 0)
        (.ofConfig windowConfig (Traversal.ascending Int)) [⟨0, 3, none⟩] := by
    refine List.Perm.of_eq ?_
    rw [mGetRequests_of_singleton 0x13400bc0 (by decide), List.map_singleton,
      LocalVhal.handleGetValueRequest, hread]
  have hpath := Path.single (GatewayStep.poll
    (g := .ofConfig windowConfig (Traversal.ascending Int)) statusOk [⟨0, 3, none⟩] rfl rfl)
  have hhanded := hall windowConfig _ (windowVhal 1 1) (windowVhal 2 2) (fun _ => 0)
    (fun _ => 0) [] [] _ _ _ _ 0x13400bc0 0x10 _ hpath (by simp)
    (.poll statusOk [⟨0, 3, none⟩] rfl rfl) (hanswers 1 1 rfl) (hanswers 2 2 rfl) (by decide)
    rfl rfl rfl ⟨_, rfl, by decide⟩
  obtain ⟨b, hb, -⟩ := hhanded 0 _ rfl (by decide)
  cases hb

end VhalCore.Gateway
