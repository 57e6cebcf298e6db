import VhalCore.Core.Destutter
import VhalCore.Models.Gateway.Native.Gateway

/-!
# The cycles of a run

The polls of a run give the changed values of each cycle, and what is remembered for the next
one. For one property the changed values of all cycles are the polled ones without consecutive
repetitions. A node gets of every cycle one batch for each group that has a changed value, and
the batches that were handed over, that the worker has in its hand, that are queued and that
are still to be queued are together those of all cycles, in their order.
-/

namespace VhalCore.Gateway

open Grpc (GetValueResult)

/-- The payloads differ, as generated code compares them. -/
def Differs (a b : VehiclePropValue) : Prop := a.value.eq b.value = false

instance : DecidableRel Differs := fun _ _ => inferInstanceAs (Decidable (_ = _))

/-- The changed values of each successful poll, and what is remembered after them. -/
structure History where
  cycles : List (List VehiclePropValue) := []
  previous : UnorderedMap Int VehiclePropValue := ∅

/-- A successful poll adds a cycle. -/
def History.add (h : History) : GatewayEvent → History
  | .poll status results =>
      if status = statusOk then
        ⟨h.cycles ++ [(detectChanges results h.previous).1], (detectChanges results h.previous).2⟩
      else h
  | _ => h

/-- The cycles of a run, and the values they leave. -/
def history (events : List GatewayEvent) : History := events.foldl History.add {}

/-- The values that one step polls with success. -/
def GatewayEvent.polled : GatewayEvent → List VehiclePropValue
  | .poll status results => if status = statusOk then results.filterMap polledValue else []
  | _ => []

/-- The values of one property. -/
def ofProp (propId : Int) (values : List VehiclePropValue) : List VehiclePropValue :=
  values.filter fun v => v.prop = propId

/-- The values of a property that a run polls with success. -/
def polledOf (events : List GatewayEvent) (propId : Int) : List VehiclePropValue :=
  ofProp propId (events.flatMap GatewayEvent.polled)

theorem history_concat (events : List GatewayEvent) (e : GatewayEvent) :
    history (events ++ [e]) = (history events).add e := by
  rw [history, List.foldl_append]
  rfl

theorem ofProp_append (propId : Int) (a b : List VehiclePropValue) :
    ofProp propId (a ++ b) = ofProp propId a ++ ofProp propId b :=
  List.filter_append ..

/-- A value in front counts exactly if it is of the property. -/
theorem ofProp_cons (propId : Int) (v : VehiclePropValue) (vs : List VehiclePropValue) :
    ofProp propId (v :: vs) =
      if v.prop = propId then v :: ofProp propId vs else ofProp propId vs := by
  rw [ofProp, List.filter_cons]
  simp only [decide_eq_true_eq]
  rfl

theorem polledOf_append (as bs : List GatewayEvent) (propId : Int) :
    polledOf (as ++ bs) propId = polledOf as propId ++ polledOf bs propId := by
  rw [polledOf, List.flatMap_append, ofProp_append]
  rfl

/-- A value is changed exactly if the removal of repetitions keeps it. -/
theorem destutter_concat_polled {previous : UnorderedMap Int VehiclePropValue}
    {seen : List VehiclePropValue} {val : VehiclePropValue}
    (h : previous.lookup val.prop = (seen.destutter Differs).getLast?) :
    (seen ++ [val]).destutter Differs =
      if isChanged previous val then seen.destutter Differs ++ [val]
      else seen.destutter Differs := by
  rw [isChanged, h]
  rcases hlast : (seen.destutter Differs).getLast? with _ | it
  · exact destutter_concat_of_rel Differs (by simp [hlast])
  · rcases hsame : it.value.eq val.value
    · simp only [hsame, Bool.not_false, ite_true]
      exact destutter_concat_of_rel Differs (by simp [hlast, Differs, hsame])
    · simp only [hsame, Bool.not_true, Bool.false_eq_true, ite_false]
      exact destutter_concat_of_not_rel Differs hlast (by simp [Differs, hsame])

/-- The loop over the results continues the removal of repetitions, for every property. -/
theorem detectChanges_spec (propId : Int) (results : List GetValueResult)
    (previous : UnorderedMap Int VehiclePropValue) (seen : List VehiclePropValue)
    (h : previous.lookup propId = (seen.destutter Differs).getLast?) :
    (seen ++ ofProp propId (results.filterMap polledValue)).destutter Differs =
        seen.destutter Differs ++ ofProp propId (detectChanges results previous).1 ∧
      (detectChanges results previous).2.lookup propId =
        ((seen ++ ofProp propId (results.filterMap polledValue)).destutter Differs).getLast? := by
  induction results generalizing previous seen with
  | nil =>
      rw [List.filterMap_nil, ofProp, List.filter_nil, List.append_nil]
      exact ⟨(List.append_nil _).symm, h⟩
  | cons result results ih =>
      rcases hval : polledValue result with _ | val
      · rw [List.filterMap_cons_none hval]
        simp only [detectChanges, hval]
        exact ih previous seen h
      · rw [List.filterMap_cons_some hval, ofProp_cons]
        simp only [detectChanges, hval]
        by_cases hprop : val.prop = propId
        · rw [if_pos hprop]
          have hsplit (vs : List VehiclePropValue) : seen ++ val :: vs = (seen ++ [val]) ++ vs := by
            simp
          rw [hsplit]
          have hone := destutter_concat_polled (hprop ▸ h)
          rcases hchanged : isChanged previous val
          · rw [hchanged, if_neg Bool.false_ne_true] at hone
            have hrest := ih previous (seen ++ [val]) (by rw [hone]; exact h)
            rw [hone] at hrest
            simpa using hrest
          · rw [hchanged, if_pos rfl] at hone
            have hrest := ih (previous.insert val.prop val) (seen ++ [val]) (by
              rw [hone, UnorderedMap.lookup_insert_eq, if_pos hprop.symm, List.getLast?_concat])
            rw [hone] at hrest
            simp only [ite_true]
            rw [ofProp_cons, if_pos hprop]
            refine ⟨?_, hrest.2⟩
            rw [hrest.1]
            simp
        · rw [if_neg hprop]
          rcases isChanged previous val
          · exact ih previous seen h
          · simp only [ite_true]
            rw [ofProp_cons, if_neg hprop]
            refine ih _ seen ?_
            rw [UnorderedMap.lookup_insert_eq, if_neg (Ne.symm hprop)]
            exact h

/-- The kept value that the last one was compared with, or the last one itself. -/
theorem exists_kept_of_getLast? {seen : List VehiclePropValue} {last : VehiclePropValue}
    (h : seen.getLast? = some last) :
    ∃ it, (seen.destutter Differs).getLast? = some it ∧ (it = last ∨ ¬Differs it last) := by
  obtain ⟨init, rfl⟩ := List.getLast?_eq_some_iff.mp h
  by_cases hkept : ∀ it, (init.destutter Differs).getLast? = some it → Differs it last
  · rw [destutter_concat_of_rel Differs hkept, List.getLast?_concat]
    exact ⟨last, rfl, Or.inl rfl⟩
  · obtain ⟨it, hit⟩ := not_forall.mp hkept
    obtain ⟨hlast, hsame⟩ := Classical.not_imp.mp hit
    rw [destutter_concat_of_not_rel Differs hlast hsame]
    exact ⟨it, hlast, Or.inr hsame⟩

/-- What a run has polled decides the changed values of its cycles and what is remembered. -/
theorem history_spec (events : List GatewayEvent) (propId : Int) :
    (polledOf events propId).destutter Differs = ofProp propId (history events).cycles.flatten ∧
      (history events).previous.lookup propId =
        ((polledOf events propId).destutter Differs).getLast? := by
  induction events using List.reverseRecOn with
  | nil => exact ⟨rfl, rfl⟩
  | append_singleton events e ih =>
      have hlast : polledOf [e] propId = ofProp propId e.polled := by
        rw [polledOf, List.flatMap_singleton]
      rw [history_concat, polledOf_append, hlast]
      cases e with
      | poll status results =>
          by_cases hok : status = statusOk
          · obtain ⟨hcycle, hprevious⟩ := detectChanges_spec propId results _ _ ih.2
            simp only [GatewayEvent.polled, if_pos hok, History.add, List.flatten_append,
              List.flatten_singleton, ofProp_append]
            rw [← ih.1]
            exact ⟨hcycle, hprevious⟩
          · simp only [GatewayEvent.polled, if_neg hok, History.add]
            simpa [ofProp] using ih
      | _ => simpa [GatewayEvent.polled, History.add, ofProp] using ih

/-- The values of the batches of one group. -/
def groupValues (group : Nat) (batches : List ForwardBatch) : List VehiclePropValue :=
  (batches.filter fun b => b.group = group).flatMap ForwardBatch.values

theorem groupValues_append (group : Nat) (as bs : List ForwardBatch) :
    groupValues group (as ++ bs) = groupValues group as ++ groupValues group bs := by
  rw [groupValues, List.filter_append, List.flatMap_append]
  rfl

namespace NodeForwarder

theorem batches_nil (messages : List MessageFilter) : batches messages [] = [] := by
  simp [batches, batchOf]

/-- A batch belongs to the message it was made for. -/
theorem group_of_batchOf {values : List VehiclePropValue} {entry : MessageFilter × Nat}
    {b : ForwardBatch} (h : batchOf values entry = some b) : b.group = entry.2 := by
  rw [batchOf] at h
  split at h
  · cases h
  · cases h
    rfl

/-- Without a value that belongs to some group there is no batch. -/
theorem batches_eq_nil {messages : List MessageFilter} {values : List VehiclePropValue}
    (h : ∀ msg ∈ messages, ∀ v ∈ values, v.prop ∉ msg.propIds) : batches messages values = [] := by
  refine List.filterMap_eq_nil_iff.mpr fun ⟨msg, group⟩ hmem => ?_
  have hmsg := List.fst_mem_of_mem_zipIdx hmem
  have hnone : values.filter (fun v => v.prop ∈ msg.propIds) = [] := by
    refine List.filter_eq_nil_iff.mpr fun v hv => ?_
    simpa using h msg hmsg v hv
  simp only [batchOf, hnone, ite_true]

/-- Each message has at most one batch of a cycle. -/
theorem filter_batches_zipIdx {messages : List MessageFilter} {i : Nat} {msg : MessageFilter}
    (h : messages[i]? = some msg) (values : List VehiclePropValue) (k : Nat) :
    ((messages.zipIdx k).filterMap (batchOf values)).filter (fun b => b.group = k + i) =
      (batchOf values (msg, k + i)).toList := by
  induction messages generalizing k i with
  | nil => cases h
  | cons m ms ih =>
      rw [List.zipIdx_cons, List.filterMap_cons]
      have hhead {b : ForwardBatch} (hb : batchOf values (m, k) = some b) : b.group = k :=
        group_of_batchOf hb
      cases i with
      | zero =>
          obtain rfl : m = msg := by simpa using h
          have hrest : ((ms.zipIdx (k + 1)).filterMap (batchOf values)).filter
              (fun b => b.group = k + 0) = [] := by
            refine List.filter_eq_nil_iff.mpr fun b hb => ?_
            obtain ⟨entry, hentry, hbatch⟩ := List.mem_filterMap.mp hb
            have hle := (List.mem_zipIdx hentry).1
            have hgroup := group_of_batchOf hbatch
            simp only [decide_eq_true_eq]
            omega
          rcases hb : batchOf values (m, k) with _ | b
          · simp only [Nat.add_zero] at hrest ⊢
            rw [hrest]
            rfl
          · simp only [Nat.add_zero] at hrest ⊢
            rw [List.filter_cons, hrest, if_pos (by simp [hhead hb])]
            rfl
      | succ i =>
          have hrest := ih (show ms[i]? = some msg by simpa using h) (k + 1)
          rw [show k + 1 + i = k + (i + 1) by omega] at hrest
          rcases hb : batchOf values (m, k) with _ | b
          · exact hrest
          · have hgroup := hhead hb
            simp only
            rw [List.filter_cons, if_neg (by simp [hgroup]), hrest]

/-- A cycle has one batch for a group with a changed value, with exactly these values, and none
for any other group. -/
theorem batches_of_group {messages : List MessageFilter} {group : Nat} {msg : MessageFilter}
    (h : messages[group]? = some msg) (values : List VehiclePropValue) :
    (batches messages values).filter (fun b => b.group = group) =
      (batchOf values (msg, group)).toList := by
  have hgeneral := filter_batches_zipIdx h values 0
  rwa [Nat.zero_add] at hgeneral

/-- The same, by the ids of the properties that the group lists. -/
theorem batches_of_message {messages : List GatewayMessage} {group : Nat} {msg : GatewayMessage}
    (h : messages[group]? = some msg) (values : List VehiclePropValue) :
    (batches (messages.map GatewayMessage.filter) values).filter (fun b => b.group = group) =
      match values.filter fun v => v.prop ∈ msg.properties.map GatewayProperty.id with
      | [] => []
      | v :: vs => [⟨msg.msgId, v :: vs, group⟩] := by
  have hfilter : (messages.map GatewayMessage.filter)[group]? = some msg.filter := by
    rw [List.getElem?_map, h]
    rfl
  have hmatching : values.filter (fun v => v.prop ∈ msg.filter.propIds) =
      values.filter fun v => v.prop ∈ msg.properties.map GatewayProperty.id := by
    refine List.filter_congr fun v _ => ?_
    simp only [GatewayMessage.filter, List.mem_toFinset]
  rw [batches_of_group hfilter, batchOf]
  simp only [hmatching]
  split
  · rename_i hnil
    rw [hnil]
    rfl
  · rcases hcons : values.filter fun v => v.prop ∈ msg.properties.map GatewayProperty.id with
      _ | ⟨v, vs⟩
    · contradiction
    · rw [hcons]
      rfl

/-- The values that a cycle gives to a group. -/
theorem groupValues_batches {messages : List MessageFilter} {group : Nat} {msg : MessageFilter}
    (h : messages[group]? = some msg) (values : List VehiclePropValue) :
    groupValues group (batches messages values) =
      values.filter fun v => v.prop ∈ msg.propIds := by
  rw [groupValues, batches_of_group h, batchOf]
  split
  · rename_i hnone
    exact hnone.symm
  · simp

/-- Together the batches of a cycle have the values of every group, one group after another. -/
theorem flatMap_values_batches (messages : List MessageFilter)
    (values : List VehiclePropValue) :
    (batches messages values).flatMap ForwardBatch.values =
      messages.flatMap fun msg => values.filter fun v => v.prop ∈ msg.propIds := by
  have hgeneral (k : Nat) : ((messages.zipIdx k).filterMap (batchOf values)).flatMap
      ForwardBatch.values =
        messages.flatMap fun msg => values.filter fun v => v.prop ∈ msg.propIds := by
    induction messages generalizing k with
    | nil => rfl
    | cons msg messages ih =>
        rw [List.zipIdx_cons, List.filterMap_cons, List.flatMap_cons, ← ih (k + 1)]
        simp only [batchOf]
        by_cases hnone : (values.filter fun v => v.prop ∈ msg.propIds) = []
        · rw [if_pos hnone, hnone, List.nil_append]
        · rw [if_neg hnone, List.flatMap_cons]
  exact hgeneral 0

/-- The batches of a message carry all values of its properties. -/
theorem ofProp_groupValues {messages : List MessageFilter} {group : Nat} {msg : MessageFilter}
    (h : messages[group]? = some msg) {propId : Int} (hprop : propId ∈ msg.propIds)
    (cycles : List (List VehiclePropValue)) :
    ofProp propId (groupValues group (cycles.flatMap (batches messages))) =
      ofProp propId cycles.flatten := by
  induction cycles with
  | nil => rfl
  | cons c cycles ih =>
      rw [List.flatMap_cons, groupValues_append, ofProp_append, ih, List.flatten_cons,
        ofProp_append, groupValues_batches h]
      congr 1
      rw [ofProp, ofProp, List.filter_filter]
      refine List.filter_congr fun v _ => ?_
      by_cases hv : v.prop = propId
      · simp [hv, hprop]
      · simp [hv]

end NodeForwarder

end VhalCore.Gateway
