import VhalCore.Models.PropertyStore.Interpretation.Refreshes

/-!
# The order of the stored timestamps

A write compares its timestamp with the stored one and fails if it is older. A refresh
assigns the time of the clock without a comparison. So along a run the timestamp under a
record id goes back exactly in the refreshes that find it ahead of the clock, and a value
that was outdated before is then accepted.
-/

namespace VhalCore.PropertyStore

namespace Operation

/-- The call neither removes values of the property nor registers it. -/
def Keeps (propId : Int) : Operation → Prop
  | .registerProperty config _ => config.prop ≠ propId
  | .removeValue propValue => propValue.prop ≠ propId
  | .removeValuesForProperty p => p ≠ propId
  | _ => True

/-- The readings of the clock during a call, in their order. -/
def readings : Operation → List Int
  | .writeValue now _ _ _ useCurrentTimestamp => if useCurrentTimestamp then [now] else []
  | .refreshTimestamps now order eventModes => (order.visit eventModes.keys).map now
  | _ => []

end Operation

open VehiclePropertyStore

/-- A refresh leaves no timestamp of the property behind the stored one. -/
def Operation.InTime (propId : Int) (store : VehiclePropertyStore) : Operation → Prop
  | .refreshTimestamps now order eventModes => ∀ recId value reading,
      store.stored propId recId = some value →
      store.refreshReading now propId recId (order.entries eventModes |>.map Prod.fst) =
        some reading → value.timestamp ≤ reading
  | _ => True

/-- Between two points of a run the timestamps of the property do not go back, and what was
outdated stays so. -/
structure NeverBackwards (propId : Int) (earlier later : VehiclePropertyStore) : Prop where
  timestamps : ∀ recId old, earlier.stored propId recId = some old →
    ∃ new, later.stored propId recId = some new ∧ old.timestamp ≤ new.timestamp
  outdated : ∀ v, v.prop = propId → earlier.IsOutdated v → later.IsOutdated v

namespace NeverBackwards

variable {propId : Int} {a b c : VehiclePropertyStore}

/-- With the same token function, timestamps that do not go back keep values outdated. -/
theorem of_timestamps
    (h : ∀ recId old, a.stored propId recId = some old →
      ∃ new, b.stored propId recId = some new ∧ old.timestamp ≤ new.timestamp)
    (hid : ∀ v, v.prop = propId → b.recordIdOf v = a.recordIdOf v) : NeverBackwards propId a b := by
  refine ⟨h, fun v hv => ?_⟩
  rintro ⟨old, hold, hlt⟩
  obtain ⟨recId, hrec, hstored⟩ := Option.bind_eq_some_iff.mp hold
  subst hv
  obtain ⟨new, hnew, hle⟩ := h recId old hstored
  refine ⟨new, ?_, hlt.trans_le hle⟩
  rw [storedFor, hid v rfl, hrec, Option.bind_some, hnew]

theorem refl (propId : Int) (a : VehiclePropertyStore) : NeverBackwards propId a a :=
  ⟨fun _ old hold => ⟨old, hold, le_rfl⟩, fun _ _ h => h⟩

/-- Two changes that never go backwards do not together. -/
theorem trans (h₁ : NeverBackwards propId a b) (h₂ : NeverBackwards propId b c) :
    NeverBackwards propId a c := by
  refine ⟨fun recId old hold => ?_, fun v hv h => h₂.outdated v hv (h₁.outdated v hv h)⟩
  obtain ⟨mid, hmid, hle⟩ := h₁.timestamps recId old hold
  obtain ⟨new, hnew, hle'⟩ := h₂.timestamps recId mid hmid
  exact ⟨new, hnew, hle.trans hle'⟩

/-- Nothing of the property changed. -/
theorem of_same_record (h : b.getRecordLocked propId = a.getRecordLocked propId) :
    NeverBackwards propId a b := by
  refine of_timestamps (fun recId old hold => ⟨old, ?_, le_rfl⟩) fun v hv => ?_
  · rw [stored, h]
    exact hold
  · rw [recordIdOf, recordIdOf, hv, h]

end NeverBackwards

/-- A change to the record of another property. -/
theorem getRecordLocked_withRecord_of_ne {store : VehiclePropertyStore} {propId p : Int}
    (h : p ≠ propId) (record : Record) :
    (store.withRecord p record).getRecordLocked propId = store.getRecordLocked propId := by
  rw [getRecordLocked_withRecord, if_neg h.symm]

/-- A write never lowers a timestamp. -/
theorem neverBackwards_writeValue (store : VehiclePropertyStore) (propId now : Int)
    (propValue : VehiclePropValue) (updateStatus : Bool) (eventMode : EventMode)
    (useCurrentTimestamp : Bool) :
    NeverBackwards propId store
      (store.writeValue now propValue updateStatus eventMode useCurrentTimestamp).2.2 := by
  by_cases hw : store.Writable (stamp now useCurrentTimestamp propValue)
  · rw [writeValue_of_writable hw]
    generalize stamp now useCurrentTimestamp propValue = v at hw
    refine .of_timestamps (fun recId old hold => ?_) fun x _ => recordIdOf_put store v _ x
    rw [stored_put hw.registered]
    by_cases hsame : propId = v.prop ∧ store.recordIdOf v = some recId
    · refine ⟨_, if_pos hsame, ?_⟩
      by_contra hlt
      refine hw.current ⟨old, ?_, not_le.mp hlt⟩
      rw [storedFor, hsame.2, Option.bind_some, ← hsame.1, hold]
    · exact ⟨old, (if_neg hsame).trans hold, le_rfl⟩
  · obtain ⟨e, he⟩ := writeValue_of_not_writable hw updateStatus eventMode
    rw [he]
    exact .refl propId store

/-- A refresh lowers no timestamp of the property exactly if it is in time. -/
theorem neverBackwards_refreshTimestamps_iff (store : VehiclePropertyStore) (propId : Int)
    (now : PropIdAreaId → Int) (order : Traversal PropIdAreaId)
    (eventModes : UnorderedMap PropIdAreaId EventMode) :
    NeverBackwards propId store (store.refreshTimestamps now order eventModes).2 ↔
      (Operation.refreshTimestamps now order eventModes).InTime propId store := by
  have hstored (recId : RecordId) :=
    stored_refreshLoop now (order.entries eventModes) store propId recId
  constructor
  · intro h recId value reading hvalue hreading
    obtain ⟨new, hnew, hle⟩ := h.timestamps recId value hvalue
    rw [refreshTimestamps, hstored, hvalue, hreading] at hnew
    cases hnew
    exact hle
  · intro h
    refine .of_timestamps (fun recId old hold => ?_) fun v _ => ?_
    · rw [refreshTimestamps, hstored, hold]
      refine ⟨_, rfl, ?_⟩
      rcases hr : store.refreshReading now propId recId
        ((order.entries eventModes).map Prod.fst) with _ | reading
      · exact le_rfl
      · exact h recId old reading hold hr
    · exact recordIdOf_congr (registration_refreshLoop now _ store v.prop)

/-- A call lowers no timestamp of the property exactly if it is in time. -/
theorem neverBackwards_apply_iff {propId : Int} {op : Operation} (hop : op.Keeps propId)
    (store : VehiclePropertyStore) :
    NeverBackwards propId store (op.apply store) ↔ op.InTime propId store := by
  cases op with
  | registerProperty config tokenFunc =>
      exact iff_of_true (.of_same_record (getRecordLocked_withRecord_of_ne hop _)) trivial
  | writeValue now propValue updateStatus eventMode useCurrentTimestamp =>
      exact iff_of_true (neverBackwards_writeValue ..) trivial
  | refreshTimestamps now order eventModes => exact neverBackwards_refreshTimestamps_iff ..
  | removeValue propValue =>
      refine iff_of_true (.of_same_record ?_) trivial
      rw [Operation.apply, removeValue]
      split
      · rfl
      · exact getRecordLocked_withRecord_of_ne hop _
  | removeValuesForProperty p =>
      refine iff_of_true (.of_same_record ?_) trivial
      rw [Operation.apply, removeValuesForProperty]
      split
      · rfl
      · exact getRecordLocked_withRecord_of_ne hop _
  | read => exact iff_of_true (.refl propId store) trivial

/-- Along a run that keeps the values of a property its stored timestamps never go back, and
outdated values stay so, exactly if no refresh finds a timestamp ahead of the clock. -/
theorem timestamps_never_backwards_iff (propId : Int) (store : VehiclePropertyStore)
    (ops : List Operation) (hops : ∀ op ∈ ops, op.Keeps propId) :
    (∀ before middle after, ops = before ++ middle ++ after →
      NeverBackwards propId (Operation.run before store)
        (Operation.run (before ++ middle) store)) ↔
    ∀ before op after, ops = before ++ op :: after →
      op.InTime propId (Operation.run before store) := by
  have hsnoc (before : List Operation) (op : Operation) :
      Operation.run (before ++ [op]) store = op.apply (Operation.run before store) := by
    simp only [Operation.run, List.foldl_append, List.foldl_cons, List.foldl_nil]
  constructor
  · intro h before op after heq
    have hkeeps := hops op (by rw [heq]; simp)
    rw [← neverBackwards_apply_iff hkeeps, ← hsnoc]
    exact h before [op] after (by rw [heq]; simp)
  · intro h before middle
    induction middle using List.reverseRecOn with
    | nil =>
        intro after _
        rw [List.append_nil]
        exact .refl propId _
    | append_singleton middle op ih =>
        intro after heq
        have hsplit : ops = (before ++ middle) ++ op :: after := by
          rw [heq]
          simp
        have hkeeps := hops op (by rw [hsplit]; simp)
        have hlast := (neverBackwards_apply_iff hkeeps _).mpr (h _ op after hsplit)
        rw [← hsnoc, List.append_assoc] at hlast
        exact (ih (op :: after) (by rw [hsplit])).trans hlast

/-- The speed of the vehicle, which a client refreshes. -/
def speedId : Int := 0x11600207

/-- A store with the speed registered. -/
def speedStore : VehiclePropertyStore :=
  ({} : VehiclePropertyStore).registerProperty { prop := speedId } none

/-- A speed from the bus, with a time of its own. -/
def speedAt (timestamp : Int) : VehiclePropValue :=
  { prop := speedId, timestamp, value := { floatValues := [.zero] } }

/-- The speed is written with a timestamp and refreshed at a time of the clock. -/
def writeThenRefresh (timestamp now : Int) : List Operation :=
  [.writeValue 0 (speedAt timestamp) true .onValueChange false,
    .refreshTimestamps (fun _ => now) (.ascending PropIdAreaId)
      (Finmap.singleton ⟨speedId, 0⟩ .always)]

theorem writeThenRefresh_keeps (timestamp now : Int) :
    ∀ op ∈ writeThenRefresh timestamp now, op.Keeps speedId := by
  intro op hop
  simp only [writeThenRefresh, List.mem_cons, List.not_mem_nil, or_false] at hop
  rcases hop with rfl | rfl <;> trivial

/-- A speed that is behind the clock keeps its order. -/
theorem speed_behind_clock_in_order :
    (∀ op ∈ writeThenRefresh 3 5, op.Keeps speedId) ∧
    ∀ before middle after, writeThenRefresh 3 5 = before ++ middle ++ after →
      NeverBackwards speedId (Operation.run before speedStore)
        (Operation.run (before ++ middle) speedStore) := by
  refine ⟨writeThenRefresh_keeps 3 5,
    (timestamps_never_backwards_iff speedId speedStore _ (writeThenRefresh_keeps 3 5)).mpr ?_⟩
  intro before op after heq
  match before, heq with
  | [], heq =>
      cases heq
      trivial
  | [write], heq =>
      cases heq
      intro recId value reading hvalue hreading
      obtain rfl : recId = ⟨0, 0⟩ := by
        by_contra hne
        have hnot : ¬(Operation.run [.writeValue 0 (speedAt 3) true .onValueChange false]
            speedStore).refreshes ⟨speedId, 0⟩ speedId recId := by
          rintro ⟨_, hid⟩
          exact hne (Option.some.inj (hid.symm.trans (by decide)))
        have hpairs : ((Traversal.ascending PropIdAreaId).entries
            (Finmap.singleton ⟨speedId, 0⟩ EventMode.always)).map Prod.fst = [⟨speedId, 0⟩] := by
          decide
        rw [hpairs, refreshReading, if_neg hnot] at hreading
        cases hreading
      have hthree : (Operation.run [.writeValue 0 (speedAt 3) true .onValueChange false]
          speedStore).stored speedId ⟨0, 0⟩ = some (speedAt 3) := by decide
      cases hthree.symm.trans hvalue
      cases hreading.symm.trans (show _ = some 5 by decide)
      decide
  | _ :: _ :: [], heq => cases heq
  | _ :: _ :: _ :: _, heq => cases heq

/-- A speed ahead of the clock is set back by a refresh, and an older speed is accepted. -/
theorem refresh_sets_speed_back :
    ¬∀ (propId : Int) (store : VehiclePropertyStore) (ops : List Operation),
      (ops.flatMap Operation.readings).Pairwise (· ≤ ·) → (∀ op ∈ ops, op.Keeps propId) →
      ∀ before middle after, ops = before ++ middle ++ after →
        NeverBackwards propId (Operation.run before store)
          (Operation.run (before ++ middle) store) := by
  intro h
  have hback := (h speedId speedStore (writeThenRefresh 100 5) (by decide)
    (writeThenRefresh_keeps 100 5)
    [.writeValue 0 (speedAt 100) true .onValueChange false]
    [.refreshTimestamps (fun _ => 5) (.ascending PropIdAreaId)
      (Finmap.singleton ⟨speedId, 0⟩ .always)] [] rfl).timestamps ⟨0, 0⟩ (speedAt 100) (by decide)
  obtain ⟨new, hnew, hle⟩ := hback
  have hfive : (Operation.run (writeThenRefresh 100 5) speedStore).stored speedId ⟨0, 0⟩ =
      some (speedAt 5) := by decide
  cases hfive.symm.trans hnew
  exact absurd hle (by decide)

end VhalCore.PropertyStore
