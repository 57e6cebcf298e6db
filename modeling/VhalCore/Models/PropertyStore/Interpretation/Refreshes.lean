import VhalCore.Models.PropertyStore.Interpretation.Writes

/-!
# What a refresh does to the records

A refresh takes the pairs in turn. In the turn of a pair the record of its area without a
token keeps its value and gets the time of the clock. So in the end a record has the time
that was read in the last turn that concerned it.
-/

namespace VhalCore.PropertyStore

namespace VehiclePropertyStore

/-- A refresh of the pair concerns the record. -/
def refreshes (store : VehiclePropertyStore) (propIdAreaId : PropIdAreaId) (propId : Int)
    (recId : RecordId) : Prop :=
  propIdAreaId.propId = propId ∧
    store.recordIdOf { areaId := propIdAreaId.areaId, prop := propIdAreaId.propId } = some recId

instance (store : VehiclePropertyStore) (propIdAreaId : PropIdAreaId) (propId : Int)
    (recId : RecordId) : Decidable (store.refreshes propIdAreaId propId recId) :=
  inferInstanceAs (Decidable (_ ∧ _))

/-- The reading of the clock that a refresh leaves in a record: the one in the last turn that
concerns the record. -/
def refreshReading (store : VehiclePropertyStore) (now : PropIdAreaId → Int) (propId : Int)
    (recId : RecordId) : List PropIdAreaId → Option Int
  | [] => none
  | pair :: pairs => (store.refreshReading now propId recId pairs).or
      (if store.refreshes pair propId recId then some (now pair) else none)

/-- The store of the refreshed pair is the one with the new value put in its record. -/
theorem refreshLocked_snd (store : VehiclePropertyStore) (now : Int) (pair : PropIdAreaId) :
    (store.refreshLocked now pair).2 =
      match store.storedFor { areaId := pair.areaId, prop := pair.propId } with
      | none => store
      | some value => store.put { areaId := pair.areaId, prop := pair.propId }
          { value with timestamp := now } := by
  rw [refreshLocked]
  rcases hr : store.getRecordLocked pair.propId with _ | record
  · rw [storedFor, recordIdOf, hr]
    rfl
  · let v : VehiclePropValue := { areaId := pair.areaId, prop := pair.propId }
    have hv : store.getRecordLocked v.prop = some record := hr
    rw [storedFor_of_record hv]
    rcases hl : record.values.lookup (getRecordIdLocked v record) with _ | value
    · simp only [v, hl]
    · simp only [v, hl, put_of_record hv]

/-- A refresh changes no registration. -/
theorem registration_refreshLocked (store : VehiclePropertyStore) (now : Int)
    (pair : PropIdAreaId) (propId : Int) :
    (store.refreshLocked now pair).2.registration propId = store.registration propId := by
  rw [refreshLocked_snd]
  split
  · rfl
  · exact registration_put ..

/-- A refreshed record keeps its value and gets the time of the clock. -/
theorem stored_refreshLocked (store : VehiclePropertyStore) (now : Int) (pair : PropIdAreaId)
    (propId : Int) (recId : RecordId) :
    (store.refreshLocked now pair).2.stored propId recId =
      (store.stored propId recId).map fun value =>
        if store.refreshes pair propId recId then { value with timestamp := now } else value := by
  rw [refreshLocked_snd]
  split
  · rename_i hnone
    rcases hs : store.stored propId recId with _ | value
    · rfl
    · rw [Option.map_some, if_neg]
      rintro ⟨rfl, hid⟩
      rw [storedFor, hid, Option.bind_some, hs] at hnone
      cases hnone
  · rename_i value hvalue
    have hreg : store.IsRegistered pair.propId := by
      rw [storedFor, recordIdOf] at hvalue
      rw [IsRegistered]
      rcases hr : store.getRecordLocked pair.propId with _ | record
      · rw [hr] at hvalue
        cases hvalue
      · rfl
    rw [stored_put hreg]
    by_cases h : store.refreshes pair propId recId
    · obtain ⟨rfl, hid⟩ := h
      rw [storedFor, hid, Option.bind_some] at hvalue
      rw [if_pos ⟨rfl, hid⟩, hvalue, Option.map_some, if_pos ⟨rfl, hid⟩]
    · rw [if_neg fun hc => h ⟨hc.1.symm, hc.2⟩]
      simp only [h, ite_false, Option.map_id']

/-- What a refresh reads depends on the registrations only. -/
theorem refreshReading_congr {store store' : VehiclePropertyStore}
    (h : ∀ v, store'.recordIdOf v = store.recordIdOf v) (now : PropIdAreaId → Int) (propId : Int)
    (recId : RecordId) (pairs : List PropIdAreaId) :
    store'.refreshReading now propId recId pairs = store.refreshReading now propId recId pairs := by
  induction pairs with
  | nil => rfl
  | cons pair pairs ih =>
      have hsame : store'.refreshes pair propId recId ↔ store.refreshes pair propId recId := by
        rw [refreshes, refreshes, h]
      simp only [refreshReading, ih, hsame]

/-- A refresh leaves its last reading of the clock in every record it concerns. -/
theorem stored_refreshLoop (now : PropIdAreaId → Int) (entries : List (PropIdAreaId × EventMode))
    (store : VehiclePropertyStore) (propId : Int) (recId : RecordId) :
    (store.refreshLoop now entries).2.stored propId recId =
      (store.stored propId recId).map fun value => { value with timestamp :=
        (store.refreshReading now propId recId (entries.map Prod.fst)).getD value.timestamp } := by
  induction entries generalizing store with
  | nil => simp [refreshLoop, refreshReading]
  | cons entry entries ih =>
      rw [refreshLoop, List.map_cons, refreshReading]
      simp only
      rw [ih, stored_refreshLocked, Option.map_map,
        refreshReading_congr fun v =>
          recordIdOf_congr (registration_refreshLocked store _ _ v.prop)]
      congr 1
      ext value : 1
      rcases store.refreshReading now propId recId (entries.map Prod.fst) with _ | reading
      · simp only [Function.comp_apply, Option.none_or, Option.getD_none]
        split <;> rfl
      · simp only [Function.comp_apply, Option.some_or, Option.getD_some]
        split <;> rfl

/-- A loop of refreshes changes no registration. -/
theorem registration_refreshLoop (now : PropIdAreaId → Int)
    (entries : List (PropIdAreaId × EventMode)) (store : VehiclePropertyStore) (propId : Int) :
    (store.refreshLoop now entries).2.registration propId = store.registration propId := by
  induction entries generalizing store with
  | nil => rfl
  | cons entry entries ih =>
      rw [refreshLoop]
      exact (ih _).trans (registration_refreshLocked store _ _ propId)

end VehiclePropertyStore

end VhalCore.PropertyStore
