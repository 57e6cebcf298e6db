import VhalCore.Models.Vehicle.Types

/-!
# The generated order of property values

The comparison of a parcelable goes through its fields in the order of their
declaration: the first field that differs decides. Vectors compare element by element.

No value is less than itself. Values of different properties or areas are ordered by their
time, area and property. Without not-a-number the order is transitive and two values are
equivalent only if they are equal; with it neither needs to hold.
-/

namespace VhalCore

/-- The value of the enumerator. -/
def VehiclePropertyStatus.toInt : VehiclePropertyStatus → Int
  | .available => 0x00
  | .unavailable => 0x01
  | .error => 0x02
  | .notAvailableDisabled => 0x1001
  | .notAvailableSpeedLow => 0x1002
  | .notAvailableSpeedHigh => 0x1003
  | .notAvailablePoorVisibility => 0x1004
  | .notAvailableSafety => 0x1005
  | .notAvailableSubsystemNotConnected => 0x1006

/-- The order of vectors: the first place decides at which one element is less than the other.
Elements that are not ordered, such as not-a-number and any float, are passed over. -/
def lexicographicalCompare {α : Type} (lt : α → α → Bool) : List α → List α → Bool
  | [], [] => false
  | [], _ :: _ => true
  | _ :: _, [] => false
  | a :: as, b :: bs =>
      if lt a b then true else if lt b a then false else lexicographicalCompare lt as bs

/-- The generated `operator<` of raw values. -/
def RawPropValues.lt (lhs rhs : RawPropValues) : Bool :=
  if lhs.int32Values ≠ rhs.int32Values then
    lexicographicalCompare (fun a b => decide (a < b)) lhs.int32Values rhs.int32Values
  else if lhs.floatValues.isEqv rhs.floatValues Binary32.eq = false then
    lexicographicalCompare Binary32.lt lhs.floatValues rhs.floatValues
  else if lhs.int64Values ≠ rhs.int64Values then
    lexicographicalCompare (fun a b => decide (a < b)) lhs.int64Values rhs.int64Values
  else if lhs.byteValues ≠ rhs.byteValues then
    lexicographicalCompare (fun a b => decide (a < b)) lhs.byteValues rhs.byteValues
  else if lhs.stringValue ≠ rhs.stringValue then decide (lhs.stringValue < rhs.stringValue)
  else false

/-- The generated `operator<` of property values. -/
def VehiclePropValue.lt (lhs rhs : VehiclePropValue) : Bool :=
  if lhs.timestamp ≠ rhs.timestamp then decide (lhs.timestamp < rhs.timestamp)
  else if lhs.areaId ≠ rhs.areaId then decide (lhs.areaId < rhs.areaId)
  else if lhs.prop ≠ rhs.prop then decide (lhs.prop < rhs.prop)
  else if lhs.status ≠ rhs.status then decide (lhs.status.toInt < rhs.status.toInt)
  else if lhs.value.eq rhs.value = false then lhs.value.lt rhs.value
  else false

/-- A value without not-a-number. -/
def VehiclePropValue.Numeric (v : VehiclePropValue) : Prop := Binary32.nan ∉ v.value.floatValues

instance (v : VehiclePropValue) : Decidable v.Numeric := inferInstanceAs (Decidable (¬_))

section Vectors

variable {α : Type} {lt : α → α → Bool} {as bs cs : List α}

/-- No vector is less than itself, if no element is. -/
theorem lexicographicalCompare_self (h : ∀ a, lt a a = false) (as : List α) :
    lexicographicalCompare lt as as = false := by
  induction as with
  | nil => rfl
  | cons a as ih => simp only [lexicographicalCompare, h, ih, Bool.false_eq_true, if_false]

/-- Two vectors that are not ordered either way are equal, if that is so for elements. -/
theorem eq_of_not_lexicographicalCompare
    (helem : ∀ a ∈ as, ∀ b ∈ bs, lt a b = false → lt b a = false → a = b)
    (h : lexicographicalCompare lt as bs = false) (h' : lexicographicalCompare lt bs as = false) :
    as = bs := by
  induction as generalizing bs with
  | nil =>
      cases bs with
      | nil => rfl
      | cons b bs => cases h
  | cons a as ih =>
      cases bs with
      | nil => cases h'
      | cons b bs =>
          rw [lexicographicalCompare] at h h'
          split_ifs at h h' with hab hba
          have heq : a = b := helem a (List.mem_cons_self ..) b (List.mem_cons_self ..)
            (Bool.eq_false_of_not_eq_true hab) (Bool.eq_false_of_not_eq_true hba)
          have hrest : as = bs := ih (fun x hx y hy => helem x (List.mem_cons_of_mem _ hx) y
            (List.mem_cons_of_mem _ hy)) h h'
          rw [heq, hrest]

/-- Vectors are ordered transitively, if elements are and those that are not ordered are equal. -/
theorem lexicographicalCompare_trans
    (htrans : ∀ a ∈ as, ∀ b ∈ bs, ∀ c ∈ cs, lt a b = true → lt b c = true → lt a c = true)
    (hab : ∀ a ∈ as, ∀ b ∈ bs, lt a b = false → lt b a = false → a = b)
    (hbc : ∀ b ∈ bs, ∀ c ∈ cs, lt b c = false → lt c b = false → b = c)
    (h : lexicographicalCompare lt as bs = true) (h' : lexicographicalCompare lt bs cs = true) :
    lexicographicalCompare lt as cs = true := by
  induction as generalizing bs cs with
  | nil =>
      cases bs with
      | nil => cases h
      | cons b bs =>
          cases cs with
          | nil => cases h'
          | cons c cs => rfl
  | cons a as ih =>
      cases bs with
      | nil => cases h
      | cons b bs =>
          cases cs with
          | nil => cases h'
          | cons c cs =>
              rw [lexicographicalCompare] at h h' ⊢
              have hab0 := hab a (List.mem_cons_self ..) b (List.mem_cons_self ..)
              have hbc0 := hbc b (List.mem_cons_self ..) c (List.mem_cons_self ..)
              have htrans0 := htrans a (List.mem_cons_self ..) b (List.mem_cons_self ..) c
                (List.mem_cons_self ..)
              have ih0 : lexicographicalCompare lt as bs = true →
                  lexicographicalCompare lt bs cs = true → lexicographicalCompare lt as cs = true :=
                ih (fun x hx y hy z hz => htrans x (List.mem_cons_of_mem _ hx) y
                    (List.mem_cons_of_mem _ hy) z (List.mem_cons_of_mem _ hz))
                  (fun x hx y hy => hab x (List.mem_cons_of_mem _ hx) y (List.mem_cons_of_mem _ hy))
                  fun y hy z hz => hbc y (List.mem_cons_of_mem _ hy) z (List.mem_cons_of_mem _ hz)
              by_cases hlt : lt a b = true
              · by_cases hlt' : lt b c = true
                · rw [if_pos (htrans0 hlt hlt')]
                · rw [if_neg hlt'] at h'
                  split_ifs at h' with hcb
                  cases hbc0 (Bool.eq_false_of_not_eq_true hlt') (Bool.eq_false_of_not_eq_true hcb)
                  rw [if_pos hlt]
              · rw [if_neg hlt] at h
                split_ifs at h with hba
                cases hab0 (Bool.eq_false_of_not_eq_true hlt) (Bool.eq_false_of_not_eq_true hba)
                by_cases hlt' : lt a c = true
                · rw [if_pos hlt']
                · rw [if_neg hlt'] at h' ⊢
                  split_ifs at h' ⊢
                  exact ih0 h h'

end Vectors

/-- Two numbers of which neither is less are equal. -/
theorem Binary32.eq_of_not_lt {a b : Binary32} (ha : a ≠ .nan) (hb : b ≠ .nan)
    (h : Binary32.lt a b = false) (h' : Binary32.lt b a = false) : a = b := by
  cases a with
  | nan => exact absurd rfl ha
  | num a _ =>
      cases b with
      | nan => exact absurd rfl hb
      | num b _ =>
          simp only [Binary32.lt, decide_eq_false_iff_not] at h h'
          simp only [num.injEq]
          omega

/-- Vectors without not-a-number are equal as vectors of floats if and only if they are. -/
theorem Binary32.isEqv_iff {as bs : List Binary32} (h : Binary32.nan ∉ as) :
    as.isEqv bs Binary32.eq = true ↔ as = bs := by
  induction as generalizing bs with
  | nil => cases bs <;> simp
  | cons a as ih =>
      rw [List.mem_cons, not_or] at h
      cases bs with
      | nil => simp
      | cons b bs =>
          rw [List.isEqv_cons_cons, Bool.and_eq_true, ih h.2, Binary32.eq_iff, List.cons.injEq]
          exact and_congr_left' (and_iff_left (Ne.symm h.1))

/-- A field that does not order two values either way is equal in both, and the fields
after it decide. -/
private theorem eq_field {α : Type} [DecidableEq α] {a b : α} {x y r r' : Bool}
    (htri : x = false → y = false → a = b) (h : (if a ≠ b then x else r) = false)
    (h' : (if b ≠ a then y else r') = false) : a = b ∧ r = false ∧ r' = false := by
  by_cases hab : a = b
  · rw [if_neg (not_not_intro hab)] at h
    rw [if_neg (not_not_intro hab.symm)] at h'
    exact ⟨hab, h, h'⟩
  · rw [if_pos hab] at h
    rw [if_pos (Ne.symm hab)] at h'
    exact absurd (htri h h') hab

private theorem eq_of_not_decide_lt {α : Type} [LinearOrder α] {a b : α}
    (h : decide (a < b) = false) (h' : decide (b < a) = false) : a = b := by
  rw [decide_eq_false_iff_not, not_lt] at h h'
  exact le_antisymm h' h

private theorem eq_of_not_decide_lt_uint8 {a b : UInt8} (h : decide (a < b) = false)
    (h' : decide (b < a) = false) : a = b :=
  UInt8.le_antisymm (UInt8.not_lt.mp (of_decide_eq_false h'))
    (UInt8.not_lt.mp (of_decide_eq_false h))

/-- Raw values that are equivalent in the generated order are equal. -/
theorem RawPropValues.eq_of_not_lt {a b : RawPropValues} (ha : Binary32.nan ∉ a.floatValues)
    (hb : Binary32.nan ∉ b.floatValues) (h : a.lt b = false) (h' : b.lt a = false) : a = b := by
  have hfloat {as bs : List Binary32} (has : Binary32.nan ∉ as) :
      as.isEqv bs Binary32.eq = false ↔ as ≠ bs := by
    rw [← Bool.not_eq_true, Binary32.isEqv_iff has]
  simp only [RawPropValues.lt, hfloat ha] at h
  simp only [RawPropValues.lt, hfloat hb] at h'
  obtain ⟨h32, h, h'⟩ := eq_field
    (eq_of_not_lexicographicalCompare fun _ _ _ _ => eq_of_not_decide_lt) h h'
  obtain ⟨hf, h, h'⟩ := eq_field (eq_of_not_lexicographicalCompare fun x hx y hy =>
    Binary32.eq_of_not_lt (ne_of_mem_of_not_mem hx ha) (ne_of_mem_of_not_mem hy hb)) h h'
  obtain ⟨h64, h, h'⟩ := eq_field
    (eq_of_not_lexicographicalCompare fun _ _ _ _ => eq_of_not_decide_lt) h h'
  obtain ⟨hbytes, h, h'⟩ := eq_field
    (eq_of_not_lexicographicalCompare fun _ _ _ _ => eq_of_not_decide_lt_uint8) h h'
  obtain ⟨hstring, _⟩ := eq_field (fun hxy hyx =>
    String.le_antisymm (String.not_lt.mp (of_decide_eq_false hyx))
      (String.not_lt.mp (of_decide_eq_false hxy))) h h'
  cases a
  cases b
  simp_all only

/-- The generated equality of raw values without not-a-number is equality. -/
theorem RawPropValues.eq_iff {a b : RawPropValues} (ha : Binary32.nan ∉ a.floatValues) :
    a.eq b = true ↔ a = b := by
  simp only [RawPropValues.eq, Bool.and_eq_true, beq_iff_eq, Binary32.isEqv_iff ha]
  constructor
  · rintro ⟨⟨⟨⟨h32, hf⟩, h64⟩, hbytes⟩, hstring⟩
    cases a
    cases b
    simp_all only
  · rintro rfl
    exact ⟨⟨⟨⟨rfl, rfl⟩, rfl⟩, rfl⟩, rfl⟩

/-- Raw values that are equal as generated are the same. -/
theorem RawPropValues.eq_of_eq {a b : RawPropValues} (h : a.eq b = true) : a = b := by
  have hfloat {as bs : List Binary32} (hs : as.isEqv bs Binary32.eq = true) : as = bs := by
    induction as generalizing bs with
    | nil =>
        cases bs with
        | nil => rfl
        | cons b bs => cases hs
    | cons a as ih =>
        cases bs with
        | nil => cases hs
        | cons b bs =>
            rw [List.isEqv_cons_cons, Bool.and_eq_true, Binary32.eq_iff] at hs
            rw [hs.1.1, ih hs.2]
  simp only [RawPropValues.eq, Bool.and_eq_true, beq_iff_eq] at h
  obtain ⟨⟨⟨⟨h32, hf⟩, h64⟩, hbytes⟩, hstring⟩ := h
  have hf := hfloat hf
  cases a
  cases b
  simp_all only

theorem VehiclePropertyStatus.toInt_injective : Function.Injective toInt := by
  intro a b h
  cases a <;> cases b <;> first | rfl | cases h

/-- Values that are equivalent in the generated order are equal. -/
theorem VehiclePropValue.eq_of_not_lt {a b : VehiclePropValue} (ha : a.Numeric) (hb : b.Numeric)
    (h : a.lt b = false) (h' : b.lt a = false) : a = b := by
  have hraw {u v : RawPropValues} (hu : Binary32.nan ∉ u.floatValues) :
      u.eq v = false ↔ u ≠ v := by
    rw [← Bool.not_eq_true, RawPropValues.eq_iff hu]
  rw [VehiclePropValue.lt] at h h'
  simp only [hraw ha] at h
  simp only [hraw hb] at h'
  obtain ⟨htime, h, h'⟩ := eq_field eq_of_not_decide_lt h h'
  obtain ⟨harea, h, h'⟩ := eq_field eq_of_not_decide_lt h h'
  obtain ⟨hprop, h, h'⟩ := eq_field eq_of_not_decide_lt h h'
  obtain ⟨hstatus, h, h'⟩ := eq_field
    (fun h h' => VehiclePropertyStatus.toInt_injective (eq_of_not_decide_lt h h')) h h'
  obtain ⟨hvalue, _⟩ := eq_field (RawPropValues.eq_of_not_lt ha hb) h h'
  cases a
  cases b
  simp_all only

/-- A field that is ordered transitively, with what decides after it. -/
private theorem trans_field {α : Type} [DecidableEq α] {f : α → α → Bool} {a b c : α}
    {r r' r'' : Bool} (hself : f a a = false)
    (htrans : f a b = true → f b c = true → f a c = true)
    (h : (if a ≠ b then f a b else r) = true) (h' : (if b ≠ c then f b c else r') = true)
    (hrest : r = true → r' = true → r'' = true) : (if a ≠ c then f a c else r'') = true := by
  by_cases hab : a = b
  · subst hab
    rw [if_neg (not_not_intro rfl)] at h
    by_cases hbc : a = c
    · rw [if_neg (not_not_intro hbc)] at h' ⊢
      exact hrest h h'
    · rwa [if_pos hbc] at h' ⊢
  · rw [if_pos hab] at h
    by_cases hbc : b = c
    · subst hbc
      rw [if_pos hab]
      exact h
    · rw [if_pos hbc] at h'
      have hlt := htrans h h'
      have hac : a ≠ c := by
        rintro rfl
        cases hself.symm.trans hlt
      rw [if_pos hac]
      exact hlt

private theorem decide_lt_trans {α : Type} [LinearOrder α] {a b c : α}
    (h : decide (a < b) = true) (h' : decide (b < c) = true) : decide (a < c) = true :=
  decide_eq_true ((of_decide_eq_true h).trans (of_decide_eq_true h'))

/-- The order of floats is transitive. -/
theorem Binary32.lt_trans {a b c : Binary32} (h : Binary32.lt a b = true)
    (h' : Binary32.lt b c = true) : Binary32.lt a c = true := by
  cases a with
  | nan => cases h
  | num a _ =>
      cases b with
      | nan => cases h
      | num b _ =>
          cases c with
          | nan => cases h'
          | num c _ => exact decide_lt_trans h h'

theorem Binary32.lt_self (a : Binary32) : Binary32.lt a a = false := by
  cases a with
  | nan => rfl
  | num a _ => exact decide_eq_false (lt_irrefl a)

/-- No raw value is less than itself. -/
theorem RawPropValues.lt_self (a : RawPropValues) : a.lt a = false := by
  have hfloats := lexicographicalCompare_self Binary32.lt_self a.floatValues
  simp [RawPropValues.lt, hfloats]

/-- Without not-a-number raw values are ordered transitively. -/
theorem RawPropValues.lt_trans {a b c : RawPropValues} (ha : Binary32.nan ∉ a.floatValues)
    (hb : Binary32.nan ∉ b.floatValues) (hc : Binary32.nan ∉ c.floatValues)
    (h : a.lt b = true) (h' : b.lt c = true) : a.lt c = true := by
  have hfloat {as bs : List Binary32} (has : Binary32.nan ∉ as) :
      as.isEqv bs Binary32.eq = false ↔ as ≠ bs := by
    rw [← Bool.not_eq_true, Binary32.isEqv_iff has]
  have hvector (as bs cs : List Int) :
      lexicographicalCompare (fun a b => decide (a < b)) as bs = true →
        lexicographicalCompare (fun a b => decide (a < b)) bs cs = true →
          lexicographicalCompare (fun a b => decide (a < b)) as cs = true :=
    lexicographicalCompare_trans (fun _ _ _ _ _ _ => decide_lt_trans)
      (fun _ _ _ _ => eq_of_not_decide_lt) fun _ _ _ _ => eq_of_not_decide_lt
  have hvector_self (as : List Int) :
      lexicographicalCompare (fun a b => decide (a < b)) as as = false :=
    lexicographicalCompare_self (fun a : Int => decide_eq_false (lt_irrefl a)) as
  simp only [RawPropValues.lt, hfloat ha] at h ⊢
  simp only [RawPropValues.lt, hfloat hb] at h'
  refine trans_field (hvector_self _) (hvector _ _ _) h h' fun h h' => ?_
  refine trans_field (lexicographicalCompare_self Binary32.lt_self _)
    (lexicographicalCompare_trans (fun _ _ _ _ _ _ => Binary32.lt_trans) ?_ ?_) h h'
    fun h h' => ?_
  · exact fun x hx y hy => Binary32.eq_of_not_lt (ne_of_mem_of_not_mem hx ha)
      (ne_of_mem_of_not_mem hy hb)
  · exact fun x hx y hy => Binary32.eq_of_not_lt (ne_of_mem_of_not_mem hx hb)
      (ne_of_mem_of_not_mem hy hc)
  refine trans_field (hvector_self _) (hvector _ _ _) h h' fun h h' => ?_
  refine trans_field (lexicographicalCompare_self ?_ _)
    (lexicographicalCompare_trans ?_ ?_ ?_) h h' fun h h' => ?_
  · exact fun x => decide_eq_false (UInt8.lt_irrefl x)
  · exact fun x _ y _ z _ hxy hyz => decide_eq_true
      (UInt8.lt_trans (of_decide_eq_true hxy) (of_decide_eq_true hyz))
  · exact fun x _ y _ => eq_of_not_decide_lt_uint8
  · exact fun x _ y _ => eq_of_not_decide_lt_uint8
  refine trans_field (f := fun a b : String => decide (a < b)) ?_ ?_ h h' fun h _ => h
  · exact decide_eq_false (String.lt_irrefl _)
  · exact fun h h' => decide_eq_true
      (String.lt_trans (of_decide_eq_true h) (of_decide_eq_true h'))

/-- No value is less than itself. -/
theorem VehiclePropValue.lt_self (a : VehiclePropValue) : a.lt a = false := by
  simp [VehiclePropValue.lt, RawPropValues.lt_self]

/-- Without not-a-number values are ordered transitively. -/
theorem VehiclePropValue.lt_trans {a b c : VehiclePropValue} (ha : a.Numeric) (hb : b.Numeric)
    (hc : c.Numeric) (h : a.lt b = true) (h' : b.lt c = true) : a.lt c = true := by
  have hraw {u v : RawPropValues} (hu : Binary32.nan ∉ u.floatValues) :
      u.eq v = false ↔ u ≠ v := by
    rw [← Bool.not_eq_true, RawPropValues.eq_iff hu]
  have hself (x : Int) : decide (x < x) = false := decide_eq_false (lt_irrefl x)
  simp only [VehiclePropValue.lt, hraw ha] at h ⊢
  simp only [VehiclePropValue.lt, hraw hb] at h'
  refine trans_field (f := fun x y : Int => decide (x < y)) (hself _) decide_lt_trans h h'
    fun h h' => ?_
  refine trans_field (f := fun x y : Int => decide (x < y)) (hself _) decide_lt_trans h h'
    fun h h' => ?_
  refine trans_field (f := fun x y : Int => decide (x < y)) (hself _) decide_lt_trans h h'
    fun h h' => ?_
  refine trans_field (f := fun u v : VehiclePropertyStatus => decide (u.toInt < v.toInt))
    (hself _) decide_lt_trans h h' fun h h' => ?_
  exact trans_field (RawPropValues.lt_self _) (RawPropValues.lt_trans ha hb hc) h h' fun h _ => h

/-- Values of different properties or areas are ordered by time, then area, then property. -/
theorem VehiclePropValue.lt_iff_of_ne {a b : VehiclePropValue}
    (h : a.propIdAreaId ≠ b.propIdAreaId) :
    a.lt b = true ↔ a.timestamp < b.timestamp ∨ a.timestamp = b.timestamp ∧
      (a.areaId < b.areaId ∨ a.areaId = b.areaId ∧ a.prop < b.prop) := by
  have hne : a.areaId = b.areaId → a.prop ≠ b.prop := by
    intro harea hprop
    exact h (congrArg₂ PropIdAreaId.mk hprop harea)
  rw [VehiclePropValue.lt]
  split_ifs with htime harea hprop
  · rw [decide_eq_true_eq]
    omega
  · rw [decide_eq_true_eq]
    omega
  · rw [decide_eq_true_eq]
    omega
  all_goals exact absurd (by omega) (hne (by omega))

/-- Neither value is less than the other, so that an ordered set takes them for the same. -/
def VehiclePropValue.Equivalent (a b : VehiclePropValue) : Prop :=
  a.lt b = false ∧ b.lt a = false

instance (a b : VehiclePropValue) : Decidable (a.Equivalent b) :=
  inferInstanceAs (Decidable (_ ∧ _))

/-- Values of different properties or areas are never equivalent. -/
theorem VehiclePropValue.Equivalent.propIdAreaId_eq {a b : VehiclePropValue}
    (h : a.Equivalent b) : a.propIdAreaId = b.propIdAreaId := by
  by_contra hne
  have hab := mt (VehiclePropValue.lt_iff_of_ne hne).mpr (Bool.eq_false_iff.mp h.1)
  have hba := mt (VehiclePropValue.lt_iff_of_ne (Ne.symm hne)).mpr (Bool.eq_false_iff.mp h.2)
  exact hne (congrArg₂ PropIdAreaId.mk (by omega) (by omega))

/-- Without not-a-number only equal values are equivalent. -/
theorem VehiclePropValue.equivalent_iff {a b : VehiclePropValue} (ha : a.Numeric)
    (hb : b.Numeric) : a.Equivalent b ↔ a = b := by
  constructor
  · rintro ⟨h, h'⟩
    exact VehiclePropValue.eq_of_not_lt ha hb h h'
  · rintro rfl
    exact ⟨a.lt_self, a.lt_self⟩

/-- The order is transitive on these values, as an ordered set needs it. -/
def TransitiveOn (values : List VehiclePropValue) : Prop :=
  ∀ a ∈ values, ∀ b ∈ values, ∀ c ∈ values, a.lt b = true → b.lt c = true → a.lt c = true

instance (values : List VehiclePropValue) : Decidable (TransitiveOn values) :=
  inferInstanceAs (Decidable (∀ _ ∈ _, _))

theorem TransitiveOn.of_subset {values others : List VehiclePropValue}
    (h : TransitiveOn values) (hsub : others ⊆ values) : TransitiveOn others :=
  fun a ha b hb c hc => h a (hsub ha) b (hsub hb) c (hsub hc)

theorem TransitiveOn.of_numeric {values : List VehiclePropValue}
    (h : ∀ v ∈ values, v.Numeric) : TransitiveOn values :=
  fun a ha b hb c hc => VehiclePropValue.lt_trans (h a ha) (h b hb) (h c hc)

/-- Values of pairwise different properties or areas are ordered transitively. -/
theorem TransitiveOn.of_distinct {values : List VehiclePropValue}
    (h : (values.map VehiclePropValue.propIdAreaId).Nodup) : TransitiveOn values := by
  have hinj := List.inj_on_of_nodup_map h
  intro a ha b hb c hc hab hbc
  by_cases heq : a.propIdAreaId = b.propIdAreaId
  · rw [hinj ha hb heq]
    exact hbc
  by_cases heq' : b.propIdAreaId = c.propIdAreaId
  · rw [← hinj hb hc heq']
    exact hab
  rw [VehiclePropValue.lt_iff_of_ne heq] at hab
  rw [VehiclePropValue.lt_iff_of_ne heq'] at hbc
  have hne : a.propIdAreaId ≠ c.propIdAreaId := by
    intro hac
    rw [hinj ha hc hac] at hab
    omega
  rw [VehiclePropValue.lt_iff_of_ne hne]
  omega

end VhalCore
