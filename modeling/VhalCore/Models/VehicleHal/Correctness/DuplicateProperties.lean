import VhalCore.Models.VehicleHal.Interpretation.System

/-!
# Duplicate properties in one call

The interface does not allow two requests of one call to name the same property in the
same area. The code looks for requests whose values are equivalent in their generated
order, so that a different timestamp, status or payload hides a duplicate. It does what the
interface asks for exactly when the list has no duplicate, or when it comes to one that is
equivalent in the order. Without not-a-number that is a duplicate equal in all fields.
-/

namespace VhalCore.VehicleHal

open HalState

variable {s t : HalState} {e : HalEvent}

/-- No two requests name the same property in the same area. -/
def DistinctProperties (requests : List ValueRequest) : Prop :=
  (requests.map fun r => r.value.propIdAreaId).Nodup

instance (requests : List ValueRequest) : Decidable (DistinctProperties requests) :=
  inferInstanceAs (Decidable (List.Nodup _))

/-- No two requests have the same value. -/
def DistinctValues (requests : List ValueRequest) : Prop :=
  (requests.map ValueRequest.value).Nodup

/-- The value of a request is equivalent to one before it, and up to there the order of the
values is transitive. Values already seen come first. -/
def ComesToEquivalent (seen : List VehiclePropValue) (requests : List ValueRequest) : Prop :=
  ∃ before r after, requests = before ++ r :: after ∧
    TransitiveOn (seen ++ (before.map ValueRequest.value ++ [r.value])) ∧
    ∃ u ∈ seen ++ before.map ValueRequest.value, u.Equivalent r.value

/-- The first of the requests either ends the search or joins the values that were seen. -/
theorem comesToEquivalent_cons (seen : List VehiclePropValue) (r : ValueRequest)
    (rest : List ValueRequest) :
    ComesToEquivalent seen (r :: rest) ↔ TransitiveOn (r.value :: seen) ∧
      ((∃ u ∈ seen, u.Equivalent r.value) ∨ ComesToEquivalent (r.value :: seen) rest) := by
  constructor
  · rintro ⟨before, q, after, hsplit, htrans, u, hu, heq⟩
    cases before with
    | nil =>
        obtain ⟨rfl, rfl⟩ := List.cons.inj hsplit
        refine ⟨htrans.of_subset ?_, Or.inl ⟨u, by simpa using hu, heq⟩⟩
        simp
    | cons p before =>
        obtain ⟨rfl, rfl⟩ := List.cons.inj hsplit
        refine ⟨htrans.of_subset ?_,
          Or.inr ⟨before, q, after, rfl, htrans.of_subset ?_, u, ?_, heq⟩⟩
        · simp
        · intro v hv
          simp only [List.map_cons, List.cons_append, List.mem_append, List.mem_cons] at hv ⊢
          tauto
        · simp only [List.map_cons, List.cons_append, List.mem_append, List.mem_cons] at hu ⊢
          tauto
  · rintro ⟨htrans, ⟨u, hu, heq⟩ | ⟨before, q, after, rfl, hrest, u, hu, heq⟩⟩
    · refine ⟨[], r, rest, rfl, htrans.of_subset ?_, u, by simpa using hu, heq⟩
      intro v hv
      simp only [List.map_nil, List.nil_append, List.mem_append, List.mem_cons] at hv ⊢
      tauto
    · refine ⟨r :: before, q, after, rfl, hrest.of_subset ?_, u, ?_, heq⟩
      · intro v hv
        simp only [List.map_cons, List.cons_append, List.mem_append, List.mem_cons] at hv ⊢
        tauto
      · simp only [List.map_cons, List.cons_append, List.mem_append, List.mem_cons] at hu ⊢
        tauto

/-- The loop stops at a value exactly if it comes to one that is equivalent to one before. -/
theorem checkDuplicateLoop_error_iff (requests : List ValueRequest)
    (seen : List VehiclePropValue) :
    (∃ v, checkDuplicateLoop seen requests = some (.error v)) ↔
      ComesToEquivalent seen requests := by
  induction requests generalizing seen with
  | nil =>
      refine iff_of_false ?_ ?_
      · rintro ⟨v, hv⟩
        cases hv
      · rintro ⟨before, r, after, hsplit, _⟩
        exact absurd hsplit.symm (List.append_ne_nil_of_right_ne_nil _ (List.cons_ne_nil _ _))
  | cons r rest ih =>
      rw [comesToEquivalent_cons, checkDuplicateLoop]
      by_cases htrans : TransitiveOn (r.value :: seen)
      case neg =>
        rw [if_pos htrans]
        refine iff_of_false ?_ fun h => htrans h.1
        rintro ⟨v, hv⟩
        cases hv
      rw [if_neg (not_not_intro htrans)]
      by_cases heq : ∃ u ∈ seen, u.Equivalent r.value
      · rw [if_pos heq]
        exact iff_of_true ⟨_, rfl⟩ ⟨htrans, Or.inl heq⟩
      · rw [if_neg heq, ← ih, and_iff_right htrans, or_iff_right heq]
        constructor
        · rintro ⟨v, hv⟩
          obtain ⟨result, hresult, hmap⟩ := Option.map_eq_some_iff.mp hv
          cases result with
          | error w => exact ⟨w, hresult⟩
          | ok ids => cases hmap
        · rintro ⟨v, hv⟩
          exact ⟨v, by rw [hv]; rfl⟩

/-- Requests for distinct properties pass the loop: their values are ordered by their time,
area and property, so that not-a-number is never looked at. -/
theorem checkDuplicateLoop_of_distinct (requests : List ValueRequest)
    (seen : List VehiclePropValue)
    (h : ((seen ++ requests.map ValueRequest.value).map VehiclePropValue.propIdAreaId).Nodup) :
    checkDuplicateLoop seen requests = some (.ok (requests.map ValueRequest.requestId)) := by
  induction requests generalizing seen with
  | nil => rfl
  | cons r rest ih =>
      have hperm : (seen ++ (r :: rest).map ValueRequest.value).Perm
          (r.value :: seen ++ rest.map ValueRequest.value) := List.perm_middle
      have hnodup := (hperm.map VehiclePropValue.propIdAreaId).nodup_iff.mp h
      have htrans : TransitiveOn (r.value :: seen) := by
        refine TransitiveOn.of_distinct ?_
        exact hnodup.sublist ((List.sublist_append_left ..).map _)
      have hnew : ¬∃ v ∈ seen, v.Equivalent r.value := by
        rintro ⟨v, hv, heq⟩
        rw [List.cons_append, List.map_cons, List.nodup_cons] at hnodup
        refine hnodup.1 (List.mem_map.mpr ⟨v, ?_, heq.propIdAreaId_eq⟩)
        exact List.mem_append_left _ hv
      rw [checkDuplicateLoop, if_neg (not_not_intro htrans), if_neg hnew, ih _ hnodup]
      rfl

/-- What the check does with a list of requests: it turns one away exactly if it comes to a
value that is equivalent to one before, and it lets requests for distinct properties pass. -/
theorem checkDuplicateRequests_cases (requests : List ValueRequest) :
    ((∃ v, checkDuplicateRequests requests = some (.error v)) ↔ ComesToEquivalent [] requests) ∧
      (DistinctProperties requests →
        checkDuplicateRequests requests = some (.ok (requests.map ValueRequest.requestId))) := by
  refine ⟨checkDuplicateLoop_error_iff requests [], fun h => ?_⟩
  refine checkDuplicateLoop_of_distinct requests [] ?_
  rw [List.nil_append, List.map_map]
  exact h

/-- Without not-a-number, the requests come to an equivalent value exactly if two of them have
the same value, or one has a value that was seen before. -/
theorem comesToEquivalent_iff_of_numeric {requests : List ValueRequest}
    {seen : List VehiclePropValue} (h : ∀ r ∈ requests, r.value.Numeric)
    (hseen : ∀ v ∈ seen, v.Numeric) :
    ComesToEquivalent seen requests ↔
      ¬(DistinctValues requests ∧ ∀ r ∈ requests, r.value ∉ seen) := by
  induction requests generalizing seen with
  | nil =>
      refine iff_of_false ?_ (not_not_intro ⟨List.nodup_nil, fun r hr => ?_⟩)
      · rintro ⟨before, r, after, hsplit, _⟩
        exact absurd hsplit.symm (List.append_ne_nil_of_right_ne_nil _ (List.cons_ne_nil _ _))
      · exact absurd hr List.not_mem_nil
  | cons r rest ih =>
      obtain ⟨hr, hrest⟩ := List.forall_mem_cons.mp h
      have hnumeric : ∀ v ∈ r.value :: seen, v.Numeric := List.forall_mem_cons.mpr ⟨hr, hseen⟩
      have hfound : (∃ u ∈ seen, u.Equivalent r.value) ↔ r.value ∈ seen := by
        constructor
        · rintro ⟨u, hu, heq⟩
          rwa [← (VehiclePropValue.equivalent_iff (hseen u hu) hr).mp heq]
        · intro hmem
          exact ⟨_, hmem, (VehiclePropValue.equivalent_iff hr hr).mpr rfl⟩
      have hsplit : (∀ q ∈ rest, q.value ∉ r.value :: seen) ↔
          r.value ∉ rest.map ValueRequest.value ∧ ∀ q ∈ rest, q.value ∉ seen := by
        simp only [List.mem_map, List.mem_cons, not_exists, not_and, not_or]
        exact ⟨fun hall => ⟨fun q hq => (hall q hq).1, fun q hq => (hall q hq).2⟩,
          fun hboth q hq => ⟨hboth.1 q hq, hboth.2 q hq⟩⟩
      rw [comesToEquivalent_cons, and_iff_right (TransitiveOn.of_numeric hnumeric), hfound,
        ih hrest hnumeric, hsplit, DistinctValues, DistinctValues, List.map_cons, List.nodup_cons,
        List.forall_mem_cons]
      tauto

/-- The event is the arrival of a call with these requests. -/
def TakesIn (kind : RequestKind) (requests : List ValueRequest) : HalEvent → Prop
  | .reject _ kind' requests' => kind' = kind ∧ requests' = requests
  | .receive _ kind' requests' _ => kind' = kind ∧ requests' = requests
  | _ => False

/-- The call that arrives in a step is turned away for a duplicate property, with no effect:
nothing else changes, and it is never sent to the hardware. -/
def TurnedAway (s t : HalState) : Prop :=
  (∃ call v, t.calls s.nextCall = some call ∧
    call.stage = .returned (.error (.duplicateProperty v))) ∧
  t.pool = s.pool ∧ t.replies = s.replies ∧ t.resultCallbacks = s.resultCallbacks ∧
  ∀ events u, Path HalStep t events u → .forward s.nextCall ∉ events

/-- A call is turned away exactly if two of its requests name the same property and area. -/
def RejectsDuplicates (kind : RequestKind) (requests : List ValueRequest) : Prop :=
  ∀ s e t, HalStep s e t → TakesIn kind requests e →
    (TurnedAway s t ↔ ¬DistinctProperties requests)

/-- A call that has returned stays as it is. -/
theorem HalStep.returned {k : Nat} {call : Call} {r : Except CallError Unit} (h : HalStep s e t)
    (hk : k < s.nextCall) (hcall : s.calls k = some call) (hstage : call.stage = .returned r) :
    k < t.nextCall ∧ t.calls k = some call := by
  obtain ⟨hle, hsame | ⟨hnew, _⟩ | ⟨other, _, hother, hrunning, _⟩⟩ := h.call_cases k
  · exact ⟨Nat.lt_of_lt_of_le hk hle, hsame.trans hcall⟩
  · exact absurd hnew hk.ne
  · cases hcall.symm.trans hother
    exact absurd hstage (hrunning r)

/-- A call that has returned is not sent to the hardware any more. -/
theorem forward_not_mem_of_returned {k : Nat} {call : Call} {r : Except CallError Unit}
    {events : List HalEvent} (h : Path HalStep s events t) (hk : k < s.nextCall)
    (hcall : s.calls k = some call) (hstage : call.stage = .returned r) : .forward k ∉ events := by
  have hboth : (k < t.nextCall ∧ t.calls k = some call) ∧ .forward k ∉ events := by
    induction h with
    | nil => exact ⟨⟨hk, hcall⟩, List.not_mem_nil⟩
    | snoc _ hstep ih =>
        obtain ⟨⟨hk', hcall'⟩, hnot⟩ := ih
        refine ⟨hstep.returned hk' hcall' hstage, fun hmem => ?_⟩
        rcases List.mem_append.mp hmem with hold | hnew
        · exact hnot hold
        · rw [← List.mem_singleton.mp hnew] at hstep
          cases hstep with
          | forward _ other client hother hst =>
              cases hcall'.symm.trans hother
              rw [hstage] at hst
              cases hst
  exact hboth.2

/-- A call with duplicates is turned away. -/
theorem turnedAway_of_reject (s : HalState) (kind : RequestKind) (callback : Binder)
    (requests : List ValueRequest) (value : VehiclePropValue) :
    TurnedAway s (s.enter ⟨kind, callback, requests, [], [],
      .returned (.error (.duplicateProperty value))⟩) := by
  have hcall := calls_enter s ⟨kind, callback, requests, [], [],
    .returned (.error (.duplicateProperty value))⟩ s.nextCall
  rw [if_pos rfl] at hcall
  exact ⟨⟨_, value, hcall, rfl⟩, rfl, rfl, rfl,
    fun events u hrun => forward_not_mem_of_returned hrun (Nat.lt_succ_self _) hcall rfl⟩

/-- A validated call is not turned away. -/
theorem not_turnedAway_of_receive (s : HalState) (call : Call) (hstage : call.stage = .validated) :
    ¬TurnedAway s (s.enter call) := by
  rintro ⟨⟨other, v, hcall, hother⟩, _⟩
  rw [calls_enter, if_pos rfl] at hcall
  cases hcall
  rw [hstage] at hother
  cases hother

/-- A call is turned away exactly for duplicates, if and only if its requests name distinct
properties, or the search comes to a value equivalent to one before. -/
theorem rejectsDuplicates_iff (kind : RequestKind) (requests : List ValueRequest) :
    RejectsDuplicates kind requests ↔
      DistinctProperties requests ∨
        ∃ before r after, requests = before ++ r :: after ∧
          TransitiveOn (before.map ValueRequest.value ++ [r.value]) ∧
          ∃ u ∈ before.map ValueRequest.value, u.Equivalent r.value := by
  obtain ⟨herror, hdistinct⟩ := checkDuplicateRequests_cases requests
  have hreceive (ids : List Int) (h : ∀ r, checkDuplicateRequests requests = some r → r = .ok ids) :
      HalStep (.start 0 0) _ ((start 0 0).enter _) :=
    HalStep.receive (.start 0 0) kind 0 requests permissive (checkedBy kind permissive)
      (fun r hr => ⟨ids, h r hr⟩) fun request c hc => by rw [checkedBy, hc, Option.getD_some]
  change _ ↔ DistinctProperties requests ∨ ComesToEquivalent [] requests
  constructor
  · intro h
    cases hresult : checkDuplicateRequests requests with
    | none =>
        have hreject := HalStep.reject (.start 0 0) kind 0 requests {} fun r hr => by
          rw [hresult] at hr
          cases hr
        have hreceived := hreceive [] fun r hr => by
          rw [hresult] at hr
          cases hr
        have haway := (h _ _ _ hreject ⟨rfl, rfl⟩).mp (turnedAway_of_reject _ kind 0 requests {})
        exact absurd ((h _ _ _ hreceived ⟨rfl, rfl⟩).mpr haway) (not_turnedAway_of_receive _ _ rfl)
    | some result =>
        cases result with
        | error v => exact Or.inr (herror.mp ⟨v, hresult⟩)
        | ok ids =>
            refine Or.inl ?_
            by_contra hshared
            have hreceived := hreceive ids fun r hr => Option.some.inj (hr.symm.trans hresult)
            exact not_turnedAway_of_receive _ _ rfl ((h _ _ _ hreceived ⟨rfl, rfl⟩).mpr hshared)
  · rintro (hprops | hfound) s e t hstep hin
    · have hsome := hdistinct hprops
      refine iff_of_false ?_ (not_not_intro hprops)
      cases hstep with
      | reject kind' callback requests' value hdup =>
          obtain ⟨rfl, rfl⟩ := hin
          cases hdup _ hsome
      | receive kind' callback requests' getConfig check hdup hcheck =>
          exact not_turnedAway_of_receive _ _ rfl
      | _ => exact hin.elim
    · obtain ⟨v, hv⟩ := herror.mpr hfound
      have hshared : ¬DistinctProperties requests := fun hprops => by
        cases hv.symm.trans (hdistinct hprops)
      refine iff_of_true ?_ hshared
      cases hstep with
      | reject kind' callback requests' value hdup => exact turnedAway_of_reject _ _ _ _ _
      | receive kind' callback requests' getConfig check hdup hcheck =>
          obtain ⟨rfl, rfl⟩ := hin
          obtain ⟨ids, hids⟩ := hdup _ hv
          cases hids
      | _ => exact hin.elim

/-- Two requests for one property with different timestamps are not turned away. -/
theorem accepts_duplicate_property :
    ¬RejectsDuplicates .get [⟨1, { prop := 0x11400000, timestamp := 1 }⟩,
      ⟨2, { prop := 0x11400000, timestamp := 2 }⟩] := by
  intro h
  have hreceive := HalStep.receive_checked (.start 0 0) .get 0 permissive [1, 2]
    (show checkDuplicateRequests [⟨1, { prop := 0x11400000, timestamp := 1 }⟩,
      ⟨2, { prop := 0x11400000, timestamp := 2 }⟩] = some (.ok [1, 2]) by decide)
  refine not_turnedAway_of_receive _ _ rfl ((h _ _ _ hreceive ⟨rfl, rfl⟩).mpr ?_)
  exact fun hdistinct => absurd hdistinct (by decide)

end VhalCore.VehicleHal
