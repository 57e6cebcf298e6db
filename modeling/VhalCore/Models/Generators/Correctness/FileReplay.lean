import VhalCore.Core.Outcomes
import VhalCore.Models.Generators.Native.JsonFakeValueGenerator

/-!
# The replay of a file

The generator makes the events of the file in their order, as often as it is asked to. Its
timestamps run on from the first one, which is the time of the clock. The law holds while the
timestamps are `Timely`: a timestamp of zero would make the generator read the clock once more,
and a sum that does not fit its type, or in a build with assertions a time that does not go on,
would end it.
-/

namespace VhalCore.Generators

section Replay

variable (events : List VehiclePropValue) (iteration : Int)

/-- The timestamp of an event of the file. -/
def fileTimestamp (i : Nat) : Int := (events[i]?.map VehiclePropValue.timestamp).getD 0

/-- The time from the event before to event `m` of the replay. -/
def replayDelay (m : Nat) : Int :=
  if m % events.length = 0 then 1000000
  else fileTimestamp events (m % events.length) - fileTimestamp events (m % events.length - 1)

/-- The timestamp of event `m` of the replay. -/
def replayTime (start : Int) : Nat → Int
  | 0 => start
  | m + 1 => replayTime start m + replayDelay events (m + 1)

/-- There is an event `m`. -/
def Left (m : Nat) : Prop := iteration < 0 ∨ (m : Int) < iteration * events.length

instance (m : Nat) : Decidable (Left events iteration m) := inferInstanceAs (Decidable (_ ∨ _))

/-- The timestamp of event `m + 1` comes from that of event `m`. -/
structure TimelyAfter (assertions : Bool) (start : Int) (m : Nat) : Prop where
  started : replayTime events start m ≠ 0
  difference : FitsInt64 (replayDelay events (m + 1))
  sum : FitsInt64 (replayTime events start (m + 1))
  later : assertions = true → replayTime events start m < replayTime events start (m + 1)

/-- The results are those of a replay of the file. -/
structure Replays (results : List (Option VehiclePropValue)) : Prop where
  /-- There are as many events as asked for, and then none. -/
  ended : ∀ m < results.length, results[m]? = some none ↔ ¬Left events iteration m
  value : ∀ m event, results[m]? = some (some event) →
    ∃ source, events[m % events.length]? = some source ∧
      event = { source with timestamp := event.timestamp }
  inside : ∀ m event next, results[m]? = some (some event) → results[m + 1]? = some (some next) →
    (m + 1) % events.length ≠ 0 → ∃ source nextSource,
      events[m % events.length]? = some source ∧
        events[(m + 1) % events.length]? = some nextSource ∧
        next.timestamp - event.timestamp = nextSource.timestamp - source.timestamp
  between : ∀ m event next, results[m]? = some (some event) → results[m + 1]? = some (some next) →
    (m + 1) % events.length = 0 → next.timestamp = event.timestamp + 1000000

/-- Result `m` of the replay. -/
def replayed (start : Int) (m : Nat) : Option VehiclePropValue :=
  if Left events iteration m then
    events[m % events.length]?.map fun source =>
      { source with timestamp := replayTime events start m }
  else none

/-- The iterations that are left before event `m`. -/
def iterationsLeft (m : Nat) : Int :=
  if iteration < 0 then iteration else (iteration.toNat - m / events.length : Nat)

/-- The generator before event `m`. -/
structure Replaying (start : Int) (m : Nat) (g : JsonFakeValueGenerator) : Prop where
  file : g.mEvents = events
  iterations : g.mNumOfIterations = iterationsLeft events iteration m
  index : Left events iteration m → g.mEventIndex = m % events.length
  timestamp : Left events iteration m →
    g.mLastEventTimestamp = if m = 0 then 0 else replayTime events start (m - 1)

end Replay

section Steps

variable {events : List VehiclePropValue} {iteration start : Int} {m : Nat}

/-- Events are left exactly if iterations are. -/
theorem left_iff (h : events ≠ []) :
    Left events iteration m ↔ iterationsLeft events iteration m ≠ 0 := by
  have hpos : 0 < events.length := List.length_pos_iff.mpr h
  rw [Left, iterationsLeft]
  split
  · rename_i hneg
    exact iff_of_true (Or.inl hneg) (by omega)
  · rename_i hneg
    lift iteration to Nat using by omega
    rw [or_iff_right hneg, Int.toNat_natCast, Nat.cast_ne_zero, Nat.sub_ne_zero_iff_lt,
      Nat.div_lt_iff_lt_mul hpos]
    exact_mod_cast Iff.rfl

/-- The index and the iterations in the next step. -/
theorem mod_succ_eq (k : Nat) (hk : 0 < k) :
    (m + 1) % k = (if m % k + 1 = k then 0 else m % k + 1) ∧
      (m + 1) / k = (if m % k + 1 = k then m / k + 1 else m / k) := by
  have hdiv := Nat.div_add_mod m k
  have hlt := Nat.mod_lt m hk
  split
  · rename_i hlast
    have hm : m + 1 = k * (m / k + 1) := by rw [Nat.mul_add]; omega
    rw [hm]
    exact ⟨Nat.mul_mod_right .., Nat.mul_div_cancel_left _ hk⟩
  · rename_i hinner
    have hm : m + 1 = (m % k + 1) + k * (m / k) := by omega
    rw [hm, Nat.add_mul_mod_self_left, Nat.add_mul_div_left _ _ hk, Nat.mod_eq_of_lt (by omega),
      Nat.div_eq_of_lt (by omega), Nat.zero_add]
    exact ⟨rfl, rfl⟩

theorem Left.of_succ (h : Left events iteration (m + 1)) : Left events iteration m := by
  rcases h with hneg | hlt
  · exact Or.inl hneg
  · refine Or.inr (lt_trans ?_ hlt)
    exact_mod_cast Nat.lt_succ_self m

/-- A new generator replays from the first event. -/
theorem replaying_create (events : List VehiclePropValue) (iteration start : Int) :
    Replaying events iteration start 0 (.create events iteration) := by
  refine ⟨rfl, ?_, fun _ => (Nat.zero_mod _).symm, fun _ => rfl⟩
  rw [iterationsLeft, Nat.zero_div, Nat.sub_zero]
  split
  · rfl
  · rw [Int.toNat_of_nonneg (by omega)]
    rfl

variable {g : JsonFakeValueGenerator}

/-- The event at an index of the file is read. -/
theorem Replaying.eventAt (h : Replaying events iteration start m g) {i : Nat}
    (hi : i < events.length) : ∃ event, events[i]? = some event ∧ g.eventAt i = .ok event ∧
      fileTimestamp events i = event.timestamp := by
  have hget := List.getElem?_eq_getElem hi
  refine ⟨events[i], hget, ?_, ?_⟩
  · rw [JsonFakeValueGenerator.eventAt, h.file, hget]
  · rw [fileTimestamp, hget, Option.map_some, Option.getD_some]

/-- The delay to the next event is the one of the file. -/
theorem Replaying.delay (h : Replaying events iteration start m g) (hne : events ≠ [])
    (hleft : Left events iteration m) (hfits : FitsInt64 (replayDelay events m)) :
    g.delay = .ok (replayDelay events m) := by
  have hpos : 0 < events.length := List.length_pos_iff.mpr hne
  have hlt := Nat.mod_lt m hpos
  rw [JsonFakeValueGenerator.delay, h.index hleft]
  rw [replayDelay] at hfits ⊢
  by_cases hfirst : m % events.length = 0
  · rw [if_neg (by omega), if_pos hfirst]
  · obtain ⟨current, _, hcurrent, htime⟩ := h.eventAt hlt
    obtain ⟨previous, _, hprevious, hbefore⟩ := h.eventAt (i := m % events.length - 1) (by omega)
    rw [if_neg hfirst] at hfits ⊢
    rw [htime, hbefore] at hfits ⊢
    rw [if_pos (by omega), hcurrent, hprevious]
    exact if_pos hfits

/-- The timestamp of the next event. -/
theorem Replaying.nextEventTimestamp {assertions : Bool} {now : Int}
    (h : Replaying events iteration start m g) (hne : events ≠ [])
    (hleft : Left events iteration m) (hnow : m = 0 → now = start)
    (htimely : ∀ j, m = j + 1 → TimelyAfter events assertions start j) :
    nextEventTimestamp assertions now g.delay g.mLastEventTimestamp =
      .ok (replayTime events start m) := by
  cases m with
  | zero => rw [Generators.nextEventTimestamp, h.timestamp hleft, if_pos rfl, if_pos rfl, hnow rfl,
      replayTime]
  | succ m =>
      obtain ⟨hstarted, hdifference, hsum, hlater⟩ := htimely m rfl
      have hlast : g.mLastEventTimestamp = replayTime events start m := by
        rw [h.timestamp hleft, if_neg (Nat.succ_ne_zero m), Nat.add_sub_cancel]
      have hgoes : (assertions && decide
          (replayTime events start (m + 1) ≤ replayTime events start m)) = false := by
        rw [Bool.and_eq_false_imp]
        exact fun ha => decide_eq_false (not_le.mpr (hlater ha))
      rw [Generators.nextEventTimestamp, hlast, if_neg hstarted, h.delay hne hleft hdifference]
      have hnext : int64Result (replayTime events start m + replayDelay events (m + 1)) =
          .ok (replayTime events start (m + 1)) := if_pos hsum
      simp only [bind, Except.bind, hnext, hgoes, Bool.false_eq_true, if_false]

/-- The generator after an event. -/
theorem Replaying.advance (h : Replaying events iteration start m g) (hne : events ≠ [])
    (hleft : Left events iteration m) :
    Replaying events iteration start (m + 1) (g.advance (replayTime events start m)) := by
  have hpos : 0 < events.length := List.length_pos_iff.mpr hne
  obtain ⟨hmod, hdiv⟩ := mod_succ_eq (m := m) events.length hpos
  have hiterations := (left_iff hne).mp hleft
  unfold JsonFakeValueGenerator.advance
  rw [h.file, h.index hleft, h.iterations]
  by_cases hlast : m % events.length + 1 = events.length
  · rw [if_pos hlast] at hmod hdiv ⊢
    refine ⟨rfl, ?_, fun _ => hmod.symm, fun _ => rfl⟩
    change (if _ > 0 then _ else _) = _
    rw [iterationsLeft] at hiterations ⊢
    rw [iterationsLeft, hdiv]
    by_cases hneg : iteration < 0
    · simp only [if_pos hneg, if_neg (show ¬iteration > 0 by omega)]
    · simp only [if_neg hneg] at hiterations ⊢
      rw [if_pos (by omega)]
      omega
  · rw [if_neg hlast] at hmod hdiv ⊢
    refine ⟨rfl, ?_, fun _ => hmod.symm, fun _ => rfl⟩
    change iterationsLeft events iteration m = _
    rw [iterationsLeft, iterationsLeft, hdiv]

/-- One call of the generator. -/
theorem Replaying.nextEvent {assertions : Bool} (h : Replaying events iteration start m g)
    (now : Int) (hne : events ≠ []) (hnow : m = 0 → now = start)
    (htimely : ∀ j, m = j + 1 → Left events iteration m → TimelyAfter events assertions start j) :
    ∃ next, g.nextEvent assertions now = .ok (replayed events iteration start m, next) ∧
      Replaying events iteration start (m + 1) next := by
  have hlength : g.mEvents.length ≠ 0 := by
    rw [h.file]
    exact mt List.length_eq_zero_iff.mp hne
  by_cases hleft : Left events iteration m
  · have hlt : m % events.length < events.length :=
      Nat.mod_lt _ (List.length_pos_iff.mpr hne)
    obtain ⟨source, hsource, hevent, _⟩ := h.eventAt hlt
    refine ⟨_, ?_, h.advance hne hleft⟩
    rw [JsonFakeValueGenerator.nextEvent, h.iterations,
      if_neg (not_or.mpr ⟨(left_iff hne).mp hleft, hlength⟩), h.index hleft, hevent,
      h.nextEventTimestamp hne hleft hnow fun j hj => htimely j hj hleft, replayed, if_pos hleft,
      hsource]
    rfl
  · have hnone : g.mNumOfIterations = 0 := by
      rw [h.iterations]
      exact not_not.mp (mt (left_iff hne).mpr hleft)
    have hlater : ¬Left events iteration (m + 1) := fun hnext => hleft hnext.of_succ
    refine ⟨g, ?_, h.file, ?_, fun hnext => absurd hnext hlater, fun hnext => absurd hnext hlater⟩
    · rw [JsonFakeValueGenerator.nextEvent, if_pos (Or.inl hnone), replayed, if_neg hleft]
    · rw [hnone]
      exact (not_not.mp (mt (left_iff hne).mpr hlater)).symm

/-- The calls of the generator, from event `m` on. -/
theorem Replaying.nextEvents {assertions : Bool} {times : List Int}
    (h : Replaying events iteration start m g) (hne : events ≠ [])
    (hnow : m = 0 → ∀ now ∈ times.head?, now = start)
    (htimely : ∀ j, j + 1 < m + times.length → Left events iteration (j + 1) →
      TimelyAfter events assertions start j) :
    JsonFakeValueGenerator.nextEvents assertions times g =
      .ok ((List.range' m times.length).map (replayed events iteration start)) := by
  induction times generalizing m g with
  | nil => rfl
  | cons now times ih =>
      rw [List.length_cons] at htimely
      obtain ⟨next, hcall, hnext⟩ := h.nextEvent now hne
        (fun hm => hnow hm now rfl) fun j hj hleft => htimely j (by omega) (hj ▸ hleft)
      have hrest := ih hnext (fun hm => absurd hm (Nat.succ_ne_zero m)) fun j hj hleft =>
        htimely j (by omega) hleft
      rw [JsonFakeValueGenerator.nextEvents, hcall, List.length_cons, List.range'_succ]
      simp only [bind, Except.bind, hrest]
      rfl

/-- A result that is an event comes from an event of the file. -/
theorem replayed_eq_some {event : VehiclePropValue}
    (h : replayed events iteration start m = some event) :
    Left events iteration m ∧ ∃ source, events[m % events.length]? = some source ∧
      event = { source with timestamp := replayTime events start m } := by
  rw [replayed] at h
  split at h
  · rename_i hleft
    obtain ⟨source, hsource, rfl⟩ := Option.map_eq_some_iff.mp h
    exact ⟨hleft, source, hsource, rfl⟩
  · cases h

/-- The replay ends exactly when no event is left. -/
theorem replayed_eq_none_iff (hne : events ≠ []) :
    replayed events iteration start m = none ↔ ¬Left events iteration m := by
  have hlt : m % events.length < events.length := Nat.mod_lt _ (List.length_pos_iff.mpr hne)
  rw [replayed]
  split
  · rename_i hleft
    simp only [List.getElem?_eq_getElem hlt, Option.map_some, reduceCtorEq, hleft,
      not_true_eq_false]
  · rename_i hleft
    exact iff_of_true rfl hleft

/-- The replayed events are a replay of the file. -/
theorem replays_replayed (hne : events ≠ []) (n : Nat) :
    Replays events iteration ((List.range n).map (replayed events iteration start)) := by
  have hresult (m : Nat) (r : Option VehiclePropValue)
      (h : ((List.range n).map (replayed events iteration start))[m]? = some r) :
      replayed events iteration start m = r := by
    obtain ⟨hm, hr⟩ := List.getElem?_eq_some_iff.mp h
    rwa [List.getElem_map, List.getElem_range] at hr
  constructor
  · intro m hm
    rw [List.length_map, List.length_range] at hm
    rw [List.getElem?_map, List.getElem?_range hm, Option.map_some, Option.some.injEq,
      replayed_eq_none_iff hne]
  · intro m event hevent
    obtain ⟨_, source, hsource, rfl⟩ := replayed_eq_some (hresult m _ hevent)
    exact ⟨source, hsource, rfl⟩
  · intro m event next hevent hnext hinner
    obtain ⟨_, source, hsource, rfl⟩ := replayed_eq_some (hresult m _ hevent)
    obtain ⟨_, nextSource, hnextSource, rfl⟩ := replayed_eq_some (hresult (m + 1) _ hnext)
    refine ⟨source, nextSource, hsource, hnextSource, ?_⟩
    have hindex : (m + 1) % events.length - 1 = m % events.length := by
      have hmod := (mod_succ_eq (m := m) events.length (List.length_pos_iff.mpr hne)).1
      split at hmod
      · exact absurd hmod hinner
      · omega
    simp only [replayTime, replayDelay, if_neg hinner, hindex, fileTimestamp, hsource,
      hnextSource, Option.map_some, Option.getD_some]
    omega
  · intro m event next hevent hnext hfirst
    obtain ⟨_, source, hsource, rfl⟩ := replayed_eq_some (hresult m _ hevent)
    obtain ⟨_, nextSource, hnextSource, rfl⟩ := replayed_eq_some (hresult (m + 1) _ hnext)
    simp only [replayTime, replayDelay, if_pos hfirst]

end Steps

/-- Successive calls replay the file while the timestamps are timely. -/
theorem replays_file (assertions : Bool) (events : List VehiclePropValue) (iteration : Int)
    (times : List Int) (hne : events ≠ [])
    (htimely : ∀ m, m + 1 < times.length → Left events iteration (m + 1) →
      TimelyAfter events assertions (times.headD 0) m) :
    ∃ results, JsonFakeValueGenerator.nextEvents assertions times (.create events iteration) =
        .ok results ∧ results.length = times.length ∧ Replays events iteration results := by
  have hcreate := replaying_create events iteration (times.headD 0)
  refine ⟨_, hcreate.nextEvents hne (fun _ now hnow => ?_) fun m hm hleft =>
    htimely m (by omega) hleft, by simp, ?_⟩
  · rw [List.headD_eq_head?_getD, Option.mem_def.mp hnow, Option.getD_some]
  · rw [← List.range_eq_range']
    exact replays_replayed hne times.length

section Example

/-- A file with two events. -/
def twoEvents (first second : Int) : List VehiclePropValue :=
  [{ prop := 0x11600207, timestamp := first }, { prop := 0x11600207, timestamp := second }]

/-- Two iterations, in a build with assertions. -/
theorem two_iterations :
    ∃ results, JsonFakeValueGenerator.nextEvents true [5, 6, 7, 8, 9]
        (.create (twoEvents 10 30) 2) = .ok results ∧ results.length = 5 ∧
      Replays (twoEvents 10 30) 2 results := by
  refine replays_file true (twoEvents 10 30) 2 [5, 6, 7, 8, 9] (by decide) fun m hm hleft => ?_
  rw [List.length_cons] at hm
  obtain rfl | rfl | rfl | rfl : m = 0 ∨ m = 1 ∨ m = 2 ∨ m = 3 := by
    simp only [List.length_cons, List.length_nil] at hm
    omega
  all_goals constructor <;> decide

/-- The difference of the two timestamps cannot be added to the time of the clock. -/
theorem overflow_ends_replay :
    JsonFakeValueGenerator.nextEvents false [5, 6] (.create (twoEvents 0 (2 ^ 63 - 1)) 1) =
      .error .overflow := by
  decide

end Example

end VhalCore.Generators
