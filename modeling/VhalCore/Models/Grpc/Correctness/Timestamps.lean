import VhalCore.Core.Execution
import VhalCore.Models.Grpc.Native.GetValues
import Mathlib.Logic.Function.Basic

/-!
# Translation of timestamps

A call that gives a value its local timestamp reads the clock first and takes the lock of
the table then, so calls may enter the lock in another order than they read the clock.
External timestamps are accepted in order and equal ones get equal local timestamps in
every run. Newer external timestamps get no smaller local ones exactly in the runs where
a call with a newer value never brings a clock value below the recorded one.
-/

namespace VhalCore.Grpc

/-- A call that has read the clock. -/
structure StampCall where
  value : VehiclePropValue
  now : Int
  deriving DecidableEq

/-- A call that has left its locked section: the table before and after it, and the value
with its local timestamp unless the value was outdated. -/
structure StampRecord where
  call : StampCall
  before : LatestUpdateTimestamps
  after : LatestUpdateTimestamps
  result : Option VehiclePropValue

/-- The pair that the call was about. -/
def StampRecord.pair (r : StampRecord) : PropIdAreaId := r.call.value.propIdAreaId

/-- The timestamp that the server gave to the value. -/
def StampRecord.external (r : StampRecord) : Int := r.call.value.timestamp

/-- The clock, the calls between their two steps, the table, and the finished calls in the
order of the lock. -/
structure StampSystem where
  clock : Int
  pending : Nat → Option StampCall := fun _ => none
  mLatestUpdateTimestamps : LatestUpdateTimestamps := ∅
  log : List StampRecord := []

/-- What happens: time passes, a thread reads the clock for a value, or takes the lock. -/
inductive StampEvent where
  | tick (now : Int)
  | readClock (thread : Nat) (value : VehiclePropValue)
  | takeLock (thread : Nat)

/-- The locked section of a call. -/
def StampSystem.locked (s : StampSystem) (thread : Nat) (call : StampCall) : StampSystem :=
  let stamped := setAndroidTimestamp call.now call.value s.mLatestUpdateTimestamps
  { s with
    pending := Function.update s.pending thread none
    mLatestUpdateTimestamps := stamped.2
    log := s.log ++ [⟨call, s.mLatestUpdateTimestamps, stamped.2, stamped.1⟩] }

/-- One step of some thread, or of the clock, which never goes back. -/
inductive StampStep : StampSystem → StampEvent → StampSystem → Prop
  | tick {s : StampSystem} {now : Int} (h : s.clock ≤ now) :
      StampStep s (.tick now) { s with clock := now }
  | readClock {s : StampSystem} {thread : Nat} {value : VehiclePropValue}
      (h : s.pending thread = none) :
      StampStep s (.readClock thread value)
        { s with pending := Function.update s.pending thread (some ⟨value, s.clock⟩) }
  | takeLock {s : StampSystem} {thread : Nat} {call : StampCall}
      (h : s.pending thread = some call) :
      StampStep s (.takeLock thread) (s.locked thread call)

/-- What an earlier accepted call of a pair asks of a later call: an accepted one has no
smaller external timestamp, for an equal one the same local timestamp and for a larger one
no smaller local timestamp; an outdated one is refused and leaves the table as it is. -/
def TranslatesAfter (r r' : StampRecord) : Prop :=
  r.pair = r'.pair → ∀ v, r.result = some v →
    (∀ v', r'.result = some v' → r.external ≤ r'.external ∧
      (r.external = r'.external → v.timestamp = v'.timestamp) ∧
      (r.external < r'.external → v.timestamp ≤ v'.timestamp)) ∧
    (r'.external < r.external → r'.result = none ∧ r'.after = r'.before)

/-- The finished calls translate timestamps monotonically. -/
def TranslatesMonotonically (s : StampSystem) : Prop := s.log.Pairwise TranslatesAfter

/-- A call with a value newer than the entry of its pair did not read the clock below the
local timestamp of the entry. -/
def ReadInOrder (latest : LatestUpdateTimestamps) (call : StampCall) : Prop :=
  ∀ first second, latest.lookup call.value.propIdAreaId = some (first, second) →
    first < call.value.timestamp → second ≤ call.now

/-- The call that takes the lock has read the clock in order. -/
def ReadsClockInOrder (s : StampSystem) : StampEvent → Prop
  | .takeLock thread => ∀ call, s.pending thread = some call →
      ReadInOrder s.mLatestUpdateTimestamps call
  | _ => True

/-- What a locked section does: it records a newer value, repeats the timestamp of an equal
one and refuses an older one. -/
theorem setAndroidTimestamp_cases (now : Int) (value : VehiclePropValue)
    (latest : LatestUpdateTimestamps) :
    (∀ first second, latest.lookup value.propIdAreaId = some (first, second) →
        first < value.timestamp) ∧
      setAndroidTimestamp now value latest = (some { value with timestamp := now },
        latest.insert value.propIdAreaId (value.timestamp, now)) ∨
    (∃ second, latest.lookup value.propIdAreaId = some (value.timestamp, second) ∧
      setAndroidTimestamp now value latest = (some { value with timestamp := second }, latest)) ∨
    (∃ first second, latest.lookup value.propIdAreaId = some (first, second) ∧
      value.timestamp < first ∧ setAndroidTimestamp now value latest = (none, latest)) := by
  cases h : latest.lookup value.propIdAreaId with
  | none =>
      left
      simp only [setAndroidTimestamp, h]
      exact ⟨fun first second hnone => absurd hnone.symm (Option.some_ne_none _), trivial⟩
  | some entry =>
      obtain ⟨first, second⟩ := entry
      rcases lt_trichotomy first value.timestamp with hlt | heq | hgt
      · left
        simp only [setAndroidTimestamp, h, gt_iff_lt, hlt, if_true]
        refine ⟨fun first' second' hentry => ?_, trivial⟩
        cases hentry
        exact hlt
      · right; left
        subst heq
        refine ⟨second, rfl, ?_⟩
        simp only [setAndroidTimestamp, h, gt_iff_lt, lt_irrefl, if_false, if_true]
      · right; right
        refine ⟨first, second, rfl, hgt, ?_⟩
        simp only [setAndroidTimestamp, h, gt_iff_lt, hgt.not_gt, hgt.ne, if_false]

/-- The table against the finished calls: an accepted call of a pair is not above the entry
of the pair, and some accepted call is the entry. -/
structure TableFaithful (s : StampSystem) : Prop where
  covered : ∀ r ∈ s.log, ∀ v, r.result = some v → ∃ first second,
    s.mLatestUpdateTimestamps.lookup r.pair = some (first, second) ∧ r.external ≤ first ∧
      (r.external = first → v.timestamp = second) ∧ v.timestamp ≤ second
  attained : ∀ pair first second,
    s.mLatestUpdateTimestamps.lookup pair = some (first, second) →
      ∃ r ∈ s.log, ∃ v, r.result = some v ∧ r.pair = pair ∧ r.external = first ∧
        v.timestamp = second

/-- The record that a locked section adds. -/
def StampSystem.record (s : StampSystem) (call : StampCall) : StampRecord :=
  let stamped := setAndroidTimestamp call.now call.value s.mLatestUpdateTimestamps
  ⟨call, s.mLatestUpdateTimestamps, stamped.2, stamped.1⟩

theorem translatesMonotonically_locked (s : StampSystem) (thread : Nat) (call : StampCall) :
    TranslatesMonotonically (s.locked thread call) ↔
      TranslatesMonotonically s ∧ ∀ r ∈ s.log, TranslatesAfter r (s.record call) := by
  simp only [TranslatesMonotonically, StampSystem.locked, StampSystem.record, List.pairwise_append,
    List.pairwise_singleton, List.mem_singleton, forall_eq, true_and]

/-- An added record follows all earlier ones exactly if the clock was read in order. -/
theorem TableFaithful.translatesAfter_iff {s : StampSystem} (h : TableFaithful s)
    (call : StampCall) :
    (∀ r ∈ s.log, TranslatesAfter r (s.record call)) ↔
      ReadInOrder s.mLatestUpdateTimestamps call := by
  rcases setAndroidTimestamp_cases call.now call.value s.mLatestUpdateTimestamps with
    ⟨hnewer, heq⟩ | ⟨second, hlookup, heq⟩ | ⟨first, second, hlookup, holder, heq⟩
  · have hrecord : s.record call = ⟨call, s.mLatestUpdateTimestamps,
        s.mLatestUpdateTimestamps.insert call.value.propIdAreaId (call.value.timestamp, call.now),
        some { call.value with timestamp := call.now }⟩ := by
      simp only [StampSystem.record, heq]
    rw [hrecord]
    constructor
    · intro hall first second hlookup hlt
      obtain ⟨r, hr, v, hv, hpair, hext, hlocal⟩ := h.attained _ first second hlookup
      have hlater := ((hall r hr hpair v hv).1 _ rfl).2.2
      rw [← hlocal]
      apply hlater
      rw [hext]
      exact hlt
    · intro horder r hr hpair v hv
      obtain ⟨first, second, hlookup, hext, -, hlocal⟩ := h.covered r hr v hv
      rw [hpair] at hlookup
      have hlt : r.external < call.value.timestamp := lt_of_le_of_lt hext (hnewer _ _ hlookup)
      have hnow : second ≤ call.now := horder first second hlookup (hnewer _ _ hlookup)
      refine ⟨fun v' hv' => ?_, fun hgt => absurd hgt hlt.not_gt⟩
      cases hv'
      exact ⟨hlt.le, fun hsame => absurd hsame hlt.ne, fun _ => hlocal.trans hnow⟩
  · have hrecord : s.record call = ⟨call, s.mLatestUpdateTimestamps, s.mLatestUpdateTimestamps,
        some { call.value with timestamp := second }⟩ := by
      simp only [StampSystem.record, heq]
    rw [hrecord]
    constructor
    · intro _ first' second' hlookup' hlt
      rw [hlookup] at hlookup'
      cases hlookup'
      exact absurd hlt (lt_irrefl _)
    · intro _ r hr hpair v hv
      obtain ⟨first', second', hlookup', hext, hsame, hlocal⟩ := h.covered r hr v hv
      rw [hpair] at hlookup'
      cases hlookup.symm.trans hlookup'
      refine ⟨fun v' hv' => ?_, fun hgt => absurd hgt hext.not_gt⟩
      cases hv'
      exact ⟨hext, hsame, fun _ => hlocal⟩
  · have hrecord : s.record call =
        ⟨call, s.mLatestUpdateTimestamps, s.mLatestUpdateTimestamps, none⟩ := by
      simp only [StampSystem.record, heq]
    rw [hrecord]
    constructor
    · intro _ first' second' hlookup' hlt
      cases hlookup.symm.trans hlookup'
      exact absurd hlt holder.not_gt
    · intro _ r hr hpair v hv
      exact ⟨fun v' hv' => absurd hv'.symm (Option.some_ne_none v'), fun _ => ⟨rfl, rfl⟩⟩

/-- A call that leaves the table as it is, and is accepted only with what the table holds. -/
theorem TableFaithful.kept {s : StampSystem} (h : TableFaithful s) (thread : Nat)
    {call : StampCall} {result : Option VehiclePropValue}
    (heq : setAndroidTimestamp call.now call.value s.mLatestUpdateTimestamps =
      (result, s.mLatestUpdateTimestamps))
    (hresult : ∀ v, result = some v → s.mLatestUpdateTimestamps.lookup call.value.propIdAreaId =
      some (call.value.timestamp, v.timestamp)) : TableFaithful (s.locked thread call) := by
  constructor
  · intro r hr v hv
    simp only [StampSystem.locked, heq, List.mem_append, List.mem_singleton] at hr ⊢
    rcases hr with hr | rfl
    · exact h.covered r hr v hv
    · exact ⟨_, _, hresult v hv, le_rfl, fun _ => rfl, le_rfl⟩
  · intro pair first second hlookup
    simp only [StampSystem.locked, heq, List.mem_append] at hlookup ⊢
    obtain ⟨r, hr, hrest⟩ := h.attained pair first second hlookup
    exact ⟨r, Or.inl hr, hrest⟩

/-- A call whose value is newer than the entry of its pair becomes the entry. -/
theorem TableFaithful.recorded {s : StampSystem} (h : TableFaithful s) (thread : Nat)
    {call : StampCall} (horder : ReadInOrder s.mLatestUpdateTimestamps call)
    (hnewer : ∀ first second, s.mLatestUpdateTimestamps.lookup call.value.propIdAreaId =
      some (first, second) → first < call.value.timestamp)
    (heq : setAndroidTimestamp call.now call.value s.mLatestUpdateTimestamps =
      (some { call.value with timestamp := call.now }, s.mLatestUpdateTimestamps.insert
        call.value.propIdAreaId (call.value.timestamp, call.now))) :
    TableFaithful (s.locked thread call) := by
  constructor
  · intro r hr v hv
    simp only [StampSystem.locked, heq, List.mem_append, List.mem_singleton] at hr ⊢
    rw [UnorderedMap.lookup_insert_eq]
    rcases hr with hr | rfl
    · by_cases hpair : r.pair = call.value.propIdAreaId
      · obtain ⟨first, second, hlookup, hext, -, hlocal⟩ := h.covered r hr v hv
        rw [hpair] at hlookup
        have hlt := lt_of_le_of_lt hext (hnewer _ _ hlookup)
        rw [if_pos hpair]
        exact ⟨_, _, rfl, hlt.le, fun hsame => absurd hsame hlt.ne,
          hlocal.trans (horder _ _ hlookup (hnewer _ _ hlookup))⟩
      · rw [if_neg hpair]
        exact h.covered r hr v hv
    · cases hv
      exact ⟨_, _, if_pos rfl, le_rfl, fun _ => rfl, le_rfl⟩
  · intro pair first second hlookup
    simp only [StampSystem.locked, heq, List.mem_append, List.mem_singleton] at hlookup ⊢
    rw [UnorderedMap.lookup_insert_eq] at hlookup
    split at hlookup
    · rename_i hpair
      cases hlookup
      exact ⟨_, Or.inr rfl, _, rfl, hpair.symm, rfl, rfl⟩
    · obtain ⟨r, hr, hrest⟩ := h.attained pair first second hlookup
      exact ⟨r, Or.inl hr, hrest⟩

/-- A call that read the clock in order leaves a faithful table. -/
theorem TableFaithful.locked {s : StampSystem} (h : TableFaithful s) (thread : Nat)
    {call : StampCall} (horder : ReadInOrder s.mLatestUpdateTimestamps call) :
    TableFaithful (s.locked thread call) := by
  rcases setAndroidTimestamp_cases call.now call.value s.mLatestUpdateTimestamps with
    ⟨hnewer, heq⟩ | ⟨second, hlookup, heq⟩ | ⟨first, second, hlookup, holder, heq⟩
  · exact h.recorded thread horder hnewer heq
  · apply h.kept thread heq
    intro v hv
    cases hv
    exact hlookup
  · apply h.kept thread heq
    intro v hv
    cases hv

/-- The runs in which timestamps are translated monotonically, in every state that is
reached, are those in which every call reads the clock in order. -/
theorem translatesMonotonically_along_run_iff (clock : Int) (events : List StampEvent)
    (s : StampSystem) :
    Path (fun t a u => StampStep t a u ∧ TranslatesMonotonically u) { clock } events s ↔
      Path (fun t a u => StampStep t a u ∧ ReadsClockInOrder t a) { clock } events s := by
  have hinit : TranslatesMonotonically { clock } ∧ TableFaithful { clock } :=
    ⟨.nil, fun _ hr => absurd hr List.not_mem_nil, fun pair first second hlookup => by
      rw [Finmap.lookup_empty] at hlookup
      cases hlookup⟩
  apply Path.restrict_congr (I := fun s => TranslatesMonotonically s ∧ TableFaithful s) hinit
  rintro t a u ⟨hmono, htable⟩ hstep
  cases hstep with
  | tick hclock => exact ⟨iff_of_true hmono trivial, fun _ => ⟨hmono, htable.1, htable.2⟩⟩
  | readClock hidle => exact ⟨iff_of_true hmono trivial, fun _ => ⟨hmono, htable.1, htable.2⟩⟩
  | @takeLock thread call hcall =>
      have horder : ReadsClockInOrder t (.takeLock thread) ↔
          ReadInOrder t.mLatestUpdateTimestamps call := by
        simp only [ReadsClockInOrder, hcall, Option.some.injEq, forall_eq']
      have hlocked : TranslatesMonotonically (t.locked thread call) ↔
          ReadInOrder t.mLatestUpdateTimestamps call := by
        rw [translatesMonotonically_locked, htable.translatesAfter_iff]
        exact and_iff_right hmono
      rw [horder]
      exact ⟨hlocked, fun h => ⟨hlocked.mpr h, htable.locked thread h⟩⟩

/-- Two calls for one pair: the second to read the clock is the first to take the lock, and
the other one, whose value is newer, gets the smaller local timestamp. -/
theorem overtaken_call_goes_back :
    ∃ s, Path StampStep { clock := 5 } [.readClock 0 { timestamp := 2 }, .tick 6,
        .readClock 1 { timestamp := 1 }, .takeLock 1, .takeLock 0] s ∧
      s.log.map (fun r => (r.external, r.result.map (·.timestamp))) = [(1, some 6), (2, some 5)] ∧
      ¬ TranslatesMonotonically s := by
  let s₁ : StampSystem :=
    { clock := 5
      pending := Function.update (fun _ => none) 0 (some ⟨{ timestamp := 2 }, 5⟩) }
  let s₃ : StampSystem :=
    { clock := 6
      pending := Function.update s₁.pending 1 (some ⟨{ timestamp := 1 }, 6⟩) }
  have h1 : StampStep { clock := 5 } (.readClock 0 { timestamp := 2 }) s₁ := .readClock rfl
  have h2 : StampStep s₁ (.tick 6) { s₁ with clock := 6 } := .tick (by decide)
  have h3 : StampStep { s₁ with clock := 6 } (.readClock 1 { timestamp := 1 }) s₃ :=
    .readClock rfl
  have h4 := @StampStep.takeLock s₃ 1 ⟨{ timestamp := 1 }, 6⟩ rfl
  have h5 := @StampStep.takeLock (s₃.locked 1 ⟨{ timestamp := 1 }, 6⟩) 0 ⟨{ timestamp := 2 }, 5⟩ rfl
  refine ⟨_, ((((Path.single h1).snoc h2).snoc h3).snoc h4).snoc h5, by decide, fun hmono => ?_⟩
  have hpair := (List.pairwise_cons.mp hmono).1 _ (List.mem_singleton_self _)
  exact absurd (((hpair rfl _ rfl).1 _ rfl).2.2 (by decide)) (by decide)

end VhalCore.Grpc
