import VhalCore.Models.Timer.Native.RecurrentTimer

/-!
# The schedule of the recurrent timer

The time of the next call of a callback is moved when a message for its id is handled. It is the
first multiple of the interval after the time of the handling, however late the handling is. So
the times that are scheduled for an id only grow, and none of them depends on how late an earlier
handling was.
-/

namespace VhalCore.Timer

/-- The handling of a message for an id. -/
structure Handling where
  what : Int
  nowNanos : Int
  deriving DecidableEq, Repr

/-- The first multiple of the interval after a time. -/
def firstMultipleAfter (nowNanos intervalInNanos : Int) : Int :=
  (nowNanos / intervalInNanos + 1) * intervalInNanos

namespace RecurrentTimer

/-- The timer after a message, which an outdated message leaves as it is. -/
def handle (timer : RecurrentTimer) (handling : Handling) : RecurrentTimer :=
  match timer.handleMessage handling.nowNanos handling.what with
  | none => timer
  | some (_, after) => after

/-- The timer after some handlings. -/
def handleAll (timer : RecurrentTimer) (handlings : List Handling) : RecurrentTimer :=
  handlings.foldl handle timer

/-- The times for which messages for an id are sent while messages are handled. -/
def scheduledTimes (what : Int) : RecurrentTimer → List Handling → List Int
  | _, [] => []
  | timer, handling :: rest =>
      let after := timer.handle handling
      if handling.what = what then
        (after.mCallbackInfoById.lookup what).toList.map CallbackInfo.nextTimeInNanos ++
          scheduledTimes what after rest
      else scheduledTimes what after rest

/-- No message for the id is handled before the time that is scheduled for it. -/
def HandledOnTime (what : Int) : RecurrentTimer → List Handling → Prop
  | _, [] => True
  | timer, handling :: rest =>
      (handling.what = what → handling.nowNanos < 2 ^ 62 ∧
        ∀ info, timer.mCallbackInfoById.lookup what = some info →
          info.nextTimeInNanos ≤ handling.nowNanos) ∧
        HandledOnTime what (timer.handle handling) rest

end RecurrentTimer

/-- The next time is a multiple of the interval, and both are in range. -/
structure CallbackInfo.Aligned (info : CallbackInfo) : Prop where
  positive : 0 < info.intervalInNanos
  interval_lt : info.intervalInNanos < 2 ^ 62
  lower : -2 ^ 62 < info.nextTimeInNanos
  aligned : info.intervalInNanos ∣ info.nextTimeInNanos

/-- What the handling of a message does to the entry of its id. -/
structure CallbackInfo.Advances (nowNanos : Int) (before after : CallbackInfo) : Prop where
  callback : after.callback = before.callback
  interval : after.intervalInNanos = before.intervalInNanos
  first : after.nextTimeInNanos = firstMultipleAfter nowNanos before.intervalInNanos
  aligned : before.intervalInNanos ∣ after.nextTimeInNanos
  after_now : nowNanos < after.nextTimeInNanos
  within : after.nextTimeInNanos ≤ nowNanos + before.intervalInNanos
  later : before.nextTimeInNanos < after.nextTimeInNanos

section Arithmetic

variable {nowNanos intervalInNanos next : Int}

theorem lt_firstMultipleAfter (hinterval : 0 < intervalInNanos) :
    nowNanos < firstMultipleAfter nowNanos intervalInNanos :=
  Int.lt_ediv_add_one_mul_self nowNanos hinterval

theorem firstMultipleAfter_le (hinterval : 0 < intervalInNanos) :
    firstMultipleAfter nowNanos intervalInNanos ≤ nowNanos + intervalInNanos := by
  have := Int.ediv_mul_le nowNanos hinterval.ne'
  rw [firstMultipleAfter, Int.add_mul, Int.one_mul]
  omega

/-- The count of intervals leads from a multiple that is not after now to the first one after. -/
theorem skip_eq_firstMultipleAfter (hinterval : 0 < intervalInNanos)
    (haligned : intervalInNanos ∣ next) (hle : next ≤ nowNanos) :
    next + ((nowNanos - next).tdiv intervalInNanos + 1) * intervalInNanos =
      firstMultipleAfter nowNanos intervalInNanos := by
  obtain ⟨count, rfl⟩ := haligned
  rw [Int.tdiv_eq_ediv_of_nonneg (by omega), sub_eq_add_neg, ← Int.mul_neg,
    Int.add_mul_ediv_left _ _ hinterval.ne', firstMultipleAfter]
  ring

end Arithmetic

section Handlings

variable {timer : RecurrentTimer} {what nowNanos : Int} {info : CallbackInfo}

/-- A message for another id leaves the entry as it is. -/
theorem lookup_handle_other {handling : Handling} (hother : handling.what ≠ what) :
    (timer.handle handling).mCallbackInfoById.lookup what =
      timer.mCallbackInfoById.lookup what := by
  rw [RecurrentTimer.handle, RecurrentTimer.handleMessage]
  cases timer.mCallbackInfoById.lookup handling.what with
  | none => rfl
  | some info =>
      simp only [Option.map_some]
      rw [UnorderedMap.lookup_insert_eq, if_neg hother.symm]

/-- A message for the id of an entry that is not handled early. -/
theorem lookup_handle_self (hinfo : timer.mCallbackInfoById.lookup what = some info)
    (h : info.Aligned) (hnow : nowNanos < 2 ^ 62) (hle : info.nextTimeInNanos ≤ nowNanos) :
    ∃ after, (timer.handle ⟨what, nowNanos⟩).mCallbackInfoById.lookup what = some after ∧
      info.Advances nowNanos after ∧ after.Aligned := by
  have hskip := skip_eq_firstMultipleAfter h.positive h.aligned hle
  have hlt := @lt_firstMultipleAfter nowNanos _ h.positive
  have hwithin := @firstMultipleAfter_le nowNanos _ h.positive
  have hinterval := h.interval_lt
  have hlower := h.lower
  have htime : (firstMultipleAfter nowNanos info.intervalInNanos).bmod (2 ^ 64) =
      firstMultipleAfter nowNanos info.intervalInNanos :=
    Int.bmod_eq_of_le (by omega) (by omega)
  refine ⟨{ info with
    nextTimeInNanos := firstMultipleAfter nowNanos info.intervalInNanos }, ?_, ?_, ?_⟩
  · simp only [RecurrentTimer.handle, RecurrentTimer.handleMessage, hinfo, Option.map_some, hskip,
      htime]
    rw [UnorderedMap.lookup_insert_eq, if_pos rfl]
  · exact ⟨rfl, rfl, rfl, Dvd.intro_left _ rfl, hlt, hwithin, hle.trans_lt hlt⟩
  · exact ⟨h.positive, hinterval, hlower.trans (hle.trans_lt hlt), Dvd.intro_left _ rfl⟩

end Handlings

section Runs

variable {timer : RecurrentTimer} {what : Int} {info : CallbackInfo} {handlings : List Handling}

/-- The entry of the id in every state of a run, with its callback and its interval. -/
theorem lookup_handleAll (hinfo : timer.mCallbackInfoById.lookup what = some info)
    (h : info.Aligned) {after : List Handling}
    (htimes : timer.HandledOnTime what (handlings ++ after)) :
    (∃ reached, (timer.handleAll handlings).mCallbackInfoById.lookup what = some reached ∧
      reached.Aligned ∧ reached.callback = info.callback ∧
      reached.intervalInNanos = info.intervalInNanos) ∧
    (timer.handleAll handlings).HandledOnTime what after := by
  induction handlings generalizing timer info with
  | nil => exact ⟨⟨info, hinfo, h, rfl, rfl⟩, htimes⟩
  | cons handling rest ih =>
      obtain ⟨hnow, hrest⟩ := htimes
      by_cases hself : handling.what = what
      · obtain ⟨hlt, hle⟩ := hnow hself
        obtain ⟨what', nowNanos⟩ := handling
        cases hself
        obtain ⟨next, hnext, hadvances, haligned⟩ :=
          lookup_handle_self hinfo h hlt (hle info hinfo)
        obtain ⟨⟨reached, hreached, haligned', hcallback, hinterval⟩, hafter⟩ :=
          ih hnext haligned hrest
        exact ⟨⟨reached, hreached, haligned', hcallback.trans hadvances.callback,
          hinterval.trans hadvances.interval⟩, hafter⟩
      · exact ih ((lookup_handle_other hself).trans hinfo) h hrest

/-- Every time that is scheduled later is after the one that is scheduled now. -/
theorem lt_of_mem_scheduledTimes (hinfo : timer.mCallbackInfoById.lookup what = some info)
    (h : info.Aligned) (htimes : timer.HandledOnTime what handlings) :
    (∀ time ∈ timer.scheduledTimes what handlings, info.nextTimeInNanos < time) ∧
      (timer.scheduledTimes what handlings).Pairwise (· < ·) := by
  induction handlings generalizing timer info with
  | nil => exact ⟨fun _ hmem => absurd hmem List.not_mem_nil, List.Pairwise.nil⟩
  | cons handling rest ih =>
      obtain ⟨hnow, hrest⟩ := htimes
      rw [RecurrentTimer.scheduledTimes]
      by_cases hself : handling.what = what
      · obtain ⟨hlt, hle⟩ := hnow hself
        obtain ⟨what', nowNanos⟩ := handling
        cases hself
        obtain ⟨next, hnext, hadvances, haligned⟩ :=
          lookup_handle_self hinfo h hlt (hle info hinfo)
        obtain ⟨hlater, hsorted⟩ := ih hnext haligned hrest
        simp only [if_true, hnext, Option.toList_some, List.map_cons, List.map_nil,
          List.singleton_append, List.pairwise_cons, List.forall_mem_cons]
        exact ⟨⟨hadvances.later, fun time hmem => hadvances.later.trans (hlater time hmem)⟩,
          hlater, hsorted⟩
      · simp only [if_neg hself]
        exact ih ((lookup_handle_other hself).trans hinfo) h hrest

end Runs

/-- From a multiple of the interval, every message that is not handled before its time moves the
next time to the first multiple of the interval after it, and no time is scheduled twice. Messages
for other ids may be handled at any time in between. -/
theorem schedule_kept {timer : RecurrentTimer} {what : Int} {info : CallbackInfo}
    {handlings : List Handling} (hinfo : timer.mCallbackInfoById.lookup what = some info)
    (h : info.Aligned) (htimes : timer.HandledOnTime what handlings) :
    (∀ before nowNanos after, handlings = before ++ ⟨what, nowNanos⟩ :: after →
      ∃ old new, (timer.handleAll before).mCallbackInfoById.lookup what = some old ∧
        (timer.handleAll (before ++ [⟨what, nowNanos⟩])).mCallbackInfoById.lookup what =
          some new ∧
        old.callback = info.callback ∧ old.intervalInNanos = info.intervalInNanos ∧
        old.Advances nowNanos new) ∧
    (timer.scheduledTimes what handlings).Pairwise (· < ·) := by
  refine ⟨?_, (lt_of_mem_scheduledTimes hinfo h htimes).2⟩
  rintro before nowNanos after rfl
  obtain ⟨⟨old, hold, haligned, hcallback, hinterval⟩, hnow, _⟩ := lookup_handleAll hinfo h htimes
  obtain ⟨hlt, hle⟩ := hnow rfl
  obtain ⟨new, hnew, hadvances, _⟩ := lookup_handle_self hold haligned hlt (hle old hold)
  refine ⟨old, new, hold, ?_, hcallback, hinterval, hadvances⟩
  rwa [RecurrentTimer.handleAll, List.foldl_append]

section Example

/-- A timer on which a callback was registered with an interval of 300 ns. -/
def withInterval300 : RecurrentTimer :=
  (RecurrentTimer.registerTimerCallback 1000 300 (.other 0) {}).2

example : withInterval300.scheduledTimes 0 [⟨0, 950⟩, ⟨0, 1800⟩, ⟨5, 0⟩, ⟨0, 2350⟩] =
    [1200, 2100, 2400] := by
  decide

/-- The schedule of a callback with an interval of 300. -/
theorem withInterval300_schedule :
    (withInterval300.scheduledTimes 0 [⟨0, 950⟩, ⟨0, 1800⟩, ⟨5, 0⟩, ⟨0, 2350⟩]).Pairwise
      (· < ·) := by
  have hinfo : withInterval300.mCallbackInfoById.lookup 0 = some ⟨.other 0, 300, 900⟩ := by decide
  have htimes : withInterval300.HandledOnTime 0 [⟨0, 950⟩, ⟨0, 1800⟩, ⟨5, 0⟩, ⟨0, 2350⟩] := by
    refine ⟨fun _ => ⟨by decide, ?_⟩, fun _ => ⟨by decide, ?_⟩, fun h => absurd h (by decide),
      fun _ => ⟨by decide, ?_⟩, trivial⟩ <;>
    · rintro info h
      obtain rfl := Option.some.inj (h.symm.trans (by rfl))
      decide
  exact (schedule_kept hinfo ⟨by decide, by decide, by decide, by decide⟩ htimes).2

end Example

end VhalCore.Timer
