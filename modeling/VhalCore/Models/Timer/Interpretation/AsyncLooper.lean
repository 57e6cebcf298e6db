import VhalCore.Core.Execution
import VhalCore.Models.Timer.Native.RecurrentTimer

/-!
# The timer with a looper of its own thread

A looper keeps the messages that are sent to it and delivers each of them once, at any time after
it was sent. Removing the messages of an id removes those that the looper has not yet taken up,
so that some of them, or all, may still be delivered. The looper of the Linux port removes none.
-/

namespace VhalCore.Timer

/-- A message on its way. The number tells the messages of an id apart. -/
structure SentMessage where
  serial : Nat
  what : Int
  deriving DecidableEq

/-- The timer with the messages it has sent to a looper. -/
structure TimerWithLooper where
  timer : RecurrentTimer := {}
  inFlight : Finset SentMessage := ∅
  /-- The number of messages sent so far. -/
  sent : Nat := 0

/-- A call of the timer, or the delivery of a message. -/
inductive LooperEvent where
  | registerTimerCallback (uptimeNanos intervalInNanos : Int) (callback : Callback)
  | unregisterTimerCallback (callback : Callback)
  /-- A message is delivered; an outdated one invokes nothing. -/
  | handleMessage (message : SentMessage) (nowNanos : Int) (invoked : Option Callback)

/-- The messages that are left after some messages of an id have been removed. -/
structure Removes (what : Int) (inFlight left : Finset SentMessage) : Prop where
  subset : left ⊆ inFlight
  others : ∀ message ∈ inFlight, message.what ≠ what → message ∈ left

namespace TimerWithLooper

/-- One more message is sent. -/
def send (what : Int) (s : TimerWithLooper) : TimerWithLooper :=
  { s with inFlight := insert ⟨s.sent, what⟩ s.inFlight, sent := s.sent + 1 }

end TimerWithLooper

/-- An interval of zero has no step, for the division by it ends the process. -/
inductive LooperStep : TimerWithLooper → LooperEvent → TimerWithLooper → Prop
  | registerTimerCallback {s : TimerWithLooper} {uptimeNanos intervalInNanos what : Int}
      {callback : Callback} {timer : RecurrentTimer} {left : Finset SentMessage} :
      intervalInNanos ≠ 0 →
      (if s.timer.getCallbackIdLocked callback = invalidId then left = s.inFlight
        else Removes (s.timer.getCallbackIdLocked callback) s.inFlight left) →
      s.timer.registerTimerCallback uptimeNanos intervalInNanos callback = (what, timer) →
      LooperStep s (.registerTimerCallback uptimeNanos intervalInNanos callback)
        (TimerWithLooper.send what { s with timer, inFlight := left })
  | unregisterTimerCallback {s : TimerWithLooper} {callback : Callback}
      {left : Finset SentMessage} :
      (if s.timer.getCallbackIdLocked callback = invalidId then left = s.inFlight
        else Removes (s.timer.getCallbackIdLocked callback) s.inFlight left) →
      LooperStep s (.unregisterTimerCallback callback)
        { s with timer := s.timer.unregisterTimerCallback callback, inFlight := left }
  | handleOutdated {s : TimerWithLooper} {message : SentMessage} {nowNanos : Int} :
      message ∈ s.inFlight → s.timer.handleMessage nowNanos message.what = none →
      LooperStep s (.handleMessage message nowNanos none)
        { s with inFlight := s.inFlight.erase message }
  | handleMessage {s : TimerWithLooper} {message : SentMessage} {nowNanos : Int}
      {callback : Callback} {timer : RecurrentTimer} :
      message ∈ s.inFlight →
      s.timer.handleMessage nowNanos message.what = some (callback, timer) →
      LooperStep s (.handleMessage message nowNanos (some callback))
        (TimerWithLooper.send message.what
          { s with timer, inFlight := s.inFlight.erase message })

section NothingRemoved

/-- The registration when the looper removes no message. -/
def TimerWithLooper.registering (uptimeNanos intervalInNanos : Int) (callback : Callback)
    (s : TimerWithLooper) : TimerWithLooper :=
  let (what, timer) := s.timer.registerTimerCallback uptimeNanos intervalInNanos callback
  TimerWithLooper.send what { s with timer }

/-- The state after a callback is unregistered. -/
def TimerWithLooper.unregistering (callback : Callback) (s : TimerWithLooper) : TimerWithLooper :=
  { s with timer := s.timer.unregisterTimerCallback callback }

theorem removes_nothing (id : Int) (messages : Finset SentMessage) :
    if id = invalidId then messages = messages else Removes id messages messages := by
  split
  · rfl
  · exact ⟨Finset.Subset.refl messages, fun _ h _ => h⟩

theorem looperStep_registering {intervalInNanos : Int} (h : intervalInNanos ≠ 0)
    (uptimeNanos : Int) (callback : Callback) (s : TimerWithLooper) :
    LooperStep s (.registerTimerCallback uptimeNanos intervalInNanos callback)
      (s.registering uptimeNanos intervalInNanos callback) :=
  .registerTimerCallback h (removes_nothing _ s.inFlight) rfl

theorem looperStep_unregistering (callback : Callback) (s : TimerWithLooper) :
    LooperStep s (.unregisterTimerCallback callback) (s.unregistering callback) :=
  .unregisterTimerCallback (removes_nothing _ s.inFlight)

end NothingRemoved

/-- What a call says about the interval of a callback, if it says something. -/
def intervalFrom (callback : Callback) : LooperEvent → Option (Option Int)
  | .registerTimerCallback _ intervalInNanos c =>
      if c = callback then some (some intervalInNanos) else none
  | .unregisterTimerCallback c => if c = callback then some none else none
  | .handleMessage _ _ _ => none

/-- The interval of the latest registration of a callback, if it has not been unregistered
since. -/
def latestInterval (events : List LooperEvent) (callback : Callback) : Option Int :=
  ((events.filterMap (intervalFrom callback)).getLast?).getD none

/-- The last event decides the latest interval, if it is about the callback. -/
theorem latestInterval_concat (events : List LooperEvent) (event : LooperEvent)
    (callback : Callback) :
    latestInterval (events ++ [event]) callback =
      (intervalFrom callback event).getD (latestInterval events callback) := by
  rw [latestInterval, latestInterval, List.filterMap_append]
  cases h : intervalFrom callback event with
  | none => simp [h]
  | some said => simp [h]

section Registration

variable {timer : RecurrentTimer} {callback : Callback} {uptimeNanos intervalInNanos : Int}

/-- A new callback gets the next identity. -/
theorem registerTimerCallback_new (h : timer.mIdByCallback.lookup callback = none) :
    timer.registerTimerCallback uptimeNanos intervalInNanos callback =
      (timer.mCallbackId, {
        mCallbackId := (timer.mCallbackId + 1).bmod (2 ^ 32)
        mIdByCallback := timer.mIdByCallback.insert callback timer.mCallbackId
        mCallbackInfoById := timer.mCallbackInfoById.touch timer.mCallbackId
          ⟨callback, intervalInNanos, alignedTime uptimeNanos intervalInNanos⟩ }) := by
  have hid : timer.getCallbackIdLocked callback = invalidId := by
    rw [RecurrentTimer.getCallbackIdLocked, h, Option.getD_none]
  rw [RecurrentTimer.registerTimerCallback, RecurrentTimer.obtainCallbackId, if_pos hid]

/-- The entry of a registered callback stays as it is. -/
theorem registerTimerCallback_old {id : Int} {info : CallbackInfo}
    (h : timer.mIdByCallback.lookup callback = some id) (hid : id ≠ invalidId)
    (hinfo : timer.mCallbackInfoById.lookup id = some info) :
    timer.registerTimerCallback uptimeNanos intervalInNanos callback = (id, timer) := by
  have hold : timer.getCallbackIdLocked callback = id := by
    rw [RecurrentTimer.getCallbackIdLocked, h, Option.getD_some]
  have htouch (fresh : CallbackInfo) :
      timer.mCallbackInfoById.touch id fresh = timer.mCallbackInfoById :=
    if_pos (Finmap.mem_iff.mpr ⟨info, hinfo⟩)
  rw [RecurrentTimer.registerTimerCallback, RecurrentTimer.obtainCallbackId, hold, if_neg hid]
  simp only [htouch]

end Registration

end VhalCore.Timer
