import VhalCore.Core.Binary32
import VhalCore.Core.UnorderedMap

/-!
# The recurrent timer

The timer gives every callback an id and keeps, for each id, the interval of the callback and
the time of its next call. These are the parts of its functions that run with its lock held
and change its maps; the messages that they send are part of the runs of its threads.
-/

namespace VhalCore.Timer

/-- A recurrent action: the refresh of an interval of the fake hardware, or one of another
user of the timer. -/
inductive Callback where
  | refreshTimestampForInterval (intervalInNanos : Int)
  | other (token : Nat)
  deriving DecidableEq, Repr

/-- A registered callback, its interval and the time it is due. -/
structure CallbackInfo where
  callback : Callback
  intervalInNanos : Int
  nextTimeInNanos : Int
  deriving DecidableEq, Repr

/-- The fields of the timer. -/
structure RecurrentTimer where
  mCallbackId : Int := 0
  mIdByCallback : UnorderedMap Callback Int := ∅
  mCallbackInfoById : UnorderedMap Int CallbackInfo := ∅

/-- The constant `INVALID_ID`. -/
def invalidId : Int := -1

/-- An integer that is converted to `double`. -/
def toDouble (n : Int) : Int := n.sign * Binary32.roundBits n.natAbs 1

/-- The multiple of the interval before a time. The product is computed in `double`. -/
def alignedTime (uptimeNanos intervalInNanos : Int) : Int :=
  toDouble (toDouble (uptimeNanos.tdiv intervalInNanos) * toDouble intervalInNanos)

namespace RecurrentTimer

/-- The identity of a callback, invalid where it is not registered. -/
def getCallbackIdLocked (callback : Callback) (timer : RecurrentTimer) : Int :=
  (timer.mIdByCallback.lookup callback).getD invalidId

/-- The id under which a callback is registered, which is a new one for a new callback. -/
def obtainCallbackId (callback : Callback) (timer : RecurrentTimer) : Int × RecurrentTimer :=
  if timer.getCallbackIdLocked callback = invalidId then
    (timer.mCallbackId, { timer with
      mCallbackId := (timer.mCallbackId + 1).bmod (2 ^ 32)
      mIdByCallback := timer.mIdByCallback.insert callback timer.mCallbackId })
  else (timer.getCallbackIdLocked callback, timer)

/-- `registerTimerCallback` up to its message, with the id that the message is for. The entry of
an id that has one is left as it is. -/
def registerTimerCallback (uptimeNanos intervalInNanos : Int) (callback : Callback)
    (timer : RecurrentTimer) : Int × RecurrentTimer :=
  let (callbackId, timer) := timer.obtainCallbackId callback
  let nextTimeInNanos := alignedTime uptimeNanos intervalInNanos
  (callbackId, { timer with
    mCallbackInfoById :=
      timer.mCallbackInfoById.touch callbackId ⟨callback, intervalInNanos, nextTimeInNanos⟩ })

/-- Unregisters a callback, if it is registered. -/
def unregisterTimerCallback (callback : Callback) (timer : RecurrentTimer) : RecurrentTimer :=
  let callbackId := timer.getCallbackIdLocked callback
  if callbackId = invalidId then timer
  else
    { timer with
      mCallbackInfoById := timer.mCallbackInfoById.erase callbackId
      mIdByCallback := timer.mIdByCallback.erase callback }

/-- `handleMessage` up to its next message, with the callback that is called in the end;
nothing if the message is outdated. -/
def handleMessage (nowNanos what : Int) (timer : RecurrentTimer) :
    Option (Callback × RecurrentTimer) :=
  (timer.mCallbackInfoById.lookup what).map fun info =>
    let intervalCount := (nowNanos - info.nextTimeInNanos).tdiv info.intervalInNanos + 1
    (info.callback, { timer with
      mCallbackInfoById := timer.mCallbackInfoById.insert what
        { info with
          nextTimeInNanos :=
            (info.nextTimeInNanos + intervalCount * info.intervalInNanos).bmod (2 ^ 64) } })

end RecurrentTimer

end VhalCore.Timer
