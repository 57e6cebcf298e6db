import VhalCore.Models.FakeHardware.Native.Subscriptions
import VhalCore.Models.Timer.Native.RecurrentTimer

/-!
# Threads that use the timer

Every thread has a stack of the calls it is in. The looper of the Linux port delivers a
message by calling the handler at once, in the thread that sends it, so a call of
`handleMessage` is put on the stack of the sender while the sender still holds the lock of the
timer. Removing messages does nothing there.

A section that holds a lock and calls nothing that may wait is one step. The fake hardware
holds its own lock while it calls the timer, and its callbacks take that lock as well.
-/

namespace VhalCore.Timer

open FakeHardware

/-- A thread. -/
abbrev ThreadId := Nat

/-- The functions that threads call. -/
inductive Call where
  | registerTimerCallback (intervalInNanos : Int) (callback : Callback)
  | unregisterTimerCallback (callback : Callback)
  | handleMessage (what : Int)
  | subscribe (options : SubscribeOptions)
  | unsubscribe (propId areaId : Int)
  deriving DecidableEq

/-- The function begins with taking the lock of the timer. -/
def Call.locksTimer : Call → Bool
  | .registerTimerCallback _ _ => true
  | .unregisterTimerCallback _ => true
  | .handleMessage _ => true
  | _ => false

section HardwareCalls

/-- The calls of the timer in `unregisterRefreshLocked`. -/
def unregisterRefreshCalls (propIdAreaId : PropIdAreaId) (hardware : FakeVehicleHardware) :
    List Call :=
  match hardware.mRefreshInfoByPropIdAreaId.lookup propIdAreaId with
  | none => []
  | some refreshInfo =>
      let action := hardware.mActionByIntervalInNanos.valueAt refreshInfo.intervalInNanos {}
      if action.propIdAreaIdsToRefresh.erase propIdAreaId = ∅ then
        action.recurrentAction.toList.map fun interval =>
          .unregisterTimerCallback (.refreshTimestampForInterval interval)
      else []

/-- The calls of the timer in `registerRefreshLocked`. -/
def registerRefreshCalls (propIdAreaId : PropIdAreaId) (interval : Int)
    (hardware : FakeVehicleHardware) : List Call :=
  unregisterRefreshCalls propIdAreaId hardware ++
    match (hardware.unregisterRefreshLocked propIdAreaId).mActionByIntervalInNanos.lookup
        interval with
    | some _ => []
    | none => [.registerTimerCallback interval (.refreshTimestampForInterval interval)]

/-- The calls of the timer for one pair of a subscription. -/
def subscribePropIdAreaIdCalls (propId areaId : Int) (sampleRateHz : Binary32)
    (vehiclePropConfig : VehiclePropConfig) (hardware : FakeVehicleHardware) : List Call :=
  match vehiclePropConfig.changeMode with
  | .static => []
  | .onChange => []
  | .continuous =>
      if sampleRateHz.eq .zero then []
      else
        match intervalInNanos sampleRateHz with
        | none => []
        | some interval => registerRefreshCalls ⟨propId, areaId⟩ interval hardware

/-- The calls of the timer in the loop of `subscribe`. -/
def subscribeAreasCalls (options : SubscribeOptions) (config : VehiclePropConfig) :
    List Int → FakeVehicleHardware → List Call
  | [], _ => []
  | areaId :: areaIds, hardware =>
      subscribePropIdAreaIdCalls options.propId areaId options.sampleRate config hardware ++
        match hardware.subscribePropIdAreaIdLocked options.propId areaId options.sampleRate
            options.enableVariableUpdateRate config with
        | some (.ok, hardware) => subscribeAreasCalls options config areaIds hardware
        | _ => []

/-- What a call of the hardware does with its lock held: the calls of the timer that it makes
and the hardware that it leaves. -/
def hardwareCall (getPropConfig : Int → Option VehiclePropConfig) (hardware : FakeVehicleHardware) :
    Call → Option (List Call × FakeVehicleHardware)
  | .subscribe options =>
      match getPropConfig options.propId with
      | none => none
      | some config =>
          (FakeVehicleHardware.subscribeAreas options config options.areaIds hardware).map
            fun result =>
              (subscribeAreasCalls options config options.areaIds hardware, result.2)
  | .unsubscribe propId areaId =>
      some (unregisterRefreshCalls ⟨propId, areaId⟩ hardware,
        (hardware.unsubscribe propId areaId).2)
  | _ => none

end HardwareCalls

/-- A call that a thread is in. -/
inductive Frame where
  /-- The function is entered and has not yet taken its lock. -/
  | enter (call : Call)
  /-- `registerTimerCallback` holds the lock and sends its message. -/
  | registerSending
  /-- `handleMessage` holds the lock and sends its next message. -/
  | handleSending (callback : Callback)
  /-- `handleMessage` has released the lock and the callback runs. -/
  | callback (callback : Callback)
  /-- A function of the hardware holds the lock of the hardware and calls the timer. -/
  | hardwareCalling
  deriving DecidableEq

/-- The timer and the hardware, the locks of both, and what each thread has still to do. -/
structure TimerSystem where
  timer : RecurrentTimer := {}
  hardware : FakeVehicleHardware := {}
  /-- The thread that holds `RecurrentTimer::mLock`. -/
  mLock : Option ThreadId := none
  /-- The thread that holds `FakeVehicleHardware::mLock`. -/
  hardwareLock : Option ThreadId := none
  frames : ThreadId → List Frame := fun _ => []

namespace TimerSystem

/-- A thread goes on with other frames. -/
def withFrames (s : TimerSystem) (t : ThreadId) (frames : List Frame) : TimerSystem :=
  { s with frames := Function.update s.frames t frames }

/-- The thread runs code that is free to call: its own, or that of a callback. -/
def MayCall (s : TimerSystem) (t : ThreadId) : Prop :=
  s.frames t = [] ∨ ∃ token rest, s.frames t = .callback (.other token) :: rest

end TimerSystem

/-- A subscription that gets to `registerRefreshLocked`. -/
def refreshes (getPropConfig : Int → Option VehiclePropConfig) (options : SubscribeOptions) :
    Bool :=
  match getPropConfig options.propId with
  | none => false
  | some config =>
      config.changeMode = .continuous && !options.areaIds.isEmpty &&
        !options.sampleRate.eq .zero

/-- The intervals that a call is made with are positive. -/
def HasPositiveInterval (getPropConfig : Int → Option VehiclePropConfig) : Call → Prop
  | .registerTimerCallback interval _ => 0 < interval
  | .subscribe options => refreshes getPropConfig options = true →
      ∃ interval, intervalInNanos options.sampleRate = some interval ∧ 0 < interval
  | _ => True

/-- A thread starts a call or goes on with one. -/
inductive TimerEvent where
  /-- A thread calls a function. -/
  | call (t : ThreadId) (call : Call)
  /-- A thread goes on with the call it is in. -/
  | run (t : ThreadId)
  | idle
  deriving DecidableEq

/-- The steps of the threads. A thread that finds a lock taken has no step. -/
inductive TimerStep (getPropConfig : Int → Option VehiclePropConfig) :
    TimerSystem → TimerEvent → TimerSystem → Prop
  | idle (s : TimerSystem) : TimerStep getPropConfig s .idle s
  | call {s : TimerSystem} {t : ThreadId} {call : Call} (hmay : s.MayCall t)
      (hpositive : HasPositiveInterval getPropConfig call) :
      TimerStep getPropConfig s (.call t call) (s.withFrames t (.enter call :: s.frames t))
  | registerLock {s : TimerSystem} {t : ThreadId} {interval : Int} {callback : Callback}
      {rest : List Frame} (uptimeNanos : Int)
      (hframes : s.frames t = .enter (.registerTimerCallback interval callback) :: rest)
      (hlock : s.mLock = none) :
      TimerStep getPropConfig s (.run t)
        { s.withFrames t (.enter (.handleMessage
            (s.timer.registerTimerCallback uptimeNanos interval callback).1) ::
              .registerSending :: rest) with
          timer := (s.timer.registerTimerCallback uptimeNanos interval callback).2
          mLock := some t }
  | registerUnlock {s : TimerSystem} {t : ThreadId} {rest : List Frame}
      (hframes : s.frames t = .registerSending :: rest) (hlock : s.mLock = some t) :
      TimerStep getPropConfig s (.run t) { s.withFrames t rest with mLock := none }
  | unregister {s : TimerSystem} {t : ThreadId} {callback : Callback} {rest : List Frame}
      (hframes : s.frames t = .enter (.unregisterTimerCallback callback) :: rest)
      (hlock : s.mLock = none) :
      TimerStep getPropConfig s (.run t)
        { s.withFrames t rest with timer := s.timer.unregisterTimerCallback callback }
  | handleOutdated {s : TimerSystem} {t : ThreadId} {what : Int} {rest : List Frame}
      (nowNanos : Int) (hframes : s.frames t = .enter (.handleMessage what) :: rest)
      (hlock : s.mLock = none) (houtdated : s.timer.handleMessage nowNanos what = none) :
      TimerStep getPropConfig s (.run t) (s.withFrames t rest)
  | handleLock {s : TimerSystem} {t : ThreadId} {what : Int} {rest : List Frame}
      {callback : Callback} {timer : RecurrentTimer} (nowNanos : Int)
      (hframes : s.frames t = .enter (.handleMessage what) :: rest) (hlock : s.mLock = none)
      (hfound : s.timer.handleMessage nowNanos what = some (callback, timer)) :
      TimerStep getPropConfig s (.run t)
        { s.withFrames t (.enter (.handleMessage what) :: .handleSending callback :: rest) with
          timer := timer
          mLock := some t }
  | handleUnlock {s : TimerSystem} {t : ThreadId} {callback : Callback} {rest : List Frame}
      (hframes : s.frames t = .handleSending callback :: rest) (hlock : s.mLock = some t) :
      TimerStep getPropConfig s (.run t)
        { s.withFrames t (.callback callback :: rest) with mLock := none }
  | callbackReturn {s : TimerSystem} {t : ThreadId} {token : Nat} {rest : List Frame}
      (hframes : s.frames t = .callback (.other token) :: rest) :
      TimerStep getPropConfig s (.run t) (s.withFrames t rest)
  | refreshReturn {s : TimerSystem} {t : ThreadId} {interval : Int} {rest : List Frame}
      (hframes : s.frames t = .callback (.refreshTimestampForInterval interval) :: rest)
      (hlock : s.hardwareLock = none) :
      TimerStep getPropConfig s (.run t) (s.withFrames t rest)
  | subscribeUnsupported {s : TimerSystem} {t : ThreadId} {options : SubscribeOptions}
      {rest : List Frame} (hframes : s.frames t = .enter (.subscribe options) :: rest)
      (hconfig : getPropConfig options.propId = none) :
      TimerStep getPropConfig s (.run t) (s.withFrames t rest)
  | hardwareReturn {s : TimerSystem} {t : ThreadId} {call : Call} {rest : List Frame}
      {hardware : FakeVehicleHardware} (hframes : s.frames t = .enter call :: rest)
      (hlock : s.hardwareLock = none)
      (hcall : hardwareCall getPropConfig s.hardware call = some ([], hardware)) :
      TimerStep getPropConfig s (.run t) { s.withFrames t rest with hardware := hardware }
  | hardwareLock {s : TimerSystem} {t : ThreadId} {call first : Call} {more : List Call}
      {rest : List Frame} {hardware : FakeVehicleHardware}
      (hframes : s.frames t = .enter call :: rest) (hlock : s.hardwareLock = none)
      (hcall : hardwareCall getPropConfig s.hardware call = some (first :: more, hardware)) :
      TimerStep getPropConfig s (.run t)
        { s.withFrames t (.enter first :: (more.map .enter ++ .hardwareCalling :: rest)) with
          hardware := hardware
          hardwareLock := some t }
  | hardwareUnlock {s : TimerSystem} {t : ThreadId} {rest : List Frame}
      (hframes : s.frames t = .hardwareCalling :: rest) (hlock : s.hardwareLock = some t) :
      TimerStep getPropConfig s (.run t) { s.withFrames t rest with hardwareLock := none }

end VhalCore.Timer
