import VhalCore.Models.Timer.Interpretation.Calls

/-!
# What the threads can still do

A thread that registers a callback takes the lock of the timer and then waits for it in
`handleMessage`, so the lock is never free again. In every run, then, a callback is known to
the timer only while its lock is taken, and no callback is called. The steps that are left
are few: a call begins, a registration takes the lock, a subscription gets to it, or a call
that registers nothing returns.
-/

namespace VhalCore.Timer

open FakeHardware

variable {getPropConfig : Int → Option VehiclePropConfig} {s s' : TimerSystem}
  {e : TimerEvent} {t u : ThreadId} {rest : List Frame}

/-- The call registers a callback at the timer, itself or through the hardware. -/
def Call.registers (getPropConfig : Int → Option VehiclePropConfig) : Call → Bool
  | .registerTimerCallback _ _ => true
  | .subscribe options => refreshes getPropConfig options
  | _ => false

/-- The frame belongs to a message whose callback is known. -/
def Frame.ofKnownCallback : Frame → Bool
  | .handleSending _ => true
  | .callback _ => true
  | _ => false

theorem TimerSystem.frames_withFrames_self (s : TimerSystem) (t : ThreadId)
    (frames : List Frame) : (s.withFrames t frames).frames t = frames :=
  Function.update_self ..

theorem TimerSystem.frames_withFrames_of_ne (s : TimerSystem) (frames : List Frame)
    (h : u ≠ t) : (s.withFrames t frames).frames u = s.frames u :=
  Function.update_of_ne h ..

/-- The thread handles the message of its own registration and holds the lock. -/
def Blocked (s : TimerSystem) (t : ThreadId) (rest : List Frame) : Prop :=
  s.mLock = some t ∧
    ∃ what, s.frames t = .enter (.handleMessage what) :: .registerSending :: rest

/-- Above `rest`, the thread is in a call that registers. -/
def Registering (getPropConfig : Int → Option VehiclePropConfig) (s : TimerSystem) (t : ThreadId)
    (rest : List Frame) : Prop :=
  ∃ more, Blocked s t (more ++ rest) ∨
    ∃ call, call.registers getPropConfig = true ∧ s.frames t = .enter call :: (more ++ rest)

/-- What holds in every state that is reached. -/
structure LocksKept (getPropConfig : Int → Option VehiclePropConfig) (s : TimerSystem) : Prop where
  noCallback : s.mLock = none → s.timer.mCallbackInfoById = ∅
  timerHolder : ∀ t, s.mLock = some t → ∃ rest, Blocked s t rest
  noIntervals : s.hardwareLock = none → NoIntervals s.hardware
  hardwareHolder : ∀ t, s.hardwareLock = some t → Registering getPropConfig s t []
  unknown : ∀ t, ∀ frame ∈ s.frames t, frame.ofKnownCallback = false

/-- The steps from such a state. -/
inductive KeptStep (getPropConfig : Int → Option VehiclePropConfig) (s : TimerSystem) :
    TimerEvent → TimerSystem → Prop
  | idle : KeptStep getPropConfig s .idle s
  | call {t : ThreadId} {call : Call} (hframes : s.frames t = []) :
      KeptStep getPropConfig s (.call t call) (s.withFrames t [.enter call])
  | register {t : ThreadId} {interval : Int} {callback : Callback} {rest : List Frame}
      (what : Int) (timer : RecurrentTimer)
      (hframes : s.frames t = .enter (.registerTimerCallback interval callback) :: rest)
      (hlock : s.mLock = none) :
      KeptStep getPropConfig s (.run t)
        { s.withFrames t (.enter (.handleMessage what) :: .registerSending :: rest) with
          timer := timer
          mLock := some t }
  | subscribe {t : ThreadId} {call : Call} {interval : Int} {callback : Callback}
      {more rest : List Frame} (hardware : FakeVehicleHardware)
      (hframes : s.frames t = .enter call :: rest)
      (hregisters : call.registers getPropConfig = true) (hcall : call.locksTimer = false)
      (hlock : s.hardwareLock = none)
      (hmore : ∀ frame ∈ more, frame.ofKnownCallback = false) :
      KeptStep getPropConfig s (.run t)
        { s.withFrames t (.enter (.registerTimerCallback interval callback) :: (more ++ rest)) with
          hardware := hardware
          hardwareLock := some t }
  | returns {t : ThreadId} {call : Call} {rest : List Frame} (timer : RecurrentTimer)
      (hardware : FakeVehicleHardware) (hframes : s.frames t = .enter call :: rest)
      (hregisters : call.registers getPropConfig = false) (hlock : s.mLock ≠ some t)
      (htimer : s.mLock = none → timer.mCallbackInfoById = ∅)
      (hhardware : s.hardwareLock = none → NoIntervals hardware) :
      KeptStep getPropConfig s (.run t)
        { s.withFrames t rest with
          timer := timer
          hardware := hardware }

/-- What a function of a hardware without intervals calls: nothing if it registers nothing, or
first of all a registration. -/
theorem NoIntervals.hardwareCall_cases {hardware hardware' : FakeVehicleHardware} {call : Call}
    {calls : List Call} (h : NoIntervals hardware)
    (hcall : hardwareCall getPropConfig hardware call = some (calls, hardware')) :
    call.locksTimer = false ∧
      (calls = [] ∧ call.registers getPropConfig = false ∧ NoIntervals hardware' ∨
        call.registers getPropConfig = true ∧ ∃ interval callback more,
          calls = .registerTimerCallback interval callback :: more) := by
  cases call with
  | subscribe options =>
      refine ⟨rfl, ?_⟩
      cases hrefreshes : refreshes getPropConfig options with
      | true => exact Or.inr ⟨hrefreshes, h.hardwareCall_of_refreshes hrefreshes hcall⟩
      | false =>
          cases hconfig : getPropConfig options.propId with
          | none =>
              rw [hardwareCall, hconfig] at hcall
              cases hcall
          | some config =>
              obtain ⟨pairs, heq⟩ := hardwareCall_of_not_refreshes hconfig hrefreshes hardware
              cases heq.symm.trans hcall
              exact Or.inl ⟨rfl, hrefreshes, h.refreshInfos, h.actions⟩
  | unsubscribe propId areaId =>
      obtain ⟨pairs, heq⟩ :=
        @NoIntervals.hardwareCall_unsubscribe hardware getPropConfig h propId areaId
      cases heq.symm.trans hcall
      exact ⟨rfl, Or.inl ⟨rfl, rfl, h.refreshInfos, h.actions⟩⟩
  | registerTimerCallback _ _ => cases hcall
  | unregisterTimerCallback _ => cases hcall
  | handleMessage _ => cases hcall

/-- An empty timer stays empty. -/
theorem RecurrentTimer.unregisterTimerCallback_of_empty {timer : RecurrentTimer}
    (h : timer.mCallbackInfoById = ∅) (callback : Callback) :
    (timer.unregisterTimerCallback callback).mCallbackInfoById = ∅ := by
  rw [unregisterTimerCallback]
  split
  · exact h
  · rw [UnorderedMap.eq_empty_iff]
    intro id
    simp only
    rw [UnorderedMap.lookup_erase_eq, h]
    split <;> rfl

theorem RecurrentTimer.handleMessage_of_empty {timer : RecurrentTimer}
    (h : timer.mCallbackInfoById = ∅) (nowNanos what : Int) :
    timer.handleMessage nowNanos what = none := by
  rw [handleMessage, h, Finmap.lookup_empty]
  rfl

/-- A thread with another call on top does not hold the lock of the timer. -/
theorem LocksKept.not_holder (hk : LocksKept getPropConfig s) {frame : Frame}
    (hframes : s.frames t = frame :: rest) (hframe : ∀ what, frame ≠ .enter (.handleMessage what)) :
    s.mLock ≠ some t := by
  intro hlock
  obtain ⟨_, _, what, hblocked⟩ := hk.timerHolder t hlock
  rw [hframes] at hblocked
  exact hframe what (List.cons.inj hblocked).1

/-- No message finds its callback. -/
theorem LocksKept.not_known (hk : LocksKept getPropConfig s) {frame : Frame}
    (hframes : s.frames t = frame :: rest) (hframe : frame.ofKnownCallback = true) : False := by
  have hnot := hk.unknown t frame (by rw [hframes]; exact List.mem_cons_self ..)
  rw [hframe] at hnot
  cases hnot

/-- In a state that keeps its locks every step is a kept one. -/
theorem LocksKept.keptStep (hk : LocksKept getPropConfig s)
    (h : TimerStep getPropConfig s e s') : KeptStep getPropConfig s e s' := by
  cases h with
  | idle => exact .idle
  | call hmay hpositive =>
      rcases hmay with hempty | ⟨token, rest, hframes⟩
      · rw [hempty]
        exact .call hempty
      · exact (hk.not_known hframes rfl).elim
  | registerLock uptimeNanos hframes hlock => exact .register _ _ hframes hlock
  | registerUnlock hframes hlock =>
      exact absurd hlock (hk.not_holder hframes fun what => Frame.noConfusion)
  | unregister hframes hlock =>
      refine .returns _ s.hardware hframes rfl (hlock ▸ (Option.some_ne_none _).symm) ?_
        hk.noIntervals
      intro hnone
      exact RecurrentTimer.unregisterTimerCallback_of_empty (hk.noCallback hnone) _
  | handleOutdated nowNanos hframes hlock houtdated =>
      exact .returns s.timer s.hardware hframes rfl (hlock ▸ (Option.some_ne_none _).symm)
        hk.noCallback hk.noIntervals
  | handleLock nowNanos hframes hlock hfound =>
      rw [RecurrentTimer.handleMessage_of_empty (hk.noCallback hlock)] at hfound
      cases hfound
  | handleUnlock hframes hlock => exact (hk.not_known hframes rfl).elim
  | callbackReturn hframes => exact (hk.not_known hframes rfl).elim
  | refreshReturn hframes hlock => exact (hk.not_known hframes rfl).elim
  | subscribeUnsupported hframes hconfig =>
      refine .returns s.timer s.hardware hframes ?_ (hk.not_holder hframes ?_) hk.noCallback
        hk.noIntervals
      · rw [Call.registers, refreshes, hconfig]
      · exact fun what heq => Call.noConfusion (Frame.enter.inj heq)
  | hardwareReturn hframes hlock hcall =>
      obtain ⟨htimer, ⟨_, hregisters, hintervals⟩ | ⟨_, _, _, _, hcalls⟩⟩ :=
        (hk.noIntervals hlock).hardwareCall_cases hcall
      · refine .returns s.timer _ hframes hregisters (hk.not_holder hframes ?_) hk.noCallback
          fun _ => hintervals
        rintro what heq
        cases heq
        cases htimer
      · cases hcalls
  | @hardwareLock t call first more rest hardware hframes hlock hcall =>
      obtain ⟨htimer, ⟨hcalls, _⟩ | ⟨hregisters, _, _, _, hcalls⟩⟩ :=
        (hk.noIntervals hlock).hardwareCall_cases hcall
      · cases hcalls
      · cases hcalls
        rw [show more.map Frame.enter ++ .hardwareCalling :: rest =
          (more.map Frame.enter ++ [.hardwareCalling]) ++ rest by simp]
        refine .subscribe _ hframes hregisters htimer hlock ?_
        intro frame hframe
        rcases List.mem_append.mp hframe with hmap | hlast
        · obtain ⟨call, _, rfl⟩ := List.mem_map.mp hmap
          rfl
        · rw [List.mem_singleton.mp hlast]
          rfl
  | hardwareUnlock hframes hlock =>
      obtain ⟨more, ⟨_, what, hblocked⟩ | ⟨call, _, hcall⟩⟩ := hk.hardwareHolder _ hlock
      · rw [hframes] at hblocked
        cases hblocked
      · rw [hframes] at hcall
        cases hcall

/-- The frames of a thread stay as they are while it does nothing. -/
theorem KeptStep.frames_of_ne (h : KeptStep getPropConfig s e s')
    (hcall : ∀ call, e ≠ .call t call) (hrun : e ≠ .run t) : s'.frames t = s.frames t := by
  cases h with
  | idle => rfl
  | call _ => exact s.frames_withFrames_of_ne _ fun heq => hcall _ (by rw [heq])
  | register _ _ _ _ => exact s.frames_withFrames_of_ne _ fun heq => hrun (by rw [heq])
  | subscribe _ _ _ _ _ _ => exact s.frames_withFrames_of_ne _ fun heq => hrun (by rw [heq])
  | returns _ _ _ _ _ _ _ => exact s.frames_withFrames_of_ne _ fun heq => hrun (by rw [heq])

/-- Only a thread that is in no call begins one. -/
theorem KeptStep.frames_of_call {call : Call} (h : KeptStep getPropConfig s (.call t call) s') :
    s.frames t = [] ∧ s'.frames t = [.enter call] := by
  cases h with
  | call hempty => exact ⟨hempty, s.frames_withFrames_self t _⟩

theorem KeptStep.frames_ne_nil (h : KeptStep getPropConfig s (.run t) s') : s.frames t ≠ [] := by
  cases h with
  | register _ _ hframes _ => exact hframes ▸ List.cons_ne_nil _ _
  | subscribe _ hframes _ _ _ _ => exact hframes ▸ List.cons_ne_nil _ _
  | returns _ _ hframes _ _ _ _ => exact hframes ▸ List.cons_ne_nil _ _

/-- A thread in a call that does not go on stays in it. -/
theorem KeptStep.frames_of_not_run (h : KeptStep getPropConfig s e s') (hrun : e ≠ .run t)
    {frame : Frame} (hframes : s.frames t = frame :: rest) : s'.frames t = frame :: rest := by
  refine (h.frames_of_ne (fun call heq => ?_) hrun).trans hframes
  subst heq
  rw [h.frames_of_call.1] at hframes
  cases hframes

/-- The lock of the timer is not released. -/
theorem KeptStep.mLock_kept (h : KeptStep getPropConfig s e s') (hlock : s.mLock = some t) :
    s'.mLock = some t := by
  cases h with
  | idle => exact hlock
  | call _ => exact hlock
  | register _ _ _ hnone =>
      rw [hnone] at hlock
      cases hlock
  | subscribe _ _ _ _ _ _ => exact hlock
  | returns _ _ _ _ _ _ _ => exact hlock

/-- A blocked thread does not go on. -/
theorem KeptStep.not_blocked (h : KeptStep getPropConfig s (.run t) s') (hb : Blocked s t rest) :
    False := by
  obtain ⟨hlock, what, hblocked⟩ := hb
  cases h with
  | register _ _ hframes _ =>
      rw [hblocked] at hframes
      cases hframes
  | subscribe _ hframes hregisters _ _ _ =>
      rw [hblocked] at hframes
      cases hframes
      cases hregisters
  | returns _ _ _ _ hother _ _ => exact hother hlock

/-- A blocked thread stays blocked. -/
theorem KeptStep.blocked (h : KeptStep getPropConfig s e s') (hb : Blocked s t rest) :
    Blocked s' t rest := by
  have hrun : e ≠ .run t := by
    rintro rfl
    exact h.not_blocked hb
  obtain ⟨hlock, what, hframes⟩ := hb
  exact ⟨h.mLock_kept hlock, what, h.frames_of_not_run hrun hframes⟩

/-- A call that registers never returns. -/
theorem KeptStep.registering (h : KeptStep getPropConfig s e s')
    (hr : Registering getPropConfig s t rest) : Registering getPropConfig s' t rest := by
  obtain ⟨more, hblocked | ⟨call, hregisters, hframes⟩⟩ := hr
  · exact ⟨more, Or.inl (h.blocked hblocked)⟩
  · by_cases hrun : e = .run t
    · subst hrun
      cases h with
      | register what timer hcall hlock =>
          rw [hframes] at hcall
          cases hcall
          exact ⟨more, Or.inl ⟨rfl, what, s.frames_withFrames_self t _⟩⟩
      | @subscribe _ _ interval callback above _ hardware hcall _ _ _ _ =>
          rw [hframes] at hcall
          cases hcall
          refine ⟨above ++ more, Or.inr ⟨.registerTimerCallback interval callback, rfl, ?_⟩⟩
          rw [List.append_assoc]
          exact s.frames_withFrames_self t _
      | returns _ _ hcall hnot _ _ _ =>
          rw [hframes] at hcall
          cases hcall
          rw [hregisters] at hnot
          cases hnot
    · exact ⟨more, Or.inr ⟨call, hregisters, h.frames_of_not_run hrun hframes⟩⟩

/-- The frames of a step are those of before, but for the thread that makes it. -/
private theorem unknown_withFrames (hs : ∀ u, ∀ frame ∈ s.frames u, frame.ofKnownCallback = false)
    {frames : List Frame} (hframes : ∀ frame ∈ frames, frame.ofKnownCallback = false) :
    ∀ u, ∀ frame ∈ (s.withFrames t frames).frames u, frame.ofKnownCallback = false := by
  intro u
  by_cases heq : u = t
  · subst heq
    rw [s.frames_withFrames_self]
    exact hframes
  · rw [s.frames_withFrames_of_ne _ heq]
    exact hs u

/-- Every step keeps the locks. -/
theorem LocksKept.step (hk : LocksKept getPropConfig s) (h : KeptStep getPropConfig s e s') :
    LocksKept getPropConfig s' := by
  have hold {u : ThreadId} (hlock : s.mLock = some u) : ∃ rest, Blocked s' u rest := by
    obtain ⟨rest, hblocked⟩ := hk.timerHolder u hlock
    exact ⟨rest, h.blocked hblocked⟩
  have hhardware {u : ThreadId} (hlock : s.hardwareLock = some u) :
      Registering getPropConfig s' u [] := h.registering (hk.hardwareHolder u hlock)
  have hbelow {u : ThreadId} {frame : Frame} {rest : List Frame}
      (hframes : s.frames u = frame :: rest) :
      ∀ frame ∈ rest, frame.ofKnownCallback = false := fun frame hframe =>
    hk.unknown u frame (by rw [hframes]; exact List.mem_cons_of_mem _ hframe)
  cases h with
  | idle => exact hk
  | call hempty =>
      refine ⟨hk.noCallback, fun _ => hold, hk.noIntervals, fun _ => hhardware,
        unknown_withFrames hk.unknown ?_⟩
      intro frame hframe
      rw [List.mem_singleton.mp hframe]
      rfl
  | @register t _ _ rest what timer hframes hlock =>
      refine ⟨fun h => absurd h (Option.some_ne_none t), fun u hu => ?_, hk.noIntervals,
        fun _ => hhardware,
        unknown_withFrames hk.unknown ?_⟩
      · cases hu
        exact ⟨rest, rfl, what, s.frames_withFrames_self t _⟩
      · simp only [List.forall_mem_cons]
        exact ⟨rfl, rfl, hbelow hframes⟩
  | @subscribe t _ interval callback more rest hardware hframes _ _ _ hmore =>
      refine ⟨hk.noCallback, fun _ => hold, fun h => absurd h (Option.some_ne_none t),
        fun u hu => ?_,
        unknown_withFrames hk.unknown ?_⟩
      · cases hu
        refine ⟨more ++ rest, Or.inr ⟨.registerTimerCallback interval callback, rfl, ?_⟩⟩
        rw [List.append_nil]
        exact s.frames_withFrames_self t _
      · simp only [List.forall_mem_cons, List.forall_mem_append]
        exact ⟨rfl, hmore, hbelow hframes⟩
  | returns timer hardware hframes _ _ htimer hintervals =>
      exact ⟨htimer, fun _ => hold, hintervals, fun _ => hhardware,
        unknown_withFrames hk.unknown (hbelow hframes)⟩

theorem locksKept_start : LocksKept getPropConfig {} :=
  ⟨fun _ => rfl, fun t h => absurd h.symm (Option.some_ne_none t), fun _ => ⟨rfl, rfl⟩,
    fun t h => absurd h.symm (Option.some_ne_none t), fun _ _ h => absurd h List.not_mem_nil⟩

end VhalCore.Timer
