import VhalCore.Core.Fairness
import VhalCore.Models.Timer.Interpretation.Locks

/-!
# Registering a callback blocks a thread on itself

The timer sends a message while it holds its lock, and the looper handles the message at once,
in the same thread: `handleMessage` then waits for the lock that its own thread holds. So the
timer works as it should exactly in the executions in which nothing is registered. A
subscription to a continuous property registers, and does not return.
-/

namespace VhalCore.Timer

open FakeHardware

variable {getPropConfig : Int → Option VehiclePropConfig} {s s' : TimerSystem}
  {e : TimerEvent} {t : ThreadId} {rest : List Frame}

/-- The thread waits for the lock of the timer, which it holds itself. -/
def SelfBlocked (s : TimerSystem) (t : ThreadId) : Prop :=
  ∃ call rest, s.frames t = .enter call :: rest ∧ call.locksTimer = true ∧ s.mLock = some t

/-- The executions of threads that use a new timer and a new hardware. -/
abbrev TimerExecution (getPropConfig : Int → Option VehiclePropConfig) : Type :=
  Execution (TimerStep getPropConfig) {}

/-- No thread that can go on waits forever. -/
def TimerExecution.Fair (x : TimerExecution getPropConfig) : Prop := ∀ t, x.FairTo (.run t)

/-- No thread ever waits for the lock of the timer that it holds; every call returns, if the
threads are scheduled fairly; no callback runs while the lock is taken. -/
structure NeverBlocksOnItself (x : TimerExecution getPropConfig) : Prop where
  notSelfBlocked : ∀ i t, ¬SelfBlocked (x.state i) t
  returns : x.Fair → ∀ i t frame rest, (x.state i).frames t = frame :: rest →
    ∃ j, i ≤ j ∧ (x.state j).frames t = rest
  unlocked : ∀ i t callback rest, (x.state i).frames t = .callback callback :: rest →
    (x.state i).mLock = none

/-- No call of the execution registers a callback: there is no `registerTimerCallback`, and no
subscription to areas of a continuous property at a rate other than 0. -/
def RegistersNothing (x : TimerExecution getPropConfig) : Prop :=
  ∀ i t call, x.event i = .call t call → call.registers getPropConfig = false

/-- Both locks are free, and the threads are in calls that register nothing. -/
structure Quiet (getPropConfig : Int → Option VehiclePropConfig) (s : TimerSystem) : Prop where
  mLock : s.mLock = none
  hardwareLock : s.hardwareLock = none
  frames : ∀ t frame rest, s.frames t = frame :: rest →
    rest = [] ∧ ∃ call, frame = .enter call ∧ call.registers getPropConfig = false

theorem quiet_start : Quiet getPropConfig {} :=
  ⟨rfl, rfl, fun _ _ _ h => absurd h.symm (List.cons_ne_nil _ _)⟩

private theorem Quiet.not_registers (hq : Quiet getPropConfig s) {call : Call}
    (hframes : s.frames t = .enter call :: rest) : call.registers getPropConfig = false := by
  obtain ⟨_, call', heq, hnot⟩ := hq.frames t _ rest hframes
  cases heq
  exact hnot

/-- A system in which nothing registers stays quiet. -/
theorem Quiet.step (hq : Quiet getPropConfig s) (h : KeptStep getPropConfig s e s')
    (hnot : ∀ t call, e = .call t call → call.registers getPropConfig = false) :
    Quiet getPropConfig s' := by
  cases h with
  | idle => exact hq
  | @call t call hempty =>
      refine ⟨hq.mLock, hq.hardwareLock, fun u frame rest hframes => ?_⟩
      by_cases heq : u = t
      · subst heq
        rw [s.frames_withFrames_self] at hframes
        cases hframes
        exact ⟨rfl, call, rfl, hnot u call rfl⟩
      · rw [s.frames_withFrames_of_ne _ heq] at hframes
        exact hq.frames u frame rest hframes
  | register _ _ hframes _ => cases hq.not_registers hframes
  | subscribe _ hframes hregisters _ _ _ =>
      rw [hq.not_registers hframes] at hregisters
      cases hregisters
  | @returns t call rest timer hardware hframes _ _ _ _ =>
      refine ⟨hq.mLock, hq.hardwareLock, fun u frame below hbelow => ?_⟩
      by_cases heq : u = t
      · subst heq
        replace hbelow := (s.frames_withFrames_self u rest).symm.trans hbelow
        rw [(hq.frames u _ rest hframes).1] at hbelow
        cases hbelow
      · exact hq.frames u frame below
          ((s.frames_withFrames_of_ne rest heq).symm.trans hbelow)

/-- With both locks free, a thread that registers nothing can go on. -/
theorem Quiet.enabled (hq : Quiet getPropConfig s) (hk : LocksKept getPropConfig s) {frame : Frame}
    (hframes : s.frames t = frame :: rest) : ∃ s', TimerStep getPropConfig s (.run t) s' := by
  obtain ⟨_, call, rfl, hnot⟩ := hq.frames t frame rest hframes
  cases call with
  | registerTimerCallback _ _ => cases hnot
  | unregisterTimerCallback callback => exact ⟨_, .unregister hframes hq.mLock⟩
  | handleMessage what =>
      exact ⟨_, .handleOutdated 0 hframes hq.mLock
        (RecurrentTimer.handleMessage_of_empty (hk.noCallback hq.mLock) 0 what)⟩
  | subscribe options =>
      cases hconfig : getPropConfig options.propId with
      | none => exact ⟨_, .subscribeUnsupported hframes hconfig⟩
      | some config =>
          obtain ⟨pairs, hcall⟩ := hardwareCall_of_not_refreshes hconfig hnot s.hardware
          exact ⟨_, .hardwareReturn hframes hq.hardwareLock hcall⟩
  | unsubscribe propId areaId =>
      obtain ⟨pairs, hcall⟩ :=
        (hk.noIntervals hq.hardwareLock).hardwareCall_unsubscribe propId areaId
      exact ⟨_, .hardwareReturn hframes hq.hardwareLock hcall⟩

/-- When a thread goes on, its call returns. -/
theorem Quiet.run_returns (hq : Quiet getPropConfig s) (h : KeptStep getPropConfig s (.run t) s')
    {frame : Frame} (hframes : s.frames t = frame :: rest) : s'.frames t = rest := by
  cases h with
  | register _ _ hcall _ => cases hq.not_registers hcall
  | subscribe _ hcall hregisters _ _ _ =>
      rw [hq.not_registers hcall] at hregisters
      cases hregisters
  | returns _ _ hcall _ _ _ _ =>
      rw [hframes] at hcall
      cases hcall
      exact s.frames_withFrames_self t rest

namespace TimerExecution

variable (x : TimerExecution getPropConfig)

theorem locksKept (i : Nat) : LocksKept getPropConfig (x.state i) :=
  x.always locksKept_start (fun j hk => hk.step (hk.keptStep (x.step j))) i

theorem keptStep (i : Nat) : KeptStep getPropConfig (x.state i) (x.event i) (x.state (i + 1)) :=
  (x.locksKept i).keptStep (x.step i)

theorem quiet {x : TimerExecution getPropConfig} (h : RegistersNothing x) (i : Nat) :
    Quiet getPropConfig (x.state i) :=
  x.always quiet_start (fun j hq => hq.step (x.keptStep j) (h j)) i

theorem keptStep_of_call {i : Nat} {call : Call} (hevent : x.event i = .call t call) :
    KeptStep getPropConfig (x.state i) (.call t call) (x.state (i + 1)) :=
  hevent ▸ x.keptStep i

/-- A call that registers does not return. -/
theorem registers_forever {i j : Nat} {call : Call} (hevent : x.event i = .call t call)
    (hregisters : call.registers getPropConfig = true) (hij : i + 1 ≤ j) :
    Registering getPropConfig (x.state j) t [] :=
  Execution.always_from (P := fun s => Registering getPropConfig s t []) hij
    ⟨[], Or.inr ⟨call, hregisters, (x.keptStep_of_call hevent).frames_of_call.2⟩⟩
    fun k => (x.keptStep k).registering

end TimerExecution

/-- A thread that registers has still something to do. -/
theorem Registering.frames_ne_nil (h : Registering getPropConfig s t rest) : s.frames t ≠ [] := by
  obtain ⟨more, ⟨_, what, hframes⟩ | ⟨call, _, hframes⟩⟩ := h
  · rw [hframes]
    exact List.cons_ne_nil _ _
  · rw [hframes]
    exact List.cons_ne_nil _ _

/-- In an execution that registers nothing the timer never blocks on itself, and in a fair one
that registers something it does. -/
theorem neverBlocksOnItself_iff_registersNothing (x : TimerExecution getPropConfig) :
    (RegistersNothing x → NeverBlocksOnItself x) ∧
      (x.Fair → (NeverBlocksOnItself x ↔ RegistersNothing x)) := by
  have hworks (h : RegistersNothing x) : NeverBlocksOnItself x := by
    refine ⟨fun i t hblocked => ?_, fun hfair i t frame rest hframes => ?_,
      fun i _ _ _ _ => (TimerExecution.quiet h i).mLock⟩
    · obtain ⟨_, _, _, _, hlock⟩ := hblocked
      rw [(TimerExecution.quiet h i).mLock] at hlock
      cases hlock
    · refine (hfair t).leadsTo (P := fun s => s.frames t = frame :: rest)
        (Q := fun s => s.frames t = rest) hframes (fun j hj => ?_)
        (fun j hj => (TimerExecution.quiet h j).enabled (x.locksKept j) hj) fun j hj hevent => ?_
      · by_cases hrun : x.event j = .run t
        · exact Or.inr ((TimerExecution.quiet h j).run_returns (hrun ▸ x.keptStep j) hj)
        · exact Or.inl ((x.keptStep j).frames_of_not_run hrun hj)
      · exact (TimerExecution.quiet h j).run_returns (hevent ▸ x.keptStep j) hj
  refine ⟨hworks, fun hfair => ⟨fun hnever i t call hevent => ?_, hworks⟩⟩
  cases hregisters : call.registers getPropConfig with
  | false => rfl
  | true =>
      obtain ⟨j, hj, hreturned⟩ :=
        hnever.returns hfair (i + 1) t _ [] (x.keptStep_of_call hevent).frames_of_call.2
      exact absurd hreturned (x.registers_forever hevent hregisters hj).frames_ne_nil

/-- The speed, which is reported at a rate. -/
def speedConfig : VehiclePropConfig :=
  { prop := 0x11600207, access := .read, changeMode := .continuous,
    minSampleRate := .ofInt 1, maxSampleRate := .ofInt 10 }

/-- The configs of a hardware that has nothing else. -/
def speedOnly (propId : Int) : Option VehiclePropConfig :=
  if propId = speedConfig.prop then some speedConfig else none

/-- The subscription to the speed at 10 Hz. -/
def speedOptions : SubscribeOptions :=
  { propId := 0x11600207, areaIds := [0], sampleRate := .ofInt 10 }

private theorem subscribe_path : ∃ s rest,
    Path (TimerStep speedOnly) {} [.call 0 (.subscribe speedOptions), .run 0, .run 0] s ∧
      Blocked s 0 rest ∧ ∀ t, t ≠ 0 → s.frames t = [] := by
  have hinterval : intervalInNanos speedOptions.sampleRate = some 100000000 := by decide +kernel
  have hrefreshes : refreshes speedOnly speedOptions = true := by decide +kernel
  obtain ⟨hardware, heq, _⟩ := @subscribeAreas_continuous {} speedOptions speedConfig rfl 100000000
    hinterval (by decide) [0] scheduled_start
  have hcall : hardwareCall speedOnly {} (.subscribe speedOptions) =
      some (subscribeAreasCalls speedOptions speedConfig [0] {}, hardware) := by
    rw [hardwareCall, show speedOnly speedOptions.propId = some speedConfig from rfl,
      show speedOptions.areaIds = [0] from rfl]
    simp only [heq, Option.map_some]
  obtain ⟨interval, callback, more, hcalls⟩ :=
    NoIntervals.hardwareCall_of_refreshes ⟨rfl, rfl⟩ hrefreshes hcall
  rw [hcalls] at hcall
  let s₁ : TimerSystem := TimerSystem.withFrames {} 0 [.enter (.subscribe speedOptions)]
  let s₂ : TimerSystem := { s₁.withFrames 0 (.enter (.registerTimerCallback interval callback) ::
      (more.map .enter ++ .hardwareCalling :: [])) with
    hardware := hardware
    hardwareLock := some 0 }
  have h1 : TimerStep speedOnly {} (.call 0 (.subscribe speedOptions)) s₁ :=
    .call (Or.inl rfl) fun _ => ⟨_, hinterval, by decide⟩
  have h2 : TimerStep speedOnly s₁ (.run 0) s₂ := .hardwareLock rfl rfl hcall
  have h3 := @TimerStep.registerLock speedOnly s₂ 0 interval callback _ 0 rfl rfl
  refine ⟨_, _, ((Path.single h1).snoc h2).snoc h3, ⟨rfl, _, rfl⟩, fun t ht => ?_⟩
  have hframes (s : TimerSystem) (frames : List Frame) := s.frames_withFrames_of_ne frames ht
  exact (hframes s₂ _).trans ((hframes s₁ _).trans (hframes {} _))

/-- The subscription to the speed at 10 Hz takes the lock of the timer and waits for it. -/
theorem subscribe_blocks_on_itself :
    ∃ x : TimerExecution speedOnly, x.Fair ∧ x.event 0 = .call 0 (.subscribe speedOptions) ∧
      SelfBlocked (x.state 3) 0 ∧ (∀ i, 1 ≤ i → (x.state i).frames 0 ≠ []) ∧
      ¬NeverBlocksOnItself x := by
  obtain ⟨s, rest, hpath, hblocked, hothers⟩ := subscribe_path
  obtain ⟨x, hevents, hfinal⟩ := hpath.exists_execution (.idle s)
  have hstate (i : Nat) (hi : 3 ≤ i) : x.state i = s := (hfinal i hi).1
  have hself : SelfBlocked (x.state 3) 0 := by
    rw [hstate 3 le_rfl]
    obtain ⟨hlock, what, hframes⟩ := hblocked
    exact ⟨_, _, hframes, rfl, hlock⟩
  have hkept : LocksKept speedOnly s := hstate 3 le_rfl ▸ TimerExecution.locksKept x 3
  have hevent : x.event 0 = .call 0 (.subscribe speedOptions) := hevents 0 _ rfl
  refine ⟨x, fun t => Execution.fairTo_of_final hstate fun u hstep => ?_, hevent, hself,
    fun i hi => ?_, fun hnever => hnever.notSelfBlocked 3 0 hself⟩
  · by_cases ht : t = 0
    · subst ht
      exact (hkept.keptStep hstep).not_blocked hblocked
    · exact (hkept.keptStep hstep).frames_ne_nil (hothers t ht)
  · exact (TimerExecution.registers_forever x hevent (by decide +kernel) hi).frames_ne_nil

/-- A thread handles an outdated message and then nothing more happens. -/
theorem works_for_outdated_message :
    ∃ x : TimerExecution speedOnly, x.event 0 = .call 0 (.handleMessage 7) ∧ RegistersNothing x ∧
      NeverBlocksOnItself x := by
  let s₁ : TimerSystem := TimerSystem.withFrames {} 0 [.enter (.handleMessage 7)]
  have h1 : TimerStep speedOnly {} (.call 0 (.handleMessage 7)) s₁ := .call (Or.inl rfl) trivial
  have h2 := @TimerStep.handleOutdated speedOnly s₁ 0 7 [] 0 rfl rfl rfl
  obtain ⟨x, hevents, hfinal⟩ := ((Path.single h1).snoc h2).exists_execution (.idle _)
  have hnothing : RegistersNothing x := by
    intro i t call hevent
    match i with
    | 0 =>
        cases (hevents 0 _ rfl).symm.trans hevent
        rfl
    | 1 => cases (hevents 1 _ rfl).symm.trans hevent
    | i + 2 => cases (hfinal (i + 2) (Nat.le_add_left 2 i)).2.symm.trans hevent
  exact ⟨x, hevents 0 _ rfl, hnothing, (neverBlocksOnItself_iff_registersNothing x).1 hnothing⟩

end VhalCore.Timer
