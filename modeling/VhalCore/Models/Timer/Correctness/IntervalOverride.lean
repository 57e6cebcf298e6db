import VhalCore.Models.Timer.Interpretation.AsyncLooper

/-!
# Registering a callback again

Registering a callback should override the interval that it was registered with before. The code
makes a new entry for the id of the callback, but an entry that is there is not replaced. So the
interval of the latest registration is stored in the runs that register a callback again with its
own interval only. In these runs, as long as the arithmetic of times and ids is exact, the two
maps fit together and no message from before an unregistration invokes its callback.
-/

namespace VhalCore.Timer

/-- The integer has at most 53 significant bits. -/
def FitsDouble (n : Int) : Prop := 2 ^ (n.natAbs.log2 - 52) ∣ n.natAbs

instance (n : Int) : Decidable (FitsDouble n) :=
  inferInstanceAs (Decidable (_ ∣ _))

/-- No rounding takes part in the alignment of a time. -/
def AlignsExactly (uptimeNanos intervalInNanos : Int) : Prop :=
  let count := uptimeNanos.tdiv intervalInNanos
  count = 0 ∨ FitsDouble count ∧ FitsDouble intervalInNanos ∧ FitsDouble (count * intervalInNanos)

instance (uptimeNanos intervalInNanos : Int) :
    Decidable (AlignsExactly uptimeNanos intervalInNanos) :=
  inferInstanceAs (Decidable (_ ∨ _))

/-- The time of the call after the next one, without overflow. -/
def CallbackInfo.timeAfter (nowNanos : Int) (info : CallbackInfo) : Int :=
  info.nextTimeInNanos +
    ((nowNanos - info.nextTimeInNanos).tdiv info.intervalInNanos + 1) * info.intervalInNanos

/-- A callback that is registered again keeps its interval, and no time or id leaves the range in
which the arithmetic is exact. -/
def LooperEvent.Regular (s : TimerWithLooper) : LooperEvent → Prop
  | .registerTimerCallback uptimeNanos intervalInNanos callback =>
      match s.timer.mIdByCallback.lookup callback with
      | none => s.timer.mCallbackId + 1 < 2 ^ 31 ∧ AlignsExactly uptimeNanos intervalInNanos
      | some id => ∀ info, s.timer.mCallbackInfoById.lookup id = some info →
          info.intervalInNanos = intervalInNanos
  | .unregisterTimerCallback _ => True
  | .handleMessage message nowNanos _ =>
      ∀ info, s.timer.mCallbackInfoById.lookup message.what = some info →
        -2 ^ 63 ≤ info.timeAfter nowNanos ∧ info.timeAfter nowNanos < 2 ^ 63

/-- A registration of a new callback is regular. -/
theorem regular_of_new {s : TimerWithLooper} {uptimeNanos intervalInNanos : Int}
    {callback : Callback} (hnew : s.timer.mIdByCallback.lookup callback = none)
    (hcounter : s.timer.mCallbackId + 1 < 2 ^ 31)
    (haligned : AlignsExactly uptimeNanos intervalInNanos) :
    (LooperEvent.registerTimerCallback uptimeNanos intervalInNanos callback).Regular s := by
  simp only [LooperEvent.Regular, hnew]
  exact ⟨hcounter, haligned⟩

/-- The interval that is stored for a callback. -/
def RecurrentTimer.intervalOf (callback : Callback) (timer : RecurrentTimer) : Option Int :=
  (timer.mIdByCallback.lookup callback).bind fun id =>
    (timer.mCallbackInfoById.lookup id).map CallbackInfo.intervalInNanos

/-- The maps of the timer after some events. -/
structure Overrides (events : List LooperEvent) (timer : RecurrentTimer) : Prop where
  bijective : ∀ callback id, timer.mIdByCallback.lookup callback = some id ↔
    ∃ info, timer.mCallbackInfoById.lookup id = some info ∧ info.callback = callback
  latest : ∀ callback, timer.intervalOf callback = latestInterval events callback
  aligned : ∀ id info, timer.mCallbackInfoById.lookup id = some info →
    info.intervalInNanos ∣ info.nextTimeInNanos

/-- Ids are given out in order. -/
structure Numbered (s : TimerWithLooper) : Prop where
  counter : 0 ≤ s.timer.mCallbackId
  used : ∀ id info, s.timer.mCallbackInfoById.lookup id = some info →
    0 ≤ id ∧ id < s.timer.mCallbackId
  sent : ∀ message ∈ s.inFlight, message.what < s.timer.mCallbackId

section Arithmetic

/-- A number that fits a double is converted exactly. -/
theorem toDouble_of_fits {n : Int} (h : FitsDouble n) : toDouble n = n := by
  obtain ⟨k, hk⟩ := h
  have hround : Binary32.roundBits n.natAbs 1 = n.natAbs := by
    have hpos : 0 < 2 ^ (n.natAbs.log2 - 52) := Nat.two_pow_pos _
    rw [Binary32.roundBits, Nat.div_one, Nat.one_mul]
    generalize 2 ^ (n.natAbs.log2 - 52) = e at hk hpos ⊢
    rw [Binary32.roundDiv, hk, Nat.mul_mod_right, Nat.mul_div_cancel_left k hpos,
      if_pos (by omega), Nat.mul_comm]
  rw [toDouble, hround, Int.sign_mul_natAbs]

/-- The aligned time is the last multiple of the interval. -/
theorem alignedTime_eq {uptimeNanos intervalInNanos : Int}
    (h : AlignsExactly uptimeNanos intervalInNanos) :
    alignedTime uptimeNanos intervalInNanos =
      uptimeNanos.tdiv intervalInNanos * intervalInNanos := by
  rcases h with hzero | ⟨hcount, hinterval, hproduct⟩
  · have h0 : toDouble 0 = 0 := by decide
    rw [alignedTime, hzero, h0, Int.zero_mul, Int.zero_mul, h0]
  · rw [alignedTime, toDouble_of_fits hcount, toDouble_of_fits hinterval,
      toDouble_of_fits hproduct]

end Arithmetic

section Steps

variable {events : List LooperEvent} {s : TimerWithLooper}

theorem Removes.what_lt {what bound : Int} {inFlight left : Finset SentMessage}
    (h : Removes what inFlight left) (hsent : ∀ message ∈ inFlight, message.what < bound) :
    ∀ message ∈ left, message.what < bound :=
  fun message hmessage => hsent message (h.subset hmessage)

/-- A registered callback has an entry under its id, which is not the invalid one. -/
theorem Overrides.registered {callback : Callback} {id : Int} (h : Overrides events s.timer)
    (hn : Numbered s) (hid : s.timer.mIdByCallback.lookup callback = some id) :
    s.timer.getCallbackIdLocked callback = id ∧ id ≠ invalidId ∧
      ∃ info, s.timer.mCallbackInfoById.lookup id = some info ∧ info.callback = callback := by
  obtain ⟨info, hinfo, hcallback⟩ := (h.bijective callback id).mp hid
  refine ⟨by rw [RecurrentTimer.getCallbackIdLocked, hid, Option.getD_some], ?_, info, hinfo,
    hcallback⟩
  have := (hn.used id info hinfo).1
  rw [invalidId]
  omega

/-- The next id has no entry. -/
theorem Numbered.free (hn : Numbered s) :
    s.timer.mCallbackInfoById.lookup s.timer.mCallbackId = none := by
  by_contra hused
  obtain ⟨info, hinfo⟩ := Option.ne_none_iff_exists'.mp hused
  exact lt_irrefl _ (hn.used _ info hinfo).2

/-- The entries after a callback that is not registered gets the next id. -/
theorem lookup_registerNew (hn : Numbered s) {callback : Callback}
    (hnew : s.timer.mIdByCallback.lookup callback = none)
    (uptimeNanos intervalInNanos id : Int) :
    (s.timer.registerTimerCallback uptimeNanos intervalInNanos callback).2.mCallbackInfoById.lookup
        id = if id = s.timer.mCallbackId then
          some ⟨callback, intervalInNanos, alignedTime uptimeNanos intervalInNanos⟩
        else s.timer.mCallbackInfoById.lookup id := by
  rw [registerTimerCallback_new hnew, UnorderedMap.lookup_touch_eq, UnorderedMap.valueAt,
    hn.free, Option.getD_none]

/-- A new registration counts one further. -/
theorem counter_registerNew (hn : Numbered s) {callback : Callback}
    (hnew : s.timer.mIdByCallback.lookup callback = none)
    (hcounter : s.timer.mCallbackId + 1 < 2 ^ 31)
    (uptimeNanos intervalInNanos : Int) :
    (s.timer.registerTimerCallback uptimeNanos intervalInNanos callback).2.mCallbackId =
      s.timer.mCallbackId + 1 := by
  rw [registerTimerCallback_new hnew]
  exact Int.bmod_eq_of_le (by have := hn.counter; omega) (by omega)

/-- A new registration keeps the identities numbered. -/
theorem Numbered.registerNew (hn : Numbered s) {callback : Callback}
    (hnew : s.timer.mIdByCallback.lookup callback = none)
    (hcounter : s.timer.mCallbackId + 1 < 2 ^ 31)
    (uptimeNanos intervalInNanos : Int) :
    Numbered (TimerWithLooper.send s.timer.mCallbackId { s with
      timer := (s.timer.registerTimerCallback uptimeNanos intervalInNanos callback).2 }) := by
  have hcount := counter_registerNew hn hnew hcounter uptimeNanos intervalInNanos
  refine ⟨?_, fun id info hinfo => ?_, fun message hmessage => ?_⟩
  · simp only [TimerWithLooper.send, hcount]
    exact Int.le_add_one hn.counter
  · simp only [TimerWithLooper.send, hcount] at hinfo ⊢
    rw [lookup_registerNew hn hnew] at hinfo
    split at hinfo
    · rename_i hid
      rw [hid]
      exact ⟨hn.counter, Int.lt_succ _⟩
    · exact ⟨(hn.used id info hinfo).1, Int.lt_add_one_of_le (hn.used id info hinfo).2.le⟩
  · simp only [TimerWithLooper.send, hcount] at hmessage ⊢
    rcases Finset.mem_insert.mp hmessage with rfl | hold
    · exact Int.lt_succ _
    · exact Int.lt_add_one_of_le (hn.sent message hold).le

/-- A new registration keeps every callback at its latest interval. -/
theorem Overrides.registerNew (h : Overrides events s.timer) (hn : Numbered s)
    {callback : Callback} {uptimeNanos intervalInNanos : Int}
    (hnew : s.timer.mIdByCallback.lookup callback = none)
    (haligned : AlignsExactly uptimeNanos intervalInNanos) :
    Overrides (events ++ [.registerTimerCallback uptimeNanos intervalInNanos callback])
      (s.timer.registerTimerCallback uptimeNanos intervalInNanos callback).2 := by
  have hinfos := lookup_registerNew hn hnew uptimeNanos intervalInNanos
  have hids (c : Callback) : (s.timer.registerTimerCallback uptimeNanos intervalInNanos
      callback).2.mIdByCallback.lookup c =
        if c = callback then some s.timer.mCallbackId else s.timer.mIdByCallback.lookup c := by
    rw [registerTimerCallback_new hnew, UnorderedMap.lookup_insert_eq]
  refine ⟨?_, fun c => ?_, fun id info hinfo => ?_⟩
  · rw [registerTimerCallback_new hnew, UnorderedMap.touch_eq_insert, UnorderedMap.valueAt, hn.free,
      Option.getD_none]
    exact UnorderedMap.Indexes.insert h.bijective
      ⟨callback, intervalInNanos, alignedTime uptimeNanos intervalInNanos⟩ hnew hn.free
  · rw [latestInterval_concat, intervalFrom, RecurrentTimer.intervalOf]
    simp only [hids, hinfos]
    by_cases hc : c = callback
    · simp [hc]
    · rw [if_neg hc, if_neg (Ne.symm hc), Option.getD_none, ← h.latest, RecurrentTimer.intervalOf]
      refine Option.bind_congr fun id hid => ?_
      obtain ⟨_, _, info, hinfo, _⟩ := h.registered hn hid
      rw [if_neg (hn.used id info hinfo).2.ne]
  · rw [hinfos] at hinfo
    split at hinfo
    · cases hinfo
      rw [alignedTime_eq haligned]
      exact Dvd.intro_left _ rfl
    · exact h.aligned id info hinfo

/-- A callback that is registered again with its interval. -/
theorem Overrides.registerOld (h : Overrides events s.timer) (hn : Numbered s)
    {callback : Callback} {id uptimeNanos intervalInNanos : Int}
    (hid : s.timer.mIdByCallback.lookup callback = some id)
    (hsame : ∀ info, s.timer.mCallbackInfoById.lookup id = some info →
      info.intervalInNanos = intervalInNanos) :
    Overrides (events ++ [.registerTimerCallback uptimeNanos intervalInNanos callback])
      s.timer := by
  obtain ⟨_, _, info, hinfo, _⟩ := h.registered hn hid
  refine ⟨h.bijective, fun c => ?_, h.aligned⟩
  rw [latestInterval_concat, intervalFrom]
  by_cases hc : callback = c
  · subst hc
    rw [if_pos rfl, Option.getD_some, RecurrentTimer.intervalOf, hid, Option.bind_some, hinfo,
      Option.map_some, hsame info hinfo]
  · rw [if_neg hc, Option.getD_none, h.latest]

/-- An unregistration keeps every callback at its latest interval. -/
theorem Overrides.unregister (h : Overrides events s.timer) (hn : Numbered s)
    (callback : Callback) :
    Overrides (events ++ [.unregisterTimerCallback callback])
      (s.timer.unregisterTimerCallback callback) := by
  have hlatest (c : Callback) :
      latestInterval (events ++ [.unregisterTimerCallback callback]) c =
        if callback = c then none else s.timer.intervalOf c := by
    rw [latestInterval_concat, intervalFrom, h.latest]
    split <;> rfl
  cases hid : s.timer.mIdByCallback.lookup callback with
  | none =>
      have hinvalid : s.timer.getCallbackIdLocked callback = invalidId := by
        rw [RecurrentTimer.getCallbackIdLocked, hid, Option.getD_none]
      rw [RecurrentTimer.unregisterTimerCallback, if_pos hinvalid]
      refine ⟨h.bijective, fun c => ?_, h.aligned⟩
      rw [hlatest]
      split
      · rename_i hc
        rw [← hc, RecurrentTimer.intervalOf, hid, Option.bind_none]
      · rfl
  | some id =>
      obtain ⟨hget, hvalid, info, hinfo, hcallback⟩ := h.registered hn hid
      have hinfos (x : Int) : Finmap.lookup x (s.timer.mCallbackInfoById.erase id) =
          if x = id then none else s.timer.mCallbackInfoById.lookup x :=
        UnorderedMap.lookup_erase_eq ..
      have hids (c : Callback) : Finmap.lookup c (s.timer.mIdByCallback.erase callback) =
          if c = callback then none else s.timer.mIdByCallback.lookup c :=
        UnorderedMap.lookup_erase_eq ..
      have hother {c : Callback} (hc : c ≠ callback) :
          s.timer.mIdByCallback.lookup c ≠ some id := by
        rw [ne_eq, h.bijective, hinfo]
        rintro ⟨found, hfound, rfl⟩
        cases hfound
        exact hc hcallback
      rw [RecurrentTimer.unregisterTimerCallback, hget, if_neg hvalid]
      refine ⟨?_, fun c => ?_, fun x found hfound => ?_⟩
      · subst hcallback
        exact UnorderedMap.Indexes.erase h.bijective hinfo
      · rw [hlatest, RecurrentTimer.intervalOf]
        simp only [hids, hinfos]
        by_cases hc : c = callback
        · simp [hc]
        · rw [if_neg hc, if_neg (Ne.symm hc), RecurrentTimer.intervalOf]
          refine Option.bind_congr fun x hx => ?_
          have hne : x ≠ id := fun hxid => hother hc (hxid ▸ hx)
          rw [if_neg hne]
      · rw [hinfos] at hfound
        split at hfound
        · cases hfound
        · exact h.aligned x found hfound

/-- A message that is not outdated moves the time of its entry by some intervals. -/
theorem Overrides.handle (h : Overrides events s.timer) {message : SentMessage} {nowNanos : Int}
    (invoked : Option Callback) {info : CallbackInfo}
    (hinfo : s.timer.mCallbackInfoById.lookup message.what = some info)
    (hlow : -2 ^ 63 ≤ info.timeAfter nowNanos) (hhigh : info.timeAfter nowNanos < 2 ^ 63) :
    ∃ timer, s.timer.handleMessage nowNanos message.what = some (info.callback, timer) ∧
      timer.mCallbackId = s.timer.mCallbackId ∧
      (∀ id, timer.mCallbackInfoById.lookup id = if id = message.what then
        some { info with nextTimeInNanos := info.timeAfter nowNanos }
        else s.timer.mCallbackInfoById.lookup id) ∧
      Overrides (events ++ [.handleMessage message nowNanos invoked]) timer := by
  have htime : (info.timeAfter nowNanos).bmod (2 ^ 64) = info.timeAfter nowNanos :=
    Int.bmod_eq_of_le (by omega) (by omega)
  have hinfos (id : Int) : Finmap.lookup id (s.timer.mCallbackInfoById.insert message.what
      { info with nextTimeInNanos := info.timeAfter nowNanos }) = if id = message.what then
        some { info with nextTimeInNanos := info.timeAfter nowNanos }
        else s.timer.mCallbackInfoById.lookup id :=
    UnorderedMap.lookup_insert_eq ..
  refine ⟨{ s.timer with
    mCallbackInfoById := s.timer.mCallbackInfoById.insert message.what
      { info with nextTimeInNanos := info.timeAfter nowNanos } }, ?_, rfl, hinfos,
    ?_, fun c => ?_, fun id found hfound => ?_⟩
  · rw [RecurrentTimer.handleMessage, hinfo, Option.map_some]
    exact congrArg (fun time => some (info.callback, { s.timer with
      mCallbackInfoById := s.timer.mCallbackInfoById.insert message.what
        { info with nextTimeInNanos := time } })) htime
  · exact UnorderedMap.Indexes.replace h.bijective hinfo rfl
  · rw [latestInterval_concat, intervalFrom, Option.getD_none, ← h.latest,
      RecurrentTimer.intervalOf, RecurrentTimer.intervalOf]
    refine Option.bind_congr fun id hid => ?_
    rw [hinfos]
    split
    · rename_i hwhat
      rw [hwhat, hinfo]
      rfl
    · rfl
  · rw [hinfos] at hfound
    split at hfound
    · cases hfound
      exact Dvd.dvd.add (h.aligned _ info hinfo) (Dvd.intro_left _ rfl)
    · exact h.aligned id found hfound

/-- What a step leaves of the entries: an entry under an id that was given out before is an
entry from before, of the same callback. -/
structure KeepsEntries (s t : TimerWithLooper) : Prop where
  counter : s.timer.mCallbackId ≤ t.timer.mCallbackId
  entries : ∀ id info, id < s.timer.mCallbackId →
    t.timer.mCallbackInfoById.lookup id = some info →
    ∃ old, s.timer.mCallbackInfoById.lookup id = some old ∧ old.callback = info.callback

variable {t : TimerWithLooper}

/-- What a registration keeps. -/
theorem step_register {callback : Callback} {uptimeNanos intervalInNanos what : Int}
    {timer : RecurrentTimer} {left : Finset SentMessage} (h : Overrides events s.timer)
    (hn : Numbered s)
    (hregular : (LooperEvent.registerTimerCallback uptimeNanos intervalInNanos callback).Regular s)
    (hleft : if s.timer.getCallbackIdLocked callback = invalidId then left = s.inFlight
      else Removes (s.timer.getCallbackIdLocked callback) s.inFlight left)
    (hcall : s.timer.registerTimerCallback uptimeNanos intervalInNanos callback = (what, timer)) :
    Overrides (events ++ [.registerTimerCallback uptimeNanos intervalInNanos callback]) timer ∧
      Numbered (TimerWithLooper.send what { s with timer, inFlight := left }) ∧
      KeepsEntries s (TimerWithLooper.send what { s with timer, inFlight := left }) := by
  cases hid : s.timer.mIdByCallback.lookup callback with
  | none =>
      simp only [LooperEvent.Regular, hid] at hregular
      have hinvalid : s.timer.getCallbackIdLocked callback = invalidId := by
        rw [RecurrentTimer.getCallbackIdLocked, hid, Option.getD_none]
      rw [if_pos hinvalid] at hleft
      have hover := h.registerNew hn hid hregular.2
      have hnumbered := hn.registerNew hid hregular.1 uptimeNanos intervalInNanos
      have hcount := counter_registerNew hn hid hregular.1 uptimeNanos intervalInNanos
      have hlookup := lookup_registerNew hn hid uptimeNanos intervalInNanos
      have hwhat : what = s.timer.mCallbackId := by
        rw [registerTimerCallback_new hid] at hcall
        exact (congrArg Prod.fst hcall).symm
      rw [hcall] at hover hnumbered hcount
      simp only [hcall] at hlookup
      rw [hleft, hwhat]
      refine ⟨hover, hnumbered, ?_, fun id info hlt hinfo => ⟨info, ?_, rfl⟩⟩
      · exact (Int.le_add_one le_rfl).trans_eq hcount.symm
      · simp only [TimerWithLooper.send] at hinfo
        rwa [hlookup, if_neg hlt.ne] at hinfo
  | some id =>
      simp only [LooperEvent.Regular, hid] at hregular
      obtain ⟨hget, hvalid, info, hinfo, _⟩ := h.registered hn hid
      rw [hget, if_neg hvalid] at hleft
      rw [registerTimerCallback_old hid hvalid hinfo] at hcall
      cases hcall
      refine ⟨h.registerOld hn hid hregular, ⟨hn.counter, hn.used, fun message hmessage => ?_⟩,
        le_rfl, fun x old _ hold => ⟨old, hold, rfl⟩⟩
      rcases Finset.mem_insert.mp hmessage with rfl | hold
      · exact (hn.used _ info hinfo).2
      · exact hleft.what_lt hn.sent message hold

/-- What an unregistration keeps. -/
theorem step_unregister {callback : Callback} {left : Finset SentMessage}
    (h : Overrides events s.timer) (hn : Numbered s)
    (hleft : if s.timer.getCallbackIdLocked callback = invalidId then left = s.inFlight
      else Removes (s.timer.getCallbackIdLocked callback) s.inFlight left) :
    Overrides (events ++ [.unregisterTimerCallback callback])
        (s.timer.unregisterTimerCallback callback) ∧
      Numbered { s with
        timer := s.timer.unregisterTimerCallback callback, inFlight := left } ∧
      KeepsEntries s { s with
        timer := s.timer.unregisterTimerCallback callback, inFlight := left } := by
  have hcounter : (s.timer.unregisterTimerCallback callback).mCallbackId =
      s.timer.mCallbackId := by
    rw [RecurrentTimer.unregisterTimerCallback]
    split <;> rfl
  have hinfos (id : Int) (info : CallbackInfo)
      (hinfo : (s.timer.unregisterTimerCallback callback).mCallbackInfoById.lookup id =
        some info) : s.timer.mCallbackInfoById.lookup id = some info := by
    rw [RecurrentTimer.unregisterTimerCallback] at hinfo
    split at hinfo
    · exact hinfo
    · rw [UnorderedMap.lookup_erase_eq] at hinfo
      split at hinfo
      · cases hinfo
      · exact hinfo
  have hsent : ∀ message ∈ left, message.what < s.timer.mCallbackId := by
    split at hleft
    · rw [hleft]
      exact hn.sent
    · exact hleft.what_lt hn.sent
  refine ⟨h.unregister hn callback, ⟨?_, ?_, ?_⟩, ?_, ?_⟩
  · exact hn.counter.trans_eq hcounter.symm
  · intro id info hinfo
    have hused := hn.used id info (hinfos id info hinfo)
    exact ⟨hused.1, hused.2.trans_eq hcounter.symm⟩
  · exact fun message hmessage => (hsent message hmessage).trans_eq hcounter.symm
  · exact hcounter.ge
  · exact fun id info _ hinfo => ⟨info, hinfos id info hinfo, rfl⟩

/-- What the delivery of a message keeps. -/
theorem step_handle {message : SentMessage} {nowNanos : Int} {callback : Callback}
    {timer : RecurrentTimer} (h : Overrides events s.timer) (hn : Numbered s)
    (hmessage : message ∈ s.inFlight)
    (hregular : (LooperEvent.handleMessage message nowNanos (some callback)).Regular s)
    (hcall : s.timer.handleMessage nowNanos message.what = some (callback, timer)) :
    Overrides (events ++ [.handleMessage message nowNanos (some callback)]) timer ∧
      Numbered (TimerWithLooper.send message.what
        { s with timer, inFlight := s.inFlight.erase message }) ∧
      KeepsEntries s (TimerWithLooper.send message.what
        { s with timer, inFlight := s.inFlight.erase message }) := by
  obtain ⟨info, hinfo, _⟩ := Option.map_eq_some_iff.mp hcall
  obtain ⟨hlow, hhigh⟩ := hregular info hinfo
  obtain ⟨after, hafter, hcounter, hinfos, hover⟩ := h.handle (some callback) hinfo
    hlow hhigh
  obtain ⟨_, rfl⟩ := Prod.mk.inj (Option.some.inj (hafter.symm.trans hcall))
  have hwhat := hn.sent message hmessage
  refine ⟨hover, ⟨?_, fun id found hfound => ?_, fun other hother => ?_⟩, ?_,
    fun id found _ hfound => ?_⟩
  · exact hn.counter.trans_eq hcounter.symm
  · have hfound' : after.mCallbackInfoById.lookup id = some found := hfound
    change 0 ≤ id ∧ id < after.mCallbackId
    rw [hcounter]
    rw [hinfos] at hfound'
    split at hfound'
    · rename_i hid
      rw [hid]
      exact hn.used _ info hinfo
    · exact hn.used id found hfound'
  · change other.what < after.mCallbackId
    rw [hcounter]
    rcases Finset.mem_insert.mp hother with rfl | hold
    · exact hwhat
    · exact hn.sent other (Finset.mem_of_mem_erase hold)
  · exact hcounter.ge
  · have hfound' : after.mCallbackInfoById.lookup id = some found := hfound
    rw [hinfos] at hfound'
    split at hfound'
    · rename_i hid
      cases hfound'
      exact ⟨info, hid ▸ hinfo, rfl⟩
    · exact ⟨found, hfound', rfl⟩

/-- A regular step. -/
theorem step_regular {event : LooperEvent} (h : Overrides events s.timer) (hn : Numbered s)
    (hstep : LooperStep s event t) (hregular : event.Regular s) :
    Overrides (events ++ [event]) t.timer ∧ Numbered t ∧ KeepsEntries s t := by
  cases hstep with
  | registerTimerCallback _ hleft hcall => exact step_register h hn hregular hleft hcall
  | unregisterTimerCallback hleft => exact step_unregister h hn hleft
  | handleOutdated hmessage _ =>
      refine ⟨⟨h.bijective, fun c => ?_, h.aligned⟩, ⟨hn.counter, hn.used, fun message hm => ?_⟩,
        le_rfl, fun id info _ hinfo => ⟨info, hinfo, rfl⟩⟩
      · rw [latestInterval_concat, intervalFrom, Option.getD_none, ← h.latest]
      · exact hn.sent message (Finset.mem_of_mem_erase hm)
  | handleMessage hmessage hcall => exact step_handle h hn hmessage hregular hcall

end Steps

section Runs

/-- A regular step of the timer and its looper. -/
def RegularStep (s : TimerWithLooper) (event : LooperEvent) (t : TimerWithLooper) : Prop :=
  LooperStep s event t ∧ event.Regular s

variable {events : List LooperEvent} {s t : TimerWithLooper} {callback : Callback}

/-- Every regular run keeps every callback at its latest interval. -/
theorem overrides_of_path {more : List LooperEvent} (h : Overrides events s.timer)
    (hn : Numbered s) (hpath : Path RegularStep s more t) :
    Overrides (events ++ more) t.timer ∧ Numbered t := by
  induction hpath with
  | nil => exact ⟨by rwa [List.append_nil], hn⟩
  | snoc _ hstep ih =>
      obtain ⟨hover, hnumbered, _⟩ := step_regular ih.1 ih.2 hstep.1 hstep.2
      exact ⟨by rwa [← List.append_assoc], hnumbered⟩

/-- A new timer has no callback. -/
theorem overrides_start : Overrides [] ({} : TimerWithLooper).timer ∧ Numbered {} := by
  refine ⟨⟨fun c id => ?_, fun c => rfl, fun id info h => ?_⟩,
    ⟨le_rfl, fun id info h => ?_, fun message h => ?_⟩⟩
  · exact iff_of_false (by rintro ⟨⟩) (by rintro ⟨info, ⟨⟩, _⟩)
  · cases h
  · cases h
  · cases h

/-- No entry is that of a callback that has been unregistered. -/
theorem Overrides.forgets
    (h : Overrides (events ++ [.unregisterTimerCallback callback]) t.timer) (id : Int)
    (info : CallbackInfo) (hinfo : t.timer.mCallbackInfoById.lookup id = some info) :
    info.callback ≠ callback := by
  intro hcallback
  have hid := (h.bijective callback id).mpr ⟨info, hinfo, hcallback⟩
  have hlatest := h.latest callback
  rw [latestInterval_concat, intervalFrom, if_pos rfl, Option.getD_some,
    RecurrentTimer.intervalOf, hid, Option.bind_some, hinfo] at hlatest
  cases hlatest

/-- A message of an id that has no entry of the callback never invokes the callback. -/
theorem silent_of_path {more : List LooperEvent} {bound : Int} (h : Overrides events s.timer)
    (hn : Numbered s) (hbound : bound ≤ s.timer.mCallbackId)
    (hforgets : ∀ id info, id < bound → s.timer.mCallbackInfoById.lookup id = some info →
      info.callback ≠ callback)
    (hpath : Path RegularStep s more t) {message : SentMessage} (hmessage : message.what < bound)
    (nowNanos : Int) :
    (bound ≤ t.timer.mCallbackId ∧ ∀ id info, id < bound →
        t.timer.mCallbackInfoById.lookup id = some info → info.callback ≠ callback) ∧
      .handleMessage message nowNanos (some callback) ∉ more := by
  induction hpath with
  | nil => exact ⟨⟨hbound, hforgets⟩, List.not_mem_nil⟩
  | @snoc u v as event hprefix hstep ih =>
      obtain ⟨⟨hle, hforgotten⟩, hsilent⟩ := ih
      obtain ⟨hover, hnumbered⟩ := overrides_of_path h hn hprefix
      obtain ⟨_, _, hkeeps⟩ := step_regular hover hnumbered hstep.1 hstep.2
      refine ⟨⟨hle.trans hkeeps.counter, fun id info hid hinfo => ?_⟩, fun hmem => ?_⟩
      · obtain ⟨old, hold, hsame⟩ := hkeeps.entries id info (hid.trans_le hle) hinfo
        exact hsame ▸ hforgotten id old hid hold
      · rcases List.mem_append.mp hmem with hmem | hmem
        · exact hsilent hmem
        · obtain rfl := List.mem_singleton.mp hmem
          cases hstep.1 with
          | handleMessage _ hcall =>
              obtain ⟨info, hinfo, hinvoked⟩ := Option.map_eq_some_iff.mp hcall
              exact hforgotten _ info hmessage hinfo (congrArg Prod.fst hinvoked)

end Runs

/-- In every run of regular steps the maps fit together and have the intervals of the latest
registrations, and no message from before an unregistration invokes its callback later. -/
theorem timer_overrides {events : List LooperEvent} {s : TimerWithLooper}
    (h : Path RegularStep {} events s) :
    Overrides events s.timer ∧
      ∀ before callback after t u, events = before ++ .unregisterTimerCallback callback :: after →
        Path RegularStep {} before t → RegularStep t (.unregisterTimerCallback callback) u →
        Path RegularStep u after s → ∀ message ∈ u.inFlight, ∀ nowNanos,
          .handleMessage message nowNanos (some callback) ∉ after := by
  obtain ⟨hover, hnumbered⟩ := overrides_start
  refine ⟨(overrides_of_path hover hnumbered h).1, ?_⟩
  intro before callback after t u _ hbefore hstep hafter message hmessage nowNanos
  obtain ⟨hover', hnumbered'⟩ := overrides_of_path hover hnumbered (hbefore.snoc hstep)
  refine (silent_of_path hover' hnumbered' le_rfl (fun id info _ hinfo => ?_) hafter
    (hnumbered'.sent message hmessage) nowNanos).2
  exact Overrides.forgets (List.append_assoc [] before _ ▸ hover') id info hinfo

section Example

/-- A timer on which a callback was registered, unregistered and registered again. -/
def registeredAgain : TimerWithLooper :=
  ((TimerWithLooper.registering 1000 100 (.other 0) {}).unregistering (.other 0)).registering 1000
    300 (.other 0)

/-- A run that registers a callback again after it was unregistered. -/
theorem path_registeredAgain :
    Path RegularStep {} [.registerTimerCallback 1000 100 (.other 0),
      .unregisterTimerCallback (.other 0), .registerTimerCallback 1000 300 (.other 0)]
      registeredAgain :=
  ((Path.single ⟨looperStep_registering (by decide) 1000 (.other 0) {},
    regular_of_new (by decide) (by decide) (by decide)⟩).snoc
    ⟨looperStep_unregistering (.other 0) _, trivial⟩).snoc
      ⟨looperStep_registering (by decide) 1000 (.other 0) _,
        regular_of_new (by decide) (by decide) (by decide)⟩

theorem registeredAgain_overrides :
    Overrides [.registerTimerCallback 1000 100 (.other 0), .unregisterTimerCallback (.other 0),
      .registerTimerCallback 1000 300 (.other 0)] registeredAgain.timer :=
  (timer_overrides path_registeredAgain).1

/-- The interval of the second registration is not stored. -/
theorem second_interval_ignored : ∃ s,
    Path LooperStep {} [.registerTimerCallback 0 200000000 (.other 0),
      .registerTimerCallback 0 100000000 (.other 0)] s ∧
    ¬Overrides [.registerTimerCallback 0 200000000 (.other 0),
      .registerTimerCallback 0 100000000 (.other 0)] s.timer := by
  refine ⟨_, (Path.single (looperStep_registering (by decide) 0 (.other 0) {})).snoc
    (looperStep_registering (by decide) 0 (.other 0) _), fun h => ?_⟩
  have hlatest := h.latest (.other 0)
  revert hlatest
  decide

end Example

end VhalCore.Timer
