import VhalCore.Models.Subscription.Interpretation.Footprints
import VhalCore.Models.VehicleHal.Interpretation.BinderLifecycle

/-!
# What remains of a dead client

Everything that the service keeps for a client is dropped when the binder of the client dies. A
client for which something is kept is monitored, and the lock that a call holds from the check
of the binder to its last entry keeps the handler from dropping too early. What is kept for the
other clients only changes by their own calls.

Three things are asked of the environment: a link is refused for a dead binder only, an address
is not used again while the service has a context for it, and the hardware accepts the
unsubscription of a dead client, whose result nobody looks at.
-/

namespace VhalCore.VehicleHal

open EventQueue Subscription SubscriptionManager BinderLifecycle

variable {hw : Nat → StatusCode} {lib : MathLibrary} {s t : BinderLifecycle} {e : LifecycleEvent}

namespace BinderLifecycle

/-- A call of the client holds the lock and is still to make entries for it. -/
def Acting (s : BinderLifecycle) (c : ClientIdType) : Prop :=
  ∃ pending, s.mLock = some (.call pending) ∧ ∃ op ∈ pending, op.subscriber = some c

/-- The death of the client will be notified, or is still to be handled. -/
def AwaitsDeath (s : BinderLifecycle) (c : ClientIdType) : Prop :=
  s.links c = .linked ∨ true ∈ s.eventsOf c

/-- Whoever is kept by the service, or about to be, is waited for. -/
structure Monitored (s : BinderLifecycle) : Prop where
  tracked : Tracked s
  found : FoundByClient s.mSubscriptionManager
  awaited : ∀ c, s.Holds c ∨ s.Acting c → s.AwaitsDeath c
  alive : ∀ c ∈ s.mOnBinderDiedContexts, c ∉ s.dead → s.links c = .linked
  dead : ∀ c, true ∈ s.eventsOf c → c ∈ s.dead
  dropped : ∀ c, s.mLock = some (.handler c) → ∀ kind, c ∉ s.clients kind

/-- A new state is monitored. -/
theorem monitored_empty : Monitored {} where
  tracked := tracked_empty
  found := foundByClient_empty
  awaited c hc := by
    rcases hc with (⟨kind, hc⟩ | hc | hc) | ⟨pending, hc, _⟩
    · exact absurd hc (Finset.notMem_empty c)
    · exact absurd rfl hc
    · exact absurd rfl hc
    · cases hc
  alive c hc := absurd hc (Finset.notMem_empty c)
  dead c hc := absurd hc List.not_mem_nil
  dropped c hc := nomatch hc

/-- Without a context nobody waits for the death of the client. -/
theorem Tracked.not_awaitsDeath (hs : Tracked s) {c : ClientIdType}
    (hc : c ∉ s.mOnBinderDiedContexts) : ¬s.AwaitsDeath c := by
  have h := hs.monitoring c
  rw [AwaitsDeath]
  generalize s.links c = link at h ⊢
  generalize s.eventsOf c = pending at h ⊢
  cases h with
  | unmonitored => simp
  | linked h | died h | unlinking h | diedAndUnlinked h | unlinked h => exact absurd h hc

/-- The check of a binder links it, unless the call is turned away. -/
theorem Monitored.monitor (hs : Monitored s) {status : Int} {c : ClientIdType} {alive : Bool}
    (h : s.monitorBinderLifeCycleLocked status c = (alive, t))
    (hrefused : alive = false → c ∈ s.mOnBinderDiedContexts ∨ c ∈ s.dead) :
    Monitored t ∧ t.mLock = s.mLock ∧ (alive = true → t.links c = .linked) := by
  rcases monitorBinderLifeCycleLocked_cases h with ⟨hc, halive, rfl⟩ | ⟨hc, rfl⟩
  · refine ⟨hs, rfl, fun htrue => hs.alive c hc ?_⟩
    exact of_decide_eq_true (halive.symm.trans htrue)
  · refine ⟨?_, rfl, fun htrue => ?_⟩
    · refine ⟨hs.tracked.addContext hc alive, hs.found, fun d hd => ?_, fun d hd hlive => ?_,
        hs.dead, hs.dropped⟩
      · have hawaits : s.AwaitsDeath d := hs.awaited d hd
        have hne : d ≠ c := by
          rintro rfl
          exact hs.tracked.not_awaitsDeath hc hawaits
        refine hawaits.imp_left fun hlink => ?_
        exact (Function.update_of_ne hne ..).trans hlink
      · by_cases hdc : d = c
        · subst hdc
          cases alive with
          | false => exact absurd ((hrefused rfl).resolve_left hc) hlive
          | true => exact Function.update_self ..
        · refine (Function.update_of_ne hdc ..).trans (hs.alive d ?_ hlive)
          exact (Finset.mem_insert.mp hd).resolve_left hdc
    · subst htrue
      exact Function.update_self ..

/-- A call of the manager leads from one state in which it is monitored to another, when it
makes entries only for a client whose call holds the lock. -/
theorem Monitored.operate (hs : Monitored s) {op : Operation} {r : VhalResult}
    {manager : SubscriptionManager}
    (hstep : s.mSubscriptionManager.step hw lib op = some (r, manager))
    (hop : ∀ c, op.subscriber = some c → s.Acting c) {lock : Option LockHolder}
    (hlock : lock = s.mLock ∨ ∀ c, lock ≠ some (.handler c))
    (hacting : ∀ c, Acting { s with mLock := lock } c → s.Acting c) :
    Monitored { s with mSubscriptionManager := manager, mLock := lock } := by
  obtain ⟨acts, heff⟩ := step_effect hw hstep
  refine ⟨hs.tracked.congr rfl rfl rfl rfl, heff.foundByClient hs.found, fun c hc => ?_, hs.alive,
    hs.dead, fun c hc => ?_⟩
  · by_cases hsub : op.subscriber = some c
    · exact hs.awaited c (Or.inr (hop c hsub))
    · refine hs.awaited c ?_
      rcases hc with (hc | hc | hc) | hc
      · exact Or.inl (Or.inl hc)
      · exact Or.inl (Or.inr (Or.inl ((heff.treats_held c).ne_empty hsub hc)))
      · exact Or.inl (Or.inr (Or.inr ((heff.treats_supportedHeld c).ne_empty hsub hc)))
      · exact Or.inr (hacting c hc)
  · rcases hlock with hlock | hlock
    · exact hs.dropped c (hlock.symm.trans hc)
    · exact absurd hc (hlock c)

end BinderLifecycle

/-- What is asked of the environment in a step. -/
def Compliant (s : BinderLifecycle) : LifecycleEvent → Prop
  | .clientDied c _ => c ∈ s.mOnBinderDiedContexts ∨ c ∈ s.dead
  | .reuse c => c ∉ s.mOnBinderDiedContexts
  | .forget _ r => r = .ok ()
  | _ => True

theorem not_handler_of_lockHolder (pending : List Operation) (c : ClientIdType) :
    lockHolder pending ≠ some (.handler c) := by
  cases pending <;> simp [lockHolder]

/-- Who acts under the lock is the subscriber of a pending operation. -/
theorem acting_of_lockHolder {pending : List Operation} {c : ClientIdType}
    (h : Acting { s with mLock := lockHolder pending } c) :
    ∃ op ∈ pending, op.subscriber = some c := by
  obtain ⟨pending', hlock, op, hop, hc⟩ := h
  cases pending with
  | nil => cases hlock
  | cons first rest =>
      cases hlock
      exact ⟨op, hop, hc⟩

/-- A call that has checked its client may make entries for it. -/
theorem BinderLifecycle.Monitored.acquire (hs : Monitored s) {c : ClientIdType}
    (hlink : s.links c = .linked) {pending : List Operation}
    (hpending : ∀ op ∈ pending, op.subscriber = some c) :
    Monitored { s with mLock := lockHolder pending } where
  tracked := hs.tracked.congr rfl rfl rfl rfl
  found := hs.found
  awaited d hd := by
    rcases hd with hd | hd
    · exact hs.awaited d (Or.inl hd)
    · obtain ⟨op, hop, hd⟩ := acting_of_lockHolder hd
      cases (hpending op hop).symm.trans hd
      exact Or.inl hlink
  alive := hs.alive
  dead := hs.dead
  dropped d hd := absurd hd (not_handler_of_lockHolder pending d)

/-- The operations of a subscription are those of its callback. -/
theorem subscriber_of_operations {callback : CallbackType} {parsed : ParsedOptions}
    {op : Operation} (h : op ∈ parsed.operations callback) :
    op.subscriber = some callback.asBinder := by
  rw [ParsedOptions.operations, List.mem_append] at h
  rcases h with h | h
  all_goals
    split at h
    · exact absurd h List.not_mem_nil
    · rw [List.mem_singleton.mp h]
      rfl

namespace BinderLifecycle

/-- A read or write call keeps its client, which it has linked before. -/
theorem Monitored.getOrCreateClient (hs : Monitored s) {c : ClientIdType}
    (hlink : s.links c = .linked) (hlock : s.mLock = none) (kind : RequestKind)
    (htracked : Tracked (s.getOrCreateClient kind c)) : Monitored (s.getOrCreateClient kind c) := by
  refine ⟨htracked, hs.found, fun d hd => ?_, hs.alive, hs.dead, fun d hd => ?_⟩
  · by_cases hdc : d = c
    · subst hdc
      exact Or.inl hlink
    · refine hs.awaited d (hd.imp_left fun hd => hd.imp_left ?_)
      rintro ⟨kind', hkind⟩
      simp only [BinderLifecycle.getOrCreateClient, Function.update_apply] at hkind
      split at hkind
      · next hk => exact ⟨kind, (Finset.mem_insert.mp hkind).resolve_left hdc⟩
      · exact ⟨kind', hkind⟩
  · cases hd.symm.trans hlock

/-- A call makes its next entries, and keeps the lock unless it fails or is done. -/
theorem Monitored.perform (hs : Monitored s) {op : Operation} {pending : List Operation}
    {r : VhalResult} {manager : SubscriptionManager}
    (hlock : s.mLock = some (.call (op :: pending)))
    (hstep : s.mSubscriptionManager.step hw lib op = some (r, manager)) {lock : Option LockHolder}
    (hleft : lock = lockHolder pending ∨ lock = none) :
    Monitored { s with mSubscriptionManager := manager, mLock := lock } := by
  refine hs.operate hstep (fun c hc => ⟨_, hlock, op, List.mem_cons_self .., hc⟩) ?_ ?_
  · refine Or.inr fun c => ?_
    rcases hleft with rfl | rfl
    · exact not_handler_of_lockHolder pending c
    · simp
  · intro c hc
    rcases hleft with rfl | rfl
    · obtain ⟨op', hop', hc⟩ := acting_of_lockHolder hc
      exact ⟨_, hlock, op', List.mem_cons_of_mem _ hop', hc⟩
    · obtain ⟨_, hnone, _⟩ := hc
      cases hnone

/-- The death of a binder is notified: the event takes the place of the link. -/
theorem Monitored.onBinderDied (hs : Monitored s) {c : ClientIdType} (hdead : c ∈ s.dead)
    (htracked : Tracked (s.onBinderDied c)) : Monitored (s.onBinderDied c) := by
  have hevents (d : ClientIdType) :
      true ∈ (s.onBinderDied c).eventsOf d ↔ true ∈ s.eventsOf d ∨ d = c := by
    change true ∈ eventsOf { s with mBinderEvents := s.mBinderEvents.push ⟨true, c⟩ } d ↔ _
    rw [hs.tracked.eventsOf_push]
    split <;> simp [*]
  refine ⟨htracked, hs.found, fun d hd => ?_, fun d hd hlive => ?_, fun d hd => ?_, hs.dropped⟩
  · by_cases hdc : d = c
    · exact Or.inr ((hevents d).mpr (Or.inr hdc))
    · rcases hs.awaited d hd with hlink' | hevent
      · exact Or.inl ((Function.update_of_ne hdc ..).trans hlink')
      · exact Or.inr ((hevents d).mpr (Or.inl hevent))
  · refine (Function.update_of_ne ?_ ..).trans (hs.alive d hd hlive)
    rintro rfl
    exact hlive hdead
  · rcases (hevents d).mp hd with hevent | hdc
    · exact hs.dead d hevent
    · exact hdc ▸ hdead

/-- The end of a link is notified, which is no death. -/
theorem Monitored.onBinderUnlinked (hs : Monitored s) {c : ClientIdType}
    (hlink : s.links c = .unlinking) (htracked : Tracked (s.onBinderUnlinked c)) :
    Monitored (s.onBinderUnlinked c) := by
  have hevents (d : ClientIdType) : true ∈ eventsOf
      { s with mBinderEvents := s.mBinderEvents.push ⟨false, c⟩ } d ↔ true ∈ s.eventsOf d := by
    rw [hs.tracked.eventsOf_push]
    split <;> simp
  refine ⟨htracked, hs.found, fun d hd => ?_, fun d hd hlive => ?_,
    fun d hd => hs.dead d ((hevents d).mp hd), hs.dropped⟩
  · rcases hs.awaited d hd with hlink' | hevent
    · refine Or.inl ((Function.update_of_ne ?_ ..).trans hlink')
      rintro rfl
      cases hlink.symm.trans hlink'
    · exact Or.inr ((hevents d).mpr hevent)
  · refine (Function.update_of_ne ?_ ..).trans (hs.alive d hd hlive)
    rintro rfl
    cases hlink.symm.trans (hs.alive d hd hlive)

/-- The handler thread takes the events from the queue. -/
theorem Monitored.flush (hs : Monitored s) (hflushed : s.flushed = [])
    (htracked : Tracked { s with
      flushed := s.mBinderEvents.flush.1, mBinderEvents := s.mBinderEvents.flush.2 }) :
    Monitored { s with
      flushed := s.mBinderEvents.flush.1, mBinderEvents := s.mBinderEvents.flush.2 } := by
  have hevents (d : ClientIdType) : eventsOf { s with
      flushed := s.mBinderEvents.flush.1, mBinderEvents := s.mBinderEvents.flush.2 } d =
      s.eventsOf d := by
    simp only [BinderLifecycle.eventsOf, events, ConcurrentQueue.flush_eq, hflushed,
      List.append_nil, List.nil_append]
  refine ⟨htracked, hs.found, fun d hd => ?_, hs.alive, fun d hd => ?_, hs.dropped⟩
  · refine (hs.awaited d hd).imp_right fun h => ?_
    rwa [hevents]
  · rw [hevents] at hd
    exact hs.dead d hd

/-- The handler drops the clients of read and write calls of a dead binder. -/
theorem Monitored.onBinderDiedWithContext (hs : Monitored s) {c : ClientIdType}
    (htracked : Tracked (s.onBinderDiedWithContext c)) :
    Monitored (s.onBinderDiedWithContext c) := by
  refine ⟨htracked, hs.found, fun d hd => ?_, hs.alive, hs.dead, fun d hd kind => ?_⟩
  · rcases hd with (⟨kind, hd⟩ | hd) | ⟨_, hd, _⟩
    · exact hs.awaited d (Or.inl (Or.inl ⟨kind, Finset.mem_of_mem_erase hd⟩))
    · exact hs.awaited d (Or.inl (Or.inr hd))
    · cases hd
  · cases hd
    exact Finset.notMem_erase c _

/-- The manager accepts that a dead client is forgotten: nothing of the client is left, and the
others wait for their own events. -/
theorem Monitored.forget (hs : Monitored s) {c : ClientIdType} {order : Traversal PropIdAreaId}
    {rest : List BinderDiedUnlinkedEvent} {manager : SubscriptionManager}
    (hlock : s.mLock = some (.handler c)) (hevent : s.flushed = ⟨true, c⟩ :: rest)
    (hstep : s.mSubscriptionManager.step hw lib (.unsubscribeClient c order) =
      some (.ok (), manager))
    (htracked : Tracked
      { s with mSubscriptionManager := manager, flushed := rest, mLock := none }) :
    Monitored { s with mSubscriptionManager := manager, flushed := rest, mLock := none } := by
  obtain ⟨acts, heff⟩ := step_effect hw hstep
  have hevents (d : ClientIdType) (hd : true ∈ eventsOf { s with flushed := rest } d) :
      true ∈ s.eventsOf d := by
    rw [eventsOf_handled hevent]
    exact List.mem_append_right _ hd
  refine ⟨htracked, heff.foundByClient hs.found, fun d hd => ?_, hs.alive,
    fun d hd => hs.dead d (hevents d hd), fun d hd => by cases hd⟩
  by_cases hdc : d = c
  · subst hdc
    obtain ⟨hheld, hsupported⟩ := heff.held_of_unsubscribeClient
    rcases hd with (⟨kind, hd⟩ | hd | hd) | ⟨_, hd, _⟩
    · exact absurd hd (hs.dropped d hlock kind)
    · exact absurd hheld hd
    · exact absurd hsupported hd
    · cases hd
  · have hholds : s.Holds d := by
      rcases hd with (hd | hd | hd) | ⟨_, hd, _⟩
      · exact Or.inl hd
      · exact Or.inr (Or.inl ((heff.treats_held d).ne_empty (Option.some_ne_none d).symm hd))
      · exact Or.inr (Or.inr
          ((heff.treats_supportedHeld d).ne_empty (Option.some_ne_none d).symm hd))
      · cases hd
    refine (hs.awaited d (Or.inl hholds)).imp_right fun hmem => ?_
    rw [eventsOf_handled hevent, if_neg hdc] at hmem
    exact hmem

/-- The handler removes the context of a binder at the end of its link. -/
theorem Monitored.onBinderUnlinkedWithContext (hs : Monitored s) {c : ClientIdType}
    {rest : List BinderDiedUnlinkedEvent} (hevent : s.flushed = ⟨false, c⟩ :: rest)
    (htracked : Tracked { s.onBinderUnlinkedWithContext c with flushed := rest }) :
    Monitored { s.onBinderUnlinkedWithContext c with flushed := rest } := by
  have hevents (d : ClientIdType) : true ∈ eventsOf { s with flushed := rest } d ↔
      true ∈ s.eventsOf d := by
    rw [eventsOf_handled hevent]
    split <;> simp
  refine ⟨htracked, hs.found, fun d hd => ?_, fun d hd hlive => ?_,
    fun d hd => hs.dead d ((hevents d).mp hd), hs.dropped⟩
  · exact (hs.awaited d hd).imp_right (hevents d).mpr
  · exact hs.alive d (Finset.mem_of_mem_erase hd) hlive

/-- A binder dies. -/
theorem Monitored.die (hs : Monitored s) (c : ClientIdType) :
    Monitored { s with dead := insert c s.dead } where
  tracked := hs.tracked.congr rfl rfl rfl rfl
  found := hs.found
  awaited := hs.awaited
  alive d hd hlive := hs.alive d hd fun h => hlive (Finset.mem_insert_of_mem h)
  dead d hd := Finset.mem_insert_of_mem (hs.dead d hd)
  dropped := hs.dropped

/-- The address of a binder without a context is used again. -/
theorem Monitored.reuse (hs : Monitored s) {c : ClientIdType}
    (hcontext : c ∉ s.mOnBinderDiedContexts) : Monitored { s with dead := s.dead.erase c } := by
  refine ⟨hs.tracked.congr rfl rfl rfl rfl, hs.found, hs.awaited, fun d hd hlive => ?_,
    fun d hd => ?_, hs.dropped⟩
  · refine hs.alive d hd fun h => hlive (Finset.mem_erase.mpr ⟨?_, h⟩)
    rintro rfl
    exact hcontext hd
  · refine Finset.mem_erase.mpr ⟨?_, hs.dead d hd⟩
    rintro rfl
    exact hs.tracked.not_awaitsDeath hcontext (Or.inr hd)

end BinderLifecycle

/-- In an orderly step everybody who is kept stays waited for. -/
theorem LifecycleStep.monitored (h : LifecycleStep hw lib s e t) (horder : Compliant s e)
    (hs : Monitored s) : Monitored t := by
  have htracked := h.tracked hs.tracked
  cases h with
  | clientDied _ c status hlock hmonitor => exact (hs.monitor hmonitor fun _ => horder).1
  | connect t kind c status hlock hmonitor =>
      obtain ⟨ht, hsame, hlink⟩ := hs.monitor hmonitor (absurd · (by decide))
      exact ht.getOrCreateClient (hlink rfl) (hsame.trans hlock) kind htracked
  | subscribe t callback _ _ _ parsed _ _ _ hmonitor =>
      obtain ⟨ht, _, hlink⟩ := hs.monitor hmonitor (absurd · (by decide))
      exact ht.acquire (hlink rfl) fun op => subscriber_of_operations
  | registerSupportedValueChangeCallback t callback _ _ _ _ _ _ _ hmonitor =>
      obtain ⟨ht, _, hlink⟩ := hs.monitor hmonitor (absurd · (by decide))
      refine ht.acquire (hlink rfl) fun op hop => ?_
      rw [List.mem_singleton.mp hop]
      rfl
  | perform op pending r manager hlock hstep =>
      refine hs.perform hlock hstep ?_
      cases r with
      | ok => exact Or.inl rfl
      | error => exact Or.inr rfl
  | manage op r manager hop hstep =>
      refine hs.operate hstep (fun c hc => ?_) (Or.inl rfl) fun c hc => hc
      cases op with
      | subscribe | subscribeSupportedValueChange | unsubscribeClient => exact hop.elim
      | _ => cases hc
  | onBinderDied c hlink hdead => exact hs.onBinderDied hdead htracked
  | onBinderUnlinked c hlink => exact hs.onBinderUnlinked hlink htracked
  | flush hflushed hwait => exact hs.flush hflushed htracked
  | onBinderDiedWithContext c rest hlock hevent => exact hs.onBinderDiedWithContext htracked
  | forget c order rest r manager hlock hevent hstep =>
      cases (horder : r = .ok ())
      exact hs.forget hlock hevent hstep htracked
  | onBinderUnlinkedWithContext c rest hlock hevent =>
      exact hs.onBinderUnlinkedWithContext hevent htracked
  | die c halive => exact hs.die c
  | reuse c hdead hfree hlink => exact hs.reuse horder

/-- Runs in an environment that does what is asked of it. -/
abbrev CompliantRun (hw : Nat → StatusCode) (lib : MathLibrary) :=
  Path fun s e t => LifecycleStep hw lib s e t ∧ Compliant s e

theorem monitored_of_run {events : List LifecycleEvent} (h : CompliantRun hw lib {} events s) :
    Monitored s :=
  h.invariant monitored_empty fun _ _ _ hs hstep => hstep.1.monitored hstep.2 hs

/-- A service whose first client has died, before the end of its link is notified. -/
def afterDeath : BinderLifecycle where
  mOnBinderDiedContexts := {1}
  dead := {1}
  links := Function.update (fun _ => .unlinked) 1 .unlinking

/-- A run in which a subscribed client dies. -/
theorem exists_run_afterDeath :
    ∃ events, CompliantRun (fun _ => .ok) default {} events afterDeath := by
  have hconnect := (Path.nil (R := fun s e t => LifecycleStep (fun _ => .ok) default s e t ∧
    Compliant s e) ({} : BinderLifecycle)).snoc ⟨.connect {} _ .get 1 statusOk rfl rfl, trivial⟩
  have hdie := hconnect.snoc ⟨.die _ 1 (by decide), trivial⟩
  have hnotified := hdie.snoc ⟨.onBinderDied _ 1 rfl (by decide), trivial⟩
  have hflush := hnotified.snoc ⟨.flush _ rfl rfl, trivial⟩
  have hhandled := hflush.snoc ⟨.onBinderDiedWithContext _ 1 [] rfl rfl, trivial⟩
  have hforgotten := hhandled.snoc ⟨.forget _ 1 (.ascending _) [] (.ok ()) {} rfl rfl rfl, rfl⟩
  refine ⟨_, Eq.mp (congrArg _ ?_) hforgotten⟩
  refine (BinderLifecycle.mk.injEq ..).mpr
    ⟨rfl, funext fun kind => ?_, rfl, rfl, rfl, rfl, rfl, Function.update_idem ..⟩
  cases kind <;> rfl

/-- In every run, whatever the environment does, the notifications of a client come one death
and then one end of its link to a context, and are handled in this order: a context is there as
long as the recipient is to be told anything or an event waits, and no longer. -/
theorem monitoring_of_run {events : List LifecycleEvent}
    (h : Path (LifecycleStep hw lib) {} events s) (c : ClientIdType) :
    Monitoring (c ∈ s.mOnBinderDiedContexts) (s.links c) (s.eventsOf c) ∧
      (c ∈ s.mOnBinderDiedContexts ↔ s.links c ≠ .unlinked ∨ s.eventsOf c ≠ []) := by
  have htracked : Tracked s := h.invariant tracked_empty fun _ _ _ hs hstep => hstep.tracked hs
  have hc := htracked.monitoring c
  refine ⟨hc, ?_⟩
  generalize s.links c = link at hc ⊢
  generalize s.eventsOf c = pending at hc ⊢
  cases hc with
  | unmonitored h => simp [h]
  | linked h | died h | unlinking h | diedAndUnlinked h | unlinked h => simp [h]

/-- The dead client is still monitored until its death is handled. -/
theorem monitoring_of_death :
    ∃ events, Path (LifecycleStep (fun _ => .ok) default) {} events afterDeath ∧
      Monitoring (1 ∈ afterDeath.mOnBinderDiedContexts) (afterDeath.links 1)
        (afterDeath.eventsOf 1) ∧
      (1 ∈ afterDeath.mOnBinderDiedContexts ↔
        afterDeath.links 1 ≠ .unlinked ∨ afterDeath.eventsOf 1 ≠ []) := by
  obtain ⟨events, hrun⟩ := exists_run_afterDeath
  have hpath : Path (LifecycleStep (fun _ => .ok) default) {} events afterDeath :=
    hrun.mono fun _ _ _ hstep => hstep.1
  exact ⟨events, hpath, monitoring_of_run hpath 1⟩

/-- Once the death of a client has been notified and handled, the client is not among those of
read and write calls, in none of the four maps of the manager for its subscriptions, and no event
is sent to it. The values by callback, from which nothing is ever erased, are not considered. -/
theorem forgotten_of_run {events : List LifecycleEvent} (h : CompliantRun hw lib {} events s)
    {c : ClientIdType} (hlink : s.links c ≠ .linked) (hevents : ⟨true, c⟩ ∉ s.events) :
    (∀ kind, c ∉ s.clients kind) ∧ s.mSubscriptionManager.held c = ∅ ∧
      s.mSubscriptionManager.supportedHeld c = ∅ ∧
      (∀ p, s.mSubscriptionManager.client p c = none ∧
        s.mSubscriptionManager.supportedClient p c = none) ∧
      ∀ k updatedValues order result t, k.asBinder = c →
        getSubscribedClients updatedValues order s.mSubscriptionManager = some (result, t) →
          result.lookup k = none := by
  have hs := monitored_of_run h
  have hfree : ¬s.Holds c := by
    intro hc
    rcases hs.awaited c (Or.inl hc) with hlinked | hevent
    · exact hlink hlinked
    · exact hevents ((s.mem_eventsOf c true).mp hevent)
  rw [Holds, not_or, not_or, not_exists, not_not, not_not] at hfree
  obtain ⟨hclients, hheld, hsupported⟩ := hfree
  refine ⟨hclients, hheld, hsupported, hs.found.absent hheld hsupported, ?_⟩
  rintro k updatedValues order result t rfl hresult
  exact hs.found.not_served hheld hresult

theorem forgotten_of_death : ∃ events, CompliantRun (fun _ => .ok) default {} events afterDeath ∧
    ∀ kind, 1 ∉ afterDeath.clients kind := by
  obtain ⟨events, hrun⟩ := exists_run_afterDeath
  exact ⟨events, hrun, (forgotten_of_run hrun (c := 1) (by decide) (by decide)).1⟩

/-- An address is given to a new client between the death of the old one and the end of its link:
the new client is not linked, and what is kept for it stays when it dies. -/
theorem exists_run_not_forgotten :
    ∃ events s, Path (LifecycleStep (fun _ => .ok) default) {} events s ∧
      s.links 1 ≠ .linked ∧ ⟨true, 1⟩ ∉ s.events ∧ 1 ∈ s.dead ∧ 1 ∈ s.clients .get := by
  obtain ⟨events, hrun⟩ := exists_run_afterDeath
  have hpath : Path (LifecycleStep (fun _ => .ok) default) {} events afterDeath :=
    hrun.mono fun _ _ _ hstep => hstep.1
  have hfree : ¬afterDeath.Holds 1 := by
    rintro (⟨kind, h⟩ | h | h)
    · exact absurd h (Finset.notMem_empty 1)
    · exact h rfl
    · exact h rfl
  have hreuse := hpath.snoc (.reuse _ 1 (by decide) hfree (by decide))
  have hconnect := hreuse.snoc (.connect _ _ .get 1 statusOk rfl rfl)
  have hdie := hconnect.snoc (.die _ 1 (by decide))
  exact ⟨_, _, hdie.snoc (.onBinderUnlinked _ 1 rfl), by decide, by decide, by decide, by decide⟩

/-- An event that a client causes itself: a call of it, or that its address is used again. -/
def LifecycleEvent.Own (c : ClientIdType) : LifecycleEvent → Prop
  | .connect _ d _ | .reuse d => d = c
  | .perform op _ | .manage op _ => op.client = some c
  | _ => False

/-- What is kept for a client is the same in two states. -/
structure SameFor (c : ClientIdType) (s t : BinderLifecycle) : Prop where
  clients : ∀ kind, c ∈ t.clients kind ↔ c ∈ s.clients kind
  held : t.mSubscriptionManager.held c = s.mSubscriptionManager.held c
  supportedHeld : t.mSubscriptionManager.supportedHeld c = s.mSubscriptionManager.supportedHeld c
  client : ∀ p, t.mSubscriptionManager.client p c = s.mSubscriptionManager.client p c
  supportedClient : ∀ p,
    t.mSubscriptionManager.supportedClient p c = s.mSubscriptionManager.supportedClient p c

theorem SameFor.of_eq (c : ClientIdType) (hclients : t.clients = s.clients)
    (hmanager : t.mSubscriptionManager = s.mSubscriptionManager) : SameFor c s t := by
  constructor <;> simp only [hclients, hmanager, implies_true]

/-- What is the same across two steps is the same across both. -/
theorem SameFor.trans {c : ClientIdType} {u : BinderLifecycle} (h₁ : SameFor c s t)
    (h₂ : SameFor c t u) : SameFor c s u where
  clients kind := (h₂.clients kind).trans (h₁.clients kind)
  held := h₂.held.trans h₁.held
  supportedHeld := h₂.supportedHeld.trans h₁.supportedHeld
  client p := (h₂.client p).trans (h₁.client p)
  supportedClient p := (h₂.supportedClient p).trans (h₁.supportedClient p)

/-- A call of the manager for another client. -/
theorem SameFor.of_operation {c : ClientIdType} (hs : Monitored s) {op : Operation}
    {r : VhalResult} {manager : SubscriptionManager}
    (hstep : s.mSubscriptionManager.step hw lib op = some (r, manager))
    (hop : op.client ≠ some c) (hmanager : t.mSubscriptionManager = manager)
    (hclients : t.clients = s.clients) : SameFor c s t := by
  obtain ⟨acts, heff⟩ := step_effect hw hstep
  subst hmanager
  refine ⟨fun kind => by rw [hclients], (heff.treats_held c).frame hop,
    (heff.treats_supportedHeld c).frame hop, heff.client_of_ne hs.found.covers hop,
    heff.supportedClient_of_ne hop⟩

/-- Monitoring a client changes no other part of the state. -/
theorem BinderLifecycle.monitorBinderLifeCycleLocked_kept {status : Int} {c : ClientIdType}
    {alive : Bool} (h : s.monitorBinderLifeCycleLocked status c = (alive, t)) :
    t.clients = s.clients ∧ t.mSubscriptionManager = s.mSubscriptionManager ∧
      t.dead = s.dead := by
  rcases monitorBinderLifeCycleLocked_cases h with ⟨_, _, rfl⟩ | ⟨_, rfl⟩
  · exact ⟨rfl, rfl, rfl⟩
  · exact ⟨rfl, rfl, rfl⟩

/-- A step that a live client does not cause changes nothing that is kept for it, and does not
bring it back to life. -/
theorem LifecycleStep.sameFor (h : LifecycleStep hw lib s e t) (hs : Monitored s)
    {c : ClientIdType} (hown : ¬e.Own c) (hlive : c ∉ t.dead) :
    SameFor c s t ∧ c ∉ s.dead := by
  have hother {d : ClientIdType} {rest : List BinderDiedUnlinkedEvent} (hlive : c ∉ s.dead)
      (hevent : s.flushed = ⟨true, d⟩ :: rest) : c ≠ d := by
    rintro rfl
    refine hlive (hs.dead c ((s.mem_eventsOf c true).mpr ?_))
    rw [events, hevent]
    exact List.mem_cons_self ..
  cases h with
  | clientDied _ d status hlock hmonitor =>
      obtain ⟨hclients, hmanager, hdead⟩ := monitorBinderLifeCycleLocked_kept hmonitor
      exact ⟨.of_eq c hclients hmanager, hdead ▸ hlive⟩
  | connect u kind d status hlock hmonitor =>
      obtain ⟨hclients, hmanager, hdead⟩ := monitorBinderLifeCycleLocked_kept hmonitor
      have hsame : SameFor c s u := .of_eq c hclients hmanager
      refine ⟨hsame.trans ⟨fun kind' => ?_, rfl, rfl, fun _ => rfl, fun _ => rfl⟩, hdead ▸ hlive⟩
      simp only [getOrCreateClient, Function.update_apply]
      split
      · next hk =>
        subst hk
        exact ⟨fun hc => (Finset.mem_insert.mp hc).resolve_left fun h => hown h.symm,
          Finset.mem_insert_of_mem⟩
      · exact Iff.rfl
  | subscribe u _ _ _ _ _ _ _ _ hmonitor =>
      obtain ⟨hclients, hmanager, hdead⟩ := monitorBinderLifeCycleLocked_kept hmonitor
      exact ⟨.of_eq c hclients hmanager, hdead ▸ hlive⟩
  | registerSupportedValueChangeCallback u _ _ _ _ _ _ _ _ hmonitor =>
      obtain ⟨hclients, hmanager, hdead⟩ := monitorBinderLifeCycleLocked_kept hmonitor
      exact ⟨.of_eq c hclients hmanager, hdead ▸ hlive⟩
  | perform op pending r manager hlock hstep => exact ⟨.of_operation hs hstep hown rfl rfl, hlive⟩
  | manage op r manager hop hstep => exact ⟨.of_operation hs hstep hown rfl rfl, hlive⟩
  | onBinderDied | onBinderUnlinked | flush | onBinderUnlinkedWithContext =>
      exact ⟨.of_eq c rfl rfl, hlive⟩
  | onBinderDiedWithContext d rest hlock hevent =>
      refine ⟨⟨fun kind => ?_, rfl, rfl, fun _ => rfl, fun _ => rfl⟩, hlive⟩
      exact Finset.mem_erase.trans (and_iff_right (hother hlive hevent))
  | forget d order rest r manager hlock hevent hstep =>
      refine ⟨.of_operation hs hstep (fun h => ?_) rfl rfl, hlive⟩
      exact hother hlive hevent (Option.some.inj h).symm
  | die d halive => exact ⟨.of_eq c rfl rfl, fun hc => hlive (Finset.mem_insert_of_mem hc)⟩
  | reuse d hdead hfree hlink =>
      refine ⟨.of_eq c rfl rfl, fun hc => hlive (Finset.mem_erase.mpr ⟨?_, hc⟩)⟩
      exact fun h => hown h.symm

/-- What is kept for a client that is alive changes only by its own calls, whatever the other
clients call, whoever of them dies, and whatever the hardware refuses to them. -/
theorem sameFor_of_run {before events : List LifecycleEvent} (h₁ : CompliantRun hw lib {} before s)
    (h₂ : CompliantRun hw lib s events t) {c : ClientIdType} (hown : ∀ e ∈ events, ¬e.Own c)
    (hlive : c ∉ t.dead) : SameFor c s t := by
  induction h₂ with
  | nil => exact .of_eq c rfl rfl
  | @snoc u t events e hpath hstep ih =>
      have hu : Monitored u := monitored_of_run (h₁.trans hpath)
      obtain ⟨hsame, hlive⟩ := hstep.1.sameFor hu
        (hown e (List.mem_append_right _ (List.mem_singleton_self e))) hlive
      exact (ih (fun e he => hown e (List.mem_append_left _ he)) hlive).trans hsame

/-- A client dies and its death is handled while another one has a read call. -/
theorem sameFor_of_death : ∃ before events s t,
    CompliantRun (fun _ => .ok) default {} before s ∧
      CompliantRun (fun _ => .ok) default s events t ∧
      (1 ∈ t.dead ∧ 1 ∉ t.clients .get ∧ t.events = []) ∧ 2 ∈ t.clients .get ∧ SameFor 2 s t := by
  have hother := (Path.nil (R := fun s e t => LifecycleStep (fun _ => .ok) default s e t ∧
    Compliant s e) ({} : BinderLifecycle)).snoc ⟨.connect {} _ .get 2 statusOk rfl rfl, trivial⟩
  have hstart : CompliantRun (fun _ => .ok) default _ [] _ := Path.nil
    (({} : BinderLifecycle).addContext 2 .linked |>.getOrCreateClient .get 2)
  have hconnect := hstart.snoc ⟨.connect _ _ .get 1 statusOk rfl rfl, trivial⟩
  have hdie := hconnect.snoc ⟨.die _ 1 (by decide), trivial⟩
  have hnotified := hdie.snoc ⟨.onBinderDied _ 1 rfl (by decide), trivial⟩
  have hflush := hnotified.snoc ⟨.flush _ rfl rfl, trivial⟩
  have hhandled := hflush.snoc ⟨.onBinderDiedWithContext _ 1 [] rfl rfl, trivial⟩
  have hforgotten := hhandled.snoc ⟨.forget _ 1 (.ascending _) [] (.ok ()) {} rfl rfl rfl, rfl⟩
  refine ⟨_, _, _, _, hother, hforgotten, by decide, by decide,
    sameFor_of_run hother hforgotten ?_ (by decide)⟩
  intro e he
  simp only [List.nil_append, List.cons_append, List.mem_cons, List.not_mem_nil, or_false] at he
  rcases he with rfl | rfl | rfl | rfl | rfl | rfl
  · exact fun h : 1 = 2 => absurd h (by decide)
  · exact id
  · exact id
  · exact id
  · exact id
  · exact id

end VhalCore.VehicleHal
