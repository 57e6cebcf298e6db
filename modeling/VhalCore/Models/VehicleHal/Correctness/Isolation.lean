import VhalCore.Models.PendingRequests.Correctness.Quota
import VhalCore.Models.PendingRequests.Interpretation.Entries
import VhalCore.Models.VehicleHal.Interpretation.System

/-!
# Isolation of clients across the death of a client

The pool and the result callbacks know a client by the address of its object. When a
client dies its object goes, but its requests may still be pending and the hardware
may still hold its result callback. An object of a new client at the same address is
then taken for the old one. If new objects keep away from such addresses, all users
of an address are one object, and requests only ever meet requests of their own client.
-/

namespace VhalCore.VehicleHal

open PendingRequests PendingRequestPool HalState

variable {s t : HalState} {e : HalEvent}

namespace HalState

/-- The client is in use: as an object, by a result callback or by a pending request. -/
def Uses (s : HalState) (client : ConnectedClient) : Prop :=
  s.Live client ∨ client ∈ s.resultCallbacks ∨
    ∃ c, ∃ p ∈ s.pool.pool.pendingOf c, p.callback.2.client = client

/-- The pending requests of an address that were registered by an object. -/
def ownPending (s : HalState) (client : ConnectedClient) :
    List (PendingRequest (Nat × TimeoutCallback)) :=
  (s.pool.pool.pendingOf client.id).filter fun p => p.callback.2.client = client

end HalState

/-- A new object does not get an address under which requests are pending or for which the
hardware holds a result callback. -/
def TakesFreshAddress (s : HalState) : HalEvent → Prop
  | .create _ client =>
      s.pool.pool.pendingOf client.id = [] ∧ ∀ other ∈ s.resultCallbacks, other.id ≠ client.id
  | _ => True

/-- A step in which a client meets no request of another one: a request is turned away as a
duplicate of an own request or for too many own requests, and every request that is finished
by a result, or withdrawn with its call, is one of the client that gets the result or made
the call. -/
def Isolates (s : HalState) : HalEvent → Prop
  | .register _ client (.error (.duplicateRequestId x)) => Pending (s.ownPending client) x
  | .register k client (.error .tooManyPendingRequests) => ∀ call, s.calls k = some call →
      maxPendingRequestPerClient < idCount (s.ownPending client) + call.ids.card
  | .report client _ foundIds => ∀ p ∈ s.pool.pool.pendingOf client.id, ∀ x ∈ foundIds,
      x ∈ p.requestIds → p.callback.2.client = client
  | .refuse k _ => ∀ call client, s.calls k = some call → call.stage.client = some client →
      ∀ p ∈ s.pool.pool.pendingOf client.id, ∀ x ∈ call.ids, x ∈ p.requestIds →
        p.callback.2.client = client
  | _ => True

/-- The users of an address are one object, and requests are pending under the address of
the object that registered them. -/
structure OneObject (s : HalState) : Prop where
  keyed : ∀ c, ∀ p ∈ s.pool.pool.pendingOf c, p.callback.2.client.id = c
  unique : ∀ a b, s.Uses a → s.Uses b → a.id = b.id → a = b

/-- A call refers to an object in use. -/
theorem live_of_stage {k : Nat} {call : Call} {client : ConnectedClient}
    (hcall : s.calls k = some call) (hstage : call.stage.client = some client) : s.Live client :=
  Or.inr ⟨k, call, hcall, hstage⟩

/-- An object in use after a call has gone on: it was in use, or the call now refers to it. -/
theorem live_advance (s : HalState) (k : Nat) (call : Call) (stage : Stage) {u : HalState}
    {a : ConnectedClient} (h : u.Live a) (hclients : u.clients = s.clients)
    (hcalls : u.calls = (s.advance k call stage).calls) : s.Live a ∨ stage.client = some a := by
  rcases h with hmap | ⟨j, other, hj, hother⟩
  · rw [hclients] at hmap
    exact Or.inl (Or.inl hmap)
  · rw [hcalls, calls_advance] at hj
    split at hj
    · cases hj
      exact Or.inr hother
    · exact Or.inl (Or.inr ⟨j, other, hj, hother⟩)

/-- An object in use after a call has returned was in use before. -/
theorem live_returned (s : HalState) (k : Nat) (call : Call) (result : Except CallError Unit)
    {u : HalState} {a : ConnectedClient} (h : u.Live a) (hclients : u.clients = s.clients)
    (hcalls : u.calls = (s.advance k call (.returned result)).calls) : s.Live a :=
  (live_advance s k call (.returned result) h hclients hcalls).resolve_right nofun

/-- An object in use after an object was created: it was in use, or is that object. -/
theorem live_create (s : HalState) (k : Nat) (call : Call) (client : ConnectedClient)
    {a : ConnectedClient} (h : (s.create k call client).Live a) : s.Live a ∨ a = client := by
  rcases h with ⟨kind, callback, hlookup⟩ | hcalls
  · by_cases hkind : kind = call.kind
    · subst hkind
      rw [HalState.create] at hlookup
      simp only [Function.update_self] at hlookup
      rw [UnorderedMap.lookup_insert_eq] at hlookup
      split at hlookup
      · cases hlookup
        exact Or.inr rfl
      · exact Or.inl (Or.inl ⟨_, _, hlookup⟩)
    · rw [HalState.create] at hlookup
      simp only [Function.update_of_ne hkind] at hlookup
      exact Or.inl (Or.inl ⟨_, _, hlookup⟩)
  · have hadvanced : (s.advance k call (.connected client)).Live a := Or.inr hcalls
    rcases live_advance s k call (.connected client) hadvanced rfl rfl with hold | hnew
    · exact Or.inl hold
    · cases hnew
      exact Or.inr rfl

/-- An object in use after a call has come in was in use before. -/
theorem live_enter {call : Call} {a : ConnectedClient} (hnone : call.stage.client = none)
    (h : (s.enter call).Live a) : s.Live a := by
  rcases h with hmap | ⟨j, other, hj, hother⟩
  · exact Or.inl hmap
  · rw [calls_enter] at hj
    split at hj
    · cases hj
      rw [hnone] at hother
      cases hother
    · exact Or.inr ⟨j, other, hj, hother⟩

/-- A step of the pool keeps pending requests where their own clients registered them, and
brings in only the one of the event. -/
theorem pending_of_poolStep {p : PendingRequest (Nat × TimeoutCallback)} {c : ClientId}
    {pe : PoolEvent TimeoutCallback} {pool pool' : PoolSystem TimeoutCallback}
    (h : PoolStep pool pe pool') (hp : p ∈ pool'.pool.pendingOf c) :
    (∃ q ∈ pool.pool.pendingOf c, q.callback.2.client = p.callback.2.client) ∨
    ∃ n requestIds time, pe = .addRequests n c requestIds p.callback.2 time (.ok ()) := by
  rcases h.pendingOf_cases hp with
    ⟨q, hq, hcallback, _⟩ | ⟨requestIds, callback, time, he, rfl⟩
  · exact Or.inl ⟨q, hq, by rw [hcallback]⟩
  · exact Or.inr ⟨_, requestIds, time, he⟩

/-- The same for a step of the pool that adds nothing. -/
theorem pending_of_poolStep_of_ne {p : PendingRequest (Nat × TimeoutCallback)} {c : ClientId}
    {pe : PoolEvent TimeoutCallback} {pool pool' : PoolSystem TimeoutCallback}
    (h : PoolStep pool pe pool')
    (hne : ∀ n c requestIds callback time, pe ≠ .addRequests n c requestIds callback time (.ok ()))
    (hp : p ∈ pool'.pool.pendingOf c) :
    ∃ q ∈ pool.pool.pendingOf c, q.callback.2.client = p.callback.2.client := by
  rcases pending_of_poolStep h hp with hold | ⟨n, requestIds, time, he⟩
  · exact hold
  · exact absurd he (hne _ _ _ _ _)

/-- A step that keeps pending requests under their keys, and gives nobody a new use but one that
it creates. -/
theorem uses_of_pending (hlive : ∀ a, t.Live a → s.Uses a ∨ ∃ k, e = .create k a)
    (hheld : ∀ a ∈ t.resultCallbacks, s.Uses a)
    (hpending : ∀ c, ∀ p ∈ t.pool.pool.pendingOf c,
      (∃ q ∈ s.pool.pool.pendingOf c, q.callback.2.client = p.callback.2.client) ∨
        s.Uses p.callback.2.client) (a : ConnectedClient) (ha : t.Uses a) :
    s.Uses a ∨ ∃ k, e = .create k a := by
  rcases ha with hl | hh | ⟨c, p, hp, rfl⟩
  · exact hlive a hl
  · exact Or.inl (hheld a hh)
  · rcases hpending c p hp with ⟨q, hq, hqp⟩ | huse
    · exact Or.inl (Or.inr (Or.inr ⟨c, q, hq, hqp⟩))
    · exact Or.inl huse

/-- Whoever is in use after a step was in use before, unless the step has created it. Pending
requests stay under their keys. -/
theorem HalStep.uses_cases (h : HalStep s e t) :
    (∀ a, t.Uses a → s.Uses a ∨ ∃ k, e = .create k a) ∧
      ∀ c, ∀ p ∈ t.pool.pool.pendingOf c,
        (∃ q ∈ s.pool.pool.pendingOf c, q.callback.2.client = p.callback.2.client) ∨
          p.callback.2.client.id = c := by
  have hkept (hpool : t.pool = s.pool) (c : ClientId)
      (p : PendingRequest (Nat × TimeoutCallback)) (hp : p ∈ t.pool.pool.pendingOf c) :
      ∃ q ∈ s.pool.pool.pendingOf c, q.callback.2.client = p.callback.2.client :=
    ⟨p, hpool ▸ hp, rfl⟩
  have huses (hlive : ∀ a, t.Live a → s.Uses a ∨ ∃ k, e = .create k a)
      (hheld : ∀ a ∈ t.resultCallbacks, s.Uses a)
      (hpending : ∀ c, ∀ p ∈ t.pool.pool.pendingOf c,
        ∃ q ∈ s.pool.pool.pendingOf c, q.callback.2.client = p.callback.2.client) :=
    And.intro (uses_of_pending hlive hheld fun c p hp => Or.inl (hpending c p hp))
      fun c p hp => Or.inl (b := p.callback.2.client.id = c) (hpending c p hp)
  have hself (a : ConnectedClient) (ha : a ∈ s.resultCallbacks) : s.Uses a := Or.inr (Or.inl ha)
  cases h with
  | reject kind callback requests value hdup
  | receive kind callback requests getConfig check hdup hcheck =>
      exact huses (fun a ha => Or.inl (Or.inl (live_enter rfl ha))) hself (hkept rfl)
  | clientDied k call hcall hstage | complete k call client hcall hstage =>
      exact huses (fun a ha => Or.inl (Or.inl (live_returned s k call _ ha rfl rfl))) hself
        (hkept rfl)
  | connect k call client hcall hstage hclient =>
      refine huses (fun a ha => ?_) hself (hkept rfl)
      rcases live_advance s k call (.connected client) ha rfl rfl with hold | hnew
      · exact Or.inl (Or.inl hold)
      · cases hnew
        exact Or.inl (Or.inl (Or.inl ⟨_, _, hclient⟩))
  | create k call address hcall hstage hclient hfree =>
      refine huses (fun a ha => ?_) hself (hkept rfl)
      rcases live_create s k call _ ha with hold | rfl
      · exact Or.inl (Or.inl hold)
      · exact Or.inr ⟨k, rfl⟩
  | registerFailed k call client n time e pool hcall hstage hpool
  | refuse k call client status foundIds pool hcall hstage _ hpool =>
      exact huses (fun a ha => Or.inl (Or.inl (live_returned s k call _ ha rfl rfl))) hself
        fun c p hp => pending_of_poolStep_of_ne hpool (by nofun) hp
  | register k call client n time pool hcall hstage hpool =>
      have hlive : s.Live client := live_of_stage hcall (by rw [hstage]; rfl)
      have hpending (c : ClientId) (p : PendingRequest (Nat × TimeoutCallback))
          (hp : p ∈ pool.pool.pendingOf c) :
          (∃ q ∈ s.pool.pool.pendingOf c, q.callback.2.client = p.callback.2.client) ∨
            p.callback.2.client = client ∧ c = client.id := by
        rcases pending_of_poolStep hpool hp with hold | ⟨m, requestIds, time', he⟩
        · exact Or.inl hold
        · injection he with _ hc _ hcallback
          exact Or.inr ⟨by rw [← hcallback], hc.symm⟩
      refine ⟨uses_of_pending (fun a ha => Or.inl (Or.inl ?_)) hself fun c p hp => ?_,
        fun c p hp => ?_⟩
      · rcases live_advance s k call (if call.hardwareRequests = [] then .returned (.ok ())
          else .registered client) ha rfl rfl with hold | hnew
        · exact hold
        · split at hnew
          · cases hnew
          · cases hnew
            exact hlive
      · refine (hpending c p hp).imp_right ?_
        rintro ⟨hclient, -⟩
        rw [hclient]
        exact Or.inl hlive
      · refine (hpending c p hp).imp_right ?_
        rintro ⟨hclient, hc⟩
        rw [hclient, hc]
  | forward k call client hcall hstage =>
      have hlive : s.Live client := live_of_stage hcall (by rw [hstage]; rfl)
      refine huses (fun a ha => ?_) (fun a ha => ?_) (hkept rfl)
      · rcases live_advance s k call (.forwarded client) ha rfl rfl with hold | hnew
        · exact Or.inl (Or.inl hold)
        · cases hnew
          exact Or.inl (Or.inl hlive)
      · rcases List.mem_cons.mp ha with rfl | hold
        · exact Or.inl hlive
        · exact hself a hold
  | report client results foundIds pool _ hpool | sweep time pool hpool
  | timeout order n callback requestIds time pool hpool | destroy pool _ _ hpool =>
      exact huses (fun a ha => Or.inl (Or.inl ha)) hself
        (fun c p hp => pending_of_poolStep_of_ne hpool (by nofun) hp)
  | release client =>
      exact huses (fun a ha => Or.inl (Or.inl ha)) (fun a ha => hself a (List.mem_of_mem_erase ha))
        (hkept rfl)
  | binderDied callback hcontext =>
      refine huses (fun a ha => Or.inl (Or.inl ?_)) hself (hkept rfl)
      rcases ha with ⟨kind, b, hlookup⟩ | hcalls
      · simp only [UnorderedMap.lookup_erase_eq] at hlookup
        split at hlookup
        · cases hlookup
        · exact Or.inl ⟨kind, b, hlookup⟩
      · exact Or.inr hcalls
  | binderUnlinked callback =>
      exact huses (fun a ha => Or.inl (Or.inl ha)) hself (hkept rfl)

/-- New objects at fresh addresses keep the users of every address one object. -/
theorem HalStep.oneObject (hs : OneObject s) (h : HalStep s e t) (hfresh : TakesFreshAddress s e) :
    OneObject t := by
  obtain ⟨huses, hpending⟩ := h.uses_cases
  refine ⟨fun c p hp => ?_, fun a b ha hb hid => ?_⟩
  · rcases hpending c p hp with ⟨q, hq, hqp⟩ | hkey
    · rw [← hqp]
      exact hs.keyed c q hq
    · exact hkey
  · have hnew {k : Nat} {client other : ConnectedClient} (he : e = .create k client)
        (hother : s.Uses other) (hid : other.id = client.id) : False := by
      subst he
      obtain ⟨hnil, hheld⟩ := hfresh
      rcases hother with hlive | hcallback | ⟨c, p, hp, rfl⟩
      · cases h with
        | create _ call address _ _ _ hfree => exact hfree other hlive hid
      · exact hheld other hcallback hid
      · have hkey := hs.keyed c p hp
        rw [← hid, hkey] at hnil
        rw [hnil] at hp
        exact absurd hp List.not_mem_nil
    rcases huses a ha with ha' | ⟨k, hea⟩
    · rcases huses b hb with hb' | ⟨j, heb⟩
      · exact hs.unique a b ha' hb' hid
      · exact (hnew heb ha' hid).elim
    · rcases huses b hb with hb' | ⟨j, heb⟩
      · exact (hnew hea hb' hid.symm).elim
      · injection hea.symm.trans heb

/-- The requests pending under the address of an object in use are its own. -/
theorem OneObject.owner (hs : OneObject s) {client : ConnectedClient} (huses : s.Uses client)
    {p : PendingRequest (Nat × TimeoutCallback)} (hp : p ∈ s.pool.pool.pendingOf client.id) :
    p.callback.2.client = client :=
  hs.unique _ _ (Or.inr (Or.inr ⟨_, p, hp, rfl⟩)) huses (hs.keyed _ p hp)

/-- Where the users of every address are one object, every step isolates. -/
theorem HalStep.isolates (hs : OneObject s) (hquota : WithinQuota s.pool.pool)
    (h : HalStep s e t) : Isolates s e := by
  have hown {client : ConnectedClient} (huses : s.Uses client) :
      s.ownPending client = s.pool.pool.pendingOf client.id :=
    List.filter_eq_self.mpr fun p hp => decide_eq_true (hs.owner huses hp)
  cases h with
  | registerFailed k call client n time e pool hcall hstage hpool =>
      have huses : s.Uses client := Or.inl (live_of_stage hcall (by rw [hstage]; rfl))
      cases hpool with
      | addRequests order _ _ _ _ _ pool _ _ heq =>
          rcases addRequests_cases order time client.id call.ids
              (s.pool.calls, (⟨k, client⟩ : TimeoutCallback)) s.pool.pool with
            ⟨x, u, hu, _, hx, _⟩ | ⟨_, ⟨u, hu, hcard, _⟩ | ⟨u, hu, _⟩⟩
          · cases heq.symm.trans hu
            rw [Isolates, hown huses]
            exact hx
          · cases heq.symm.trans hu
            intro call' hcall'
            cases hcall.symm.trans hcall'
            have hsizes := (hquota.sizes client.id).2
            have hbound := hquota client.id
            rw [hsizes] at hcard
            rw [hown huses]
            omega
          · cases heq.symm.trans hu
  | refuse k call client status foundIds pool hcall hstage hstatus hpool =>
      intro call' client' hcall' hclient' p hp x _ _
      cases hcall.symm.trans hcall'
      rw [hstage] at hclient'
      cases hclient'
      exact hs.owner (Or.inl (live_of_stage hcall (by rw [hstage]; rfl))) hp
  | report client results foundIds pool hheld hpool =>
      intro p hp x _ _
      exact hs.owner (Or.inr (Or.inl hheld)) hp
  | _ => trivial

/-- No client exceeds its quota in a run. -/
theorem withinQuota_of_run {R : HalState → HalEvent → HalState → Prop}
    {timeoutInNano clock : Int} {events : List HalEvent}
    (h : Path R (.start timeoutInNano clock) events s) (hR : ∀ s e t, R s e t → HalStep s e t) :
    WithinQuota s.pool.pool := by
  obtain ⟨_, hpath⟩ := pool_of_run h hR
  refine Path.invariant (P := fun s : PoolSystem TimeoutCallback => WithinQuota s.pool) hpath ?_
    fun s e t hs hstep => hstep.withinQuota hs
  intro c
  rw [pendingOf_start]
  exact Nat.zero_le _

/-- A new state has no objects. -/
theorem oneObject_start (timeoutInNano clock : Int) : OneObject (.start timeoutInNano clock) := by
  refine ⟨fun c p hp => ?_, fun a b ha => ?_⟩
  · rw [start, pendingOf_start] at hp
    exact absurd hp List.not_mem_nil
  · rcases ha with (⟨kind, callback, hlookup⟩ | ⟨k, call, hcall, _⟩) | hheld | ⟨c, p, hp, _⟩
    · exact absurd (hlookup.symm.trans (Finmap.lookup_empty _)) nofun
    · cases hcall
    · exact absurd hheld List.not_mem_nil
    · rw [start, pendingOf_start] at hp
      exact absurd hp List.not_mem_nil

/-- In a run in which new objects get addresses that nothing refers to any more, no client
ever meets a request of another one. -/
theorem isolates_of_run {timeoutInNano clock : Int} {events : List HalEvent}
    (h : Path (fun s e t => HalStep s e t ∧ TakesFreshAddress s e) (.start timeoutInNano clock)
      events s) :
    Path (fun s e t => HalStep s e t ∧ Isolates s e) (.start timeoutInNano clock) events s := by
  have hboth : OneObject s ∧
      Path (fun s e t => HalStep s e t ∧ Isolates s e) (.start timeoutInNano clock) events s := by
    induction h with
    | nil => exact ⟨oneObject_start timeoutInNano clock, .nil _⟩
    | snoc hpath hstep ih =>
        have hquota := withinQuota_of_run hpath fun _ _ _ h => h.1
        exact ⟨hstep.1.oneObject ih.1 hstep.2,
          ih.2.snoc ⟨hstep.1, hstep.1.isolates ih.1 hquota⟩⟩
  exact hboth.2

/-- A call of a client that reads one property. -/
private def readCall (callback : Binder) : Call :=
  ⟨.get, callback, [⟨7, { prop := 0x11400000 }⟩], [], [⟨7, { prop := 0x11400000 }⟩], .validated⟩

/-- The pool with the request of the first client. -/
private def onePending : PendingRequestPool (Nat × TimeoutCallback) :=
  (addRequests (.ascending _) 0 100 {7} (0, ⟨0, firstClient 100 (readCall 5)⟩) ⟨10, ∅⟩).2

/-- The service once the hardware has the request of the first client. -/
private def firstForwarded : HalState :=
  { (firstRegistered 10 100 (readCall 5) onePending).advance 0
      { readCall 5 with stage := .registered (firstClient 100 (readCall 5)) }
      (.forwarded (firstClient 100 (readCall 5))) with
    resultCallbacks := [firstClient 100 (readCall 5)] }

/-- The service once the first call has returned. -/
private def firstCompleted : HalState :=
  firstForwarded.advance 0
    { readCall 5 with stage := .forwarded (firstClient 100 (readCall 5)) } (.returned (.ok ()))

/-- The service once the first client has died and a second one has made its call. -/
private def secondReceived : HalState :=
  { firstCompleted with
    clients := fun kind => (firstCompleted.clients kind).erase 5 }.enter (readCall 6)

/-- The second client makes its call while the request of the first one is pending. -/
private theorem second_run (C : HalState → HalEvent → Prop)
    (hcreate : C ((start 10 0).enter (readCall 5)) (.create 0 (firstClient 100 (readCall 5))))
    (hC : ∀ s e, (∀ k client, e ≠ .create k client) → C s e) :
    ∃ events, Path (fun s e t => HalStep s e t ∧ C s e) (.start 10 0) events secondReceived ∧
      .binderDied 5 ∈ events := by
  have h1 : HalStep (start 10 0) (.receive 0 .get _ _) ((start 10 0).enter (readCall 5)) :=
    .receive_checked _ .get 5 permissive [7] (by decide)
  have h2 := firstConnected_step 10 100 (readCall 5) rfl
  have h3 := firstRegistered_step 10 100 (readCall 5) (.ascending _) onePending
    (Prod.ext (by decide) rfl)
  have h4 : HalStep (firstRegistered 10 100 (readCall 5) onePending) (.forward 0) firstForwarded :=
    .forward _ 0 _ (firstClient 100 (readCall 5)) rfl rfl
  have h5 : HalStep firstForwarded (.complete 0) firstCompleted :=
    .complete _ 0 _ (firstClient 100 (readCall 5)) rfl rfl
  have h6 := HalStep.binderDied firstCompleted 5 (by decide)
  have h7 : HalStep _ (.receive 1 .get _ _) secondReceived :=
    .receive_checked { firstCompleted with
      clients := fun kind => (firstCompleted.clients kind).erase 5 } .get 6 permissive [7]
      (by decide)
  refine ⟨_, ((((((Path.single (R := fun s e t => HalStep s e t ∧ C s e) ⟨h1, hC _ _ nofun⟩).snoc
    ⟨h2, hcreate⟩).snoc ⟨h3, hC _ _ nofun⟩).snoc ⟨h4, hC _ _ nofun⟩).snoc
    ⟨h5, hC _ _ nofun⟩).snoc ⟨h6, hC _ _ nofun⟩).snoc ⟨h7, hC _ _ nofun⟩, ?_⟩
  exact List.mem_append_left _ (List.mem_append_right _ (List.mem_singleton_self _))

/-- The object of the second client may be created at any address. -/
private theorem second_create (address : ClientId) :
    HalStep secondReceived (.create 1 ⟨1, address, .get, 6⟩)
      (secondReceived.create 1 (readCall 6) ⟨1, address, .get, 6⟩) := by
  refine .create secondReceived 1 (readCall 6) address rfl rfl (by decide) ?_
  rintro other (⟨kind, callback, hlookup⟩ | ⟨k, call, hcall, hclient⟩)
  · have hnone : (secondReceived.clients kind).lookup callback = none := by
      cases kind with
      | get =>
          refine (UnorderedMap.lookup_erase_eq _ 5 callback).trans ?_
          split
          · rfl
          · next hne => exact (Finmap.lookup_insert_of_ne _ hne).trans (Finmap.lookup_empty _)
      | set =>
          refine (UnorderedMap.lookup_erase_eq _ 5 callback).trans ?_
          split
          · rfl
          · exact Finmap.lookup_empty _
    rw [hnone] at hlookup
    cases hlookup
  · rw [secondReceived, calls_enter] at hcall
    split at hcall
    · cases hcall
      cases hclient
    · match k, hcall with
      | 0, hcall =>
          cases hcall
          cases hclient

/-- A new client at the address of a dead one: its request is turned away as a duplicate of
a request of the dead client. -/
theorem duplicate_of_dead_client :
    ∃ events s e t, Path HalStep (.start 10 0) events s ∧ HalStep s e t ∧ ¬Isolates s e ∧
      .binderDied 5 ∈ events ∧
      e = .register 1 ⟨1, 100, .get, 6⟩ (.error (.duplicateRequestId 7)) := by
  obtain ⟨events, hrun, hdied⟩ := second_run (fun _ _ => True) trivial fun _ _ _ => trivial
  let client : ConnectedClient := ⟨1, 100, .get, 6⟩
  have hcreate := second_create 100
  let s := secondReceived.create 1 (readCall 6) client
  let added := addRequests (.ascending _) 0 100 {7} (1, (⟨1, client⟩ : TimeoutCallback)) onePending
  have hregister := HalStep.registerFailed s 1 { readCall 6 with stage := .connected client } client
    1 0 (.duplicateRequestId 7) ⟨added.2, 0, 2, [], false⟩ rfl rfl
    (.addRequests s.pool (.ascending _) 100 {7} ⟨1, client⟩ 0 _ _ rfl le_rfl
      (Prod.ext (by decide) rfl))
  refine ⟨_, s, _, _, (hrun.mono fun _ _ _ h => h.1).snoc hcreate, hregister, ?_,
    List.mem_append_left _ hdied, rfl⟩
  rintro ⟨p, hp, _⟩
  have hown : s.ownPending client = [] := by rfl
  rw [hown] at hp
  exact absurd hp List.not_mem_nil

/-- A new client at another address is isolated from the dead one. -/
theorem isolates_at_fresh_address :
    ∃ events s, Path (fun s e t => HalStep s e t ∧ TakesFreshAddress s e) (.start 10 0) events s ∧
      .binderDied 5 ∈ events ∧ .create 1 ⟨1, 200, .get, 6⟩ ∈ events ∧
      Path (fun s e t => HalStep s e t ∧ Isolates s e) (.start 10 0) events s := by
  obtain ⟨events, hrun, hdied⟩ := second_run TakesFreshAddress
    ⟨rfl, fun _ h => absurd h List.not_mem_nil⟩ fun s e he => by
      cases e <;> first | trivial | exact absurd rfl (he _ _)
  have hfresh : TakesFreshAddress secondReceived (.create 1 ⟨1, 200, .get, 6⟩) := by
    refine ⟨rfl, fun other hother => ?_⟩
    rw [List.mem_singleton.mp hother]
    decide
  have hpath := hrun.snoc ⟨second_create 200, hfresh⟩
  exact ⟨_, _, hpath, List.mem_append_left _ hdied,
    List.mem_append_right _ (List.mem_singleton_self _), isolates_of_run hpath⟩

end VhalCore.VehicleHal
