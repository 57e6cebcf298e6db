import VhalCore.Models.VehicleHal.Correctness.Isolation
import VhalCore.Models.VehicleHal.Interpretation.Accounts

/-!
# Whom an answer goes to

Every answer belongs to a call: it goes to the client that made the call and is the result
of a failed check of it, a result of the hardware for one of the ids it has registered, or
a timeout of one of these. A result of the hardware is the first one that the hardware has
reported for the id since the call registered it.
-/

namespace VhalCore.VehicleHal

open PendingRequests PendingRequestPool HalState

variable {s t : HalState} {e : HalEvent} {k : Nat} {x : Int}

/-- The answer is one that the call can get. -/
def Reply.Fits (reply : Reply) (call : Call) (result : ValueResult) : Prop :=
  reply.kind = call.kind ∧ reply.callback = call.callback ∧
    match reply.origin with
    | .validation => result ∈ call.failedResults
    | .hardware => result.requestId ∈ call.ids
    | .timeout => result.requestId ∈ call.ids ∧ result.status = .tryAgain ∧ result.prop = none

/-- The callback was left by a call of its client, which has registered the ids. -/
def HalState.Owned (s : HalState) (callback : TimeoutCallback) (requestIds : Finset Int) : Prop :=
  ∃ call, s.calls callback.call = some call ∧ callback.client.kind = call.kind ∧
    callback.client.callback = call.callback ∧ requestIds ⊆ call.ids

/-- Clients, waiting requests and answers all belong to the calls that they came from. -/
structure Attributed (s : HalState) : Prop where
  numbered : ∀ k, s.nextCall ≤ k → s.calls k = none
  clients : ∀ kind callback client, (s.clients kind).lookup callback = some client →
    client.kind = kind ∧ client.callback = callback
  stages : ∀ k call client, s.calls k = some call → call.stage.client = some client →
    client.kind = call.kind ∧ client.callback = call.callback
  pending : ∀ c, ∀ p ∈ s.pool.pool.pendingOf c, s.Owned p.callback.2 p.requestIds
  sweeps : ∀ sweep ∈ s.pool.sweeps, ∀ p ∈ sweep.2, s.Owned p.callback.2 p.requestIds
  replies : ∀ reply ∈ s.replies, ∀ answer ∈ reply.answers,
    ∃ call, s.calls answer.1 = some call ∧ reply.Fits call answer.2

/-- A step leaves a call as it is, up to its stage. -/
theorem HalStep.calls_kept (h : HalStep s e t) (hnumbered : ∀ k, s.nextCall ≤ k → s.calls k = none)
    {call : Call} (hcall : s.calls k = some call) :
    ∃ stage, t.calls k = some { call with stage := stage } := by
  obtain ⟨_, hsame | ⟨hnew, _⟩ | ⟨other, stage, hother, _, hgoesOn⟩⟩ := h.call_cases k
  · exact ⟨call.stage, hsame.trans hcall⟩
  · rw [hnumbered k hnew.ge] at hcall
    cases hcall
  · cases hcall.symm.trans hother
    exact ⟨stage, hgoesOn⟩

/-- A pending request after a step: it was pending before, and no result has been reported
for what is left of it, or a call has just registered it. -/
theorem HalStep.pendingOf_cases (h : HalStep s e t) {c : ClientId}
    {p : PendingRequest (Nat × TimeoutCallback)} (hp : p ∈ t.pool.pool.pendingOf c) :
    (∃ q ∈ s.pool.pool.pendingOf c, p.callback = q.callback ∧ p.requestIds ⊆ q.requestIds ∧
      ∀ client results foundIds, e = .report client results foundIds → client.id = c →
        Disjoint p.requestIds (resultIds results)) ∨
    ∃ j call client, e = .register j client (.ok ()) ∧ s.calls j = some call ∧
      call.stage = .connected client ∧ p.callback.2 = ⟨j, client⟩ ∧ p.requestIds = call.ids := by
  have hkept (hpool : t.pool = s.pool)
      (hne : ∀ client results foundIds, e ≠ .report client results foundIds) :
      ∃ q ∈ s.pool.pool.pendingOf c, p.callback = q.callback ∧ p.requestIds ⊆ q.requestIds ∧
      ∀ client results foundIds, e = .report client results foundIds → client.id = c →
        Disjoint p.requestIds (resultIds results) :=
    ⟨p, hpool ▸ hp, rfl, Finset.Subset.refl _, fun _ _ _ he => absurd he (hne _ _ _)⟩
  have hold {pe : PoolEvent TimeoutCallback} (hpool : PoolStep s.pool pe t.pool)
      (hadd : ∀ n c requestIds callback time,
        pe ≠ .addRequests n c requestIds callback time (.ok ()))
      (hreport : ∀ client results foundIds, e = .report client results foundIds → client.id = c →
        Disjoint p.requestIds (resultIds results)) :
      ∃ q ∈ s.pool.pool.pendingOf c, p.callback = q.callback ∧ p.requestIds ⊆ q.requestIds ∧
      ∀ client results foundIds, e = .report client results foundIds → client.id = c →
        Disjoint p.requestIds (resultIds results) := by
    rcases hpool.pendingOf_cases hp with ⟨q, hq, hcallback, _, hsub, _⟩ | ⟨_, _, _, he, _⟩
    · exact ⟨q, hq, hcallback, hsub, hreport⟩
    · exact absurd he (hadd _ _ _ _ _)
  cases h with
  | registerFailed k call client n time e pool hcall hstage hpool =>
      exact Or.inl (hold hpool (by nofun) (by nofun))
  | register k call client n time pool hcall hstage hpool =>
      rcases hpool.pendingOf_cases hp with
        ⟨q, hq, hcallback, _, hsub, _⟩ | ⟨requestIds, callback, time', he, rfl⟩
      · exact Or.inl ⟨q, hq, hcallback, hsub, by nofun⟩
      · cases he
        exact Or.inr ⟨k, call, client, rfl, hcall, hstage, rfl, rfl⟩
  | refuse k call client status foundIds pool hcall hstage hstatus hpool =>
      exact Or.inl (hold hpool (by nofun) (by nofun))
  | report client results foundIds pool hheld hpool =>
      refine Or.inl (hold hpool (by nofun) ?_)
      rintro client' results' foundIds' he rfl
      cases he
      exact hpool.disjoint_of_finished hp
  | sweep time pool hpool => exact Or.inl (hold hpool (by nofun) (by nofun))
  | timeout order n callback requestIds time pool hpool =>
      exact Or.inl (hold hpool (by nofun) (by nofun))
  | destroy pool hcalls hreleased hpool => exact Or.inl (hold hpool (by nofun) (by nofun))
  | _ => exact Or.inl (hkept rfl (by nofun))

/-- Calls are numbered in the order in which they come in. -/
theorem HalStep.numbered (h : HalStep s e t) (hs : ∀ k, s.nextCall ≤ k → s.calls k = none)
    (hk : t.nextCall ≤ k) : t.calls k = none := by
  obtain ⟨hle, hsame | ⟨rfl, hnext, _⟩ | ⟨call, _, hcall, _⟩⟩ := h.call_cases k
  · exact hsame.trans (hs k (hle.trans hk))
  · rw [hnext] at hk
    exact absurd hk (Nat.not_succ_le_self _)
  · rw [hs k (hle.trans hk)] at hcall
    cases hcall

/-- The client objects of the service are those of their keys. -/
theorem HalStep.clients_keyed (h : HalStep s e t) (hs : Attributed s) {kind : RequestKind}
    {callback : Binder} {client : ConnectedClient}
    (hlookup : (t.clients kind).lookup callback = some client) :
    client.kind = kind ∧ client.callback = callback := by
  cases h with
  | create k call address hcall hstage hclient hfree =>
      rw [HalState.create] at hlookup
      simp only at hlookup
      by_cases hkind : kind = call.kind
      · subst hkind
        rw [Function.update_self, UnorderedMap.lookup_insert_eq] at hlookup
        split at hlookup
        · next hcallback =>
          cases hlookup
          exact ⟨rfl, hcallback.symm⟩
        · exact hs.clients _ _ _ hlookup
      · rw [Function.update_of_ne hkind] at hlookup
        exact hs.clients _ _ _ hlookup
  | binderDied callback' hcontext =>
      simp only [UnorderedMap.lookup_erase_eq] at hlookup
      split at hlookup
      · cases hlookup
      · exact hs.clients _ _ _ hlookup
  | _ => exact hs.clients _ _ _ hlookup

/-- A call refers to an object of its own client. -/
theorem HalStep.stages_keyed (h : HalStep s e t) (hs : Attributed s) {call : Call}
    {client : ConnectedClient} (hcall : t.calls k = some call)
    (hclient : call.stage.client = some client) :
    client.kind = call.kind ∧ client.callback = call.callback := by
  have hentered {other : Call} (hnone : other.stage.client = none)
      (hcall : (s.enter other).calls k = some call) :
      client.kind = call.kind ∧ client.callback = call.callback := by
    rw [calls_enter] at hcall
    split at hcall
    · cases hcall
      rw [hnone] at hclient
      cases hclient
    · exact hs.stages k call client hcall hclient
  have hadvanced (j : Nat) (other : Call) (stage : Stage)
      (hnew : stage.client = some client → client.kind = other.kind ∧
        client.callback = other.callback)
      (hcall : (s.advance j other stage).calls k = some call) :
      client.kind = call.kind ∧ client.callback = call.callback := by
    rw [calls_advance] at hcall
    split at hcall
    · cases hcall
      exact hnew hclient
    · exact hs.stages k call client hcall hclient
  cases h with
  | reject => exact hentered rfl hcall
  | receive => exact hentered rfl hcall
  | clientDied j other hother hstage => exact hadvanced j other (.returned _) nofun hcall
  | connect j other client' hother hstage hclient' =>
      refine hadvanced j other (.connected client') (fun heq => ?_) hcall
      cases heq
      exact hs.clients _ _ _ hclient'
  | create j other address hother hstage hclient' hfree =>
      refine hadvanced j other (.connected _) (fun heq => ?_) hcall
      cases heq
      exact ⟨rfl, rfl⟩
  | registerFailed j other client' n time e pool hother hstage hpool =>
      exact hadvanced j other (.returned _) nofun hcall
  | register j other client' n time pool hother hstage hpool =>
      refine hadvanced j other _ (fun heq => ?_) hcall
      split at heq
      · cases heq
      · exact hs.stages j other client hother (by rw [hstage]; exact heq)
  | forward j other client' hother hstage =>
      refine hadvanced j other (.forwarded client') (fun heq => ?_) hcall
      exact hs.stages j other client hother (by rw [hstage]; exact heq)
  | complete j other client' hother hstage => exact hadvanced j other (.returned _) nofun hcall
  | refuse j other client' status foundIds pool hother hstage hstatus hpool =>
      exact hadvanced j other (.returned _) nofun hcall
  | _ => exact hs.stages k call client hcall hclient

/-- Fewer requests of an unfinished call are still its own. -/
theorem HalState.Owned.mono {callback : TimeoutCallback} {requestIds requestIds' : Finset Int}
    (h : s.Owned callback requestIds) (hsub : requestIds' ⊆ requestIds)
    (hkept : ∀ k call, s.calls k = some call →
      ∃ stage, t.calls k = some { call with stage := stage }) : t.Owned callback requestIds' := by
  obtain ⟨call, hcall, hkind, hcallback, hids⟩ := h
  obtain ⟨stage, hcall'⟩ := hkept _ call hcall
  exact ⟨_, hcall', hkind, hcallback, hsub.trans hids⟩

/-- A reply is one that was there, or the one that is sent. -/
theorem HalState.mem_send {origin : Origin} {client : ConnectedClient}
    {answers : List (Nat × ValueResult)} {reply : Reply}
    (hreply : reply ∈ s.send origin client answers) :
    reply ∈ s.replies ∨ reply = ⟨origin, client.kind, client.callback, answers⟩ := by
  rw [send] at hreply
  split at hreply
  · exact Or.inl hreply
  · rcases List.mem_append.mp hreply with hold | hnew
    · exact Or.inl hold
    · exact Or.inr (List.mem_singleton.mp hnew)

/-- The answers that a step sends belong to their calls. -/
theorem HalStep.replies_cases (h : HalStep s e t) (hs : Attributed s) (hone : OneObject s)
    (hd : DisjointIds s.pool) {reply : Reply} (hreply : reply ∈ t.replies) :
    reply ∈ s.replies ∨ ∀ answer ∈ reply.answers,
      ∃ call, s.calls answer.1 = some call ∧ reply.Fits call answer.2 := by
  cases h with
  | register k call client n time pool hcall hstage hpool =>
      rcases mem_send hreply with hold | rfl
      · exact Or.inl hold
      · refine Or.inr fun answer hanswer => ?_
        obtain ⟨r, hr, rfl⟩ := List.mem_map.mp hanswer
        obtain ⟨hkind, hcallback⟩ := hs.stages k call client hcall (by rw [hstage]; rfl)
        exact ⟨call, hcall, hkind, hcallback, hr⟩
  | report client results foundIds pool hheld hpool =>
      rcases mem_send hreply with hold | rfl
      · exact Or.inl hold
      · refine Or.inr fun answer hanswer => ?_
        obtain ⟨r, hr, rfl⟩ := List.mem_map.mp hanswer
        have hfound : r.requestId ∈ foundIds := of_decide_eq_true (List.mem_filter.mp hr).2
        obtain ⟨_, p, hp, hx⟩ := (hpool.found_iff _).mp hfound
        obtain ⟨call, hcall, hkind, hcallback, hids⟩ := hs.pending _ p hp
        rw [hone.owner (Or.inr (Or.inl hheld)) hp] at hkind hcallback
        refine ⟨call, ?_, hkind, hcallback, hids hx⟩
        rw [callOf_eq hd hp hx]
        exact hcall
  | timeout order n callback requestIds time pool hpool =>
      rcases List.mem_append.mp hreply with hold | hnew
      · exact Or.inl hold
      · rw [List.mem_singleton.mp hnew]
        refine Or.inr fun answer hanswer => ?_
        obtain ⟨r, hr, rfl⟩ := List.mem_map.mp hanswer
        obtain ⟨x, hx, rfl⟩ := List.mem_map.mp hr
        obtain ⟨sweep, hsweep, p, hp, rfl, hleft⟩ := hpool.invoke_mem
        obtain ⟨call, hcall, hkind, hcallback, hids⟩ := hs.sweeps sweep hsweep p hp
        rw [hleft] at hcall hkind hcallback
        exact ⟨call, hcall, hkind, hcallback, hids ((order.mem _ x).mp hx), rfl, rfl⟩
  | _ => exact Or.inl hreply

/-- Every step keeps everything with the call it came from. -/
theorem HalStep.attributed (hs : Attributed s) (hone : OneObject s) (hd : DisjointIds s.pool)
    (h : HalStep s e t) : Attributed t := by
  have hkept : ∀ k call, s.calls k = some call →
      ∃ stage, t.calls k = some { call with stage := stage } :=
    fun k call hcall => h.calls_kept hs.numbered hcall
  refine ⟨fun k hk => h.numbered hs.numbered hk,
    fun kind callback client hlookup => h.clients_keyed hs hlookup,
    fun k call client hcall hclient => h.stages_keyed hs hcall hclient,
    fun c p hp => ?_, fun sweep hsweep p hp => ?_, fun reply hreply answer hanswer => ?_⟩
  · rcases h.pendingOf_cases hp with
      ⟨q, hq, hcallback, hsub, _⟩ | ⟨j, call, client, _, hcall, hstage, hcallback, hids⟩
    · rw [hcallback]
      exact (hs.pending c q hq).mono hsub hkept
    · rw [hcallback, hids]
      obtain ⟨hkind, hbinder⟩ := hs.stages j call client hcall (by rw [hstage]; rfl)
      have howned : s.Owned ⟨j, client⟩ call.ids :=
        ⟨call, hcall, hkind, hbinder, Finset.Subset.refl _⟩
      exact howned.mono (Finset.Subset.refl _) hkept
  · have hold : s.Owned p.callback.2 p.requestIds := by
      rcases h.pool with hsame | ⟨pe, hpool⟩
      · rw [hsame] at hsweep
        exact hs.sweeps sweep hsweep p hp
      · rcases hpool.sweeps_cases hsweep with ⟨sweep', hmem, _, hrest⟩ | ⟨_, htaken⟩
        · exact hs.sweeps sweep' hmem p (hrest p hp)
        · obtain ⟨⟨c, hc⟩, _⟩ := htaken p hp
          exact hs.pending c p hc
    exact hold.mono (Finset.Subset.refl _) hkept
  · obtain ⟨call, hcall, hfits⟩ : ∃ call, s.calls answer.1 = some call ∧
        reply.Fits call answer.2 := by
      rcases h.replies_cases hs hone hd hreply with hold | hnew
      · exact hs.replies reply hold answer hanswer
      · exact hnew answer hanswer
    obtain ⟨stage, hcall'⟩ := hkept _ call hcall
    exact ⟨_, hcall', hfits⟩

/-- A new state attributes no answer. -/
theorem attributed_start (timeoutInNano clock : Int) : Attributed (.start timeoutInNano clock) := by
  refine ⟨fun k _ => rfl, fun kind callback client hlookup => ?_, fun k call client hcall => ?_,
    fun c p hp => ?_, fun sweep hsweep => absurd hsweep List.not_mem_nil,
    fun reply hreply => absurd hreply List.not_mem_nil⟩
  · exact absurd (hlookup.symm.trans (Finmap.lookup_empty _)) nofun
  · cases hcall
  · rw [start, pendingOf_start] at hp
    exact absurd hp List.not_mem_nil

/-- The hardware has reported nothing for the id of the client since the call registered it. -/
def NotReported (events : List HalEvent) (k : Nat) (client : ConnectedClient) (x : Int) : Prop :=
  ∃ before after, events = before ++ .register k client (.ok ()) :: after ∧
    ∀ results foundIds, .report client results foundIds ∈ after → x ∉ resultIds results

/-- Only the first report of an id is passed on: it is found by a report only if no result
has been reported for it since a call of the client registered it. -/
def FirstReports (events : List HalEvent) : Prop :=
  ∀ before client results foundIds after,
    events = before ++ .report client results foundIds :: after →
    ∀ x ∈ foundIds, ∃ k, NotReported before k client x

/-- No result has been reported for what is pending. -/
def Unreported (events : List HalEvent) (s : HalState) : Prop :=
  ∀ c, ∀ p ∈ s.pool.pool.pendingOf c, ∀ x ∈ p.requestIds,
    NotReported events p.callback.2.call p.callback.2.client x

/-- The answer is a result that the hardware has reported to the client, and no result was
reported for its id since its call registered the id. -/
def Reported (events : List HalEvent) (reply : Reply) (answer : Nat × ValueResult) : Prop :=
  ∃ before client results foundIds after,
    events = before ++ .report client results foundIds :: after ∧
    client.kind = reply.kind ∧ client.callback = reply.callback ∧ answer.2 ∈ results ∧
    NotReported before answer.1 client answer.2.requestId

/-- The answers of the hardware are results that it has reported. -/
def AllReported (events : List HalEvent) (s : HalState) : Prop :=
  ∀ reply ∈ s.replies, reply.origin = .hardware → ∀ answer ∈ reply.answers,
    Reported events reply answer

/-- A request stays unreported by an event that does not report it. -/
theorem NotReported.snoc {events : List HalEvent} {client : ConnectedClient}
    (h : NotReported events k client x)
    (he : ∀ results foundIds, e = .report client results foundIds → x ∉ resultIds results) :
    NotReported (events ++ [e]) k client x := by
  obtain ⟨before, after, rfl, hnot⟩ := h
  refine ⟨before, after ++ [e], by simp, fun results foundIds hmem => ?_⟩
  rcases List.mem_append.mp hmem with hold | hnew
  · exact hnot results foundIds hold
  · exact he results foundIds (List.mem_singleton.mp hnew).symm

/-- Every step keeps pending requests unreported. -/
theorem HalStep.unreported {events : List HalEvent} (hs : Unreported events s)
    (hone : OneObject s) (h : HalStep s e t) : Unreported (events ++ [e]) t := by
  intro c p hp x hx
  rcases h.pendingOf_cases hp with
    ⟨q, hq, hcallback, hsub, hreport⟩ | ⟨j, call, client, rfl, _, _, hcallback, _⟩
  · rw [hcallback]
    refine (hs c q hq x (hsub hx)).snoc fun results foundIds he hmem => ?_
    exact Finset.disjoint_left.mp (hreport _ _ _ he (hone.keyed c q hq)) hx hmem
  · rw [hcallback]
    exact ⟨events, [], rfl, fun _ _ hmem => absurd hmem List.not_mem_nil⟩

theorem Reported.snoc {events : List HalEvent} {reply : Reply} {answer : Nat × ValueResult}
    (h : Reported events reply answer) (e : HalEvent) : Reported (events ++ [e]) reply answer := by
  obtain ⟨before, client, results, foundIds, after, rfl, hreported⟩ := h
  exact ⟨before, client, results, foundIds, after ++ [e], by simp, hreported⟩

/-- A batch of the hardware is answered to the calls that wait for its results. -/
theorem AllReported.snoc {events : List HalEvent} (hs : AllReported events s)
    (hunreported : Unreported events s) (hone : OneObject s) (hd : DisjointIds s.pool)
    (h : HalStep s e t) : AllReported (events ++ [e]) t := by
  intro reply hreply horigin answer hanswer
  have hold (hreply : reply ∈ s.replies) : Reported (events ++ [e]) reply answer :=
    (hs reply hreply horigin answer hanswer).snoc e
  cases h with
  | register k call client n time pool hcall hstage hpool =>
      rcases mem_send hreply with hreply | rfl
      · exact hold hreply
      · cases horigin
  | report client results foundIds pool hheld hpool =>
      rcases mem_send hreply with hreply | rfl
      · exact hold hreply
      · obtain ⟨r, hr, rfl⟩ := List.mem_map.mp hanswer
        obtain ⟨hmem, hfound⟩ := List.mem_filter.mp hr
        obtain ⟨_, p, hp, hx⟩ := (hpool.found_iff _).mp (of_decide_eq_true hfound)
        have hnot := hunreported client.id p hp _ hx
        rw [hone.owner (Or.inr (Or.inl hheld)) hp, ← callOf_eq hd hp hx] at hnot
        exact ⟨events, client, results, foundIds, [], rfl, rfl, rfl, hmem, hnot⟩
  | timeout order n callback requestIds time pool hpool =>
      rcases List.mem_append.mp hreply with hreply | hnew
      · exact hold hreply
      · rw [List.mem_singleton.mp hnew] at horigin
        cases horigin
  | _ => exact hold hreply

/-- Every step keeps the reports the first ones. -/
theorem FirstReports.snoc {events : List HalEvent} (h : FirstReports events)
    (hs : Unreported events s) (hone : OneObject s) (hstep : HalStep s e t) :
    FirstReports (events ++ [e]) := by
  intro before client results foundIds after hsplit x hx
  rcases split_snoc hsplit with ⟨after', rfl, rfl⟩ | ⟨rfl, rfl, rfl⟩
  · exact h before client results foundIds after' rfl x hx
  · cases hstep with
    | report _ _ _ pool hheld hpool =>
        obtain ⟨_, p, hp, hxp⟩ := (hpool.found_iff x).mp hx
        have hnot := hs client.id p hp x hxp
        rw [hone.owner (Or.inr (Or.inl hheld)) hp] at hnot
        exact ⟨_, hnot⟩

end VhalCore.VehicleHal
